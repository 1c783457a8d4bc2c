import OxlensSfu.Membership
import OxlensSfu.TrackHandlers

/-
What a subscriber is told about the tracks of a room. The announcement draws missing
virtual SSRCs on its way; read off the state that it leaves behind, it is a plain list.
-/
namespace Catalog
open SfuConfig KeyedMap Participants RoomHubs RoomHub Membership Signaling RoomHandlers TrackHandlers
open FloorControl (UserId)

/-- The tracks of a participant that are announced at all. -/
def visible (simulcast : Bool) (s : ParticipantState) : List Track :=
  s.tracks.filter fun t => !hiddenLayer simulcast t

/-- The SSRC under which a track is announced. -/
def shownSsrc (simulcast : Bool) (vssrc : UInt32) (t : Track) : UInt32 :=
  if simulcast = true ∧ t.kind = .video then vssrc else t.ssrc

def shown (simulcast : Bool) (vssrc : UInt32) (userId : UserId) (t : Track) : TrackInfo :=
  { announced userId t with ssrc := shownSsrc simulcast vssrc t }

/-- The announcement of one participant, from its own state. -/
def offers (simulcast : Bool) (userId : UserId) (s : ParticipantState) : List TrackInfo :=
  (visible simulcast s).map (shown simulcast s.simulcastVideoSsrc userId)

/-- The SSRCs of that announcement. -/
def offeredSsrcs (simulcast : Bool) (s : ParticipantState) : List UInt32 :=
  (visible simulcast s).map (shownSsrc simulcast s.simulcastVideoSsrc)

theorem offers_ssrcs (simulcast : Bool) (userId : UserId) (s : ParticipantState) :
    (offers simulcast userId s).map (·.ssrc) = offeredSsrcs simulcast s := by
  rw [offers, offeredSsrcs, List.map_map]
  rfl

def listing (arcs : Ptr → Participant) (room : Room) (heap : Heap) (exclude : UserId) :
    List TrackInfo :=
  (room.otherParticipants exclude).flatMap fun p =>
    offers room.simulcastEnabled (arcs p).userId (heap p)

theorem listing_ssrcs (arcs : Ptr → Participant) (room : Room) (heap : Heap) (exclude : UserId) :
    (listing arcs room heap exclude).map (·.ssrc) =
      (room.otherParticipants exclude).flatMap fun p =>
        offeredSsrcs room.simulcastEnabled (heap p) := by
  rw [listing, List.map_flatMap]
  exact List.flatMap_congr fun p _ => offers_ssrcs _ _ _

section Draws
variable (s : ParticipantState) (draw draw' : NonzeroSsrc)

theorem ensure_snd : (s.ensureSimulcastVideoSsrc draw).2 =
    (s.ensureSimulcastVideoSsrc draw).1.simulcastVideoSsrc := by
  unfold ParticipantState.ensureSimulcastVideoSsrc
  split <;> rfl

theorem ensure_nonzero : (s.ensureSimulcastVideoSsrc draw).1.simulcastVideoSsrc ≠ 0 := by
  unfold ParticipantState.ensureSimulcastVideoSsrc
  split
  · rename_i drawn
    exact drawn
  · exact draw.property

/-- A virtual SSRC that is there is never drawn again. -/
theorem ensure_of_drawn (drawn : s.simulcastVideoSsrc ≠ 0) :
    s.ensureSimulcastVideoSsrc draw = (s, s.simulcastVideoSsrc) := by
  rw [ParticipantState.ensureSimulcastVideoSsrc, if_pos drawn]

@[simp] theorem ensure_again :
    ((s.ensureSimulcastVideoSsrc draw).1.ensureSimulcastVideoSsrc draw').1 =
      (s.ensureSimulcastVideoSsrc draw).1 := by
  rw [ensure_of_drawn _ _ (ensure_nonzero s draw)]

@[simp] theorem ensure_tracks : (s.ensureSimulcastVideoSsrc draw).1.tracks = s.tracks :=
  view_ensure (fun _ _ => rfl) s draw

@[simp] theorem ensure_subscribeLayers :
    (s.ensureSimulcastVideoSsrc draw).1.subscribeLayers = s.subscribeLayers :=
  view_ensure (fun _ _ => rfl) s draw

end Draws

section Replacement
variable (room : Room) (draws : Ptr → NonzeroSsrc)

/-- The participants whose virtual SSRC the replacement looks up. -/
def Consulted (tracks : List TrackInfo) (p : Ptr) : Prop :=
  ∃ t ∈ tracks, t.kind = .video ∧ room.getParticipant t.userId = some p

/-- An announced track under the virtual SSRC that the heap holds for its publisher. -/
def relabel (heap : Heap) (t : TrackInfo) : TrackInfo :=
  if t.kind = .video then
    match room.getParticipant t.userId with
    | some p => { t with ssrc := (heap p).simulcastVideoSsrc, rid := none }
    | none => { t with rid := none }
  else t

theorem consulted_cons {t : TrackInfo} {tracks : List TrackInfo} {p : Ptr} :
    Consulted room (t :: tracks) p ↔
      (t.kind = .video ∧ room.getParticipant t.userId = some p) ∨ Consulted room tracks p := by
  simp [Consulted]

/-- One round: the state of the publisher of a video track is drawn, no other one. -/
theorem replaceVideoSsrc_spec (state : Heap × List TrackInfo) (t : TrackInfo) :
    let next := replaceVideoSsrc room draws state t
    next.2 = state.2 ++ [relabel room next.1 t] ∧
      ∀ p, (t.kind = .video ∧ room.getParticipant t.userId = some p →
          next.1 p = ((state.1 p).ensureSimulcastVideoSsrc (draws p)).1) ∧
        (¬(t.kind = .video ∧ room.getParticipant t.userId = some p) → next.1 p = state.1 p) := by
  intro next
  obtain ⟨heap, done⟩ := state
  by_cases video : t.kind = .video
  · cases found : room.getParticipant t.userId with
    | none =>
      have shape : next = (heap, done ++ [{ t with rid := none }]) := by
        simp [next, replaceVideoSsrc, video, found]
      rw [shape]
      exact ⟨by simp [relabel, video, found], fun p => ⟨fun asked => by simp at asked, fun _ => rfl⟩⟩
    | some q =>
      have shape : next = (mutate heap q fun _ => ((heap q).ensureSimulcastVideoSsrc (draws q)).1,
          done ++ [{ t with ssrc := ((heap q).ensureSimulcastVideoSsrc (draws q)).2, rid := none }]) := by
        simp [next, replaceVideoSsrc, video, found]
      rw [shape]
      refine ⟨by simp [relabel, video, found, ensure_snd], fun p => ⟨fun asked => ?_, fun other => ?_⟩⟩
      · obtain rfl : q = p := by simpa using asked.2
        simp only [mutate_self]
      · simp only
        rw [mutate_ne]
        intro same
        exact other ⟨video, by rw [same]⟩
  · have shape : next = (heap, done ++ [t]) := by simp [next, replaceVideoSsrc, video]
    rw [shape]
    exact ⟨by simp [relabel, video], fun p => ⟨fun asked => absurd asked.1 video, fun _ => rfl⟩⟩

/-- The whole loop. A later round finds the SSRC of an earlier one. -/
theorem replaceAll_spec (tracks : List TrackInfo) (state : Heap × List TrackInfo) :
    let next := tracks.foldl (replaceVideoSsrc room draws) state
    next.2 = state.2 ++ tracks.map (relabel room next.1) ∧
      ∀ p, (Consulted room tracks p →
          next.1 p = ((state.1 p).ensureSimulcastVideoSsrc (draws p)).1) ∧
        (¬ Consulted room tracks p → next.1 p = state.1 p) := by
  induction tracks generalizing state with
  | nil =>
    refine ⟨by simp, fun p => ⟨fun asked => ?_, fun _ => rfl⟩⟩
    obtain ⟨t, member, _⟩ := asked
    simp at member
  | cons t tracks ih =>
    obtain ⟨one, drawn⟩ := replaceVideoSsrc_spec room draws state t
    rw [List.foldl_cons]
    generalize replaceVideoSsrc room draws state t = first at one drawn
    obtain ⟨rest, later⟩ := ih first
    intro next
    have states : ∀ p, (Consulted room (t :: tracks) p →
        next.1 p = ((state.1 p).ensureSimulcastVideoSsrc (draws p)).1) ∧
        (¬ Consulted room (t :: tracks) p → next.1 p = state.1 p) := by
      intro p
      rw [consulted_cons]
      by_cases here : t.kind = .video ∧ room.getParticipant t.userId = some p
      · have now := (drawn p).1 here
        refine ⟨fun _ => ?_, fun apart => absurd (.inl here) apart⟩
        by_cases again : Consulted room tracks p
        · exact ((later p).1 again).trans (by rw [now, ensure_again])
        · exact ((later p).2 again).trans now
      · have now := (drawn p).2 here
        refine ⟨fun asked => ?_, fun apart => ?_⟩
        · have tail := asked.resolve_left here
          exact ((later p).1 tail).trans (by rw [now])
        · exact ((later p).2 fun tail => apart (.inr tail)).trans now
    refine ⟨?_, states⟩
    -- The first track keeps the label that it got in its own round.
    have label : relabel room first.1 t = relabel room next.1 t := by
      unfold relabel
      split
      · rename_i video
        split
        · rename_i p found
          rw [(drawn p).1 ⟨video, found⟩,
            (states p).1 ((consulted_cons room).mpr (.inl ⟨video, found⟩))]
        · rfl
      · rfl
    rw [List.map_cons, ← label]
    refine rest.trans ?_
    rw [one, List.append_assoc]
    rfl

/-- What the replacement leaves behind, and the list it gives back. -/
theorem simulcastReplace_spec (heap : Heap) (tracks : List TrackInfo) :
    let next := simulcastReplaceVideoSsrc room heap draws tracks
    next.2 = (if room.simulcastEnabled then tracks.map (relabel room next.1) else tracks) ∧
      ∀ p, (room.simulcastEnabled = true ∧ Consulted room tracks p →
          next.1 p = ((heap p).ensureSimulcastVideoSsrc (draws p)).1) ∧
        (¬(room.simulcastEnabled = true ∧ Consulted room tracks p) → next.1 p = heap p) := by
  unfold simulcastReplaceVideoSsrc
  split
  · rename_i simulcast
    simpa [simulcast] using replaceAll_spec room draws tracks (heap, [])
  · rename_i plain
    simp [plain]

/-- Nothing else changes in the states of the participants. -/
theorem simulcastReplace_shows {α : Type} {view : ParticipantState → α}
    (hidden : ∀ s vssrc, view { s with simulcastVideoSsrc := vssrc } = view s) (heap : Heap)
    (tracks : List TrackInfo) :
    Shows view heap (simulcastReplaceVideoSsrc room heap draws tracks).1 := by
  intro p
  obtain ⟨_, states⟩ := simulcastReplace_spec room draws heap tracks
  by_cases asked : room.simulcastEnabled = true ∧ Consulted room tracks p
  · rw [(states p).1 asked]
    exact view_ensure hidden (heap p) (draws p)
  · rw [(states p).2 asked]

end Replacement

section Collection
variable (arcs : Ptr → Participant) (room : Room) (heap : Heap) (draws : Ptr → NonzeroSsrc)
  (exclude : UserId)

/-- The participants of a room stand under their own names. -/
def Named : Prop := ∀ u p, room.participants.lookup u = some p → (arcs p).userId = u

variable {arcs room exclude}

theorem Named.get (named : Named arcs room) {p : Ptr} (member : p ∈ room.otherParticipants exclude) :
    room.getParticipant (arcs p).userId = some p ∧ (arcs p).userId ≠ exclude := by
  obtain ⟨u, other, entry⟩ := mem_otherParticipants.mp member
  rw [named u p entry]
  exact ⟨entry, other⟩

variable (arcs room exclude)

/-- The raw list, before the virtual SSRCs are put in. -/
def rawListing : List TrackInfo :=
  (room.otherParticipants exclude).flatMap fun p =>
    (visible room.simulcastEnabled (heap p)).map (announced (arcs p).userId)

theorem collect_eq : collectSubscribeTracks arcs room heap draws exclude =
    simulcastReplaceVideoSsrc room heap draws (rawListing arcs room heap exclude) := rfl

variable {arcs room exclude}

/-- Whose virtual SSRC the announcement looks up: every other participant with a visible
    video track. -/
theorem consulted_raw (named : Named arcs room) (p : Ptr) :
    Consulted room (rawListing arcs room heap exclude) p ↔
      p ∈ room.otherParticipants exclude ∧
        ∃ t ∈ visible room.simulcastEnabled (heap p), t.kind = .video := by
  simp only [Consulted, rawListing, List.mem_flatMap, List.mem_map]
  constructor
  · intro found
    obtain ⟨_, ⟨q, member, t, inside, rfl⟩, video, entry⟩ := found
    have same : q = p := by
      have own := (named.get member).1
      simp only [announced] at entry
      rw [own, Option.some.injEq] at entry
      exact entry
    subst same
    exact ⟨member, t, inside, video⟩
  · intro found
    obtain ⟨member, t, inside, video⟩ := found
    exact ⟨_, ⟨p, member, t, inside, rfl⟩, video, (named.get member).1⟩

theorem relabel_raw (named : Named arcs room) (h : Heap) {p : Ptr}
    (member : p ∈ room.otherParticipants exclude) (t : Track) (simulcast : room.simulcastEnabled) :
    relabel room h (announced (arcs p).userId t) =
      shown room.simulcastEnabled (h p).simulcastVideoSsrc (arcs p).userId t := by
  have own := (named.get member).1
  by_cases video : t.kind = .video
  · simp [relabel, shown, shownSsrc, announced, video, own, simulcast]
  · simp [relabel, shown, shownSsrc, announced, video]

/-- The announcement changes nothing but virtual SSRCs that were not drawn. -/
theorem collect_heap (named : Named arcs room) (p : Ptr) :
    (collectSubscribeTracks arcs room heap draws exclude).1 p = heap p ∨
      (room.simulcastEnabled = true ∧ p ∈ room.otherParticipants exclude ∧
        (collectSubscribeTracks arcs room heap draws exclude).1 p =
          ((heap p).ensureSimulcastVideoSsrc (draws p)).1) := by
  obtain ⟨_, states⟩ := simulcastReplace_spec room draws heap (rawListing arcs room heap exclude)
  by_cases asked : room.simulcastEnabled = true ∧
      Consulted room (rawListing arcs room heap exclude) p
  · exact .inr ⟨asked.1, ((consulted_raw heap named p).mp asked.2).1, (states p).1 asked⟩
  · exact .inl ((states p).2 asked)

/-- Every publisher that is announced with a video track has its virtual SSRC from then on. -/
theorem collect_drawn (named : Named arcs room) {p : Ptr} (simulcast : room.simulcastEnabled = true)
    (member : p ∈ room.otherParticipants exclude) {t : Track}
    (inside : t ∈ visible room.simulcastEnabled (heap p)) (video : t.kind = .video) :
    (collectSubscribeTracks arcs room heap draws exclude).1 p =
      ((heap p).ensureSimulcastVideoSsrc (draws p)).1 := by
  obtain ⟨_, states⟩ := simulcastReplace_spec room draws heap (rawListing arcs room heap exclude)
  exact (states p).1 ⟨simulcast, (consulted_raw heap named p).mpr ⟨member, t, inside, video⟩⟩

theorem collect_tracks (named : Named arcs room) (p : Ptr) :
    ((collectSubscribeTracks arcs room heap draws exclude).1 p).tracks = (heap p).tracks := by
  rcases collect_heap heap draws named p with same | ⟨_, _, drawn⟩
  · rw [same]
  · rw [drawn, ensure_tracks]

/-- States that offer the same make the same list. -/
theorem listing_congr {heap heap' : Heap}
    (same : ∀ p ∈ room.otherParticipants exclude,
      offers room.simulcastEnabled (arcs p).userId (heap p) =
        offers room.simulcastEnabled (arcs p).userId (heap' p)) :
    listing arcs room heap exclude = listing arcs room heap' exclude :=
  List.flatMap_congr same

/-- The virtual SSRC matters only where there is video to announce. -/
theorem offers_congr {simulcast : Bool} {userId : UserId} {s s' : ParticipantState}
    (tracks : s.tracks = s'.tracks)
    (vssrc : simulcast = true → ∀ t ∈ visible simulcast s, t.kind = .video →
      s.simulcastVideoSsrc = s'.simulcastVideoSsrc) :
    offers simulcast userId s = offers simulcast userId s' := by
  have same : visible simulcast s = visible simulcast s' := by rw [visible, visible, tracks]
  rw [offers, offers, ← same]
  refine List.map_congr_left fun t inside => ?_
  unfold shown shownSsrc
  by_cases asked : simulcast = true ∧ t.kind = .video
  · rw [vssrc asked.1 t inside asked.2]
  · rw [if_neg asked, if_neg asked]

/-- The answer of the announcement, read off the state that it leaves behind. -/
theorem collect_listing (named : Named arcs room) :
    (collectSubscribeTracks arcs room heap draws exclude).2 =
      listing arcs room (collectSubscribeTracks arcs room heap draws exclude).1 exclude := by
  have tracks : ∀ p, ((collectSubscribeTracks arcs room heap draws exclude).1 p).tracks =
      (heap p).tracks := collect_tracks heap draws named
  obtain ⟨result, _⟩ := simulcastReplace_spec room draws heap (rawListing arcs room heap exclude)
  simp only [← collect_eq] at result
  rw [result]
  unfold listing
  split
  · rename_i simulcast
    rw [rawListing, List.map_flatMap]
    refine List.flatMap_congr fun p member => ?_
    rw [List.map_map, offers, visible, visible, tracks]
    refine List.map_congr_left fun t _ => ?_
    exact relabel_raw named _ member t simulcast
  · rename_i plain
    refine List.flatMap_congr fun p member => ?_
    rw [offers, visible, visible, tracks]
    refine List.map_congr_left fun t _ => ?_
    simp [shown, shownSsrc, announced, plain]

end Collection

section Publishing
variable (u : UserId)

/-- A registered track as the publisher's answer lists it, with its layer. -/
def told (t : Track) : TrackInfo := { announced u t with rid := t.rid }

/-- The track that a registration appends. -/
def newTrack (s : ParticipantState) (ssrc : UInt32) (kind : TrackKind) (trackId : String)
    (rid : Option String) (group : Option UInt32) (codec : VideoCodec) (pt rtxPt : UInt8) : Track :=
  ⟨ssrc, kind, trackId, if kind = .video then some (s.allocRtxSsrc ssrc).2 else none, false, rid,
    group, codec, pt, rtxPt⟩

theorem addTrackFull_known {s : ParticipantState} {ssrc : UInt32}
    (known : s.tracks.any (·.ssrc == ssrc) = true) (kind : TrackKind) (trackId : String)
    (rid : Option String) (group : Option UInt32) (codec : VideoCodec) (pt rtxPt : UInt8) :
    s.addTrackFull ssrc kind trackId rid group codec pt rtxPt = s := by
  simp only [ParticipantState.addTrackFull, known, if_true]

theorem addTrackFull_fresh {s : ParticipantState} {ssrc : UInt32}
    (fresh : ¬ s.tracks.any (·.ssrc == ssrc) = true) (kind : TrackKind) (trackId : String)
    (rid : Option String) (group : Option UInt32) (codec : VideoCodec) (pt rtxPt : UInt8) :
    (s.addTrackFull ssrc kind trackId rid group codec pt rtxPt).tracks =
      s.tracks ++ [newTrack s ssrc kind trackId rid group codec pt rtxPt] := by
  simp only [ParticipantState.addTrackFull, fresh]
  cases kind <;> rfl

/-- One item of a publication: ignored, told under a new id for a track that is registered
    already, or registered and told. -/
theorem publishTrack_cases (pub : Publishing) (t : PublishTrackItem) :
    let next := publishTrack u pub t
    (kindOf t.kind = none ∧ next = pub) ∨
      (pub.state.tracks.any (·.ssrc == t.ssrc) = true ∧ next.state = pub.state ∧
        ∃ info, next.newTracks = pub.newTracks ++ [info] ∧ info.userId = u ∧ info.rid = t.rid ∧
          kindOf t.kind ≠ none) ∨
      (pub.state.tracks.any (·.ssrc == t.ssrc) = false ∧ ∃ track,
        next.state.tracks = pub.state.tracks ++ [track] ∧ track.ssrc = t.ssrc ∧
        next.newTracks = pub.newTracks ++ [told u track] ∧ kindOf t.kind ≠ none) := by
  intro next
  cases kind : kindOf t.kind with
  | none => exact .inl ⟨rfl, by simp only [next, publishTrack, kind]⟩
  | some k =>
    right
    by_cases known : pub.state.tracks.any (·.ssrc == t.ssrc) = true
    · left
      simp only [next, publishTrack, kind, addTrackFull_known known]
      exact ⟨known, trivial, _, rfl, rfl, rfl, by simp⟩
    · right
      let track := newTrack pub.state t.ssrc k (u ++ "_" ++ toString pub.trackIdCounter) t.rid
        (t.rid.map fun _ => pub.groupCounter) (.fromStrOrDefault t.codec) (t.pt.getD 0)
        (t.rtxPt.getD 0)
      have added : (pub.state.addTrackFull t.ssrc k (u ++ "_" ++ toString pub.trackIdCounter) t.rid
          (t.rid.map fun _ => pub.groupCounter) (.fromStrOrDefault t.codec) (t.pt.getD 0)
          (t.rtxPt.getD 0)).tracks = pub.state.tracks ++ [track] :=
        addTrackFull_fresh known k _ t.rid _ _ _ _
      refine ⟨by simpa using known, track, ?_, rfl, ?_, by simp⟩
      · simp only [next, publishTrack, kind]
        exact added
      · -- The lookup by SSRC finds the track that was appended.
        have others : pub.state.tracks.find? (·.ssrc == t.ssrc) = none := by
          rw [List.find?_eq_none]
          intro other member same
          exact known (List.any_eq_true.mpr ⟨other, member, same⟩)
        simp only [next, publishTrack, kind, ParticipantState.findTrack, added,
          List.find?_append, others]
        simp [told, announced, newTrack, track]

/-- Every track is an old one, or it is told; and nobody else's tracks are told. -/
structure Listed (s : ParticipantState) (pub : Publishing) : Prop where
  own : ∀ info ∈ pub.newTracks, info.userId = u
  tracks : ∀ t ∈ pub.state.tracks, t ∈ s.tracks ∨ told u t ∈ pub.newTracks

theorem publishTrack_listed {s : ParticipantState} {pub : Publishing} (known : Listed u s pub)
    (t : PublishTrackItem) : Listed u s (publishTrack u pub t) := by
  rcases publishTrack_cases u pub t with
    ⟨_, same⟩ | ⟨_, state, info, listed, own, _⟩ | ⟨_, track, added, _, listed, _⟩
  · rw [same]
    exact known
  · constructor
    · intro other member
      rw [listed, List.mem_append, List.mem_singleton] at member
      rcases member with before | rfl
      · exact known.own other before
      · exact own
    · intro other member
      rw [state] at member
      rw [listed]
      exact (known.tracks other member).imp id fun told => List.mem_append_left _ told
  · constructor
    · intro other member
      rw [listed, List.mem_append, List.mem_singleton] at member
      rcases member with before | rfl
      · exact known.own other before
      · rfl
    · intro other member
      rw [added, List.mem_append, List.mem_singleton] at member
      rw [listed]
      rcases member with before | rfl
      · exact (known.tracks other before).imp id fun told => List.mem_append_left _ told
      · exact .inr (List.mem_append_right _ List.mem_cons_self)

theorem publishAll_listed (s : ParticipantState) (req : PublishTracksRequest) :
    Listed u s (publishAll s u req) := by
  apply publishAll_invariant
  · exact fun pub t known => publishTrack_listed u known t
  · exact ⟨by simp, fun t member => .inl member⟩
  · exact fun id => ⟨by simp, fun t member => .inl member⟩

end Publishing
end Catalog
