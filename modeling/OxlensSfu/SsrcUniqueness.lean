import OxlensSfu.CacheFrames
import OxlensSfu.LastSeen

/-
The SSRCs of a room. Clients choose the media SSRCs and the server draws the virtual ones;
an RTX SSRC is derived from the media SSRC and from the number of video tracks that its
participant had registered before, without a look at any other SSRC. That number is read
off the history of the registrations, which is kept beside the server.
-/
namespace SsrcUniqueness
open WireBytes KeyedMap Participants RoomHubs RoomHub Membership Signaling RoomHandlers TrackHandlers
open Ingress Servers Seating GuardedRun Catalog LastSeen MemberFrames
open FloorControl (UserId)

/-- The virtual video SSRC, once it is drawn. -/
def drawnSsrc (s : ParticipantState) : List UInt32 :=
  if s.simulcastVideoSsrc = 0 then [] else [s.simulcastVideoSsrc]

section Room
variable (heap : Heap) (room : Room)

/-- What clients chose and what was drawn at random. -/
def chosenSsrcs : List UInt32 :=
  room.audioRewriter.virtualSsrc :: room.videoRewriter.virtualSsrc ::
    (values room.participants).flatMap fun p => drawnSsrc (heap p) ++ (heap p).tracks.map (·.ssrc)

def rtxSsrcs : List UInt32 :=
  (values room.participants).flatMap fun p => (heap p).tracks.filterMap (·.rtxSsrc)

def ssrcsInUse : List UInt32 := chosenSsrcs heap room ++ rtxSsrcs heap room

end Room

/-- Of a history with the newest entry in front: how many entries are older than the last one
    of the SSRC. -/
def placeOf : List UInt32 → UInt32 → Nat
  | [], _ => 0
  | newest :: older, ssrc => if newest = ssrc then older.length else placeOf older ssrc

/-- The SSRCs of the video tracks that were appended, the newest in front. -/
def newVideos (before after : List Track) : List UInt32 :=
  (((after.drop before.length).filter (·.kind == .video)).map (·.ssrc)).reverse

/-- The server, and the video tracks that each participant ever registered. -/
structure Registry where
  server : Server
  videos : Ptr → List UInt32

def start : Registry := ⟨.new, fun _ => []⟩

inductive Event where
  | server (e : Servers.Event)
  | removeTrack (p : Ptr) (ssrc : UInt32)

section Step
variable (hmacSha1 : Bytes → Bytes → Bytes) (crc32 : Bytes → UInt32)

def step (c : Registry) : Event → Registry
  | .server e =>
    let server := Servers.step hmacSha1 crc32 c.server e
    ⟨server, fun p => newVideos (c.server.hub.heap p).tracks (server.hub.heap p).tracks ++ c.videos p⟩
  | .removeTrack p ssrc =>
    let heap := mutate c.server.hub.heap p fun s => (s.removeTrack ssrc).1
    { c with server := { c.server with hub := { c.server.hub with heap := heap } } }

end Step

/-- The registered video tracks of a participant, each with its place in the history. -/
def placed (s : ParticipantState) (videos : List UInt32) : List (UInt32 × Nat) :=
  (s.tracks.filter (·.kind == .video)).map fun t => (t.ssrc, placeOf videos t.ssrc)

def registrations (c : Registry) (room : Room) : List (UInt32 × Nat) :=
  (values room.participants).flatMap fun p => placed (c.server.hub.heap p) (c.videos p)

/-- No SSRC of the room is 1000 and its place above that of a video track, and no two video
    tracks are as far apart as their places are the other way around. -/
structure Apart (c : Registry) (room : Room) : Prop where
  clear : ∀ v ∈ registrations c room, ∀ ssrc ∈ chosenSsrcs c.server.hub.heap room,
    ssrc - v.1 ≠ 1000 + UInt32.ofNat v.2
  spread : (registrations c room).Pairwise fun v w =>
    w.1 - v.1 ≠ UInt32.ofNat v.2 - UInt32.ofNat w.2

/-- What allocations are made from and kept in. -/
def holdings (s : ParticipantState) : List Track × UInt32 := (s.tracks, s.rtxSsrcCounter)

/-- Counter and RTX SSRCs are what the history says. -/
structure Allocated (s : ParticipantState) (videos : List UInt32) : Prop where
  counter : s.rtxSsrcCounter = UInt32.ofNat videos.length
  tracks : ∀ t ∈ s.tracks, t.rtxSsrc =
    if t.kind = .video then some (t.ssrc + 1000 + UInt32.ofNat (placeOf videos t.ssrc)) else none

/-- Every participant's allocations are accounted for, and nobody is who was not built. -/
structure Recorded (c : Registry) : Prop where
  seated : Seated c.server.hub
  allocated : ∀ p, Allocated (c.server.hub.heap p) (c.videos p)
  unbuilt : ∀ p, c.server.hub.nextPtr ≤ p → c.videos p = []

theorem newVideos_same (tracks : List Track) : newVideos tracks tracks = [] := by
  simp [newVideos]

theorem newVideos_nil (before : List Track) : newVideos before [] = [] := by
  simp [newVideos]

theorem newVideos_append {before after : List Track} (longer : before.length ≤ after.length) (t : Track) :
    newVideos before (after ++ [t]) =
      (if t.kind = .video then [t.ssrc] else []) ++ newVideos before after := by
  rw [newVideos, List.drop_append_of_le_length longer, List.filter_append, List.map_append,
    List.reverse_append, ← newVideos]
  cases here : t.kind <;> simp [here]

namespace Allocated
variable {s : ParticipantState} {videos : List UInt32}

theorem of_holdings {t : ParticipantState} (allocated : Allocated s videos)
    (same : holdings t = holdings s) : Allocated t videos := by
  obtain ⟨tracks, counter⟩ := Prod.mk.inj same
  constructor
  · rw [counter, allocated.counter]
  · rw [tracks]
    exact allocated.tracks

/-- A new video track takes the next place, and no other track is moved. -/
theorem addTrackFull {before : List Track} (longer : before.length ≤ s.tracks.length)
    (allocated : Allocated s (newVideos before s.tracks ++ videos)) (ssrc : UInt32) (kind : TrackKind)
    (trackId : String) (rid : Option String) (group : Option UInt32) (codec : VideoCodec)
    (pt rtxPt : UInt8) :
    let next := s.addTrackFull ssrc kind trackId rid group codec pt rtxPt
    before.length ≤ next.tracks.length ∧ Allocated next (newVideos before next.tracks ++ videos) := by
  intro next
  by_cases known : s.tracks.any (·.ssrc == ssrc) = true
  · simp only [next, addTrackFull_known known]
    exact ⟨longer, allocated⟩
  let old := newVideos before s.tracks ++ videos
  let track := newTrack s ssrc kind trackId rid group codec pt rtxPt
  have added : next.tracks = s.tracks ++ [track] :=
    addTrackFull_fresh known kind trackId rid group codec pt rtxPt
  have history : newVideos before next.tracks ++ videos =
      (if kind = .video then [ssrc] else []) ++ old := by
    rw [added, newVideos_append longer, List.append_assoc]
    rfl
  have kept : ∀ t ∈ s.tracks, t.ssrc ≠ ssrc := by
    intro t member same
    exact known (List.any_eq_true.mpr ⟨t, member, by simp [same]⟩)
  rw [history]
  refine ⟨by rw [added, List.length_append]; omega, ?_, ?_⟩
  · have counted : next.rtxSsrcCounter = if kind = .video then s.rtxSsrcCounter + 1 else s.rtxSsrcCounter := by
      simp only [next, ParticipantState.addTrackFull, known]
      cases kind <;> rfl
    rw [counted, allocated.counter]
    cases kind
    · rfl
    · simp [old, UInt32.ofNat_add]
  · intro t member
    rw [added, List.mem_append, List.mem_singleton] at member
    rcases member with member | rfl
    · rw [allocated.tracks t member]
      cases kind
      · rfl
      · simp [placeOf, Ne.symm (kept t member), old]
    · cases kind
      · rfl
      · simp [track, newTrack, ParticipantState.allocRtxSsrc, placeOf, allocated.counter, old]

theorem publishAll (allocated : Allocated s videos) (u : UserId) (req : PublishTracksRequest) :
    Allocated (publishAll s u req).state (newVideos s.tracks (publishAll s u req).state.tracks ++ videos) := by
  have from_start : ∀ t : ParticipantState, holdings t = holdings s →
      s.tracks.length ≤ t.tracks.length ∧ Allocated t (newVideos s.tracks t.tracks ++ videos) := by
    intro t same
    rw [(Prod.mk.inj same).1, newVideos_same]
    exact ⟨Nat.le_refl _, allocated.of_holdings same⟩
  refine (@publishAll_invariant (fun pub => s.tracks.length ≤ pub.state.tracks.length ∧
    Allocated pub.state (newVideos s.tracks pub.state.tracks ++ videos)) u s ?_ (from_start s rfl)
    (fun id => from_start _ rfl) req).2
  rintro pub t ⟨longer, kept⟩
  unfold publishTrack
  split
  · exact ⟨longer, kept⟩
  · exact addTrackFull longer kept _ _ _ _ _ _ _ _

theorem removeTrack (allocated : Allocated s videos) (ssrc : UInt32) :
    Allocated (s.removeTrack ssrc).1 videos := by
  unfold ParticipantState.removeTrack
  split
  · exact ⟨allocated.counter, fun t member => allocated.tracks t (List.mem_of_mem_eraseIdx member)⟩
  · exact allocated

end Allocated

section Run
variable (hmacSha1 : Bytes → Bytes → Bytes) (crc32 : Bytes → UInt32)

theorem nextPtr_le (s : Server) (e : Servers.Event) :
    s.hub.nextPtr ≤ (Servers.step hmacSha1 crc32 s e).hub.nextPtr := by
  have built : (∀ remote buf o, e ≠ .rtp remote buf o) →
      s.hub.nextPtr ≤ (Servers.step hmacSha1 crc32 s e).hub.nextPtr := by
    intro notRtp
    rcases CacheFrames.step_built hmacSha1 crc32 s e notRtp with quiet | built
    · exact Nat.le_of_eq quiet.nextPtr.symm
    · rw [built.nextPtr]
      exact Nat.le_succ _
  cases e with
  | rtp remote buf o => exact Nat.le_of_eq (handleSrtp_keeps remote buf o).nextPtr.symm
  | _ => exact built fun _ _ _ other => nomatch other

theorem refreshed_holdings (refresh : Refresh) (h : Heap) : Shows holdings h (refreshed refresh h) := by
  cases refresh with
  | none => exact .refl holdings h
  | some refresh =>
    have touched : Shows holdings h (mutate h refresh.1 fun s => s.touch refresh.2) := .mutate rfl
    exact touched

theorem holdings_of_account {s t : ParticipantState} (same : account t = account s) :
    holdings t = holdings s := (Prod.mk.inj same).2

/-- An event of the server keeps the history of each participant, and begins none before
    the participant is built. -/
theorem server_recorded {c : Registry} (recorded : Recorded c) (e : Servers.Event) (q : Ptr) :
    let heap := (Servers.step hmacSha1 crc32 c.server e).hub.heap
    let videos := newVideos (c.server.hub.heap q).tracks (heap q).tracks ++ c.videos q
    Allocated (heap q) videos ∧ (c.server.hub.nextPtr ≤ q → videos = []) := by
  intro heap videos
  have before := recorded.allocated q
  have quiet : holdings (heap q) = holdings (c.server.hub.heap q) →
      Allocated (heap q) videos ∧ (c.server.hub.nextPtr ≤ q → videos = []) := by
    intro same
    have history : videos = c.videos q := by
      simp only [videos, (Prod.mk.inj same).1, newVideos_same, List.nil_append]
    rw [history]
    exact ⟨before.of_holdings same, recorded.unbuilt q⟩
  cases step_accounted hmacSha1 crc32 c.server e with
  | refreshed same =>
    exact quiet ((holdings_of_account (same q)).trans (refreshed_holdings _ _ q))
  | joined reading _ same =>
    have shown : holdings (heap q) = _ := holdings_of_account (same q)
    by_cases here : q = c.server.hub.nextPtr
    · rw [here, Function.update_self, ← here] at shown
      have history : videos = [] := by
        simp only [videos, (Prod.mk.inj shown).1, recorded.unbuilt q (Nat.le_of_eq here.symm), List.append_nil]
        exact newVideos_nil _
      have opened : Allocated (.new reading) [] := ⟨rfl, fun _ member => nomatch member⟩
      rw [history]
      exact ⟨opened.of_holdings shown, fun _ => rfl⟩
    · rw [Function.update_of_ne here] at shown
      exact quiet shown
  | published r u room p req _ held seat same =>
    have shown : holdings (heap q) = _ := holdings_of_account (same q)
    by_cases here : q = p
    · subst here
      rw [mutate_self] at shown
      have history : videos = newVideos (c.server.hub.heap q).tracks
          (publishAll (c.server.hub.heap q) u req).state.tracks ++ c.videos q := by
        simp only [videos, (Prod.mk.inj shown).1]
      rw [history]
      refine ⟨(before.publishAll u req).of_holdings shown, fun unbuilt => ?_⟩
      have built := recorded.seated.sound.allocated ⟨room, held, seat⟩
      exact absurd unbuilt (Nat.not_le.mpr built)
    · rw [mutate_ne _ here] at shown
      exact quiet shown

theorem step_recorded (c : Registry) (e : Event) (recorded : Recorded c) :
    Recorded (step hmacSha1 crc32 c e) := by
  cases e with
  | server e =>
    have one := server_recorded hmacSha1 crc32 recorded e
    refine ⟨step_seated hmacSha1 crc32 c.server e recorded.seated, fun p => (one p).1, fun p unbuilt => ?_⟩
    exact (one p).2 (Nat.le_trans (nextPtr_le hmacSha1 crc32 c.server e) unbuilt)
  | removeTrack p ssrc =>
    refine ⟨?_, fun q => ?_, recorded.unbuilt⟩
    · refine recorded.seated.of_heap (.mutate ?_)
      unfold ParticipantState.removeTrack
      split <;> rfl
    · simp only [step]
      by_cases here : q = p
      · rw [here, mutate_self]
        exact (recorded.allocated p).removeTrack ssrc
      · rw [mutate_ne _ here]
        exact recorded.allocated q

theorem start_recorded : Recorded start where
  seated := new_seated
  allocated _ := ⟨rfl, fun _ member => nomatch member⟩
  unbuilt _ _ := rfl

theorem run_recorded (es : List Event) : Recorded (run (step hmacSha1 crc32) start es) :=
  run_invariant (step_recorded hmacSha1 crc32) start_recorded es

end Run

/-- The RTX SSRC of a video track with its place. -/
def rtxOf (v : UInt32 × Nat) : UInt32 := v.1 + 1000 + UInt32.ofNat v.2

theorem placed_rtx {s : ParticipantState} {videos : List UInt32} (allocated : Allocated s videos) :
    s.tracks.filterMap (·.rtxSsrc) = (placed s videos).map rtxOf := by
  have each := allocated.tracks
  unfold placed
  generalize s.tracks = tracks at each ⊢
  induction tracks with
  | nil => rfl
  | cons t rest ih =>
    have here := each t List.mem_cons_self
    have there := ih fun t member => each t (List.mem_cons_of_mem _ member)
    cases kind : t.kind <;> simp_all [rtxOf]

theorem rtxSsrcs_registered {c : Registry} (recorded : Recorded c) (room : Room) :
    rtxSsrcs c.server.hub.heap room = (registrations c room).map rtxOf := by
  rw [rtxSsrcs, registrations, List.map_flatMap]
  exact List.flatMap_congr fun p _ => placed_rtx (recorded.allocated p)

theorem taken_iff (ssrc : UInt32) (v : UInt32 × Nat) :
    ssrc = rtxOf v ↔ ssrc - v.1 = 1000 + UInt32.ofNat v.2 := by
  unfold rtxOf
  grind

theorem shared_iff (v w : UInt32 × Nat) :
    rtxOf v = rtxOf w ↔ w.1 - v.1 = UInt32.ofNat v.2 - UInt32.ofNat w.2 := by
  unfold rtxOf
  grind

/-- Among distinct chosen SSRCs, the derived ones add no duplicate exactly when no distance
    hits a place. -/
theorem inUse_nodup_iff {c : Registry} (recorded : Recorded c) {room : Room}
    (chosen : (chosenSsrcs c.server.hub.heap room).Nodup) :
    (ssrcsInUse c.server.hub.heap room).Nodup ↔ Apart c room := by
  have derived : ((registrations c room).map rtxOf).Nodup ↔ (registrations c room).Pairwise fun v w =>
      w.1 - v.1 ≠ UInt32.ofNat v.2 - UInt32.ofNat w.2 := by
    rw [List.Nodup, List.pairwise_map]
    simp only [ne_eq, shared_iff]
  rw [ssrcsInUse, rtxSsrcs_registered recorded, List.nodup_append, derived]
  constructor
  · rintro ⟨_, spread, clear⟩
    refine ⟨fun v member ssrc used same => ?_, spread⟩
    exact clear ssrc used _ (List.mem_map_of_mem member) ((taken_iff ssrc v).mpr same)
  · rintro ⟨clear, spread⟩
    refine ⟨chosen, spread, fun ssrc used rtx derived same => ?_⟩
    obtain ⟨v, member, rfl⟩ := List.mem_map.mp derived
    exact clear v member ssrc used ((taken_iff ssrc v).mp same)

/-- In every state of a room in which the chosen SSRCs are distinct, all SSRCs in use are,
    exactly when no distance between them hits a place. -/
theorem ssrcs_unique_iff (hmacSha1 : Bytes → Bytes → Bytes) (crc32 : Bytes → UInt32) (es : List Event)
    (r : RoomId) (room : Room) :
    let c := run (step hmacSha1 crc32) start es
    c.server.hub.rooms.lookup r = some room → (chosenSsrcs c.server.hub.heap room).Nodup →
      ((ssrcsInUse c.server.hub.heap room).Nodup ↔ Apart c room) := by
  intro c _ chosen
  exact inUse_nodup_iff (run_recorded hmacSha1 crc32 es) chosen

/-- A publisher alone in a room registers video tracks. -/
def publishing (ssrcs : List UInt32) : List Event :=
  (sampleRoom .conference false :: joinAs 0 "a" 1 ++
    [publishVideo 0 (ssrcs.map fun ssrc => (ssrc, none))]).map .server

theorem two_videos_unique :
    let c := run (step sampleHmac fun _ => 0) start (publishing [11, 12])
    ∃ room, c.server.hub.rooms.lookup "room" = some room ∧
      (ssrcsInUse c.server.hub.heap room).Nodup := by
  intro c
  obtain ⟨room, held⟩ : ∃ room, c.server.hub.rooms.lookup "room" = some room := ⟨_, rfl⟩
  have facts : ∀ room, c.server.hub.rooms.lookup "room" = some room →
      chosenSsrcs c.server.hub.heap room = [501, 502, 11, 12] ∧
        registrations c room = [(11, 0), (12, 1)] := by
    intro room held
    obtain rfl := Option.some.inj held
    decide
  obtain ⟨chosen, registered⟩ := facts room held
  have result := ssrcs_unique_iff sampleHmac (fun _ => 0) (publishing [11, 12]) "room" room held
    (by rw [chosen]; decide)
  refine ⟨room, held, result.mpr ⟨?_, ?_⟩⟩
  · rw [chosen, registered]
    simp only [List.forall_mem_cons, List.not_mem_nil, false_implies, implies_true, and_true]
    decide
  · rw [registered]
    decide

/-- The RTX SSRC of the first track is the media SSRC of the second. -/
theorem media_ssrc_taken :
    ¬ ∀ (hmacSha1 : Bytes → Bytes → Bytes) (crc32 : Bytes → UInt32) (es : List Event)
        (r : RoomId) (room : Room),
      let c := run (step hmacSha1 crc32) start es
      c.server.hub.rooms.lookup r = some room → (chosenSsrcs c.server.hub.heap room).Nodup →
        (ssrcsInUse c.server.hub.heap room).Nodup := by
  intro holds
  let c := run (step sampleHmac fun _ => 0) start (publishing [11, 1011])
  obtain ⟨room, held⟩ : ∃ room, c.server.hub.rooms.lookup "room" = some room := ⟨_, rfl⟩
  have facts : ∀ room, c.server.hub.rooms.lookup "room" = some room →
      (chosenSsrcs c.server.hub.heap room).Nodup ∧ ¬ (ssrcsInUse c.server.hub.heap room).Nodup := by
    intro room held
    obtain rfl := Option.some.inj held
    decide
  obtain ⟨chosen, doubled⟩ := facts room held
  exact doubled (holds sampleHmac (fun _ => 0) (publishing [11, 1011]) "room" room held chosen)

end SsrcUniqueness
