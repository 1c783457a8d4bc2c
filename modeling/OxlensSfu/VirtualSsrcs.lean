import OxlensSfu.CatalogFrames

/-
The virtual SSRC of a publisher is drawn once and copied into the layer entries of its
subscribers. The copies agree with the original as long as both sit in the room; an entry
for somebody who left is out of reach, and gone before that user can be back.
-/
namespace VirtualSsrcs
open WireBytes SfuConfig RtpPacket KeyedMap Participants RoomHubs RoomHub Signaling RoomHandlers
open TrackHandlers Ingress Servers Membership MediaFrames RoomSteps Seating GuardedRun
open Catalog LayerFrames CatalogFrames
open FloorControl (UserId)
open PttRewriter (Instant)

/-- Every entry for a current participant carries that participant's virtual SSRC, and
    whoever is announced with video in a simulcast room has drawn one. -/
structure Aligned (hub : RoomHub) : Prop where
  entries : ∀ {r u v p q entry}, Member hub r u p → Member hub r v q →
    (hub.heap p).subscribeLayers.lookup v = some entry →
      entry.rewriter.virtualSsrc = (hub.heap q).simulcastVideoSsrc ∧
        (hub.heap q).simulcastVideoSsrc ≠ 0
  drawn : ∀ {r u p t}, Resident hub r true u p → t ∈ visible true (hub.heap p) →
    t.kind = .video → (hub.heap p).simulcastVideoSsrc ≠ 0

theorem new_aligned : Aligned RoomHub.new where
  entries here := absurd here (not_member_new _ _ _)
  drawn here := absurd here.member (not_member_new _ _ _)

namespace Aligned
variable {hub next : RoomHub}

/-- Nobody comes in, and entries at most go. -/
theorem faded (aligned : Aligned hub)
    (resident : ∀ {r simulcast u p}, Resident next r simulcast u p → Resident hub r simulcast u p)
    (fading : AllFaded hub.heap next.heap) : Aligned next := by
  have member : ∀ {r u p}, Member next r u p → Member hub r u p := by
    intro r u p here
    obtain ⟨room, held, entry⟩ := here
    exact (resident ⟨room, held, rfl, entry⟩).member
  constructor
  · intro r u v p q entry here there found
    rw [(fading q).vssrc]
    exact aligned.entries (member here) (member there) ((fading p).layers found)
  · intro r u p t here inside video
    rw [visible, (fading p).tracks] at inside
    rw [(fading p).vssrc]
    exact aligned.drawn (resident here) inside video

variable {heap : Heap}

/-- The entries may be new if they carry the right SSRC. -/
theorem of_heap (aligned : Aligned hub)
    (kept : ∀ p, (hub.heap p).simulcastVideoSsrc ≠ 0 →
      (heap p).simulcastVideoSsrc = (hub.heap p).simulcastVideoSsrc)
    (announced : ∀ {r u p t}, Resident hub r true u p → t ∈ visible true (heap p) →
      t.kind = .video → t ∈ visible true (hub.heap p) ∨ (heap p).simulcastVideoSsrc ≠ 0)
    (layers : ∀ {r u v p q entry}, Member hub r u p → Member hub r v q →
      (heap p).subscribeLayers.lookup v = some entry →
      (∃ old, (hub.heap p).subscribeLayers.lookup v = some old ∧
        entry.rewriter.virtualSsrc = old.rewriter.virtualSsrc) ∨
      (entry.rewriter.virtualSsrc = (heap q).simulcastVideoSsrc ∧
        (heap q).simulcastVideoSsrc ≠ 0)) : Aligned { hub with heap := heap } := by
  constructor
  · intro r u v p q entry here there found
    rcases layers here there found with ⟨old, before, same⟩ | fresh
    · obtain ⟨ssrc, drawn⟩ := aligned.entries here there before
      dsimp only
      rw [kept q drawn, same]
      exact ⟨ssrc, drawn⟩
    · exact fresh
  · intro r u p t here inside video
    rcases announced here inside video with before | drawn
    · have old := aligned.drawn here before video
      dsimp only
      rw [kept p old]
      exact old
    · exact drawn

/-- Entries for one publisher are made or replaced, all of them in its room. -/
theorem entered (aligned : Aligned hub) (sound : WellFormed hub) {r : RoomId} {k : UserId} {w : Ptr}
    (publisher : Member hub r k w)
    (tracks : ∀ p, (heap p).tracks = (hub.heap p).tracks)
    (kept : ∀ p, (hub.heap p).simulcastVideoSsrc ≠ 0 →
      (heap p).simulcastVideoSsrc = (hub.heap p).simulcastVideoSsrc)
    (drawn : (heap w).simulcastVideoSsrc ≠ 0)
    (layers : ∀ p, (heap p).subscribeLayers = (hub.heap p).subscribeLayers ∨
      ((∃ u, Member hub r u p) ∧ ∃ entry,
        (heap p).subscribeLayers = (hub.heap p).subscribeLayers.insert k entry ∧
        entry.rewriter.virtualSsrc =
          entrySsrc ((hub.heap p).subscribeLayers.lookup k) (heap w).simulcastVideoSsrc)) :
    Aligned { hub with heap := heap } := by
  apply aligned.of_heap kept
  · intro r' u p t here inside video
    rw [visible, tracks] at inside
    exact .inl inside
  · intro r' u v p q entry here there found
    rcases layers p with same | ⟨⟨u', seat⟩, made, inserted, ssrc⟩
    · rw [same] at found
      exact .inl ⟨entry, found, rfl⟩
    · rw [inserted, lookup_insert] at found
      split at found
      · rename_i same
        subst same
        rw [Option.some.injEq] at found
        subst found
        -- The entry is for `w`, since both participants are in the room of `w`.
        obtain ⟨room, _⟩ := sound.once here seat
        subst room
        obtain rfl := member_unique there publisher
        rw [ssrc]
        cases old : (hub.heap p).subscribeLayers.lookup v with
        | none => exact .inr ⟨rfl, drawn⟩
        | some before => exact .inl ⟨before, rfl, rfl⟩
      · exact .inl ⟨entry, found, rfl⟩

end Aligned

theorem ensure_value (s : ParticipantState) (draw : NonzeroSsrc) :
    (s.ensureSimulcastVideoSsrc draw).2 =
      if s.simulcastVideoSsrc ≠ 0 then s.simulcastVideoSsrc else draw.val := by
  unfold ParticipantState.ensureSimulcastVideoSsrc
  split <;> rfl

section Relay
variable (hub : RoomHub) (r : RoomId) (room : Room) (sender : Ptr) (buf : Bytes) (o : Oracle)

/-- Statistics and gap detection do not show in the catalog. -/
theorem stats_catalog (s : ParticipantState) (hdr : RtpHeader) (p : Bytes) :
    catalog (detectGap (collectRtpStats s hdr p) hdr) = catalog s := by
  have collected : catalog (collectRtpStats s hdr p) = catalog s :=
    view_collectRtpStats (fun _ _ => rfl) s hdr p
  rw [← collected]
  unfold detectGap
  split
  · dsimp only
    split
    · exact view_requestKeyframe (fun _ _ => rfl) _ _ _
    · rfl
  · rfl

/-- Of what the announcements read, a relayed packet changes at most what the simulcast
    fan-out does. -/
theorem relayRtp_catalog :
    Shows catalog hub.heap (relayRtp hub r room sender buf o).hub.heap ∨
      ∃ h hdr out draw clk, Shows catalog hub.heap h ∧ room.simulcastEnabled = true ∧
        (relayRtp hub r room sender buf o).hub.heap =
          (fanoutSimulcastVideo room h (hub.arcs sender).userId sender hdr out draw clk).1 := by
  have noted : ∀ hdr p, Shows catalog hub.heap
      (mutate hub.heap sender fun s => detectGap (collectRtpStats s hdr p) hdr) :=
    fun hdr p => .mutate (stats_catalog _ hdr p)
  simp only [relayRtp]
  split
  · exact .inl (noted _ _)
  · simp only [fanout]
    split
    · rename_i simulcast
      simp only [Bool.and_eq_true] at simulcast
      exact .inr ⟨_, _, _, _, _, noted _ _, simulcast.1, rfl⟩
    · exact .inl ((noted _ _).trans (sent_shows catalog_floor _ _ _))

end Relay

section Handlers
variable {hub : RoomHub}

/-- A packet of the simulcast fan-out makes or replaces entries for its sender. -/
theorem fanoutSimulcast_aligned (aligned : Aligned hub) (sound : WellFormed hub) {r : RoomId}
    {room : Room} (held : hub.rooms.lookup r = some room) {senderId : UserId} {sender : Ptr}
    (seat : Member hub r senderId sender) (hdr : RtpHeader) (p : Bytes) (draw : NonzeroSsrc)
    (clk : Nat → Instant) :
    Aligned { hub with
      heap := (fanoutSimulcastVideo room hub.heap senderId sender hdr p draw clk).1 } := by
  cases tagged : sourceRid (hub.heap sender) hdr.ssrc with
  | none =>
    rw [fanoutSimulcast_untagged room hub.heap senderId sender hdr p draw clk tagged]
    exact aligned
  | some rid =>
    have tracks := fanoutSimulcast_shows room hub.heap senderId sender hdr p draw clk tracks_blind
      tagged
    have vssrc := fanoutSimulcast_vssrc room hub.heap senderId sender hdr p draw clk tagged
    have own := (vssrc sender).trans (drawn_vssrc hub.heap sender sender draw)
    rw [if_pos rfl] at own
    apply aligned.entered sound seat
    · intro q
      exact (tracks q).trans (Shows.mutate (ensure_tracks _ _) q)
    · intro q drawn
      exact (vssrc q).trans (drawn_stays hub.heap q sender draw drawn)
    · rw [own, ensure_snd]
      exact ensure_nonzero _ _
    · intro q
      obtain ⟨turn, idle⟩ := fanoutSimulcast_spec room hub.heap senderId sender hdr p draw clk
        (participants_injective sound held) tagged q
      by_cases target : q ∈ room.otherParticipants senderId ∧
          (hub.heap q).isSubscribeReady = true
      · obtain ⟨checked, marked, inserted, _⟩ := turn target
        obtain ⟨u, _, here⟩ := mem_otherParticipants.mp target.1
        refine .inr ⟨⟨u, room, held, here⟩, _, inserted, ?_⟩
        rw [passLayer_vssrc, own]
      · exact .inl (idle target).1

theorem handleSrtp_aligned (aligned : Aligned hub) (seated : Seated hub) (remote : SocketAddr)
    (buf : Bytes) (o : Oracle) : Aligned (handleSrtp hub remote buf o).hub := by
  rcases handleSrtp_cases hub remote buf o with
    dropped | ⟨sender, touched⟩ | ⟨sender, r, room, found, held, _, relayed⟩
  · rw [dropped]
    exact aligned
  · rw [touched]
    exact aligned.faded id (touch_faded hub sender o.nowMs)
  · rw [relayed]
    have seat := seated.sender found
    have touched : Aligned (hub.touch sender o.nowMs) :=
      aligned.faded id (touch_faded hub sender o.nowMs)
    -- The rewriters of the room change, its participants and kind do not.
    have residents : ∀ {heap : Heap}, Aligned { hub with heap := heap } →
        (relayRtp (hub.touch sender o.nowMs) r room sender buf o).hub.heap = heap →
          Aligned (relayRtp (hub.touch sender o.nowMs) r room sender buf o).hub := by
      intro heap good same
      refine good.faded ?_ (by rw [same]; exact .refl heap)
      intro r' simulcast u p here
      rw [relayRtp_hub] at here
      obtain ⟨after, at_, kind, entry⟩ := here
      simp only [withPtt, lookup_modify] at at_
      split at at_
      · obtain ⟨before, was, rfl⟩ := Option.map_eq_some_iff.mp at_
        exact ⟨before, was, kind, entry⟩
      · exact ⟨after, at_, kind, entry⟩
    rcases relayRtp_catalog (hub.touch sender o.nowMs) r room sender buf o with
      quiet | ⟨h, hdr, out, draw, clk, noted, _, fanned⟩
    · have relayed_ : Aligned { hub with
          heap := (relayRtp (hub.touch sender o.nowMs) r room sender buf o).hub.heap } :=
        touched.faded id (.of_shows quiet)
      exact residents relayed_ rfl
    · have before : Aligned { hub with heap := h } := touched.faded id (.of_shows noted)
      have sound : WellFormed { hub with heap := h } :=
        ⟨seated.sound.allocated, seated.sound.once, seated.sound.ufrags⟩
      exact residents (fanoutSimulcast_aligned before sound held seat hdr out draw clk) fanned

theorem subscribeTarget_aligned (aligned : Aligned hub) (sound : WellFormed hub) {r : RoomId}
    {room : Room} (held : hub.rooms.lookup r = some room) {u : UserId} {subscriber : Ptr}
    (seat : Member hub r u subscriber) (draws : Ptr → NonzeroSsrc) (now : Instant)
    (target : SubscribeLayerTarget) :
    Aligned { hub with heap := subscribeTarget room subscriber draws now hub.heap target } := by
  cases found : room.getParticipant target.userId with
  | none =>
    rw [subscribeTarget_absent room subscriber draws now hub.heap target found]
    exact aligned
  | some publisher =>
    have tracks := subscribeTarget_shows room subscriber draws now hub.heap target tracks_blind
      found
    have vssrc := subscribeTarget_vssrc room subscriber draws now hub.heap target found
    have own := (vssrc publisher).trans (drawn_vssrc hub.heap publisher publisher (draws publisher))
    rw [if_pos rfl] at own
    apply aligned.entered sound ⟨room, held, found⟩
    · intro q
      exact (tracks q).trans (Shows.mutate (ensure_tracks _ _) q)
    · intro q drawn
      exact (vssrc q).trans (drawn_stays hub.heap q publisher _ drawn)
    · rw [own, ensure_snd]
      exact ensure_nonzero _ _
    · intro q
      rw [subscribeTarget_layers room subscriber draws now hub.heap target found q]
      split
      · rename_i here
        subst here
        refine .inr ⟨⟨u, seat⟩, _, rfl, ?_⟩
        rw [chosen, selectLayer_vssrc, own]
      · exact .inl rfl

theorem handleSubscribeLayer_aligned (aligned : Aligned hub) (sound : WellFormed hub)
    (session : Session) (pid : Nat) (u : UserId) (targets : Option (List SubscribeLayerTarget))
    (draws : Ptr → NonzeroSsrc) (now : Instant) :
    Aligned { hub with
      heap := (handleSubscribeLayer hub session pid u targets draws now).heap } := by
  apply @handleSubscribeLayer_invariant fun heap => Aligned { hub with heap := heap }
  · intro r room subscriber heap target held seat good
    have here : WellFormed { hub with heap := heap } :=
      ⟨sound.allocated, sound.once, sound.ufrags⟩
    exact subscribeTarget_aligned good here held ⟨room, held, seat⟩ draws now target
  · exact aligned

theorem inRoom_ok {session : Session} {u : UserId} {op : UInt16} {pid : Nat} {room : Room}
    {p : Ptr} (placed : inRoom hub session u op pid = .ok (room, p)) :
    ∃ r, session.currentRoom = some r ∧ hub.rooms.lookup r = some room ∧
      room.participants.lookup u = some p := by
  unfold inRoom at placed
  split at placed
  · simp at placed
  rename_i r there
  split at placed
  · simp at placed
  rename_i room' held
  split at placed
  · simp at placed
  rename_i p' seat
  simp only [Except.ok.injEq, Prod.mk.injEq] at placed
  obtain ⟨same, here⟩ := placed
  rw [← same, ← here]
  exact ⟨r, there, held, seat⟩

section Publication
variable {room : Room} {u : UserId} {p : Ptr} (req : PublishTracksRequest)
  (draws : Ptr → NonzeroSsrc)

/-- What a publication tells the others about. -/
def newlyShown (room : Room) (pub : Publishing) : List TrackInfo :=
  pub.newTracks.filter fun t => !(room.simulcastEnabled && t.rid == some "l")

/-- The heap after a publication of `p`. -/
def publishedHeap (hub : RoomHub) (room : Room) (u : UserId) (p : Ptr)
    (req : PublishTracksRequest) (draws : Ptr → NonzeroSsrc) : Heap :=
  (announcePublished hub.arcs room (mutate hub.heap p fun _ => (publishAll (hub.heap p) u req).state)
    draws u (publishAll (hub.heap p) u req).newTracks).1

theorem publishedHeap_eq : publishedHeap hub room u p req draws =
    (simulcastReplaceVideoSsrc room
      (mutate hub.heap p fun _ => (publishAll (hub.heap p) u req).state) draws
      (newlyShown room (publishAll (hub.heap p) u req))).1 := rfl

/-- Only the publisher itself is looked up. -/
theorem consulted_own (seat : room.participants.lookup u = some p) {q : Ptr}
    (asked : Consulted room (newlyShown room (publishAll (hub.heap p) u req)) q) : q = p := by
  obtain ⟨info, member, _, found⟩ := asked
  rw [(publishAll_listed u (hub.heap p) req).own info (List.mem_filter.mp member).1] at found
  have same : some p = some q := seat.symm.trans found
  exact (Option.some.inj same).symm

theorem publishedHeap_other (seat : room.participants.lookup u = some p) {q : Ptr} (other : q ≠ p) :
    publishedHeap hub room u p req draws q = hub.heap q := by
  rw [publishedHeap_eq, ((simulcastReplace_spec room draws _ _).2 q).2, mutate_ne _ other]
  exact fun asked => other (consulted_own req seat asked.2)

/-- The publisher's new state: registered, and drawn if it shows video. -/
theorem publishedHeap_own :
    (room.simulcastEnabled = true ∧
        Consulted room (newlyShown room (publishAll (hub.heap p) u req)) p →
      publishedHeap hub room u p req draws p =
        ((publishAll (hub.heap p) u req).state.ensureSimulcastVideoSsrc (draws p)).1) ∧
    (¬(room.simulcastEnabled = true ∧
        Consulted room (newlyShown room (publishAll (hub.heap p) u req)) p) →
      publishedHeap hub room u p req draws p = (publishAll (hub.heap p) u req).state) := by
  have own := (simulcastReplace_spec room draws
    (mutate hub.heap p fun _ => (publishAll (hub.heap p) u req).state)
    (newlyShown room (publishAll (hub.heap p) u req))).2 p
  rw [mutate_self] at own
  exact own

theorem publishedHeap_cases (seat : room.participants.lookup u = some p) (q : Ptr) :
    (publishedHeap hub room u p req draws q).subscribeLayers = (hub.heap q).subscribeLayers ∧
      ((hub.heap q).simulcastVideoSsrc ≠ 0 →
        (publishedHeap hub room u p req draws q).simulcastVideoSsrc =
          (hub.heap q).simulcastVideoSsrc) := by
  by_cases here : q = p
  · subst here
    have layers : (publishAll (hub.heap q) u req).state.subscribeLayers =
        (hub.heap q).subscribeLayers :=
      @view_publishAll u _ (·.subscribeLayers) (fun _ _ _ => rfl) (fun _ _ => rfl) (hub.heap q) req
    have vssrc : (publishAll (hub.heap q) u req).state.simulcastVideoSsrc =
        (hub.heap q).simulcastVideoSsrc :=
      @view_publishAll u _ (·.simulcastVideoSsrc) (fun _ _ _ => rfl) (fun _ _ => rfl) (hub.heap q)
        req
    obtain ⟨drawn, plain⟩ := @publishedHeap_own hub room u q req draws
    by_cases asked : room.simulcastEnabled = true ∧
        Consulted room (newlyShown room (publishAll (hub.heap q) u req)) q
    · rw [drawn asked, ensure_subscribeLayers]
      refine ⟨layers, fun before => ?_⟩
      rw [ensure_of_drawn _ _ (by rw [vssrc]; exact before)]
      exact vssrc
    · rw [plain asked]
      exact ⟨layers, fun _ => vssrc⟩
  · rw [publishedHeap_other req draws seat here]
    exact ⟨rfl, fun _ => rfl⟩

theorem published_tracks :
    (publishedHeap hub room u p req draws p).tracks =
      (publishAll (hub.heap p) u req).state.tracks := by
  obtain ⟨drawn, plain⟩ := @publishedHeap_own hub room u p req draws
  by_cases asked : room.simulcastEnabled = true ∧
      Consulted room (newlyShown room (publishAll (hub.heap p) u req)) p
  · rw [drawn asked, ensure_tracks]
  · rw [plain asked]

/-- Whoever publishes a visible video track in a simulcast room has its virtual SSRC drawn. -/
theorem published_drawn (seat : room.participants.lookup u = some p)
    (simulcast : room.simulcastEnabled = true) {t : Track}
    (fresh : told u t ∈ (publishAll (hub.heap p) u req).newTracks)
    (shown : hiddenLayer true t = false) (video : t.kind = .video) :
    (publishedHeap hub room u p req draws p).simulcastVideoSsrc ≠ 0 := by
  rw [(@publishedHeap_own hub room u p req draws).1]
  · exact ensure_nonzero _ _
  · refine ⟨simulcast, told u t, List.mem_filter.mpr ⟨fresh, ?_⟩, video, seat⟩
    rw [simulcast]
    simpa [hiddenLayer, told, announced] using shown

theorem publishedHeap_aligned (aligned : Aligned hub) (sound : WellFormed hub) {r : RoomId}
    (held : hub.rooms.lookup r = some room) (seat : room.participants.lookup u = some p) :
    Aligned { hub with heap := publishedHeap hub room u p req draws } := by
  apply aligned.of_heap
  · intro q drawn
    exact (publishedHeap_cases req draws seat q).2 drawn
  · intro r' u' q t here inside video
    by_cases own : q = p
    · subst own
      obtain ⟨same, _⟩ := sound.once here.member ⟨room, held, seat⟩
      subst same
      obtain ⟨room', held', simulcast, _⟩ := here
      rw [held, Option.some.injEq] at held'
      subst held'
      obtain ⟨member, shown⟩ := List.mem_filter.mp inside
      rw [published_tracks] at member
      rcases (publishAll_listed u (hub.heap q) req).tracks t member with old | fresh
      · exact .inl (List.mem_filter.mpr ⟨old, shown⟩)
      · exact .inr (published_drawn req draws seat simulcast fresh (by simpa using shown) video)
    · left
      rw [publishedHeap_other req draws seat own] at inside
      exact inside
  · intro r' u' v q q' entry _ _ found
    rw [(publishedHeap_cases req draws seat q).1] at found
    exact .inl ⟨entry, found, rfl⟩

end Publication

theorem handlePublishTracks_aligned (aligned : Aligned hub) (sound : WellFormed hub)
    (session : Session) (pid : Nat) (u : UserId) (d : Option PublishTracksRequest)
    (draws : Ptr → NonzeroSsrc) :
    Aligned { hub with heap := (handlePublishTracks hub session pid u d draws).heap } := by
  unfold handlePublishTracks
  split
  · exact aligned
  split
  · exact aligned
  · rename_i req _ room p placed
    obtain ⟨r, _, held, seat⟩ := inRoom_ok placed
    exact publishedHeap_aligned req draws aligned sound held seat

/-- `u` comes into the room under a new handle, and nobody there has selected a layer of it. -/
structure Joins (hub next : RoomHub) (r : RoomId) (u : UserId) : Prop where
  member : ∀ {r' k q}, Member next r' k q →
    Member hub r' k q ∨ (r' = r ∧ k = u ∧ q = hub.nextPtr)
  resident : ∀ {r' simulcast k q}, Resident next r' simulcast k q → Member hub r' k q →
    Resident hub r' simulcast k q
  empty : (next.heap hub.nextPtr).tracks = [] ∧
    ∀ k, (next.heap hub.nextPtr).subscribeLayers.lookup k = none
  tracks : ∀ {q}, q ≠ hub.nextPtr → (next.heap q).tracks = (hub.heap q).tracks
  vssrc : ∀ {q}, q ≠ hub.nextPtr → (hub.heap q).simulcastVideoSsrc ≠ 0 →
    (next.heap q).simulcastVideoSsrc = (hub.heap q).simulcastVideoSsrc
  layers : ∀ {q k entry}, q ≠ hub.nextPtr →
    (next.heap q).subscribeLayers.lookup k = some entry →
      (hub.heap q).subscribeLayers.lookup k = some entry
  forgotten : ∀ {k q}, Member next r k q → (next.heap q).subscribeLayers.lookup u = none

theorem Joins.aligned {next : RoomHub} {r : RoomId} {u : UserId} (joins : Joins hub next r u)
    (sound : WellFormed hub) (aligned : Aligned hub) : Aligned next := by
  have old : ∀ {r' k q}, Member hub r' k q → q ≠ hub.nextPtr := fun here =>
    Nat.ne_of_lt (sound.allocated here)
  constructor
  · intro r' k v q w entry here there found
    rcases joins.member here with was | ⟨_, _, new⟩
    · rcases joins.member there with before | ⟨room, user, _⟩
      · obtain ⟨ssrc, drawn⟩ := aligned.entries was before (joins.layers (old was) found)
        rw [joins.vssrc (old before) drawn]
        exact ⟨ssrc, drawn⟩
      · subst room
        subst user
        rw [joins.forgotten here] at found
        simp at found
    · rw [new, joins.empty.2 v] at found
      simp at found
  · intro r' k q t here inside video
    rcases joins.member here.member with was | ⟨_, _, new⟩
    · rw [visible, joins.tracks (old was)] at inside
      have drawn := aligned.drawn (joins.resident here was) inside video
      rw [joins.vssrc (old was) drawn]
      exact drawn
    · rw [new, visible, joins.empty.1] at inside
      simp at inside

/-- The announcement of a join keeps what was drawn. -/
theorem collect_vssrc {arcs : Ptr → Participant} {room : Room} (heap : Heap)
    (draws : Ptr → NonzeroSsrc) {exclude : UserId} (named : Named arcs room) {q : Ptr}
    (drawn : (heap q).simulcastVideoSsrc ≠ 0) :
    ((collectSubscribeTracks arcs room heap draws exclude).1 q).simulcastVideoSsrc =
      (heap q).simulcastVideoSsrc := by
  rcases @collect_heap arcs room heap draws exclude named q with same | ⟨_, _, ensured⟩
  · rw [same]
  · rw [ensured, ensure_of_drawn _ _ drawn]

section Announcement
variable (session : Session) (pid : Nat) (u : UserId) (r : RoomId) (o : Oracle) (room : Room)
  (q : Ptr)

theorem announceJoin_layers (k : UserId) :
    ((announceJoin hub session pid u r o room).hub.heap q).subscribeLayers.lookup k =
      if k = u ∧ q ∈ room.otherParticipants u then none
      else (hub.heap q).subscribeLayers.lookup k := by
  rw [← purge_lookup]
  exact congrArg (AList.lookup k) (simulcastReplace_shows room o.vssrc (fun _ _ => rfl) _ _ q)

theorem announceJoin_tracks :
    ((announceJoin hub session pid u r o room).hub.heap q).tracks = (hub.heap q).tracks :=
  (simulcastReplace_shows room o.vssrc (fun _ _ => rfl) _ _ q).trans
    (purge_faded room hub.heap u q).tracks

theorem announceJoin_vssrc (named : Named hub.arcs room)
    (drawn : (hub.heap q).simulcastVideoSsrc ≠ 0) :
    ((announceJoin hub session pid u r o room).hub.heap q).simulcastVideoSsrc =
      (hub.heap q).simulcastVideoSsrc := by
  have purged := (purge_faded room hub.heap u q).vssrc
  exact (collect_vssrc _ o.vssrc named (by rw [purged]; exact drawn)).trans purged

/-- After the purge nobody in the room but `u` itself can have an entry for `u`. -/
theorem announceJoin_forgotten {k : UserId} (entry : room.participants.lookup k = some q)
    (own : k = u → (hub.heap q).subscribeLayers.lookup u = none) :
    ((announceJoin hub session pid u r o room).hub.heap q).subscribeLayers.lookup u = none := by
  rw [announceJoin_layers]
  split
  · rfl
  · rename_i apart
    by_cases user : k = u
    · exact own user
    · exact absurd ⟨rfl, mem_otherParticipants.mpr ⟨k, user, entry⟩⟩ apart

end Announcement

/-- Whoever was there before a join sits in a room of the same kind as after it. -/
theorem resident_of_added {r r' : RoomId} {who : Participant} {nowMs : Nat} {joined : RoomHub}
    {p q : Ptr} {simulcast : Bool} {k : UserId}
    (added : hub.addParticipant r who nowMs = .ok (joined, p))
    (seat : Resident joined r' simulcast k q) (was : Member hub r' k q) :
    Resident hub r' simulcast k q := by
  obtain ⟨after, found, kind, _⟩ := seat
  obtain ⟨before, held, entry⟩ := was
  refine ⟨before, held, ?_, entry⟩
  rw [addParticipant_lookup added, held] at found
  split at found
  · rename_i same
    subst same
    rw [held, Option.map_some, Option.some.injEq] at found
    rw [← kind, ← found]
    rfl
  · rw [Option.some.injEq] at found
    rw [← kind, ← found]

theorem handleRoomJoin_joins (seated : Seated hub) (session : Session) (pid : Nat) (u : UserId)
    (roomId : Option RoomId) (o : Oracle) :
    (handleRoomJoin hub session pid u roomId o).hub = hub ∨
      ∃ r, roomId = some r ∧ Joins hub (handleRoomJoin hub session pid u roomId o).hub r u := by
  unfold handleRoomJoin
  split
  · exact .inl rfl
  split
  · exact .inl rfl
  split
  · exact .inl rfl
  rename_i r _ _ _ _ joined p added
  refine .inr ⟨r, rfl, ?_⟩
  have grows := member_addParticipant added
  have named := @seated_named joined (addParticipant_seated added seated) r
  obtain ⟨before, held, _, absent, _, shape⟩ := addParticipant_ok.mp added
  have entered := addParticipant_lookup added r
  rw [if_pos rfl, held, Option.map_some] at entered
  have heap : joined.heap = Function.update hub.heap hub.nextPtr (.new o.nowMs) := by
    rw [shape]
    rfl
  have here : joined.heap hub.nextPtr = .new o.nowMs := by rw [heap, Function.update_self]
  have there : ∀ {q}, q ≠ hub.nextPtr → joined.heap q = hub.heap q := by
    intro q other
    rw [heap, Function.update_of_ne other]
  simp only [entered]
  generalize before.enter hub.nextPtr (newParticipant session u r o) o.nowMs = room at entered
  constructor
  · intro r' k q seat
    exact (grows r' k q).mp seat
  · intro r' simulcast k q seat was
    exact resident_of_added added seat was
  · constructor
    · rw [announceJoin_tracks, here]
      rfl
    · intro k
      rw [announceJoin_layers, here]
      split
      · rfl
      · rfl
  · intro q other
    rw [announceJoin_tracks, there other]
  · intro q other drawn
    rw [← there other] at drawn
    rw [announceJoin_vssrc session pid u r o room q (named entered) drawn, there other]
  · intro q k entry other found
    rw [announceJoin_layers, there other] at found
    split at found
    · simp at found
    · exact found
  · intro k q seat
    have grown := (grows r k q).mp seat
    obtain ⟨room', found, entry⟩ := seat
    obtain rfl : room = room' := Option.some.inj (entered.symm.trans found)
    refine announceJoin_forgotten session pid u r o room q entry fun user => ?_
    subst user
    -- The joiner was not in the room before, so it starts out without any entry.
    rcases grown with was | ⟨_, _, new⟩
    · have present := AList.lookup_isSome.mp (Option.isSome_of_mem (was.lookup held))
      exact absurd present absent
    · rw [new, here]
      rfl

end Handlers

section Run
variable (hmacSha1 : Bytes → Bytes → Bytes) (crc32 : Bytes → UInt32)

theorem step_aligned (s : Server) (e : Event) (seated : Seated s.hub) (aligned : Aligned s.hub) :
    Aligned (Servers.step hmacSha1 crc32 s e).hub := by
  by_cases tells : Tells e
  · cases e with
    | request conn pid req o =>
      simp only [Servers.step, Servers.request]
      split
      · exact aligned
      rename_i session _
      cases user : session.userId with
      | none =>
        cases req with
        | roomJoin roomId => simpa only [dispatch, user] using aligned
        | publishTracks d => simpa only [dispatch, user] using aligned
        | subscribeLayer targets => simpa only [dispatch, user] using aligned
        | _ => exact tells.elim
      | some u =>
        cases req with
        | roomJoin roomId =>
          simp only [dispatch, user]
          rcases handleRoomJoin_joins seated session pid u roomId o with same | ⟨_, _, joins⟩
          · rw [same]
            exact aligned
          · exact joins.aligned seated.sound aligned
        | publishTracks d =>
          simp only [dispatch, user]
          exact handlePublishTracks_aligned aligned seated.sound session pid u d o.vssrc
        | subscribeLayer targets =>
          simp only [dispatch, user]
          exact handleSubscribeLayer_aligned aligned seated.sound session pid u targets o.vssrc _
        | _ => exact tells.elim
    | rtp remote buf o => exact handleSrtp_aligned aligned seated remote buf o
    | _ => exact tells.elim
  · refine aligned.faded (fun here => ?_) (step_faded hmacSha1 crc32 s e tells)
    apply step_resident hmacSha1 crc32 s e here
    apply step_member hmacSha1 crc32 s e ?_ here.member
    intro conn pid roomId o same
    subst same
    exact tells trivial

theorem run_aligned (es : List Event) :
    Aligned (run (Servers.step hmacSha1 crc32) Server.new es).hub := by
  have both := @run_invariant _ _ (Servers.step hmacSha1 crc32)
    (fun s => Seated s.hub ∧ Aligned s.hub)
    (fun s e good => ⟨step_seated hmacSha1 crc32 s e good.1,
      step_aligned hmacSha1 crc32 s e good.1 good.2⟩)
    Server.new ⟨new_seated, new_aligned⟩ es
  exact both.2

/-- The announced SSRC of a video track, once the publisher has drawn its virtual SSRC. -/
theorem collect_video {hub : RoomHub} {room : Room} (named : Named hub.arcs room)
    (simulcast : room.simulcastEnabled = true) (draws : Ptr → NonzeroSsrc) {exclude v : UserId}
    {q : Ptr} (seat : room.participants.lookup v = some q)
    (drawn : (hub.heap q).simulcastVideoSsrc ≠ 0) {t : TrackInfo}
    (listed : t ∈ (collectSubscribeTracks hub.arcs room hub.heap draws exclude).2)
    (user : t.userId = v) (video : t.kind = .video) :
    t.ssrc = (hub.heap q).simulcastVideoSsrc := by
  rw [collect_listing hub.heap draws named, listing, List.mem_flatMap] at listed
  obtain ⟨p, other, offered⟩ := listed
  obtain ⟨track, _, rfl⟩ := List.mem_map.mp offered
  have kind : track.kind = .video := video
  have own : (hub.arcs p).userId = v := user
  have there := (named.get other).1
  rw [own] at there
  obtain rfl : q = p := Option.some.inj (seat.symm.trans there)
  have same := @collect_vssrc hub.arcs room hub.heap draws exclude named q drawn
  simp only [shown, shownSsrc, simulcast, kind, and_self, if_true]
  exact same

/-- Whoever is new in a room finds no entry under its name. -/
theorem newcomer_forgotten {s : Server} {e : Event} (seated : Seated s.hub) {r : RoomId}
    {u : UserId} {q : Ptr} (inside : Member (Servers.step hmacSha1 crc32 s e).hub r u q)
    (outside : ¬ Member s.hub r u q) {k : UserId} {p : Ptr}
    (other : Member (Servers.step hmacSha1 crc32 s e).hub r k p) :
    ((Servers.step hmacSha1 crc32 s e).hub.heap p).subscribeLayers.lookup u = none := by
  by_cases joining : ∃ conn pid roomId o, e = .request conn pid (.roomJoin roomId) o
  · obtain ⟨conn, pid, roomId, o, rfl⟩ := joining
    revert inside other
    simp only [Servers.step, Servers.request]
    split
    · exact fun inside _ => absurd inside outside
    rename_i session _
    cases user : session.userId with
    | none =>
      simp only [dispatch, user]
      exact fun inside _ => absurd inside outside
    | some u' =>
      simp only [dispatch, user]
      intro inside other
      rcases handleRoomJoin_joins seated session pid u' roomId o with same | ⟨r', _, joins⟩
      · rw [same] at inside
        exact absurd inside outside
      · obtain ⟨room, named, _⟩ := (joins.member inside).resolve_left outside
        subst room
        subst named
        exact joins.forgotten other
  · refine absurd (step_member hmacSha1 crc32 s e ?_ inside) outside
    intro conn pid roomId o same
    exact joining ⟨conn, pid, roomId, o, same⟩

/-- In every reachable state an entry for a current participant writes the SSRC that the
    participant has drawn and is announced with; and nothing of an earlier stay is left when
    a user comes in. -/
theorem entries_follow_stay (es : List Event) :
    let s := run (Servers.step hmacSha1 crc32) Server.new es
    (∀ r room k u p q entry, s.hub.rooms.lookup r = some room → room.simulcastEnabled = true →
      room.participants.lookup k = some p → room.participants.lookup u = some q →
      (s.hub.heap p).subscribeLayers.lookup u = some entry →
        entry.rewriter.virtualSsrc = (s.hub.heap q).simulcastVideoSsrc ∧
        ∀ draws, ∀ t ∈ (collectSubscribeTracks s.hub.arcs room s.hub.heap draws k).2,
          t.userId = u → t.kind = .video → t.ssrc = entry.rewriter.virtualSsrc) ∧
    ∀ e r u q, Member (Servers.step hmacSha1 crc32 s e).hub r u q → ¬ Member s.hub r u q →
      ∀ k p, Member (Servers.step hmacSha1 crc32 s e).hub r k p →
        ((Servers.step hmacSha1 crc32 s e).hub.heap p).subscribeLayers.lookup u = none := by
  intro s
  have seated : Seated s.hub := run_seated hmacSha1 crc32 es
  have aligned : Aligned s.hub := run_aligned hmacSha1 crc32 es
  constructor
  · intro r room k u p q entry held simulcast subscriber publisher found
    obtain ⟨ssrc, drawn⟩ := aligned.entries ⟨room, held, subscriber⟩ ⟨room, held, publisher⟩ found
    refine ⟨ssrc, fun draws t listed user video => ?_⟩
    rw [ssrc]
    exact collect_video (seated_named seated held) simulcast draws publisher drawn listed user video
  · intro e r u q inside outside k p other
    exact newcomer_forgotten hmacSha1 crc32 seated inside outside other

end Run

def selectHigh (conn : ConnId) (publisher : UserId) : Event :=
  .request conn 5 (.subscribeLayer (some [⟨publisher, "h"⟩])) (sampleOracle 0)

/-- The publisher is selected, leaves, and is back with another virtual SSRC. -/
def returned : List Event :=
  sampleRoom .conference true :: joinAs 0 "a" 1 ++ joinAs 1 "b" 2 ++
    [publishVideo 0 [(11, some "h")], selectHigh 1 "a",
      .request 0 6 (.roomLeave (some "room")) (sampleOracle 0),
      .request 0 7 (.roomJoin (some "room")) (sampleOracle 3),
      .request 0 8 (.publishTracks (some ⟨[⟨"video", 21, some "h", none, none, none⟩], none⟩))
        { sampleOracle 3 with vssrc := fun _ => ⟨600, by decide⟩ },
      selectHigh 1 "a"]

theorem returned_entry_follows_stay :
    let hub := (run (Servers.step sampleHmac fun _ => 0) Server.new returned).hub
    ∃ entry, (hub.heap 1).subscribeLayers.lookup "a" = some entry ∧
      (hub.heap 2).simulcastVideoSsrc = 600 ∧
      entry.rewriter.virtualSsrc = (hub.heap 2).simulcastVideoSsrc := by
  intro hub
  obtain ⟨room, held⟩ : ∃ room, hub.rooms.lookup "room" = some room := ⟨_, rfl⟩
  obtain ⟨entry, found⟩ : ∃ entry, (hub.heap 1).subscribeLayers.lookup "a" = some entry :=
    Option.isSome_iff_exists.mp (by decide)
  refine ⟨entry, found, by decide, ?_⟩
  have seats : ∀ room, hub.rooms.lookup "room" = some room → room.simulcastEnabled = true ∧
      room.participants.lookup "b" = some 1 ∧ room.participants.lookup "a" = some 2 := by
    intro room held
    obtain rfl := Option.some.inj held
    decide
  obtain ⟨simulcast, viewer, publisher⟩ := seats room held
  exact ((entries_follow_stay sampleHmac (fun _ => 0) returned).1 "room" room "b" "a" 1 2 entry
    held simulcast viewer publisher found).1

end VirtualSsrcs
