import OxlensSfu.VirtualSsrcs
import OxlensSfu.EgressNumbers

/-
Under which SSRCs media leaves a conference room, against the SSRCs that the subscribers
were told. Announcements go by track; the fan-out goes by payload type, and looks up the
track of a packet only where it has to select a layer.
-/
namespace AnnouncedSsrcs
open WireBytes SfuConfig RtpPacket KeyedMap Participants RoomHubs RoomHub Signaling RoomHandlers
open TrackHandlers Ingress Servers Membership RoomSteps Seating GuardedRun
open Catalog LayerFrames CatalogFrames VirtualSsrcs EgressNumbers
open FloorControl (UserId)
open PttRewriter (Instant)

/-- The catalog lists the SSRC for a subscriber, as one of a participant's. -/
def ListedFor (hub : RoomHub) (room : Room) (draws : Ptr → NonzeroSsrc) (subscriber publisher : UserId)
    (ssrc : UInt32) : Prop :=
  ∃ t ∈ (collectSubscribeTracks hub.arcs room hub.heap draws subscriber).2,
    t.userId = publisher ∧ t.ssrc = ssrc

instance (hub : RoomHub) (room : Room) (draws : Ptr → NonzeroSsrc) (subscriber publisher : UserId)
    (ssrc : UInt32) : Decidable (ListedFor hub room draws subscriber publisher ssrc) :=
  inferInstanceAs (Decidable (∃ t ∈ (collectSubscribeTracks hub.arcs room hub.heap draws
    subscriber).2, t.userId = publisher ∧ t.ssrc = ssrc))

/-- The publisher has a video track that is announced. -/
def ShowsVideo (simulcast : Bool) (s : ParticipantState) : Prop :=
  ∃ t ∈ visible simulcast s, t.kind = .video

/-- A track is announced under its own SSRC. -/
def ShowsOwn (simulcast : Bool) (s : ParticipantState) (ssrc : UInt32) : Prop :=
  ∃ t ∈ visible simulcast s, ¬(simulcast = true ∧ t.kind = .video) ∧ t.ssrc = ssrc

/-- The packet belongs to something that its sender has announced: a layer packet to a video
    track, and any other packet to the track whose SSRC it has. -/
def FromAnnounced (simulcast : Bool) (s : ParticipantState) (draw : NonzeroSsrc) (p : Bytes) :
    Prop :=
  if simulcast = true ∧ isVideoPt (parseRtpHeader p).pt = true then
    ShowsVideo simulcast s ∨ ShowsOwn simulcast s (s.ensureSimulcastVideoSsrc draw).2
  else
    rtpHeaderMinSize ≤ p.length ∧ (ShowsOwn simulcast s (u32At p 8) ∨
      (simulcast = true ∧ ShowsVideo simulcast s ∧ s.simulcastVideoSsrc = u32At p 8))

section Listing
variable {hub : RoomHub} {room : Room} {draws : Ptr → NonzeroSsrc} {k u : UserId} {p : Ptr}

theorem mem_offeredSsrcs {simulcast : Bool} {s : ParticipantState} {ssrc : UInt32} :
    ssrc ∈ offeredSsrcs simulcast s ↔ ShowsOwn simulcast s ssrc ∨
      (simulcast = true ∧ ShowsVideo simulcast s ∧ s.simulcastVideoSsrc = ssrc) := by
  simp only [offeredSsrcs, List.mem_map, ShowsOwn, ShowsVideo, shownSsrc]
  constructor
  · intro found
    obtain ⟨t, inside, same⟩ := found
    by_cases video : simulcast = true ∧ t.kind = .video
    · rw [if_pos video] at same
      exact .inr ⟨video.1, ⟨t, inside, video.2⟩, same⟩
    · rw [if_neg video] at same
      exact .inl ⟨t, inside, video, same⟩
  · intro shown
    rcases shown with ⟨t, inside, plain, same⟩ | ⟨simulcast, ⟨t, inside, video⟩, same⟩
    · exact ⟨t, inside, by rw [if_neg plain]; exact same⟩
    · exact ⟨t, inside, by rw [if_pos ⟨simulcast, video⟩]; exact same⟩

/-- For a publisher that has drawn its virtual SSRC, if it needs one, the listing is what its
    state offers. -/
theorem listedFor_iff (named : Named hub.arcs room) (seat : room.participants.lookup u = some p)
    (other : u ≠ k)
    (drawn : room.simulcastEnabled = true → ShowsVideo true (hub.heap p) →
      (hub.heap p).simulcastVideoSsrc ≠ 0) (ssrc : UInt32) :
    ListedFor hub room draws k u ssrc ↔ ssrc ∈ offeredSsrcs room.simulcastEnabled (hub.heap p) := by
  have same : offers room.simulcastEnabled (hub.arcs p).userId
      ((collectSubscribeTracks hub.arcs room hub.heap draws k).1 p) =
        offers room.simulcastEnabled (hub.arcs p).userId (hub.heap p) := by
    apply offers_congr
    · exact collect_tracks hub.heap draws named p
    · intro simulcast t inside video
      rw [visible, collect_tracks hub.heap draws named, simulcast] at inside
      exact collect_vssrc hub.heap draws named (drawn simulcast ⟨t, inside, video⟩)
  have own : (hub.arcs p).userId = u := named u p seat
  rw [← offers_ssrcs _ u]
  simp only [ListedFor, collect_listing hub.heap draws named, listing, List.mem_flatMap, List.mem_map]
  rw [own] at same
  constructor
  · intro found
    obtain ⟨t, ⟨q, there, offered⟩, user, ssrc⟩ := found
    have who : (hub.arcs q).userId = u := by
      obtain ⟨track, _, rfl⟩ := List.mem_map.mp offered
      exact user
    have entry := (named.get there).1
    rw [who] at entry
    obtain rfl : p = q := Option.some.inj (seat.symm.trans entry)
    rw [own, same] at offered
    exact ⟨t, offered, ssrc⟩
  · intro offered
    obtain ⟨t, inside, ssrc⟩ := offered
    refine ⟨t, ⟨p, mem_otherParticipants.mpr ⟨u, other, seat⟩, ?_⟩, ?_, ssrc⟩
    · rw [own, same]
      exact inside
    · obtain ⟨track, _, rfl⟩ := List.mem_map.mp inside
      rfl

end Listing

section Fanout
variable (hub : RoomHub) (r : RoomId) {room : Room} (sender : Ptr) (buf : Bytes) (o : Oracle)

/-- In a conference room a packet goes to the fan-out as it is. -/
theorem relayRtp_conference (conference : room.mode = .conference) :
    ∃ prepared : RoomHub, Shows catalog hub.heap prepared.heap ∧
      (relayRtp hub r room sender buf o).forwards =
        (fanout prepared r room (hub.arcs sender).userId sender
          (parseRtpHeader (normalizePt (hub.heap sender).tracks buf).1)
          (normalizePt (hub.heap sender).tracks buf).1
          (normalizePt (hub.heap sender).tracks buf).1 o).2 := by
  have notPtt : room.mode ≠ .ptt := by
    rw [conference]
    simp
  let stats := fun s => detectGap (collectRtpStats s (normalizePt (hub.heap sender).tracks buf).2
    (normalizePt (hub.heap sender).tracks buf).1) (normalizePt (hub.heap sender).tracks buf).2
  have noted : Shows catalog hub.heap (mutate hub.heap sender stats) :=
    .mutate (stats_catalog _ _ _)
  refine ⟨withPtt hub r room.toPttState (mutate hub.heap sender stats), noted, ?_⟩
  rw [← normalizePt_header]
  simp only [relayRtp, prepareFanoutPayload, notPtt, if_false, stats]

variable {hub}

/-- The SSRC under which a layer packet leaves, whatever entry the subscriber has. -/
theorem entrySsrc_aligned (aligned : Aligned hub) {r k u p q} (subscriber : Member hub r k p)
    (publisher : Member hub r u q) (draw : NonzeroSsrc) :
    entrySsrc ((hub.heap p).subscribeLayers.lookup u)
        ((hub.heap q).ensureSimulcastVideoSsrc draw).2 =
      ((hub.heap q).ensureSimulcastVideoSsrc draw).2 := by
  cases found : (hub.heap p).subscribeLayers.lookup u with
  | none => rfl
  | some entry =>
    obtain ⟨ssrc, drawn⟩ := aligned.entries subscriber publisher found
    rw [ensure_value, if_pos drawn]
    exact ssrc

/-- What the fan-out makes of a packet, against what its sender announces. -/
theorem fanout_listed (seated : Seated hub) (aligned : Aligned hub)
    (held : hub.rooms.lookup r = some room)
    (own : room.participants.lookup (hub.arcs sender).userId = some sender) {prepared : RoomHub}
    (shows : Shows catalog hub.heap prepared.heap) {p : Bytes} {f : Forward}
    (handed : f ∈ (fanout prepared r room (hub.arcs sender).userId sender (parseRtpHeader p) p p o).2)
    {k : UserId} {t : Ptr} (seat : room.participants.lookup k = some t) (target : t ∈ f.targets)
    (draws : Ptr → NonzeroSsrc) :
    (rtpHeaderMinSize ≤ f.out.length ∧
        ListedFor hub room draws k (hub.arcs sender).userId (u32At f.out 8)) ↔
      FromAnnounced room.simulcastEnabled (hub.heap sender) (o.vssrc sender) p := by
  have once := participants_injective seated.sound held
  have video : room.simulcastEnabled = true → ShowsVideo true (hub.heap sender) →
      (hub.heap sender).simulcastVideoSsrc ≠ 0 := by
    intro simulcast shown
    obtain ⟨track, inside, kind⟩ := shown
    exact aligned.drawn ⟨room, held, simulcast, own⟩ inside kind
  -- Whoever is handed the packet is somebody else.
  have apart : t ∈ room.otherParticipants (hub.arcs sender).userId →
      (hub.arcs sender).userId ≠ k := by
    intro member same
    obtain ⟨k', other, entry⟩ := mem_otherParticipants.mp member
    exact other ((once k' k t entry seat).trans same.symm)
  have kept : ∀ q, (prepared.heap q).simulcastVideoSsrc = (hub.heap q).simulcastVideoSsrc ∧
      (prepared.heap q).subscribeLayers = (hub.heap q).subscribeLayers := by
    intro q
    have fields := shows q
    simp only [catalog, Prod.mk.injEq] at fields
    exact fields.2
  by_cases layered : (room.simulcastEnabled && isVideoPt (parseRtpHeader p).pt) = true
  · obtain ⟨rid, t', checked, marked, _, member, _, shape, passed⟩ := fanout_layer room
      (hub.arcs sender).userId sender (parseRtpHeader p) p once layered handed
    rw [shape, List.mem_singleton] at target
    subst target
    obtain ⟨whole, ssrc, _⟩ := passLayer_out passed
    rw [(kept t).2, ensure_value, (kept sender).1, ← ensure_value,
      entrySsrc_aligned aligned ⟨room, held, seat⟩ ⟨room, held, own⟩] at ssrc
    rw [Bool.and_eq_true] at layered
    rw [FromAnnounced, if_pos layered, ssrc,
      listedFor_iff (seated_named seated held) own (apart member) video, mem_offeredSsrcs]
    constructor
    · intro listed
      rcases listed.2 with plain | ⟨_, shown, _⟩
      · exact .inr plain
      · rw [layered.1] at shown ⊢
        exact .inl shown
    · intro announced
      refine ⟨whole, ?_⟩
      rcases announced with shown | plain
      · rw [layered.1] at shown
        rw [ensure_value, if_pos (video layered.1 shown), layered.1]
        exact .inr ⟨rfl, shown, rfl⟩
      · exact .inl plain
  · simp only [fanout, layered, Bool.false_eq_true, if_false, List.mem_singleton] at handed
    subst handed
    have member : t ∈ room.otherParticipants (hub.arcs sender).userId :=
      List.mem_of_mem_filter target
    rw [Bool.and_eq_true] at layered
    rw [FromAnnounced, if_neg layered,
      listedFor_iff (seated_named seated held) own (apart member) video, mem_offeredSsrcs]

/-- What one packet is enqueued as, against what its sender announces. -/
theorem handleSrtp_listed_iff (seated : Seated hub) (aligned : Aligned hub)
    {remote : SocketAddr} (found : hub.findByAddr remote = some (sender, .publish, r))
    (held : hub.rooms.lookup r = some room) (conference : room.mode = .conference)
    {f : Forward} (handed : f ∈ (handleSrtp hub remote buf o).forwards) {k : UserId} {t : Ptr}
    (seat : room.participants.lookup k = some t) (target : t ∈ f.targets)
    (draws : Ptr → NonzeroSsrc) :
    (rtpHeaderMinSize ≤ f.out.length ∧
        ListedFor hub room draws k (hub.arcs sender).userId (u32At f.out 8)) ↔
      FromAnnounced room.simulcastEnabled (hub.heap sender) (o.vssrc sender)
        (normalizePt (hub.heap sender).tracks buf).1 := by
  have own : room.participants.lookup (hub.arcs sender).userId = some sender :=
    (seated.sender found).lookup held
  rcases handleSrtp_cases hub remote buf o with
    dropped | ⟨sender', touched⟩ | ⟨sender', r', room', found', held', _, relayed⟩
  · rw [dropped] at handed
    simp at handed
  · rw [touched] at handed
    simp at handed
  · rw [found, Option.some.injEq, Prod.mk.injEq, Prod.mk.injEq] at found'
    obtain ⟨same, _, room_⟩ := found'
    subst same
    subst room_
    rw [held, Option.some.injEq] at held'
    subst held'
    obtain ⟨prepared, shows, forwards⟩ := @relayRtp_conference (hub.touch sender o.nowMs) r room
      sender buf o conference
    rw [relayed, forwards, (touch_faded hub sender o.nowMs sender).tracks] at handed
    have noted : Shows catalog hub.heap (mutate hub.heap sender fun s => s.touch o.nowMs) :=
      .mutate rfl
    exact fanout_listed r sender o seated aligned held own (noted.trans shows) handed seat target draws

end Fanout

/-- A packet that reaches a subscriber is on an announced SSRC of its sender exactly when it
    belongs to something that the sender has announced. -/
theorem fanout_listed_iff (hmacSha1 : Bytes → Bytes → Bytes) (crc32 : Bytes → UInt32)
    (es : List Event) (remote : SocketAddr) (buf : Bytes) (o : Oracle) (sender : Ptr) (r : RoomId)
    (room : Room) :
    let hub := (run (Servers.step hmacSha1 crc32) Server.new es).hub
    hub.findByAddr remote = some (sender, .publish, r) → hub.rooms.lookup r = some room →
      room.mode = .conference → ∀ f ∈ (handleSrtp hub remote buf o).forwards, ∀ k t,
      room.participants.lookup k = some t → t ∈ f.targets → ∀ draws,
        ((rtpHeaderMinSize ≤ f.out.length ∧
            ListedFor hub room draws k (hub.arcs sender).userId (u32At f.out 8)) ↔
          FromAnnounced room.simulcastEnabled (hub.heap sender) (o.vssrc sender)
            (normalizePt (hub.heap sender).tracks buf).1) := by
  intro hub found held conference f handed k t seat target draws
  exact handleSrtp_listed_iff r sender buf o (run_seated hmacSha1 crc32 es)
    (run_aligned hmacSha1 crc32 es) found held conference handed seat target draws

/-- A publisher with one announced video track, and a subscriber that is ready. -/
def plainPair : List Event :=
  sampleRoom .conference false :: joinAs 0 "a" 1 ++ joinAs 1 "b" 2 ++
    startMedia 0 1 .publish 5000 ++ startMedia 1 2 .subscribe 5001 ++ [publishVideo 0 [(11, none)]]

theorem announced_video_listed :
    let hub := (run (Servers.step sampleHmac fun _ => 0) Server.new plainPair).hub
    ∃ room, hub.rooms.lookup "room" = some room ∧
      ∃ f ∈ (handleSrtp hub (AddressIndex.portAt 5000) (keyframePacket 1 0 11 0)
        (sampleOracle 0)).forwards,
        1 ∈ f.targets ∧ ListedFor hub room (sampleOracle 0).vssrc "b" "a" (u32At f.out 8) := by
  intro hub
  obtain ⟨room, held⟩ : ∃ room, hub.rooms.lookup "room" = some room := ⟨_, rfl⟩
  have facts : ∀ room, hub.rooms.lookup "room" = some room → room.mode = .conference ∧
      room.participants.lookup "b" = some 1 ∧ room.simulcastEnabled = false := by
    intro room held
    obtain rfl := Option.some.inj held
    decide
  obtain ⟨conference, seat, plain⟩ := facts room held
  have handed : (⟨"room", 0, keyframePacket 1 0 11 0, keyframePacket 1 0 11 0, [1]⟩ : Forward) ∈
      (handleSrtp hub (AddressIndex.portAt 5000) (keyframePacket 1 0 11 0)
        (sampleOracle 0)).forwards := by decide
  refine ⟨room, held, _, handed, by decide, ?_⟩
  have result := fanout_listed_iff sampleHmac (fun _ => 0) plainPair (AddressIndex.portAt 5000)
    (keyframePacket 1 0 11 0) (sampleOracle 0) 0 "room" room (by decide) held conference _ handed
    "b" 1 seat (by decide) (sampleOracle 0).vssrc
  refine (result.mpr ?_).2
  rw [FromAnnounced, if_neg (by simp [plain])]
  refine ⟨by decide, .inl ⟨⟨11, .video, "a_0", some 1011, false, none, none, .vp8, 0, 0⟩, ?_, ?_, ?_⟩⟩
  · rw [plain]
    decide
  · simp [plain]
  · decide

/-- A packet of an SSRC that was never registered reaches the subscriber. -/
theorem unregistered_ssrc_forwarded :
    ¬ ∀ (hmacSha1 : Bytes → Bytes → Bytes) (crc32 : Bytes → UInt32) (es : List Event)
        (remote : SocketAddr) (buf : Bytes) (o : Oracle) (sender : Ptr) (r : RoomId) (room : Room),
      let hub := (run (Servers.step hmacSha1 crc32) Server.new es).hub
      hub.findByAddr remote = some (sender, .publish, r) → hub.rooms.lookup r = some room →
        room.mode = .conference → ∀ f ∈ (handleSrtp hub remote buf o).forwards, ∀ k t,
        room.participants.lookup k = some t → t ∈ f.targets → ∀ draws,
          rtpHeaderMinSize ≤ f.out.length ∧
            ListedFor hub room draws k (hub.arcs sender).userId (u32At f.out 8) := by
  intro holds
  let hub := (run (Servers.step sampleHmac fun _ => 0) Server.new plainPair).hub
  have facts : ∀ room, hub.rooms.lookup "room" = some room → room.mode = .conference ∧
      room.participants.lookup "b" = some 1 ∧
      ∀ t ∈ (collectSubscribeTracks hub.arcs room hub.heap (sampleOracle 0).vssrc "b").2,
        t.ssrc ≠ 999 := by
    intro room held
    obtain rfl := Option.some.inj held
    decide
  obtain ⟨room, held⟩ : ∃ room, hub.rooms.lookup "room" = some room := ⟨_, rfl⟩
  obtain ⟨conference, seat, foreign⟩ := facts room held
  have handed : (⟨"room", 0, keyframePacket 1 0 999 0, keyframePacket 1 0 999 0, [1]⟩ : Forward) ∈
      (handleSrtp hub (AddressIndex.portAt 5000) (keyframePacket 1 0 999 0)
        (sampleOracle 0)).forwards := by decide
  obtain ⟨_, t, listed, _, same⟩ := holds sampleHmac (fun _ => 0) plainPair
    (AddressIndex.portAt 5000) (keyframePacket 1 0 999 0) (sampleOracle 0) 0 "room" room (by decide)
    held conference _ handed "b" 1 seat (by decide) (sampleOracle 0).vssrc
  exact foreign t listed (same.trans (by decide))

end AnnouncedSsrcs
