import OxlensSfu.VirtualSsrcs
import OxlensSfu.EgressNumbers

/-
The retransmission SSRC that a subscriber was told with a track, and the one that answers
its NACKs. The announcement reads it off the announced track; a NACK reads it off the
track to which the asked SSRC leads through the selected layer.
-/
namespace RtxPairing
open WireBytes SfuConfig RtpPacket RtxPacket KeyedMap Participants RoomHubs RoomHub Signaling
open RoomHandlers TrackHandlers Ingress Servers NackReplies GuardedRun EgressNumbers
open FloorControl (UserId)

section Lookup
variable (arcs : Ptr → Participant) (room : Room) (visit : List UserId) (subscriber : Ptr)
  (heap : Heap) (ssrc : UInt32)

/-- The source SSRC that an announced SSRC stands for: a virtual SSRC stands for the layer
    which the subscriber has selected of its publisher, any other one for itself. -/
def standsFor : UInt32 :=
  if room.simulcastEnabled then
    match room.findPublisherByVssrc heap visit ssrc with
    | none => ssrc
    | some publisher =>
      (((heap subscriber).subscribeLayers.lookup (arcs publisher).userId).bind fun entry =>
        (heap publisher).layerSsrc entry.rid).getD ssrc
  else ssrc

/-- The track that an announced SSRC stands for, of whoever is visited first with it. -/
def standsForTrack : Option Track :=
  (room.findByTrackSsrc heap visit (standsFor arcs room visit subscriber heap ssrc)).bind fun p =>
    (heap p).findTrack (standsFor arcs room visit subscriber heap ssrc)

theorem nackSource_conference (conference : room.mode = .conference) :
    (nackSource arcs room visit subscriber heap ssrc).1 =
      standsFor arcs room visit subscriber heap ssrc := by
  unfold nackSource standsFor
  split
  · cases room.findPublisherByVssrc heap visit ssrc with
    | none => rfl
    | some publisher =>
      simp only
      cases (heap subscriber).subscribeLayers.lookup (arcs publisher).userId with
      | none => rfl
      | some entry => rfl
  · rw [if_neg]
    simp [conference]

variable {arcs room visit subscriber}

theorem standsForTrack_shows {h h' : Heap} (same : Shows media h h') :
    standsForTrack arcs room visit subscriber h' ssrc =
      standsForTrack arcs room visit subscriber h ssrc := by
  obtain ⟨tracks, vssrc, layers⟩ := shows_reads same
  simp only [standsForTrack, standsFor, Room.findByTrackSsrc, Room.findPublisherByVssrc,
    ParticipantState.layerSsrc, ParticipantState.findTrack, tracks, vssrc, layers]

end Lookup

section Replies
variable {arcs : Ptr → Participant} {room : Room} {visit : List UserId} {subscriber : Ptr}

/-- The reply is built with the RTX SSRC of the track that the asked SSRC stands for. -/
structure Repairs (arcs : Ptr → Participant) (room : Room) (visit : List UserId) (subscriber : Ptr)
    (h : Heap) (nack : NackItem) (reply : RtxReply) : Prop where
  ssrc : reply.mediaSsrc = nack.mediaSsrc
  stream : ∃ rtxSsrc rtxSeq, (standsForTrack arcs room visit subscriber h nack.mediaSsrc).bind
      (·.rtxSsrc) = some rtxSsrc ∧
    reply.rtx = buildRtxPacket reply.original rtxSsrc rtxSeq

theorem handleNackItem_repairs (conference : room.mode = .conference) (nowMs : Nat)
    (state : Heap × List RtxReply) (nack : NackItem) :
    ∀ reply ∈ (handleNackItem arcs room visit subscriber nowMs state nack).2,
      reply ∈ state.2 ∨ Repairs arcs room visit subscriber state.1 nack reply := by
  obtain ⟨h, done⟩ := state
  intro reply member
  unfold handleNackItem at member
  simp only at member
  split at member
  · exact .inl member
  rename_i publisher leads
  split at member
  · exact .inl member
  split at member
  · exact .inl member
  rename_i rtxSsrc paired
  simp only [retransmit] at member
  rcases List.mem_append.mp member with old | new
  · exact .inl old
  right
  obtain ⟨_, built⟩ := buildReply_fold nack.mediaSsrc rtxSsrc
    (nackSource arcs room visit subscriber h nack.mediaSsrc).2 publisher
    (expandNack nack.pid nack.blp) h
  obtain ⟨_, queued⟩ := enqueueReply_fold subscriber
    ((expandNack nack.pid nack.blp).foldl (buildReply nack.mediaSsrc rtxSsrc
      (nackSource arcs room visit subscriber h nack.mediaSsrc).2 publisher) (h, [])).2
    (escalate subscriber _ publisher (nackSource arcs room visit subscriber h nack.mediaSsrc).1
      (expandNack nack.pid nack.blp).length _ nowMs)
  obtain ⟨before, present, same⟩ := queued reply new
  obtain ⟨ssrc, _, _, _, rtxSeq, rtx⟩ := built before present
  rw [same]
  refine ⟨ssrc, rtxSsrc, rtxSeq, ?_, rtx⟩
  rw [nackSource_conference arcs room visit subscriber h nack.mediaSsrc conference] at leads paired
  rw [standsForTrack, leads]
  exact paired

theorem handleNackBlock_repairs (conference : room.mode = .conference) (h : Heap) (block : Bytes)
    (nowMs : Nat) : ∀ reply ∈ (handleNackBlock arcs room visit subscriber h block nowMs).2,
      ∃ nack ∈ parseRtcpNack block, Repairs arcs room visit subscriber h nack reply := by
  apply handleNackBlock_replies arcs room visit subscriber
  · intro h h' nack reply same repairs
    refine ⟨repairs.ssrc, ?_⟩
    rw [← standsForTrack_shows nack.mediaSsrc same]
    exact repairs.stream
  · exact handleNackItem_repairs conference nowMs

/-- A packet of a retransmission stream is on the RTX SSRC that it was built with. -/
theorem carries_rtx {original : Bytes} {rtxSsrc ssrc : UInt32} {seq : UInt16}
    (some_ : buildRtxPacket original rtxSsrc seq ≠ []) :
    Carries ssrc (buildRtxPacket original rtxSsrc seq) ↔ rtxSsrc = ssrc := by
  constructor
  · exact rtx_carries
  · intro same
    have complete : headerEnd original ≤ original.length := by
      by_contra short
      refine some_ ?_
      unfold buildRtxPacket
      split
      · rfl
      · rw [if_pos (Nat.lt_of_not_le short)]
    refine ⟨?_, (rtx_ssrc rtxSsrc seq complete).trans same⟩
    rw [length_rtx _ _ complete]
    simp only [headerEnd, rtpHeaderMinSize] at complete ⊢
    omega

end Replies

/-- A retransmission is on the announced stream exactly when the announced SSRC stands for a
    track with that RTX SSRC. -/
theorem rtx_paired_iff (hmacSha1 : Bytes → Bytes → Bytes) (crc32 : Bytes → UInt32)
    (es : List Event) (r : RoomId) (room : Room) (visit : List UserId) (k : UserId)
    (subscriber : Ptr) (draws : Ptr → NonzeroSsrc) (block : Bytes) (nowMs : Nat) :
    let hub := (run (Servers.step hmacSha1 crc32) Server.new es).hub
    hub.rooms.lookup r = some room → room.mode = .conference →
      room.participants.lookup k = some subscriber →
      ∀ t ∈ (collectSubscribeTracks hub.arcs room hub.heap draws k).2, ∀ rtxSsrc,
        t.rtxSsrc = some rtxSsrc →
      ∀ reply ∈ (handleNackBlock hub.arcs room visit subscriber hub.heap block nowMs).2,
        reply.enqueued = true → reply.rtx ≠ [] → reply.mediaSsrc = t.ssrc →
        (Carries rtxSsrc reply.rtx ↔
          (standsForTrack hub.arcs room visit subscriber hub.heap t.ssrc).bind (·.rtxSsrc) =
            t.rtxSsrc) := by
  intro hub _ conference _ t _ rtxSsrc announced reply member _ some_ asked
  obtain ⟨nack, _, repairs⟩ := handleNackBlock_repairs conference hub.heap block nowMs reply member
  obtain ⟨built, seq, stream, rtx⟩ := repairs.stream
  rw [← repairs.ssrc, asked] at stream
  rw [rtx] at some_ ⊢
  rw [carries_rtx some_, stream, announced, Option.some.injEq]

/-- The subscriber watches the low layer and has been sent one packet of it. -/
def watchingLow : List Event :=
  sampleRoom .conference true :: joinAs 0 "a" 1 ++ joinAs 1 "b" 2 ++
    startMedia 0 1 .publish 5000 ++ startMedia 1 2 .subscribe 5001 ++
    [publishVideo 0 [(11, some "h"), (12, some "l")],
      .request 1 5 (.subscribeLayer (some [⟨"a", "l"⟩])) (sampleOracle 0),
      .rtp (AddressIndex.portAt 5000) (keyframePacket 7 50 12 0) (sampleOracle 0)]

/-- The same with the high layer. -/
def watchingHigh : List Event :=
  sampleRoom .conference true :: joinAs 0 "a" 1 ++ joinAs 1 "b" 2 ++
    startMedia 0 1 .publish 5000 ++ startMedia 1 2 .subscribe 5001 ++
    [publishVideo 0 [(11, some "h"), (12, some "l")],
      .rtp (AddressIndex.portAt 5000) (keyframePacket 7 50 11 0) (sampleOracle 0)]

def announcedVideo : TrackInfo := ⟨"a", .video, 503, "a_0", some 1011, none⟩

theorem high_layer_rtx_paired :
    let hub := (run (Servers.step sampleHmac fun _ => 0) Server.new watchingHigh).hub
    ∃ room, hub.rooms.lookup "room" = some room ∧
      ∃ reply ∈ (handleNackBlock hub.arcs room ["a", "b"] 1 hub.heap (nackBlock 503 7) 9000).2,
        Carries 1011 reply.rtx := by
  intro hub
  obtain ⟨room, held⟩ : ∃ room, hub.rooms.lookup "room" = some room := ⟨_, rfl⟩
  have facts : ∀ room, hub.rooms.lookup "room" = some room → room.mode = .conference ∧
      room.participants.lookup "b" = some 1 ∧
      announcedVideo ∈ (collectSubscribeTracks hub.arcs room hub.heap (sampleOracle 0).vssrc
        "b").2 ∧
      (standsForTrack hub.arcs room ["a", "b"] 1 hub.heap 503).bind (·.rtxSsrc) = some 1011 ∧
      ((handleNackBlock hub.arcs room ["a", "b"] 1 hub.heap (nackBlock 503 7) 9000).2.any
        fun reply => reply.enqueued && reply.rtx != [] && reply.mediaSsrc == 503) = true := by
    intro room held
    obtain rfl := Option.some.inj held
    decide
  obtain ⟨conference, seat, listed, stands, answered⟩ := facts room held
  obtain ⟨reply, member, queued⟩ := List.any_eq_true.mp answered
  simp only [Bool.and_eq_true, bne_iff_ne, beq_iff_eq] at queued
  refine ⟨room, held, reply, member, ?_⟩
  exact (rtx_paired_iff sampleHmac (fun _ => 0) watchingHigh "room" room ["a", "b"] "b" 1
    (sampleOracle 0).vssrc (nackBlock 503 7) 9000 held conference seat announcedVideo listed 1011
    rfl reply member queued.1.1 queued.1.2 queued.2).mpr stands

/-- The announced RTX SSRC is that of the high layer, whatever layer is selected. -/
theorem low_layer_rtx_unpaired :
    ¬ ∀ (hmacSha1 : Bytes → Bytes → Bytes) (crc32 : Bytes → UInt32) (es : List Event) (r : RoomId)
        (room : Room) (visit : List UserId) (k : UserId) (subscriber : Ptr)
        (draws : Ptr → NonzeroSsrc) (block : Bytes) (nowMs : Nat),
      let hub := (run (Servers.step hmacSha1 crc32) Server.new es).hub
      hub.rooms.lookup r = some room → room.mode = .conference →
        room.participants.lookup k = some subscriber →
        ∀ t ∈ (collectSubscribeTracks hub.arcs room hub.heap draws k).2, ∀ rtxSsrc,
          t.rtxSsrc = some rtxSsrc →
        ∀ reply ∈ (handleNackBlock hub.arcs room visit subscriber hub.heap block nowMs).2,
          reply.enqueued = true → reply.rtx ≠ [] → reply.mediaSsrc = t.ssrc →
            Carries rtxSsrc reply.rtx := by
  intro holds
  let hub := (run (Servers.step sampleHmac fun _ => 0) Server.new watchingLow).hub
  obtain ⟨room, held⟩ : ∃ room, hub.rooms.lookup "room" = some room := ⟨_, rfl⟩
  have facts : ∀ room, hub.rooms.lookup "room" = some room → room.mode = .conference ∧
      room.participants.lookup "b" = some 1 ∧
      announcedVideo ∈ (collectSubscribeTracks hub.arcs room hub.heap (sampleOracle 0).vssrc
        "b").2 ∧
      ((handleNackBlock hub.arcs room ["a", "b"] 1 hub.heap (nackBlock 503 7) 9000).2.any
        fun reply => reply.enqueued && reply.rtx != [] && reply.mediaSsrc == 503 &&
          !decide (Carries 1011 reply.rtx)) = true := by
    intro room held
    obtain rfl := Option.some.inj held
    decide
  obtain ⟨conference, seat, listed, answered⟩ := facts room held
  obtain ⟨reply, member, queued⟩ := List.any_eq_true.mp answered
  simp only [Bool.and_eq_true, bne_iff_ne, beq_iff_eq, Bool.not_eq_true', decide_eq_false_iff_not]
    at queued
  obtain ⟨⟨⟨sent, some_⟩, asked⟩, other⟩ := queued
  exact other (holds sampleHmac (fun _ => 0) watchingLow "room" room ["a", "b"] "b" 1
    (sampleOracle 0).vssrc (nackBlock 503 7) 9000 held conference seat announcedVideo listed 1011
    rfl reply member sent some_ asked)

end RtxPairing
