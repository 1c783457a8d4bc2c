import OxlensSfu.NackReplies
import OxlensSfu.Server

/-
Retransmissions on the virtual video streams. The record holds every packet that was
forwarded, with its source. A packet leaves with new numbers, but is cached, found again
and resent with those of its source.
-/
namespace VirtualRetransmission
open WireBytes SfuConfig RtpPacket RtxPacket FloorControl PttRewriter KeyedMap Participants
open RoomHubs RoomHub RoomHandlers Ingress Servers NackReplies GuardedRun

/-- Nothing but the numbers, the SSRC, the payload type and the marker differ. -/
structure Renumbered (source out : Bytes) : Prop where
  length : out.length = source.length
  octet : byteAt out 0 = byteAt source 0
  tail : out.drop 12 = source.drop 12

theorem Renumbered.refl (p : Bytes) : Renumbered p p := ⟨rfl, rfl, rfl⟩

theorem Renumbered.trans {p q r : Bytes} (first : Renumbered p q) (second : Renumbered q r) :
    Renumbered p r :=
  ⟨second.length.trans first.length, second.octet.trans first.octet, second.tail.trans first.tail⟩

theorem Renumbered.payload {p q : Bytes} (renumbered : Renumbered p q) :
    q.drop (headerEnd q) = p.drop (headerEnd p) := by
  have header : headerEnd q = headerEnd p := by
    simp only [headerEnd, csrcCount, renumbered.octet]
  have past : ∀ b : Bytes, b.drop (headerEnd p) = (b.drop 12).drop (csrcCount p * 4) := by
    intro b
    rw [List.drop_drop, headerEnd]
  rw [header, past, renumbered.tail, ← past]

theorem renumbered_writeHeader {p : Bytes} (seq : UInt16) (ts ssrc : UInt32)
    (long : 12 ≤ p.length) : Renumbered p (writeHeader p seq ts ssrc) :=
  ⟨length_writeHeader _ _ _ long, writeHeader_outside _ _ _ long (by omega),
    writeHeader_payload _ _ _ long⟩

theorem renumbered_rewrite {r next : Rewriter} {p out : Bytes} {sender : UserId} {isKey : Bool}
    {now : Instant} (passed : rewrite r p sender isKey now = (next, .ok, out)) :
    Renumbered p out := by
  by_cases admitted : Admits r p sender isKey
  · rw [rewrite_admitted admitted] at passed
    simp only [Prod.mk.injEq, true_and] at passed
    obtain ⟨length, _, _, _, octet, _, tail⟩ := forward_spec r now admitted.1
    rw [← passed.2]
    exact ⟨length, octet, tail⟩
  · obtain ⟨result, refused, rejected⟩ := rewrite_rejected admitted now
    rw [rejected] at passed
    simp only [Prod.mk.injEq] at passed
    exact absurd passed.2.1 refused

theorem renumbered_layer {r next : SimulcastRewriter} {p out : Bytes} {isKey : Bool}
    (passed : r.rewrite p isKey = (next, some out)) : Renumbered p out := by
  unfold SimulcastRewriter.rewrite at passed
  split at passed
  · simp at passed
  rename_i long
  split at passed
  · simp at passed
  simp only [Prod.mk.injEq, Option.some.injEq] at passed
  rw [← passed.2]
  exact renumbered_writeHeader _ _ _ (Nat.le_of_not_lt long)

theorem renumbered_prepared {mode : RoomMode} {ptt next : PttState} {sender : UserId}
    {hdr : RtpHeader} {p out : Bytes} {now : Instant}
    (prepared : prepareFanoutPayload mode ptt sender hdr p now = (next, some out)) :
    Renumbered p out := by
  unfold prepareFanoutPayload at prepared
  split at prepared
  · split at prepared
    · simp at prepared
    split at prepared
    · rename_i written rewritten
      simp only [Prod.mk.injEq, Option.some.injEq] at prepared
      rw [← prepared.2]
      unfold rewriteByPt at rewritten
      split at rewritten
      · simp only [Prod.mk.injEq] at rewritten
        exact renumbered_rewrite (Prod.ext rfl (Prod.ext rewritten.2.1 rewritten.2.2))
      split at rewritten
      · simp only [Prod.mk.injEq] at rewritten
        exact renumbered_rewrite (Prod.ext rfl (Prod.ext rewritten.2.1 rewritten.2.2))
      · simp at rewritten
    · simp at prepared
    · simp only [Prod.mk.injEq, Option.some.injEq] at prepared
      rw [← prepared.2]
      exact .refl p
  · simp only [Prod.mk.injEq, Option.some.injEq] at prepared
    rw [← prepared.2]
    exact .refl p

theorem renumbered_passLayer (old : Option SubscribeLayerEntry) (vssrc : UInt32) (rid : String)
    (isKey : Bool) (p : Bytes) (checked marked : Instant) :
    ∀ out ∈ (passLayer old vssrc rid isKey p checked marked).2.1, Renumbered p out := by
  intro out passed
  unfold passLayer at passed
  simp only at passed
  split at passed
  · simp at passed
  · exact renumbered_layer (Prod.ext rfl passed)

section Fanout
variable (senderId : UserId) (sender : Ptr) (hdr : RtpHeader)

theorem renumbered_target (vssrc : UInt32) (rid : String) (isKey : Bool) (p : Bytes)
    (clk : Nat → Instant) (state : LayerFanout) (target : Ptr)
    (earlier : ∀ sent ∈ state.passed, Renumbered p sent.2) :
    ∀ sent ∈ (fanoutTarget senderId sender vssrc rid isKey p clk state target).passed,
      Renumbered p sent.2 := by
  have layer := renumbered_passLayer ((state.heap target).subscribeLayers.lookup senderId)
    vssrc rid isKey p (clk state.reads) (clk (state.reads + 1))
  unfold fanoutTarget
  split
  · exact earlier
  simp only
  split
  · rename_i buf passed
    intro sent member
    rw [List.mem_append, List.mem_singleton] at member
    rcases member with old | rfl
    · exact earlier sent old
    · exact layer buf passed
  · exact earlier

theorem renumbered_targets (vssrc : UInt32) (rid : String) (isKey : Bool) (p : Bytes)
    (clk : Nat → Instant) (targets : List Ptr) (state : LayerFanout)
    (earlier : ∀ sent ∈ state.passed, Renumbered p sent.2) :
    ∀ sent ∈ (targets.foldl (fanoutTarget senderId sender vssrc rid isKey p clk) state).passed,
      Renumbered p sent.2 := by
  induction targets generalizing state with
  | nil => exact earlier
  | cons target targets ih =>
    exact ih _ (renumbered_target senderId sender vssrc rid isKey p clk state target earlier)

theorem renumbered_fanout (hub : RoomHub) (roomId : RoomId) (room : Room) (source out : Bytes)
    (o : Oracle) :
    ∀ f ∈ (fanout hub roomId room senderId sender hdr source out o).2,
      f.source = source ∧ Renumbered out f.out := by
  intro f member
  unfold fanout at member
  split at member
  · simp only [fanoutSimulcastVideo, List.mem_map] at member
    obtain ⟨sent, passed, rfl⟩ := member
    refine ⟨rfl, ?_⟩
    split at passed
    · simp at passed
    · exact renumbered_targets senderId sender _ _ _ out _ _ _ (by simp) sent passed
  · simp only [List.mem_singleton] at member
    rw [member]
    exact ⟨rfl, .refl out⟩

theorem renumbered_relayRtp (hub : RoomHub) (roomId : RoomId) (room : Room) (buf : Bytes)
    (o : Oracle) :
    ∀ f ∈ (relayRtp hub roomId room sender buf o).forwards, Renumbered f.source f.out := by
  intro f member
  simp only [relayRtp] at member
  split at member
  · simp at member
  · rename_i out payload
    obtain ⟨source, sent⟩ := renumbered_fanout _ _ _ _ _ _ _ _ _ f member
    rw [source]
    exact (renumbered_prepared (Prod.ext rfl payload)).trans sent

end Fanout

structure Recorded where
  server : Server
  forwards : List Forward

def Recorded.new : Recorded := ⟨.new, []⟩

def forwardsOf (s : Server) : Event → List Forward
  | .rtp remote buf o => (handleSrtp s.hub remote buf o).forwards
  | _ => []

def recordStep (hmacSha1 : Bytes → Bytes → Bytes) (crc32 : Bytes → UInt32) (t : Recorded)
    (e : Event) : Recorded :=
  ⟨Servers.step hmacSha1 crc32 t.server e, forwardsOf t.server e ++ t.forwards⟩

def ForwardsRenumbered (t : Recorded) : Prop := ∀ f ∈ t.forwards, Renumbered f.source f.out

theorem recordStep_renumbered (hmacSha1 : Bytes → Bytes → Bytes) (crc32 : Bytes → UInt32)
    (t : Recorded) (e : Event) (renumbered : ForwardsRenumbered t) :
    ForwardsRenumbered (recordStep hmacSha1 crc32 t e) := by
  have fresh : ∀ f ∈ forwardsOf t.server e, Renumbered f.source f.out := by
    intro f member
    cases e with
    | rtp remote buf o =>
      simp only [forwardsOf] at member
      rcases handleSrtp_cases t.server.hub remote buf o with
        dropped | ⟨sender, touched⟩ | ⟨sender, r, room, _, _, _, relayed⟩
      · simp [dropped] at member
      · simp [touched] at member
      · rw [relayed] at member
        exact renumbered_relayRtp sender _ r room buf o f member
    | _ => simp [forwardsOf] at member
  intro f member
  simp only [recordStep, List.mem_append] at member
  exact member.elim (fresh f) (renumbered f)

section Lookup
variable (arcs : Ptr → Participant) (room : Room) (visit : List UserId) (subscriber : Ptr)
  (heap : Heap)

/-- The video virtual SSRC of a PTT room, or a simulcast publisher's towards one subscriber. -/
def OnVirtualStream (mediaSsrc : UInt32) (f : Forward) : Prop :=
  (room.mode = .ptt ∧ room.videoRewriter.virtualSsrc = mediaSsrc) ∨
    (room.simulcastEnabled = true ∧ (heap f.sender).simulcastVideoSsrc = mediaSsrc ∧
      subscriber ∈ f.targets)

/-- Packet `v` of the virtual stream, sent without header extension and still cached. -/
structure SentAs (roomId : RoomId) (mediaSsrc : UInt32) (v : UInt16) (f : Forward) : Prop where
  inRoom : f.roomId = roomId
  stream : OnVirtualStream room subscriber heap mediaSsrc f
  ssrc : u32At f.out 8 = mediaSsrc
  seq : u16At f.out 2 = v
  plain : hasExtension f.source = false
  cached : (heap f.sender).rtpCache.get (u16At f.source 2) = some f.source

/-- PTT: the number map of the latest burst leaves the number alone, and the current or
    else the last speaker's video track, if it is found, is found with the sender. -/
def BurstInForce (mediaSsrc : UInt32) (v : UInt16) (sender : Ptr) : Prop :=
  let speaker := (currentSpeaker room.floor).orElse fun _ => lastSpeaker room.floor
  let ssrc := (speaker.bind room.getParticipant).bind fun p => (heap p).firstVideoSsrc
  reverseSeq room.videoRewriter v = v ∧
    ∀ p, room.findByTrackSsrc heap visit (ssrc.getD mediaSsrc) = some p → p = sender

/-- Simulcast: the same of the offset of the subscriber's layer and the layer's track. -/
def LayerInForce (mediaSsrc : UInt32) (v : UInt16) (sender : Ptr) : Prop :=
  match room.findPublisherByVssrc heap visit mediaSsrc with
  | none => ∀ p, room.findByTrackSsrc heap visit mediaSsrc = some p → p = sender
  | some publisher =>
    match (heap subscriber).subscribeLayers.lookup (arcs publisher).userId with
    | none => ∀ p, room.findByTrackSsrc heap visit mediaSsrc = some p → p = sender
    | some entry => entry.rewriter.reverseSeq v = v ∧
        ∀ p, room.findByTrackSsrc heap visit
          (((heap publisher).layerSsrc entry.rid).getD mediaSsrc) = some p → p = sender

/-- A packet that left with the numbers of its source, which are still looked up as such. -/
structure OwnNumbers (mediaSsrc : UInt32) (v : UInt16) (f : Forward) : Prop where
  whole : headerEnd f.source ≤ f.source.length
  seq : u16At f.source 2 = v
  ts : u32At f.source 4 = u32At f.out 4
  inForce : if room.simulcastEnabled then LayerInForce arcs room visit subscriber heap mediaSsrc v
    f.sender else BurstInForce room visit heap mediaSsrc v f.sender

/-- What a receiver makes of the retransmission is the packet that was forwarded. -/
structure Restores (reply : RtxReply) (f : Forward) : Prop where
  seq : u16At (restore reply.rtx reply.mediaSsrc) 2 = reply.requested
  ts : u32At (restore reply.rtx reply.mediaSsrc) 4 = u32At f.out 4
  payload : (restore reply.rtx reply.mediaSsrc).drop (headerEnd (restore reply.rtx reply.mediaSsrc)) =
    f.out.drop (headerEnd f.out)

theorem source_inForce {mediaSsrc : UInt32} {v : UInt16} {f : Forward}
    (stream : OnVirtualStream room subscriber heap mediaSsrc f)
    (own : OwnNumbers arcs room visit subscriber heap mediaSsrc v f) :
    (nackSource arcs room visit subscriber heap mediaSsrc).2 v = v ∧
      ∀ p, nackPublisher arcs room visit subscriber heap mediaSsrc = some p → p = f.sender := by
  have inForce := own.inForce
  unfold nackPublisher nackSource
  split at inForce
  · rename_i simulcast
    rw [if_pos simulcast]
    unfold LayerInForce at inForce
    cases published : room.findPublisherByVssrc heap visit mediaSsrc with
    | none =>
      simp only [published] at inForce
      exact ⟨rfl, inForce⟩
    | some publisher =>
      simp only [published] at inForce
      dsimp only
      cases seen : (heap subscriber).subscribeLayers.lookup (arcs publisher).userId with
      | none =>
        simp only [seen] at inForce
        exact ⟨rfl, inForce⟩
      | some entry =>
        simp only [seen] at inForce
        exact inForce
  · rename_i single
    rcases stream with ptt | ⟨simulcast, _⟩
    · rw [if_neg single, if_pos ptt]
      exact inForce
    · exact absurd simulcast single

theorem restores_of_ownNumbers {roomId : RoomId} {nack : NackItem} {reply : RtxReply} {f : Forward}
    (answers : Answers arcs room visit subscriber heap nack reply)
    (sent : SentAs room subscriber heap roomId reply.mediaSsrc reply.requested f)
    (own : OwnNumbers arcs room visit subscriber heap reply.mediaSsrc reply.requested f)
    (renumbered : Renumbered f.source f.out) : Restores reply f := by
  obtain ⟨mapped, sender⟩ := source_inForce arcs room visit subscriber heap sent.stream own
  have original := answers.original
  have publisher : reply.publisher = f.sender := by
    apply sender
    rw [answers.ssrc]
    exact answers.publisher
  rw [← answers.ssrc, mapped, publisher, ← own.seq, sent.cached, Option.some.injEq] at original
  obtain ⟨rtxSsrc, rtxSeq, built⟩ := answers.built
  rw [← original] at built
  refine ⟨?_, ?_, ?_⟩
  · rw [built, restored_seq rtxSsrc rtxSeq own.whole, own.seq]
  · rw [built, restored_ts rtxSsrc rtxSeq own.whole, own.ts]
  · rw [built, restored_payload rtxSsrc rtxSeq own.whole, renumbered.payload]

end Lookup

/-- A NACK from a subscriber of a room. -/
structure NackFrom (hub : RoomHub) (remote : SocketAddr) (subscriber : Ptr) (roomId : RoomId)
    (room : Room) : Prop where
  found : hub.findByAddr remote = some (subscriber, .subscribe, roomId)
  held : hub.rooms.lookup roomId = some room

/-- Every packet asked for that was sent on the virtual stream still has its own numbers. -/
def AsksOwnNumbers (t : Recorded) : Event → Prop
  | .nack remote block _ _ visit => ∀ subscriber roomId room,
      NackFrom t.server.hub remote subscriber roomId room →
      ∀ nack ∈ parseRtcpNack block, ∀ v ∈ expandNack nack.pid nack.blp, ∀ f ∈ t.forwards,
        SentAs room subscriber t.server.hub.heap roomId nack.mediaSsrc v f →
          OwnNumbers t.server.hub.arcs room visit subscriber t.server.hub.heap nack.mediaSsrc v f
  | _ => True

def RepliesRestore (t : Recorded) : Event → Prop
  | .nack remote block touchMs nowMs visit => ∀ subscriber roomId room,
      NackFrom t.server.hub remote subscriber roomId room →
      ∀ reply ∈ (handleSubscribeNack t.server.hub remote block touchMs nowMs visit).2,
        reply.enqueued = true → ∀ f ∈ t.forwards,
          SentAs room subscriber t.server.hub.heap roomId reply.mediaSsrc reply.requested f →
            Restores reply f
  | _ => True

theorem replies_restore {t : Recorded} (renumbered : ForwardsRenumbered t) (e : Event)
    (own : AsksOwnNumbers t e) : RepliesRestore t e := by
  cases e with
  | nack remote block touchMs nowMs visit =>
    intro subscriber roomId room nackFrom reply member _ f recorded sent
    obtain ⟨subscriber', r', room', found, held, nack, present, answers⟩ := nack_answered member
    rw [nackFrom.found, Option.some.injEq, Prod.mk.injEq, Prod.mk.injEq] at found
    obtain ⟨rfl, _, rfl⟩ := found
    rw [nackFrom.held, Option.some.injEq] at held
    subst held
    have numbers := own subscriber roomId room nackFrom nack present reply.requested
      answers.requested f recorded
    rw [← answers.ssrc] at numbers
    exact restores_of_ownNumbers _ room visit subscriber _ answers sent (numbers sent)
      (renumbered f recorded)
  | _ => trivial

theorem virtual_retransmissions_restore (hmacSha1 : Bytes → Bytes → Bytes)
    (crc32 : Bytes → UInt32) (es : List Event)
    (own : Guarded (recordStep hmacSha1 crc32) AsksOwnNumbers Recorded.new es) :
    Guarded (recordStep hmacSha1 crc32) RepliesRestore Recorded.new es := by
  have kept : ∀ t e, ForwardsRenumbered t → AsksOwnNumbers t e →
      ForwardsRenumbered (recordStep hmacSha1 crc32 t e) :=
    fun t e renumbered _ => recordStep_renumbered hmacSha1 crc32 t e renumbered
  have start : ForwardsRenumbered Recorded.new := by simp [ForwardsRenumbered, Recorded.new]
  exact guarded_of_invariant kept (fun t e renumbered asks => replies_restore renumbered e asks)
    start own

/-- A publishes one video track, and B subscribes. -/
def publisherAndSubscriber (room : Event) (rid : Option String) : List Event :=
  room :: joinAs 0 "a" 1 ++ joinAs 1 "b" 2 ++
    startMedia 0 1 .publish 5000 ++ startMedia 1 2 .subscribe 5001 ++ [publishVideo 0 [(11, rid)]]

def keyframe100 : Event :=
  .rtp (AddressIndex.portAt 5000) (keyframePacket 100 9000 11 0) (sampleOracle 0)

/-- Before the first layer switch a simulcast stream has the numbers of its source. -/
def oneLayer : List Event :=
  publisherAndSubscriber (sampleRoom .conference true) (some "h") ++ [keyframe100]

def askLayer : Event := .nack (AddressIndex.portAt 5001) (nackBlock 503 100) 1000 1000 ["a", "b"]

theorem first_layer_restored :
    Guarded (recordStep sampleHmac fun _ => 0) RepliesRestore Recorded.new
      (oneLayer ++ [askLayer]) := by
  refine virtual_retransmissions_restore _ _ _ ?_
  rw [guarded_append]
  refine ⟨guarded_of_all _ ?_, ?_, trivial⟩
  · simp [oneLayer, publisherAndSubscriber, sampleRoom, joinAs, identifyAs, startMedia,
      publishVideo, keyframe100, AsksOwnNumbers]
  · intro subscriber roomId room nackFrom nack asked v wanted f recorded _
    let hub := (run (recordStep sampleHmac fun _ => 0) Recorded.new oneLayer).server.hub
    have located : hub.findByAddr (AddressIndex.portAt 5001) = some (1, .subscribe, "room") := by
      decide
    rw [show (run _ Recorded.new oneLayer).server.hub.findByAddr _ = _ from nackFrom.found,
      Option.some.injEq, Prod.mk.injEq, Prod.mk.injEq] at located
    obtain ⟨rfl, _, rfl⟩ := located
    have held : hub.rooms.lookup "room" = some room := nackFrom.held
    have items : parseRtcpNack (nackBlock 503 100) = [⟨503, 100, 0⟩] := by decide
    have forwards : (run (recordStep sampleHmac fun _ => 0) Recorded.new oneLayer).forwards =
        [⟨"room", 0, keyframePacket 100 9000 11 0, keyframePacket 100 9000 503 0, [1]⟩] := by
      decide
    rw [items, List.mem_singleton] at asked
    subst asked
    rw [forwards, List.mem_singleton] at recorded
    subst recorded
    have number : v = 100 := by
      have single : expandNack 100 0 = [100] := by decide
      rwa [single, List.mem_singleton] at wanted
    subst number
    have rooms : hub.rooms.lookup "room" = some ((hub.rooms.lookup "room").get (by decide)) :=
      (Option.some_get _).symm
    have same : room = (hub.rooms.lookup "room").get (by decide) :=
      Option.some.inj (held.symm.trans rooms)
    subst same
    refine ⟨by decide, by decide, by decide, ?_⟩
    have published : ((hub.rooms.lookup "room").get (by decide)).findPublisherByVssrc hub.heap
        ["a", "b"] 503 = some 0 := by decide
    have leads : ((hub.rooms.lookup "room").get (by decide)).findByTrackSsrc hub.heap ["a", "b"]
        (((hub.heap 0).layerSsrc "h").getD 503) = some 0 := by decide
    rw [if_pos (by decide), LayerInForce]
    simp only [show (run _ Recorded.new oneLayer).server.hub = hub from rfl, published]
    exact ⟨by decide, fun p found => Option.some.inj (found.symm.trans leads)⟩

/-- Packet 100 leaves as packet 1; packet 1 is lost, and packet 100 is resent. -/
def talkBurst : List Event :=
  publisherAndSubscriber (sampleRoom .ptt false) none ++ [requestFloor 0, keyframe100]

def askBurst : Event := .nack (AddressIndex.portAt 5001) (nackBlock 502 1) 1000 1000 ["a", "b"]

theorem source_number_resent :
    ¬ ∀ (hmacSha1 : Bytes → Bytes → Bytes) (crc32 : Bytes → UInt32) (es : List Event),
      Guarded (recordStep hmacSha1 crc32) RepliesRestore Recorded.new es := by
  intro restores
  have replies := restores sampleHmac (fun _ => 0) (talkBurst ++ [askBurst])
  rw [guarded_append] at replies
  let t := run (recordStep sampleHmac fun _ => 0) Recorded.new talkBurst
  let room := (t.server.hub.rooms.lookup "room").get (by decide)
  have nackFrom : NackFrom t.server.hub (AddressIndex.portAt 5001) 1 "room" room :=
    ⟨by decide, (Option.some_get _).symm⟩
  have resent : (⟨502, 1, 0, keyframePacket 100 9000 11 0,
      buildRtxPacket (keyframePacket 100 9000 11 0) 1011 0, true⟩ : RtxReply) ∈
        (handleSubscribeNack t.server.hub (AddressIndex.portAt 5001) (nackBlock 502 1) 1000 1000
          ["a", "b"]).2 := by
    decide
  have forwarded : (⟨"room", 0, keyframePacket 100 9000 11 0, keyframePacket 1 3000 502 0, [1]⟩ :
      Forward) ∈ t.forwards := by
    decide
  have sent : SentAs room 1 t.server.hub.heap "room" 502 1
      ⟨"room", 0, keyframePacket 100 9000 11 0, keyframePacket 1 3000 502 0, [1]⟩ :=
    ⟨rfl, .inl (by decide), by decide, by decide, by decide, by decide⟩
  have restored := replies.2.1 1 "room" room nackFrom _ resent rfl _ forwarded sent
  exact absurd restored.seq (by decide)

end VirtualRetransmission
