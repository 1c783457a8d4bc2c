import OxlensSfu.TrackHandlers

/-
The media path on decrypted packets: a publisher's RTP is cached and fanned out, a
subscriber's NACK is answered from the cache. A handler also returns what it took in
and handed on.
-/
namespace Ingress
open WireBytes SfuConfig RtpPacket RtxPacket FloorControl PttRewriter KeyedMap Participants
open RoomHubs RoomHub RoomHandlers TrackHandlers

/-- Payload types 72 to 79 are RTCP. -/
def isRtcp (buf : Bytes) : Bool :=
  match buf[1]? with
  | some b => decide (72 ≤ b &&& 0x7F) && decide (b &&& 0x7F ≤ 79)
  | none => false

def retype (p : Bytes) (hdr : RtpHeader) (pt : UInt8) : Bytes × RtpHeader :=
  (overwrite p 1 [(byteAt p 1 &&& 0x80) ||| pt], { hdr with pt := pt })

/-- The payload type that the client announced becomes the server's own. -/
def normalizePt (tracks : List Track) (p : Bytes) : Bytes × RtpHeader :=
  let hdr := parseRtpHeader p
  match tracks.find? fun t => t.actualPt != 0 && t.actualPt == hdr.pt with
  | some t => retype p hdr t.videoCodec.standardPt
  | none =>
    match tracks.find? fun t => t.actualRtxPt != 0 && t.actualRtxPt == hdr.pt with
    | some t => retype p hdr t.videoCodec.standardRtxPt
    | none => (p, hdr)

theorem retyped_octet (b : UInt8) {pt : UInt8} (top : pt &&& 0x80 = 0) (low : pt &&& 0x7F = pt) :
    ((b &&& 0x80) ||| pt) &&& 0x7F = pt ∧ ((b &&& 0x80) ||| pt) &&& 0x80 = b &&& 0x80 := by
  have spread : ∀ m : UInt8,
      ((b &&& 0x80) ||| pt) &&& m = (b &&& (0x80 &&& m)) ||| (pt &&& m) := fun m => by
    rw [or_masked, UInt8.and_assoc]
  have disjoint : (0x80 &&& 0x7F : UInt8) = 0 := rfl
  have whole : (0x80 &&& 0x80 : UInt8) = 0x80 := rfl
  constructor
  · rw [spread, low, disjoint, UInt8.and_zero, UInt8.zero_or]
  · rw [spread, top, whole, UInt8.or_zero]

section Retyped
variable {p : Bytes} (long : 12 ≤ p.length) (hdr : RtpHeader) (pt : UInt8)
include long

theorem retype_fits : 1 + [(byteAt p 1 &&& 0x80) ||| pt].length ≤ p.length := by
  rw [List.length_singleton]
  omega

theorem length_retype : (retype p hdr pt).1.length = p.length := length_overwrite (retype_fits long pt)

theorem retype_other {k : Nat} (other : k ≠ 1) : byteAt (retype p hdr pt).1 k = byteAt p k :=
  byteAt_overwrite_outside (retype_fits long pt) (by rw [List.length_singleton]; omega)

theorem retype_octet : byteAt (retype p hdr pt).1 1 = (byteAt p 1 &&& 0x80) ||| pt := by
  rw [retype, byteAt_overwrite_inside (by omega) (by omega) (by simp)]
  simp [byteAt]

end Retyped

theorem retype_header {p : Bytes} (typed : (parseRtpHeader p).pt ≠ 0) {pt : UInt8}
    (top : pt &&& 0x80 = 0) (low : pt &&& 0x7F = pt) :
    (retype p (parseRtpHeader p) pt).2 = parseRtpHeader (retype p (parseRtpHeader p) pt).1 := by
  have long := long_of_typed typed
  have header : ¬ p.length < rtpHeaderMinSize := Nat.not_lt.mpr long
  have length := length_retype long (parseRtpHeader p) pt
  have octet := retype_octet long (parseRtpHeader p) pt
  have kept := fun k => @retype_other p long (parseRtpHeader p) pt k
  obtain ⟨masked, marker⟩ := retyped_octet (byteAt p 1) top low
  simp only [retype] at length octet kept ⊢
  simp only [parseRtpHeader, length, if_neg header, octet, masked, marker,
    u16At, u32At, csrcCount, kept 0 (by omega), kept 2 (by omega), kept 3 (by omega),
    kept 4 (by omega), kept 5 (by omega), kept 6 (by omega), kept 7 (by omega),
    kept 8 (by omega), kept 9 (by omega), kept 10 (by omega), kept 11 (by omega),
    Nat.reduceAdd]

/-- The normalized header is the header of the normalized packet. -/
theorem normalizePt_header (tracks : List Track) (p : Bytes) :
    (normalizePt tracks p).2 = parseRtpHeader (normalizePt tracks p).1 := by
  have announced : ∀ {t : Track} {actual : Track → UInt8},
      tracks.find? (fun t => actual t != 0 && actual t == (parseRtpHeader p).pt) = some t →
        (parseRtpHeader p).pt ≠ 0 := by
    intro t actual found
    have held := List.find?_some found
    simp only [Bool.and_eq_true, bne_iff_ne, ne_eq, beq_iff_eq] at held
    rw [← held.2]
    exact held.1
  unfold normalizePt
  simp only
  split
  · rename_i t found
    cases t.videoCodec <;> exact retype_header (announced found) rfl rfl
  split
  · rename_i t found
    cases t.videoCodec <;> exact retype_header (announced found) rfl rfl
  · rfl

/-- Video goes into the cache. -/
def collectRtpStats (s : ParticipantState) (hdr : RtpHeader) (plaintext : Bytes) :
    ParticipantState :=
  if isVideoPt hdr.pt then { s with rtpCache := s.rtpCache.store hdr.seq plaintext } else s

/-- More than three seconds without video: answering NACKs is pointless for a while. -/
def detectGap (s : ParticipantState) (hdr : RtpHeader) : ParticipantState :=
  if isVideoPt hdr.pt then
    let seen := { s with lastVideoRtpMs := s.lastSeen }
    if 0 < s.lastVideoRtpMs ∧ 3000 < s.lastSeen - s.lastVideoRtpMs then
      { seen with rtpGapSuppressUntilMs := s.lastSeen + 5000 }.requestKeyframe (some hdr.ssrc)
        FloorHandlers.floorBurst
    else seen
  else s

def isKeyframe (hdr : RtpHeader) (p : Bytes) : Bool :=
  if hdr.pt = h264PayloadType then isH264Keyframe p else isVp8Keyframe p

/-- Neither audio nor video: `Skip`. -/
def rewriteByPt (ptt : PttState) (sender : UserId) (hdr : RtpHeader) (p : Bytes) (now : Instant) :
    PttState × RewriteResult × Bytes :=
  if isAudioPt hdr.pt then
    let (next, result, out) := rewrite ptt.audioRewriter p sender false now
    ({ ptt with audioRewriter := next }, result, out)
  else if isVideoPt hdr.pt then
    let (next, result, out) := rewrite ptt.videoRewriter p sender (isKeyframe hdr p) now
    ({ ptt with videoRewriter := next }, result, out)
  else (ptt, .skip, p)

/-- PTT: only the floor holder passes, rewritten; `Skip` passes the packet as it is.
    Conference: everything passes. -/
def prepareFanoutPayload (mode : RoomMode) (ptt : PttState) (sender : UserId) (hdr : RtpHeader)
    (p : Bytes) (now : Instant) : PttState × Option Bytes :=
  if mode = .ptt then
    if currentSpeaker ptt.floor ≠ some sender then (ptt, none)
    else
      match rewriteByPt ptt sender hdr p now with
      | (next, .ok, out) => (next, some out)
      | (next, .pendingKeyframe, _) => (next, none)
      | (next, .skip, _) => (next, some p)
  else (ptt, some p)

/-- The entry of a subscriber after a packet of layer `senderRid`; what it is sent; and
    whether the publisher is to be asked for a keyframe. -/
def passLayer (old : Option SubscribeLayerEntry) (vssrc : UInt32) (senderRid : String)
    (isKey : Bool) (p : Bytes) (checked marked : Instant) :
    SubscribeLayerEntry × Option Bytes × Bool :=
  let entry := old.getD ⟨"h", .new vssrc⟩
  let created := old.isNone
  if entry.rid = "pause" ∨ senderRid ≠ entry.rid then (entry, none, created)
  else
    let (next, out) := entry.rewriter.rewrite p isKey
    let needPli := created || (out.isNone && next.needsPliRetry checked)
    ({ entry with rewriter := if needPli then next.markPliSent marked else next }, out, needPli)

/-- The loop state of the simulcast fan-out. -/
structure LayerFanout where
  heap : Heap
  reads : Nat
  pliSent : Bool
  passed : List (Ptr × Bytes)

section Simulcast
variable (senderId : UserId) (sender : Ptr) (vssrc : UInt32) (senderRid : String) (isKey : Bool)
  (p : Bytes) (clk : Nat → Instant)

def fanoutTarget (state : LayerFanout) (target : Ptr) : LayerFanout :=
  if !(state.heap target).isSubscribeReady then state
  else
    let (entry, out, needPli) := passLayer ((state.heap target).subscribeLayers.lookup senderId)
      vssrc senderRid isKey p (clk state.reads) (clk (state.reads + 1))
    let kept := mutate state.heap target fun s =>
      { s with subscribeLayers := s.subscribeLayers.insert senderId entry }
    let asked := if needPli && !state.pliSent then
        mutate kept sender fun s => s.requestKeyframe (s.layerSsrc "h") simulcastBurst
      else kept
    match out with
    | some buf =>
      { heap := mutate asked target fun s => s.trySend (.rtp buf)
        reads := state.reads + 2
        pliSent := state.pliSent || needPli
        passed := state.passed ++ [(target, buf)] }
    | none => ⟨asked, state.reads + 2, state.pliSent || needPli, state.passed⟩

end Simulcast

/-- A packet of an SSRC that is no simulcast track goes to nobody. -/
def fanoutSimulcastVideo (room : Room) (heap : Heap) (senderId : UserId) (sender : Ptr)
    (hdr : RtpHeader) (p : Bytes) (draw : NonzeroSsrc) (clk : Nat → Instant) :
    Heap × List (Ptr × Bytes) :=
  match ((heap sender).findTrack hdr.ssrc).bind (·.rid) with
  | none => (heap, [])
  | some rid =>
    let (state, vssrc) := (heap sender).ensureSimulcastVideoSsrc draw
    let done := (room.otherParticipants senderId).foldl
      (fanoutTarget senderId sender vssrc rid (isKeyframe hdr p) p clk)
      ⟨mutate heap sender fun _ => state, 0, false, []⟩
    (done.heap, done.passed)

/-- A packet as it came in, what became of it, and the participants it was handed to. -/
structure Forward where
  roomId : RoomId
  sender : Ptr
  source : Bytes
  out : Bytes
  targets : List Ptr
  deriving DecidableEq, Repr

/-- `cached`: the video packet that entered the sender's cache. -/
structure RtpOut where
  hub : RoomHub
  cached : Option (Ptr × Bytes)
  forwards : List Forward

def readyOthers (room : Room) (heap : Heap) (senderId : UserId) : List Ptr :=
  (room.otherParticipants senderId).filter fun t => (heap t).isSubscribeReady

def fanout (hub : RoomHub) (roomId : RoomId) (room : Room) (senderId : UserId) (sender : Ptr)
    (hdr : RtpHeader) (source out : Bytes) (o : Oracle) : RoomHub × List Forward :=
  if room.simulcastEnabled && isVideoPt hdr.pt then
    let (heap, passed) := fanoutSimulcastVideo room hub.heap senderId sender hdr out
      (o.vssrc sender) (fun n => o.clk (n + 1))
    ({ hub with heap := heap }, passed.map fun (t, buf) => ⟨roomId, sender, source, buf, [t]⟩)
  else
    let targets := readyOthers room hub.heap senderId
    ({ hub with heap := sendToReady hub.heap targets (.rtp out) },
      [⟨roomId, sender, source, out, targets⟩])

/-- Cache, gap detection, gate and rewriting, fan-out. -/
def relayRtp (hub : RoomHub) (roomId : RoomId) (room : Room) (sender : Ptr) (buf : Bytes)
    (o : Oracle) : RtpOut :=
  let (plaintext, hdr) := normalizePt (hub.heap sender).tracks buf
  let senderId := (hub.arcs sender).userId
  let heap := mutate hub.heap sender fun s => detectGap (collectRtpStats s hdr plaintext) hdr
  let cached := if isVideoPt hdr.pt then some (sender, plaintext) else none
  let (ptt, payload) :=
    prepareFanoutPayload room.mode room.toPttState senderId hdr plaintext (o.clk 0)
  let prepared := withPtt hub roomId ptt heap
  match payload with
  | none => ⟨prepared, cached, []⟩
  | some out =>
    let (sent, forwards) := fanout prepared roomId room senderId sender hdr plaintext out o
    ⟨sent, cached, forwards⟩

/-- The RTP branch of `handle_srtp`, on the decrypted packet. -/
def handleSrtp (hub : RoomHub) (remote : SocketAddr) (buf : Bytes) (o : Oracle) : RtpOut :=
  match hub.findByAddr remote with
  | none => ⟨hub, none, []⟩
  | some (sender, pc, roomId) =>
    let touched := hub.touch sender o.nowMs
    match hub.rooms.lookup roomId with
    | none => ⟨touched, none, []⟩
    | some room =>
      if pc = .publish ∧ (hub.heap sender).isPublishReady ∧ !isRtcp buf then
        relayRtp touched roomId room sender buf o
      else ⟨touched, none, []⟩

theorem fanout_hub (hub : RoomHub) (roomId : RoomId) (room : Room) (senderId : UserId)
    (sender : Ptr) (hdr : RtpHeader) (source out : Bytes) (o : Oracle) :
    (fanout hub roomId room senderId sender hdr source out o).1 =
      { hub with heap := (fanout hub roomId room senderId sender hdr source out o).1.heap } := by
  unfold fanout
  split <;> rfl

/-- Of the hub, a relayed packet changes the rewriters of its room and the heap. -/
theorem relayRtp_hub (hub : RoomHub) (roomId : RoomId) (room : Room) (sender : Ptr) (buf : Bytes)
    (o : Oracle) :
    (relayRtp hub roomId room sender buf o).hub =
      withPtt hub roomId
        (prepareFanoutPayload room.mode room.toPttState (hub.arcs sender).userId
          (normalizePt (hub.heap sender).tracks buf).2 (normalizePt (hub.heap sender).tracks buf).1
          (o.clk 0)).1
        (relayRtp hub roomId room sender buf o).hub.heap := by
  unfold relayRtp
  simp only
  split
  · rfl
  · simp only
    rw [fanout_hub]
    rfl

/-- A datagram is dropped, or at most noted as a sign of life, or relayed. -/
theorem handleSrtp_cases (hub : RoomHub) (remote : SocketAddr) (buf : Bytes) (o : Oracle) :
    handleSrtp hub remote buf o = ⟨hub, none, []⟩ ∨
    (∃ sender, handleSrtp hub remote buf o = ⟨hub.touch sender o.nowMs, none, []⟩) ∨
    ∃ sender roomId room, hub.findByAddr remote = some (sender, .publish, roomId) ∧
      hub.rooms.lookup roomId = some room ∧
      ((hub.heap sender).isPublishReady = true ∧ isRtcp buf = false) ∧
      handleSrtp hub remote buf o =
        relayRtp (hub.touch sender o.nowMs) roomId room sender buf o := by
  unfold handleSrtp
  split
  · exact .inl rfl
  rename_i sender pc roomId found
  right
  simp only
  split
  · exact .inl ⟨sender, rfl⟩
  rename_i room held
  split
  · rename_i accepted
    obtain ⟨rfl, ready, media⟩ := accepted
    exact .inr ⟨sender, roomId, room, found, held, ⟨ready, by simpa using media⟩, rfl⟩
  · exact .inl ⟨sender, rfl⟩

structure NackItem where
  mediaSsrc : UInt32
  pid : UInt16
  blp : UInt16
  deriving DecidableEq, Repr

/-- The FCI loop; every round takes four bytes, so the length of the buffer is enough fuel. -/
def fciItems (buf : Bytes) (mediaSsrc : UInt32) (fciEnd : Nat) : Nat → Nat → List NackItem
  | 0, _ => []
  | fuel + 1, off =>
    if off + 4 ≤ fciEnd then
      ⟨mediaSsrc, u16At buf off, u16At buf (off + 2)⟩ :: fciItems buf mediaSsrc fciEnd fuel (off + 4)
    else []

def nackItemsFrom (buf : Bytes) : Nat → Nat → List NackItem
  | 0, _ => []
  | fuel + 1, offset =>
    if offset + 4 ≤ buf.length then
      let pktLen := ((u16At buf (offset + 2)).toNat + 1) * 4
      let items :=
        if byteAt buf (offset + 1) = rtcpPtNack ∧ byteAt buf offset &&& 0x1F = rtcpFmtNack ∧
            offset + 12 ≤ buf.length then
          fciItems buf (u32At buf (offset + 8)) (min (offset + pktLen) buf.length) buf.length
            (offset + 12)
        else []
      items ++ nackItemsFrom buf fuel (offset + pktLen)
    else []

def parseRtcpNack (buf : Bytes) : List NackItem := nackItemsFrom buf buf.length 0

/-- Bit `i` of the mask stands for the number `pid + i + 1`. -/
def expandNack (pid blp : UInt16) : List UInt16 :=
  pid :: ((List.range 16).filter fun i => blp &&& (1 <<< UInt16.ofNat i) != 0).map fun i =>
    pid + UInt16.ofNat (i + 1)

section Nack
variable (arcs : Ptr → Participant) (room : Room) (visit : List UserId) (subscriber : Ptr)

/-- Where the numbers lost on an SSRC are looked up: the SSRC of the source, and the
    map from lost numbers to its numbers. -/
def nackSource (heap : Heap) (mediaSsrc : UInt32) : UInt32 × (UInt16 → UInt16) :=
  if room.simulcastEnabled then
    match room.findPublisherByVssrc heap visit mediaSsrc with
    | none => (mediaSsrc, id)
    | some publisher =>
      match (heap subscriber).subscribeLayers.lookup (arcs publisher).userId with
      | none => (mediaSsrc, id)
      | some entry =>
        (((heap publisher).layerSsrc entry.rid).getD mediaSsrc, entry.rewriter.reverseSeq)
  else if room.mode = .ptt ∧ room.videoRewriter.virtualSsrc = mediaSsrc then
    let speaker := (currentSpeaker room.floor).orElse fun _ => lastSpeaker room.floor
    (((speaker.bind room.getParticipant).bind fun p => (heap p).firstVideoSsrc).getD mediaSsrc,
      reverseSeq room.videoRewriter)
  else (mediaSsrc, id)

/-- The publisher whose cache answers a NACK on an SSRC. -/
def nackPublisher (heap : Heap) (mediaSsrc : UInt32) : Option Ptr :=
  room.findByTrackSsrc heap visit (nackSource arcs room visit subscriber heap mediaSsrc).1

/-- One retransmission: what was asked for, what was found and what was made of it. -/
structure RtxReply where
  mediaSsrc : UInt32
  requested : UInt16
  publisher : Ptr
  original : Bytes
  rtx : Bytes
  enqueued : Bool
  deriving DecidableEq, Repr

/-- A cached packet takes the publisher's next RTX number; a miss takes none. -/
def buildReply (mediaSsrc rtxSsrc : UInt32) (reverse : UInt16 → UInt16) (publisher : Ptr)
    (state : Heap × List RtxReply) (lost : UInt16) : Heap × List RtxReply :=
  let (heap, built) := state
  match (heap publisher).rtpCache.get (reverse lost) with
  | none => state
  | some original =>
    let (next, rtxSeq) := (heap publisher).nextRtxSeq
    (mutate heap publisher fun _ => next,
      built ++ [⟨mediaSsrc, lost, publisher, original, buildRtxPacket original rtxSsrc rtxSeq, false⟩])

/-- The budget of the subscriber counts every packet; past it packets are dropped. -/
def enqueueReply (state : Heap × List RtxReply) (reply : RtxReply) : Heap × List RtxReply :=
  let (heap, done) := state
  let s := heap subscriber
  let counted := { s with rtxBudgetUsed := s.rtxBudgetUsed + 1 }
  if rtxBudgetPer3s ≤ s.rtxBudgetUsed then
    (mutate heap subscriber fun _ => counted, done ++ [reply])
  else
    (mutate heap subscriber fun _ => counted.trySend (.rtp reply.rtx),
      done ++ [{ reply with enqueued := decide (s.egress.length < egressQueueSize) }])

/-- Half of the numbers or more were not cached: the subscriber's NACKs are ignored for
    five seconds, and the publisher is asked for a keyframe. -/
def escalate (heap : Heap) (publisher : Ptr) (lookupSsrc : UInt32) (asked found nowMs : Nat) :
    Heap :=
  if found < asked ∧ asked ≤ (asked - found) * 2 then
    let silenced := mutate heap subscriber fun s => { s with nackSuppressUntilMs := nowMs + 5000 }
    mutate silenced publisher fun s => s.requestKeyframe (some lookupSsrc) [0]
  else heap

def retransmit (heap : Heap) (nack : NackItem) (lookupSsrc rtxSsrc : UInt32)
    (reverse : UInt16 → UInt16) (publisher : Ptr) (nowMs : Nat) : Heap × List RtxReply :=
  let lost := expandNack nack.pid nack.blp
  let (found, built) := lost.foldl (buildReply nack.mediaSsrc rtxSsrc reverse publisher) (heap, [])
  built.foldl (enqueueReply subscriber)
    (escalate subscriber found publisher lookupSsrc lost.length built.length nowMs, [])

def handleNackItem (nowMs : Nat) (state : Heap × List RtxReply) (nack : NackItem) :
    Heap × List RtxReply :=
  let (heap, done) := state
  let (lookupSsrc, reverse) := nackSource arcs room visit subscriber heap nack.mediaSsrc
  match room.findByTrackSsrc heap visit lookupSsrc with
  | none => state
  | some publisher =>
    let gapUntil := (heap publisher).rtpGapSuppressUntilMs
    if 0 < gapUntil ∧ nowMs < gapUntil then state
    else
      match ((heap publisher).findTrack lookupSsrc).bind (·.rtxSsrc) with
      | none => state
      | some rtxSsrc =>
        let (next, replies) :=
          retransmit subscriber heap nack lookupSsrc rtxSsrc reverse publisher nowMs
        (next, done ++ replies)

def handleNackBlock (heap : Heap) (block : Bytes) (nowMs : Nat) : Heap × List RtxReply :=
  let until_ := (heap subscriber).nackSuppressUntilMs
  if 0 < until_ ∧ nowMs < until_ then (heap, [])
  else (parseRtcpNack block).foldl (handleNackItem arcs room visit subscriber nowMs) (heap, [])

end Nack

/-- One NACK block of a subscriber's compound packet, decrypted. -/
def handleSubscribeNack (hub : RoomHub) (remote : SocketAddr) (block : Bytes) (touchMs nowMs : Nat)
    (visit : List UserId) : RoomHub × List RtxReply :=
  match hub.findByAddr remote with
  | none => (hub, [])
  | some (subscriber, pc, roomId) =>
    let touched := hub.touch subscriber touchMs
    match hub.rooms.lookup roomId with
    | none => (touched, [])
    | some room =>
      if pc = .subscribe ∧ (hub.heap subscriber).isSubscribeReady then
        let (heap, replies) :=
          handleNackBlock hub.arcs room visit subscriber touched.heap block nowMs
        ({ touched with heap := heap }, replies)
      else (touched, [])

/-- A NACK changes nothing but the heap; only a subscriber that is ready is answered. -/
theorem handleSubscribeNack_cases (hub : RoomHub) (remote : SocketAddr) (block : Bytes)
    (touchMs nowMs : Nat) (visit : List UserId) :
    handleSubscribeNack hub remote block touchMs nowMs visit = (hub, []) ∨
    (∃ subscriber, handleSubscribeNack hub remote block touchMs nowMs visit =
      (hub.touch subscriber touchMs, [])) ∨
    ∃ subscriber roomId room, hub.findByAddr remote = some (subscriber, .subscribe, roomId) ∧
      hub.rooms.lookup roomId = some room ∧
      handleSubscribeNack hub remote block touchMs nowMs visit =
        ({ hub.touch subscriber touchMs with
            heap := (handleNackBlock hub.arcs room visit subscriber
              (hub.touch subscriber touchMs).heap block nowMs).1 },
          (handleNackBlock hub.arcs room visit subscriber (hub.touch subscriber touchMs).heap
            block nowMs).2) := by
  unfold handleSubscribeNack
  split
  · exact .inl rfl
  rename_i subscriber pc roomId found
  right
  simp only
  split
  · exact .inl ⟨subscriber, rfl⟩
  rename_i room held
  split
  · rename_i accepted
    obtain ⟨rfl, _⟩ := accepted
    exact .inr ⟨subscriber, roomId, room, found, held, rfl⟩
  · exact .inl ⟨subscriber, rfl⟩

end Ingress
