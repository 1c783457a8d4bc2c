import OxlensSfu.PliRelay
import OxlensSfu.SendCounts
import OxlensSfu.StepRefinement

/-
The UDP side as the workers run it. The first byte of a datagram tells STUN, DTLS and
SRTP apart; DTLS goes through a bounded channel to the handshake task of its address; a
task that is done installs the keys of one session. The kernel hands all datagrams of an
address to one worker, and a worker that waits for room in a channel takes no other.
-/
namespace DtlsTransport
open WireBytes SfuConfig KeyedMap Participants RoomHubs RoomHub Signaling RoomHandlers Servers
open RtcpCompound PliRelay SendCounts Ingress
open FloorControl (UserId)
open PttRewriter (Instant)

def demuxStunMax : UInt8 := 0x03
def demuxDtlsMin : UInt8 := 0x14
def demuxDtlsMax : UInt8 := 0x3F
def demuxRtpMin : UInt8 := 0x80
def demuxRtpMax : UInt8 := 0xBF

inductive PacketType where
  | stun
  | dtls
  | srtp
  | unknown
  deriving DecidableEq, Repr

def classify : Bytes → PacketType
  | [] => .unknown
  | first :: _ =>
    if first ≤ demuxStunMax then .stun
    else if demuxDtlsMin ≤ first ∧ first ≤ demuxDtlsMax then .dtls
    else if demuxRtpMin ≤ first ∧ first ≤ demuxRtpMax then .srtp
    else .unknown

def srtpMasterKeyLen : Nat := 16
def srtpMasterSaltLen : Nat := 14
def srtpKeyMaterialLen : Nat := (srtpMasterKeyLen + srtpMasterSaltLen) * 2

structure SrtpKeyMaterial where
  clientKey : Bytes
  serverKey : Bytes
  clientSalt : Bytes
  serverSalt : Bytes
  deriving DecidableEq, Repr

/-- What the exporter of the DTLS stack returns: as many bytes as it was asked for. -/
abbrev Material := { m : Bytes // m.length = srtpKeyMaterialLen }

/-- Both keys first, then both salts. -/
def exportSrtpKeys (m : Material) : SrtpKeyMaterial where
  clientKey := m.val.take srtpMasterKeyLen
  serverKey := (m.val.drop srtpMasterKeyLen).take srtpMasterKeyLen
  clientSalt := (m.val.drop (srtpMasterKeyLen * 2)).take srtpMasterSaltLen
  serverSalt := m.val.drop (srtpMasterKeyLen * 2 + srtpMasterSaltLen)

/-- A key and a salt, once they are installed. -/
abbrev SrtpContext := Option (Bytes × Bytes)

/-- The stack refuses a key or a salt of another length; then the context stays as it was. -/
def installKey (ctx : SrtpContext) (key salt : Bytes) : SrtpContext :=
  if key.length = srtpMasterKeyLen ∧ salt.length = srtpMasterSaltLen then some (key, salt) else ctx

/-- The two contexts of a session. Readiness is asked of the inbound one. -/
structure SrtpSession where
  inbound : SrtpContext
  outbound : SrtpContext
  deriving DecidableEq, Repr

def SrtpSession.new : SrtpSession := ⟨none, none⟩

def SrtpSession.isMediaReady (s : SrtpSession) : Bool := s.inbound.isSome

def SrtpSession.installSrtpKeys (s : SrtpSession) (keys : SrtpKeyMaterial) : SrtpSession where
  inbound := installKey s.inbound keys.clientKey keys.clientSalt
  outbound := installKey s.outbound keys.serverKey keys.serverSalt

abbrev WorkerId := Nat
abbrev TaskId := Nat

/-- `connected`: the task only keeps the connection alive. -/
inductive Phase where
  | handshaking
  | connected
  | ended
  deriving DecidableEq, Repr

/-- A handshake task, the channel that feeds it, and what its DTLS stack has read so far. -/
structure Handshake where
  remote : SocketAddr
  participant : Ptr
  pc : PcType
  phase : Phase
  queue : List Bytes
  read : List Bytes
  keys : Option SrtpKeyMaterial
  deriving DecidableEq, Repr

def dtlsChannelSize : Nat := 128

/-- `waiting`: the datagram that the worker is handing over to a full channel. -/
structure Worker where
  dtlsMap : Table SocketAddr TaskId
  pktCount : Nat
  waiting : Option (SocketAddr × Bytes)

def Worker.new : Worker := ⟨∅, 0, none⟩

structure Transport where
  counted : Counted
  relay : RelayState
  workers : WorkerId → Worker
  tasks : TaskId → Handshake
  nextTask : TaskId
  srtp : Ptr → PcType → SrtpSession
  egressRx : Ptr → Bool
  egressTasks : List Ptr
  responses : List (SocketAddr × Bytes)
  pliSent : List (Ptr × SocketAddr × UInt32)

def Transport.hub (s : Transport) : RoomHub := s.counted.server.hub

def unusedTask : Handshake := ⟨.v4 #v[0, 0, 0, 0] 0, 0, .publish, .ended, [], [], none⟩

def Transport.new : Transport where
  counted := start
  relay := ⟨fun _ => 0, []⟩
  workers := fun _ => .new
  tasks := fun _ => unusedTask
  nextTask := 0
  srtp := fun _ _ => .new
  egressRx := fun _ => true
  egressTasks := []
  responses := []
  pliSent := []

def onWorker (s : Transport) (w : WorkerId) (f : Worker → Worker) : Transport :=
  { s with workers := Function.update s.workers w (f (s.workers w)) }

def onTask (s : Transport) (t : TaskId) (f : Handshake → Handshake) : Transport :=
  { s with tasks := Function.update s.tasks t (f (s.tasks t)) }

/-- `refused`: no channel under the address, or its task is over. -/
inductive Injection where
  | handed (t : TaskId)
  | full
  | refused
  deriving DecidableEq, Repr

def injection (s : Transport) (w : WorkerId) (remote : SocketAddr) : Injection :=
  match (s.workers w).dtlsMap.lookup remote with
  | none => .refused
  | some t =>
    if (s.tasks t).phase = .ended then .refused
    else if (s.tasks t).queue.length < dtlsChannelSize then .handed t
    else .full

def enqueue (s : Transport) (t : TaskId) (data : Bytes) : Transport :=
  onTask s t fun task => { task with queue := task.queue ++ [data] }

def startDtlsHandshake (s : Transport) (w : WorkerId) (remote : SocketAddr) (p : Ptr)
    (pc : PcType) : Transport :=
  { onWorker s w fun worker =>
      { worker with dtlsMap := worker.dtlsMap.insert remote s.nextTask } with
    tasks := Function.update s.tasks s.nextTask ⟨remote, p, pc, .handshaking, [], [], none⟩
    nextTask := s.nextTask + 1 }

def removeStale (tasks : TaskId → Handshake) (worker : Worker) : Worker :=
  { worker with
    dtlsMap := retain worker.dtlsMap fun _ t => decide ((tasks t).phase ≠ .ended) }

/-- Every thousandth packet the worker sweeps its map. -/
def countPacket (s : Transport) (w : WorkerId) : Transport :=
  onWorker s w fun worker =>
    let counted := { worker with pktCount := worker.pktCount + 1 }
    if counted.pktCount % 1000 = 0 then removeStale s.tasks counted else counted

/-- A datagram of an address without a live task starts one, if the address is latched. -/
def handleDtls (s : Transport) (w : WorkerId) (data : Bytes) (remote : SocketAddr) : Transport :=
  match injection s w remote with
  | .handed t => countPacket (enqueue s t data) w
  | .full => onWorker s w fun worker => { worker with waiting := some (remote, data) }
  | .refused =>
    match s.hub.findByAddr remote with
    | none => countPacket s w
    | some (p, pc, _) =>
      countPacket (enqueue (startDtlsHandshake s w remote p pc) s.nextTask data) w

def withCounted (s : Transport) (counted : Counted) : Transport := { s with counted := counted }

def withHub (s : Transport) (out : RoomHub × Outbox) : Transport :=
  withCounted s { s.counted with server := push s.counted.server out }

/-- What one datagram is read with: `plain` is what decryption makes of it. SRTP and SRTCP
    leave the header in the clear. -/
structure Readings (buf : Bytes) where
  nowMs : Nat
  plain : Option Bytes
  header : ∀ p, plain = some p → isRtcp p = isRtcp buf
  media : Oracle
  mbcp : Nat → Oracle
  feedback : RelayOracle
  draw : NonzeroSsrc

def handleSubscribeRtcp (s : Transport) (remote : SocketAddr) (plain : Bytes) (o : RelayOracle) :
    Transport :=
  { withHub s (consumeRtcp s.hub remote plain o) with
    relay := match relayJob s.hub remote plain o with
      | none => s.relay
      | some (room, heap, groups) => relaySubscribeRtcpBlocks room heap o groups s.relay }

section Step
variable (hmacSha1 : Bytes → Bytes → Bytes) (crc32 : Bytes → UInt32) (shard : SocketAddr → WorkerId)

def handleStun (s : Transport) (w : WorkerId) (buf : Bytes) (remote : SocketAddr) (nowMs : Nat) :
    Transport :=
  let has := decide (remote ∈ (s.workers w).dtlsMap)
  let reply := (StunLatch.handleStun hmacSha1 crc32 s.hub buf remote nowMs has).2
  let latched := withCounted s
    (SendCounts.step hmacSha1 crc32 s.counted (.server (.stun remote buf nowMs has) 0))
  let answered := { latched with
    responses := s.responses ++ (reply.map fun r => (r.remote, r.response)).toList }
  match reply.bind (·.startDtls) with
  | some (p, pc) => startDtlsHandshake answered w remote p pc
  | none => answered

/-- MBCP messages, then the reports and the feedback. -/
def processPublishRtcp (s : Transport) (remote : SocketAddr) (roomId : RoomId) (sender : Ptr)
    (plain : Bytes) (nowMs : Nat) (mbcp : Nat → Oracle) (draw : NonzeroSsrc) : Transport :=
  let floor := withHub s (handleMbcpBlocks (s.hub.touch sender nowMs) roomId sender
    (splitCompoundRtcp plain).mbcpBlocks mbcp)
  withCounted floor
    (SendCounts.step hmacSha1 crc32 floor.counted (.publishRtcp remote plain nowMs draw))

/-- Who sent the datagram decides which session decrypts it. -/
def handleSrtp (s : Transport) (buf : Bytes) (remote : SocketAddr) (o : Readings buf) : Transport :=
  match s.hub.findByAddr remote with
  | none => s
  | some (sender, pc, roomId) =>
    let touched := withHub s (s.hub.touch sender o.nowMs, [])
    match pc, o.plain with
    | _, none => touched
    | .subscribe, some plain =>
      handleSubscribeRtcp s remote plain { o.feedback with touchMs := o.nowMs }
    | .publish, some plain =>
      if !(s.hub.heap sender).isPublishReady then touched
      else if isRtcp buf then
        processPublishRtcp hmacSha1 crc32 s remote roomId sender plain o.nowMs o.mbcp o.draw
      else
        withHub s ((Ingress.handleSrtp s.hub remote plain { o.media with nowMs := o.nowMs }).hub, [])

/-- What `run` does with one datagram. -/
def receive (s : Transport) (remote : SocketAddr) (buf : Bytes) (o : Readings buf) : Transport :=
  let w := shard remote
  if (s.workers w).waiting.isSome then s
  else
    match classify buf with
    | .stun => countPacket (handleStun hmacSha1 crc32 s w buf remote o.nowMs) w
    | .dtls => handleDtls s w buf remote
    | .srtp => countPacket (handleSrtp hmacSha1 crc32 s buf remote o) w
    | .unknown => countPacket s w

/-- The waiting worker tries again: the channel has room, or its task is over. -/
def resume (s : Transport) (w : WorkerId) : Transport :=
  match (s.workers w).waiting with
  | none => s
  | some (remote, data) =>
    handleDtls (onWorker s w fun worker => { worker with waiting := none }) w data remote

/-- The publishers that are asked for a keyframe once a subscriber is ready. -/
def sendPliToPublishers (hub : RoomHub) (room : Room) (exclude : UserId) :
    List (Ptr × SocketAddr × UInt32) :=
  (values room.participants).filterMap fun p =>
    if (hub.arcs p).userId = exclude ∨ (hub.heap p).isPublishReady = false then none
    else
      match (hub.heap p).publish.address, (hub.heap p).firstVideoSsrc with
      | some addr, some ssrc => some (p, addr, ssrc)
      | _, _ => none

/-- The egress task takes the receiving end of the queue, which is there once. -/
def spawnEgressTask (s : Transport) (p : Ptr) : Transport :=
  if s.egressRx p then
    { s with egressRx := Function.update s.egressRx p false, egressTasks := s.egressTasks ++ [p] }
  else s

def subscribeReady (s : Transport) (p : Ptr) : Transport :=
  let pli := match s.hub.rooms.lookup (s.hub.arcs p).roomId with
    | some room => sendPliToPublishers s.hub room (s.hub.arcs p).userId
    | none => []
  { spawnEgressTask s p with pliSent := s.pliSent ++ pli }

def connected (s : Transport) (t : TaskId) (keys : Option SrtpKeyMaterial) : Transport :=
  onTask s t fun task => { task with phase := .connected, keys := keys }

/-- The session is ready when its inbound context is there. -/
def installSrtpKeys (s : Transport) (p : Ptr) (pc : PcType) (keys : SrtpKeyMaterial) : Transport :=
  let session := (s.srtp p pc).installSrtpKeys keys
  let keyed := { s with srtp := Function.update s.srtp p (Function.update (s.srtp p) pc session) }
  if session.isMediaReady then
    withCounted keyed (SendCounts.step hmacSha1 crc32 s.counted (.server (.srtpKeys p pc) 0))
  else keyed

/-- The handshake is done; `none` when the keys cannot be exported. -/
def established (s : Transport) (t : TaskId) (material : Option Material) : Transport :=
  if t < s.nextTask ∧ (s.tasks t).phase = .handshaking then
    let p := (s.tasks t).participant
    let pc := (s.tasks t).pc
    let keys := material.map exportSrtpKeys
    let done := connected s t keys
    match keys with
    | none => done
    | some keys =>
      let installed := installSrtpKeys hmacSha1 crc32 done p pc keys
      if pc = .subscribe then subscribeReady installed p else installed
  else s

/-- `DemuxConn::recv` with a buffer of that length. -/
def recv (s : Transport) (t : TaskId) (bufLen : Nat) : Transport :=
  if (s.tasks t).phase = .ended then s
  else
    match (s.tasks t).queue with
    | [] => s
    | data :: rest =>
      onTask s t fun task => { task with queue := rest, read := task.read ++ [data.take bufLen] }

/-- Handshake failure, timeout or a closed connection: the receiver is dropped. -/
def endTask (s : Transport) (t : TaskId) : Transport :=
  onTask s t fun task => { task with phase := .ended }

/-- The events that do not come from the network. -/
def isLocal : Servers.Event → Bool
  | .defaultRoom .. | .connect | .request .. | .close .. | .floorTimer .. | .reaper _
  | .metricsFlush => true
  | _ => false

inductive Event where
  | local_ (e : { e : Servers.Event // isLocal e = true })
  | datagram (remote : SocketAddr) (buf : Bytes) (o : Readings buf)
  | resume (w : WorkerId)
  | recv (t : TaskId) (bufLen : Nat)
  | established (t : TaskId) (material : Option Material)
  | ended (t : TaskId)
  | egress (p : Ptr) (now : Instant)

/-- Those of the events that do not come from the network. -/
def signals (es : List Servers.Event) : List Event :=
  es.filterMap fun e => if here : isLocal e = true then some (.local_ ⟨e, here⟩) else none

def step (s : Transport) : Event → Transport
  | .local_ e => withCounted s (SendCounts.step hmacSha1 crc32 s.counted (.server e.val 0))
  | .datagram remote buf o => receive hmacSha1 crc32 shard s remote buf o
  | .resume w => resume s w
  | .recv t bufLen => recv s t bufLen
  | .established t material => established hmacSha1 crc32 s t material
  | .ended t => endTask s t
  | .egress p now =>
    if p ∈ s.egressTasks then
      withCounted s (SendCounts.step hmacSha1 crc32 s.counted (.server (.egress p) now))
    else s

end Step
end DtlsTransport
