import OxlensSfu.StunLatch
import OxlensSfu.Ingress

/-
The whole server as a transition system: WS connections with their sessions, the hub,
background tasks and UDP traffic. One event is one handler run to completion, so a run
is an interleaving of completed handlers.
-/
namespace Servers
open WireBytes SfuConfig FloorControl PttRewriter KeyedMap Participants RoomHubs RoomHub
open Signaling FloorHandlers RoomHandlers TrackHandlers Ingress

/-- `sent` and `replies` collect what went out to the WS connections. -/
structure Server where
  hub : RoomHub
  sessions : ConnId → Option Session
  nextConn : ConnId
  sent : Outbox
  replies : List (ConnId × Reply)

def Server.new : Server := ⟨.new, fun _ => none, 0, [], []⟩

/-- The participant that a session points at. -/
def pointsAt (hub : RoomHub) (session : Session) : Option Ptr := do
  let roomId ← session.currentRoom
  let userId ← session.userId
  let room ← hub.rooms.lookup roomId
  room.getParticipant userId

def handleHeartbeat (hub : RoomHub) (session : Session) (nowMs : Nat) : RoomHub :=
  match pointsAt hub session with
  | some p => hub.touch p nowMs
  | none => hub

/-- The room that a floor message names. -/
def floorRoom (hub : RoomHub) (op : UInt16) (pid : Nat) (roomId : Option RoomId) :
    Except Reply (RoomId × Room) :=
  match roomId with
  | none => .error (.err op pid 3002 "invalid payload")
  | some roomId =>
    match hub.rooms.lookup roomId with
    | none => .error (.err op pid 2001 "room not found")
    | some room => .ok (roomId, room)

def pttRoom (hub : RoomHub) (op : UInt16) (pid : Nat) (roomId : Option RoomId) :
    Except Reply (RoomId × Room) :=
  match floorRoom hub op pid roomId with
  | .error reply => .error reply
  | .ok (roomId, room) =>
    if room.mode = .ptt then .ok (roomId, room)
    else .error (.err op pid 2020 "not a PTT room")

/-- A floor handler works on the room that was found. -/
def onFloor (hub : RoomHub) (session : Session) (found : Except Reply (RoomId × Room))
    (handler : Room → FloorRun × Reply) : HandlerOut :=
  match found with
  | .error reply => ⟨hub, session, [], reply⟩
  | .ok (roomId, room) =>
    let (done, reply) := handler room
    ⟨withPtt hub roomId done.ptt done.heap, session, done.sent, reply⟩

def ofTracks (hub : RoomHub) (session : Session) (out : TrackOut) : HandlerOut :=
  ⟨{ hub with heap := out.heap }, session, out.sent, out.reply⟩

def dispatch (hub : RoomHub) (session : Session) (pid : Nat) (req : Request) (o : Oracle) :
    HandlerOut :=
  match req, session.userId with
  | .heartbeat, _ =>
    ⟨handleHeartbeat hub session o.nowMs, session, [], .ok opHeartbeat pid .empty⟩
  | .identify d, _ =>
    let (next, reply) := handleIdentify session pid d o.userNumber
    ⟨hub, next, [], reply⟩
  | req, none => ⟨hub, session, [], .err req.op pid 1001 "not authenticated"⟩
  | .roomCreate d, some _ =>
    let (next, reply) := handleRoomCreate hub pid d o
    ⟨next, session, [], reply⟩
  | .roomJoin roomId, some userId => handleRoomJoin hub session pid userId roomId o
  | .roomLeave roomId, some userId => handleRoomLeave hub session pid userId roomId o
  | .publishTracks d, some userId =>
    ofTracks hub session (handlePublishTracks hub session pid userId d o.vssrc)
  | .floorRequest d, some userId =>
    onFloor hub session (pttRoom hub opFloorRequest pid (d.map (·.roomId))) fun room =>
      handleFloorRequest hub.arcs room hub.heap o.clk userId pid (d.bind (·.priority)) o.nowMs
  | .floorRelease roomId, some userId =>
    onFloor hub session (pttRoom hub opFloorRelease pid roomId) fun room =>
      handleFloorRelease hub.arcs room hub.heap o.clk userId pid o.grantMs
  | .floorPing roomId, some userId =>
    onFloor hub session (floorRoom hub opFloorPing pid roomId) fun room =>
      handleFloorPing room hub.heap userId pid o.nowMs
  | .subscribeLayer targets, some userId =>
    ofTracks hub session (handleSubscribeLayer hub session pid userId targets o.vssrc (o.clk 0))

inductive Event where
  /-- A room made at start-up. -/
  | defaultRoom (name : String) (capacity : Option Nat) (mode : RoomMode) (simulcast : Bool)
      (o : Oracle)
  | connect
  | request (conn : ConnId) (pid : Nat) (req : Request) (o : Oracle)
  | close (conn : ConnId) (o : Oracle)
  | floorTimer (roomId : RoomId) (o : Oracle)
  | reaper (nowMs : Nat)
  | metricsFlush
  | stun (remote : SocketAddr) (buf : Bytes) (nowMs : Nat) (dtlsHas : Bool)
  | srtpKeys (p : Ptr) (pc : PcType)
  | rtp (remote : SocketAddr) (buf : Bytes) (o : Oracle)
  | mbcp (remote : SocketAddr) (subtype : UInt8) (touchMs : Nat) (o : Oracle)
  | nack (remote : SocketAddr) (block : Bytes) (touchMs nowMs : Nat) (visit : List UserId)
  /-- The egress task of a participant takes one packet. -/
  | egress (p : Ptr)

def mediaReady (s : ParticipantState) : PcType → Bool
  | .publish => s.isPublishReady
  | .subscribe => s.isSubscribeReady

/-- One MBCP message from the publish or the subscribe connection of a participant. -/
def handleMbcpFrom (hub : RoomHub) (remote : SocketAddr) (subtype : UInt8) (touchMs : Nat)
    (o : Oracle) : RoomHub × Outbox :=
  match hub.findByAddr remote with
  | none => (hub, [])
  | some (sender, pc, roomId) =>
    let touched := hub.touch sender touchMs
    match hub.rooms.lookup roomId with
    | none => (touched, [])
    | some room =>
      if mediaReady (hub.heap sender) pc ∧ room.mode = .ptt then
        let done := handleMbcp hub.arcs room touched.heap o.clk sender subtype o.nowMs o.grantMs
        (withPtt touched roomId done.ptt done.heap, done.sent)
      else (touched, [])

/-- The floor timer looks at one room after the other; this is one of them. -/
def runFloorTimer (hub : RoomHub) (roomId : RoomId) (o : Oracle) : RoomHub × Outbox :=
  match hub.rooms.lookup roomId with
  | none => (hub, [])
  | some room =>
    if room.mode = .ptt then
      let done := floorTimerTick hub.arcs room hub.heap o.clk o.nowMs o.grantMs
      (withPtt hub roomId done.ptt done.heap, done.sent)
    else (hub, [])

/-- RTX budgets start anew; an empty room is no longer active. -/
def flushRoom (hub : RoomHub) (roomId : RoomId) : RoomHub :=
  match hub.rooms.lookup roomId with
  | none => hub
  | some room =>
    { hub with
      heap := (values room.participants).foldl (fun h p => mutate h p fun s =>
        { s with rtxBudgetUsed := 0 }) hub.heap
      rooms := modify hub.rooms roomId fun room =>
        { room with activeSince := if room.participants.keys = [] then 0 else room.activeSince } }

def flushMetrics (hub : RoomHub) : RoomHub := hub.rooms.keys.foldl flushRoom hub

/-- The flush of all rooms does what the flushes of single rooms do. -/
theorem flushMetrics_related {related : RoomHub → RoomHub → Prop}
    (refl : ∀ hub, related hub hub)
    (trans : ∀ {hub next last}, related hub next → related next last → related hub last)
    (one : ∀ hub roomId, related hub (flushRoom hub roomId)) (hub : RoomHub) :
    related hub (flushMetrics hub) := by
  have all : ∀ (ids : List RoomId) (hub : RoomHub), related hub (ids.foldl flushRoom hub) := by
    intro ids
    induction ids with
    | nil => exact refl
    | cons r ids ih => exact fun hub => trans (one hub r) (ih (flushRoom hub r))
  exact all hub.rooms.keys hub

section Step
variable (hmacSha1 : Bytes → Bytes → Bytes) (crc32 : Bytes → UInt32)

def push (s : Server) (out : RoomHub × Outbox) : Server :=
  { s with hub := out.1, sent := s.sent ++ out.2 }

def request (s : Server) (conn : ConnId) (pid : Nat) (req : Request) (o : Oracle) : Server :=
  match s.sessions conn with
  | none => s
  | some session =>
    let out := dispatch s.hub session pid req o
    { s with
      hub := out.hub
      sessions := Function.update s.sessions conn (some out.session)
      sent := s.sent ++ out.sent
      replies := s.replies ++ [(conn, out.reply)] }

/-- The cleanup runs, then the session is gone. -/
def close (s : Server) (conn : ConnId) (o : Oracle) : Server :=
  match s.sessions conn with
  | none => s
  | some session =>
    { push s (cleanup s.hub session o) with sessions := Function.update s.sessions conn none }

def step (s : Server) : Event → Server
  | .defaultRoom name capacity mode simulcast o =>
    let hub := s.hub.create o.uuid name capacity mode o.nowMs simulcast o.audioSsrc o.videoSsrc
    { s with hub := hub }
  | .connect =>
    { s with
      sessions := Function.update s.sessions s.nextConn (some (.new s.nextConn))
      nextConn := s.nextConn + 1 }
  | .request conn pid req o => request s conn pid req o
  | .close conn o => close s conn o
  | .floorTimer roomId o => push s (runFloorTimer s.hub roomId o)
  | .reaper nowMs => push s (runZombieReaper s.hub nowMs)
  | .metricsFlush => { s with hub := flushMetrics s.hub }
  | .stun remote buf nowMs dtlsHas =>
    { s with hub := (StunLatch.handleStun hmacSha1 crc32 s.hub buf remote nowMs dtlsHas).1 }
  | .srtpKeys p pc =>
    let heap := mutate s.hub.heap p fun st => st.installSrtpKeys pc
    { s with hub := { s.hub with heap := heap } }
  | .rtp remote buf o => { s with hub := (handleSrtp s.hub remote buf o).hub }
  | .mbcp remote subtype touchMs o => push s (handleMbcpFrom s.hub remote subtype touchMs o)
  | .nack remote block touchMs nowMs visit =>
    { s with hub := (handleSubscribeNack s.hub remote block touchMs nowMs visit).1 }
  | .egress p =>
    let heap := mutate s.hub.heap p fun st => { st with egress := st.egress.tail }
    { s with hub := { s.hub with heap := heap } }

end Step
section Samples

/-- Readings and draws for small concrete runs; `n` tells the credentials apart. -/
def sampleOracle (n : UInt8) : Oracle where
  nowMs := 1000
  grantMs := 1000
  clk := fun _ => 0
  uuid := "room"
  audioSsrc := 501
  videoSsrc := 502
  userNumber := 0
  pubIce := ⟨[n, 1], [n]⟩
  subIce := ⟨[n, 2], [n]⟩
  vssrc := fun _ => ⟨503, by decide⟩

def sampleRoom (mode : RoomMode) (simulcast : Bool) : Event :=
  .defaultRoom "sample" none mode simulcast (sampleOracle 0)

def identifyAs (conn : ConnId) (user : UserId) : Event :=
  .request conn 1 (.identify (some ⟨"", some user⟩)) (sampleOracle 0)

/-- Connection `conn`, the next one to be opened, identifies and joins. -/
def joinAs (conn : ConnId) (user : UserId) (n : UInt8) : List Event :=
  [.connect, identifyAs conn user, .request conn 2 (.roomJoin (some "room")) (sampleOracle n)]

def requestFloor (conn : ConnId) : Event :=
  .request conn 3 (.floorRequest (some ⟨"room", none⟩)) (sampleOracle 0)

def sampleHmac (_ _ : Bytes) : Bytes := List.replicate 20 0

/-- A Binding Request for the ufrag `[n, k]`, signed as `sampleHmac` does. -/
def bindingRequest (n k : UInt8) : Bytes :=
  [0x00, 0x01, 0x00, 0x20, 0x21, 0x12, 0xA4, 0x42, 1, 2, 3, 4, 5, 6, 7, 8, 9, 10, 11, 12,
    0x00, 0x06, 0x00, 0x04, n, k, 0x3A, 0x62, 0x00, 0x08, 0x00, 0x14] ++ List.replicate 20 0

/-- The session of a participant is latched at a port and gets its keys. -/
def startMedia (p : Ptr) (n : UInt8) (pc : PcType) (port : UInt16) : List Event :=
  [.stun (AddressIndex.portAt port)
      (bindingRequest n (match pc with | .publish => 1 | .subscribe => 2)) 1000 false,
    .srtpKeys p pc]

def publishVideo (conn : ConnId) (ssrcs : List (UInt32 × Option String)) : Event :=
  .request conn 4 (.publishTracks (some
    ⟨ssrcs.map fun (ssrc, rid) => ⟨"video", ssrc, rid, none, none, none⟩, none⟩)) (sampleOracle 0)

/-- The first packet of a VP8 keyframe. -/
def keyframePacket (seq : UInt16) (ts ssrc : UInt32) (last : UInt8) : Bytes :=
  [0x80, 96] ++ bytes16 seq ++ bytes32 ts ++ bytes32 ssrc ++ [0x10, 0x00, last]

def nackBlock (mediaSsrc : UInt32) (seq : UInt16) : Bytes :=
  [0x81, 205, 0, 3, 0, 0, 0, 1] ++ bytes32 mediaSsrc ++ bytes16 seq ++ [0, 0]

end Samples
end Servers
