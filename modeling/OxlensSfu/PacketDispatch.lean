import OxlensSfu.TracksAck

/-
The WS connections: every opcode of the dispatch, the channel from which a connection
writes the pushes of other handlers, and the socket, on which replies are written at once.
-/
namespace PacketDispatch
open WireBytes SfuConfig FloorControl KeyedMap Participants RoomHubs RoomHub Signaling
open RoomHandlers TrackHandlers TracksAck
open Servers (Server)

def opHello : UInt16 := 0
def opRoomList : UInt16 := 9
def opMuteUpdate : UInt16 := 17
def opCameraReady : UInt16 := 18
def opMessage : UInt16 := 20
def opTelemetry : UInt16 := 30
def opFloorQueuePos : UInt16 := 43
def opRoomSync : UInt16 := 50
def opRoomEvent : UInt16 := 100
def opTracksUpdate : UInt16 := 101
def opTrackState : UInt16 := 102
def opMessageEvent : UInt16 := 103
def opVideoSuspended : UInt16 := 104
def opVideoResumed : UInt16 := 105
def opFloorTaken : UInt16 := 141
def opFloorIdle : UInt16 := 142
def opFloorRevoke : UInt16 := 143

def heartbeatIntervalMs : Nat := 30000

/-- The opcodes that `dispatch` knows. -/
def knownOps : List UInt16 :=
  [opHeartbeat, opIdentify, opRoomList, opRoomCreate, opRoomJoin, opRoomLeave, opPublishTracks,
    opTracksAck, opMuteUpdate, opCameraReady, opMessage, opTelemetry, opRoomSync, opFloorRequest,
    opFloorRelease, opFloorPing, opFloorQueuePos, opSubscribeLayer]

structure MuteUpdateRequest where
  ssrc : UInt32
  muted : Bool

structure MessageRequest where
  roomId : RoomId
  content : String

/-- A request packet; `plain` holds those that `Request` describes. -/
inductive Body where
  | plain (req : Request)
  | roomList
  | tracksAck (ssrcs : Option (List UInt32))
  | muteUpdate (d : Option MuteUpdateRequest)
  | cameraReady (roomId : Option RoomId)
  | message (d : Option MessageRequest)
  | telemetry (data : String)
  | roomSync
  | floorQueuePos (roomId : Option RoomId)
  | unknown (op : { op : UInt16 // op ∉ knownOps })

def Body.op : Body → UInt16
  | .plain req => req.op
  | .roomList => opRoomList
  | .tracksAck _ => opTracksAck
  | .muteUpdate _ => opMuteUpdate
  | .cameraReady _ => opCameraReady
  | .message _ => opMessage
  | .telemetry _ => opTelemetry
  | .roomSync => opRoomSync
  | .floorQueuePos _ => opFloorQueuePos
  | .unknown op => op

structure RoomSummary where
  roomId : RoomId
  name : String
  capacity : Nat
  mode : RoomMode
  participants : Nat
  deriving DecidableEq, Repr

/-- One track of a ROOM_SYNC reply; the virtual ones name no user. -/
inductive SyncTrack where
  | virtual (kind : TrackKind) (ssrc : UInt32) (trackId : String)
  | track (info : TrackInfo)
  deriving DecidableEq, Repr

def SyncTrack.ssrc : SyncTrack → UInt32
  | .virtual _ ssrc _ => ssrc
  | .track info => info.ssrc

structure FloorView where
  speaker : Option UserId
  speakerPriority : Option UInt8
  queue : List (UserId × UInt8 × UInt8)
  deriving DecidableEq, Repr

inductive Payload where
  | reply (body : ReplyBody)
  | event (event : WsEvent)
  | error (code : UInt16) (msg : String)
  | hello (heartbeatInterval : Nat)
  | rooms (rooms : List RoomSummary)
  | synced
  | resyncSent
  | resync (tracks : List TrackInfo)
  | muted (ssrc : UInt32) (muted : Bool)
  | trackState (userId : UserId) (ssrc : UInt32) (kind : TrackKind) (muted : Bool)
  | videoSuspended (userId : UserId) (roomId : RoomId)
  | videoResumed (userId : UserId) (roomId : RoomId)
  | chat (roomId : RoomId) (userId : UserId) (content : String)
  | msgId (id : String)
  | roomSync (roomId : RoomId) (mode : RoomMode) (participants : List UserId)
      (subscribeTracks : List SyncTrack) (floor : FloorView) (total : Nat)
  | queuePos (position priority : UInt8) (queueSize : Nat)
  deriving DecidableEq, Repr

/-- A packet from the server. `ok` is unset in an event. -/
structure Packet where
  op : UInt16
  pid : Nat
  ok : Option Bool
  d : Payload
  deriving DecidableEq, Repr

namespace Packet

def new (op : UInt16) (pid : Nat) (d : Payload) : Packet := ⟨op, pid, none, d⟩
def okay (op : UInt16) (pid : Nat) (d : Payload) : Packet := ⟨op, pid, some true, d⟩
def err (op : UInt16) (pid : Nat) (code : UInt16) (msg : String) : Packet :=
  ⟨op, pid, some false, .error code msg⟩

def ofReply : Reply → Packet
  | .ok op pid body => okay op pid (.reply body)
  | .err op pid code msg => err op pid code msg

def ofAck : AckReply → Packet
  | .synced op pid => okay op pid .synced
  | .resyncSent op pid => okay op pid .resyncSent
  | .err op pid code msg => err op pid code msg

/-- A grant out of the queue has the shape of a reply with pid 0. -/
def ofEvent : WsEvent → Packet
  | .floorTaken r u priority => new opFloorTaken 0 (.event (.floorTaken r u priority))
  | .floorIdle r u cause => new opFloorIdle 0 (.event (.floorIdle r u cause))
  | .floorRevoke r cause => new opFloorRevoke 0 (.event (.floorRevoke r cause))
  | .floorGranted u priority duration =>
    okay opFloorRequest 0 (.event (.floorGranted u priority duration))
  | .roomEvent eventType r u => new opRoomEvent 0 (.event (.roomEvent eventType r u))
  | .tracksUpdate action tracks => new opTracksUpdate 0 (.event (.tracksUpdate action tracks))

end Packet

/-- Pushes in the order in which they enter the channels. -/
abbrev Pushes := List (ConnId × Packet)

def ofOutbox (sent : Outbox) : Pushes := sent.map fun (conn, event) => (conn, .ofEvent event)

def toOthers (arcs : Ptr → Participant) (room : Room) (exclude : UserId) (packet : Packet) :
    Pushes :=
  (room.otherParticipants exclude).map fun p => ((arcs p).wsTx, packet)

/-- What one dispatch leaves behind. `plis` are the PLIs sent from the handler itself. -/
structure Handled where
  hub : RoomHub
  session : Session
  pushes : Pushes
  reply : Option Packet
  telemetry : List (UserId × RoomId × String)
  plis : List (SocketAddr × UInt32)

/-- The handler has answered, and done nothing else. -/
def answered (hub : RoomHub) (session : Session) (packet : Packet) : Handled :=
  ⟨hub, session, [], some packet, [], []⟩

def ofHandler (out : HandlerOut) : Handled :=
  ⟨out.hub, out.session, ofOutbox out.sent, some (.ofReply out.reply), [], []⟩

/-- The room that the session is in, for a packet with a decoded payload. -/
def currentRoom {α : Type} (hub : RoomHub) (session : Session) (op : UInt16) (pid : Nat)
    (payload : Option α) : Except Packet (α × RoomId × Room) :=
  match payload with
  | none => .error (.err op pid 3002 "invalid payload")
  | some d =>
    match session.currentRoom with
    | none => .error (.err op pid 2004 "not in room")
    | some roomId =>
      match hub.rooms.lookup roomId with
      | none => .error (.err op pid 2001 "room not found")
      | some room => .ok (d, roomId, room)

/-- The same, and the sender's participant in it. -/
def seat {α : Type} (hub : RoomHub) (session : Session) (op : UInt16) (pid : Nat) (userId : UserId)
    (payload : Option α) : Except Packet (α × RoomId × Room × Ptr) :=
  match currentRoom hub session op pid payload with
  | .error packet => .error packet
  | .ok (d, roomId, room) =>
    match room.getParticipant userId with
    | none => .error (.err op pid 2004 "not in room")
    | some p => .ok (d, roomId, room, p)

section Handlers
variable (hub : RoomHub) (session : Session) (pid : Nat) (userId : UserId)

def summary (room : Room) : RoomSummary :=
  ⟨room.id, room.name, room.capacity, room.mode, room.participants.keys.length⟩

def handleRoomList : Handled :=
  answered hub session (.okay opRoomList pid (.rooms ((values hub.rooms).map summary)))

def handleAck (ssrcs : Option (List UInt32)) (draws : Ptr → NonzeroSsrc) : Handled :=
  let out := handleTracksAck hub session pid userId ssrcs draws
  { hub := { hub with heap := out.heap }
    session := session
    pushes := out.resync.toList.map fun (op, tracks) =>
      (session.wsTx, .new op 0 (.resync tracks))
    reply := some (.ofAck out.reply)
    telemetry := []
    plis := [] }

/-- The first track with the SSRC; its kind is returned. -/
def setTrackMuted (ssrc : UInt32) (muted : Bool) : List Track → List Track × Option TrackKind
  | [] => ([], none)
  | t :: tracks =>
    if t.ssrc = ssrc then ({ t with muted := muted } :: tracks, some t.kind)
    else
      let (rest, kind) := setTrackMuted ssrc muted tracks
      (t :: rest, kind)

/-- A PLI goes out at once if keys are installed and an address is latched. -/
def unmutePli (s : ParticipantState) (ssrc : UInt32) : List (SocketAddr × UInt32) :=
  match s.publish.address with
  | some addr => if s.isPublishReady then [(addr, ssrc)] else []
  | none => []

def handleMuteUpdate (d : Option MuteUpdateRequest) : Handled :=
  match seat hub session opMuteUpdate pid userId d with
  | .error packet => answered hub session packet
  | .ok (req, roomId, room, p) =>
    match setTrackMuted req.ssrc req.muted (hub.heap p).tracks with
    | (_, none) => answered hub session (.err opMuteUpdate pid 2005 "track not found")
    | (tracks, some kind) =>
      { hub := { hub with heap := mutate hub.heap p fun s => { s with tracks := tracks } }
        session := session
        pushes := toOthers hub.arcs room userId
            (.new opTrackState 0 (.trackState userId req.ssrc kind req.muted)) ++
          if req.muted ∧ kind = .video then toOthers hub.arcs room userId
            (.new opVideoSuspended 0 (.videoSuspended userId roomId)) else []
        reply := some (.okay opMuteUpdate pid (.muted req.ssrc req.muted))
        telemetry := []
        plis := if !req.muted ∧ kind = .video then unmutePli (hub.heap p) req.ssrc else [] }

def cameraBurst : List Nat := [0, 150]

/-- The room that the payload names is not looked at. -/
def handleCameraReady (d : Option RoomId) : Handled :=
  match seat hub session opCameraReady pid userId d with
  | .error packet => answered hub session packet
  | .ok (_, roomId, room, p) =>
    let done : Packet := .okay opCameraReady pid (.reply .empty)
    match (hub.heap p).firstVideoSsrc with
    | none => answered hub session done
    | some ssrc =>
      { hub := { hub with
          heap := mutate hub.heap p fun s => s.requestKeyframe (some ssrc) cameraBurst }
        session := session
        pushes := toOthers hub.arcs room userId
          (.new opVideoResumed 0 (.videoResumed userId roomId))
        reply := some done
        telemetry := []
        plis := [] }

/-- The room need not be the sender's. -/
def handleMessage (d : Option MessageRequest) (msgId : String) : Handled :=
  match d with
  | none => answered hub session (.err opMessage pid 3002 "invalid payload")
  | some req =>
    { answered hub session (.okay opMessage pid (.msgId msgId)) with
      pushes := match hub.rooms.lookup req.roomId with
        | some room => toOthers hub.arcs room userId
            (.new opMessageEvent 0 (.chat req.roomId userId req.content))
        | none => [] }

/-- No reply. -/
def handleTelemetry (data : String) : Handled :=
  ⟨hub, session, [], none,
    (session.currentRoom.map fun roomId => (userId, roomId, data)).toList, []⟩

def syncTracks (room : Room) (draws : Ptr → NonzeroSsrc) : Heap × List SyncTrack :=
  if room.mode = .ptt then
    (hub.heap, [.virtual .audio room.audioRewriter.virtualSsrc "ptt-audio",
      .virtual .video room.videoRewriter.virtualSsrc "ptt-video"])
  else
    let (heap, tracks) := collectSubscribeTracks hub.arcs room hub.heap draws userId
    (heap, tracks.map .track)

def floorView (c : FloorController) : FloorView :=
  ⟨currentSpeaker c, currentSpeakerPriority c, queueSnapshot c⟩

def handleRoomSync (draws : Ptr → NonzeroSsrc) : Handled :=
  match currentRoom hub session opRoomSync pid (some ()) with
  | .error packet => answered hub session packet
  | .ok (_, roomId, room) =>
    let (heap, tracks) := syncTracks hub userId room draws
    answered { hub with heap := heap } session (.okay opRoomSync pid
      (.roomSync roomId room.mode room.participants.keys tracks (floorView room.floor)
        room.participants.keys.length))

def handleFloorQueuePos (roomId : Option RoomId) : Handled :=
  answered hub session <| match Servers.floorRoom hub opFloorQueuePos pid roomId with
    | .error reply => .ofReply reply
    | .ok (_, room) =>
      let (position, priority) := (queryQueuePosition room.floor userId).getD (0, 0)
      .okay opFloorQueuePos pid (.queuePos position priority room.floor.queue.length)

end Handlers

/-- HEARTBEAT and IDENTIFY stand among the plain requests. -/
def dispatch (hub : RoomHub) (session : Session) (pid : Nat) (body : Body) (o : Oracle) :
    Handled :=
  match body, session.userId with
  | .plain req, _ => ofHandler (Servers.dispatch hub session pid req o)
  | body, none => answered hub session (.err body.op pid 1001 "not authenticated")
  | .roomList, some _ => handleRoomList hub session pid
  | .tracksAck ssrcs, some u => handleAck hub session pid u ssrcs o.vssrc
  | .muteUpdate d, some u => handleMuteUpdate hub session pid u d
  | .cameraReady d, some u => handleCameraReady hub session pid u d
  | .message d, some u => handleMessage hub session pid u d o.uuid
  | .telemetry data, some u => handleTelemetry hub session u data
  | .roomSync, some u => handleRoomSync hub session pid u o.vssrc
  | .floorQueuePos roomId, some u => handleFloorQueuePos hub session pid u roomId
  | .unknown op, some _ => answered hub session (.err op pid 3001 "invalid opcode")

/-- A text frame from a client. -/
inductive Frame where
  /-- Not a packet. -/
  | garbage
  /-- A packet with `ok` set acknowledges an event. -/
  | response
  | request (pid : Nat) (body : Body) (o : Oracle)

/-- The events of the server that no connection starts. -/
def Background : Servers.Event → Prop
  | .connect => False
  | .request .. => False
  | .close .. => False
  | _ => True

inductive Event where
  | background (e : { e : Servers.Event // Background e })
  | connect (nowMs : Nat)
  | text (conn : ConnId) (nowMs : Nat) (frame : Frame)
  /-- A ping, pong or binary frame. -/
  | other (conn : ConnId) (nowMs : Nat)
  /-- The connection takes one packet out of its channel and writes it. -/
  | drain (conn : ConnId)
  | heartbeatTimer (conn : ConnId) (nowMs : Nat) (o : Oracle)
  /-- The client closes, or the socket fails. -/
  | close (conn : ConnId) (o : Oracle)

/-- `channel` is what a connection has yet to write, `wire` what it has written. -/
structure WsServer where
  hub : RoomHub
  sessions : ConnId → Option Session
  nextConn : ConnId
  lastActivity : ConnId → Nat
  channel : ConnId → List Packet
  wire : ConnId → List Packet
  telemetry : List (UserId × RoomId × String)
  plis : List (SocketAddr × UInt32)

namespace WsServer

def new : WsServer := ⟨.new, fun _ => none, 0, fun _ => 0, fun _ => [], fun _ => [], [], []⟩

/-- The server beneath the connections, with nothing sent yet. -/
def server (s : WsServer) : Server := ⟨s.hub, s.sessions, s.nextConn, [], []⟩

end WsServer

/-- Into the channel of a connection that is gone nothing can be put. -/
def pushedTo (pushes : Pushes) (conn : ConnId) : List Packet :=
  pushes.filterMap fun (target, packet) => if target = conn then some packet else none

def push (s : WsServer) (pushes : Pushes) : WsServer :=
  { s with channel := fun conn =>
      if (s.sessions conn).isSome then s.channel conn ++ pushedTo pushes conn
      else s.channel conn }

def write (s : WsServer) (conn : ConnId) (packets : List Packet) : WsServer :=
  { s with wire := Function.update s.wire conn (s.wire conn ++ packets) }

def active (s : WsServer) (conn : ConnId) (nowMs : Nat) : WsServer :=
  { s with lastActivity := Function.update s.lastActivity conn nowMs }

section Step
variable (hmacSha1 : Bytes → Bytes → Bytes) (crc32 : Bytes → UInt32)

/-- What the server beneath does, and what it sends on the way. -/
def perform (s : WsServer) (e : Servers.Event) : WsServer :=
  let done := Servers.step hmacSha1 crc32 s.server e
  push { s with hub := done.hub, sessions := done.sessions, nextConn := done.nextConn }
    (ofOutbox done.sent)

def answer (s : WsServer) (conn : ConnId) (session : Session) (pid : Nat) (body : Body)
    (o : Oracle) : WsServer :=
  let out := dispatch s.hub session pid body o
  write (push { s with
    hub := out.hub
    sessions := Function.update s.sessions conn (some out.session)
    telemetry := s.telemetry ++ out.telemetry
    plis := s.plis ++ out.plis } out.pushes) conn out.reply.toList

/-- The loop ends: cleanup, and what the channel still holds is dropped. -/
def finish (s : WsServer) (conn : ConnId) (o : Oracle) : WsServer :=
  let done := perform hmacSha1 crc32 s (.close conn o)
  { done with channel := Function.update done.channel conn [] }

def step (s : WsServer) : Event → WsServer
  | .background e => perform hmacSha1 crc32 s e
  | .connect nowMs =>
    active (write (perform hmacSha1 crc32 s .connect) s.nextConn
      [.new opHello 1 (.hello heartbeatIntervalMs)]) s.nextConn nowMs
  | .text conn nowMs frame =>
    match s.sessions conn with
    | none => s
    | some session =>
      match frame with
      | .request pid body o => answer (active s conn nowMs) conn session pid body o
      | .garbage => active s conn nowMs
      | .response => active s conn nowMs
  | .other conn nowMs => if (s.sessions conn).isSome then active s conn nowMs else s
  | .drain conn =>
    match s.sessions conn, s.channel conn with
    | some _, packet :: rest =>
      write { s with channel := Function.update s.channel conn rest } conn [packet]
    | _, _ => s
  | .heartbeatTimer conn nowMs o =>
    if (s.sessions conn).isSome ∧ heartbeatTimeoutMs < nowMs - s.lastActivity conn then
      finish hmacSha1 crc32 s conn o
    else s
  | .close conn o => if (s.sessions conn).isSome then finish hmacSha1 crc32 s conn o else s

end Step

section Samples
open Servers (sampleOracle sampleRoom)

def ask (conn : ConnId) (req : Request) (n : UInt8) : Event :=
  .text conn 1000 (.request 1 (.plain req) (sampleOracle n))

def openRoom (mode : RoomMode) (simulcast : Bool) : Event :=
  .background ⟨sampleRoom mode simulcast, trivial⟩

/-- Connection `conn`, the next one to be opened, identifies and joins. -/
def joinAs (conn : ConnId) (user : UserId) (n : UInt8) : List Event :=
  [.connect 1000, ask conn (.identify (some ⟨"", some user⟩)) 0, ask conn (.roomJoin (some "room")) n]

def publishOne (conn : ConnId) (kind : String) (ssrc : UInt32) : Event :=
  ask conn (.publishTracks (some ⟨[⟨kind, ssrc, none, none, none, none⟩], none⟩)) 0

/-- Publisher "a" on connection 0, with a video track, and viewer "b" on connection 1. -/
def published : List Event :=
  openRoom .conference false :: joinAs 0 "a" 1 ++ joinAs 1 "b" 2 ++ [publishOne 0 "video" 11]

end Samples
end PacketDispatch
