import OxlensSfu.FloorHandlers

/-
Identification, room lifecycle and disconnect cleanup. Clock readings and random
draws of a handler are arguments, collected in `Oracle`.
-/
namespace RoomHandlers
open SfuConfig FloorControl PttRewriter KeyedMap Participants RoomHubs RoomHub Signaling
open FloorHandlers

abbrev NonzeroSsrc := { x : UInt32 // x ≠ 0 }

/-- What one handler run reads from outside: epoch milliseconds, the reading taken when
    the queue is popped, monotonic readings, and its random draws. -/
structure Oracle where
  nowMs : Nat
  grantMs : Nat
  clk : Nat → Instant
  uuid : RoomId
  audioSsrc : UInt32
  videoSsrc : UInt32
  userNumber : UInt16
  pubIce : IceCredentials
  subIce : IceCredentials
  vssrc : Ptr → NonzeroSsrc

structure HandlerOut where
  hub : RoomHub
  session : Session
  sent : Outbox
  reply : Reply

/-- The White_Space characters that `trim` removes. -/
def isWhiteSpace (c : Char) : Bool :=
  (9 ≤ c.toNat && c.toNat ≤ 13) || c.toNat == 0x20 || c.toNat == 0x85 || c.toNat == 0xA0 ||
    c.toNat == 0x1680 || (0x2000 ≤ c.toNat && c.toNat ≤ 0x200A) || c.toNat == 0x2028 ||
    c.toNat == 0x2029 || c.toNat == 0x202F || c.toNat == 0x205F || c.toNat == 0x3000

/-- `format!("U\x7b:03\x7d")`. -/
def generatedUserId (draw : UInt16) : UserId :=
  let n := draw.toNat % 1000
  "U" ++ toString (n / 100) ++ toString (n / 10 % 10) ++ toString (n % 10)

def chosenUserId (requested : Option String) (draw : UInt16) : UserId :=
  match requested with
  | some id => if id.toList.all isWhiteSpace then generatedUserId draw else id
  | none => generatedUserId draw

def handleIdentify (session : Session) (pid : Nat) (d : Option IdentifyRequest) (draw : UInt16) :
    Session × Reply :=
  match d with
  | none => (session, .err opIdentify pid 3002 "invalid payload")
  | some req =>
    let userId := chosenUserId req.userId draw
    ({ session with userId := some userId }, .ok opIdentify pid (.identified userId))

def handleRoomCreate (hub : RoomHub) (pid : Nat) (d : Option RoomCreateRequest) (o : Oracle) :
    RoomHub × Reply :=
  match d with
  | none => (hub, .err opRoomCreate pid 3002 "invalid payload")
  | some req =>
    let mode := req.mode.getD .conference
    let room := Room.new o.uuid req.name req.capacity mode o.nowMs (req.simulcast.getD false)
      o.audioSsrc o.videoSsrc
    (hub.create o.uuid req.name req.capacity mode o.nowMs (req.simulcast.getD false) o.audioSsrc
        o.videoSsrc,
      .ok opRoomCreate pid (.created room.id room.name room.capacity room.mode
        room.simulcastEnabled))

def announced (userId : UserId) (t : Track) : TrackInfo :=
  ⟨userId, t.kind, t.ssrc, t.trackId, t.rtxSsrc, none⟩

/-- In a simulcast room the low layer of a source is not announced. -/
def hiddenLayer (simulcast : Bool) (t : Track) : Bool := simulcast && t.rid == some "l"

/-- One announced video track of a simulcast room gets the publisher's virtual SSRC. -/
def replaceVideoSsrc (room : Room) (draws : Ptr → NonzeroSsrc) (state : Heap × List TrackInfo)
    (t : TrackInfo) : Heap × List TrackInfo :=
  let (heap, done) := state
  if t.kind ≠ .video then (heap, done ++ [t])
  else
    match room.getParticipant t.userId with
    | some p =>
      let (next, vssrc) := (heap p).ensureSimulcastVideoSsrc (draws p)
      (mutate heap p fun _ => next, done ++ [{ t with ssrc := vssrc, rid := none }])
    | none => (heap, done ++ [{ t with rid := none }])

def simulcastReplaceVideoSsrc (room : Room) (heap : Heap) (draws : Ptr → NonzeroSsrc)
    (tracks : List TrackInfo) : Heap × List TrackInfo :=
  if room.simulcastEnabled then tracks.foldl (replaceVideoSsrc room draws) (heap, [])
  else (heap, tracks)

def collectSubscribeTracks (arcs : Ptr → Participant) (room : Room) (heap : Heap)
    (draws : Ptr → NonzeroSsrc) (exclude : UserId) : Heap × List TrackInfo :=
  simulcastReplaceVideoSsrc room heap draws
    ((room.otherParticipants exclude).flatMap fun p =>
      ((heap p).tracks.filter fun t => !hiddenLayer room.simulcastEnabled t).map
        (announced (arcs p).userId))

def replaceDirect (simulcast : Bool) (vssrc : UInt32) (t : TrackInfo) : TrackInfo :=
  if simulcast && vssrc != 0 && t.kind == .video then { t with ssrc := vssrc, rid := none } else t

def buildRemoveTracks (tracks : List Track) (userId : UserId) (simulcast : Bool)
    (vssrc : UInt32) : List TrackInfo :=
  ((tracks.filter fun t => !hiddenLayer simulcast t).map (announced userId)).map
    (replaceDirect simulcast vssrc)

/-- The other participants forget the layer they had selected for a user who left. -/
def purgeSubscribeLayers (room : Room) (heap : Heap) (leavingUser : UserId) : Heap :=
  (room.otherParticipants leavingUser).foldl (fun h p => mutate h p fun s =>
    { s with subscribeLayers := s.subscribeLayers.erase leavingUser }) heap

def newParticipant (session : Session) (userId : UserId) (roomId : RoomId) (o : Oracle) :
    Participant :=
  ⟨userId, roomId, o.nowMs, session.wsTx, o.pubIce, o.subIce⟩

/-- The answer to a successful join, and what the others are told. -/
def announceJoin (hub : RoomHub) (session : Session) (pid : Nat) (userId : UserId)
    (roomId : RoomId) (o : Oracle) (room : Room) : HandlerOut :=
  let purged := purgeSubscribeLayers room hub.heap userId
  let (heap, tracks) := collectSubscribeTracks hub.arcs room purged o.vssrc userId
  { hub := { hub with heap := heap }
    session := { session with
      currentRoom := some roomId, pubUfrag := some o.pubIce.ufrag, subUfrag := some o.subIce.ufrag }
    sent := broadcastToOthers hub.arcs room userId (.roomEvent "participant_joined" roomId userId)
    reply := .ok opRoomJoin pid (.joined roomId room.mode room.participants.keys o.pubIce o.subIce
      tracks room.simulcastEnabled
      (if room.mode = .ptt then
        some (room.audioRewriter.virtualSsrc, room.videoRewriter.virtualSsrc) else none)
      (if room.mode = .ptt then some (currentSpeaker room.floor, queueSnapshot room.floor)
        else none)) }

def handleRoomJoin (hub : RoomHub) (session : Session) (pid : Nat) (userId : UserId)
    (roomId : Option RoomId) (o : Oracle) : HandlerOut :=
  match roomId with
  | none => ⟨hub, session, [], .err opRoomJoin pid 3002 "invalid payload"⟩
  | some roomId =>
    match hub.rooms.lookup roomId with
    | none => ⟨hub, session, [], .err opRoomJoin pid 2001 "room not found"⟩
    | some _ =>
      match hub.addParticipant roomId (newParticipant session userId roomId o) o.nowMs with
      | .error e => ⟨hub, session, [], .ofError opRoomJoin pid e⟩
      | .ok (next, _) =>
        match next.rooms.lookup roomId with
        | some room => announceJoin next session pid userId roomId o room
        | none => ⟨next, session, [], .err opRoomJoin pid 2001 "room not found"⟩

/-- The hub with the floor state of one room and the participants' states replaced. -/
def withPtt (hub : RoomHub) (roomId : RoomId) (ptt : PttState) (heap : Heap) : RoomHub :=
  { hub with
    heap := heap
    rooms := modify hub.rooms roomId fun room => { room with toPttState := ptt } }

/-- First half of a departure: PLI burst cancelled, floor given up in a PTT room. -/
def departFloor (hub : RoomHub) (roomId : RoomId) (room : Room) (userId : UserId) (o : Oracle) :
    RoomHub × Outbox :=
  let heap := match room.getParticipant userId with
    | some p => mutate hub.heap p (·.cancelPliBurst)
    | none => hub.heap
  if room.mode = .ptt then
    let done := floorLeave hub.arcs room heap o.clk userId o.grantMs
    (withPtt hub roomId done.ptt done.heap, done.sent)
  else ({ hub with heap := heap }, [])

def removalEvents (send : WsEvent → Outbox) (roomId : RoomId) (userId : UserId)
    (removed : List TrackInfo) : Outbox :=
  (if removed.isEmpty then [] else send (.tracksUpdate "remove" removed)) ++
    send (.roomEvent "participant_left" roomId userId)

def departOrStay (hub : RoomHub) (roomId : RoomId) (userId : UserId) (o : Oracle) :
    RoomHub × Outbox :=
  match hub.rooms.lookup roomId with
  | some room => departFloor hub roomId room userId o
  | none => (hub, [])

/-- Second half of a leave: the participant is gone, the room is told. -/
def announceLeave (hub : RoomHub) (roomId : RoomId) (userId : UserId) (p : Ptr) :
    RoomHub × Outbox :=
  match hub.rooms.lookup roomId with
  | some room =>
    ({ hub with heap := purgeSubscribeLayers room hub.heap userId },
      removalEvents (broadcastToRoom hub.arcs room) roomId userId
        (buildRemoveTracks (hub.heap p).tracks userId room.simulcastEnabled
          (hub.heap p).simulcastVideoSsrc))
  | none => (hub, [])

def handleRoomLeave (hub : RoomHub) (session : Session) (pid : Nat) (userId : UserId)
    (roomId : Option RoomId) (o : Oracle) : HandlerOut :=
  match roomId with
  | none => ⟨hub, session, [], .err opRoomLeave pid 3002 "invalid payload"⟩
  | some roomId =>
    let (departed, floorSent) := departOrStay hub roomId userId o
    match departed.removeParticipant roomId userId with
    | .error e => ⟨departed, session, floorSent, .ofError opRoomLeave pid e⟩
    | .ok (removed, p) =>
      let (next, leaveSent) := announceLeave removed roomId userId p
      ⟨next, { session with currentRoom := none, pubUfrag := none, subUfrag := none },
        floorSent ++ leaveSent, .ok opRoomLeave pid .empty⟩

/-- The part of the cleanup that needs the room; the leaver is still registered. -/
def cleanupRoom (hub : RoomHub) (roomId : RoomId) (userId : UserId) (o : Oracle) (room : Room) :
    RoomHub × Outbox :=
  let (tracks, vssrc) := match room.getParticipant userId with
    | some p => ((hub.heap p).tracks, (hub.heap p).simulcastVideoSsrc)
    | none => ([], 0)
  let (departed, floorSent) := departFloor hub roomId room userId o
  ({ departed with heap := purgeSubscribeLayers room departed.heap userId },
    floorSent ++ removalEvents (broadcastToOthers hub.arcs room userId) roomId userId
      (buildRemoveTracks tracks userId room.simulcastEnabled vssrc))

def cleanupOrStay (hub : RoomHub) (roomId : RoomId) (userId : UserId) (o : Oracle) :
    RoomHub × Outbox :=
  match hub.rooms.lookup roomId with
  | some room => cleanupRoom hub roomId userId o room
  | none => (hub, [])

/-- A failed removal is only logged. -/
def removeOrLog (told : RoomHub × Outbox) (roomId : RoomId) (userId : UserId) :
    RoomHub × Outbox :=
  match told.1.removeParticipant roomId userId with
  | .ok (removed, _) => (removed, told.2)
  | .error _ => told

/-- WS disconnect: whatever the session points at is removed. -/
def cleanup (hub : RoomHub) (session : Session) (o : Oracle) : RoomHub × Outbox :=
  match session.currentRoom, session.userId with
  | some roomId, some userId => removeOrLog (cleanupOrStay hub roomId userId o) roomId userId
  | _, _ => (hub, [])

def announceReaped (state : RoomHub × Outbox) (zombie : RoomId × Ptr) : RoomHub × Outbox :=
  let (hub, sent) := state
  let (roomId, p) := zombie
  let cancelled := { hub with heap := mutate hub.heap p (·.cancelPliBurst) }
  match hub.rooms.lookup roomId with
  | some room => (cancelled, sent ++ removalEvents (broadcastToRoom hub.arcs room) roomId
      (hub.arcs p).userId (buildRemoveTracks (hub.heap p).tracks (hub.arcs p).userId
        room.simulcastEnabled 0))
  | none => (cancelled, sent)

def runZombieReaper (hub : RoomHub) (nowMs : Nat) : RoomHub × Outbox :=
  let (next, reaped) := hub.reapZombies nowMs zombieTimeoutMs
  reaped.foldl announceReaped (next, [])

/-- Telling the rooms changes nothing but the heap. -/
theorem announceReaped_hub (reaped : List (RoomId × Ptr)) (state : RoomHub × Outbox) :
    (reaped.foldl announceReaped state).1 =
      { state.1 with heap := (reaped.foldl announceReaped state).1.heap } := by
  induction reaped generalizing state with
  | nil => rfl
  | cons zombie reaped ih =>
    have one : (announceReaped state zombie).1 =
        { state.1 with heap := (announceReaped state zombie).1.heap } := by
      unfold announceReaped
      simp only
      split <;> rfl
    rw [List.foldl_cons, ih, one]

end RoomHandlers
