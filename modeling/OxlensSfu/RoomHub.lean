import OxlensSfu.Participant

/-
Rooms and the hub. A room indexes its participants by user id, by ICE ufrag and by
latched address; the hub indexes rooms by ufrag and by address.
-/
namespace RoomHubs
open WireBytes SfuConfig FloorControl PttRewriter KeyedMap Participants

inductive LightError where
  | roomNotFound
  | roomFull
  | alreadyInRoom
  | notInRoom
  deriving DecidableEq, Repr

def LightError.code : LightError → UInt16
  | .roomNotFound => 2001
  | .roomFull => 2002
  | .alreadyInRoom => 2003
  | .notInRoom => 2004

def LightError.text : LightError → String
  | .roomNotFound => "[2001] room not found"
  | .roomFull => "[2002] room full"
  | .alreadyInRoom => "[2003] already in room"
  | .notInRoom => "[2004] not in room"

/-- The floor of a room and its two rewriters. -/
structure PttState where
  floor : FloorController
  audioRewriter : Rewriter
  videoRewriter : Rewriter

structure Room extends PttState where
  id : RoomId
  name : String
  capacity : Nat
  mode : RoomMode
  createdAt : Nat
  simulcastEnabled : Bool
  participants : Table UserId Ptr
  byUfrag : Ufrag → Option (Ptr × PcType)
  byAddr : SocketAddr → Option (Ptr × PcType)
  activeSince : Nat

namespace Room

/-- The two virtual SSRCs are drawn at random. -/
def new (id : RoomId) (name : String) (capacity : Option Nat) (mode : RoomMode) (createdAt : Nat)
    (simulcastEnabled : Bool) (audioSsrc videoSsrc : UInt32) : Room where
  id := id
  name := name
  capacity := min (capacity.getD roomDefaultCapacity) roomMaxCapacity
  mode := mode
  createdAt := createdAt
  simulcastEnabled := if mode = .ptt then false else simulcastEnabled
  floor := .new
  audioRewriter := newAudio audioSsrc
  videoRewriter := newVideo videoSsrc
  participants := ∅
  byUfrag := fun _ => none
  byAddr := fun _ => none
  activeSince := 0

/-- The indices with a new participant: user id and both ufrags. -/
def enter (room : Room) (p : Ptr) (who : Participant) (now : Nat) : Room :=
  { room with
    byUfrag := Function.update (Function.update room.byUfrag
      who.publish.ufrag (some (p, .publish))) who.subscribe.ufrag (some (p, .subscribe))
    participants := room.participants.insert who.userId p
    activeSince := if room.activeSince = 0 then now else room.activeSince }

def addParticipant (room : Room) (p : Ptr) (who : Participant) (now : Nat) :
    Except LightError Room :=
  if room.capacity ≤ room.participants.keys.length then .error .roomFull
  else if who.userId ∈ room.participants then .error .alreadyInRoom
  else .ok (room.enter p who now)

/-- Removes the latched address of a session from an address index. -/
def forget {V : Type} (index : SocketAddr → Option V) (addr : Option SocketAddr) :
    SocketAddr → Option V :=
  match addr with
  | some a => Function.update index a none
  | none => index

/-- The indices without a participant: user id, two ufrags and up to two addresses. -/
def leave (room : Room) (userId : UserId) (who : Participant) (s : ParticipantState) : Room :=
  { room with
    participants := room.participants.erase userId
    byUfrag := Function.update (Function.update room.byUfrag who.publish.ufrag none)
      who.subscribe.ufrag none
    byAddr := forget (forget room.byAddr (s.address .publish)) (s.address .subscribe) }

def removeParticipant (room : Room) (arcs : Ptr → Participant) (heap : Heap) (userId : UserId) :
    Except LightError (Room × Ptr) :=
  match room.participants.lookup userId with
  | none => .error .notInRoom
  | some p => .ok (room.leave userId (arcs p) (heap p), p)

/-- Moves the entry of a session from its old address, if that differs, to `addr`. -/
def latchIndex (room : Room) (old : Option SocketAddr) (p : Ptr) (pc : PcType)
    (addr : SocketAddr) : Room :=
  let cleared := match old with
    | some o => if o ≠ addr then Function.update room.byAddr o none else room.byAddr
    | none => room.byAddr
  { room with byAddr := Function.update cleared addr (some (p, pc)) }

def getParticipant (room : Room) (userId : UserId) : Option Ptr := room.participants.lookup userId

def otherParticipants (room : Room) (exclude : UserId) : List Ptr :=
  ((toList room.participants).filter (·.1 ≠ exclude)).map (·.2)

/-- First participant, in the visiting order of the map, that published the SSRC. -/
def findByTrackSsrc (room : Room) (heap : Heap) (visit : List UserId) (ssrc : UInt32) :
    Option Ptr :=
  (visit.filterMap room.participants.lookup).find? fun p => (heap p).tracks.any (·.ssrc == ssrc)

def findPublisherByVssrc (room : Room) (heap : Heap) (visit : List UserId) (vssrc : UInt32) :
    Option Ptr :=
  if vssrc = 0 then none
  else (visit.filterMap room.participants.lookup).find? fun p =>
    (heap p).simulcastVideoSsrc == vssrc

end Room

/-- `arcs` and `heap` are the participants ever built, below `nextPtr`. -/
@[ext] structure RoomHub where
  arcs : Ptr → Participant
  heap : Heap
  nextPtr : Ptr
  rooms : Table RoomId Room
  ufragIndex : Ufrag → Option RoomId
  addrIndex : SocketAddr → Option RoomId

namespace RoomHub

def new : RoomHub where
  arcs := fun _ => ⟨"", "", 0, 0, ⟨[], []⟩, ⟨[], []⟩⟩
  heap := fun _ => .new 0
  nextPtr := 0
  rooms := ∅
  ufragIndex := fun _ => none
  addrIndex := fun _ => none

/-- `id` is the fresh UUID of the room. -/
def create (hub : RoomHub) (id : RoomId) (name : String) (capacity : Option Nat) (mode : RoomMode)
    (createdAt : Nat) (simulcastEnabled : Bool) (audioSsrc videoSsrc : UInt32) : RoomHub :=
  let room := Room.new id name capacity mode createdAt simulcastEnabled audioSsrc videoSsrc
  { hub with rooms := hub.rooms.insert id room }

def get (hub : RoomHub) (roomId : RoomId) : Except LightError Room :=
  match hub.rooms.lookup roomId with
  | some room => .ok room
  | none => .error .roomNotFound

def setRoom (hub : RoomHub) (roomId : RoomId) (room : Room) : RoomHub :=
  { hub with rooms := modify hub.rooms roomId fun _ => room }

/-- A new handle for `who`, in the room that it joined. -/
def register (hub : RoomHub) (roomId : RoomId) (joined : Room) (who : Participant) : RoomHub where
  arcs := Function.update hub.arcs hub.nextPtr who
  heap := Function.update hub.heap hub.nextPtr (.new who.joinedAt)
  nextPtr := hub.nextPtr + 1
  rooms := modify hub.rooms roomId fun _ => joined
  ufragIndex := Function.update (Function.update hub.ufragIndex who.publish.ufrag (some roomId))
    who.subscribe.ufrag (some roomId)
  addrIndex := hub.addrIndex

/-- Builds the participant and registers it; on error the new handle is dropped. -/
def addParticipant (hub : RoomHub) (roomId : RoomId) (who : Participant) (now : Nat) :
    Except LightError (RoomHub × Ptr) :=
  match hub.get roomId with
  | .error e => .error e
  | .ok room =>
    match room.addParticipant hub.nextPtr who now with
    | .error e => .error e
    | .ok joined => .ok (hub.register roomId joined who, hub.nextPtr)

/-- The reverse indices without the ufrags and addresses of a participant. -/
def unindex (hub : RoomHub) (p : Ptr) : RoomHub :=
  { hub with
    ufragIndex := Function.update (Function.update hub.ufragIndex (hub.arcs p).publish.ufrag none)
      (hub.arcs p).subscribe.ufrag none
    addrIndex := Room.forget (Room.forget hub.addrIndex ((hub.heap p).address .publish))
      ((hub.heap p).address .subscribe) }

def removeParticipant (hub : RoomHub) (roomId : RoomId) (userId : UserId) :
    Except LightError (RoomHub × Ptr) :=
  match hub.get roomId with
  | .error e => .error e
  | .ok room =>
    match room.removeParticipant hub.arcs hub.heap userId with
    | .error e => .error e
    | .ok (left, p) => .ok (unindex (hub.setRoom roomId left) p, p)

def removeRoom (hub : RoomHub) (roomId : RoomId) : Except LightError (RoomHub × Room) :=
  match hub.get roomId with
  | .error e => .error e
  | .ok room =>
    .ok ((values room.participants).foldl unindex { hub with rooms := hub.rooms.erase roomId },
      room)

/-- ufrag → (participant, session, room), without touching anything. -/
def findByUfrag (hub : RoomHub) (ufrag : Ufrag) : Option (Ptr × PcType × RoomId) := do
  let roomId ← hub.ufragIndex ufrag
  let room ← hub.rooms.lookup roomId
  let (p, pc) ← room.byUfrag ufrag
  return (p, pc, roomId)

/-- addr → (participant, session, room). -/
def findByAddr (hub : RoomHub) (addr : SocketAddr) : Option (Ptr × PcType × RoomId) := do
  let roomId ← hub.addrIndex addr
  let room ← hub.rooms.lookup roomId
  let (p, pc) ← room.byAddr addr
  return (p, pc, roomId)

/-- The session is moved to `addr` in the room, on the session itself and in the hub. -/
def latchSession (hub : RoomHub) (p : Ptr) (pc : PcType) (roomId : RoomId) (addr : SocketAddr) :
    RoomHub :=
  { hub with
    heap := mutate hub.heap p fun s => s.latchAddress pc addr
    rooms := modify hub.rooms roomId fun room =>
      room.latchIndex ((hub.heap p).address pc) p pc addr
    addrIndex := Function.update hub.addrIndex addr (some roomId) }

def latchByUfrag (hub : RoomHub) (ufrag : Ufrag) (addr : SocketAddr) :
    RoomHub × Option (Ptr × PcType × RoomId) :=
  match hub.findByUfrag ufrag with
  | some (p, pc, roomId) => (hub.latchSession p pc roomId addr, some (p, pc, roomId))
  | none => (hub, none)

def touch (hub : RoomHub) (p : Ptr) (ts : Nat) : RoomHub :=
  { hub with heap := mutate hub.heap p fun s => s.touch ts }

/-- The participants of a room that were not seen for longer than the timeout. -/
def zombieIds (hub : RoomHub) (room : Room) (nowMs timeoutMs : Nat) : List UserId :=
  ((toList room.participants).filter fun (_, p) =>
    decide (0 < (hub.heap p).lastSeen ∧ timeoutMs < nowMs - (hub.heap p).lastSeen)).map (·.1)

/-- Removes the participant and notes it, if it is still there. -/
def reapOne (roomId : RoomId) (state : RoomHub × List (RoomId × Ptr)) (userId : UserId) :
    RoomHub × List (RoomId × Ptr) :=
  match state.1.removeParticipant roomId userId with
  | .ok (next, p) => (next, state.2 ++ [(roomId, p)])
  | .error _ => state

def reapRoom (nowMs timeoutMs : Nat) (state : RoomHub × List (RoomId × Ptr)) (roomId : RoomId) :
    RoomHub × List (RoomId × Ptr) :=
  match state.1.rooms.lookup roomId with
  | some room => (state.1.zombieIds room nowMs timeoutMs).foldl (reapOne roomId) state
  | none => state

def reapZombies (hub : RoomHub) (nowMs timeoutMs : Nat) : RoomHub × List (RoomId × Ptr) :=
  hub.rooms.keys.foldl (reapRoom nowMs timeoutMs) (hub, [])

end RoomHub
end RoomHubs
