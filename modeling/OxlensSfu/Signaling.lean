import OxlensSfu.RoomHub

/-
Signaling packets. A request carries its decoded payload, `none` where the payload
does not deserialize. Server messages are kept as typed values, not as JSON text.
-/
namespace Signaling
open SfuConfig FloorControl Participants RoomHubs

def opHeartbeat : UInt16 := 1
def opIdentify : UInt16 := 3
def opRoomCreate : UInt16 := 10
def opRoomJoin : UInt16 := 11
def opRoomLeave : UInt16 := 12
def opPublishTracks : UInt16 := 15
def opFloorRequest : UInt16 := 40
def opFloorRelease : UInt16 := 41
def opFloorPing : UInt16 := 42
def opSubscribeLayer : UInt16 := 51

structure IdentifyRequest where
  token : String
  userId : Option String

structure RoomCreateRequest where
  name : String
  capacity : Option Nat
  mode : Option RoomMode
  simulcast : Option Bool

structure PublishTrackItem where
  kind : String
  ssrc : UInt32
  rid : Option String
  codec : Option String
  pt : Option UInt8
  rtxPt : Option UInt8

structure PublishTracksRequest where
  tracks : List PublishTrackItem
  twccExtmapId : Option UInt8

structure FloorRequestMsg where
  roomId : RoomId
  priority : Option UInt8

structure SubscribeLayerTarget where
  userId : UserId
  rid : String

inductive Request where
  | heartbeat
  | identify (d : Option IdentifyRequest)
  | roomCreate (d : Option RoomCreateRequest)
  | roomJoin (roomId : Option RoomId)
  | roomLeave (roomId : Option RoomId)
  | publishTracks (d : Option PublishTracksRequest)
  | floorRequest (d : Option FloorRequestMsg)
  | floorRelease (roomId : Option RoomId)
  | floorPing (roomId : Option RoomId)
  | subscribeLayer (targets : Option (List SubscribeLayerTarget))

def Request.op : Request → UInt16
  | .heartbeat => opHeartbeat
  | .identify _ => opIdentify
  | .roomCreate _ => opRoomCreate
  | .roomJoin _ => opRoomJoin
  | .roomLeave _ => opRoomLeave
  | .publishTracks _ => opPublishTracks
  | .floorRequest _ => opFloorRequest
  | .floorRelease _ => opFloorRelease
  | .floorPing _ => opFloorPing
  | .subscribeLayer _ => opSubscribeLayer

/-- One announced track. -/
structure TrackInfo where
  userId : UserId
  kind : TrackKind
  ssrc : UInt32
  trackId : String
  rtxSsrc : Option UInt32
  rid : Option String
  deriving DecidableEq, Repr

/-- What the server pushes into the channel of a participant. -/
inductive WsEvent where
  | floorTaken (roomId : RoomId) (speaker : UserId) (priority : UInt8)
  | floorIdle (roomId : RoomId) (prevSpeaker : UserId) (cause : Option String)
  | floorRevoke (roomId : RoomId) (cause : String)
  | floorGranted (speaker : UserId) (priority : UInt8) (duration : UInt16)
  | roomEvent (eventType : String) (roomId : RoomId) (userId : UserId)
  | tracksUpdate (action : String) (tracks : List TrackInfo)
  deriving DecidableEq, Repr

inductive ReplyBody where
  | empty
  | identified (userId : UserId)
  | created (room : RoomId) (name : String) (capacity : Nat) (mode : RoomMode) (simulcast : Bool)
  | joined (roomId : RoomId) (mode : RoomMode) (participants : List UserId)
      (publish subscribe : IceCredentials) (tracks : List TrackInfo) (simulcast : Bool)
      (pttVirtualSsrc : Option (UInt32 × UInt32))
      (floor : Option (Option UserId × List (UserId × UInt8 × UInt8)))
  | granted (speaker : UserId) (priority : UInt8) (duration : UInt16)
  | queued (position priority : UInt8) (queueSize : UInt16)
  | registered (count : Nat)
  deriving DecidableEq, Repr

/-- The response packet of a request. -/
inductive Reply where
  | ok (op : UInt16) (pid : Nat) (body : ReplyBody)
  | err (op : UInt16) (pid : Nat) (code : UInt16) (msg : String)
  deriving DecidableEq, Repr

def Reply.ofError (op : UInt16) (pid : Nat) (e : LightError) : Reply := .err op pid e.code e.text

/-- A WS connection. `wsTx` is the channel of the connection. -/
structure Session where
  userId : Option UserId
  currentRoom : Option RoomId
  pubUfrag : Option Ufrag
  subUfrag : Option Ufrag
  wsTx : ConnId
  deriving DecidableEq, Repr

def Session.new (wsTx : ConnId) : Session := ⟨none, none, none, none, wsTx⟩

/-- Messages in the order in which they enter the channels. -/
abbrev Outbox := List (ConnId × WsEvent)

def broadcastToRoom (arcs : Ptr → Participant) (room : Room) (event : WsEvent) : Outbox :=
  (KeyedMap.values room.participants).map fun p => ((arcs p).wsTx, event)

def broadcastToOthers (arcs : Ptr → Participant) (room : Room) (exclude : UserId)
    (event : WsEvent) : Outbox :=
  (room.otherParticipants exclude).map fun p => ((arcs p).wsTx, event)

end Signaling
