import OxlensSfu.RoomIsolation
import OxlensSfu.RoomMoves
import OxlensSfu.TrackUpdates

/-
Whom the server tells of what. What an event pushes into the channels of the connections goes to
participants of the room that the event is about, and names no other room.
-/
namespace RoomPushes
open WireBytes SfuConfig KeyedMap GuardedRun StepRefinement Participants RoomHubs RoomHub Signaling
open FloorHandlers RoomHandlers TrackHandlers Ingress Servers Membership MemberFrames Seating
open RoomFrames RoomEvents RoomIsolation RoomMoves TrackUpdates RoomSteps SpeakerAgreement SendCounts
open DtlsTransport TransportStory SessionSteps HandshakeTasks
open FloorControl (UserId FloorAction)
open PttRewriter (Instant)

/-- The room that a message names, where it names one. -/
def subject : WsEvent → Option RoomId
  | .floorTaken r _ _ | .floorIdle r _ _ | .floorRevoke r _ | .roomEvent _ r _ => some r
  | .floorGranted .. | .tracksUpdate .. => none

/-- The messages are for these participants, and name no room but this one. -/
def Inside (arcs : Ptr → Participant) (own : Ptr → Prop) (r : RoomId) (out : Outbox) : Prop :=
  ∀ m ∈ out, (∃ p, own p ∧ (arcs p).wsTx = m.1) ∧ ∀ named ∈ subject m.2, named = r

section Rules
variable {arcs : Ptr → Participant} {own : Ptr → Prop} {r : RoomId} {room : Room} {event : WsEvent}

theorem Inside.append {out more : Outbox} (first : Inside arcs own r out)
    (second : Inside arcs own r more) : Inside arcs own r (out ++ more) := by
  intro m member
  rcases List.mem_append.mp member with before | after
  · exact first m before
  · exact second m after

theorem Inside.wider {own' : Ptr → Prop} {out : Outbox} (inside : Inside arcs own r out)
    (wider : ∀ p, own p → own' p) : Inside arcs own' r out := by
  intro m member
  obtain ⟨⟨p, here, channel⟩, names⟩ := inside m member
  exact ⟨⟨p, wider p here, channel⟩, names⟩

end Rules

section Floor
variable (arcs : Ptr → Participant) (room : Room) (heap : Heap) (clk : Nat → Instant)
  {run : FloorRun}

/-- The messages of a floor handler for the room. -/
abbrev Hears (out : Outbox) : Prop := Inside arcs (Seats room) room.id out

end Floor

/-- The participants of a room of the hub. -/
def Members (hub : RoomHub) (r : RoomId) (p : Ptr) : Prop := ∃ u, Member hub r u p

section Handlers
variable {r : RoomId} {hub : RoomHub} {room : Room}

theorem Inside.seats {arcs : Ptr → Participant} {out : Outbox}
    (held : hub.rooms.lookup r = some room) (inside : Inside arcs (Seats room) r out) :
    Inside arcs (Members hub r) r out :=
  inside.wider fun _ ⟨u, entry⟩ => ⟨u, room, held, entry⟩

theorem Hears.seats {arcs : Ptr → Participant} {out : Outbox} (held : hub.rooms.lookup r = some room)
    (titled : room.id = r) (hears : Hears arcs room out) : Inside arcs (Members hub r) r out := by
  subst titled
  exact Inside.seats held hears

end Handlers

/-- The messages that an event pushes go to participants of a room that it is about. -/
def Addressed (about : RoomId → Prop) (hub : RoomHub) (out : Outbox) : Prop :=
  ∀ m ∈ out, ∃ r, about r ∧ (∃ u p, Member hub r u p ∧ (hub.arcs p).wsTx = m.1) ∧
    ∀ named ∈ subject m.2, named = r

section Events
variable {about : RoomId → Prop} {hub : RoomHub}

theorem addressed_nil : Addressed about hub [] := fun _ member => by simp at member

end Events

/-- What is pushed meanwhile is addressed. -/
def Pushes (about : RoomId → Prop) (s next : Server) : Prop :=
  ∃ out, next.sent = s.sent ++ out ∧ Addressed about s.hub out

section Steps
variable {s next : Server} {about : RoomId → Prop}

theorem Pushes.silent (same : next.sent = s.sent) : Pushes about s next :=
  ⟨[], by rw [same, List.append_nil], addressed_nil⟩

theorem Pushes.trans {last : Server} (first : Pushes about s next) (keeps : Keeps s.hub next.hub)
    (second : Pushes about next last) : Pushes about s last := by
  obtain ⟨out, sent, told⟩ := first
  obtain ⟨more, sent', told'⟩ := second
  refine ⟨out ++ more, by rw [sent', sent, List.append_assoc], fun m member => ?_⟩
  rcases List.mem_append.mp member with early | late
  · exact told m early
  · obtain ⟨r, here, ⟨u, p, sits, channel⟩, names⟩ := told' m late
    rw [keeps.arcs] at channel
    exact ⟨r, here, ⟨u, p, keeps.member sits, channel⟩, names⟩

end Steps

section Transport
variable (hmacSha1 : Bytes → Bytes → Bytes) (crc32 : Bytes → UInt32)

variable (shard : SocketAddr → WorkerId)

end Transport
end RoomPushes
