import OxlensSfu.TransportStory
import Mathlib.Logic.Relation

/-
The record of a room on its own: what the handlers do to it, one thing at a time, and what then
holds of every room that the server keeps.
-/
namespace RoomMoves
open WireBytes SfuConfig KeyedMap GuardedRun StepRefinement Participants RoomHubs RoomHub Signaling
open FloorHandlers RoomHandlers Ingress Servers Membership RoomSteps SendCounts DtlsTransport
open TransportStory
open FloorControl (UserId)

inductive Move (room : Room) : Room → Prop
  | entered (p : Ptr) (who : Participant) (now : Nat)
      (space : room.participants.keys.length < room.capacity) (absent : who.userId ∉ room.participants) :
      Move room (room.enter p who now)
  | left (u : UserId) (who : Participant) (s : ParticipantState) : Move room (room.leave u who s)
  | latched (old : Option SocketAddr) (p : Ptr) (pc : PcType) (addr : SocketAddr) :
      Move room (room.latchIndex old p pc addr)
  | worked (ptt : PttState) : Move room { room with toPttState := ptt }
  | emptied (activeSince : Nat) : Move room { room with activeSince := activeSince }

abbrev Evolves : Room → Room → Prop := Relation.ReflTransGen Move

/-- A room as it is made, under any id. -/
def Made (r : RoomId) (room : Room) : Prop :=
  ∃ name capacity mode createdAt simulcast audioSsrc videoSsrc,
    room = .new r name capacity mode createdAt simulcast audioSsrc videoSsrc

/-- Every room was there before, or is made, and made moves from then on. -/
def Renews (hub next : RoomHub) : Prop :=
  ∀ r after, next.rooms.lookup r = some after →
    ∃ before, (hub.rooms.lookup r = some before ∨ Made r before) ∧ Evolves before after

namespace Renews
variable {hub next last : RoomHub}

theorem of_rooms (rooms : next.rooms = hub.rooms) : Renews hub next := by
  intro r after found
  rw [rooms] at found
  exact ⟨after, .inl found, .refl⟩

theorem refl (hub : RoomHub) : Renews hub hub := of_rooms rfl

theorem trans (first : Renews hub next) (second : Renews next last) : Renews hub last := by
  intro r after found
  obtain ⟨mid, held | made, moves⟩ := second r after found
  · obtain ⟨before, there, moves'⟩ := first r mid held
    exact ⟨before, there, moves'.trans moves⟩
  · exact ⟨mid, .inr made, moves⟩

theorem of_modify {r : RoomId} {f : Room → Room} (rooms : next.rooms = modify hub.rooms r f)
    (move : ∀ room, hub.rooms.lookup r = some room → Move room (f room)) : Renews hub next := by
  intro r' after found
  rw [rooms, lookup_modify] at found
  split at found
  · rename_i here
    subst here
    obtain ⟨before, held, rfl⟩ := Option.map_eq_some_iff.mp found
    exact ⟨before, .inl held, .single (move before held)⟩
  · exact ⟨after, .inl found, .refl⟩

theorem withPtt (hub : RoomHub) (r : RoomId) (ptt : PttState) (heap : Heap) :
    Renews hub (RoomHandlers.withPtt hub r ptt heap) :=
  of_modify rfl fun _ _ => .worked ptt

theorem removeParticipant {r : RoomId} {u : UserId} {p : Ptr}
    (removed : hub.removeParticipant r u = .ok (next, p)) : Renews hub next := by
  obtain ⟨room, held, _, rfl⟩ := removeParticipant_ok.mp removed
  refine of_modify rfl fun room' held' => ?_
  rw [held, Option.some.injEq] at held'
  subst held'
  exact .left u (hub.arcs p) (hub.heap p)

theorem addParticipant {r : RoomId} {who : Participant} {now : Nat} {p : Ptr}
    (added : hub.addParticipant r who now = .ok (next, p)) : Renews hub next := by
  obtain ⟨room, held, space, absent, _, rfl⟩ := addParticipant_ok.mp added
  refine of_modify rfl fun room' held' => ?_
  rw [held, Option.some.injEq] at held'
  subst held'
  exact .entered hub.nextPtr who now space absent

theorem create (hub : RoomHub) (id : RoomId) (name : String) (capacity : Option Nat) (mode : RoomMode)
    (createdAt : Nat) (simulcast : Bool) (a v : UInt32) :
    Renews hub (hub.create id name capacity mode createdAt simulcast a v) := by
  intro r after found
  rw [create_lookup] at found
  split at found
  · rename_i here
    subst here
    refine ⟨after, .inr ⟨name, capacity, mode, createdAt, simulcast, a, v, ?_⟩, .refl⟩
    exact (Option.some.inj found).symm
  · exact ⟨after, .inl found, .refl⟩

end Renews

section Handlers
variable (hub : RoomHub) (o : Oracle)

theorem onFloor_renews (session : Session) (found : Except Reply (RoomId × Room))
    (handler : Room → FloorRun × Reply) : Renews hub (onFloor hub session found handler).hub := by
  cases found with
  | error reply => exact .refl hub
  | ok place => exact .withPtt hub _ _ _

theorem departFloor_renews (r : RoomId) (room : Room) (u : UserId) :
    Renews hub (departFloor hub r room u o).1 := by
  unfold departFloor
  dsimp only
  split
  · exact .withPtt hub r _ _
  · exact .of_rooms rfl

theorem departOrStay_renews (r : RoomId) (u : UserId) : Renews hub (departOrStay hub r u o).1 := by
  unfold departOrStay
  split
  · exact departFloor_renews hub o r _ u
  · exact .refl hub

theorem handleRoomLeave_renews (session : Session) (pid : Nat) (u : UserId) (roomId : Option RoomId) :
    Renews hub (handleRoomLeave hub session pid u roomId o).hub := by
  unfold handleRoomLeave
  split
  · exact .refl hub
  rename_i r
  have departed := departOrStay_renews hub o r u
  simp only
  split
  · exact departed
  · rename_i removed p result
    refine (departed.trans (.removeParticipant result)).trans ?_
    unfold announceLeave
    split <;> exact .of_rooms rfl

theorem cleanup_renews (session : Session) : Renews hub (cleanup hub session o).1 := by
  unfold cleanup
  split
  · rename_i r u _ _
    have told : Renews hub (cleanupOrStay hub r u o).1 := by
      unfold cleanupOrStay
      split
      · exact (departFloor_renews hub o r _ u).trans (.of_rooms rfl)
      · exact .refl hub
    unfold removeOrLog
    split
    · rename_i result
      exact told.trans (.removeParticipant result)
    · exact told
  · exact .refl hub

theorem handleRoomJoin_renews (session : Session) (pid : Nat) (u : UserId) (roomId : Option RoomId) :
    Renews hub (handleRoomJoin hub session pid u roomId o).hub := by
  unfold handleRoomJoin
  split
  · exact .refl hub
  split
  · exact .refl hub
  split
  · exact .refl hub
  rename_i added
  refine (Renews.addParticipant added).trans ?_
  split <;> exact .of_rooms rfl

theorem runZombieReaper_renews (nowMs : Nat) : Renews hub (runZombieReaper hub nowMs).1 := by
  have reaped : Renews hub (hub.reapZombies nowMs zombieTimeoutMs).1 :=
    @reapZombies_keeps (Renews hub)
      (fun _ _ _ _ _ done removed => done.trans (.removeParticipant removed)) hub nowMs
      zombieTimeoutMs (.refl hub)
  refine reaped.trans (.of_rooms ?_)
  rw [runZombieReaper, announceReaped_hub]

theorem flushMetrics_renews : Renews hub (flushMetrics hub) := by
  refine flushMetrics_related Renews.refl Renews.trans (fun hub r => ?_) hub
  unfold flushRoom
  split
  · exact .refl hub
  · exact .of_modify rfl fun room _ => .emptied _

theorem dispatch_renews (session : Session) (pid : Nat) (req : Request) :
    Renews hub (dispatch hub session pid req o).hub := by
  unfold dispatch
  split
  · unfold handleHeartbeat
    split
    · exact .of_rooms rfl
    · exact .refl hub
  · exact .refl hub
  · exact .refl hub
  · rename_i d _ _
    cases d with
    | none => exact .refl hub
    | some req => exact .create hub _ _ _ _ _ _ _ _
  · exact handleRoomJoin_renews hub o session pid _ _
  · exact handleRoomLeave_renews hub o session pid _ _
  · exact .of_rooms rfl
  · exact onFloor_renews hub session _ _
  · exact onFloor_renews hub session _ _
  · exact onFloor_renews hub session _ _
  · exact .of_rooms rfl

end Handlers

section Steps
variable (hmacSha1 : Bytes → Bytes → Bytes) (crc32 : Bytes → UInt32)

theorem step_renews (s : Server) (e : Servers.Event) :
    Renews s.hub (Servers.step hmacSha1 crc32 s e).hub := by
  cases e with
  | defaultRoom name capacity mode simulcast o => exact .create s.hub _ _ _ _ _ _ _ _
  | connect => exact .refl s.hub
  | request conn pid req o =>
    simp only [Servers.step, Servers.request]
    split
    · exact .refl s.hub
    · exact dispatch_renews s.hub o _ pid req
  | close conn o =>
    simp only [Servers.step, Servers.close]
    split
    · exact .refl s.hub
    · exact cleanup_renews s.hub o _
  | floorTimer r o =>
    simp only [Servers.step, push, runFloorTimer]
    split
    · exact .refl s.hub
    split
    · exact .withPtt s.hub r _ _
    · exact .refl s.hub
  | reaper nowMs => exact runZombieReaper_renews s.hub nowMs
  | metricsFlush => exact flushMetrics_renews s.hub
  | stun remote buf nowMs dtlsHas =>
    simp only [Servers.step, StunLatch.handleStun_hub]
    split
    · exact .refl s.hub
    · exact .of_modify rfl fun room _ => .latched _ _ _ _
  | srtpKeys p pc => exact .of_rooms rfl
  | rtp remote buf o =>
    rcases handleSrtp_cases s.hub remote buf o with
      dropped | ⟨sender, touched⟩ | ⟨sender, r, room, _, _, _, relayed⟩
    · exact .of_rooms (by simp only [Servers.step, dropped])
    · exact .of_rooms (by simp only [Servers.step, touched]; rfl)
    · simp only [Servers.step, relayed]
      rw [relayRtp_hub]
      exact .withPtt (s.hub.touch sender o.nowMs) r _ _
  | mbcp remote subtype touchMs o =>
    simp only [Servers.step, push, handleMbcpFrom]
    split
    · exact .refl s.hub
    split
    · exact .of_rooms rfl
    split
    · exact .withPtt (s.hub.touch _ touchMs) _ _ _
    · exact .of_rooms rfl
  | nack remote block touchMs nowMs visit =>
    rcases handleSubscribeNack_cases s.hub remote block touchMs nowMs visit with
      dropped | ⟨subscriber, touched⟩ | ⟨subscriber, r, room, _, _, answered⟩
    · exact .of_rooms (by simp only [Servers.step, dropped])
    · exact .of_rooms (by simp only [Servers.step, touched]; rfl)
    · exact .of_rooms (by simp only [Servers.step, answered]; rfl)
  | egress p => exact .of_rooms rfl

theorem counted_renews (c : Counted) (e : SendCounts.Event) :
    Renews c.server.hub (SendCounts.step hmacSha1 crc32 c e).server.hub := by
  cases e with
  | server e now => exact step_renews hmacSha1 crc32 c.server e
  | publishRtcp remote buf touchMs draw =>
    rcases @SenderReports.processPublishRtcp_spec c.server.hub remote buf touchMs draw (sentBy c) with
      same | ⟨_, _, _, _, heap, _, next, _⟩
    · exact .of_rooms (by simp only [SendCounts.step, SenderReports.step, same])
    · exact .of_rooms (by simp only [SendCounts.step, SenderReports.step, next])

variable (shard : SocketAddr → WorkerId)

/-- What holds of a room when it is made, and is kept by every move of a room, holds of every room
    that the server keeps. -/
theorem run_rooms {inv : RoomId → Room → Prop} (made : ∀ {r room}, Made r room → inv r room)
    (each : ∀ {r room next}, Move room next → inv r room → inv r next)
    (es : List DtlsTransport.Event) :
    ∀ r room, (run (DtlsTransport.step hmacSha1 crc32 shard) Transport.new es).hub.rooms.lookup r =
      some room → inv r room := by
  have along : ∀ {r before after}, Evolves before after → inv r before → inv r after := by
    intro r before after moves start
    induction moves with
    | refl => exact start
    | tail _ move ih => exact each move ih
  refine @run_invariant _ _ (DtlsTransport.step hmacSha1 crc32 shard)
    (fun s => ∀ r room, s.hub.rooms.lookup r = some room → inv r room) (fun s e kept => ?_)
    Transport.new (fun r room found => by simp [Transport.new, Transport.hub, start, RoomHub.new,
      Server.new] at found) es
  refine @lift_invariant _ _ _ _ _ _ Transport.counted _ (transport_tells hmacSha1 crc32 shard)
    (fun c => ∀ r room, c.server.hub.rooms.lookup r = some room → inv r room) (fun c e kept => ?_)
    s e kept
  intro r after found
  obtain ⟨before, held | new, moves⟩ := counted_renews hmacSha1 crc32 c e r after found
  · exact along moves (kept r before held)
  · exact along moves (made new)

end Steps

/-- What a room says of itself is so: it is the one under its id, and no more participants are in
    it than its capacity, which the server limits. -/
structure Fits (r : RoomId) (room : Room) : Prop where
  id : room.id = r
  limited : room.capacity ≤ roomMaxCapacity
  seats : room.participants.keys.length ≤ room.capacity
  plain : room.mode = .ptt → room.simulcastEnabled = false

theorem made_fits {r : RoomId} {room : Room} (made : Made r room) : Fits r room := by
  obtain ⟨name, capacity, mode, createdAt, simulcast, a, v, rfl⟩ := made
  refine ⟨rfl, Nat.min_le_right _ _, Nat.zero_le _, fun ptt => ?_⟩
  simp only [Room.new] at ptt ⊢
  rw [if_pos ptt]

theorem Move.fits {r : RoomId} {room next : Room} (move : Move room next) (fits : Fits r room) :
    Fits r next := by
  cases move with
  | entered p who now space absent =>
    refine ⟨fits.id, fits.limited, ?_, fits.plain⟩
    simp only [Room.enter, AList.keys_insert, List.length_cons]
    exact Nat.lt_of_le_of_lt List.length_erase_le space
  | left u who s =>
    refine ⟨fits.id, fits.limited, ?_, fits.plain⟩
    simp only [Room.leave, AList.keys_erase]
    exact Nat.le_trans List.length_erase_le fits.seats
  | latched old p pc addr => exact ⟨fits.id, fits.limited, fits.seats, fits.plain⟩
  | worked ptt => exact ⟨fits.id, fits.limited, fits.seats, fits.plain⟩
  | emptied activeSince => exact ⟨fits.id, fits.limited, fits.seats, fits.plain⟩

theorem Evolves.id {room next : Room} (evolves : Evolves room next) : next.id = room.id := by
  induction evolves with
  | refl => rfl
  | tail _ move ih =>
    refine Eq.trans ?_ ih
    cases move <;> rfl

/-- Every room that the server keeps fits, whatever was asked of it. -/
theorem rooms_within_capacity (hmacSha1 : Bytes → Bytes → Bytes) (crc32 : Bytes → UInt32)
    (shard : SocketAddr → WorkerId) (es : List DtlsTransport.Event) (r : RoomId) (room : Room)
    (held : (run (DtlsTransport.step hmacSha1 crc32 shard) Transport.new es).hub.rooms.lookup r =
      some room) : Fits r room :=
  run_rooms hmacSha1 crc32 shard made_fits Move.fits es r room held

section Samples

/-- Two want to sit in a room for one. -/
def crowd : List DtlsTransport.Event :=
  signals [.defaultRoom "room" (some 1) .ptt true (sampleOracle 0),
    .connect, identifyAs 0 "ann", .request 0 2 (.roomJoin (some "room")) (sampleOracle 1),
    .connect, identifyAs 1 "bob", .request 1 2 (.roomJoin (some "room")) (sampleOracle 2)]

def crowded : Transport := run (DtlsTransport.step sampleHmac (fun _ => 0) fun _ => 0) .new crowd

theorem full_room_fits : (1, .ofError opRoomJoin 2 .roomFull) ∈ crowded.counted.server.replies ∧
    ∃ room, crowded.hub.rooms.lookup "room" = some room ∧ room.participants.keys = ["ann"] ∧
      Fits "room" room := by
  have held : (crowded.hub.rooms.lookup "room").map (·.participants.keys) = some ["ann"] := by
    decide +kernel
  obtain ⟨room, held, seats⟩ := Option.map_eq_some_iff.mp held
  exact ⟨by decide +kernel, room, held, seats,
    rooms_within_capacity sampleHmac (fun _ => 0) (fun _ => 0) crowd "room" room held⟩

end Samples
end RoomMoves
