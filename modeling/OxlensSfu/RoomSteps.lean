import OxlensSfu.SpeakerAgreement
import OxlensSfu.MemberFrames

/-
What one event does to one room. The handlers are taken apart here once: an event leaves
the floor state of a room alone or puts the result of one floor handler there, and few
events move participants or addresses.
-/
namespace RoomSteps
open WireBytes SfuConfig FloorControl PttRewriter KeyedMap Participants RoomHubs RoomHub
open Signaling FloorHandlers RoomHandlers TrackHandlers Ingress Servers
open Membership SpeakerAgreement MemberFrames

/-- Who is in the room, and how the room finds them. -/
def seats (room : Room) :
    Table UserId Ptr × (Ufrag → Option (Ptr × PcType)) × (SocketAddr → Option (Ptr × PcType)) :=
  (room.participants, room.byUfrag, room.byAddr)

/-- The floor handler that an event runs on a room, and the floor state that it leaves. -/
inductive FloorWork (s : Server) : Event → RoomId → Room → PttState → Prop
  | request {conn session pid u r priority o room} (here : s.sessions conn = some session)
      (user : session.userId = some u) (ptt : room.mode = .ptt) :
      FloorWork s (.request conn pid (.floorRequest (some ⟨r, priority⟩)) o) r room
        (handleFloorRequest s.hub.arcs room s.hub.heap o.clk u pid priority o.nowMs).1.ptt
  | release {conn session pid u r o room} (here : s.sessions conn = some session)
      (user : session.userId = some u) (ptt : room.mode = .ptt) :
      FloorWork s (.request conn pid (.floorRelease (some r)) o) r room
        (handleFloorRelease s.hub.arcs room s.hub.heap o.clk u pid o.grantMs).1.ptt
  | ping {conn session pid u r o room} (here : s.sessions conn = some session)
      (user : session.userId = some u) :
      FloorWork s (.request conn pid (.floorPing (some r)) o) r room
        (handleFloorPing room s.hub.heap u pid o.nowMs).1.ptt
  | leave {conn session pid u r o room} (heap : Heap) (here : s.sessions conn = some session)
      (user : session.userId = some u) (ptt : room.mode = .ptt) :
      FloorWork s (.request conn pid (.roomLeave (some r)) o) r room
        (floorLeave s.hub.arcs room heap o.clk u o.grantMs).ptt
  | close {conn session u r o room} (heap : Heap) (here : s.sessions conn = some session)
      (at_ : session.currentRoom = some r) (user : session.userId = some u)
      (ptt : room.mode = .ptt) :
      FloorWork s (.close conn o) r room (floorLeave s.hub.arcs room heap o.clk u o.grantMs).ptt
  | timer {r o room} (ptt : room.mode = .ptt) :
      FloorWork s (.floorTimer r o) r room
        (floorTimerTick s.hub.arcs room s.hub.heap o.clk o.nowMs o.grantMs).ptt
  | mbcp {remote subtype touchMs sender pc r o room} (heap : Heap)
      (found : s.hub.findByAddr remote = some (sender, pc, r))
      (ready : mediaReady (s.hub.heap sender) pc = true) (ptt : room.mode = .ptt) :
      FloorWork s (.mbcp remote subtype touchMs o) r room
        (handleMbcp s.hub.arcs room heap o.clk sender subtype o.nowMs o.grantMs).ptt
  | relay {remote buf sender r o room}
      (found : s.hub.findByAddr remote = some (sender, .publish, r)) :
      FloorWork s (.rtp remote buf o) r room
        (prepareFanoutPayload room.mode room.toPttState (s.hub.arcs sender).userId
          (normalizePt (s.hub.heap sender).tracks buf).2
          (normalizePt (s.hub.heap sender).tracks buf).1 (o.clk 0)).1

/-- Every room was there before, in the same mode; its floor state is what it was or what
    `work` makes of it; and unless the event moves somebody, the seats are the same. -/
def Changes (work : RoomId → Room → PttState → Prop) (moves : Prop) (hub next : RoomHub) : Prop :=
  ∀ r after, next.rooms.lookup r = some after → ∃ before, hub.rooms.lookup r = some before ∧
    after.mode = before.mode ∧ after.simulcastEnabled = before.simulcastEnabled ∧
    (after.toPttState = before.toPttState ∨ work r before after.toPttState) ∧
    (moves ∨ seats after = seats before)

def noWork (_ : RoomId) (_ : Room) (_ : PttState) : Prop := False

namespace Changes
variable {work : RoomId → Room → PttState → Prop} {moves : Prop} {hub next last : RoomHub}

theorem of_rooms (rooms : next.rooms = hub.rooms) : Changes work moves hub next := by
  intro r after found
  rw [rooms] at found
  exact ⟨after, found, rfl, rfl, .inl rfl, .inr rfl⟩

theorem refl (hub : RoomHub) : Changes work moves hub hub := of_rooms rfl

/-- What follows is no floor work. -/
theorem before (first : Changes work moves hub next) (second : Changes noWork moves next last) :
    Changes work moves hub last := by
  intro r after found
  obtain ⟨mid, held, mode, simulcast, same | never, seated⟩ := second r after found
  · obtain ⟨start, held', mode', simulcast', worked, seated'⟩ := first r mid held
    refine ⟨start, held', mode.trans mode', simulcast.trans simulcast', by rw [same]; exact worked,
      ?_⟩
    rcases seated with moved | kept
    · exact .inl moved
    · exact seated'.imp id kept.trans
  · exact never.elim

theorem of_modify {r : RoomId} {f : Room → Room} (rooms : next.rooms = modify hub.rooms r f)
    (kept : ∀ room, hub.rooms.lookup r = some room →
      (f room).mode = room.mode ∧ (f room).simulcastEnabled = room.simulcastEnabled ∧
      ((f room).toPttState = room.toPttState ∨ work r room (f room).toPttState) ∧
      (moves ∨ seats (f room) = seats room)) : Changes work moves hub next := by
  intro r' after found
  rw [rooms, lookup_modify] at found
  split at found
  · rename_i here
    subst here
    obtain ⟨before, held, rfl⟩ := Option.map_eq_some_iff.mp found
    exact ⟨before, held, kept before held⟩
  · exact ⟨after, found, rfl, rfl, .inl rfl, .inr rfl⟩

/-- The result of a floor handler is put into a room. -/
theorem withPtt {r : RoomId} {room : Room} (held : hub.rooms.lookup r = some room) {ptt : PttState}
    (worked : work r room ptt) (heap : Heap) :
    Changes work moves hub (RoomHandlers.withPtt hub r ptt heap) := by
  refine of_modify rfl fun room' held' => ?_
  rw [held, Option.some.injEq] at held'
  subst held'
  exact ⟨rfl, rfl, .inr worked, .inr rfl⟩

theorem removeParticipant {r : RoomId} {u : UserId} {p : Ptr}
    (removed : hub.removeParticipant r u = .ok (next, p)) (allowed : moves) :
    Changes work moves hub next := by
  obtain ⟨room, held, _, rfl⟩ := removeParticipant_ok.mp removed
  refine of_modify rfl fun room' held' => ?_
  rw [held, Option.some.injEq] at held'
  subst held'
  exact ⟨rfl, rfl, .inl rfl, .inl allowed⟩

end Changes

/-- The events that move participants or addresses. -/
def Moves : Event → Prop
  | .request _ _ (.roomJoin _) _ | .request _ _ (.roomLeave _) _ | .close .. | .reaper _
  | .stun .. => True
  | _ => False

section Handlers
variable (hub : RoomHub) {work : RoomId → Room → PttState → Prop} {moves : Prop}

theorem onFloor_changes (session : Session) {found : Except Reply (RoomId × Room)}
    {handler : Room → FloorRun × Reply}
    (registered : ∀ r room, found = .ok (r, room) → hub.rooms.lookup r = some room)
    (worked : ∀ r room, found = .ok (r, room) → work r room (handler room).1.ptt) :
    Changes work moves hub (onFloor hub session found handler).hub := by
  cases result : found with
  | error reply => exact .refl hub
  | ok place => exact .withPtt (registered _ _ result) (worked _ _ result) _

section Departure
variable (r : RoomId) (u : UserId) (o : Oracle)

/-- Once the floor is given up, a leave changes no floor state any more. -/
theorem handleRoomLeave_rest (session : Session) (pid : Nat) (allowed : moves) :
    Changes noWork moves (departOrStay hub r u o).1
      (handleRoomLeave hub session pid u (some r) o).hub := by
  simp only [handleRoomLeave]
  split
  · exact .refl _
  · rename_i removed p result
    refine Changes.before (.removeParticipant result allowed) ?_
    unfold announceLeave
    split <;> exact .of_rooms rfl

theorem cleanup_rest {session : Session} (at_ : session.currentRoom = some r)
    (user : session.userId = some u) (allowed : moves) :
    Changes noWork moves (departOrStay hub r u o).1 (cleanup hub session o).1 := by
  have told : Changes noWork moves (departOrStay hub r u o).1 (cleanupOrStay hub r u o).1 := by
    unfold departOrStay cleanupOrStay
    split <;> exact .of_rooms rfl
  simp only [cleanup, at_, user]
  refine told.before ?_
  unfold removeOrLog
  split
  · rename_i result
    exact .removeParticipant result allowed
  · exact .refl _

variable (worked : ∀ room heap, room.mode = .ptt →
  work r room (floorLeave hub.arcs room heap o.clk u o.grantMs).ptt)

include worked

theorem departFloor_changes {room : Room} (held : hub.rooms.lookup r = some room) :
    Changes work moves hub (departFloor hub r room u o).1 := by
  unfold departFloor
  dsimp only
  by_cases ptt : room.mode = .ptt
  · rw [if_pos ptt]
    exact .withPtt held (worked room _ ptt) _
  · rw [if_neg ptt]
    exact .of_rooms rfl

theorem departOrStay_changes : Changes work moves hub (departOrStay hub r u o).1 := by
  unfold departOrStay
  split
  · rename_i held
    exact departFloor_changes hub r u o worked held
  · exact .refl hub

theorem handleRoomLeave_changes (session : Session) (pid : Nat) (allowed : moves) :
    Changes work moves hub (handleRoomLeave hub session pid u (some r) o).hub :=
  (departOrStay_changes hub r u o worked).before (handleRoomLeave_rest hub r u o session pid allowed)

theorem cleanup_changes {session : Session} (at_ : session.currentRoom = some r)
    (user : session.userId = some u) (allowed : moves) :
    Changes work moves hub (cleanup hub session o).1 :=
  (departOrStay_changes hub r u o worked).before (cleanup_rest hub r u o at_ user allowed)

end Departure

theorem handleRoomJoin_changes (session : Session) (pid : Nat) (u : UserId)
    (roomId : Option RoomId) (o : Oracle) (allowed : moves) :
    Changes work moves hub (handleRoomJoin hub session pid u roomId o).hub := by
  unfold handleRoomJoin
  split
  · exact .refl hub
  split
  · exact .refl hub
  split
  · exact .refl hub
  rename_i r _ _ _ _ joined p added
  have entered : Changes work moves hub joined := by
    obtain ⟨room, held, _, _, _, rfl⟩ := addParticipant_ok.mp added
    refine .of_modify rfl fun room' held' => ?_
    rw [held, Option.some.injEq] at held'
    subst held'
    exact ⟨rfl, rfl, .inl rfl, .inl allowed⟩
  refine entered.before ?_
  split <;> exact .of_rooms rfl

theorem runZombieReaper_changes (nowMs : Nat) (allowed : moves) :
    Changes work moves hub (runZombieReaper hub nowMs).1 := by
  have reaped : Changes work moves hub (hub.reapZombies nowMs zombieTimeoutMs).1 :=
    @reapZombies_keeps (Changes work moves hub)
      (fun _ _ _ _ _ done removed => done.before (.removeParticipant removed allowed)) hub nowMs
      zombieTimeoutMs (.refl hub)
  refine reaped.before (.of_rooms ?_)
  rw [runZombieReaper, announceReaped_hub]

theorem flushMetrics_changes : Changes work moves hub (flushMetrics hub) := by
  have flushed : Changes noWork moves hub (flushMetrics hub) := by
    refine flushMetrics_related Changes.refl Changes.before (fun hub r => ?_) hub
    unfold flushRoom
    split
    · exact .refl hub
    · exact .of_modify rfl fun room _ => ⟨rfl, rfl, .inl rfl, .inr rfl⟩
  exact (Changes.refl hub).before flushed

theorem handleStun_changes (hmacSha1 : Bytes → Bytes → Bytes) (crc32 : Bytes → UInt32)
    (buf : Bytes) (remote : SocketAddr) (now : Nat) (dtlsHas : Bool) (allowed : moves) :
    Changes work moves hub (StunLatch.handleStun hmacSha1 crc32 hub buf remote now dtlsHas).1 := by
  rw [StunLatch.handleStun_hub]
  split
  · exact .refl hub
  · exact .of_modify rfl fun room _ => ⟨rfl, rfl, .inl rfl, .inl allowed⟩

end Handlers

/-- A floor message reaches the room that it names. -/
theorem floorRoom_named {hub : RoomHub} {op : UInt16} {pid : Nat} {roomId : Option RoomId}
    {r : RoomId} {room : Room} (found : floorRoom hub op pid roomId = .ok (r, room)) :
    roomId = some r := by
  unfold floorRoom at found
  split at found
  · simp at found
  split at found
  · simp at found
  simp only [Except.ok.injEq, Prod.mk.injEq] at found
  rw [found.1]

theorem pttRoom_named {hub : RoomHub} {op : UInt16} {pid : Nat} {roomId : Option RoomId}
    {r : RoomId} {room : Room} (found : pttRoom hub op pid roomId = .ok (r, room)) :
    roomId = some r ∧ room.mode = .ptt := by
  unfold pttRoom at found
  split at found
  · simp at found
  rename_i held
  split at found
  · rename_i ptt
    simp only [Except.ok.injEq, Prod.mk.injEq] at found
    obtain ⟨rfl, rfl⟩ := found
    exact ⟨floorRoom_named held, ptt⟩
  · simp at found

section Step
variable {s : Server}

theorem handleMbcpFrom_changes (remote : SocketAddr) (subtype : UInt8) (touchMs : Nat)
    (o : Oracle) : Changes (FloorWork s (.mbcp remote subtype touchMs o)) False s.hub
      (handleMbcpFrom s.hub remote subtype touchMs o).1 := by
  unfold handleMbcpFrom
  split
  · exact .refl s.hub
  rename_i sender pc r found
  simp only
  split
  · exact .of_rooms rfl
  rename_i room held
  split
  · rename_i accepted
    exact @Changes.withPtt _ _ (s.hub.touch sender touchMs) _ _ held _
      (.mbcp _ found accepted.1 accepted.2) _
  · exact .of_rooms rfl

theorem runFloorTimer_changes (r : RoomId) (o : Oracle) :
    Changes (FloorWork s (.floorTimer r o)) False s.hub (runFloorTimer s.hub r o).1 := by
  unfold runFloorTimer
  split
  · exact .refl s.hub
  rename_i room held
  split
  · rename_i ptt
    exact .withPtt held (.timer ptt) _
  · exact .refl s.hub

theorem touch_tracks (hub : RoomHub) (p q : Ptr) (ts : Nat) :
    ((hub.touch p ts).heap q).tracks = (hub.heap q).tracks := by
  by_cases here : q = p
  · subst here
    simp only [RoomHub.touch, mutate_self]
    rfl
  · simp only [RoomHub.touch, mutate_ne _ here]

theorem handleSrtp_changes (remote : SocketAddr) (buf : Bytes) (o : Oracle) :
    Changes (FloorWork s (.rtp remote buf o)) False s.hub (handleSrtp s.hub remote buf o).hub := by
  rcases handleSrtp_cases s.hub remote buf o with
    dropped | ⟨sender, touched⟩ | ⟨sender, r, room, found, held, _, relayed⟩
  · rw [dropped]
    exact .refl s.hub
  · rw [touched]
    exact .of_rooms rfl
  · rw [relayed, relayRtp_hub, touch_tracks]
    exact @Changes.withPtt _ _ (s.hub.touch sender o.nowMs) _ _ held _ (.relay found) _

theorem handleSubscribeNack_changes (remote : SocketAddr) (block : Bytes) (touchMs nowMs : Nat)
    (visit : List UserId) {work : RoomId → Room → PttState → Prop} {moves : Prop} :
    Changes work moves s.hub (handleSubscribeNack s.hub remote block touchMs nowMs visit).1 := by
  rcases handleSubscribeNack_cases s.hub remote block touchMs nowMs visit with
    dropped | ⟨subscriber, touched⟩ | ⟨subscriber, r, room, _, _, answered⟩
  · rw [dropped]
    exact .refl s.hub
  · rw [touched]
    exact .of_rooms rfl
  · rw [answered]
    exact .of_rooms rfl

/-- The hub with one more room, which is empty and idle. -/
def Creates (hub next : RoomHub) : Prop :=
  ∃ id name capacity mode createdAt simulcast audioSsrc videoSsrc,
    next = hub.create id name capacity mode createdAt simulcast audioSsrc videoSsrc

theorem dispatch_changes {conn : ConnId} {session : Session} (here : s.sessions conn = some session)
    (pid : Nat) (req : Request) (o : Oracle) :
    Changes (FloorWork s (.request conn pid req o)) (Moves (.request conn pid req o)) s.hub
        (dispatch s.hub session pid req o).hub ∨
      Creates s.hub (dispatch s.hub session pid req o).hub := by
  have beat : ∀ {work : RoomId → Room → PttState → Prop} {moves : Prop},
      Changes work moves s.hub (handleHeartbeat s.hub session o.nowMs) := by
    intro work moves
    unfold handleHeartbeat
    split
    · exact .of_rooms rfl
    · exact .refl s.hub
  cases user : session.userId with
  | none =>
    left
    cases req <;> simp only [dispatch, user]
    case heartbeat => exact beat
    all_goals exact .refl s.hub
  | some u =>
    cases req <;> simp only [dispatch, user]
    case heartbeat => exact .inl beat
    case identify d => exact .inl (.refl s.hub)
    case roomCreate d =>
      cases d with
      | none => exact .inl (.refl s.hub)
      | some req => exact .inr ⟨_, _, _, _, _, _, _, _, rfl⟩
    case roomJoin roomId =>
      exact .inl (handleRoomJoin_changes s.hub session pid u roomId o trivial)
    case roomLeave roomId =>
      left
      cases roomId with
      | none => exact .refl s.hub
      | some r =>
        exact handleRoomLeave_changes s.hub r u o (fun _ heap ptt => .leave heap here user ptt)
          session pid trivial
    case publishTracks d => exact .inl (.of_rooms rfl)
    case floorRequest d =>
      left
      refine onFloor_changes s.hub session (fun _ _ => pttRoom_registered) fun r room found => ?_
      obtain ⟨named, ptt⟩ := pttRoom_named found
      cases d with
      | none => simp at named
      | some d =>
        obtain ⟨r', priority⟩ := d
        simp only [Option.map_some, Option.some.injEq] at named
        subst named
        exact .request here user ptt
    case floorRelease roomId =>
      left
      refine onFloor_changes s.hub session (fun _ _ => pttRoom_registered) fun r room found => ?_
      obtain ⟨rfl, ptt⟩ := pttRoom_named found
      exact .release here user ptt
    case floorPing roomId =>
      left
      refine onFloor_changes s.hub session (fun _ _ => floorRoom_registered) fun r room found => ?_
      obtain rfl := floorRoom_named found
      exact .ping here user
    case subscribeLayer targets => exact .inl (.of_rooms rfl)

end Step

section Run
variable (hmacSha1 : Bytes → Bytes → Bytes) (crc32 : Bytes → UInt32)

/-- Every event changes the rooms in this way, or makes a new one. -/
theorem step_changes (s : Server) (e : Event) :
    Changes (FloorWork s e) (Moves e) s.hub (Servers.step hmacSha1 crc32 s e).hub ∨
      Creates s.hub (Servers.step hmacSha1 crc32 s e).hub := by
  cases e with
  | request conn pid req o =>
    simp only [Servers.step, Servers.request]
    split
    · exact .inl (.refl s.hub)
    · rename_i session here
      exact dispatch_changes here pid req o
  | close conn o =>
    left
    simp only [Servers.step, Servers.close]
    split
    · exact .refl s.hub
    · rename_i session here
      cases at_ : session.currentRoom with
      | none => simpa [cleanup, at_, push] using Changes.refl s.hub
      | some r =>
        cases user : session.userId with
        | none => simpa [cleanup, at_, user, push] using Changes.refl s.hub
        | some u =>
          exact cleanup_changes s.hub r u o (fun _ heap ptt => .close heap here at_ user ptt) at_
            user trivial
  | defaultRoom name capacity mode simulcast o => exact .inr ⟨_, _, _, _, _, _, _, _, rfl⟩
  | connect => exact .inl (.refl s.hub)
  | floorTimer r o => exact .inl (runFloorTimer_changes r o)
  | reaper nowMs => exact .inl (runZombieReaper_changes s.hub nowMs trivial)
  | metricsFlush => exact .inl (flushMetrics_changes s.hub)
  | stun remote buf nowMs dtlsHas =>
    exact .inl (handleStun_changes s.hub hmacSha1 crc32 buf remote nowMs dtlsHas trivial)
  | srtpKeys p pc => exact .inl (.of_rooms rfl)
  | rtp remote buf o => exact .inl (handleSrtp_changes remote buf o)
  | mbcp remote subtype touchMs o => exact .inl (handleMbcpFrom_changes remote subtype touchMs o)
  | nack remote block touchMs nowMs visit =>
    exact .inl (handleSubscribeNack_changes remote block touchMs nowMs visit)
  | egress p => exact .inl (.of_rooms rfl)

end Run

end RoomSteps
