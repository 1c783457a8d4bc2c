import OxlensSfu.RoomSteps
import OxlensSfu.MediaFrames
import OxlensSfu.Deliveries

/-
Whoever a datagram is attributed to sits in the room at that moment, under its own user id.
The invariant survives address collisions: an entry of the address index of a room always
points at a participant of the room that is latched there.
-/
namespace Seating
open WireBytes SfuConfig FloorControl PttRewriter KeyedMap Participants RoomHubs RoomHub
open Signaling FloorHandlers RoomHandlers TrackHandlers Ingress Servers
open Membership AddressIndex MemberFrames MediaFrames Deliveries RoomSteps GuardedRun

structure Seated (hub : RoomHub) : Prop where
  sound : WellFormed hub
  named : ∀ {r u p}, Member hub r u p → (hub.arcs p).userId = u
  addressed : ∀ {r room a p pc}, hub.rooms.lookup r = some room → room.byAddr a = some (p, pc) →
    (∃ u, Member hub r u p) ∧ (hub.heap p).address pc = some a

/-- The sender of a datagram is a current participant of the room. -/
theorem Seated.sender {hub : RoomHub} (seated : Seated hub) {a : SocketAddr} {p : Ptr}
    {pc : PcType} {r : RoomId} (found : hub.findByAddr a = some (p, pc, r)) :
    Member hub r (hub.arcs p).userId p := by
  obtain ⟨_, room, held, entry⟩ := findByAddr_iff.mp found
  obtain ⟨u, here⟩ := (seated.addressed held entry).1
  rw [seated.named here]
  exact here

theorem new_seated : Seated RoomHub.new where
  sound := new_wellFormed
  named here := absurd here (not_member_new _ _ _)
  addressed found := by simp [RoomHub.new] at found

def addresses (s : ParticipantState) : PcType → Option SocketAddr := s.address

/-- A room is seated as before, or new. -/
def SameSeats (hub next : RoomHub) : Prop :=
  ∀ r after, next.rooms.lookup r = some after →
    (∃ before, hub.rooms.lookup r = some before ∧ seats after = seats before) ∨
      seats after = (∅, (fun _ => none), fun _ => none)

section Frames
variable {hub next : RoomHub}

theorem sameSeats_of_changes {work : RoomId → Room → PttState → Prop}
    (changes : Changes work False hub next) : SameSeats hub next := by
  intro r after found
  obtain ⟨before, held, _, _, _, never | same⟩ := changes r after found
  · exact never.elim
  · exact .inl ⟨before, held, same⟩

theorem sameSeats_of_creates (creates : Creates hub next) : SameSeats hub next := by
  obtain ⟨id, name, capacity, mode, createdAt, simulcast, a, v, rfl⟩ := creates
  intro r after found
  rcases create_found found with rfl | ⟨_, held⟩
  · exact .inr rfl
  · exact .inl ⟨after, held, rfl⟩

/-- Where the seats are the same, so is everything that is read off them. -/
theorem Seated.frame (seated : Seated hub) (same : SameSeats hub next)
    (arcs : next.arcs = hub.arcs) (nextPtr : next.nextPtr = hub.nextPtr)
    (latched : Shows addresses hub.heap next.heap) : Seated next := by
  have back : ∀ {r u p}, Member next r u p → Member hub r u p := by
    intro r u p seats
    obtain ⟨after, found, here⟩ := seats
    rcases same r after found with ⟨before, held, kept⟩ | vacant
    · simp only [seats, Prod.mk.injEq] at kept
      exact ⟨before, held, by rw [← kept.1]; exact here⟩
    · simp only [seats, Prod.mk.injEq] at vacant
      simp [vacant.1] at here
  have forth : ∀ {r after before}, next.rooms.lookup r = some after →
      hub.rooms.lookup r = some before → seats after = seats before → ∀ {u p},
      Member hub r u p → Member next r u p := by
    intro r after before found held kept u p member
    have here := member.lookup held
    simp only [seats, Prod.mk.injEq] at kept
    exact ⟨after, found, by rw [kept.1]; exact here⟩
  refine ⟨⟨fun here => ?_, fun here there => seated.sound.once (back here) (back there), ?_⟩,
    fun here => ?_, ?_⟩
  · rw [nextPtr]
    exact seated.sound.allocated (back here)
  · intro r after f p pc found entry
    rcases same r after found with ⟨before, held, kept⟩ | vacant
    · have fields := kept
      simp only [seats, Prod.mk.injEq] at fields
      rw [fields.2.1] at entry
      obtain ⟨⟨u, here⟩, frag⟩ := seated.sound.ufrags held entry
      exact ⟨⟨u, forth found held kept here⟩, by rw [arcs]; exact frag⟩
    · simp only [seats, Prod.mk.injEq] at vacant
      simp [vacant.2.1] at entry
  · rw [arcs]
    exact seated.named (back here)
  · intro r after a p pc found entry
    rcases same r after found with ⟨before, held, kept⟩ | vacant
    · have fields := kept
      simp only [seats, Prod.mk.injEq] at fields
      rw [fields.2.2] at entry
      obtain ⟨⟨u, here⟩, at_⟩ := seated.addressed held entry
      exact ⟨⟨u, forth found held kept here⟩, (congrFun (latched p) pc).trans at_⟩
    · simp only [seats, Prod.mk.injEq] at vacant
      simp [vacant.2.2] at entry

theorem Seated.of_heap (seated : Seated hub) {heap : Heap} (latched : Shows addresses hub.heap heap) :
    Seated { hub with heap := heap } :=
  seated.frame (fun _ after found => .inl ⟨after, found, rfl⟩) rfl rfl latched

end Frames

section Moves
variable {hub next : RoomHub} {r : RoomId} {u : UserId} {p : Ptr}

theorem removeParticipant_seated (removed : hub.removeParticipant r u = .ok (next, p))
    (seated : Seated hub) : Seated next := by
  have stays := member_removeParticipant removed
  obtain ⟨arcs, heap, _, leaver⟩ := removeParticipant_fixed removed
  refine ⟨removeParticipant_wellFormed removed seated.sound, fun here => ?_, ?_⟩
  · rw [arcs]
    exact seated.named ((stays _ _ _).mp here).1
  · intro r' room a q pc found entry
    rw [removeParticipant_lookup removed] at found
    rw [heap]
    by_cases same : r' = r
    · subst same
      rw [if_pos rfl, Option.map_eq_some_iff] at found
      obtain ⟨room, held, rfl⟩ := found
      obtain ⟨entry, free⟩ := forget_both.mp entry
      obtain ⟨⟨u', here⟩, at_⟩ := seated.addressed held entry
      refine ⟨⟨u', (stays _ _ _).mpr ⟨here, ?_⟩⟩, at_⟩
      rintro ⟨_, rfl⟩
      rw [member_unique here leaver] at at_
      exact free pc at_
    · rw [if_neg same] at found
      obtain ⟨⟨u', here⟩, at_⟩ := seated.addressed found entry
      exact ⟨⟨u', (stays _ _ _).mpr ⟨here, fun both => same both.1⟩⟩, at_⟩

theorem addParticipant_seated {who : Participant} {now : Nat}
    (added : hub.addParticipant r who now = .ok (next, p)) (seated : Seated hub) :
    Seated next := by
  have grows := member_addParticipant added
  have old : ∀ {r' u' q}, Member hub r' u' q → q ≠ hub.nextPtr := fun here =>
    Nat.ne_of_lt (seated.sound.allocated here)
  have lookups := addParticipant_lookup added
  have sound := addParticipant_wellFormed added seated.sound
  obtain ⟨room, _, _, _, _, shape⟩ := addParticipant_ok.mp added
  have arcs : next.arcs = Function.update hub.arcs hub.nextPtr who := by rw [shape]; rfl
  have heap : next.heap = Function.update hub.heap hub.nextPtr (.new who.joinedAt) := by
    rw [shape]
    rfl
  have carry : ∀ {r' before a q pc}, hub.rooms.lookup r' = some before →
      before.byAddr a = some (q, pc) → (∃ u', Member next r' u' q) ∧
        (next.heap q).address pc = some a := by
    intro r' before a q pc held entry
    obtain ⟨⟨u', here⟩, at_⟩ := seated.addressed held entry
    refine ⟨⟨u', (grows _ _ _).mpr (.inl here)⟩, ?_⟩
    rw [heap, Function.update_of_ne (old here)]
    exact at_
  refine ⟨sound, fun here => ?_, fun {r' after a q pc} found entry => ?_⟩
  · rcases (grows _ _ _).mp here with before | ⟨_, rfl, rfl⟩
    · rw [arcs, Function.update_of_ne (old before)]
      exact seated.named before
    · rw [arcs, Function.update_self]
  · rw [lookups] at found
    split at found
    · rename_i same
      subst same
      obtain ⟨before, held, rfl⟩ := Option.map_eq_some_iff.mp found
      exact carry held entry
    · exact carry found entry

/-- A latch, even at an address that another session has. -/
theorem latchSession_seated (seated : Seated hub) {pc : PcType} (here : Member hub r u p)
    (addr : SocketAddr) : Seated (hub.latchSession p pc r addr) := by
  have same := latchSession_same hub p pc r addr
  refine ⟨same.wellFormed seated.sound, fun there => seated.named (same.member there), ?_⟩
  intro r' room a q pc' found entry
  rw [latched_room] at found
  rw [latched_address]
  -- An entry from before points at another session than the one that moves.
  have kept : ∀ {before}, hub.rooms.lookup r' = some before → before.byAddr a = some (q, pc') →
      (r' = r → (hub.heap p).address pc ≠ some a) →
      (∃ u', Member (hub.latchSession p pc r addr) r' u' q) ∧
        (if (q, pc') = (p, pc) then some addr else (hub.heap q).address pc') = some a := by
    intro before held entry apart
    obtain ⟨⟨u', there⟩, at_⟩ := seated.addressed held entry
    refine ⟨⟨u', (same.member_iff _ _ _).mpr there⟩, ?_⟩
    rw [if_neg]
    · exact at_
    · intro session
      simp only [Prod.mk.injEq] at session
      obtain ⟨rfl, rfl⟩ := session
      exact apart (seated.sound.once there here).1 at_
  by_cases room_ : r' = r
  · subst room_
    rw [if_pos rfl] at found
    obtain ⟨before, held, rfl⟩ := Option.map_eq_some_iff.mp found
    rw [latchIndex_byAddr] at entry
    split at entry
    · rename_i at_
      simp only [Option.some.injEq, Prod.mk.injEq] at entry
      obtain ⟨rfl, rfl⟩ := entry
      exact ⟨⟨u, (same.member_iff _ _ _).mpr here⟩, by rw [if_pos rfl, at_]⟩
    · split at entry
      · simp at entry
      · rename_i apart
        exact kept held entry fun _ => apart
  · rw [if_neg room_] at found
    exact kept found entry fun other => absurd other room_

end Moves

section Addresses

theorem addresses_trySend (s : ParticipantState) (pkt : EgressPacket) :
    addresses (s.trySend pkt) = addresses s := view_trySend (fun _ _ => rfl) s pkt

theorem addresses_blind : MediaBlind addresses where
  keyframe := view_requestKeyframe fun _ _ => rfl
  drawn := view_ensure fun _ _ => rfl
  layers _ _ := rfl

theorem addresses_counters : CountersBlind addresses where
  number _ _ := rfl
  budget _ _ := rfl
  silence _ _ := rfl

theorem addresses_of_core {s t : ParticipantState} (same : core s = core t) :
    addresses s = addresses t := by
  simp only [core, Prod.mk.injEq] at same
  funext pc
  cases pc with
  | publish => exact congrArg SessionState.address same.1
  | subscribe => exact congrArg SessionState.address same.2.1

theorem addresses_delivers {h h' : Heap} {media : List (List Ptr × Bytes)}
    (delivers : Delivers h h' media) : Shows addresses h h' :=
  delivers.shows (fun _ _ => addresses_of_core) addresses_trySend

theorem addresses_touch (hub : RoomHub) (p : Ptr) (ts : Nat) :
    Shows addresses hub.heap (hub.touch p ts).heap :=
  addresses_delivers (touch_serves hub p ts).delivers

theorem addresses_stats (s : ParticipantState) (hdr : RtpPacket.RtpHeader) (p : Bytes) :
    addresses (detectGap (collectRtpStats s hdr p) hdr) = addresses s :=
  (view_detectGap addresses_blind (fun _ _ _ => rfl) _ hdr).trans
    (view_collectRtpStats (fun _ _ => rfl) s hdr p)

theorem handleSrtp_addresses (hub : RoomHub) (remote : SocketAddr) (buf : Bytes) (o : Oracle) :
    Shows addresses hub.heap (handleSrtp hub remote buf o).hub.heap := by
  rcases handleSrtp_cases hub remote buf o with
    dropped | ⟨sender, touched⟩ | ⟨sender, r, room, _, _, _, relayed⟩
  · rw [dropped]
    exact .refl addresses hub.heap
  · rw [touched]
    exact addresses_touch hub sender o.nowMs
  · rw [relayed]
    refine (addresses_touch hub sender o.nowMs).trans fun q => ?_
    refine (relayRtp_at (hub.touch sender o.nowMs) r room sender buf o addresses_blind
      fun pkt => .inr fun s => addresses_trySend s pkt).trans (mutate_at fun _ => ?_)
    exact addresses_stats _ _ _

theorem handleSubscribeNack_addresses (hub : RoomHub) (remote : SocketAddr) (block : Bytes)
    (touchMs nowMs : Nat) (visit : List UserId) :
    Shows addresses hub.heap
      (handleSubscribeNack hub remote block touchMs nowMs visit).1.heap := by
  rcases handleSubscribeNack_cases hub remote block touchMs nowMs visit with
    dropped | ⟨subscriber, touched⟩ | ⟨subscriber, r, room, _, _, answered⟩
  · rw [dropped]
    exact .refl addresses hub.heap
  · rw [touched]
    exact addresses_touch hub subscriber touchMs
  · rw [answered]
    refine (addresses_touch hub subscriber touchMs).trans fun q => ?_
    have anything : RtxTracks room (fun _ => True) (hub.touch subscriber touchMs).heap :=
      fun _ _ _ _ _ _ => trivial
    exact handleNackBlock_at hub.arcs room visit subscriber addresses_counters addresses_blind
      (fun _ _ _ _ _ s => addresses_trySend s _) _ anything block nowMs

end Addresses

section Steps
variable (hmacSha1 : Bytes → Bytes → Bytes) (crc32 : Bytes → UInt32) {s : Server} {e : Event}

/-- An event that moves nobody builds nobody. -/
theorem step_fixed (still : ¬ Moves e) :
    (Servers.step hmacSha1 crc32 s e).hub.arcs = s.hub.arcs ∧
      (Servers.step hmacSha1 crc32 s e).hub.nextPtr = s.hub.nextPtr := by
  cases step_kind hmacSha1 crc32 s e with
  | request conn pid req o =>
    simp only [Servers.step, Servers.request]
    split
    · exact ⟨rfl, rfl⟩
    rename_i session here
    have outcome := dispatch_outcome s.hub session pid o req
    revert outcome
    generalize (dispatch s.hub session pid req o).hub = next
    generalize (dispatch s.hub session pid req o).session = moved
    intro outcome
    cases outcome with
    | stays keeps _ _ _ => exact ⟨keeps.arcs, keeps.nextPtr⟩
    | renamed d => exact ⟨rfl, rfl⟩
    | joined _ _ _ => exact absurd trivial still
    | left _ _ removes => exact ⟨removes.arcs, removes.nextPtr⟩
  | close conn o => exact absurd trivial still
  | connect => exact ⟨rfl, rfl⟩
  | quiet keeps _ _ => exact ⟨keeps.arcs, keeps.nextPtr⟩

theorem step_addresses (still : ¬ Moves e) :
    Shows addresses s.hub.heap (Servers.step hmacSha1 crc32 s e).hub.heap := by
  by_cases own : OwnWay e
  · cases e with
    | stun remote buf nowMs dtlsHas => exact absurd trivial still
    | srtpKeys p pc =>
      have keyed : addresses ((s.hub.heap p).installSrtpKeys pc) = addresses (s.hub.heap p) := by
        funext pc'
        cases pc <;> cases pc' <;> rfl
      have shown : Shows addresses s.hub.heap
          (mutate s.hub.heap p fun st => st.installSrtpKeys pc) := .mutate keyed
      exact shown
    | rtp remote buf o => exact handleSrtp_addresses s.hub remote buf o
    | nack remote block touchMs nowMs visit =>
      exact handleSubscribeNack_addresses s.hub remote block touchMs nowMs visit
    | egress p =>
      have popped : Shows addresses s.hub.heap
          (mutate s.hub.heap p fun st => { st with egress := st.egress.tail }) := .mutate rfl
      exact popped
    | _ => exact own.elim
  · rcases step_serves hmacSha1 crc32 s e own with serves | ⟨_, builds⟩
    · exact addresses_delivers serves.delivers
    · have fixed := (step_fixed hmacSha1 crc32 still (s := s)).2
      rw [builds.nextPtr] at fixed
      exact absurd fixed (Nat.succ_ne_self _)

theorem quiet_seated (seated : Seated s.hub) (still : ¬ Moves e) :
    Seated (Servers.step hmacSha1 crc32 s e).hub := by
  obtain ⟨arcs, nextPtr⟩ := step_fixed hmacSha1 crc32 still (s := s)
  refine seated.frame ?_ arcs nextPtr (step_addresses hmacSha1 crc32 still)
  rcases step_changes hmacSha1 crc32 s e with changes | creates
  · exact sameSeats_of_changes fun r after found => by
      obtain ⟨before, held, mode, simulcast, worked, moved | same⟩ := changes r after found
      · exact absurd moved still
      · exact ⟨before, held, mode, simulcast, worked, .inr same⟩
  · exact sameSeats_of_creates creates

end Steps

section Moving
variable {hub : RoomHub} (o : Oracle)

theorem departOrStay_seated (seated : Seated hub) (r : RoomId) (u : UserId) :
    Seated (departOrStay hub r u o).1 := by
  have changes : Changes (fun _ _ _ => True) False hub (departOrStay hub r u o).1 :=
    departOrStay_changes hub r u o fun _ _ _ => trivial
  have serves := departOrStay_serves hub r u o
  exact seated.frame (sameSeats_of_changes changes) (departOrStay_same r u o).arcs serves.nextPtr
    (addresses_delivers serves.delivers)

theorem purge_addresses (room : Room) (heap : Heap) (u : UserId) :
    Shows addresses heap (purgeSubscribeLayers room heap u) :=
  addresses_delivers (.of_same (purgeSubscribeLayers_cores room heap u))

theorem handleRoomLeave_seated (seated : Seated hub) (session : Session) (pid : Nat) (u : UserId)
    (r : RoomId) : Seated (handleRoomLeave hub session pid u (some r) o).hub := by
  have departed := departOrStay_seated o seated r u
  simp only [handleRoomLeave]
  split
  · exact departed
  · rename_i removed p result
    have gone := removeParticipant_seated result departed
    unfold announceLeave
    split
    · exact gone.of_heap (purge_addresses _ _ _)
    · exact gone

theorem cleanup_seated (seated : Seated hub) (session : Session) :
    Seated (cleanup hub session o).1 := by
  unfold cleanup
  split
  · rename_i r u _ _
    have told : Seated (cleanupOrStay hub r u o).1 := by
      unfold cleanupOrStay
      split
      · rename_i room held
        have departed := departOrStay_seated o seated r u
        simp only [departOrStay, held] at departed
        exact departed.of_heap (purge_addresses room _ u)
      · exact seated
    unfold removeOrLog
    split
    · rename_i result
      exact removeParticipant_seated result told
    · exact told
  · exact seated

theorem handleRoomJoin_seated (seated : Seated hub) (session : Session) (pid : Nat) (u : UserId)
    (roomId : Option RoomId) : Seated (handleRoomJoin hub session pid u roomId o).hub := by
  unfold handleRoomJoin
  split
  · exact seated
  split
  · exact seated
  split
  · exact seated
  rename_i r _ _ _ _ joined p added
  have entered := addParticipant_seated added seated
  split
  · rename_i room _
    have announced : SameCores joined.heap (collectSubscribeTracks joined.arcs room
        (purgeSubscribeLayers room joined.heap u) o.vssrc u).1 :=
      (purgeSubscribeLayers_cores room joined.heap u).trans (simulcastReplace_cores room _ _ _)
    exact entered.of_heap (addresses_delivers (.of_same announced))
  · exact entered

theorem runZombieReaper_seated (seated : Seated hub) (nowMs : Nat) :
    Seated (runZombieReaper hub nowMs).1 := by
  have reaped : Seated (hub.reapZombies nowMs zombieTimeoutMs).1 :=
    reapZombies_keeps (fun _ _ _ _ _ held removed => removeParticipant_seated removed held) hub
      nowMs zombieTimeoutMs seated
  rw [runZombieReaper, announceReaped_hub]
  apply reaped.of_heap
  apply Shows.fold (fun state : RoomHub × Outbox => state.1.heap)
  intro state zombie
  simp only [announceReaped]
  split <;> exact Shows.mutate rfl

theorem handleStun_seated (seated : Seated hub) (hmacSha1 : Bytes → Bytes → Bytes)
    (crc32 : Bytes → UInt32) (buf : Bytes) (remote : SocketAddr) (now : Nat) (dtlsHas : Bool) :
    Seated (StunLatch.handleStun hmacSha1 crc32 hub buf remote now dtlsHas).1 := by
  rw [StunLatch.handleStun_hub]
  split
  · exact seated
  · rename_i p pc r named
    obtain ⟨f, found⟩ := StunLatch.namedSession_ufrag named
    obtain ⟨u, here⟩ := findByUfrag_member seated.sound found
    exact (latchSession_seated seated here remote).of_heap
      (addresses_touch (hub.latchSession p pc r remote) p now)

end Moving

theorem step_seated (hmacSha1 : Bytes → Bytes → Bytes) (crc32 : Bytes → UInt32) (s : Server)
    (e : Event) (seated : Seated s.hub) : Seated (Servers.step hmacSha1 crc32 s e).hub := by
  by_cases moves : Moves e
  · cases e with
    | request conn pid req o =>
      simp only [Servers.step, Servers.request]
      split
      · exact seated
      rename_i session here
      cases user : session.userId with
      | none =>
        cases req with
        | roomJoin roomId => simpa only [dispatch, user] using seated
        | roomLeave roomId => simpa only [dispatch, user] using seated
        | _ => exact moves.elim
      | some u =>
        cases req with
        | roomJoin roomId =>
          simp only [dispatch, user]
          exact handleRoomJoin_seated o seated session pid u roomId
        | roomLeave roomId =>
          simp only [dispatch, user]
          cases roomId with
          | none => exact seated
          | some r => exact handleRoomLeave_seated o seated session pid u r
        | _ => exact moves.elim
    | close conn o =>
      simp only [Servers.step, Servers.close]
      split
      · exact seated
      · exact cleanup_seated o seated _
    | reaper nowMs => exact runZombieReaper_seated seated nowMs
    | stun remote buf nowMs dtlsHas =>
      exact handleStun_seated seated hmacSha1 crc32 buf remote nowMs dtlsHas
    | _ => exact moves.elim
  · exact quiet_seated hmacSha1 crc32 seated moves

/-- In every state of a run whoever a datagram is attributed to sits in the room. -/
theorem run_seated (hmacSha1 : Bytes → Bytes → Bytes) (crc32 : Bytes → UInt32)
    (es : List Event) : Seated (run (Servers.step hmacSha1 crc32) Server.new es).hub :=
  @run_invariant _ _ (Servers.step hmacSha1 crc32) (fun s => Seated s.hub)
    (step_seated hmacSha1 crc32) Server.new new_seated es

end Seating
