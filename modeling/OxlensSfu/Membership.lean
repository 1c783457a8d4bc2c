import OxlensSfu.RoomHub
import OxlensSfu.GuardedRun

/-
Who is where: the participants reachable through the rooms of the hub, and what
each operation of the hub does to them.
-/
namespace Membership
open WireBytes SfuConfig FloorControl PttRewriter KeyedMap Participants RoomHubs RoomHub

/-- The participant behind `p` is registered under `userId` in the room. -/
def Member (hub : RoomHub) (roomId : RoomId) (userId : UserId) (p : Ptr) : Prop :=
  ∃ room, hub.rooms.lookup roomId = some room ∧ room.participants.lookup userId = some p

/-- Handles are built before they are used, each stands in one place, and a room's
    ufrag index leads to sessions of its participants. -/
structure WellFormed (hub : RoomHub) : Prop where
  allocated : ∀ {r u p}, Member hub r u p → p < hub.nextPtr
  once : ∀ {r u r' u' p}, Member hub r u p → Member hub r' u' p → r = r' ∧ u = u'
  ufrags : ∀ {r room f p pc}, hub.rooms.lookup r = some room → room.byUfrag f = some (p, pc) →
    (∃ u, Member hub r u p) ∧ ((hub.arcs p).ice pc).ufrag = f

theorem get_ok {hub : RoomHub} {r : RoomId} {room : Room} :
    hub.get r = .ok room ↔ hub.rooms.lookup r = some room := by
  unfold RoomHub.get
  split <;> simp_all

theorem not_registered {hub : RoomHub} {r : RoomId} {e : LightError}
    (missing : hub.get r = .error e) (room : Room) : hub.rooms.lookup r ≠ some room := by
  intro found
  rw [get_ok.mpr found] at missing
  simp at missing

theorem member_unique {hub : RoomHub} {r : RoomId} {u : UserId} {p q : Ptr}
    (left : Member hub r u p) (right : Member hub r u q) : p = q := by
  obtain ⟨room, found, here⟩ := left
  obtain ⟨room', found', there⟩ := right
  rw [found, Option.some.injEq] at found'
  subst found'
  rw [here, Option.some.injEq] at there
  exact there

theorem forall_member_iff {hub : RoomHub} {holds : RoomId → UserId → Ptr → Prop} :
    (∀ r u p, Member hub r u p → holds r u p) ↔
      ∀ e ∈ toList hub.rooms, ∀ f ∈ toList e.2.participants, holds e.1 f.1 f.2 := by
  constructor
  · intro all e room f entry
    exact all e.1 f.1 f.2 ⟨e.2, mem_toList.mp room, mem_toList.mp entry⟩
  · intro all r u p here
    obtain ⟨room, held, entry⟩ := here
    exact all (r, room) (mem_toList.mpr held) (u, p) (mem_toList.mpr entry)

theorem Member.lookup {hub : RoomHub} {r : RoomId} {u : UserId} {p : Ptr}
    (here : Member hub r u p) {room : Room} (held : hub.rooms.lookup r = some room) :
    room.participants.lookup u = some p := by
  obtain ⟨room', held', entry⟩ := here
  rw [held, Option.some.injEq] at held'
  rw [held']
  exact entry

theorem not_member_new (r : RoomId) (u : UserId) (p : Ptr) : ¬ Member RoomHub.new r u p := by
  rintro ⟨room, found, _⟩
  simp [RoomHub.new] at found

theorem new_wellFormed : WellFormed RoomHub.new where
  allocated member := absurd member (not_member_new _ _ _)
  once member := absurd member (not_member_new _ _ _)
  ufrags found := by simp [RoomHub.new] at found

section Removal
variable {hub next : RoomHub} {r : RoomId} {u : UserId} {p : Ptr}

/-- A removal takes one participant out of its room and out of every index. -/
theorem removeParticipant_ok :
    hub.removeParticipant r u = .ok (next, p) ↔
      ∃ room, hub.rooms.lookup r = some room ∧ room.participants.lookup u = some p ∧
        next = unindex (hub.setRoom r (room.leave u (hub.arcs p) (hub.heap p))) p := by
  unfold RoomHub.removeParticipant
  cases got : hub.get r with
  | error e =>
    simp only [reduceCtorEq, false_iff, not_exists]
    exact fun room found => not_registered got room found.1
  | ok room =>
    rw [get_ok] at got
    simp only [Room.removeParticipant, got, Option.some.injEq]
    cases here : room.participants.lookup u with
    | none =>
      simp only [reduceCtorEq, false_iff, not_exists]
      rintro room' ⟨rfl, there, _⟩
      simp [here] at there
    | some q =>
      simp only [Except.ok.injEq, Prod.mk.injEq]
      constructor
      · rintro ⟨rfl, rfl⟩
        exact ⟨room, rfl, here, rfl⟩
      · rintro ⟨room', rfl, there, rfl⟩
        rw [here, Option.some.injEq] at there
        subst there
        exact ⟨rfl, rfl⟩

theorem removeParticipant_lookup (removed : hub.removeParticipant r u = .ok (next, p))
    (r' : RoomId) : next.rooms.lookup r' = if r' = r then
      (hub.rooms.lookup r).map fun room => room.leave u (hub.arcs p) (hub.heap p)
      else hub.rooms.lookup r' := by
  obtain ⟨room, found, here, rfl⟩ := removeParticipant_ok.mp removed
  simp only [unindex, setRoom, lookup_modify]
  split
  · rename_i same
    subst same
    simp [found]
  · rfl

theorem removeParticipant_fixed (removed : hub.removeParticipant r u = .ok (next, p)) :
    next.arcs = hub.arcs ∧ next.heap = hub.heap ∧ next.nextPtr = hub.nextPtr ∧
      Member hub r u p := by
  obtain ⟨room, found, here, rfl⟩ := removeParticipant_ok.mp removed
  exact ⟨rfl, rfl, rfl, room, found, here⟩

theorem member_removeParticipant (removed : hub.removeParticipant r u = .ok (next, p))
    (r' : RoomId) (u' : UserId) (q : Ptr) :
    Member next r' u' q ↔ Member hub r' u' q ∧ ¬(r' = r ∧ u' = u) := by
  simp only [Member, removeParticipant_lookup removed]
  by_cases same : r' = r
  · subst same
    simp only [if_true, Option.map_eq_some_iff, true_and]
    constructor
    · rintro ⟨left, ⟨room, found, rfl⟩, here⟩
      simp only [Room.leave, lookup_erase] at here
      split at here
      · simp at here
      · rename_i other
        exact ⟨⟨room, found, here⟩, other⟩
    · rintro ⟨⟨room, found, here⟩, other⟩
      refine ⟨_, ⟨room, found, rfl⟩, ?_⟩
      simp only [Room.leave, lookup_erase, if_neg other]
      exact here
  · simp [same]

theorem removeParticipant_wellFormed (removed : hub.removeParticipant r u = .ok (next, p))
    (sound : WellFormed hub) : WellFormed next := by
  obtain ⟨arcs, _, ptr, member⟩ := removeParticipant_fixed removed
  have stays := member_removeParticipant removed
  refine ⟨fun here => ?_, fun here there => ?_, ?_⟩
  · rw [ptr]
    exact sound.allocated ((stays _ _ _).mp here).1
  · exact sound.once ((stays _ _ _).mp here).1 ((stays _ _ _).mp there).1
  · intro r' room f q pc found indexed
    rw [removeParticipant_lookup removed] at found
    rw [arcs]
    by_cases same : r' = r
    · subst same
      rw [if_pos rfl, Option.map_eq_some_iff] at found
      obtain ⟨room, found, rfl⟩ := found
      simp only [Room.leave, Function.update_apply] at indexed
      split at indexed
      · simp at indexed
      · rename_i notSub
        split at indexed
        · simp at indexed
        · rename_i notPub
          obtain ⟨⟨u', here⟩, frag⟩ := sound.ufrags found indexed
          refine ⟨⟨u', (stays _ _ _).mpr ⟨here, ?_⟩⟩, frag⟩
          -- The entry would carry a ufrag of the participant that left.
          rintro ⟨_, rfl⟩
          have leaver := member_unique here member
          subst leaver
          cases pc with
          | publish => exact notPub frag.symm
          | subscribe => exact notSub frag.symm
    · rw [if_neg same] at found
      obtain ⟨⟨u', here⟩, frag⟩ := sound.ufrags found indexed
      exact ⟨⟨u', (stays _ _ _).mpr ⟨here, fun both => same both.1⟩⟩, frag⟩

end Removal

section Registration
variable {hub next : RoomHub} {r : RoomId} {who : Participant} {now : Nat} {p : Ptr}

theorem addParticipant_ok :
    hub.addParticipant r who now = .ok (next, p) ↔
      ∃ room, hub.rooms.lookup r = some room ∧ room.participants.keys.length < room.capacity ∧
        who.userId ∉ room.participants ∧ p = hub.nextPtr ∧
        next = hub.register r (room.enter hub.nextPtr who now) who := by
  unfold RoomHub.addParticipant
  cases got : hub.get r with
  | error e =>
    simp only [reduceCtorEq, false_iff, not_exists]
    exact fun room found => not_registered got room found.1
  | ok room =>
    rw [get_ok] at got
    simp only [Room.addParticipant, got, Option.some.injEq]
    split
    · rename_i full
      split at full
      · simp only [reduceCtorEq, false_iff, not_exists]
        rintro room' ⟨rfl, space, _⟩
        omega
      · split at full
        · simp only [reduceCtorEq, false_iff, not_exists]
          rename_i present
          rintro room' ⟨rfl, _, absent, _⟩
          exact absent present
        · simp at full
    · rename_i joined entered
      split at entered
      · simp at entered
      · split at entered
        · simp at entered
        · rename_i space absent
          simp only [Except.ok.injEq] at entered
          subst entered
          simp only [Except.ok.injEq, Prod.mk.injEq]
          constructor
          · rintro ⟨rfl, rfl⟩
            exact ⟨room, rfl, Nat.lt_of_not_le space, absent, rfl, rfl⟩
          · rintro ⟨room', rfl, _, _, rfl, rfl⟩
            exact ⟨rfl, rfl⟩

theorem addParticipant_lookup (added : hub.addParticipant r who now = .ok (next, p))
    (r' : RoomId) : next.rooms.lookup r' = if r' = r then
      (hub.rooms.lookup r).map fun room => room.enter hub.nextPtr who now
      else hub.rooms.lookup r' := by
  obtain ⟨room, found, _, _, _, rfl⟩ := addParticipant_ok.mp added
  simp only [register, lookup_modify]
  split
  · rename_i same
    subst same
    simp [found]
  · rfl

theorem member_addParticipant (added : hub.addParticipant r who now = .ok (next, p))
    (r' : RoomId) (u' : UserId) (q : Ptr) :
    Member next r' u' q ↔ Member hub r' u' q ∨ (r' = r ∧ u' = who.userId ∧ q = hub.nextPtr) := by
  obtain ⟨room, found, _, absent, _, _⟩ := addParticipant_ok.mp added
  simp only [Member, addParticipant_lookup added]
  by_cases same : r' = r
  · subst same
    simp only [if_true, Option.map_eq_some_iff, true_and, found, Option.some.injEq,
      exists_eq_left']
    simp only [Room.enter, lookup_insert]
    split
    · rename_i here
      subst here
      have none := AList.lookup_eq_none.mpr absent
      simp [none, eq_comm]
    · rename_i other
      simp [other]
  · simp [same]

theorem addParticipant_wellFormed (added : hub.addParticipant r who now = .ok (next, p))
    (sound : WellFormed hub) : WellFormed next := by
  obtain ⟨room, found, _, absent, _, rfl⟩ := addParticipant_ok.mp added
  have grows := member_addParticipant added
  have old : ∀ {r u q}, Member hub r u q → q ≠ hub.nextPtr := fun here =>
    Nat.ne_of_lt (sound.allocated here)
  refine ⟨fun here => ?_, fun here there => ?_, ?_⟩
  · simp only [register]
    rcases (grows _ _ _).mp here with before | ⟨_, _, rfl⟩
    · exact Nat.lt_succ_of_lt (sound.allocated before)
    · exact Nat.lt_succ_self _
  · rcases (grows _ _ _).mp here with before | ⟨rfl, rfl, rfl⟩
    · rcases (grows _ _ _).mp there with before' | ⟨_, _, same⟩
      · exact sound.once before before'
      · exact absurd same (old before)
    · rcases (grows _ _ _).mp there with before' | ⟨rfl, rfl, _⟩
      · exact absurd rfl (old before')
      · exact ⟨rfl, rfl⟩
  · intro r' room' f q pc found' indexed
    rw [addParticipant_lookup added] at found'
    have keep : ∀ {old : Room}, hub.rooms.lookup r' = some old → old.byUfrag f = some (q, pc) →
        (∃ u, Member (hub.register r (room.enter hub.nextPtr who now) who) r' u q) ∧
          (((hub.register r (room.enter hub.nextPtr who now) who).arcs q).ice pc).ufrag = f := by
      intro before entry indexed
      obtain ⟨⟨u, here⟩, frag⟩ := sound.ufrags entry indexed
      refine ⟨⟨u, (grows _ _ _).mpr (.inl here)⟩, ?_⟩
      simpa [register, old here] using frag
    have new : ∃ u, Member (hub.register r (room.enter hub.nextPtr who now) who) r u hub.nextPtr :=
      ⟨who.userId, (grows _ _ _).mpr (.inr ⟨rfl, rfl, rfl⟩)⟩
    by_cases same : r' = r
    · subst same
      rw [if_pos rfl, found, Option.map_some, Option.some.injEq] at found'
      subst found'
      simp only [Room.enter, Function.update_apply] at indexed
      split at indexed
      · rename_i frag
        simp only [Option.some.injEq, Prod.mk.injEq] at indexed
        obtain ⟨rfl, rfl⟩ := indexed
        exact ⟨new, by simp [register, Participant.ice, frag]⟩
      · split at indexed
        · rename_i frag
          simp only [Option.some.injEq, Prod.mk.injEq] at indexed
          obtain ⟨rfl, rfl⟩ := indexed
          exact ⟨new, by simp [register, Participant.ice, frag]⟩
        · exact keep found indexed
    · rw [if_neg same] at found'
      exact keep found' indexed

end Registration
/-- The rooms hold the same participants under the same ids and ufrags. -/
structure SameMembers (hub next : RoomHub) : Prop where
  arcs : next.arcs = hub.arcs
  nextPtr : next.nextPtr = hub.nextPtr
  rooms : ∀ r, (next.rooms.lookup r).map (fun room => (room.participants, room.byUfrag)) =
    (hub.rooms.lookup r).map fun room => (room.participants, room.byUfrag)

namespace SameMembers
variable {hub next : RoomHub}

theorem symm (same : SameMembers hub next) : SameMembers next hub :=
  ⟨same.arcs.symm, same.nextPtr.symm, fun r => (same.rooms r).symm⟩

theorem trans {last : RoomHub} (first : SameMembers hub next) (second : SameMembers next last) :
    SameMembers hub last :=
  ⟨second.arcs.trans first.arcs, second.nextPtr.trans first.nextPtr,
    fun r => (second.rooms r).trans (first.rooms r)⟩

theorem room {r : RoomId} {after : Room} (same : SameMembers hub next)
    (found : next.rooms.lookup r = some after) :
    ∃ before, hub.rooms.lookup r = some before ∧ before.participants = after.participants ∧
      before.byUfrag = after.byUfrag := by
  have view := same.rooms r
  rw [found, Option.map_some, eq_comm, Option.map_eq_some_iff] at view
  obtain ⟨before, held, fields⟩ := view
  simp only [Prod.mk.injEq] at fields
  exact ⟨before, held, fields⟩

theorem member (same : SameMembers hub next) {r : RoomId} {u : UserId} {p : Ptr}
    (here : Member next r u p) : Member hub r u p := by
  obtain ⟨after, found, entry⟩ := here
  obtain ⟨before, held, users, _⟩ := same.room found
  exact ⟨before, held, by rw [users]; exact entry⟩

theorem member_iff (same : SameMembers hub next) (r : RoomId) (u : UserId) (p : Ptr) :
    Member next r u p ↔ Member hub r u p := ⟨same.member, same.symm.member⟩

theorem wellFormed (same : SameMembers hub next) (sound : WellFormed hub) : WellFormed next := by
  refine ⟨fun here => ?_, fun here there => sound.once (same.member here) (same.member there), ?_⟩
  · rw [same.nextPtr]
    exact sound.allocated (same.member here)
  · intro r after f p pc found indexed
    obtain ⟨before, held, _, frags⟩ := same.room found
    obtain ⟨⟨u, here⟩, frag⟩ := sound.ufrags held (by rw [frags]; exact indexed)
    exact ⟨⟨u, (same.member_iff _ _ _).mpr here⟩, by rw [same.arcs]; exact frag⟩

/-- A change inside one room that leaves its user and ufrag indices alone. -/
theorem of_modify {r : RoomId} {f : Room → Room} (arcs : next.arcs = hub.arcs)
    (nextPtr : next.nextPtr = hub.nextPtr) (rooms : next.rooms = modify hub.rooms r f)
    (users : ∀ room, (f room).participants = room.participants)
    (frags : ∀ room, (f room).byUfrag = room.byUfrag) : SameMembers hub next := by
  refine ⟨arcs, nextPtr, fun r' => ?_⟩
  rw [rooms, lookup_modify]
  split
  · rename_i same
    subst same
    cases hub.rooms.lookup r' with
    | none => rfl
    | some room => simp [users, frags]
  · rfl

theorem of_rooms (arcs : next.arcs = hub.arcs) (nextPtr : next.nextPtr = hub.nextPtr)
    (rooms : next.rooms = hub.rooms) : SameMembers hub next :=
  ⟨arcs, nextPtr, fun r => by rw [rooms]⟩

end SameMembers

theorem latchSession_same (hub : RoomHub) (p : Ptr) (pc : PcType) (r : RoomId)
    (addr : SocketAddr) : SameMembers hub (hub.latchSession p pc r addr) :=
  .of_modify rfl rfl rfl (fun _ => rfl) fun _ => rfl

theorem touch_same (hub : RoomHub) (p : Ptr) (ts : Nat) : SameMembers hub (hub.touch p ts) :=
  .of_rooms rfl rfl rfl

/-- A session found by its ufrag belongs to a participant of the room. -/
theorem findByUfrag_member {hub : RoomHub} (sound : WellFormed hub) {f : Ufrag} {p : Ptr}
    {pc : PcType} {r : RoomId} (found : hub.findByUfrag f = some (p, pc, r)) :
    ∃ u, Member hub r u p := by
  simp only [RoomHub.findByUfrag, Option.bind_eq_bind, Option.bind_eq_some_iff, Option.pure_def,
    Option.some.injEq, Prod.mk.injEq] at found
  obtain ⟨r', _, room, held, ⟨q, pc'⟩, indexed, rfl, rfl, rfl⟩ := found
  exact (sound.ufrags held indexed).1

section Create
variable {hub : RoomHub} {id : RoomId} (name : String) (capacity : Option Nat) (mode : RoomMode)
  (createdAt : Nat) (simulcast : Bool) (audioSsrc videoSsrc : UInt32)

theorem create_lookup (r : RoomId) :
    (hub.create id name capacity mode createdAt simulcast audioSsrc videoSsrc).rooms.lookup r =
      if r = id then some (.new id name capacity mode createdAt simulcast audioSsrc videoSsrc)
      else hub.rooms.lookup r :=
  lookup_insert hub.rooms id _ r

variable {name capacity mode createdAt simulcast audioSsrc videoSsrc} in
/-- A room found after a creation is the new one, or it was there. -/
theorem create_found {r : RoomId} {after : Room} (found : (hub.create id name capacity mode
    createdAt simulcast audioSsrc videoSsrc).rooms.lookup r = some after) :
    after = .new id name capacity mode createdAt simulcast audioSsrc videoSsrc ∨
      (r ≠ id ∧ hub.rooms.lookup r = some after) := by
  rw [create_lookup] at found
  split at found
  · rw [Option.some.injEq] at found
    exact .inl found.symm
  · rename_i other
    exact .inr ⟨other, found⟩

theorem member_create (fresh : id ∉ hub.rooms) (r : RoomId) (u : UserId) (p : Ptr) :
    Member (hub.create id name capacity mode createdAt simulcast audioSsrc videoSsrc) r u p ↔
      Member hub r u p := by
  simp only [Member, create_lookup]
  by_cases same : r = id
  · subst same
    have absent := AList.lookup_eq_none.mpr fresh
    simp [absent, Room.new]
  · simp [same]

theorem create_wellFormed (fresh : id ∉ hub.rooms) (sound : WellFormed hub) :
    WellFormed (hub.create id name capacity mode createdAt simulcast audioSsrc videoSsrc) := by
  have same := member_create name capacity mode createdAt simulcast audioSsrc videoSsrc fresh
  refine ⟨fun here => sound.allocated ((same _ _ _).mp here),
    fun here there => sound.once ((same _ _ _).mp here) ((same _ _ _).mp there), ?_⟩
  intro r room f p pc found indexed
  rcases create_found found with rfl | ⟨_, held⟩
  · simp [Room.new] at indexed
  · obtain ⟨⟨u, here⟩, frag⟩ := sound.ufrags held indexed
    exact ⟨⟨u, (same _ _ _).mpr here⟩, frag⟩

end Create

/-- A reaper tick is a run of removals, each of them noted. -/
theorem reapZombies_invariant {good : RoomHub × List (RoomId × Ptr) → Prop}
    (remove : ∀ state r u next p, good state → state.1.removeParticipant r u = .ok (next, p) →
      good (next, state.2 ++ [(r, p)]))
    (hub : RoomHub) (nowMs timeoutMs : Nat) (start : good (hub, [])) :
    good (hub.reapZombies nowMs timeoutMs) := by
  have one : ∀ r (users : List UserId) (state : RoomHub × List (RoomId × Ptr)), good state →
      good (users.foldl (reapOne r) state) := by
    intro r users
    induction users with
    | nil => exact fun _ held => held
    | cons u users ih =>
      intro state held
      rw [List.foldl_cons]
      apply ih
      unfold reapOne
      split
      · rename_i next p removed
        exact remove _ _ _ _ _ held removed
      · exact held
  have all : ∀ (ids : List RoomId) (state : RoomHub × List (RoomId × Ptr)), good state →
      good (ids.foldl (reapRoom nowMs timeoutMs) state) := by
    intro ids
    induction ids with
    | nil => exact fun _ held => held
    | cons r ids ih =>
      intro state held
      rw [List.foldl_cons]
      apply ih
      unfold reapRoom
      split
      · exact one r _ state held
      · exact held
  exact all _ _ start

theorem reapZombies_keeps {good : RoomHub → Prop}
    (remove : ∀ hub r u next p, good hub → hub.removeParticipant r u = .ok (next, p) → good next)
    (hub : RoomHub) (nowMs timeoutMs : Nat) (start : good hub) :
    good (hub.reapZombies nowMs timeoutMs).1 :=
  @reapZombies_invariant (fun state => good state.1)
    (fun state r u next p held removed => remove state.1 r u next p held removed) hub nowMs
    timeoutMs start

theorem unindex_fold_fixed (ps : List Ptr) (hub : RoomHub) :
    (ps.foldl unindex hub).arcs = hub.arcs ∧ (ps.foldl unindex hub).heap = hub.heap ∧
      (ps.foldl unindex hub).nextPtr = hub.nextPtr ∧ (ps.foldl unindex hub).rooms = hub.rooms := by
  induction ps generalizing hub with
  | nil => exact ⟨rfl, rfl, rfl, rfl⟩
  | cons p ps ih => exact ih (unindex hub p)

theorem removeRoom_ok {hub next : RoomHub} {r : RoomId} {room : Room} :
    hub.removeRoom r = .ok (next, room) ↔ hub.rooms.lookup r = some room ∧
      next = (values room.participants).foldl unindex { hub with rooms := hub.rooms.erase r } := by
  unfold RoomHub.removeRoom
  cases got : hub.get r with
  | error e =>
    simp only [reduceCtorEq, false_iff, not_and]
    intro found
    rw [get_ok.mpr found] at got
    simp at got
  | ok held =>
    rw [get_ok] at got
    simp only [Except.ok.injEq, Prod.mk.injEq, got, Option.some.injEq]
    constructor
    · rintro ⟨rfl, rfl⟩
      exact ⟨rfl, rfl⟩
    · rintro ⟨rfl, rfl⟩
      exact ⟨rfl, rfl⟩

theorem member_removeRoom {hub next : RoomHub} {r : RoomId} {room : Room}
    (removed : hub.removeRoom r = .ok (next, room)) (r' : RoomId) (u : UserId) (p : Ptr) :
    Member next r' u p ↔ Member hub r' u p ∧ r' ≠ r := by
  obtain ⟨_, rfl⟩ := removeRoom_ok.mp removed
  obtain ⟨_, _, _, rooms⟩ := unindex_fold_fixed (values room.participants)
    { hub with rooms := hub.rooms.erase r }
  simp only [Member, rooms, lookup_erase]
  by_cases same : r' = r
  · simp [same]
  · simp [same]

theorem removeRoom_wellFormed {hub next : RoomHub} {r : RoomId} {room : Room}
    (removed : hub.removeRoom r = .ok (next, room)) (sound : WellFormed hub) :
    WellFormed next := by
  have stays := member_removeRoom removed
  obtain ⟨_, rfl⟩ := removeRoom_ok.mp removed
  obtain ⟨arcs, _, ptr, rooms⟩ := unindex_fold_fixed (values room.participants)
    { hub with rooms := hub.rooms.erase r }
  refine ⟨fun here => ?_, fun here there => ?_, ?_⟩
  · rw [ptr]
    exact sound.allocated ((stays _ _ _).mp here).1
  · exact sound.once ((stays _ _ _).mp here).1 ((stays _ _ _).mp there).1
  · intro r' room' f p pc found indexed
    rw [rooms, lookup_erase] at found
    split at found
    · simp at found
    · rename_i other
      obtain ⟨⟨u, here⟩, frag⟩ := sound.ufrags found indexed
      exact ⟨⟨u, (stays _ _ _).mpr ⟨here, other⟩⟩, by rw [arcs]; exact frag⟩

section Participants
variable {hub : RoomHub} {r : RoomId} {room : Room} {p : Ptr} {u : UserId}

theorem participants_injective (sound : WellFormed hub) (held : hub.rooms.lookup r = some room) :
    Injective room.participants := fun _ _ _ here there =>
  (sound.once ⟨room, held, here⟩ ⟨room, held, there⟩).2

theorem mem_otherParticipants :
    p ∈ room.otherParticipants u ↔ ∃ k, k ≠ u ∧ room.participants.lookup k = some p := by
  simp only [Room.otherParticipants, List.mem_map, List.mem_filter, decide_eq_true_eq]
  constructor
  · intro ⟨entry, ⟨member, other⟩, value⟩
    subst value
    exact ⟨entry.1, other, mem_toList.mp member⟩
  · intro ⟨k, other, here⟩
    exact ⟨(k, p), ⟨mem_toList.mpr here, other⟩, rfl⟩

theorem otherParticipants_nodup (once : Injective room.participants) (u : UserId) :
    (room.otherParticipants u).Nodup :=
  (toList_nodup once).sublist (List.filter_sublist.map _)

end Participants

end Membership
