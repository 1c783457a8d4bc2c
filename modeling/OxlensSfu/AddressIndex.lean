import OxlensSfu.Membership

/-
The latched address of a session is kept in three places: on the session, in its
room and in the hub. Which operations keep the three in step.
-/
namespace AddressIndex
open WireBytes SfuConfig FloorControl PttRewriter KeyedMap Participants RoomHubs RoomHub
open Membership GuardedRun

inductive HubOp where
  | create (id : RoomId) (name : String) (capacity : Option Nat) (mode : RoomMode)
      (createdAt : Nat) (simulcast : Bool) (audioSsrc videoSsrc : UInt32)
  | addParticipant (roomId : RoomId) (who : Participant) (now : Nat)
  | latchByUfrag (ufrag : Ufrag) (addr : SocketAddr)
  | touch (p : Ptr) (ts : Nat)
  | removeParticipant (roomId : RoomId) (userId : UserId)
  | reapZombies (nowMs timeoutMs : Nat)
  | removeRoom (roomId : RoomId)

def step (hub : RoomHub) : HubOp → RoomHub
  | .create id name capacity mode createdAt simulcast audioSsrc videoSsrc =>
    hub.create id name capacity mode createdAt simulcast audioSsrc videoSsrc
  | .addParticipant roomId who now =>
    match hub.addParticipant roomId who now with
    | .ok (next, _) => next
    | .error _ => hub
  | .latchByUfrag ufrag addr => (hub.latchByUfrag ufrag addr).1
  | .touch p ts => hub.touch p ts
  | .removeParticipant roomId userId =>
    match hub.removeParticipant roomId userId with
    | .ok (next, _) => next
    | .error _ => hub
  | .reapZombies nowMs timeoutMs => (hub.reapZombies nowMs timeoutMs).1
  | .removeRoom roomId =>
    match hub.removeRoom roomId with
    | .ok (next, _) => next
    | .error _ => hub

def ufragsOf (p : Participant) : List Ufrag := [p.publish.ufrag, p.subscribe.ufrag]

/-- The ufrags of all participants ever built. -/
def usedUfrags (hub : RoomHub) : List Ufrag :=
  (List.range hub.nextPtr).flatMap fun p => ufragsOf (hub.arcs p)

/-- A new room gets an unused UUID, a new participant two unused ufrags. -/
def Fresh (hub : RoomHub) : HubOp → Prop
  | .create id .. => id ∉ hub.rooms
  | .addParticipant _ who _ => (ufragsOf who ++ usedUfrags hub).Nodup
  | _ => True

instance (hub : RoomHub) : ∀ op, Decidable (Fresh hub op)
  | .create id .. => inferInstanceAs (Decidable (id ∉ hub.rooms))
  | .addParticipant _ who _ => inferInstanceAs (Decidable (ufragsOf who ++ usedUfrags hub).Nodup)
  | .latchByUfrag .. => isTrue trivial
  | .touch .. => isTrue trivial
  | .removeParticipant .. => isTrue trivial
  | .reapZombies .. => isTrue trivial
  | .removeRoom .. => isTrue trivial

/-- Every latched address of a live session is found by it, and every key of an
    address index is the latched address of a live session of that room. -/
structure Indexed (hub : RoomHub) : Prop where
  found : ∀ {r u p pc a}, Member hub r u p → (hub.heap p).address pc = some a →
    hub.findByAddr a = some (p, pc, r)
  roomKeys : ∀ {r room a v}, hub.rooms.lookup r = some room → room.byAddr a = some v →
    ∃ u p pc, Member hub r u p ∧ (hub.heap p).address pc = some a
  hubKeys : ∀ {a r}, hub.addrIndex a = some r →
    ∃ u p pc, Member hub r u p ∧ (hub.heap p).address pc = some a

/-- A latch refreshes the address of its session, or is the first one of a session and
    takes an address that no other live session has. -/
def LatchesOwn (hub : RoomHub) : HubOp → Prop
  | .latchByUfrag ufrag addr => ∀ p pc r, hub.findByUfrag ufrag = some (p, pc, r) →
    (hub.heap p).address pc = some addr ∨
      ((hub.heap p).address pc = none ∧ ∀ r' u q pc', Member hub r' u q →
        (hub.heap q).address pc' = some addr → (q, pc') = (p, pc))
  | _ => True

theorem step_wellFormed (hub : RoomHub) (op : HubOp) (sound : WellFormed hub)
    (fresh : Fresh hub op) : WellFormed (step hub op) := by
  cases op with
  | create id name capacity mode createdAt simulcast a v =>
    exact create_wellFormed _ _ _ _ _ _ _ fresh sound
  | addParticipant r who now =>
    simp only [step]
    split
    · rename_i added
      exact addParticipant_wellFormed added sound
    · exact sound
  | latchByUfrag f addr =>
    simp only [step, latchByUfrag]
    split
    · exact (latchSession_same _ _ _ _ _).wellFormed sound
    · exact sound
  | touch p ts => exact (touch_same hub p ts).wellFormed sound
  | removeParticipant r u =>
    simp only [step]
    split
    · rename_i removed
      exact removeParticipant_wellFormed removed sound
    · exact sound
  | reapZombies now timeout =>
    exact reapZombies_keeps (fun _ _ _ _ _ held removed =>
      removeParticipant_wellFormed removed held) hub now timeout sound
  | removeRoom r =>
    simp only [step]
    split
    · rename_i removed
      exact removeRoom_wellFormed removed sound
    · exact sound

/-- Both indices are read in two steps: the room of a key, and the session in that room. -/
theorem lookup_twice_iff {index : Option RoomId} {rooms : RoomId → Option Room}
    {entry : Room → Option (Ptr × PcType)} {p : Ptr} {pc : PcType} {r : RoomId} :
    (do
      let roomId ← index
      let room ← rooms roomId
      let (p, pc) ← entry room
      return (p, pc, roomId)) = some (p, pc, r) ↔
      index = some r ∧ ∃ room, rooms r = some room ∧ entry room = some (p, pc) := by
  simp only [Option.bind_eq_bind, Option.bind_eq_some_iff, Option.pure_def, Option.some.injEq,
    Prod.mk.injEq]
  constructor
  · rintro ⟨r', indexed, room, held, ⟨q, pc'⟩, entry, rfl, rfl, rfl⟩
    exact ⟨indexed, room, held, entry⟩
  · rintro ⟨indexed, room, held, entry⟩
    exact ⟨r, indexed, room, held, (p, pc), entry, rfl, rfl, rfl⟩

theorem findByAddr_iff {hub : RoomHub} {a : SocketAddr} {p : Ptr} {pc : PcType} {r : RoomId} :
    hub.findByAddr a = some (p, pc, r) ↔ hub.addrIndex a = some r ∧
      ∃ room, hub.rooms.lookup r = some room ∧ room.byAddr a = some (p, pc) :=
  lookup_twice_iff

/-- Two live sessions never share a latched address. -/
theorem address_unique {hub : RoomHub} (indexed : Indexed hub) {r r' : RoomId} {u u' : UserId}
    {p q : Ptr} {pc pc' : PcType} {a : SocketAddr} (here : Member hub r u p)
    (there : Member hub r' u' q) (left : (hub.heap p).address pc = some a)
    (right : (hub.heap q).address pc' = some a) : p = q ∧ pc = pc' ∧ r = r' := by
  have first := indexed.found here left
  rw [indexed.found there right] at first
  simp only [Option.some.injEq, Prod.mk.injEq] at first
  exact ⟨first.1.symm, first.2.1.symm, first.2.2.symm⟩

theorem forget_eq_some {V : Type} {index : SocketAddr → Option V} {addr : Option SocketAddr}
    {a : SocketAddr} {v : V} :
    Room.forget index addr a = some v ↔ index a = some v ∧ addr ≠ some a := by
  cases addr with
  | none => simp [Room.forget]
  | some b =>
    simp only [Room.forget, Function.update_apply]
    split
    · rename_i same
      simp [same]
    · rename_i other
      simp [Ne.symm other]

theorem forget_both {V : Type} {index : SocketAddr → Option V} {s : ParticipantState}
    {a : SocketAddr} {v : V} :
    Room.forget (Room.forget index (s.address .publish)) (s.address .subscribe) a = some v ↔
      index a = some v ∧ ∀ pc, s.address pc ≠ some a := by
  rw [forget_eq_some, forget_eq_some, and_assoc]
  refine and_congr_right fun _ => ⟨fun both pc => ?_, fun all => ⟨all .publish, all .subscribe⟩⟩
  cases pc with
  | publish => exact both.1
  | subscribe => exact both.2

theorem new_indexed : Indexed RoomHub.new where
  found member := absurd member (not_member_new _ _ _)
  roomKeys found := by simp [RoomHub.new] at found
  hubKeys indexed := by simp [RoomHub.new] at indexed

theorem removeParticipant_indexed {hub next : RoomHub} {r : RoomId} {u : UserId} {p : Ptr}
    (removed : hub.removeParticipant r u = .ok (next, p)) (sound : WellFormed hub)
    (indexed : Indexed hub) : Indexed next := by
  have stays := member_removeParticipant removed
  have lookups := removeParticipant_lookup removed
  obtain ⟨_, heap, _, leaver⟩ := removeParticipant_fixed removed
  obtain ⟨_, _, _, shape⟩ := removeParticipant_ok.mp removed
  have hubIndex : ∀ {a v}, next.addrIndex a = some v ↔
      hub.addrIndex a = some v ∧ ∀ pc, (hub.heap p).address pc ≠ some a := by
    intro a v
    rw [shape]
    exact forget_both
  -- Another live session shares no address with the one that left.
  have apart : ∀ {r' u' q pc a}, Member hub r' u' q → ¬(r' = r ∧ u' = u) →
      (hub.heap q).address pc = some a → ∀ pc', (hub.heap p).address pc' ≠ some a := by
    intro r' u' q pc a here other latched pc' same
    obtain ⟨rfl, _, _⟩ := address_unique indexed here leaver latched same
    exact other (sound.once here leaver)
  have survives : ∀ {r' u' q pc a}, Member hub r' u' q → (hub.heap q).address pc = some a →
      (∀ pc', (hub.heap p).address pc' ≠ some a) → Member next r' u' q := by
    intro r' u' q pc a here latched free
    refine (stays _ _ _).mpr ⟨here, ?_⟩
    rintro ⟨rfl, rfl⟩
    rw [member_unique here leaver] at latched
    exact free pc latched
  refine ⟨?_, ?_, ?_⟩
  · intro r' u' q pc a here latched
    rw [heap] at latched
    obtain ⟨before, other⟩ := (stays _ _ _).mp here
    have free := apart before other latched
    obtain ⟨index, room, held, entry⟩ := findByAddr_iff.mp (indexed.found before latched)
    refine findByAddr_iff.mpr ⟨hubIndex.mpr ⟨index, free⟩, ?_⟩
    rw [lookups]
    by_cases same : r' = r
    · subst same
      refine ⟨_, by rw [if_pos rfl, held, Option.map_some], ?_⟩
      exact forget_both.mpr ⟨entry, free⟩
    · exact ⟨room, by rw [if_neg same, held], entry⟩
  · intro r' room a v found entry
    rw [lookups] at found
    rw [heap]
    by_cases same : r' = r
    · subst same
      rw [if_pos rfl, Option.map_eq_some_iff] at found
      obtain ⟨room, held, rfl⟩ := found
      obtain ⟨entry, free⟩ := forget_both.mp entry
      obtain ⟨u', q, pc, here, latched⟩ := indexed.roomKeys held entry
      exact ⟨u', q, pc, survives here latched free, latched⟩
    · rw [if_neg same] at found
      obtain ⟨u', q, pc, here, latched⟩ := indexed.roomKeys found entry
      exact ⟨u', q, pc, (stays _ _ _).mpr ⟨here, fun both => same both.1⟩, latched⟩
  · intro a r' index
    rw [heap]
    obtain ⟨index, free⟩ := hubIndex.mp index
    obtain ⟨u', q, pc, here, latched⟩ := indexed.hubKeys index
    exact ⟨u', q, pc, survives here latched free, latched⟩

/-- After the participants of a room are taken out of the hub's indices. -/
theorem unindex_fold_addrIndex (ps : List Ptr) (hub : RoomHub) (a : SocketAddr) (r : RoomId) :
    (ps.foldl unindex hub).addrIndex a = some r ↔
      hub.addrIndex a = some r ∧ ∀ p ∈ ps, ∀ pc, (hub.heap p).address pc ≠ some a := by
  induction ps generalizing hub with
  | nil => simp
  | cons p ps ih =>
    rw [List.foldl_cons, ih]
    have one : (unindex hub p).addrIndex a = some r ↔
        hub.addrIndex a = some r ∧ ∀ pc, (hub.heap p).address pc ≠ some a := forget_both
    have heap : (unindex hub p).heap = hub.heap := rfl
    rw [one, heap, and_assoc, List.forall_mem_cons]

theorem removeRoom_indexed {hub next : RoomHub} {r : RoomId} {room : Room}
    (removed : hub.removeRoom r = .ok (next, room)) (indexed : Indexed hub) : Indexed next := by
  have stays := member_removeRoom removed
  obtain ⟨held, rfl⟩ := removeRoom_ok.mp removed
  obtain ⟨_, heap, _, rooms⟩ := unindex_fold_fixed (values room.participants)
    { hub with rooms := hub.rooms.erase r }
  have inside : ∀ p, p ∈ values room.participants ↔ ∃ u, Member hub r u p := by
    intro p
    rw [mem_values]
    exact exists_congr fun u => ⟨fun entry => ⟨room, held, entry⟩, fun here => here.lookup held⟩
  refine ⟨?_, ?_, ?_⟩
  · intro r' u' q pc a here latched
    rw [heap] at latched
    obtain ⟨before, other⟩ := (stays _ _ _).mp here
    obtain ⟨index, room', held', entry⟩ := findByAddr_iff.mp (indexed.found before latched)
    refine findByAddr_iff.mpr ⟨?_, room', ?_, entry⟩
    · refine (unindex_fold_addrIndex _ _ _ _).mpr ⟨index, fun p member pc' same => ?_⟩
      obtain ⟨u, there⟩ := (inside p).mp member
      exact other (address_unique indexed before there latched same).2.2
    · rw [rooms, lookup_erase, if_neg other]
      exact held'
  · intro r' room' a v found entry
    rw [rooms, lookup_erase] at found
    rw [heap]
    split at found
    · simp at found
    · rename_i other
      obtain ⟨u', q, pc, here, latched⟩ := indexed.roomKeys found entry
      exact ⟨u', q, pc, (stays _ _ _).mpr ⟨here, other⟩, latched⟩
  · intro a r' index
    rw [heap]
    obtain ⟨index, free⟩ := (unindex_fold_addrIndex _ _ _ _).mp index
    obtain ⟨u', q, pc, here, latched⟩ := indexed.hubKeys index
    refine ⟨u', q, pc, (stays _ _ _).mpr ⟨here, ?_⟩, latched⟩
    rintro rfl
    exact free q ((inside q).mpr ⟨u', here⟩) pc latched

theorem addParticipant_indexed {hub next : RoomHub} {r : RoomId} {who : Participant} {now : Nat}
    {p : Ptr} (added : hub.addParticipant r who now = .ok (next, p)) (sound : WellFormed hub)
    (indexed : Indexed hub) : Indexed next := by
  have grows := member_addParticipant added
  have lookups := addParticipant_lookup added
  obtain ⟨room, held, _, absent, _, shape⟩ := addParticipant_ok.mp added
  have hubIndex : next.addrIndex = hub.addrIndex := by rw [shape]; rfl
  have heap : ∀ q, next.heap q =
      if q = hub.nextPtr then .new who.joinedAt else hub.heap q := by
    intro q
    rw [shape]
    exact Function.update_apply _ _ _ _
  have old : ∀ {r' u' q}, Member hub r' u' q → next.heap q = hub.heap q := fun here => by
    rw [heap, if_neg (Nat.ne_of_lt (sound.allocated here))]
  have carry : ∀ {r' a}, (∃ u q pc, Member hub r' u q ∧ (hub.heap q).address pc = some a) →
      ∃ u q pc, Member next r' u q ∧ (next.heap q).address pc = some a := by
    rintro r' a ⟨u', q, pc, here, latched⟩
    exact ⟨u', q, pc, (grows _ _ _).mpr (.inl here), by rw [old here]; exact latched⟩
  refine ⟨?_, ?_, ?_⟩
  · intro r' u' q pc a here latched
    rcases (grows _ _ _).mp here with before | ⟨_, _, rfl⟩
    · rw [old before] at latched
      obtain ⟨index, room', held', entry⟩ := findByAddr_iff.mp (indexed.found before latched)
      refine findByAddr_iff.mpr ⟨by rw [hubIndex]; exact index, ?_⟩
      rw [lookups]
      by_cases same : r' = r
      · subst same
        exact ⟨room'.enter hub.nextPtr who now, by rw [if_pos rfl, held', Option.map_some], entry⟩
      · exact ⟨room', by rw [if_neg same, held'], entry⟩
    · rw [heap, if_pos rfl] at latched
      cases pc <;> simp [ParticipantState.address, ParticipantState.new] at latched
  · intro r' room' a v found entry
    rw [lookups] at found
    apply carry
    by_cases same : r' = r
    · subst same
      rw [if_pos rfl, Option.map_eq_some_iff] at found
      obtain ⟨before, held', rfl⟩ := found
      exact indexed.roomKeys held' entry
    · rw [if_neg same] at found
      exact indexed.roomKeys found entry
  · intro a r' index
    rw [hubIndex] at index
    exact carry (indexed.hubKeys index)

theorem create_indexed {hub : RoomHub} {id : RoomId} (name : String) (capacity : Option Nat)
    (mode : RoomMode) (createdAt : Nat) (simulcast : Bool) (audioSsrc videoSsrc : UInt32)
    (fresh : id ∉ hub.rooms) (indexed : Indexed hub) :
    Indexed (hub.create id name capacity mode createdAt simulcast audioSsrc videoSsrc) := by
  have same := member_create name capacity mode createdAt simulcast audioSsrc videoSsrc fresh
  refine ⟨?_, ?_, ?_⟩
  · intro r u p pc a here latched
    obtain ⟨index, room, held, entry⟩ := findByAddr_iff.mp
      (indexed.found ((same _ _ _).mp here) latched)
    refine findByAddr_iff.mpr ⟨index, room, ?_, entry⟩
    have other : r ≠ id := by
      rintro rfl
      exact fresh (AList.lookup_isSome.mp (by rw [held]; rfl))
    rw [create_lookup, if_neg other]
    exact held
  · intro r room a v found entry
    rcases create_found found with rfl | ⟨_, held⟩
    · simp [Room.new] at entry
    · obtain ⟨u, p, pc, here, latched⟩ := indexed.roomKeys held entry
      exact ⟨u, p, pc, (same _ _ _).mpr here, latched⟩
  · intro a r index
    obtain ⟨u, p, pc, here, latched⟩ := indexed.hubKeys index
    exact ⟨u, p, pc, (same _ _ _).mpr here, latched⟩

section Latch
variable {hub : RoomHub} {p : Ptr} {pc : PcType} {r : RoomId} {addr : SocketAddr}

theorem latchAddress_address (s : ParticipantState) (pc pc' : PcType) (addr : SocketAddr) :
    (s.latchAddress pc addr).address pc' = if pc' = pc then some addr else s.address pc' := by
  cases pc <;> cases pc' <;> rfl

theorem latched_address (q : Ptr) (pc' : PcType) :
    ((hub.latchSession p pc r addr).heap q).address pc' =
      if (q, pc') = (p, pc) then some addr else (hub.heap q).address pc' := by
  simp only [latchSession, mutate, Function.update_apply, Prod.mk.injEq]
  by_cases same : q = p
  · subst same
    simp [latchAddress_address]
  · simp [same]

theorem latched_hubIndex (a : SocketAddr) :
    (hub.latchSession p pc r addr).addrIndex a =
      if a = addr then some r else hub.addrIndex a := by
  simp [latchSession, Function.update_apply]

theorem latched_room (r' : RoomId) :
    (hub.latchSession p pc r addr).rooms.lookup r' =
      if r' = r then (hub.rooms.lookup r').map fun room =>
        room.latchIndex ((hub.heap p).address pc) p pc addr
      else hub.rooms.lookup r' :=
  lookup_modify _ _ _ _

theorem latchIndex_byAddr (room : Room) (old : Option SocketAddr) (a : SocketAddr) :
    (room.latchIndex old p pc addr).byAddr a =
      if a = addr then some (p, pc) else if old = some a then none else room.byAddr a := by
  simp only [Room.latchIndex, Function.update_apply]
  split
  · rfl
  · rename_i other
    cases old with
    | none => simp
    | some o =>
      simp only [Option.some.injEq]
      split
      · simp only [Function.update_apply, eq_comm]
      · rename_i same
        rw [not_not] at same
        subst same
        simp [Ne.symm other]

/-- What `LatchesOwn` asks of the session that is latched. -/
def TakesOwn (hub : RoomHub) (p : Ptr) (pc : PcType) (addr : SocketAddr) : Prop :=
  (hub.heap p).address pc = some addr ∨ ((hub.heap p).address pc = none ∧
    ∀ r' u' q pc', Member hub r' u' q → (hub.heap q).address pc' = some addr → (q, pc') = (p, pc))

/-- Nobody else is at `addr`. -/
theorem TakesOwn.alone {u : UserId} (own : TakesOwn hub p pc addr) (indexed : Indexed hub)
    (here : Member hub r u p) {r' : RoomId} {u' : UserId} {q : Ptr} {pc' : PcType}
    (there : Member hub r' u' q) (latched : (hub.heap q).address pc' = some addr) :
    (q, pc') = (p, pc) := by
  rcases own with held | ⟨_, free⟩
  · obtain ⟨rfl, rfl, _⟩ := address_unique indexed there here latched held
    rfl
  · exact free r' u' q pc' there latched

/-- The session leaves no other address behind. -/
theorem TakesOwn.leaves (own : TakesOwn hub p pc addr) {a : SocketAddr}
    (old : (hub.heap p).address pc = some a) : a = addr := by
  rcases own with held | ⟨none, _⟩
  · rw [held, Option.some.injEq] at old
    exact old.symm
  · simp [none] at old

/-- The room has a session that is latched at the address. -/
def HasAddress (hub : RoomHub) (r : RoomId) (a : SocketAddr) : Prop :=
  ∃ u q pc, Member hub r u q ∧ (hub.heap q).address pc = some a

theorem latched_hasAddress {u : UserId} (here : Member hub r u p) :
    HasAddress (hub.latchSession p pc r addr) r addr := by
  have same := latchSession_same hub p pc r addr
  exact ⟨u, p, pc, (same.member_iff _ _ _).mpr here, by rw [latched_address, if_pos rfl]⟩

theorem HasAddress.latch (own : TakesOwn hub p pc addr) {r' : RoomId} {a : SocketAddr}
    (other : a ≠ addr) (held : HasAddress hub r' a) :
    HasAddress (hub.latchSession p pc r addr) r' a := by
  have same := latchSession_same hub p pc r addr
  obtain ⟨u', q, pc', there, latched⟩ := held
  refine ⟨u', q, pc', (same.member_iff _ _ _).mpr there, ?_⟩
  rw [latched_address, if_neg]
  · exact latched
  · simp only [Prod.mk.injEq]
    rintro ⟨rfl, rfl⟩
    exact other (own.leaves latched)

theorem latch_found {u : UserId} (sound : WellFormed hub) (here : Member hub r u p)
    (indexed : Indexed hub) (own : TakesOwn hub p pc addr) {r' : RoomId} {u' : UserId} {q : Ptr}
    {pc' : PcType} {a : SocketAddr} (there : Member hub r' u' q)
    (latched : ((hub.latchSession p pc r addr).heap q).address pc' = some a) :
    (hub.latchSession p pc r addr).findByAddr a = some (q, pc', r') := by
  rw [latched_address] at latched
  rw [findByAddr_iff, latched_hubIndex, latched_room]
  split at latched
  · rename_i session
    simp only [Prod.mk.injEq] at session
    obtain ⟨rfl, rfl⟩ := session
    obtain ⟨rfl, _⟩ := sound.once there here
    rw [Option.some.injEq] at latched
    subst latched
    obtain ⟨room, held, _⟩ := here
    rw [if_pos rfl, if_pos rfl, held, Option.map_some]
    exact ⟨rfl, _, rfl, by rw [latchIndex_byAddr, if_pos rfl]⟩
  · rename_i session
    have other : a ≠ addr := by
      rintro rfl
      exact session (own.alone indexed here there latched)
    obtain ⟨index, room, held, entry⟩ := findByAddr_iff.mp (indexed.found there latched)
    rw [if_neg other]
    refine ⟨index, ?_⟩
    by_cases room_ : r' = r
    · subst room_
      rw [if_pos rfl, held, Option.map_some]
      refine ⟨_, rfl, ?_⟩
      rw [latchIndex_byAddr, if_neg other, if_neg fun old => other (own.leaves old)]
      exact entry
    · exact ⟨room, by rw [if_neg room_, held], entry⟩

theorem latch_roomKeys {u : UserId} (sound : WellFormed hub) (here : Member hub r u p)
    (indexed : Indexed hub) (own : TakesOwn hub p pc addr) {r' : RoomId} {room : Room}
    {a : SocketAddr} {v : Ptr × PcType}
    (found : (hub.latchSession p pc r addr).rooms.lookup r' = some room)
    (entry : room.byAddr a = some v) : HasAddress (hub.latchSession p pc r addr) r' a := by
  rw [latched_room] at found
  by_cases room_ : r' = r
  · subst room_
    rw [if_pos rfl, Option.map_eq_some_iff] at found
    obtain ⟨before, held, rfl⟩ := found
    rw [latchIndex_byAddr] at entry
    split at entry
    · rename_i at_
      rw [at_]
      exact latched_hasAddress here
    · rename_i other
      split at entry
      · simp at entry
      · exact .latch own other (indexed.roomKeys held entry)
  · rw [if_neg room_] at found
    obtain ⟨u', q, pc', there, latched⟩ := indexed.roomKeys found entry
    refine .latch own ?_ ⟨u', q, pc', there, latched⟩
    rintro rfl
    have session := own.alone indexed here there latched
    simp only [Prod.mk.injEq] at session
    rw [session.1] at there
    exact room_ (sound.once there here).1

theorem latch_hubKeys {u : UserId} (here : Member hub r u p) (indexed : Indexed hub)
    (own : TakesOwn hub p pc addr) {r' : RoomId} {a : SocketAddr}
    (index : (hub.latchSession p pc r addr).addrIndex a = some r') :
    HasAddress (hub.latchSession p pc r addr) r' a := by
  rw [latched_hubIndex] at index
  split at index
  · rename_i at_
    rw [Option.some.injEq] at index
    subst at_ index
    exact latched_hasAddress here
  · rename_i other
    exact .latch own other (indexed.hubKeys index)

theorem latch_indexed {u : UserId} (sound : WellFormed hub) (here : Member hub r u p)
    (indexed : Indexed hub) (own : TakesOwn hub p pc addr) :
    Indexed (hub.latchSession p pc r addr) where
  found there :=
    latch_found sound here indexed own
      (((latchSession_same hub p pc r addr).member_iff _ _ _).mp there)
  roomKeys := latch_roomKeys sound here indexed own
  hubKeys := latch_hubKeys here indexed own

theorem own_of_latch_indexed {u : UserId} (here : Member hub r u p) (indexed : Indexed hub)
    (after : Indexed (hub.latchSession p pc r addr)) : TakesOwn hub p pc addr := by
  have same := latchSession_same hub p pc r addr
  have moved : ((hub.latchSession p pc r addr).heap p).address pc = some addr := by
    rw [latched_address, if_pos rfl]
  cases old : (hub.heap p).address pc with
  | none =>
    refine .inr ⟨old, fun r' u' q pc' there latched => ?_⟩
    apply Classical.byContradiction
    intro other
    have kept : ((hub.latchSession p pc r addr).heap q).address pc' = some addr := by
      rw [latched_address, if_neg other]
      exact latched
    have shared := address_unique after ((same.member_iff _ _ _).mpr there)
      ((same.member_iff _ _ _).mpr here) kept moved
    exact other (by rw [shared.1, shared.2.1])
  | some a =>
    left
    apply Classical.byContradiction
    intro other
    have differs : a ≠ addr := fun at_ => other (by rw [old, at_])
    -- A rebind leaves the old address behind in the hub's index.
    have stale : (hub.latchSession p pc r addr).addrIndex a = some r := by
      rw [latched_hubIndex, if_neg differs]
      exact (findByAddr_iff.mp (indexed.found here old)).1
    obtain ⟨u', q, pc', there, latched⟩ := after.hubKeys stale
    rw [latched_address] at latched
    split at latched
    · rw [Option.some.injEq] at latched
      exact differs latched.symm
    · rename_i session
      obtain ⟨rfl, rfl, _⟩ := address_unique indexed ((same.member_iff _ _ _).mp there) here
        latched old
      exact session rfl

end Latch

theorem latchByUfrag_indexed_iff {hub : RoomHub} (sound : WellFormed hub) (indexed : Indexed hub)
    (f : Ufrag) (addr : SocketAddr) :
    Indexed (hub.latchByUfrag f addr).1 ↔ LatchesOwn hub (.latchByUfrag f addr) := by
  simp only [latchByUfrag, LatchesOwn]
  cases found : hub.findByUfrag f with
  | none => simp [indexed]
  | some session =>
    obtain ⟨p, pc, r⟩ := session
    obtain ⟨u, here⟩ := findByUfrag_member sound found
    constructor
    · intro after p' pc' r' same
      simp only [Option.some.injEq, Prod.mk.injEq] at same
      obtain ⟨rfl, rfl, rfl⟩ := same
      exact own_of_latch_indexed here indexed after
    · intro own
      exact latch_indexed sound here indexed (own p pc r rfl)

theorem touch_indexed {hub : RoomHub} (indexed : Indexed hub) (p : Ptr) (ts : Nat) :
    Indexed (hub.touch p ts) := by
  have address : ∀ q pc, ((hub.touch p ts).heap q).address pc = (hub.heap q).address pc := by
    intro q pc
    simp only [touch, mutate, Function.update_apply]
    split
    · rename_i here
      rw [here]
      cases pc <;> rfl
    · rfl
  refine ⟨fun here latched => ?_, fun found entry => ?_, fun index => ?_⟩
  · rw [address] at latched
    exact indexed.found here latched
  · simp only [address]
    exact indexed.roomKeys found entry
  · simp only [address]
    exact indexed.hubKeys index

theorem step_indexed_iff (hub : RoomHub) (op : HubOp) (sound : WellFormed hub)
    (fresh : Fresh hub op) (indexed : Indexed hub) :
    Indexed (step hub op) ↔ LatchesOwn hub op := by
  cases op with
  | create id name capacity mode createdAt simulcast a v =>
    exact iff_of_true (create_indexed _ _ _ _ _ _ _ fresh indexed) trivial
  | addParticipant r who now =>
    refine iff_of_true ?_ trivial
    simp only [step]
    split
    · rename_i added
      exact addParticipant_indexed added sound indexed
    · exact indexed
  | latchByUfrag f addr => exact latchByUfrag_indexed_iff sound indexed f addr
  | touch p ts => exact iff_of_true (touch_indexed indexed p ts) trivial
  | removeParticipant r u =>
    refine iff_of_true ?_ trivial
    simp only [step]
    split
    · rename_i removed
      exact removeParticipant_indexed removed sound indexed
    · exact indexed
  | reapZombies now timeout =>
    have one : ∀ hub r u next p, WellFormed hub ∧ Indexed hub →
        hub.removeParticipant r u = .ok (next, p) → WellFormed next ∧ Indexed next :=
      fun _ _ _ _ _ held removed => ⟨removeParticipant_wellFormed removed held.1,
        removeParticipant_indexed removed held.1 held.2⟩
    exact iff_of_true (reapZombies_keeps one hub now timeout ⟨sound, indexed⟩).2 trivial
  | removeRoom r =>
    refine iff_of_true ?_ trivial
    simp only [step]
    split
    · rename_i removed
      exact removeRoom_indexed removed indexed
    · exact indexed

/-- The three places agree in every state of a run exactly when every latch of the
    run is the session's own. -/
theorem indexed_iff_latches_own (ops : List HubOp) (fresh : Guarded step Fresh RoomHub.new ops) :
    Always step Indexed RoomHub.new ops ↔ Guarded step LatchesOwn RoomHub.new ops :=
  always_iff_guarded_of_fed step_wellFormed step_indexed_iff new_wellFormed new_indexed ops fresh

def alice : Participant :=
  ⟨"alice", "room", 1000, 0, ⟨[0x61, 0x31], [0x70]⟩, ⟨[0x61, 0x32], [0x71]⟩⟩

def portAt (port : UInt16) : SocketAddr := .v4 #v[192, 0, 2, 1] port

def joinAndLatch : List HubOp :=
  [.create "room" "Lobby" none .conference 1000 false 7 8, .addParticipant "room" alice 1000,
    .latchByUfrag alice.publish.ufrag (portAt 5000)]

theorem indexed_iff_joinAndLatch :
    Always step Indexed RoomHub.new joinAndLatch ↔
      Guarded step LatchesOwn RoomHub.new joinAndLatch :=
  indexed_iff_latches_own joinAndLatch (by decide)

/-- After a NAT rebind the hub still maps the old address to the room. -/
theorem rebind_leaves_stale_address : ¬ ∀ ops, Guarded step Fresh RoomHub.new ops →
    Indexed (run step RoomHub.new ops) := by
  intro holds
  have indexed := holds (joinAndLatch ++ [.latchByUfrag alice.publish.ufrag (portAt 5001)])
    (by decide)
  have stale : (run step RoomHub.new (joinAndLatch ++
      [.latchByUfrag alice.publish.ufrag (portAt 5001)])).addrIndex (portAt 5000) =
      some "room" := by decide
  obtain ⟨u, p, pc, here, latched⟩ := indexed.hubKeys stale
  have lost : (run step RoomHub.new (joinAndLatch ++
      [.latchByUfrag alice.publish.ufrag (portAt 5001)])).findByAddr (portAt 5000) = none := by
    decide
  rw [indexed.found here latched] at lost
  simp at lost

end AddressIndex
