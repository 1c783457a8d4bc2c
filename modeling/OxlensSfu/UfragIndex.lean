import OxlensSfu.AddressIndex

/-
The ufrag of a session is the key of two indices, of its room and of the hub, and
both are written without a look at what they hold. Which joins keep every live
session reachable by its ufrag.
-/
namespace UfragIndex
open WireBytes SfuConfig KeyedMap Participants RoomHubs RoomHub
open FloorControl (UserId)
open Membership AddressIndex GuardedRun

/-- The ufrag of the publish or the subscribe session of a participant. -/
def ufragOf (hub : RoomHub) (p : Ptr) (pc : PcType) : Ufrag := ((hub.arcs p).ice pc).ufrag

/-- Every live session is found by its ufrag, under its participant and in its room. -/
def Findable (hub : RoomHub) : Prop :=
  ∀ r u p pc, Member hub r u p → hub.findByUfrag (ufragOf hub p pc) = some (p, pc, r)

/-- A live session has the ufrag. -/
def Live (hub : RoomHub) (f : Ufrag) : Prop :=
  ∃ r u p pc, Member hub r u p ∧ ufragOf hub p pc = f

/-- A participant that the room takes in comes with two different ufrags that no live
    session has. -/
def DrawsUnused (hub : RoomHub) : HubOp → Prop
  | .addParticipant roomId who _ => ∀ room, hub.rooms.lookup roomId = some room →
    room.participants.keys.length < room.capacity → who.userId ∉ room.participants →
    who.publish.ufrag ≠ who.subscribe.ufrag ∧ ∀ f ∈ ufragsOf who, ¬ Live hub f
  | _ => True

theorem findByUfrag_iff {hub : RoomHub} {f : Ufrag} {p : Ptr} {pc : PcType} {r : RoomId} :
    hub.findByUfrag f = some (p, pc, r) ↔ hub.ufragIndex f = some r ∧
      ∃ room, hub.rooms.lookup r = some room ∧ room.byUfrag f = some (p, pc) :=
  lookup_twice_iff

theorem mem_ufragsOf {who : Participant} {f : Ufrag} :
    f ∈ ufragsOf who ↔ ∃ pc, (who.ice pc).ufrag = f := by
  simp only [ufragsOf, List.mem_cons, List.not_mem_nil, or_false]
  constructor
  · intro either
    rcases either with rfl | rfl
    · exact ⟨.publish, rfl⟩
    · exact ⟨.subscribe, rfl⟩
  · intro found
    obtain ⟨pc, rfl⟩ := found
    cases pc with
    | publish => exact .inl rfl
    | subscribe => exact .inr rfl

/-- Two writes under the ufrags of a participant. -/
theorem update_ufrags {V : Type} (index : Ufrag → V) (who : Participant) (a b : V) (f : Ufrag) :
    Function.update (Function.update index who.publish.ufrag a) who.subscribe.ufrag b f =
      if f = who.subscribe.ufrag then b else if f = who.publish.ufrag then a else index f := by
  simp only [Function.update_apply]

theorem update_other {V : Type} (index : Ufrag → V) {who : Participant} (a b : V) {f : Ufrag}
    (other : f ∉ ufragsOf who) :
    Function.update (Function.update index who.publish.ufrag a) who.subscribe.ufrag b f =
      index f := by
  simp only [ufragsOf, List.mem_cons, List.not_mem_nil, or_false, not_or] at other
  rw [update_ufrags, if_neg other.2, if_neg other.1]

/-- Two live sessions never share a ufrag. -/
theorem ufrag_unique {hub : RoomHub} (findable : Findable hub) {r r' : RoomId} {u u' : UserId}
    {p q : Ptr} {pc pc' : PcType} (here : Member hub r u p) (there : Member hub r' u' q)
    (same : ufragOf hub p pc = ufragOf hub q pc') : p = q ∧ pc = pc' ∧ r = r' := by
  have first := findable r u p pc here
  rw [same, findable r' u' q pc' there] at first
  simp only [Option.some.injEq, Prod.mk.injEq] at first
  exact ⟨first.1.symm, first.2.1.symm, first.2.2.symm⟩

theorem new_findable : Findable RoomHub.new :=
  fun r u p _ here => absurd here (not_member_new r u p)

/-- What a latch or a touch moves is in neither ufrag index. -/
theorem same_findable {hub next : RoomHub} (same : SameMembers hub next)
    (index : next.ufragIndex = hub.ufragIndex) (findable : Findable hub) : Findable next := by
  intro r u p pc here
  have frag : ufragOf next p pc = ufragOf hub p pc := by rw [ufragOf, same.arcs]; rfl
  obtain ⟨indexed, room, held, entry⟩ := findByUfrag_iff.mp (findable r u p pc (same.member here))
  obtain ⟨after, found, _, frags⟩ := same.symm.room held
  refine findByUfrag_iff.mpr ⟨?_, after, found, ?_⟩
  · rw [frag, index]
    exact indexed
  · rw [frag, frags]
    exact entry

theorem removeParticipant_findable {hub next : RoomHub} {r : RoomId} {u : UserId} {p : Ptr}
    (removed : hub.removeParticipant r u = .ok (next, p)) (sound : WellFormed hub)
    (findable : Findable hub) : Findable next := by
  obtain ⟨arcs, _, _, leaver⟩ := removeParticipant_fixed removed
  obtain ⟨_, _, _, shape⟩ := removeParticipant_ok.mp removed
  intro r' u' q pc here
  obtain ⟨before, other⟩ := (member_removeParticipant removed _ _ _).mp here
  have frag : ufragOf next q pc = ufragOf hub q pc := by rw [ufragOf, arcs]; rfl
  -- The session that stays does not have a ufrag of the participant that left.
  have apart : ufragOf hub q pc ∉ ufragsOf (hub.arcs p) := by
    intro shared
    obtain ⟨pc', same⟩ := mem_ufragsOf.mp shared
    obtain ⟨rfl, _, _⟩ := ufrag_unique findable leaver before same
    exact other (sound.once before leaver)
  obtain ⟨indexed, room, held, entry⟩ := findByUfrag_iff.mp (findable r' u' q pc before)
  rw [frag, findByUfrag_iff, removeParticipant_lookup removed]
  constructor
  · rw [shape]
    exact (update_other _ _ _ apart).trans indexed
  · by_cases same : r' = r
    · subst same
      refine ⟨_, by rw [if_pos rfl, held, Option.map_some], ?_⟩
      exact (update_other _ _ _ apart).trans entry
    · exact ⟨room, by rw [if_neg same, held], entry⟩

/-- The hub's index after the participants of a room are taken out of it. -/
theorem unindex_fold_ufragIndex (ps : List Ptr) (hub : RoomHub) {f : Ufrag}
    (other : ∀ p ∈ ps, f ∉ ufragsOf (hub.arcs p)) :
    (ps.foldl unindex hub).ufragIndex f = hub.ufragIndex f := by
  induction ps generalizing hub with
  | nil => rfl
  | cons p ps ih =>
    rw [List.foldl_cons, ih (unindex hub p) fun q later => other q (List.mem_cons_of_mem _ later)]
    exact update_other _ _ _ (other p List.mem_cons_self)

theorem removeRoom_findable {hub next : RoomHub} {r : RoomId} {room : Room}
    (removed : hub.removeRoom r = .ok (next, room)) (findable : Findable hub) :
    Findable next := by
  have stays := member_removeRoom removed
  obtain ⟨gone, rfl⟩ := removeRoom_ok.mp removed
  obtain ⟨arcs, _, _, rooms⟩ := unindex_fold_fixed (values room.participants)
    { hub with rooms := hub.rooms.erase r }
  intro r' u' q pc here
  obtain ⟨before, other⟩ := (stays _ _ _).mp here
  obtain ⟨indexed, room', held, entry⟩ := findByUfrag_iff.mp (findable r' u' q pc before)
  have apart : ∀ p ∈ values room.participants, ufragOf hub q pc ∉ ufragsOf (hub.arcs p) := by
    intro p inside shared
    obtain ⟨u, entry⟩ := mem_values.mp inside
    obtain ⟨pc', same⟩ := mem_ufragsOf.mp shared
    exact other (ufrag_unique findable before ⟨room, gone, entry⟩ same.symm).2.2
  rw [ufragOf, arcs, findByUfrag_iff, rooms, lookup_erase, if_neg other]
  refine ⟨?_, room', held, entry⟩
  exact (unindex_fold_ufragIndex _ { hub with rooms := hub.rooms.erase r } apart).trans indexed

section Create
variable {hub : RoomHub} (id : RoomId) (name : String) (capacity : Option Nat) (mode : RoomMode)
  (createdAt : Nat) (simulcast : Bool) (audioSsrc videoSsrc : UInt32)

/-- A room made under an id in use would start empty in the place of the old one. -/
theorem member_create_anew (r : RoomId) (u : UserId) (p : Ptr) :
    Member (hub.create id name capacity mode createdAt simulcast audioSsrc videoSsrc) r u p ↔
      Member hub r u p ∧ r ≠ id := by
  simp only [Member, create_lookup]
  by_cases same : r = id
  · subst same
    simp [Room.new]
  · simp [same]

theorem create_anew_wellFormed (sound : WellFormed hub) :
    WellFormed (hub.create id name capacity mode createdAt simulcast audioSsrc videoSsrc) := by
  have stays := @member_create_anew hub id name capacity mode createdAt simulcast audioSsrc
    videoSsrc
  refine ⟨fun here => sound.allocated ((stays _ _ _).mp here).1,
    fun here there => sound.once ((stays _ _ _).mp here).1 ((stays _ _ _).mp there).1, ?_⟩
  intro r room f p pc found indexed
  rcases create_found found with rfl | ⟨other, held⟩
  · simp [Room.new] at indexed
  · obtain ⟨⟨u, here⟩, frag⟩ := sound.ufrags held indexed
    exact ⟨⟨u, (stays _ _ _).mpr ⟨here, other⟩⟩, frag⟩

theorem create_findable (findable : Findable hub) :
    Findable (hub.create id name capacity mode createdAt simulcast audioSsrc videoSsrc) := by
  intro r u p pc here
  obtain ⟨before, other⟩ := (member_create_anew _ _ _ _ _ _ _ _ _ _ _).mp here
  obtain ⟨indexed, room, held, entry⟩ := findByUfrag_iff.mp (findable r u p pc before)
  refine findByUfrag_iff.mpr ⟨indexed, room, ?_, entry⟩
  rw [create_lookup, if_neg other]
  exact held

end Create

section Join
variable {hub next : RoomHub} {r : RoomId} {who : Participant} {now : Nat} {p : Ptr}

theorem joined_arcs (added : hub.addParticipant r who now = .ok (next, p)) (sound : WellFormed hub) :
    next.arcs hub.nextPtr = who ∧
      ∀ {r' u q}, Member hub r' u q → ∀ pc, ufragOf next q pc = ufragOf hub q pc := by
  obtain ⟨_, _, _, _, _, rfl⟩ := addParticipant_ok.mp added
  constructor
  · exact Function.update_self _ _ _
  · intro r' u q here pc
    have old : q ≠ hub.nextPtr := Nat.ne_of_lt (sound.allocated here)
    simp only [ufragOf, register, Function.update_of_ne old]

/-- Either index after a join, as the lookup of one ufrag. -/
theorem joined_findByUfrag (added : hub.addParticipant r who now = .ok (next, p)) (f : Ufrag) :
    next.findByUfrag f =
      if f = who.subscribe.ufrag then some (hub.nextPtr, .subscribe, r)
      else if f = who.publish.ufrag then some (hub.nextPtr, .publish, r)
      else hub.findByUfrag f := by
  have lookups := addParticipant_lookup added
  obtain ⟨room, held, _, _, _, shape⟩ := addParticipant_ok.mp added
  have index : next.ufragIndex f = if f = who.subscribe.ufrag then some r
      else if f = who.publish.ufrag then some r else hub.ufragIndex f := by
    rw [shape]
    exact update_ufrags _ _ _ _ _
  have inside : (room.enter hub.nextPtr who now).byUfrag f =
      if f = who.subscribe.ufrag then some (hub.nextPtr, .subscribe)
      else if f = who.publish.ufrag then some (hub.nextPtr, .publish) else room.byUfrag f :=
    update_ufrags _ _ _ _ _
  have here : next.rooms.lookup r = some (room.enter hub.nextPtr who now) := by
    rw [lookups, if_pos rfl, held, Option.map_some]
  split
  · rename_i sub
    rw [if_pos sub] at index inside
    exact findByUfrag_iff.mpr ⟨index, _, here, inside⟩
  · rename_i notSub
    rw [if_neg notSub] at index inside
    split
    · rename_i pub
      rw [if_pos pub] at index inside
      exact findByUfrag_iff.mpr ⟨index, _, here, inside⟩
    · rename_i notPub
      rw [if_neg notPub] at index inside
      apply Option.ext
      intro session
      obtain ⟨q, pc, r'⟩ := session
      rw [findByUfrag_iff, findByUfrag_iff, index, lookups]
      refine and_congr_right fun _ => ?_
      by_cases same : r' = r
      · subst same
        simp [held, inside]
      · simp [same]

theorem addParticipant_findable_iff (added : hub.addParticipant r who now = .ok (next, p))
    (sound : WellFormed hub) (findable : Findable hub) :
    Findable next ↔ who.publish.ufrag ≠ who.subscribe.ufrag ∧
      ∀ f ∈ ufragsOf who, ¬ Live hub f := by
  have grows := member_addParticipant added
  have lookup := joined_findByUfrag added
  obtain ⟨fresh, old⟩ := joined_arcs added sound
  have joiner : Member next r who.userId hub.nextPtr := (grows _ _ _).mpr (.inr ⟨rfl, rfl, rfl⟩)
  have own : ∀ pc, ufragOf next hub.nextPtr pc = (who.ice pc).ufrag := by
    intro pc
    rw [ufragOf, fresh]
  constructor
  · intro after
    constructor
    · -- The second write would hide the publish session behind the subscribe session.
      intro same
      have found := after _ _ _ .publish joiner
      rw [own, show (who.ice .publish).ufrag = who.subscribe.ufrag from same, lookup,
        if_pos rfl] at found
      simp at found
    · intro f drawn taken
      obtain ⟨pc, rfl⟩ := mem_ufragsOf.mp drawn
      obtain ⟨r', u, q, pc', here, same⟩ := taken
      have shared : ufragOf next q pc' = ufragOf next hub.nextPtr pc := by
        rw [old here, own, same]
      obtain ⟨rfl, _, _⟩ := ufrag_unique after ((grows _ _ _).mpr (.inl here)) joiner shared
      exact Nat.lt_irrefl _ (sound.allocated here)
  · intro unused r' u q pc here
    obtain ⟨differ, free⟩ := unused
    rcases (grows _ _ _).mp here with before | joined
    · have other : ufragOf hub q pc ∉ ufragsOf who := fun drawn =>
        free _ drawn ⟨r', u, q, pc, before, rfl⟩
      simp only [ufragsOf, List.mem_cons, List.not_mem_nil, or_false, not_or] at other
      rw [old before, lookup, if_neg other.2, if_neg other.1]
      exact findable r' u q pc before
    · obtain ⟨rfl, rfl, rfl⟩ := joined
      rw [own, lookup]
      cases pc with
      | publish => exact (if_neg differ).trans (if_pos rfl)
      | subscribe => exact if_pos rfl

end Join

theorem step_sound (hub : RoomHub) (op : HubOp) (sound : WellFormed hub) :
    WellFormed (step hub op) := by
  cases op with
  | create id name capacity mode createdAt simulcast a v =>
    exact create_anew_wellFormed _ _ _ _ _ _ _ _ sound
  | addParticipant r who now =>
    simp only [step]
    split
    · rename_i added
      exact addParticipant_wellFormed added sound
    · exact sound
  | latchByUfrag f addr => exact step_wellFormed hub _ sound trivial
  | touch p ts => exact step_wellFormed hub _ sound trivial
  | removeParticipant r u => exact step_wellFormed hub _ sound trivial
  | reapZombies now timeout => exact step_wellFormed hub _ sound trivial
  | removeRoom r => exact step_wellFormed hub _ sound trivial

theorem step_findable_iff (hub : RoomHub) (op : HubOp) (sound : WellFormed hub)
    (findable : Findable hub) : Findable (step hub op) ↔ DrawsUnused hub op := by
  cases op with
  | create id name capacity mode createdAt simulcast a v =>
    exact iff_of_true (create_findable _ _ _ _ _ _ _ _ findable) trivial
  | addParticipant r who now =>
    simp only [step, DrawsUnused]
    split
    · rename_i next p added
      obtain ⟨room, held, space, absent, _, _⟩ := addParticipant_ok.mp added
      rw [addParticipant_findable_iff added sound findable]
      constructor
      · intro unused room' held' _ _
        exact unused
      · intro unused
        exact unused room held space absent
    · rename_i refused
      refine iff_of_true findable fun room held space absent => ?_
      rw [addParticipant_ok.mpr ⟨room, held, space, absent, rfl, rfl⟩] at refused
      simp at refused
  | latchByUfrag f addr =>
    refine iff_of_true ?_ trivial
    simp only [step, latchByUfrag]
    split
    · exact same_findable (latchSession_same _ _ _ _ _) rfl findable
    · exact findable
  | touch p ts => exact iff_of_true (same_findable (touch_same hub p ts) rfl findable) trivial
  | removeParticipant r u =>
    refine iff_of_true ?_ trivial
    simp only [step]
    split
    · rename_i removed
      exact removeParticipant_findable removed sound findable
    · exact findable
  | reapZombies now timeout =>
    have one : ∀ hub r u next p, WellFormed hub ∧ Findable hub →
        hub.removeParticipant r u = .ok (next, p) → WellFormed next ∧ Findable next :=
      fun _ _ _ _ _ held removed => ⟨removeParticipant_wellFormed removed held.1,
        removeParticipant_findable removed held.1 held.2⟩
    exact iff_of_true (reapZombies_keeps one hub now timeout ⟨sound, findable⟩).2 trivial
  | removeRoom r =>
    refine iff_of_true ?_ trivial
    simp only [step]
    split
    · rename_i removed
      exact removeRoom_findable removed findable
    · exact findable

/-- Every live session stays reachable by its ufrag along a run exactly when every
    participant taken in draws two ufrags that are not in use. -/
theorem findable_iff_draws_unused (ops : List HubOp) :
    Always step Findable RoomHub.new ops ↔ Guarded step DrawsUnused RoomHub.new ops :=
  always_iff_guarded step_sound step_findable_iff new_wellFormed new_findable ops

def firstJoiner : Participant :=
  ⟨"alice", "lobby", 1000, 0, ⟨[0x61, 0x62, 0x63, 0x31], [0x70]⟩, ⟨[0x61, 0x62, 0x63, 0x32], [0x71]⟩⟩

/-- In another room, with the publish ufrag of the first one. -/
def secondJoiner : Participant :=
  ⟨"bob", "annex", 1001, 0, ⟨[0x61, 0x62, 0x63, 0x31], [0x72]⟩, ⟨[0x61, 0x62, 0x63, 0x33], [0x73]⟩⟩

def collidingJoins : List HubOp :=
  [.create "lobby" "Lobby" none .conference 1000 false 7 8,
    .create "annex" "Annex" none .conference 1000 false 9 10,
    .addParticipant "lobby" firstJoiner 1000, .addParticipant "annex" secondJoiner 1001]

/-- A join in one room takes over the ufrag of a live session in another. -/
theorem join_redirects_ufrag : ¬ ∀ ops, Always step Findable RoomHub.new ops := by
  intro holds
  have findable : Findable (run step RoomHub.new collidingJoins) :=
    (holds collidingJoins).2.2.2.2
  have seated : Member (run step RoomHub.new collidingJoins) "lobby" "alice" 0 :=
    ⟨_, rfl, by decide⟩
  have found := findable _ _ _ .publish seated
  have redirected : (run step RoomHub.new collidingJoins).findByUfrag [0x61, 0x62, 0x63, 0x31] =
      some (1, .publish, "annex") := by decide
  rw [show ufragOf (run step RoomHub.new collidingJoins) 0 .publish = [0x61, 0x62, 0x63, 0x31]
    from by decide, redirected] at found
  simp at found

end UfragIndex
