import OxlensSfu.Seating

/-
Who claims the floor of a room, against who is in the room. Every departure that goes
through a handler gives up the floor first; the reaper does not, and a WS request is not
asked for membership.
-/
namespace FloorMembership
open WireBytes SfuConfig FloorControl PttRewriter KeyedMap Participants RoomHubs RoomHub
open Signaling FloorHandlers RoomHandlers TrackHandlers Ingress Servers
open FloorQueue Membership SpeakerAgreement MemberFrames RoomSteps Seating GuardedRun

/-- `u` holds the floor or waits for it. -/
def Claims (c : FloorController) (u : UserId) : Prop :=
  currentSpeaker c = some u ∨ u ∈ waiting c

instance (c : FloorController) (u : UserId) : Decidable (Claims c u) :=
  inferInstanceAs (Decidable (_ ∨ _))

/-- The answer to a request of `u` is Denied, or a place in the queue that `u` already has. -/
def TurnedAway (c : FloorController) (u : UserId) (priority : UInt8) : Prop :=
  match c.state with
  | .idle => False
  | .taken s sp _ _ => s ≠ u ∧ ¬(c.config.preemptionEnabled = true ∧ sp < priority) ∧
      (c.config.queuingEnabled = true → c.config.maxQueueSize ≤ c.queue.length)

instance : ∀ (c : FloorController) (u : UserId) (priority : UInt8),
    Decidable (TurnedAway c u priority)
  | { state := .idle, .. }, _, _ => inferInstanceAs (Decidable False)
  | { state := .taken .., .. }, _, _ => inferInstanceAs (Decidable (_ ∧ _ ∧ _))

section Floor
variable {c next : FloorController} {op : FloorOp} {acts : List FloorAction} {u w : UserId}

theorem claims_of_taken {sp : UInt8} {start last : Nat} (held : c.state = .taken u sp start last) :
    Claims c u := .inl (currentSpeaker_of_taken held)

/-- After a burst only waiters claim the floor. -/
theorem claims_endBurst {s : UserId} {action : FloorAction} {grantMs : Nat}
    (claims : Claims (endBurst c s action grantMs).1 w) : w ∈ waiting c := by
  rcases endBurst_cases c s action grantMs with ⟨_, ended⟩ | ⟨head, rest, queue, ended⟩
  · rw [ended] at claims
    rcases claims with holds | waits
    · simp [currentSpeaker] at holds
    · exact waits
  · rw [ended] at claims
    rw [waiting, queue, List.map_cons, List.mem_cons]
    rcases claims with holds | waits
    · simp only [currentSpeaker, take, Option.some.injEq] at holds
      exact .inl holds.symm
    · exact .inr waits

theorem claims_dequeue (claims : Claims (dequeue c u) w) : Claims c w := by
  rcases claims with holds | waits
  · exact .inl holds
  · rw [waiting_dequeue] at waits
    exact .inr (List.mem_of_mem_filter waits)

theorem not_waiting_dequeue (c : FloorController) (u : UserId) : u ∉ waiting (dequeue c u) := by
  rw [waiting_dequeue]
  simp

/-- Nobody but the requester of a request newly claims the floor. -/
theorem transition_claims (move : Transition c op next acts) (claims : Claims next w) :
    Claims c w ∨ ∃ p now, op = .request w p now := by
  have taken : ∀ {u p now}, Claims { take c u p now with prevSpeaker := none } w →
      Claims c w ∨ w = u := by
    intro u p now claims
    rcases claims with holds | waits
    · simp only [currentSpeaker, take, Option.some.injEq] at holds
      exact .inr holds.symm
    · exact .inl (.inr waits)
  cases move with
  | grantIdle idle =>
    rcases taken claims with before | rfl
    · exact .inl before
    · exact .inr ⟨_, _, rfl⟩
  | preempt held other enabled higher =>
    rcases taken claims with before | rfl
    · exact .inl before
    · exact .inr ⟨_, _, rfl⟩
  | enqueue held other yields absent space =>
    rcases claims with holds | waits
    · exact .inl (.inl holds)
    · rcases List.mem_cons.mp ((waiting_enqueue_perm c _).mem_iff.mp waits) with rfl | before
      · exact .inr ⟨_, _, rfl⟩
      · exact .inl (.inr before)
  | releaseHeld held => exact .inl (.inr (claims_endBurst claims))
  | expire held => exact .inl (.inr (claims_endBurst claims))
  | leaveHeld held => exact .inl (claims_dequeue (.inr (claims_endBurst claims)))
  | releaseOther held other => exact .inl (claims_dequeue claims)
  | leaveOther other => exact .inl (claims_dequeue claims)
  | cancel => exact .inl (claims_dequeue claims)
  | pingHeld held =>
    rcases claims with holds | waits
    · simp only [currentSpeaker, Option.some.injEq] at holds
      subst holds
      exact .inl (claims_of_taken held)
    · exact .inl (.inr waits)
  | grantAgain held => exact .inl claims
  | stillQueued held other yields present => exact .inl claims
  | deny held other yields => exact .inl claims
  | releaseIdle idle => exact .inl claims
  | pingOther other => exact .inl claims
  | timersQuiet => exact .inl claims

/-- Who leaves claims nothing any more. -/
theorem leaver_claims_nothing (c : FloorController) (u : UserId) (grantMs : Nat) :
    ¬ Claims (onParticipantLeave c u grantMs).1 u := by
  intro claims
  have move := onParticipantLeave_transition c u grantMs
  generalize (onParticipantLeave c u grantMs).1 = next at move claims
  generalize (onParticipantLeave c u grantMs).2 = acts at move
  cases move with
  | leaveHeld held => exact not_waiting_dequeue c u (claims_endBurst claims)
  | leaveOther other =>
    rcases claims with holds | waits
    · exact other holds
    · exact not_waiting_dequeue c u waits

/-- A request of somebody without a claim makes one, unless it is turned away. -/
theorem request_claims_iff (outside : ¬ Claims c u) (p : UInt8) (now : Nat) :
    Claims (FloorControl.request c u p now).1 u ↔ ¬ TurnedAway c u p := by
  have absent : waits c u = false := (waits_false_iff c u).mpr fun waits => outside (.inr waits)
  unfold FloorControl.request TurnedAway
  cases held : c.state with
  | idle => simp [Claims, currentSpeaker, take]
  | taken s sp start last =>
    have other : s ≠ u := by
      rintro rfl
      exact outside (claims_of_taken held)
    have joined : ∀ entry : QueueEntry, entry.userId = u → Claims (enqueue c entry) u := by
      rintro entry rfl
      exact .inr ((waiting_enqueue_perm c entry).mem_iff.mpr List.mem_cons_self)
    simp only [other, if_false, ne_eq, not_false_eq_true, true_and, absent]
    by_cases higher : c.config.preemptionEnabled = true ∧ sp < p
    · simp [higher, Claims, currentSpeaker, take]
    · simp only [higher, if_false, not_false_eq_true, true_and]
      by_cases queuing : c.config.queuingEnabled = true
      · by_cases full : c.config.maxQueueSize ≤ c.queue.length
        · simp [queuing, full, outside]
        · simp [queuing, full, joined]
      · simp [queuing, outside]

end Floor

section Handlers
variable (arcs : Ptr → Participant) (room : Room) (heap : Heap) (clk : Nat → Instant)

theorem fold_floor {σ β : Type} (floorOf : σ → FloorController) {f : σ → β → σ}
    (each : ∀ s b, floorOf (f s b) = floorOf s) (l : List β) (s : σ) :
    floorOf (l.foldl f s) = floorOf s := by
  induction l generalizing s with
  | nil => rfl
  | cons b l ih => exact (ih (f s b)).trans (each s b)

theorem applyFloorActions_floor (op : UInt16) (pid : Nat) (u : UserId) (run : FloorRun)
    (acts : List FloorAction) :
    (applyFloorActions arcs room clk op pid u run acts).1.ptt.floor = run.ptt.floor := by
  refine fold_floor (fun state : FloorRun × Reply => state.1.ptt.floor) (fun state act => ?_) acts _
  obtain ⟨run, response⟩ := state
  cases act with
  | granted speaker priority durationS =>
    simp only [applyFloorAction]
    split <;> simp
  | _ => simp [applyFloorAction]

theorem handleFloorRequest_floor (u : UserId) (pid : Nat) (priority : Option UInt8) (now : Nat) :
    (handleFloorRequest arcs room heap clk u pid priority now).1.ptt.floor =
      (FloorControl.request room.floor u (priority.getD floorDefaultPriority) now).1 := by
  refine fold_floor (fun state : FloorRun × Reply => state.1.ptt.floor) (fun state act => ?_) _ _
  obtain ⟨run, response⟩ := state
  cases act <;> simp [floorRequestAction]

theorem handleFloorRelease_floor (u : UserId) (pid : Nat) (grantMs : Nat) :
    (handleFloorRelease arcs room heap clk u pid grantMs).1.ptt.floor =
      (applyOp room.floor (.release u grantMs)).1 := by
  simp only [handleFloorRelease]
  rw [applyFloorActions_floor]
  refine fold_floor (fun run : FloorRun => run.ptt.floor) (fun run act => ?_) _ _
  cases act <;> simp

theorem handleMbcp_floor (sender : Ptr) (subtype : UInt8) (now grantMs : Nat) :
    (handleMbcp arcs room heap clk sender subtype now grantMs).ptt.floor =
      if subtype = mbcpSubtypeFreq then
        (FloorControl.request room.floor (arcs sender).userId floorDefaultPriority now).1
      else if subtype = mbcpSubtypeFrel then
        (applyOp room.floor (.release (arcs sender).userId grantMs)).1
      else if subtype = mbcpSubtypeFpng then
        (applyOp room.floor (.ping (arcs sender).userId now)).1
      else room.floor := by
  have applied : ∀ (acts : List FloorAction) (run : FloorRun),
      (acts.foldl (applyMbcpFloorAction arcs room clk sender) run).ptt.floor = run.ptt.floor := by
    intro acts run
    refine fold_floor (fun run : FloorRun => run.ptt.floor) (fun run act => ?_) acts run
    cases act <;> simp [applyMbcpFloorAction, sendMbcp]
  simp only [handleMbcp]
  split
  · exact applied _ _
  split
  · refine (applied _ _).trans ?_
    refine fold_floor (fun run : FloorRun => run.ptt.floor) (fun run act => ?_) _ _
    cases act <;> simp
  split <;> rfl

theorem floorTimerTick_floor (now grantMs : Nat) :
    (floorTimerTick arcs room heap clk now grantMs).ptt.floor =
      (applyOp room.floor (.checkTimers now grantMs)).1 := by
  refine fold_floor (fun run : FloorRun => run.ptt.floor) (fun run act => ?_) _ _
  cases act <;> simp [timerAction]

theorem floorLeave_floor (u : UserId) (grantMs : Nat) :
    (floorLeave arcs room heap clk u grantMs).ptt.floor =
      (FloorControl.onParticipantLeave room.floor u grantMs).1 := by
  simp only [floorLeave]
  split
  · rfl
  · simp only [flushPttSilence_ptt, clear_floor]
    exact applyFloorActions_floor arcs room clk opFloorRelease 0 u _ _

theorem prepareFanoutPayload_floor (mode : RoomMode) (ptt : PttState) (sender : UserId)
    (hdr : RtpPacket.RtpHeader) (p : Bytes) (now : Instant) :
    (prepareFanoutPayload mode ptt sender hdr p now).1.floor = ptt.floor := by
  have rewritten : (rewriteByPt ptt sender hdr p now).1.floor = ptt.floor := by
    unfold rewriteByPt
    split
    · rfl
    · split <;> rfl
  unfold prepareFanoutPayload
  split
  · split
    · rfl
    · split
      all_goals
        rename_i result
        rw [result] at rewritten
        exact rewritten
  · rfl

end Handlers

/-- Whoever holds the floor of a PTT room or waits for it is in the room. -/
def FloorOfMembers (hub : RoomHub) : Prop :=
  ∀ r room, hub.rooms.lookup r = some room → room.mode = .ptt →
    ∀ u, Claims room.floor u → u ∈ room.participants

theorem mem_participants {hub : RoomHub} {r : RoomId} {room : Room}
    (held : hub.rooms.lookup r = some room) (u : UserId) :
    u ∈ room.participants ↔ ∃ p, Member hub r u p := by
  rw [← AList.lookup_isSome, Option.isSome_iff_exists]
  constructor
  · intro ⟨p, here⟩
    exact ⟨p, room, held, here⟩
  · intro ⟨p, here⟩
    exact ⟨p, here.lookup held⟩

section Preservation
variable {hub next : RoomHub}

/-- Nobody moves, and new claims are made by participants only. -/
theorem FloorOfMembers.keep {work : RoomId → Room → PttState → Prop} (good : FloorOfMembers hub)
    (changes : Changes work False hub next)
    (inside : ∀ r before ptt, hub.rooms.lookup r = some before → work r before ptt →
      ∀ w, Claims ptt.floor w → Claims before.floor w ∨ w ∈ before.participants) :
    FloorOfMembers next := by
  intro r after found ptt w claims
  obtain ⟨before, held, mode, _, worked, never | same⟩ := changes r after found
  · exact never.elim
  rw [mode] at ptt
  simp only [seats, Prod.mk.injEq] at same
  rw [same.1]
  rcases worked with kept | worked
  · rw [kept] at claims
    exact good r before held ptt w claims
  · rcases inside r before _ held worked w claims with claims | member
    · exact good r before held ptt w claims
    · exact member

/-- The floors are left alone, and nobody leaves. -/
theorem FloorOfMembers.stay (good : FloorOfMembers hub) (changes : Changes noWork True hub next)
    (members : ∀ r u p, Member hub r u p → Member next r u p) : FloorOfMembers next := by
  intro r after found ptt w claims
  obtain ⟨before, held, mode, _, kept | never, _⟩ := changes r after found
  · rw [mode] at ptt
    rw [kept] at claims
    obtain ⟨p, here⟩ := (mem_participants held w).mp (good r before held ptt w claims)
    exact (mem_participants found w).mpr ⟨p, members r w p here⟩
  · exact never.elim

/-- Somebody without a claim is removed. -/
theorem FloorOfMembers.remove (good : FloorOfMembers hub) {r : RoomId} {u : UserId} {p : Ptr}
    (removed : hub.removeParticipant r u = .ok (next, p))
    (unclaimed : ∀ room, hub.rooms.lookup r = some room → room.mode = .ptt → ¬ Claims room.floor u) :
    FloorOfMembers next := by
  intro r' after found ptt w claims
  have changes : Changes noWork True hub next := .removeParticipant removed trivial
  obtain ⟨before, held, mode, _, kept | never, _⟩ := changes r' after found
  · rw [mode] at ptt
    rw [kept] at claims
    obtain ⟨q, here⟩ := (mem_participants held w).mp (good r' before held ptt w claims)
    refine (mem_participants found w).mpr
      ⟨q, (member_removeParticipant removed r' w q).mpr ⟨here, ?_⟩⟩
    intro ⟨at_, user⟩
    subst at_ user
    exact unclaimed before held ptt claims
  · exact never.elim

theorem create_floorOfMembers (good : FloorOfMembers hub) (creates : Creates hub next) :
    FloorOfMembers next := by
  obtain ⟨id, name, capacity, mode, createdAt, simulcast, a, v, rfl⟩ := creates
  intro r after found ptt w claims
  rcases create_found found with rfl | ⟨_, held⟩
  · rcases claims with holds | waits
    · simp [Room.new, FloorController.new, withConfig, currentSpeaker] at holds
    · simp [Room.new, FloorController.new, withConfig, waiting] at waits
  · exact good r after held ptt w claims

end Preservation

section Departure
variable {hub : RoomHub} (r : RoomId) (u : UserId) (o : Oracle)

theorem departOrStay_floor {after : Room}
    (found : (departOrStay hub r u o).1.rooms.lookup r = some after) (ptt : after.mode = .ptt) :
    ∃ c, after.floor = (FloorControl.onParticipantLeave c u o.grantMs).1 := by
  unfold departOrStay at found
  split at found
  · rename_i before held
    unfold departFloor at found
    dsimp only at found
    split at found
    · simp only [withPtt, lookup_modify_self, held, Option.map_some, Option.some.injEq] at found
      subst found
      exact ⟨before.floor, floorLeave_floor _ _ _ _ _ _⟩
    · rename_i conference
      simp only [held, Option.some.injEq] at found
      rw [found] at conference
      exact absurd ptt conference
  · rename_i absent
    rw [absent] at found
    simp at found

theorem departOrStay_floorOfMembers (good : FloorOfMembers hub) :
    FloorOfMembers (departOrStay hub r u o).1 := by
  have changes : Changes (fun _ before ptt =>
      ptt.floor = (FloorControl.onParticipantLeave before.floor u o.grantMs).1) False hub
      (departOrStay hub r u o).1 :=
    departOrStay_changes hub r u o fun _ _ _ => floorLeave_floor _ _ _ _ _ _
  apply good.keep changes
  intro r' before ptt _ worked w claims
  rw [worked] at claims
  rcases transition_claims (onParticipantLeave_transition before.floor u o.grantMs) claims with
    before | ⟨_, _, asked⟩
  · exact .inl before
  · simp at asked

theorem handleRoomLeave_floorOfMembers (good : FloorOfMembers hub) (session : Session)
    (pid : Nat) : FloorOfMembers (handleRoomLeave hub session pid u (some r) o).hub := by
  have departed := departOrStay_floorOfMembers r u o good
  simp only [handleRoomLeave]
  split
  · exact departed
  · rename_i removed p result
    have gone : FloorOfMembers removed := by
      apply departed.remove result
      intro room held ptt claims
      obtain ⟨c, floor⟩ := departOrStay_floor r u o held ptt
      rw [floor] at claims
      exact leaver_claims_nothing c u o.grantMs claims
    unfold announceLeave
    split <;> exact gone

theorem cleanup_floorOfMembers (good : FloorOfMembers hub) (session : Session) :
    FloorOfMembers (cleanup hub session o).1 := by
  unfold cleanup
  split
  · rename_i r u _ _
    cases held : hub.rooms.lookup r with
    | none =>
      simp only [cleanupOrStay, held, removeOrLog]
      split
      · rename_i result
        obtain ⟨room, held', _⟩ := removeParticipant_ok.mp result
        rw [held] at held'
        simp at held'
      · exact good
    | some room =>
      have departed := departOrStay_floorOfMembers r u o good
      have floor := @departOrStay_floor hub r u o
      simp only [departOrStay, held] at departed floor
      simp only [cleanupOrStay, held, cleanupRoom, removeOrLog]
      split
      · rename_i result
        have told : FloorOfMembers { (departFloor hub r room u o).1 with
            heap := purgeSubscribeLayers room (departFloor hub r room u o).1.heap u } := departed
        apply told.remove result
        intro after found ptt claims
        obtain ⟨c, left⟩ := floor found ptt
        rw [left] at claims
        exact leaver_claims_nothing c u o.grantMs claims
      · exact departed
  · exact good

end Departure

section Reaper
variable (hub : RoomHub) (nowMs timeoutMs : Nat)

/-- The reaper takes the participant for a zombie. -/
def Stale (p : Ptr) : Prop :=
  0 < (hub.heap p).lastSeen ∧ timeoutMs < nowMs - (hub.heap p).lastSeen

theorem mem_zombieIds (room : Room) (u : UserId) :
    u ∈ hub.zombieIds room nowMs timeoutMs ↔
      ∃ p, room.participants.lookup u = some p ∧ Stale hub nowMs timeoutMs p := by
  simp only [zombieIds, List.mem_map, List.mem_filter, decide_eq_true_eq, Prod.exists, mem_toList]
  constructor
  · intro ⟨u', p, ⟨here, stale⟩, same⟩
    subst same
    exact ⟨p, here, stale⟩
  · intro ⟨p, here, stale⟩
    exact ⟨u, p, ⟨here, stale⟩, rfl⟩

theorem reapOne_member (r : RoomId) (state : RoomHub × List (RoomId × Ptr)) (u : UserId) :
    (reapOne r state u).1.heap = state.1.heap ∧ ∀ r' u' p, Member (reapOne r state u).1 r' u' p ↔
      Member state.1 r' u' p ∧ ¬(r' = r ∧ u' = u) := by
  unfold reapOne
  split
  · rename_i removed
    exact ⟨(removeParticipant_fixed removed).2.1, member_removeParticipant removed⟩
  · rename_i failed
    exact ⟨rfl, (removes_of_absent (absent_of_error failed)).member⟩

theorem reapUsers_member (r : RoomId) (users : List UserId) (state : RoomHub × List (RoomId × Ptr)) :
    (users.foldl (reapOne r) state).1.heap = state.1.heap ∧
      ∀ r' u' p, Member (users.foldl (reapOne r) state).1 r' u' p ↔
        Member state.1 r' u' p ∧ ¬(r' = r ∧ u' ∈ users) := by
  induction users generalizing state with
  | nil => simp
  | cons u users ih =>
    obtain ⟨heap, members⟩ := ih (reapOne r state u)
    obtain ⟨heap', members'⟩ := reapOne_member r state u
    refine ⟨heap.trans heap', fun r' u' p => ?_⟩
    rw [List.foldl_cons, members, members', List.mem_cons]
    tauto

theorem reapRoom_member (state : RoomHub × List (RoomId × Ptr)) (same : state.1.heap = hub.heap)
    (r : RoomId) :
    (reapRoom nowMs timeoutMs state r).1.heap = hub.heap ∧
      ∀ r' u p, Member (reapRoom nowMs timeoutMs state r).1 r' u p ↔
        Member state.1 r' u p ∧ ¬(r' = r ∧ Stale hub nowMs timeoutMs p) := by
  unfold reapRoom
  split
  · rename_i room held
    obtain ⟨heap, members⟩ := reapUsers_member r (state.1.zombieIds room nowMs timeoutMs) state
    refine ⟨heap.trans same, fun r' u p => ?_⟩
    rw [members]
    refine and_congr_right fun here => not_congr (and_congr_right fun at_ => ?_)
    subst at_
    have entry := here.lookup held
    rw [mem_zombieIds]
    simp only [entry, Option.some.injEq, exists_eq_left', Stale, same]
  · rename_i absent
    refine ⟨same, fun r' u p => ?_⟩
    rw [iff_self_and]
    intro here gone
    obtain ⟨room, held, _⟩ := here
    rw [gone.1, absent] at held
    simp at held

/-- The reaper removes exactly the participants that it takes for zombies. -/
theorem reapZombies_member (r : RoomId) (u : UserId) (p : Ptr) :
    Member (hub.reapZombies nowMs timeoutMs).1 r u p ↔
      Member hub r u p ∧ ¬ Stale hub nowMs timeoutMs p := by
  have all : ∀ (ids : List RoomId) (state : RoomHub × List (RoomId × Ptr)),
      state.1.heap = hub.heap → ∀ r u p,
      Member (ids.foldl (reapRoom nowMs timeoutMs) state).1 r u p ↔
        Member state.1 r u p ∧ ¬(r ∈ ids ∧ Stale hub nowMs timeoutMs p) := by
    intro ids
    induction ids with
    | nil => simp
    | cons id ids ih =>
      intro state same r u p
      obtain ⟨heap, members⟩ := reapRoom_member hub nowMs timeoutMs state same id
      rw [List.foldl_cons, ih _ heap, members, List.mem_cons]
      tauto
  rw [reapZombies, all _ (hub, []) rfl]
  refine and_congr_right fun here => ?_
  obtain ⟨room, held, _⟩ := here
  have listed : r ∈ hub.rooms.keys := by
    rw [← AList.mem_keys, ← AList.lookup_isSome, held]
    rfl
  simp only [listed, true_and]

/-- The floors of the rooms. -/
def floorsOf (hub : RoomHub) (r : RoomId) : Option (RoomMode × FloorController) :=
  (hub.rooms.lookup r).map fun room => (room.mode, room.floor)

theorem reapZombies_floors (r : RoomId) :
    floorsOf (hub.reapZombies nowMs timeoutMs).1 r = floorsOf hub r := by
  have kept : ∀ r, floorsOf (hub.reapZombies nowMs timeoutMs).1 r = floorsOf hub r := by
    apply @reapZombies_keeps (fun next => ∀ r, floorsOf next r = floorsOf hub r)
    · intro before id u next p same removed r
      rw [← same r, floorsOf, floorsOf, removeParticipant_lookup removed]
      split
      · rename_i at_
        rw [at_]
        cases before.rooms.lookup id <;> rfl
      · rfl
    · exact fun _ => rfl
  exact kept r

/-- No one with a claim on the floor of a PTT room is a zombie. -/
def SparesClaimants : Prop :=
  ∀ r room, hub.rooms.lookup r = some room → room.mode = .ptt → ∀ u p, Claims room.floor u →
    room.participants.lookup u = some p → ¬ Stale hub nowMs timeoutMs p

theorem runZombieReaper_floorOfMembers (good : FloorOfMembers hub) :
    FloorOfMembers (runZombieReaper hub nowMs).1 ↔ SparesClaimants hub nowMs zombieTimeoutMs := by
  have rooms : (runZombieReaper hub nowMs).1.rooms = (hub.reapZombies nowMs zombieTimeoutMs).1.rooms := by
    rw [runZombieReaper, announceReaped_hub]
  have floors := reapZombies_floors hub nowMs zombieTimeoutMs
  have members := reapZombies_member hub nowMs zombieTimeoutMs
  constructor
  · intro after r room held ptt u p claims here stale
    have view := floors r
    rw [floorsOf, floorsOf, held, Option.map_some, Option.map_eq_some_iff] at view
    obtain ⟨left, found, fields⟩ := view
    simp only [Prod.mk.injEq] at fields
    have inside := after r left (by rw [rooms]; exact found) (by rw [fields.1]; exact ptt) u
      (by rw [fields.2]; exact claims)
    obtain ⟨q, there⟩ := (mem_participants found u).mp inside
    obtain ⟨before, fresh⟩ := (members r u q).mp there
    rw [member_unique ⟨room, held, here⟩ before] at stale
    exact fresh stale
  · intro spares r left found ptt u claims
    rw [rooms] at found
    have view := floors r
    rw [floorsOf, floorsOf, found, Option.map_some, eq_comm, Option.map_eq_some_iff] at view
    obtain ⟨room, held, fields⟩ := view
    simp only [Prod.mk.injEq] at fields
    rw [← fields.1] at ptt
    rw [← fields.2] at claims
    obtain ⟨p, here⟩ := (mem_participants held u).mp (good r room held ptt u claims)
    have entry := here.lookup held
    exact (mem_participants found u).mpr
      ⟨p, (members r u p).mpr ⟨here, spares r room held ptt u p claims entry⟩⟩

end Reaper

section Step
variable (hmacSha1 : Bytes → Bytes → Bytes) (crc32 : Bytes → UInt32)

/-- A floor request over WS comes from a participant of the room, or is turned away; and
    the reaper finds nobody silent who has a claim on the floor of a PTT room. -/
def MembersOnly (s : Server) : Event → Prop
  | .request conn _ (.floorRequest (some d)) _ => ∀ session, s.sessions conn = some session →
      ∀ u, session.userId = some u → ∀ room, s.hub.rooms.lookup d.roomId = some room →
        room.mode = .ptt →
          u ∈ room.participants ∨ TurnedAway room.floor u (d.priority.getD floorDefaultPriority)
  | .reaper nowMs => SparesClaimants s.hub nowMs zombieTimeoutMs
  | _ => True

theorem withPtt_floorOfMembers_iff {hub : RoomHub} (good : FloorOfMembers hub) {r : RoomId}
    {room : Room} (held : hub.rooms.lookup r = some room) (ptt : room.mode = .ptt) {u : UserId}
    {p : UInt8} {now : Nat} {next : PttState}
    (asked : next.floor = (FloorControl.request room.floor u p now).1) (heap : Heap) :
    FloorOfMembers (withPtt hub r next heap) ↔
      u ∈ room.participants ∨ TurnedAway room.floor u p := by
  have found : (withPtt hub r next heap).rooms.lookup r =
      some { room with toPttState := next } := by
    rw [withPtt, lookup_modify_self, held, Option.map_some]
  constructor
  · intro after
    by_cases member : u ∈ room.participants
    · exact .inl member
    right
    have outside : ¬ Claims room.floor u := fun claims => member (good r room held ptt u claims)
    by_contra answered
    have claims := (request_claims_iff outside p now).mpr answered
    rw [← asked] at claims
    exact member (after r _ found ptt u claims)
  · intro allowed
    have changes : Changes (fun r' before ptt => r' = r ∧ before = room ∧ ptt = next) False hub
        (withPtt hub r next heap) := .withPtt held ⟨rfl, rfl, rfl⟩ heap
    apply good.keep changes
    intro r' before ptt' _ worked w claims
    obtain ⟨at_, same, result⟩ := worked
    subst at_ same result
    rw [asked] at claims
    have before := transition_claims (request_transition before.floor u p now) claims
    rcases before with before | ⟨_, _, asked⟩
    · exact .inl before
    · rw [FloorOp.request.injEq] at asked
      obtain ⟨same, _, _⟩ := asked
      subst same
      by_cases claimed : Claims before.floor u
      · exact .inl claimed
      · exact .inr (allowed.resolve_right ((request_claims_iff claimed p now).mp claims))

/-- Every other floor handler lets participants only make a claim: the sender of an MBCP
    request is one. -/
theorem work_inside {s : Server} (seated : Seated s.hub) {e : Event} {r : RoomId} {before : Room}
    {ptt : PttState} (held : s.hub.rooms.lookup r = some before)
    (work : FloorWork s e r before ptt)
    (notWs : ∀ conn pid d o, e ≠ .request conn pid (.floorRequest d) o) (w : UserId)
    (claims : Claims ptt.floor w) : Claims before.floor w ∨ w ∈ before.participants := by
  have other : ∀ {op}, (∀ u p now, op ≠ .request u p now) →
      Claims (applyOp before.floor op).1 w → Claims before.floor w ∨ w ∈ before.participants := by
    intro op never claims
    rcases transition_claims (applyOp_transition before.floor op) claims with
      before | ⟨p, now, asked⟩
    · exact .inl before
    · exact absurd asked (never w p now)
  cases work with
  | request => exact absurd rfl (notWs _ _ _ _)
  | release =>
    rw [handleFloorRelease_floor] at claims
    exact other (by simp) claims
  | @ping conn session pid u r o room =>
    exact @other (.ping u o.nowMs) (by simp) claims
  | @leave conn session pid u r o room heap =>
    rw [floorLeave_floor] at claims
    exact @other (.onParticipantLeave u o.grantMs) (by simp) claims
  | @close conn session u r o room heap =>
    rw [floorLeave_floor] at claims
    exact @other (.onParticipantLeave u o.grantMs) (by simp) claims
  | timer =>
    rw [floorTimerTick_floor] at claims
    exact other (by simp) claims
  | @mbcp remote subtype touchMs sender pc r o room heap found =>
    rw [handleMbcp_floor] at claims
    split at claims
    · rcases transition_claims (request_transition before.floor _ _ _) claims with
        already | ⟨p, now, asked⟩
      · exact .inl already
      · rw [FloorOp.request.injEq] at asked
        rw [← asked.1]
        exact .inr ((mem_participants held _).mpr ⟨sender, seated.sender found⟩)
    split at claims
    · exact other (by simp) claims
    split at claims
    · exact other (by simp) claims
    · exact .inl claims
  | relay =>
    rw [prepareFanoutPayload_floor] at claims
    exact .inl claims

theorem quiet_floorOfMembers {s : Server} (seated : Seated s.hub) (good : FloorOfMembers s.hub)
    {e : Event} (still : ¬ Moves e)
    (notWs : ∀ conn pid d o, e ≠ .request conn pid (.floorRequest d) o) :
    FloorOfMembers (Servers.step hmacSha1 crc32 s e).hub := by
  rcases step_changes hmacSha1 crc32 s e with changes | creates
  · have settled : Changes (FloorWork s e) False s.hub (Servers.step hmacSha1 crc32 s e).hub := by
      intro r after found
      obtain ⟨before, held, mode, simulcast, worked, moved | same⟩ := changes r after found
      · exact absurd moved still
      · exact ⟨before, held, mode, simulcast, worked, .inr same⟩
    exact good.keep settled fun r before ptt held work => work_inside seated held work notWs
  · exact create_floorOfMembers good creates

theorem floorRequest_floorOfMembers {s : Server} (good : FloorOfMembers s.hub) (conn : ConnId)
    (pid : Nat) (d : Option FloorRequestMsg) (o : Oracle) :
    FloorOfMembers (Servers.request s conn pid (.floorRequest d) o).hub ↔
      MembersOnly s (.request conn pid (.floorRequest d) o) := by
  cases d with
  | none =>
    refine iff_of_true ?_ trivial
    simp only [Servers.request]
    split
    · exact good
    · rename_i session _
      cases user : session.userId <;> simpa [dispatch, user, pttRoom, floorRoom, onFloor] using good
  | some d =>
    simp only [MembersOnly, Servers.request]
    cases here : s.sessions conn with
    | none => simpa using good
    | some session =>
      cases user : session.userId with
      | none => simpa [dispatch, user] using good
      | some u =>
        cases held : s.hub.rooms.lookup d.roomId with
        | none => simpa [dispatch, user, pttRoom, floorRoom, onFloor, held] using good
        | some room =>
          by_cases ptt : room.mode = .ptt
          · have exact_ := withPtt_floorOfMembers_iff good held ptt
              (handleFloorRequest_floor s.hub.arcs room s.hub.heap o.clk u pid d.priority o.nowMs)
              (handleFloorRequest s.hub.arcs room s.hub.heap o.clk u pid d.priority o.nowMs).1.heap
            simpa [dispatch, user, pttRoom, floorRoom, onFloor, held, ptt] using exact_
          · simpa [dispatch, user, pttRoom, floorRoom, onFloor, held, ptt] using good

theorem roomJoin_floorOfMembers {hub : RoomHub} (good : FloorOfMembers hub) (session : Session)
    (pid : Nat) (u : UserId) (roomId : Option RoomId) (o : Oracle) :
    FloorOfMembers (handleRoomJoin hub session pid u roomId o).hub := by
  cases roomId with
  | none => exact good
  | some r =>
    rcases @handleRoomJoin_cases hub session pid u r o with
      ⟨_, same, _⟩ | ⟨_, registers, _⟩
    · rw [same]
      exact good
    · exact good.stay (handleRoomJoin_changes hub session pid u (some r) o trivial)
        fun r' u' p here => (registers.member r' u' p).mpr (.inl here)

theorem stun_floorOfMembers {hub : RoomHub} (good : FloorOfMembers hub) (buf : Bytes)
    (remote : SocketAddr) (now : Nat) (dtlsHas : Bool) :
    FloorOfMembers (StunLatch.handleStun hmacSha1 crc32 hub buf remote now dtlsHas).1 := by
  refine good.stay (handleStun_changes hub hmacSha1 crc32 buf remote now dtlsHas trivial)
    fun r u p here => ?_
  rw [StunLatch.handleStun_hub]
  split
  · exact here
  · exact ((latchSession_same hub _ _ _ remote).member_iff r u p).mpr here

theorem step_floorOfMembers_iff (s : Server) (e : Event) (seated : Seated s.hub)
    (good : FloorOfMembers s.hub) :
    FloorOfMembers (Servers.step hmacSha1 crc32 s e).hub ↔ MembersOnly s e := by
  have quiet : ¬ Moves e → (∀ conn pid d o, e ≠ .request conn pid (.floorRequest d) o) →
      FloorOfMembers (Servers.step hmacSha1 crc32 s e).hub :=
    quiet_floorOfMembers hmacSha1 crc32 seated good
  cases e with
  | request conn pid req o =>
    cases req with
    | floorRequest d => exact floorRequest_floorOfMembers good conn pid d o
    | roomJoin roomId =>
      refine iff_of_true ?_ trivial
      simp only [Servers.step, Servers.request]
      split
      · exact good
      · rename_i session _
        cases user : session.userId with
        | none => simpa only [dispatch, user] using good
        | some u =>
          simp only [dispatch, user]
          exact roomJoin_floorOfMembers good session pid u roomId o
    | roomLeave roomId =>
      refine iff_of_true ?_ trivial
      simp only [Servers.step, Servers.request]
      split
      · exact good
      · rename_i session _
        cases user : session.userId with
        | none => simpa only [dispatch, user] using good
        | some u =>
          simp only [dispatch, user]
          cases roomId with
          | none => exact good
          | some r => exact handleRoomLeave_floorOfMembers r u o good session pid
    | _ => exact iff_of_true (quiet (fun moved => moved) (by simp)) trivial
  | close conn o =>
    refine iff_of_true ?_ trivial
    simp only [Servers.step, Servers.close]
    split
    · exact good
    · exact cleanup_floorOfMembers o good _
  | reaper nowMs => exact runZombieReaper_floorOfMembers s.hub nowMs good
  | stun remote buf nowMs dtlsHas =>
    exact iff_of_true (stun_floorOfMembers hmacSha1 crc32 good buf remote nowMs dtlsHas) trivial
  | _ => exact iff_of_true (quiet (fun moved => moved) (by simp)) trivial

theorem new_floorOfMembers : FloorOfMembers Server.new.hub := by
  intro r room held
  simp [Server.new, RoomHub.new] at held

/-- The floors belong to participants all along a run exactly when nobody asks from outside
    and is heard, and the reaper spares whoever has a claim. -/
theorem floor_of_members_iff_members_only (es : List Event) :
    Always (Servers.step hmacSha1 crc32) (fun s => FloorOfMembers s.hub) Server.new es ↔
      Guarded (Servers.step hmacSha1 crc32) MembersOnly Server.new es :=
  @always_iff_guarded _ _ (Servers.step hmacSha1 crc32) MembersOnly (fun s => FloorOfMembers s.hub)
    (fun s => Seated s.hub) (step_seated hmacSha1 crc32) (step_floorOfMembers_iff hmacSha1 crc32)
    Server.new new_seated new_floorOfMembers es

end Step

/-- A takes the floor of a PTT room and is not heard of for more than two minutes. -/
def speakerVanishes : List Event :=
  sampleRoom .ptt false :: joinAs 0 "a" 1 ++ [requestFloor 0, .reaper 122000]

theorem reaped_speaker_holds_floor :
    ¬ ∀ (hmacSha1 : Bytes → Bytes → Bytes) (crc32 : Bytes → UInt32) (es : List Event),
      FloorOfMembers (run (Servers.step hmacSha1 crc32) Server.new es).hub := by
  intro all
  let hub := (run (Servers.step (fun _ _ => []) fun _ => 0) Server.new speakerVanishes).hub
  have good : FloorOfMembers hub := all (fun _ _ => []) (fun _ => 0) speakerVanishes
  let room := (hub.rooms.lookup "room").get (by decide)
  have held : hub.rooms.lookup "room" = some room := (Option.some_get _).symm
  exact absurd (good "room" room held (by decide) "a" (by decide)) (by decide)

end FloorMembership
