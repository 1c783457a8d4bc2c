import OxlensSfu.FloorQueue

/-
How long a burst can last. The ledger dates every burst from the actions alone:
a grant opens it at the reading of the clock it was made with, a release or a
revocation closes it.
-/
namespace BurstLimits
open FloorControl FloorQueue GuardedRun

/-- Holder and burst_start of the burst in progress. -/
def burstOf (c : FloorController) : Option (UserId × Nat) :=
  match c.state with
  | .idle => none
  | .taken speaker _ burstStart _ => some (speaker, burstStart)

/-- The reading of the clock a burst that the operation grants starts at. -/
def grantedAt : FloorOp → Nat
  | .request _ _ nowMs => nowMs
  | .ping _ nowMs => nowMs
  | .cancelQueue _ => 0
  | .release _ grantMs => grantMs
  | .checkTimers _ grantMs => grantMs
  | .onParticipantLeave _ grantMs => grantMs

/-- A grant to the holder of a burst in progress repeats the answer and opens none. -/
def date (reading : Nat) (burst : Option (UserId × Nat)) : FloorAction → Option (UserId × Nat)
  | .granted speaker .. => burst.or (some (speaker, reading))
  | .released _ => none
  | .revoked .. => none
  | _ => burst

def grants (acts : List FloorAction) : Bool :=
  acts.any fun | .granted .. => true | _ => false

/-- `_try_grant_next` reads the clock only when it pops a waiter. -/
def readings (c : FloorController) (op : FloorOp) : List Nat :=
  let popped (grantMs : Nat) := if grants (applyOp c op).2 then [grantMs] else []
  match op with
  | .request _ _ nowMs => [nowMs]
  | .ping _ nowMs => [nowMs]
  | .cancelQueue _ => []
  | .release _ grantMs => popped grantMs
  | .checkTimers nowMs grantMs => nowMs :: popped grantMs
  | .onParticipantLeave _ grantMs => popped grantMs

structure Ledger where
  controller : FloorController
  burst : Option (UserId × Nat)
  clock : Nat

def opened (config : FloorConfig) : Ledger := ⟨withConfig config, none, 0⟩

def advance (l : Ledger) (op : FloorOp) : Ledger where
  controller := step l.controller op
  burst := (applyOp l.controller op).2.foldl (date (grantedAt op)) l.burst
  clock := (readings l.controller op).getLast?.getD l.clock

def InOrder (l : Ledger) (op : FloorOp) : Prop :=
  (l.clock :: readings l.controller op).Pairwise (· ≤ ·)

instance (l : Ledger) (op : FloorOp) : Decidable (InOrder l op) :=
  inferInstanceAs (Decidable (List.Pairwise _ _))

/-- Natural subtraction saturates, as `saturating_sub` does. -/
def WithinLimits (c : FloorController) (now : Nat) : Prop :=
  ∀ speaker priority burstStart lastPing,
    c.state = .taken speaker priority burstStart lastPing →
    now - burstStart ≤ c.config.maxBurstMs ∧ now - lastPing ≤ c.config.pingTimeoutMs

structure BurstKept (l : Ledger) (op : FloorOp) : Prop where
  /-- burst_start is the reading the burst in progress was granted with. -/
  dated : burstOf (advance l op).controller = (advance l op).burst
  goesOn : ∀ speaker burstStart, burstOf l.controller = some (speaker, burstStart) →
    ¬ EndsBurst (applyOp l.controller op).2 speaker →
    burstOf (advance l op).controller = some (speaker, burstStart)
  limited : ∀ now grantMs, op = .checkTimers now grantMs →
    WithinLimits (advance l op).controller now

/-- Ending the burst of `s` closes the dated burst; the popped waiter opens its own. -/
theorem endBurst_dated (c : FloorController) (s : UserId) {action : FloorAction}
    (grantMs : Nat) (closes : ∀ burst, date grantMs burst action = none)
    (burst : Option (UserId × Nat)) :
    burstOf (endBurst c s action grantMs).1 =
      (endBurst c s action grantMs).2.foldl (date grantMs) burst := by
  rcases endBurst_cases c s action grantMs with ⟨_, ended⟩ | ⟨next, rest, _, ended⟩
  · rw [ended, List.foldl_cons, closes]
    rfl
  · rw [ended, List.foldl_cons, closes]
    rfl

theorem transition_dated {c next : FloorController} {op : FloorOp} {acts : List FloorAction}
    (move : Transition c op next acts) :
    burstOf next = acts.foldl (date (grantedAt op)) (burstOf c) := by
  cases move with
  | grantIdle idle => simp [burstOf, take, idle, date, grantedAt]
  | grantAgain held => simp [burstOf, held, date]
  | preempt held => simp [burstOf, take, date, grantedAt]
  | stillQueued => rfl
  | enqueue => rfl
  | deny => rfl
  | releaseHeld => exact endBurst_dated _ _ _ (fun _ => rfl) _
  | releaseOther => rfl
  | releaseIdle idle => simp [burstOf, idle, date]
  | pingHeld held => simp [burstOf, held, date]
  | pingOther => rfl
  | cancel => rfl
  | expire => exact endBurst_dated _ _ _ (fun _ => rfl) _
  | timersQuiet => rfl
  | leaveHeld => exact endBurst_dated _ _ _ (fun _ => rfl) _
  | leaveOther => rfl

theorem burstOf_speaker {c : FloorController} {speaker : UserId} {burstStart : Nat}
    (burst : burstOf c = some (speaker, burstStart)) : currentSpeaker c = some speaker := by
  cases held : c.state with
  | idle => simp [burstOf, held] at burst
  | taken s sp start last =>
    simp only [burstOf, held, Option.some.injEq, Prod.mk.injEq] at burst
    simp [currentSpeaker, held, burst.1]

theorem endBurst_ends (c : FloorController) (s : UserId) (action : FloorAction) (grantMs : Nat) :
    action ∈ (endBurst c s action grantMs).2 := by
  rcases endBurst_cases c s action grantMs with ⟨_, ended⟩ | ⟨next, rest, _, ended⟩
  · rw [ended]
    exact List.mem_cons_self
  · rw [ended]
    exact List.mem_cons_self

/-- Pings and repeated requests leave burst_start alone: only an end moves it. -/
theorem transition_goesOn {c next : FloorController} {op : FloorOp} {acts : List FloorAction}
    (move : Transition c op next acts) {speaker : UserId} {burstStart : Nat}
    (burst : burstOf c = some (speaker, burstStart)) (unended : ¬ EndsBurst acts speaker) :
    burstOf next = some (speaker, burstStart) := by
  have holder := burstOf_speaker burst
  cases move with
  | grantIdle idle => simp [currentSpeaker, idle] at holder
  | grantAgain => exact burst
  | preempt held =>
    simp only [currentSpeaker, held, Option.some.injEq] at holder
    exact absurd (.inr ⟨_, by rw [holder]; exact List.mem_cons_self⟩) unended
  | stillQueued => exact burst
  | enqueue => exact burst
  | deny => exact burst
  | releaseHeld held =>
    simp only [currentSpeaker, held, Option.some.injEq] at holder
    exact absurd (.inl (by rw [← holder]; exact endBurst_ends _ _ _ _)) unended
  | releaseOther => exact burst
  | releaseIdle => exact burst
  | pingHeld held => simpa [burstOf, held] using burst
  | pingOther => exact burst
  | cancel => exact burst
  | expire held =>
    simp only [currentSpeaker, held, Option.some.injEq] at holder
    exact absurd (.inr ⟨_, by rw [← holder]; exact endBurst_ends _ _ _ _⟩) unended
  | timersQuiet => exact burst
  | leaveHeld held =>
    simp only [currentSpeaker, held, Option.some.injEq] at holder
    exact absurd (.inl (by rw [← holder]; exact endBurst_ends _ _ _ _)) unended
  | leaveOther => exact burst

/-- The timers end one burst and start another at a reading that is no earlier than theirs. -/
theorem endBurst_limits (c : FloorController) (s : UserId) (action : FloorAction)
    {now grantMs : Nat} (later : grants (endBurst c s action grantMs).2 = true → now ≤ grantMs) :
    WithinLimits (endBurst c s action grantMs).1 now := by
  intro speaker priority burstStart lastPing held
  rcases endBurst_cases c s action grantMs with ⟨_, ended⟩ | ⟨next, rest, _, ended⟩
  · rw [ended] at held
    cases held
  · rw [ended] at held later ⊢
    have after : now ≤ grantMs := later (by simp [grants])
    cases held
    rw [Nat.sub_eq_zero_of_le after]
    exact ⟨Nat.zero_le _, Nat.zero_le _⟩

theorem checkTimers_limits (c : FloorController) {now grantMs : Nat}
    (later : grants (checkTimers c now grantMs).2 = true → now ≤ grantMs) :
    WithinLimits (checkTimers c now grantMs).1 now := by
  cases held : c.state with
  | idle =>
    intro speaker priority burstStart lastPing state
    simp only [checkTimers, held, reduceCtorEq] at state
  | taken s sp start last =>
    by_cases old : c.config.maxBurstMs < now - start
    · have ended : checkTimers c now grantMs =
          endBurst c s (.revoked s "max burst exceeded") grantMs := by
        simp only [checkTimers, held, if_pos old]
      rw [ended] at later ⊢
      exact endBurst_limits c s _ later
    by_cases lost : c.config.pingTimeoutMs < now - last
    · have ended : checkTimers c now grantMs =
          endBurst c s (.revoked s "participant lost") grantMs := by
        simp only [checkTimers, held, if_neg old, if_pos lost]
      rw [ended] at later ⊢
      exact endBurst_limits c s _ later
    · have quiet : checkTimers c now grantMs = (c, []) := by
        simp only [checkTimers, held, if_neg old, if_neg lost]
      rw [quiet]
      intro speaker priority burstStart lastPing state
      cases held.symm.trans state
      exact ⟨Nat.le_of_not_lt old, Nat.le_of_not_lt lost⟩

theorem inOrder_timers {l : Ledger} {now grantMs : Nat}
    (ordered : InOrder l (.checkTimers now grantMs))
    (popped : grants (checkTimers l.controller now grantMs).2 = true) : now ≤ grantMs := by
  have listed : readings l.controller (.checkTimers now grantMs) = [now, grantMs] := by
    simp [readings, applyOp, popped]
  rw [InOrder, listed] at ordered
  exact (List.pairwise_cons.mp (List.pairwise_cons.mp ordered).2).1 grantMs (by simp)

theorem advance_kept (l : Ledger) (op : FloorOp) (dated : burstOf l.controller = l.burst)
    (ordered : InOrder l op) : BurstKept l op := by
  have move := applyOp_transition l.controller op
  refine ⟨?_, fun speaker burstStart burst unended => transition_goesOn move burst unended, ?_⟩
  · rw [advance, ← dated]
    exact transition_dated move
  · rintro now grantMs rfl
    exact checkTimers_limits l.controller (inOrder_timers ordered)

theorem burst_limits_kept (config : FloorConfig) (ops : List FloorOp)
    (ordered : Guarded advance InOrder (opened config) ops) :
    Guarded advance BurstKept (opened config) ops :=
  guarded_of_invariant (fun l op dated inOrder => (advance_kept l op dated inOrder).dated)
    (fun l op dated inOrder => advance_kept l op dated inOrder) rfl ordered

/-- B is granted by the same call of the timers that revokes A's burst. -/
theorem burst_limits_kept_handover : Guarded advance BurstKept (opened .default)
    [.request "A" 0 0, .request "B" 0 10, .ping "A" 29000, .request "A" 0 30000,
      .checkTimers 31000 31001] :=
  burst_limits_kept .default _ (by decide)

end BurstLimits
