import Mathlib.Data.List.Basic

/-
Runs of a deterministic transition system. A guard is a condition on the state
before an event. A property whose one-step preservation is exactly its guard
holds all along a run exactly when every event of the run meets the guard.
-/
namespace GuardedRun
variable {State Event : Type}

def run (step : State → Event → State) (s : State) (es : List Event) : State :=
  es.foldl step s

/-- Every event of the run meets the guard in the state it finds. -/
def Guarded (step : State → Event → State) (guard : State → Event → Prop) :
    State → List Event → Prop
  | _, [] => True
  | s, e :: es => guard s e ∧ Guarded step guard (step s e) es

instance decidableGuarded (step : State → Event → State) (guard : State → Event → Prop)
    [met : ∀ s e, Decidable (guard s e)] :
    ∀ s es, Decidable (Guarded step guard s es)
  | _, [] => isTrue trivial
  | s, e :: es =>
    have := met s e
    have := decidableGuarded step guard (step s e) es
    inferInstanceAs (Decidable (_ ∧ _))

/-- The property holds in the start state and after every event of the run. -/
def Always (step : State → Event → State) (good : State → Prop) : State → List Event → Prop
  | s, [] => good s
  | s, e :: es => good s ∧ Always step good (step s e) es

instance decidableAlways (step : State → Event → State) (good : State → Prop)
    [met : ∀ s, Decidable (good s)] : ∀ s es, Decidable (Always step good s es)
  | s, [] => met s
  | s, e :: es =>
    have := met s
    have := decidableAlways step good (step s e) es
    inferInstanceAs (Decidable (_ ∧ _))

section Rules
variable {step : State → Event → State} {guard : State → Event → Prop} {good inv : State → Prop}

@[simp] theorem run_nil (s : State) : run step s [] = s := rfl

@[simp] theorem run_cons (s : State) (e : Event) (es : List Event) :
    run step s (e :: es) = run step (step s e) es := rfl

theorem guarded_invariant (preserve : ∀ s e, inv s → guard s e → inv (step s e)) {s : State}
    (start : inv s) (es : List Event) (allowed : Guarded step guard s es) :
    inv (run step s es) := by
  induction es generalizing s with
  | nil => exact start
  | cons e es ih => exact ih (preserve s e start allowed.1) allowed.2

/-- What the guard keeps holds in every state of the run. -/
theorem always_invariant (preserve : ∀ s e, inv s → guard s e → inv (step s e)) {s : State}
    (start : inv s) {es : List Event} (allowed : Guarded step guard s es) :
    Always step inv s es := by
  induction es generalizing s with
  | nil => exact start
  | cons e es ih => exact ⟨start, ih (preserve s e start allowed.1) allowed.2⟩

theorem run_invariant (preserve : ∀ s e, inv s → inv (step s e)) {s : State} (start : inv s)
    (es : List Event) : inv (run step s es) := by
  induction es generalizing s with
  | nil => exact start
  | cons e es ih => exact ih (preserve s e start)

theorem guarded_of_forall (all : ∀ s e, guard s e) (s : State) (es : List Event) :
    Guarded step guard s es := by
  induction es generalizing s with
  | nil => trivial
  | cons e es ih => exact ⟨all s e, ih (step s e)⟩

/-- Guards that agree at each event agree along a run. -/
theorem guarded_congr {other : State → Event → Prop} (same : ∀ s e, guard s e ↔ other s e) (s : State)
    (es : List Event) : Guarded step guard s es ↔ Guarded step other s es := by
  induction es generalizing s with
  | nil => exact Iff.rfl
  | cons e es ih => exact and_congr (same s e) (ih (step s e))

theorem guarded_append {s : State} {es fs : List Event} :
    Guarded step guard s (es ++ fs) ↔
      Guarded step guard s es ∧ Guarded step guard (run step s es) fs := by
  induction es generalizing s with
  | nil => simp [Guarded]
  | cons e es ih => simp [Guarded, ih, and_assoc]

theorem guarded_of_all (s : State) {es : List Event} (all : ∀ e ∈ es, ∀ s, guard s e) :
    Guarded step guard s es := by
  induction es generalizing s with
  | nil => trivial
  | cons e es ih =>
    exact ⟨all e List.mem_cons_self s,
      ih (step s e) fun e member => all e (List.mem_cons_of_mem _ member)⟩

theorem guarded_and {other : State → Event → Prop} {s : State} {es : List Event}
    (left : Guarded step guard s es) (right : Guarded step other s es) :
    Guarded step (fun s e => guard s e ∧ other s e) s es := by
  induction es generalizing s with
  | nil => trivial
  | cons e es ih => exact ⟨⟨left.1, right.1⟩, ih left.2 right.2⟩

/-- Along a run on which the guard keeps `inv`, the guard may be strengthened by
    whatever `inv` and the guard imply at one step. -/
theorem guarded_of_invariant {result : State → Event → Prop}
    (preserve : ∀ s e, inv s → guard s e → inv (step s e))
    (conclude : ∀ s e, inv s → guard s e → result s e) {s : State} (start : inv s)
    {es : List Event} (allowed : Guarded step guard s es) : Guarded step result s es := by
  induction es generalizing s with
  | nil => trivial
  | cons e es ih =>
    exact ⟨conclude s e start allowed.1, ih (preserve s e start allowed.1) allowed.2⟩

/-- Background invariant `inv` holds in every run with well-formed inputs; `good`
    survives a step exactly under the guard. Then the guard on every event is all
    that `good` needs. -/
theorem always_iff_guarded_of_fed {fed : State → Event → Prop}
    (background : ∀ s e, inv s → fed s e → inv (step s e))
    (exactStep : ∀ s e, inv s → fed s e → good s → (good (step s e) ↔ guard s e)) {s : State}
    (startInv : inv s) (start : good s) (es : List Event) (supplied : Guarded step fed s es) :
    Always step good s es ↔ Guarded step guard s es := by
  induction es generalizing s with
  | nil => simp [Always, Guarded, start]
  | cons e es ih =>
    obtain ⟨input, inputs⟩ := supplied
    have nextInv := background s e startInv input
    simp only [Always, Guarded, start, true_and]
    constructor
    · intro later
      have next : good (step s e) := by
        cases es with
        | nil => exact later
        | cons f fs => exact later.1
      exact ⟨(exactStep s e startInv input start).mp next, (ih nextInv next inputs).mp later⟩
    · rintro ⟨met, rest⟩
      have next := (exactStep s e startInv input start).mpr met
      exact (ih nextInv next inputs).mpr rest

theorem always_iff_guarded (background : ∀ s e, inv s → inv (step s e))
    (exactStep : ∀ s e, inv s → good s → (good (step s e) ↔ guard s e)) {s : State}
    (startInv : inv s) (start : good s) (es : List Event) :
    Always step good s es ↔ Guarded step guard s es := by
  have supplied : Guarded step (fun _ _ => True) s es := guarded_of_forall (fun _ _ => trivial) s es
  exact always_iff_guarded_of_fed (fun s e held _ => background s e held)
    (fun s e held _ => exactStep s e held) startInv start es supplied

theorem always_mono {other : State → Prop} (weaker : ∀ s, good s → other s) {s : State}
    {es : List Event} (always : Always step good s es) : Always step other s es := by
  induction es generalizing s with
  | nil => exact weaker s always
  | cons e es ih => exact ⟨weaker s always.1, ih always.2⟩

theorem always_here {s : State} {es : List Event} (always : Always step good s es) : good s := by
  cases es with
  | nil => exact always
  | cons e es => exact always.1

theorem always_and {other : State → Prop} {s : State} {es : List Event}
    (left : Always step good s es) (right : Always step other s es) :
    Always step (fun s => good s ∧ other s) s es := by
  induction es generalizing s with
  | nil => exact ⟨left, right⟩
  | cons e es ih => exact ⟨⟨left.1, right.1⟩, ih left.2 right.2⟩

theorem always_last {s : State} {es : List Event} (always : Always step good s es) :
    good (run step s es) := by
  induction es generalizing s with
  | nil => exact always
  | cons e es ih => exact ih always.2

/-- What no step can bring back holds all along a run when it holds at its end. -/
theorem always_iff_last (back : ∀ s e, good (step s e) → good s) {s : State} (es : List Event) :
    Always step good s es ↔ good (run step s es) := by
  refine ⟨always_last, ?_⟩
  induction es generalizing s with
  | nil => exact id
  | cons e es ih =>
    intro last
    have rest := ih last
    exact ⟨back s e (always_here rest), rest⟩

/-- What survives the steps that meet the guard, between states that are `fed`, holds all
    along a run that is fed throughout. -/
theorem always_of_guarded {fed : State → Prop}
    (keep : ∀ s e, good s → fed s → fed (step s e) → guard s e → good (step s e)) {s : State}
    (start : good s) {es : List Event} (supplied : Always step fed s es)
    (allowed : Guarded step guard s es) : Always step good s es := by
  induction es generalizing s with
  | nil => exact start
  | cons e es ih =>
    have next := keep s e start supplied.1 (always_here supplied.2) allowed.1
    exact ⟨start, ih next supplied.2 allowed.2⟩

/-- A simulation invariant that the guard keeps, and that a step which breaks the guard
    shows in `good`: then `good` holds all along a run exactly when the guard does. -/
theorem always_iff_guarded_of_synced {sync : State → Prop} (weaker : ∀ s, sync s → good s)
    (keep : ∀ s e, sync s → guard s e → sync (step s e))
    (shows_ : ∀ s e, sync s → good (step s e) → guard s e) {s : State} (start : sync s)
    (es : List Event) : Always step good s es ↔ Guarded step guard s es := by
  induction es generalizing s with
  | nil => simp [Always, Guarded, weaker s start]
  | cons e es ih =>
    constructor
    · rintro ⟨_, later⟩
      have met := shows_ s e start (always_here later)
      exact ⟨met, (ih (keep s e start met)).mp later⟩
    · rintro ⟨met, rest⟩
      exact ⟨weaker s start, (ih (keep s e start met)).mpr rest⟩

end Rules
end GuardedRun
