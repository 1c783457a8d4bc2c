import OxlensSfu.GuardedRun

/-
A concrete system whose steps are told as lists of abstract events. What is proved of
every abstract run then holds of the abstraction of every concrete run.
-/
namespace StepRefinement
open GuardedRun
variable {Concrete Abstract Event Told Other : Type} (concrete : Concrete → Event → Concrete)
  (abstract : Abstract → Told → Abstract) (view : Concrete → Abstract)
  (told : Concrete → Event → List Told)

/-- One concrete step does to the abstraction what its events do, one after the other. -/
def Tells : Prop := ∀ c e, view (concrete c e) = run abstract (view c) (told c e)

/-- The abstract events of a concrete run. -/
def story : Concrete → List Event → List Told
  | _, [] => []
  | c, e :: es => told c e ++ story (concrete c e) es

section Rules
variable {concrete abstract view told}

theorem run_append (a : Abstract) (before after : List Told) :
    run abstract a (before ++ after) = run abstract (run abstract a before) after :=
  List.foldl_append

theorem run_refines (tells : Tells concrete abstract view told) (c : Concrete) (es : List Event) :
    view (run concrete c es) = run abstract (view c) (story concrete told c es) := by
  induction es generalizing c with
  | nil => rfl
  | cons e es ih => rw [run_cons, ih, tells, story, run_append]

/-- What every step keeps of the state and of all that was told up to it. -/
theorem story_invariant {keeps : Concrete → List Told → Prop}
    (preserve : ∀ c e past, keeps c past → keeps (concrete c e) (past ++ told c e)) {c : Concrete}
    {past : List Told} (start : keeps c past) (es : List Event) :
    keeps (run concrete c es) (past ++ story concrete told c es) := by
  induction es generalizing c past with
  | nil => simpa only [run_nil, story, List.append_nil] using start
  | cons e es ih =>
    rw [run_cons, story, ← List.append_assoc]
    exact ih (preserve c e past start)

/-- The same where the steps of the run are restricted. -/
theorem story_guarded {guard : Event → Prop} {keeps : Concrete → List Told → Prop}
    (preserve : ∀ c e past, guard e → keeps c past → keeps (concrete c e) (past ++ told c e))
    {c : Concrete} {past : List Told} (start : keeps c past) (es : List Event)
    (allowed : ∀ e ∈ es, guard e) : keeps (run concrete c es) (past ++ story concrete told c es) := by
  induction es generalizing c past with
  | nil => simpa only [run_nil, story, List.append_nil] using start
  | cons e es ih =>
    rw [run_cons, story, ← List.append_assoc]
    exact ih (preserve c e past (allowed e List.mem_cons_self) start)
      fun e' member => allowed e' (List.mem_cons_of_mem _ member)

/-- The same for two tellings of one run. -/
theorem stories_invariant {other : Concrete → Event → List Other}
    {keeps : Concrete → List Told → List Other → Prop}
    (preserve : ∀ c e past past', keeps c past past' →
      keeps (concrete c e) (past ++ told c e) (past' ++ other c e)) {c : Concrete} {past : List Told}
    {past' : List Other} (start : keeps c past past') (es : List Event) :
    keeps (run concrete c es) (past ++ story concrete told c es)
      (past' ++ story concrete other c es) := by
  induction es generalizing c past past' with
  | nil => simpa only [run_nil, story, List.append_nil] using start
  | cons e es ih =>
    rw [run_cons, story, story, ← List.append_assoc, ← List.append_assoc]
    exact ih (preserve c e past past' start)

theorem story_map {other : Concrete → Event → List Other} (f : Told → Other)
    (each : ∀ c e, (told c e).map f = other c e) (c : Concrete) (es : List Event) :
    (story concrete told c es).map f = story concrete other c es := by
  induction es generalizing c with
  | nil => rfl
  | cons e es ih => rw [story, story, List.map_append, each, ih]

/-- What the abstract steps preserve, the concrete steps preserve of the abstraction. -/
theorem lift_invariant (tells : Tells concrete abstract view told) {inv : Abstract → Prop}
    (preserve : ∀ a t, inv a → inv (abstract a t)) (c : Concrete) (e : Event)
    (start : inv (view c)) : inv (view (concrete c e)) := by
  rw [tells]
  exact run_invariant preserve start (told c e)

/-- A relation between abstract states that holds over each abstract event of a step, and is
    reflexive and transitive, holds over the step. -/
theorem lift_relation (tells : Tells concrete abstract view told) {rel : Abstract → Abstract → Prop}
    (refl : ∀ a, rel a a) (trans : ∀ {a b c}, rel a b → rel b c → rel a c) {c : Concrete} {e : Event}
    (each : ∀ t ∈ told c e, ∀ a, rel a (abstract a t)) : rel (view c) (view (concrete c e)) := by
  rw [tells]
  generalize view c = a
  revert each
  generalize told c e = ts
  intro each
  induction ts generalizing a with
  | nil => exact refl a
  | cons t ts ih =>
    exact trans (each t List.mem_cons_self a)
      (ih (abstract a t) fun t member => each t (List.mem_cons_of_mem _ member))

end Rules
end StepRefinement
