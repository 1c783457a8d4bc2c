import Mathlib.Data.List.Basic

/-
Tasks that decide first and act later. Each task is the list of the effects it still
has to perform, and an effect changes one target. As long as no effect overtakes an
older task's effect on the same target, every target ends up as if the tasks had acted
one after the other.
-/
namespace PendingEffects
variable {Target Effect Value : Type} [DecidableEq Target] (target : Effect → Target)
  (learn : Value → Effect → Value)

/-- What one effect does to the value of target `t`. -/
def see (t : Target) (v : Value) (e : Effect) : Value := if target e = t then learn v e else v

/-- The value of target `t` once all tasks have acted, the oldest task first. -/
def outcome (t : Target) (v : Value) (tasks : List (List Effect)) : Value :=
  tasks.flatten.foldl (see target learn t) v

/-- No older task still has an effect on the target of `e`. -/
def InTurn (tasks : List (List Effect)) (i : Nat) (e : Effect) : Prop :=
  ∀ older ∈ tasks.take i, ∀ f ∈ older, target f ≠ target e

instance (tasks : List (List Effect)) (i : Nat) (e : Effect) :
    Decidable (InTurn target tasks i e) :=
  inferInstanceAs (Decidable (∀ older ∈ tasks.take i, ∀ f ∈ older, target f ≠ target e))

section Rules
variable {target learn}

theorem see_elsewhere {t : Target} {effects : List Effect}
    (elsewhere : ∀ e ∈ effects, target e ≠ t) (v : Value) :
    effects.foldl (see target learn t) v = v := by
  induction effects generalizing v with
  | nil => rfl
  | cons e effects ih =>
    have head : see target learn t v e = v := if_neg (elsewhere e List.mem_cons_self)
    rw [List.foldl_cons, head]
    exact ih (fun f member => elsewhere f (List.mem_cons_of_mem _ member)) v

theorem outcome_done {t : Target} {tasks : List (List Effect)} (done : ∀ task ∈ tasks, task = [])
    (v : Value) : outcome target learn t v tasks = v := by
  have none : tasks.flatten = [] := List.flatten_eq_nil_iff.mpr done
  rw [outcome, none, List.foldl_nil]

theorem outcome_call (t : Target) (v : Value) (tasks : List (List Effect)) (task : List Effect) :
    outcome target learn t v (tasks ++ [task]) =
      task.foldl (see target learn t) (outcome target learn t v tasks) := by
  simp [outcome, List.foldl_append]

/-- An effect in turn brings its target closer to an unchanged outcome. -/
theorem outcome_perform {tasks : List (List Effect)} {i : Nat} {e : Effect} {rest : List Effect}
    (next : tasks[i]? = some (e :: rest)) {t : Target}
    (inTurn : target e = t → InTurn target tasks i e) (v : Value) :
    outcome target learn t (see target learn t v e) (tasks.set i rest) =
      outcome target learn t v tasks := by
  obtain ⟨inside, here⟩ := List.getElem?_eq_some_iff.mp next
  have older : ∀ v, (tasks.take i).flatten.foldl (see target learn t) (see target learn t v e) =
      see target learn t ((tasks.take i).flatten.foldl (see target learn t) v) e := by
    intro v
    by_cases same : target e = t
    · have elsewhere : ∀ f ∈ (tasks.take i).flatten, target f ≠ t := by
        intro f member
        obtain ⟨task, listed, inTask⟩ := List.mem_flatten.mp member
        exact same ▸ inTurn same task listed f inTask
      rw [see_elsewhere elsewhere, see_elsewhere elsewhere]
    · simp only [see, if_neg same]
  have before : tasks = tasks.take i ++ (e :: rest) :: tasks.drop (i + 1) := by
    rw [← here, ← List.drop_eq_getElem_cons inside, List.take_append_drop]
  have after : tasks.set i rest = tasks.take i ++ rest :: tasks.drop (i + 1) :=
    List.set_eq_take_append_cons_drop.trans (if_pos inside)
  have split : outcome target learn t v tasks =
      outcome target learn t v (tasks.take i ++ (e :: rest) :: tasks.drop (i + 1)) :=
    congrArg _ before
  rw [split, after]
  simp only [outcome, List.flatten_append, List.flatten_cons, List.foldl_append, List.foldl_cons,
    older]

end Rules
end PendingEffects
