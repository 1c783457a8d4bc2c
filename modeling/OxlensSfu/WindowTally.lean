import OxlensSfu.GuardedRun

/-
Counts kept in windows. A window is opened, counts the calls made for it and is closed,
handing its count out or dropping it. A call that finds it closed is lost, and so is all
that it holds when the count passes the largest number of its counter.
-/
namespace WindowTally
open GuardedRun

inductive Step
  | opening | call | openingCall | drain | drop
  deriving DecidableEq

inductive Window
  | unseen
  | closed
  | counting (count : Nat)
  deriving DecidableEq

def Step.opens : Step → Bool
  | .opening | .openingCall => true
  | _ => false

def Step.counts : Step → Bool
  | .call | .openingCall => true
  | _ => false

/-- The calls made once a window has been opened for the first time. -/
def callsSince (steps : List Step) : Nat :=
  (steps.dropWhile fun s => !s.opens).countP Step.counts

def Window.count? : Window → Option Nat
  | .counting count => some count
  | _ => none

def Window.pending (w : Window) : Nat := w.count?.getD 0

section Counter
variable (capacity : Nat)

def bumped (count : Nat) : Nat := if count + 1 < capacity then count + 1 else 0

def Window.after : Window → Step → Window
  | .counting count, .opening => .counting count
  | .counting count, .call => .counting (bumped capacity count)
  | .counting count, .openingCall => .counting (bumped capacity count)
  | .counting _, .drain => .closed
  | .counting _, .drop => .closed
  | _, .opening => .counting 0
  | _, .openingCall => .counting 1
  | w, _ => w

/-- What a step does to the count of an open window. -/
def counterAfter (count : Option Nat) : Step → Option Nat
  | .opening => some (count.getD 0)
  | .call => count.map (bumped capacity)
  | .openingCall => some (count.elim 1 (bumped capacity))
  | .drain => none
  | .drop => none

theorem count_after (w : Window) (s : Step) :
    (w.after capacity s).count? = counterAfter capacity w.count? s := by
  cases w <;> cases s <;> rfl

/-- A call finds a window that has room for it, or no window was ever opened. -/
def Counted : Window → Step → Prop
  | .closed, .call => False
  | .counting count, .call => count + 1 < capacity
  | .counting count, .openingCall => count + 1 < capacity
  | _, _ => True

/-- Every call of a run is counted. -/
abbrev AllCounted (w : Window) (steps : List Step) : Prop :=
  Guarded (Window.after capacity) (Counted capacity) w steps

def lossOf : Window → Step → Nat
  | .closed, .call => 1
  | .counting count, .call => if count + 1 < capacity then 0 else count + 1
  | .counting count, .openingCall => if count + 1 < capacity then 0 else count + 1
  | _, _ => 0

def callOf : Window → Step → Nat
  | .unseen, .call => 0
  | _, s => if s.counts then 1 else 0

structure Tally where
  window : Window
  drained : Nat
  dropped : Nat
  lost : Nat
  calls : Nat

def Tally.start : Tally := ⟨.unseen, 0, 0, 0, 0⟩

def Tally.step (t : Tally) (s : Step) : Tally where
  window := t.window.after capacity s
  drained := t.drained + if s = .drain then t.window.pending else 0
  dropped := t.dropped + if s = .drop then t.window.pending else 0
  lost := t.lost + lossOf capacity t.window s
  calls := t.calls + callOf t.window s

def Balanced (t : Tally) : Prop := t.drained + t.dropped + t.lost + t.window.pending = t.calls

/-- What one more call adds to the window and to the loss. -/
theorem bumped_loss (count : Nat) :
    bumped capacity count + (if count + 1 < capacity then 0 else count + 1) = count + 1 := by
  unfold bumped
  split <;> omega

theorem step_balanced (t : Tally) (s : Step) (balanced : Balanced t) :
    Balanced (t.step capacity s) := by
  obtain ⟨window, drained, dropped, lost, calls⟩ := t
  simp only [Balanced, Tally.step] at balanced ⊢
  cases window with
  | unseen =>
    simp only [Window.pending, Window.count?, Option.getD_none] at balanced
    cases s <;> simp [Window.after, Window.pending, Window.count?, lossOf, callOf, Step.counts] <;> omega
  | closed =>
    simp only [Window.pending, Window.count?, Option.getD_none] at balanced
    cases s <;> simp [Window.after, Window.pending, Window.count?, lossOf, callOf, Step.counts] <;> omega
  | counting count =>
    have more := bumped_loss capacity count
    simp only [Window.pending, Window.count?, Option.getD_some] at balanced
    cases s <;> simp [Window.after, Window.pending, Window.count?, lossOf, callOf, Step.counts] <;> omega

theorem run_balanced (steps : List Step) :
    Balanced (run (Tally.step capacity) Tally.start steps) := by
  have start : Balanced Tally.start := rfl
  exact run_invariant (step_balanced capacity) start steps

theorem lossOf_zero_iff (w : Window) (s : Step) : lossOf capacity w s = 0 ↔ Counted capacity w s := by
  cases w <;> cases s <;> simp [lossOf, Counted]

instance (w : Window) (s : Step) : Decidable (Counted capacity w s) :=
  decidable_of_iff _ (lossOf_zero_iff capacity w s)

/-- Nothing is lost exactly when every call is counted. -/
theorem lost_zero_iff (t : Tally) (steps : List Step) :
    (run (Tally.step capacity) t steps).lost = 0 ↔
      t.lost = 0 ∧ AllCounted capacity t.window steps := by
  induction steps generalizing t with
  | nil => simp [Guarded]
  | cons s steps ih =>
    rw [run_cons, ih]
    simp only [Tally.step, Guarded, Nat.add_eq_zero_iff, lossOf_zero_iff, and_assoc]

theorem after_seen {w : Window} (seen : w ≠ .unseen) (s : Step) : w.after capacity s ≠ .unseen := by
  cases w with
  | unseen => exact absurd rfl seen
  | closed => cases s <;> simp [Window.after]
  | counting count => cases s <;> simp [Window.after]

theorem calls_seen {t : Tally} (seen : t.window ≠ .unseen) (steps : List Step) :
    (run (Tally.step capacity) t steps).calls = t.calls + steps.countP Step.counts := by
  induction steps generalizing t with
  | nil => rfl
  | cons s steps ih =>
    have one : callOf t.window s = if s.counts then 1 else 0 := by
      cases window : t.window with
      | unseen => exact absurd window seen
      | closed => rfl
      | counting count => rfl
    rw [run_cons, ih (after_seen capacity seen s), List.countP_cons]
    simp only [Tally.step, one]
    omega

theorem calls_unseen {t : Tally} (unseen : t.window = .unseen) (steps : List Step) :
    (run (Tally.step capacity) t steps).calls = t.calls + callsSince steps := by
  induction steps generalizing t with
  | nil => rfl
  | cons s steps ih =>
    rw [run_cons]
    by_cases opens : s.opens
    · have seen : (t.step capacity s).window ≠ .unseen := by
        cases s <;> simp [Step.opens, Tally.step, Window.after, unseen] at opens ⊢
      have counted : (t.step capacity s).calls = t.calls + if s.counts then 1 else 0 := by
        cases s <;> simp [Step.opens, Tally.step, callOf, unseen] at opens ⊢
      rw [calls_seen capacity seen, counted, callsSince, List.dropWhile_cons_of_neg (by simp [opens]),
        List.countP_cons]
      omega
    · have still : (t.step capacity s).window = .unseen := by
        cases s <;> simp [Step.opens, Tally.step, Window.after, unseen] at opens ⊢
      have uncounted : (t.step capacity s).calls = t.calls := by
        cases s <;> simp [Step.opens, Tally.step, callOf, unseen, Step.counts] at opens ⊢
      rw [ih still, uncounted, callsSince, callsSince, List.dropWhile_cons_of_pos (by simp [opens])]

/-- What was handed out, what was dropped and what still waits are all the calls exactly
    when every call was counted. -/
theorem kept_iff (steps : List Step) :
    (run (Tally.step capacity) Tally.start steps).drained +
        (run (Tally.step capacity) Tally.start steps).window.pending +
        (run (Tally.step capacity) Tally.start steps).dropped = callsSince steps ↔
      AllCounted capacity .unseen steps := by
  have balanced := run_balanced capacity steps
  have calls := calls_unseen capacity (t := Tally.start) rfl steps
  have lost := lost_zero_iff capacity Tally.start steps
  simp only [Balanced, Tally.start, true_and, Nat.zero_add] at balanced calls lost
  simp only [Tally.start]
  rw [← lost]
  omega

end Counter
end WindowTally
