import Mathlib.Data.List.Chain

/-
Lists that count on: every entry follows the one before it. What a list counts from and
where it ends is kept with it, so that two of them join when the second starts where the
first ended.
-/
namespace Counting
variable {α : Type} {next : α → α}

/-- From `a` on, the entries follow one another, and the last number is `b`. -/
structure Counts (next : α → α) (a : α) (ns : List α) (b : α) : Prop where
  chain : (a :: ns).IsChain fun x y => y = next x
  ends : (a :: ns).getLast? = some b

namespace Counts
variable {a b c : α} {ns ms : List α}

theorem nil (a : α) : Counts next a [] a := ⟨.singleton a, rfl⟩

theorem one (a : α) : Counts next a [next a] (next a) where
  chain := List.isChain_pair.mpr rfl
  ends := rfl

theorem append (first : Counts next a ns b) (second : Counts next b ms c) :
    Counts next a (ns ++ ms) c := by
  have joins : ∀ x ∈ (a :: ns).getLast?, ∀ y ∈ ms.head?, y = next x := by
    intro x last y head
    rw [first.ends, Option.mem_some_iff] at last
    subst last
    cases ms with
    | nil => simp at head
    | cons m ms =>
      rw [List.head?_cons, Option.mem_some_iff] at head
      subst head
      exact (List.isChain_cons_cons.mp second.chain).1
  constructor
  · exact first.chain.append second.chain.tail joins
  · have ends := second.ends
    cases ms with
    | nil =>
      rw [List.append_nil, first.ends]
      exact ends
    | cons m ms =>
      rw [← List.cons_append, List.getLast?_append_cons]
      exact ends

/-- The entries themselves are consecutive. -/
theorem consecutive (counts : Counts next a ns b) : ns.IsChain fun x y => y = next x :=
  counts.chain.tail

end Counts
end Counting
