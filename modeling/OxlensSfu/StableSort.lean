import Mathlib.Data.List.Sort

/-
Insertion sort as a stable sort. A list kept sorted while elements come and go is
the sort of the list in which the elements arrived.
-/
namespace StableSort
open List
variable {α : Type*} (r : α → α → Prop) [DecidableRel r]

/-- Behind everything that may stand before `a`. -/
def insertLast (a : α) : List α → List α
  | [] => [a]
  | b :: l => if r b a then b :: insertLast a l else a :: b :: l

section Total
variable [IsTrans α r]

theorem filter_orderedInsert (p : α → Bool) (a : α) {l : List α} (sorted : l.Pairwise r) :
    (orderedInsert r a l).filter p =
      if p a then orderedInsert r a (l.filter p) else l.filter p := by
  induction l with
  | nil => cases h : p a <;> simp [h]
  | cons b l ih =>
    obtain ⟨head, tail⟩ := List.pairwise_cons.mp sorted
    by_cases ab : r a b
    · have first : ∀ x ∈ l.filter p, r a x := fun x hx =>
        trans_of r ab (head x (List.mem_of_mem_filter hx))
      have front : orderedInsert r a (l.filter p) = a :: l.filter p := by
        cases kept : l.filter p with
        | nil => rfl
        | cons x xs => exact orderedInsert_cons_of_le r xs (first x (by simp [kept]))
      cases ha : p a <;> cases hb : p b <;> simp [ab, ha, hb, front]
    · cases ha : p a <;> cases hb : p b <;> simp [ab, ha, hb, ih tail]

/-- Where the inserted element stands: behind all that may stand before it. -/
theorem findIdx_insertLast {p : α → Bool} {a : α} (own : p a = true) {l : List α}
    (others : ∀ x ∈ l, p x = false) (sorted : l.Pairwise r) :
    (insertLast r a l).findIdx p = l.countP fun x => r x a := by
  induction l with
  | nil => simp [insertLast, own]
  | cons b l ih =>
    obtain ⟨head, tail⟩ := List.pairwise_cons.mp sorted
    have below := ih (fun x member => others x (List.mem_cons_of_mem b member)) tail
    by_cases ba : r b a
    · simp [insertLast, ba, List.findIdx_cons, others b List.mem_cons_self, below]
    · have none : ∀ x ∈ b :: l, ¬ r x a := by
        intro x member
        rcases List.mem_cons.mp member with rfl | later
        · exact ba
        · exact fun xa => ba (trans_of r (head x later) xa)
      rw [insertLast, if_neg ba, List.findIdx_cons, own]
      exact (List.countP_eq_zero.mpr fun x member => by simpa using none x member).symm

variable [Std.Total r]

theorem orderedInsert_insertLast (a b : α) (l : List α) :
    orderedInsert r b (insertLast r a l) = insertLast r a (orderedInsert r b l) := by
  induction l with
  | nil => simp [insertLast]
  | cons c l ih =>
    by_cases ca : r c a <;> by_cases bc : r b c
    · have ba : r b a := trans_of r bc ca
      simp [insertLast, ca, bc, ba]
    · simp [insertLast, ca, bc, ih]
    · by_cases ba : r b a <;> simp [insertLast, ca, bc, ba]
    · have ba : ¬ r b a := fun ba => ca (trans_of r ((total_of r b c).resolve_left bc) ba)
      simp [insertLast, ca, bc, ba]

theorem insertionSort_snoc (l : List α) (a : α) :
    insertionSort r (l ++ [a]) = insertLast r a (insertionSort r l) := by
  induction l with
  | nil => rfl
  | cons b l ih => rw [List.cons_append, insertionSort_cons, ih, orderedInsert_insertLast]; rfl

/-- To append to the sorted list and sort again is to sort the arrivals. -/
theorem insertionSort_resort (l : List α) (a : α) :
    insertionSort r (insertionSort r l ++ [a]) = insertionSort r (l ++ [a]) := by
  have sorted : (insertionSort r l).Pairwise r := pairwise_insertionSort r l
  rw [insertionSort_snoc, insertionSort_snoc, sorted.insertionSort_eq]

theorem filter_insertionSort (p : α → Bool) (l : List α) :
    (insertionSort r l).filter p = insertionSort r (l.filter p) := by
  induction l with
  | nil => rfl
  | cons a l ih =>
    rw [insertionSort_cons, filter_orderedInsert r p a (pairwise_insertionSort r l), ih]
    cases h : p a <;> simp [h]

/-- The head of the sort: the first arrival among those that nothing precedes. -/
theorem insertionSort_head {l : List α} {a : α} {rest : List α}
    (sort : insertionSort r l = a :: rest) :
    ∃ earlier later, l = earlier ++ a :: later ∧ (∀ x ∈ earlier, ¬ r x a) ∧
      (∀ x ∈ later, r a x) ∧ rest = insertionSort r (earlier ++ later) := by
  induction l generalizing a rest with
  | nil => simp at sort
  | cons b l ih =>
    rw [insertionSort_cons] at sort
    cases below : insertionSort r l with
    | nil =>
      have none : l = [] := by simpa [below] using (length_insertionSort r l).symm
      rw [below, orderedInsert_nil, List.cons.injEq] at sort
      obtain ⟨rfl, rfl⟩ := sort
      exact ⟨[], [], by simp [none], by simp, by simp, rfl⟩
    | cons c cs =>
      rw [below] at sort
      by_cases bc : r b c
      · rw [orderedInsert_cons_of_le r cs bc, List.cons.injEq] at sort
        obtain ⟨rfl, rfl⟩ := sort
        refine ⟨[], l, rfl, by simp, fun x hx => ?_, below.symm⟩
        have sorted : (c :: cs).Pairwise r := below ▸ pairwise_insertionSort r l
        have listed : x ∈ c :: cs := below ▸ (mem_insertionSort r).mpr hx
        rcases List.mem_cons.mp listed with rfl | later
        · exact bc
        · exact trans_of r bc ((List.pairwise_cons.mp sorted).1 x later)
      · rw [orderedInsert_of_not_le r cs bc, List.cons.injEq] at sort
        obtain ⟨rfl, rfl⟩ := sort
        obtain ⟨earlier, later, split, before, after, same⟩ := ih below
        refine ⟨b :: earlier, later, by rw [split]; rfl, ?_, after, by rw [same]; rfl⟩
        intro x hx
        rcases List.mem_cons.mp hx with rfl | member
        · exact bc
        · exact before x member

end Total
end StableSort
