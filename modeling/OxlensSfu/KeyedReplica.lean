import OxlensSfu.KeyedMap

/-
A replica of a keyed relation, kept by messages that add items and messages that remove
them. An item has a key and a value; a removal looks at the keys only.
-/
namespace KeyedReplica
open KeyedMap
variable {I K V : Type}

inductive Update (I : Type) where
  | add (items : List I)
  | remove (items : List I)
  deriving DecidableEq, Repr

/-- No key has two values. -/
def OneValue (R : K → V → Prop) : Prop := ∀ k v v', R k v → R k v' → v = v'

/-- The relation that a list of items stands for. -/
def Enlists (key : I → K) (value : I → V) (items : List I) (k : K) (v : V) : Prop :=
  ∃ i ∈ items, key i = k ∧ value i = v

/-- The keys that a removal of the items takes away. -/
def Names (key : I → K) (items : List I) (k : K) : Prop := ∃ i ∈ items, key i = k

variable [DecidableEq K]

def update (key : I → K) (value : I → V) (m : Table K V) : Update I → Table K V
  | .add items => items.foldl (fun m i => m.insert (key i) (value i)) m
  | .remove items => items.foldl (fun m i => m.erase (key i)) m

def replay (key : I → K) (value : I → V) (m : Table K V) (updates : List (Update I)) : Table K V :=
  updates.foldl (update key value) m

def Represents (m : Table K V) (R : K → V → Prop) : Prop := ∀ k v, m.lookup k = some v ↔ R k v

section Rules
variable {key : I → K} {value : I → V} {m : Table K V} {R R' : K → V → Prop}

theorem represents_empty : Represents (∅ : Table K V) fun _ _ => False := by
  intro k v
  simp

theorem Represents.congr (rep : Represents m R) (same : ∀ k v, R' k v ↔ R k v) :
    Represents m R' := by
  intro k v
  rw [same]
  exact rep k v

theorem replay_append (updates more : List (Update I)) :
    replay key value m (updates ++ more) = replay key value (replay key value m updates) more :=
  List.foldl_append

/-- The last item under a key decides, and no two of them disagree. -/
theorem Represents.add (rep : Represents m R) (items : List I)
    (one : OneValue fun k v => R k v ∨ Enlists key value items k v) :
    Represents (update key value m (.add items))
      fun k v => R k v ∨ Enlists key value items k v := by
  induction items generalizing m R with
  | nil => exact rep.congr fun k v => by simp [Enlists]
  | cons i items ih =>
    have split : ∀ k v, (R k v ∨ Enlists key value (i :: items) k v) ↔
        ((R k v ∨ (key i = k ∧ value i = v)) ∨ Enlists key value items k v) := by
      intro k v
      simp only [Enlists, List.mem_cons, exists_eq_or_imp, or_assoc]
    have head : Represents (m.insert (key i) (value i)) fun k v =>
        R k v ∨ (key i = k ∧ value i = v) := by
      intro k v
      rw [lookup_insert]
      by_cases here : k = key i
      · rw [if_pos here, Option.some.injEq]
        constructor
        · intro same
          exact .inr ⟨here.symm, same⟩
        · intro known
          exact one k (value i) v ((split k (value i)).mpr (.inl (.inr ⟨here.symm, rfl⟩)))
            ((split k v).mpr (.inl known))
      · rw [if_neg here, rep k v]
        constructor
        · exact .inl
        · intro known
          exact known.resolve_right fun new => here new.1.symm
    have rest := ih head fun k v v' left right =>
      one k v v' ((split k v).mpr left) ((split k v').mpr right)
    exact rest.congr split

theorem Represents.remove (rep : Represents m R) (items : List I) :
    Represents (update key value m (.remove items)) fun k v => R k v ∧ ¬ Names key items k := by
  induction items generalizing m R with
  | nil => exact rep.congr fun k v => by simp [Names]
  | cons i items ih =>
    have head : Represents (m.erase (key i)) fun k v => R k v ∧ key i ≠ k := by
      intro k v
      rw [lookup_erase]
      by_cases here : k = key i
      · simp [here]
      · rw [if_neg here, rep k v]
        exact (and_iff_left fun same => here same.symm).symm
    refine (ih head).congr fun k v => ?_
    simp only [Names, List.mem_cons, exists_eq_or_imp, not_or, and_assoc, ne_eq]

/-- What is listed alone is represented by it. -/
theorem represents_listed (items : List I) (one : OneValue (Enlists key value items)) :
    Represents (update key value ∅ (.add items)) (Enlists key value items) := by
  have added := @Represents.add I K V _ key value ∅ _ represents_empty items ?_
  · exact added.congr fun k v => by simp
  · intro k v v' left right
    exact one k v v' (left.resolve_left id) (right.resolve_left id)

end Rules
end KeyedReplica
