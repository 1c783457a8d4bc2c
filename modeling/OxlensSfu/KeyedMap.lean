import Mathlib.Data.List.AList

/-
Finite maps with in-place updates. A map is an association list without repeated
keys; `modify` changes a value where it stands, so that the order of a visit is kept.
-/
namespace KeyedMap

abbrev Table (K V : Type) := AList fun _ : K => V

variable {K V : Type}

def toList (m : Table K V) : List (K × V) := m.entries.map fun e => (e.1, e.2)

def values (m : Table K V) : List V := m.entries.map fun e => e.2

theorem values_eq (m : Table K V) : values m = (toList m).map fun e => e.2 := by
  simp [values, toList, Function.comp_def]

variable [DecidableEq K]

def modifyEntry (k : K) (f : V → V) (e : Sigma fun _ : K => V) : Sigma fun _ : K => V :=
  ⟨e.1, if e.1 = k then f e.2 else e.2⟩

theorem keys_map_modifyEntry (k : K) (f : V → V) (es : List (Sigma fun _ : K => V)) :
    (es.map (modifyEntry k f)).keys = es.keys := by
  simp [List.keys, modifyEntry, Function.comp_def]

def modify (m : Table K V) (k : K) (f : V → V) : Table K V where
  entries := m.entries.map (modifyEntry k f)
  nodupKeys := by
    rw [List.NodupKeys, keys_map_modifyEntry]
    exact m.nodupKeys

theorem dlookup_map_modifyEntry (k : K) (f : V → V) (es : List (Sigma fun _ : K => V)) (j : K) :
    (es.map (modifyEntry k f)).dlookup j =
      if j = k then (es.dlookup j).map f else es.dlookup j := by
  induction es with
  | nil => simp
  | cons e es ih =>
    obtain ⟨i, v⟩ := e
    rw [List.map_cons]
    by_cases here : j = i
    · subst here
      rw [List.dlookup_cons_eq]
      by_cases target : j = k
      · subst target
        simp [modifyEntry]
      · simp [modifyEntry, target]
    · rw [List.dlookup_cons_ne es ⟨i, v⟩ here]
      have head : j ≠ (modifyEntry k f ⟨i, v⟩).1 := here
      rw [List.dlookup_cons_ne _ _ head]
      exact ih

theorem lookup_modify (m : Table K V) (k : K) (f : V → V) (j : K) :
    (modify m k f).lookup j = if j = k then (m.lookup j).map f else m.lookup j :=
  dlookup_map_modifyEntry k f m.entries j

@[simp] theorem lookup_modify_self (m : Table K V) (k : K) (f : V → V) :
    (modify m k f).lookup k = (m.lookup k).map f := by
  rw [lookup_modify, if_pos rfl]

theorem mem_toList {m : Table K V} {k : K} {v : V} : (k, v) ∈ toList m ↔ m.lookup k = some v := by
  rw [← Option.mem_def, AList.mem_lookup_iff]
  simp only [toList, List.mem_map, Prod.mk.injEq]
  constructor
  · rintro ⟨⟨i, w⟩, member, rfl, rfl⟩
    exact member
  · intro member
    exact ⟨⟨k, v⟩, member, rfl, rfl⟩

theorem mem_values {m : Table K V} {v : V} : v ∈ values m ↔ ∃ k, m.lookup k = some v := by
  simp only [← mem_toList, values, toList, List.mem_map, Prod.mk.injEq]
  constructor
  · rintro ⟨e, member, rfl⟩
    exact ⟨e.1, e, member, rfl, rfl⟩
  · rintro ⟨k, e, member, _, value⟩
    exact ⟨e, member, value⟩

/-- Every value stands under one key only. -/
def Injective (m : Table K V) : Prop :=
  ∀ k k' v, m.lookup k = some v → m.lookup k' = some v → k = k'

theorem toList_nodup {m : Table K V} (once : Injective m) :
    ((toList m).map fun e => e.2).Nodup := by
  have entries : (toList m).Nodup := by
    refine List.Nodup.map_on (fun e _ e' _ same => ?_) m.nodupKeys.nodup
    obtain ⟨k, v⟩ := e
    obtain ⟨k', v'⟩ := e'
    simp only [Prod.mk.injEq] at same
    rw [same.1, same.2]
  refine List.Nodup.map_on (fun e member e' member' same => ?_) entries
  obtain ⟨k, v⟩ := e
  obtain ⟨k', v'⟩ := e'
  have value : v = v' := same
  subst value
  rw [once k k' v (mem_toList.mp member) (mem_toList.mp member')]

/-- A modification that changes no value leaves the map as it is. -/
theorem modify_unchanged {m : Table K V} {k : K} {f : V → V}
    (same : ∀ v, m.lookup k = some v → f v = v) : modify m k f = m := by
  apply AList.ext
  refine (List.map_congr_left fun e member => ?_).trans (List.map_id _)
  obtain ⟨i, v⟩ := e
  simp only [modifyEntry, id]
  split
  · rename_i here
    subst here
    rw [same v (AList.mem_lookup_iff.mpr member)]
  · rfl

theorem dlookup_map_values (f : V → V) (es : List (Sigma fun _ : K => V)) (j : K) :
    (es.map fun e => (⟨e.1, f e.2⟩ : Sigma fun _ : K => V)).dlookup j = (es.dlookup j).map f := by
  induction es with
  | nil => simp
  | cons e es ih =>
    obtain ⟨i, v⟩ := e
    rw [List.map_cons]
    by_cases here : j = i
    · subst here
      simp
    · rw [List.dlookup_cons_ne es ⟨i, v⟩ here, List.dlookup_cons_ne _ (⟨i, f v⟩ : Sigma fun _ : K => V) here]
      exact ih

omit [DecidableEq K] in
theorem keys_map_values (f : V → V) (es : List (Sigma fun _ : K => V)) :
    (es.map fun e => (⟨e.1, f e.2⟩ : Sigma fun _ : K => V)).keys = es.keys := by
  simp [List.keys, Function.comp_def]

def mapValues (m : Table K V) (f : V → V) : Table K V where
  entries := m.entries.map fun e => ⟨e.1, f e.2⟩
  nodupKeys := by
    rw [List.NodupKeys, keys_map_values]
    exact m.nodupKeys

@[simp] theorem lookup_mapValues (m : Table K V) (f : V → V) (j : K) :
    (mapValues m f).lookup j = (m.lookup j).map f :=
  dlookup_map_values f m.entries j

theorem lookup_insert (m : Table K V) (k : K) (v : V) (j : K) :
    (m.insert k v).lookup j = if j = k then some v else m.lookup j := by
  split
  · rename_i here
    rw [here, AList.lookup_insert]
  · rename_i other
    exact AList.lookup_insert_ne other

theorem lookup_erase (m : Table K V) (k j : K) :
    (m.erase k).lookup j = if j = k then none else m.lookup j := by
  split
  · rename_i here
    rw [here, AList.lookup_erase]
  · rename_i other
    exact AList.lookup_erase_ne other

/-- What `keep` says of an entry decides whether it stays. -/
def retain (m : Table K V) (keep : K → V → Bool) : Table K V where
  entries := m.entries.filter fun e => keep e.1 e.2
  nodupKeys := m.nodupKeys.sublist List.filter_sublist

theorem dlookup_filter (keep : K → V → Bool) {es : List (Sigma fun _ : K => V)} (once : es.NodupKeys)
    (j : K) : (es.filter fun e => keep e.1 e.2).dlookup j = (es.dlookup j).filter (keep j) := by
  induction es with
  | nil => rfl
  | cons e es ih =>
    obtain ⟨i, v⟩ := e
    obtain ⟨fresh, rest⟩ := List.nodupKeys_cons.mp once
    rw [List.filter_cons]
    by_cases here : j = i
    · subst here
      have absent : es.dlookup j = none := List.dlookup_eq_none.mpr fresh
      rw [List.dlookup_cons_eq, Option.filter_some]
      split
      · rw [List.dlookup_cons_eq]
      · rw [ih rest, absent, Option.filter_none]
    · rw [List.dlookup_cons_ne es ⟨i, v⟩ here, ← ih rest]
      split
      · exact List.dlookup_cons_ne _ (⟨i, v⟩ : Sigma fun _ : K => V) here
      · rfl

@[simp] theorem lookup_retain (m : Table K V) (keep : K → V → Bool) (j : K) :
    (retain m keep).lookup j = (m.lookup j).filter (keep j) :=
  dlookup_filter keep m.nodupKeys j

/-- A key's entry is the only one under it. -/
theorem filter_toList (m : Table K V) (k : K) :
    ((toList m).filter fun e => e.1 = k) = ((m.lookup k).map fun v => (k, v)).toList := by
  obtain ⟨es, once⟩ := m
  simp only [toList, AList.lookup]
  induction es with
  | nil => rfl
  | cons e es ih =>
    obtain ⟨i, v⟩ := e
    obtain ⟨fresh, rest⟩ := List.nodupKeys_cons.mp once
    rw [List.map_cons, List.filter_cons, ih rest]
    by_cases here : k = i
    · subst here
      have absent : es.dlookup k = none := List.dlookup_eq_none.mpr fresh
      simp [absent]
    · rw [List.dlookup_cons_ne es ⟨i, v⟩ here]
      simp [Ne.symm here]

@[simp] theorem keys_modify (m : Table K V) (k : K) (f : V → V) : (modify m k f).keys = m.keys :=
  keys_map_modifyEntry k f m.entries

omit [DecidableEq K] in
theorem length_keys_retain (m : Table K V) (keep : K → V → Bool) :
    (retain m keep).keys.length ≤ m.keys.length := by
  simp only [AList.keys, List.keys, List.length_map, retain]
  exact List.length_filter_le _ _

theorem length_keys_insert (m : Table K V) (k : K) (v : V) :
    (m.insert k v).keys.length ≤ m.keys.length + 1 := by
  rw [AList.keys_insert, List.length_cons]
  exact Nat.succ_le_succ List.length_erase_le

end KeyedMap
