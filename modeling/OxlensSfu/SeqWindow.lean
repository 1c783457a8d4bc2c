import Mathlib.Data.List.Basic
import Mathlib.Data.List.Nodup
import Mathlib.Order.MinMax

/-
16-bit sequence numbers as residues of unbounded positions. Positions closer
than the modulus keep their residues apart; an offset map acts on residues.
Streams are joined burst by burst: each burst is shifted so that its first number
follows the last position before it.
-/
namespace SeqWindow

theorem ofNat_inj_close {a b : Nat} (ab : a < b + 65536) (ba : b < a + 65536)
    (same : UInt16.ofNat a = UInt16.ofNat b) : a = b := by
  have values := congrArg UInt16.toNat same
  simp only [UInt16.toNat_ofNat'] at values
  omega

theorem nodup_map_ofNat {vals : List Nat} (distinct : vals.Nodup)
    (close : ∀ a ∈ vals, ∀ b ∈ vals, a < b + 65536) : (vals.map UInt16.ofNat).Nodup := by
  refine distinct.map_on fun a ha b hb same => ?_
  exact ofNat_inj_close (close a ha b hb) (close b hb a ha) same

theorem ofNat_offset {base first n : Nat} (enough : first ≤ base + n) :
    UInt16.ofNat n - UInt16.ofNat first + UInt16.ofNat base = UInt16.ofNat (base + n - first) := by
  apply UInt16.toNat_inj.mp
  simp only [UInt16.toNat_add, UInt16.toNat_sub, UInt16.toNat_ofNat']
  omega

theorem ofNat_add (a b : Nat) : UInt16.ofNat a + UInt16.ofNat b = UInt16.ofNat (a + b) := by
  apply UInt16.toNat_inj.mp
  simp only [UInt16.toNat_add, UInt16.toNat_ofNat']
  omega

/-- How many consecutive numbers cover the list. -/
def span : List Nat → Nat
  | [] => 0
  | n :: ns => ns.foldl max n - ns.foldl min n + 1

/-- A fold whose choice stands beyond both of its arguments ends beyond all that it saw. -/
theorem foldl_beyond {beyond : Nat → Nat → Prop} {pick : Nat → Nat → Nat}
    (self : ∀ n, beyond n n) (trans : ∀ {a b c}, beyond a b → beyond b c → beyond a c)
    (left : ∀ a b, beyond a (pick a b)) (right : ∀ a b, beyond b (pick a b)) (ns : List Nat) (n : Nat) :
    beyond n (ns.foldl pick n) ∧ ∀ a ∈ ns, beyond a (ns.foldl pick n) := by
  induction ns generalizing n with
  | nil => exact ⟨self n, fun _ member => nomatch member⟩
  | cons m ms ih =>
    obtain ⟨head, rest⟩ := ih (pick n m)
    rw [List.foldl_cons]
    refine ⟨trans (left n m) head, fun a member => ?_⟩
    rcases List.mem_cons.mp member with rfl | later
    · exact trans (right n a) head
    · exact rest a later

theorem le_foldl_max (ns : List Nat) (n : Nat) :
    n ≤ ns.foldl max n ∧ ∀ a ∈ ns, a ≤ ns.foldl max n :=
  foldl_beyond Nat.le_refl Nat.le_trans Nat.le_max_left Nat.le_max_right ns n

theorem foldl_min_le (ns : List Nat) (n : Nat) :
    ns.foldl min n ≤ n ∧ ∀ a ∈ ns, ns.foldl min n ≤ a :=
  @foldl_beyond (fun a b => b ≤ a) min Nat.le_refl (fun first second => Nat.le_trans second first)
    Nat.min_le_left Nat.min_le_right ns n

theorem lt_add_span {ns : List Nat} {a b : Nat} (ha : a ∈ ns) (hb : b ∈ ns) : a < b + span ns := by
  cases ns with
  | nil => simp at ha
  | cons n ns =>
    obtain ⟨topHead, topRest⟩ := le_foldl_max ns n
    obtain ⟨lowHead, lowRest⟩ := foldl_min_le ns n
    have upper : a ≤ ns.foldl max n := by
      rcases List.mem_cons.mp ha with same | member
      · omega
      · exact topRest a member
    have lower : ns.foldl min n ≤ b := by
      rcases List.mem_cons.mp hb with same | member
      · omega
      · exact lowRest b member
    simp only [span]
    omega

theorem foldl_max_comm (ns : List Nat) (n m : Nat) : ns.foldl max (max n m) = max n (ns.foldl max m) := by
  induction ns generalizing m with
  | nil => rfl
  | cons k ks ih => rw [List.foldl_cons, List.foldl_cons, Nat.max_assoc, ih]

theorem foldl_min_comm (ns : List Nat) (n m : Nat) : ns.foldl min (min n m) = min n (ns.foldl min m) := by
  induction ns generalizing m with
  | nil => rfl
  | cons k ks ih => rw [List.foldl_cons, List.foldl_cons, Nat.min_assoc, ih]

theorem span_le_cons (n : Nat) (ns : List Nat) : span ns ≤ span (n :: ns) := by
  cases ns with
  | nil => simp [span]
  | cons m ms =>
    simp only [span, List.foldl_cons, foldl_max_comm, foldl_min_comm]
    omega

/-- A fold that chooses one of its arguments ends with something that it saw. -/
theorem foldl_mem {pick : Nat → Nat → Nat} (picks : ∀ a b, pick a b = a ∨ pick a b = b)
    (ns : List Nat) (n : Nat) : ns.foldl pick n ∈ n :: ns := by
  induction ns generalizing n with
  | nil => exact List.mem_cons_self
  | cons m ms ih =>
    rw [List.foldl_cons]
    rcases picks n m with stays | moves
    · rw [stays]
      rcases List.mem_cons.mp (ih n) with same | member
      · rw [same]
        exact List.mem_cons_self
      · exact List.mem_cons_of_mem n (List.mem_cons_of_mem m member)
    · rw [moves]
      exact List.mem_cons_of_mem n (ih m)

theorem span_le_of_subset {ns ms : List Nat} (subset : ns ⊆ ms) : span ns ≤ span ms := by
  cases ns with
  | nil => exact Nat.zero_le _
  | cons n ns =>
    have window := lt_add_span (subset (foldl_mem max_choice ns n)) (subset (foldl_mem min_choice ns n))
    have order := Nat.le_trans (foldl_min_le ns n).1 (le_foldl_max ns n).1
    change ns.foldl max n - ns.foldl min n + 1 ≤ span ms
    omega

/-- The first number of a burst, whose newest number stands at the head. -/
def first (burst : List Nat) : Nat := burst.getLastD 0

/-- The newest number of a burst is its highest. -/
def EndsHighest (burst : List Nat) : Prop := ∀ n ∈ burst, n ≤ burst.headD 0

instance (burst : List Nat) : Decidable (EndsHighest burst) :=
  inferInstanceAs (Decidable (∀ n ∈ burst, n ≤ burst.headD 0))

/-- Where a number of the burst that follows `top` is placed. -/
def position (top : Nat) (burst : List Nat) (n : Nat) : Nat := top + 1 + n - first burst

def positions (top : Nat) (burst past : List Nat) : List Nat :=
  burst.map (position top burst) ++ past

theorem first_mem {burst : List Nat} {n : Nat} (member : n ∈ burst) : first burst ∈ burst := by
  have nonempty : burst ≠ [] := List.ne_nil_of_mem member
  rw [first, List.getLastD_eq_getLast?, List.getLast?_eq_some_getLast nonempty]
  exact List.getLast_mem nonempty

theorem first_cons {burst : List Nat} (nonempty : burst ≠ []) (n : Nat) :
    first (n :: burst) = first burst := by
  cases burst with
  | nil => exact absurd rfl nonempty
  | cons m ms => simp [first]

/-- All positions of earlier bursts, which span `closed` numbers from `origin` on, lie at or
    below `top`; the burst lies above, unless nothing came before it. -/
structure Spread (origin closed top : Nat) (burst past : List Nat) : Prop where
  pastDistinct : past.Nodup
  pastRange : ∀ q ∈ past, origin < q + closed ∧ q ≤ top
  topRange : origin ≤ top ∧ top ≤ origin + closed
  fresh : closed = 0 → past = []
  burstDistinct : burst.Nodup
  above : ∀ n ∈ burst, closed = 0 ∨ first burst ≤ n

section Joined
variable {origin closed top : Nat} {burst past : List Nat}
  (spread : Spread origin closed top burst past) (low : 65536 ≤ origin)
  (short : closed + span burst < 32768)
include spread low short

theorem position_add {n : Nat} (member : n ∈ burst) :
    position top burst n + first burst = top + 1 + n := by
  have window := lt_add_span (first_mem member) member
  have bottom := spread.topRange.1
  simp only [position]
  omega

theorem position_range {n : Nat} (member : n ∈ burst) :
    origin < position top burst n + (closed + span burst) ∧
      position top burst n ≤ origin + (closed + span burst) := by
  have sum := position_add spread low short member
  have lower := lt_add_span (first_mem member) member
  have upper := lt_add_span member (first_mem member)
  have range := spread.topRange
  omega

theorem position_above {n q : Nat} (member : n ∈ burst) (before : q ∈ past) :
    q < position top burst n := by
  have sum := position_add spread low short member
  have under := (spread.pastRange q before).2
  rcases spread.above n member with none | order
  · simp [spread.fresh none] at before
  · omega

theorem positions_nodup : (positions top burst past).Nodup := by
  refine List.Nodup.append ?_ spread.pastDistinct ?_
  · refine spread.burstDistinct.map_on fun n hn m hm same => ?_
    have left := position_add spread low short hn
    have right := position_add spread low short hm
    omega
  · intro q inBurst inPast
    obtain ⟨n, member, rfl⟩ := List.mem_map.mp inBurst
    exact absurd (position_above spread low short member inPast) (Nat.lt_irrefl _)

theorem positions_range : ∀ q ∈ positions top burst past,
    origin < q + (closed + span burst) ∧ q ≤ origin + (closed + span burst) := by
  intro q member
  rcases List.mem_append.mp member with inBurst | inPast
  · obtain ⟨n, source, rfl⟩ := List.mem_map.mp inBurst
    exact position_range spread low short source
  · have range := spread.pastRange q inPast
    have high := spread.topRange.2
    omega

theorem residues_nodup : ((positions top burst past).map UInt16.ofNat).Nodup := by
  refine nodup_map_ofNat (positions_nodup spread low short) fun a ha b hb => ?_
  have left := positions_range spread low short a ha
  have right := positions_range spread low short b hb
  omega

/-- A burst that ends at its highest number leaves its newest position on top. -/
theorem Spread.close {n : Nat} (newest : burst.head? = some n) (highest : EndsHighest burst) :
    Spread origin (closed + span burst) (position top burst n) [] (positions top burst past) := by
  obtain ⟨ns, rfl⟩ : ∃ ns, burst = n :: ns := List.head?_eq_some_iff.mp newest
  have member : n ∈ n :: ns := List.mem_cons_self
  have sum := position_add spread low short member
  have bottom := spread.topRange.1
  have start := highest _ (first_mem member)
  rw [List.headD_cons] at start
  refine ⟨positions_nodup spread low short, ?_, ?_, ?_, List.nodup_nil, by simp⟩
  · intro q hq
    refine ⟨(positions_range spread low short q hq).1, ?_⟩
    rcases List.mem_append.mp hq with inBurst | inPast
    · obtain ⟨m, hm, rfl⟩ := List.mem_map.mp inBurst
      have other := position_add spread low short hm
      have under := highest m hm
      rw [List.headD_cons] at under
      omega
    · exact Nat.le_of_lt (position_above spread low short member inPast)
  · exact ⟨by omega, (position_range spread low short member).2⟩
  · intro none
    simp [span] at none

end Joined

theorem Spread.start (origin : Nat) : Spread origin 0 origin [] [] :=
  ⟨List.nodup_nil, by simp, ⟨Nat.le_refl _, Nat.le_refl _⟩, fun _ => rfl, List.nodup_nil, by simp⟩

/-- One more number, which is above the first of its burst if anything came before. -/
theorem Spread.extend {origin closed top n : Nat} {burst past : List Nat}
    (spread : Spread origin closed top burst past) (fresh : n ∉ burst)
    (order : burst = [] ∨ closed = 0 ∨ first burst ≤ n) :
    Spread origin closed top (n :: burst) past := by
  refine { spread with
    burstDistinct := List.nodup_cons.mpr ⟨fresh, spread.burstDistinct⟩, above := ?_ }
  intro m member
  by_cases opens : burst = []
  · rw [opens, List.mem_singleton] at member
    right
    rw [member, opens]
    exact Nat.le_refl _
  · rw [first_cons opens]
    rcases List.mem_cons.mp member with rfl | old
    · exact order.resolve_left opens
    · exact spread.above m old

/-- The places of a burst stay when it grows. -/
theorem positions_cons (top n : Nat) (burst past : List Nat) :
    positions top (n :: burst) past = position top (n :: burst) n :: positions top burst past := by
  have same : burst.map (position top (n :: burst)) = burst.map (position top burst) := by
    refine List.map_congr_left fun m member => ?_
    rw [position, position, first_cons (List.ne_nil_of_mem member)]
  rw [positions, List.map_cons, same]
  rfl

end SeqWindow
