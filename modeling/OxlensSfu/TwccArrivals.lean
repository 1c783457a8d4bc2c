import OxlensSfu.TwccRecorder
import Mathlib.Data.List.Chain

/-
How exactly feedback packets tell arrival times. Every delta is cut to whole ticks by
itself, so what the cuts drop adds up along a packet.
-/
namespace TwccArrivals
open WireBytes SfuConfig TransportFeedback GuardedRun TwccRecorder
open PttRewriter (Instant)

/-- A tick of 250 µs, in nanoseconds. -/
def tick : Int := 250000

/-- Less than a tick in either direction. -/
def WithinTick (error : Int) : Prop := -tick < error ∧ error < tick

instance (error : Int) : Decidable (WithinTick error) := inferInstanceAs (Decidable (_ ∧ _))

/-- The arrivals that the next feedback reports, in the order of their numbers. -/
def received (r : Recorder) : List Instant := (held r).filterMap id

def recordTimes (ops : List Op) : List Instant :=
  ops.filterMap fun
    | .record _ arrival => some arrival
    | .feedback _ => none

/-- The gap between two arrivals fits the signed ticks of a large delta. -/
def Representable (earlier later : Instant) : Prop :=
  -8193 * tick < (later : Int) - earlier ∧ (later : Int) - earlier < 8192 * tick

instance (earlier later : Instant) : Decidable (Representable earlier later) :=
  inferInstanceAs (Decidable (_ ∧ _))

/-- Every arrival that the recorder holds is told with less than a tick of error. -/
def Accurate (r : Recorder) (baseTime : Instant) (fb : Feedback) : Prop :=
  ∀ i < fb.statusCount, ∀ entry, r.get (r.pendingBaseSeq + UInt16.ofNat i) = some entry →
    ∃ t, fb.ticks[i]? = some (some t) ∧ WithinTick (t * tick - ((entry.arrival : Int) - baseTime))

/-- The first arrival is less than 2^23 steps of 64 ms after the time origin. -/
def InRange (baseTime : Instant) (arrivals : List Instant) : Prop :=
  ∀ a ∈ arrivals.head?, (a : Int) - baseTime < 8388608 * (256 * tick)

/-- The remainders that cutting each gap to whole ticks drops, signed as the gaps are,
    never add up to a tick. -/
def Settled (carry : Int) (prev : Instant) : List Instant → Prop
  | [] => True
  | a :: later =>
    WithinTick (carry + Int.tmod ((a : Int) - prev) tick) ∧
      Settled (carry + Int.tmod ((a : Int) - prev) tick) a later

theorem micros_tdiv (x : Nat) (bound : x < 2 ^ 63 * 1000) :
    (Int.bmod ((x / 1000 : Nat) : Int) (2 ^ 64)).tdiv 250 = ((x / 250000 : Nat) : Int) := by
  have word : Int.bmod ((x / 1000 : Nat) : Int) (2 ^ 64) = ((x / 1000 : Nat) : Int) :=
    Int.bmod_eq_of_le (by omega) (by omega)
  rw [word, Int.tdiv_eq_ediv_of_nonneg (by omega)]
  omega

/-- A gap is cut towards zero. -/
theorem delta_eq {prev a : Nat} (baseTime : Instant) (fits : Representable prev a) :
    delta250us baseTime (some prev) a = Int.tdiv ((a : Int) - prev) tick := by
  obtain ⟨low, high⟩ := fits
  simp only [tick] at low high ⊢
  unfold delta250us microsSince
  simp only
  split
  · rename_i order
    have forward : prev ≤ a := order
    rw [micros_tdiv _ (by omega), Int.tdiv_eq_ediv_of_nonneg (by omega)]
    omega
  · rename_i order
    have backward : a < prev := Nat.lt_of_not_le order
    rw [micros_tdiv _ (by omega), show (a : Int) - prev = -((prev : Int) - a) by omega,
      Int.neg_tdiv, Int.tdiv_eq_ediv_of_nonneg (by omega)]
    omega

/-- A cut gap keeps its sign, so it stays within the range of a large delta. -/
theorem tdiv_tick {gap : Int} (low : -8193 * tick < gap) (high : gap < 8192 * tick) :
    -8192 ≤ gap.tdiv tick ∧ gap.tdiv tick ≤ 8191 := by
  simp only [tick] at *
  rcases Int.le_total 0 gap with forward | backward
  · rw [Int.tdiv_eq_ediv_of_nonneg forward]
    omega
  · rw [show gap = -(-gap) by omega, Int.neg_tdiv, Int.tdiv_eq_ediv_of_nonneg (by omega)]
    omega

theorem delta_unclamped {prev a : Instant} (baseTime : Instant) (fits : Representable prev a) :
    clampDelta (delta250us baseTime (some prev) a) = Int.tdiv ((a : Int) - prev) tick := by
  rw [delta_eq baseTime fits]
  have range := tdiv_tick fits.1 fits.2
  unfold clampDelta
  omega

section Positions
variable {P : Nat → Instant → Prop} {hs : List (Option Instant)}

theorem forall_received_none : (∀ i a, (none :: hs)[i]? = some (some a) → P i a) ↔
    ∀ i a, hs[i]? = some (some a) → P (i + 1) a := by
  constructor
  · intro all i a found
    exact all (i + 1) a (by simpa using found)
  · intro all i a found
    cases i with
    | zero => simp at found
    | succ i => exact all i a (by simpa using found)

theorem forall_received_some {c : Instant} :
    (∀ i a, (some c :: hs)[i]? = some (some a) → P i a) ↔
      P 0 c ∧ ∀ i a, hs[i]? = some (some a) → P (i + 1) a := by
  constructor
  · intro all
    exact ⟨all 0 c rfl, fun i a found => all (i + 1) a (by simpa using found)⟩
  · rintro ⟨first, later⟩ i a found
    cases i with
    | zero =>
      obtain rfl : c = a := by simpa using found
      exact first
    | succ i => exact later i a (by simpa using found)

end Positions

/-- What a reader takes for the arrivals behind `prev`, which it holds `start` ticks after
    the time origin, is off by what the cuts since then have dropped. -/
theorem accurate_from {baseTime : Instant} (hs : List (Option Instant)) {prev : Instant}
    {start carry : Int} (exact_ : (prev : Int) - baseTime = start * tick + carry)
    (near : (prev :: hs.filterMap id).IsChain Representable) :
    (∀ (i : Nat) (a : Nat), hs[i]? = some (some a) →
      ∃ t, (arrivalTicks start ((deltasOf baseTime (some prev) hs).map (Option.map clampDelta)))[i]? =
        some (some t) ∧ WithinTick (t * tick - ((a : Int) - baseTime))) ↔
      Settled carry prev (hs.filterMap id) := by
  induction hs generalizing prev start carry with
  | nil => simp [Settled]
  | cons h hs ih =>
    cases h with
    | none =>
      rw [List.filterMap_cons_none rfl] at near ⊢
      rw [forall_received_none, ← ih exact_ near]
      simp only [deltasOf, List.map_cons, Option.map_none, arrivalTicks, List.getElem?_cons_succ]
    | some a =>
      rw [List.filterMap_cons_some (show id (some a) = some a from rfl)] at near ⊢
      rw [List.isChain_cons_cons] at near
      obtain ⟨fits, near⟩ := near
      have cut := Int.tdiv_mul_add_tmod ((a : Int) - prev) tick
      have next : (a : Int) - baseTime =
          (start + ((a : Int) - prev).tdiv tick) * tick +
            (carry + ((a : Int) - prev).tmod tick) := by
        rw [Int.add_mul]
        omega
      have head : (start + ((a : Int) - prev).tdiv tick) * tick - ((a : Int) - baseTime) =
          -(carry + ((a : Int) - prev).tmod tick) := by omega
      have symmetric : WithinTick (-(carry + ((a : Int) - prev).tmod tick)) ↔
          WithinTick (carry + ((a : Int) - prev).tmod tick) := by
        unfold WithinTick
        omega
      rw [forall_received_some, Settled, ← ih next near, ← symmetric, ← head]
      simp only [deltasOf, List.map_cons, Option.map_some, arrivalTicks, delta_unclamped baseTime fits,
        List.getElem?_cons_zero, List.getElem?_cons_succ, Option.some.injEq, exists_eq_left']

/-- The first delta carries what the reference time leaves. -/
theorem reference_and_delta (steps : Nat) :
    ((steps / 256 : Nat) : Int) * 256 + clampDelta ((steps : Int) - ((steps / 256 : Nat) : Int) * 256) =
      steps := by
  unfold clampDelta
  omega

/-- Within the signed 24 bits of the reference time, the first arrival is told to the tick. -/
theorem first_in_range {baseTime a : Nat} (after : baseTime ≤ a)
    (near : (a : Int) - baseTime < 8388608 * (256 * tick)) :
    Int.bmod (referenceTime24 baseTime a) 16777216 * 256 + clampDelta (delta250us baseTime none a) =
      Int.tdiv ((a : Int) - baseTime) tick := by
  simp only [tick] at *
  have offset : offset250us baseTime a = (((a - baseTime) / 250000 : Nat) : Int) :=
    micros_tdiv _ (by omega)
  have steps : (offset250us baseTime a).tdiv 256 = (((a - baseTime) / 250000 / 256 : Nat) : Int) := by
    rw [offset, Int.tdiv_eq_ediv_of_nonneg (by omega)]
    omega
  have field : referenceTime24 baseTime a = (a - baseTime) / 250000 / 256 := by
    unfold referenceTime24
    omega
  have signed : Int.bmod (referenceTime24 baseTime a) 16777216 =
      (((a - baseTime) / 250000 / 256 : Nat) : Int) := by
    rw [field]
    exact Int.bmod_eq_of_le (by omega) (by omega)
  have whole : Int.tdiv ((a : Int) - baseTime) 250000 = (((a - baseTime) / 250000 : Nat) : Int) := by
    rw [Int.tdiv_eq_ediv_of_nonneg (by omega)]
    omega
  have delta : delta250us baseTime none a =
      (((a - baseTime) / 250000 : Nat) : Int) - (((a - baseTime) / 250000 / 256 : Nat) : Int) * 256 := by
    rw [delta250us, steps, offset]
  rw [signed, whole, delta]
  exact reference_and_delta _

/-- Past them, the reference time has wrapped and the first arrival is told too early. -/
theorem first_past_range {baseTime a : Nat} (far : ¬ (a : Int) - baseTime < 8388608 * (256 * tick)) :
    ¬ WithinTick ((Int.bmod (referenceTime24 baseTime a) 16777216 * 256 +
      clampDelta (delta250us baseTime none a)) * tick - ((a : Int) - baseTime)) := by
  have reference : Int.bmod (referenceTime24 baseTime a) 16777216 < 8388608 :=
    Int.bmod_lt (by decide)
  have cut := Int.tdiv_mul_add_tmod (offset250us baseTime a) 256
  have small := Int.tmod_lt_of_pos (offset250us baseTime a) (show (0 : Int) < 256 by decide)
  unfold WithinTick clampDelta
  simp only [delta250us, tick] at *
  omega

theorem accurate_iff {baseTime a : Nat} (hs : List (Option Instant)) {later : List Instant}
    (arrivals : hs.filterMap id = a :: later) (after : baseTime ≤ a)
    (near : (a :: later).IsChain Representable) :
    (∀ (i : Nat) (b : Nat), hs[i]? = some (some b) →
      ∃ t, (arrivalTicks (Int.bmod (referenceTime24 baseTime a) 16777216 * 256)
        ((deltasOf baseTime none hs).map (Option.map clampDelta)))[i]? = some (some t) ∧
        WithinTick (t * tick - ((b : Int) - baseTime))) ↔
      InRange baseTime (a :: later) ∧ Settled 0 baseTime (a :: later) := by
  induction hs with
  | nil => simp at arrivals
  | cons h hs ih =>
    cases h with
    | none =>
      rw [forall_received_none, ← ih (by simpa using arrivals)]
      simp only [deltasOf, List.map_cons, Option.map_none, arrivalTicks, List.getElem?_cons_succ]
    | some c =>
      rw [List.filterMap_cons_some (show id (some c) = some c from rfl)] at arrivals
      obtain ⟨rfl, rfl⟩ := List.cons.inj arrivals
      by_cases inRange : (c : Int) - baseTime < 8388608 * (256 * tick)
      · have first := first_in_range after inRange
        have cut := Int.tdiv_mul_add_tmod ((c : Int) - baseTime) tick
        have below := Int.tmod_lt_of_pos ((c : Int) - baseTime) (show 0 < tick by decide)
        have above := Int.lt_tmod_of_pos ((c : Int) - baseTime) (show 0 < tick by decide)
        have rest := @accurate_from baseTime hs c _ _ cut.symm near
        have head : WithinTick (((c : Int) - baseTime).tdiv tick * tick - ((c : Int) - baseTime)) := by
          unfold WithinTick
          omega
        have settled : WithinTick (((c : Int) - baseTime).tmod tick) := ⟨above, below⟩
        rw [forall_received_some]
        simp only [InRange, Settled, List.head?_cons, Option.mem_def, Option.some.injEq, deltasOf,
          List.map_cons, Option.map_some, arrivalTicks, first, Int.zero_add, List.getElem?_cons_zero,
          List.getElem?_cons_succ, exists_eq_left', forall_eq']
        exact ⟨fun told => ⟨inRange, settled, rest.mp told.2⟩,
          fun held => ⟨head, rest.mpr held.2.2⟩⟩
      · constructor
        · intro all
          obtain ⟨t, read, within⟩ := all 0 c rfl
          obtain rfl : _ = t := Option.some.inj (Option.some.inj read)
          exact absurd within (first_past_range inRange)
        · rintro ⟨range, _⟩
          exact absurd (range c rfl) inRange

/-- Times of records never go back. -/
def RecordTimesOrdered (ops : List Op) : Prop := (recordTimes ops).Pairwise (· ≤ ·)

instance (ops : List Op) : Decidable (RecordTimesOrdered ops) :=
  inferInstanceAs (Decidable (List.Pairwise _ _))

/-- Nothing was recorded before the time origin. -/
structure AfterBase (r : Recorder) (baseTime : Instant) : Prop where
  started : r.started = true
  based : r.baseTime = some baseTime
  stored : ∀ i e, r.arrivals i = some e → (baseTime : Nat) ≤ e.arrival

theorem feedback_arrivals (r : Recorder) (mediaSsrc : UInt32) :
    let next := (buildTwccFeedback r mediaSsrc).1
    next.arrivals = r.arrivals ∧ next.started = r.started ∧ next.baseTime = r.baseTime ∧
      next.maxSeq = r.maxSeq := by
  unfold buildTwccFeedback
  split
  · exact ⟨rfl, rfl, rfl, rfl⟩
  split
  · exact ⟨rfl, rfl, rfl, rfl⟩
  split
  · exact ⟨rfl, rfl, rfl, rfl⟩
  simp only
  split <;> exact ⟨rfl, rfl, rfl, rfl⟩

theorem record_fields (r : Recorder) (twccSeq : UInt16) (arrival : Instant) :
    (r.record twccSeq arrival).started = true ∧
      (r.record twccSeq arrival).baseTime = (if r.started then r.baseTime else some arrival) ∧
      (r.record twccSeq arrival).arrivals =
        fun i => if i = slot twccSeq then some ⟨twccSeq, arrival⟩ else r.arrivals i := by
  unfold Recorder.record
  cases started : r.started
  · exact ⟨rfl, rfl, rfl⟩
  · simp only [Bool.not_true, Bool.false_eq_true, if_false, if_true]
    split <;> exact ⟨rfl, rfl, rfl⟩

theorem AfterBase.run {r : Recorder} {baseTime : Instant} (held : AfterBase r baseTime) {ops : List Op}
    (later : ∀ t ∈ recordTimes ops, (baseTime : Nat) ≤ t) : AfterBase (run step r ops) baseTime := by
  induction ops generalizing r with
  | nil => exact held
  | cons op ops ih =>
    cases op with
    | record twccSeq arrival =>
      refine ih ?_ fun t member => later t (List.mem_cons_of_mem _ member)
      obtain ⟨started, based, arrivals⟩ := record_fields r twccSeq arrival
      refine ⟨started, by rw [step, based, if_pos held.started, held.based], fun i e => ?_⟩
      rw [step, arrivals]
      simp only
      split
      · rintro same
        rw [← Option.some.inj same]
        exact later arrival List.mem_cons_self
      · exact held.stored i e
    | feedback mediaSsrc =>
      refine ih ?_ later
      obtain ⟨arrivals, started, based, _⟩ := feedback_arrivals r mediaSsrc
      refine ⟨by rw [step, started, held.started], by rw [step, based, held.based], fun i e => ?_⟩
      rw [step, arrivals]
      exact held.stored i e

theorem afterBase_run {ops : List Op} (ordered : RecordTimesOrdered ops) {baseTime : Instant}
    (based : (run step .new ops).baseTime = some baseTime) : AfterBase (run step .new ops) baseTime := by
  induction ops with
  | nil => simp [Recorder.new] at based
  | cons op ops ih =>
    cases op with
    | record twccSeq arrival =>
      have order := List.pairwise_cons.mp ordered
      have first : AfterBase (Recorder.new.record twccSeq arrival) arrival := by
        obtain ⟨started, base, arrivals⟩ := record_fields .new twccSeq arrival
        refine ⟨started, base, fun i e => ?_⟩
        rw [arrivals]
        simp only [Recorder.new]
        split
        · rintro same
          rw [← Option.some.inj same]
        · exact fun same => nomatch same
      have all : AfterBase (run step (Recorder.new.record twccSeq arrival) ops) arrival :=
        first.run fun t member => order.1 t member
      obtain rfl : arrival = baseTime := by
        rw [run_cons, step, all.based] at based
        exact Option.some.inj based
      exact all
    | feedback mediaSsrc =>
      have idle : step .new (.feedback mediaSsrc) = Recorder.new := rfl
      rw [run_cons, idle] at based ⊢
      exact ih ordered based

theorem received_mem {r : Recorder} {a : Instant} (member : a ∈ received r) :
    ∃ twccSeq entry, r.get twccSeq = some entry ∧ entry.arrival = a := by
  obtain ⟨h, inHeld, same⟩ := List.mem_filterMap.mp member
  obtain ⟨i, _, rfl⟩ := List.mem_map.mp inHeld
  obtain ⟨entry, found, rfl⟩ := Option.map_eq_some_iff.mp same
  exact ⟨_, entry, found, rfl⟩

theorem AfterBase.received {r : Recorder} {baseTime : Instant} (held : AfterBase r baseTime)
    {a : Instant} (member : a ∈ received r) : (baseTime : Nat) ≤ a := by
  obtain ⟨twccSeq, entry, found, rfl⟩ := received_mem member
  exact held.stored _ _ (Option.filter_eq_some_iff.mp found).1

theorem accurate_iff_held (r : Recorder) (baseTime : Instant) {fb : Feedback}
    (count : fb.statusCount = r.pendingCount.toNat) :
    Accurate r baseTime fb ↔ ∀ (i : Nat) (a : Nat), (held r)[i]? = some (some a) →
      ∃ t, fb.ticks[i]? = some (some t) ∧ WithinTick (t * tick - ((a : Int) - baseTime)) := by
  have entries : ∀ i, i < r.pendingCount.toNat →
      (held r)[i]? = some ((r.get (r.pendingBaseSeq + UInt16.ofNat i)).map (·.arrival)) := by
    intro i below
    simp [held, below]
  constructor
  · intro all i a found
    have below : i < r.pendingCount.toNat := by
      have := (List.getElem?_eq_some_iff.mp found).1
      rwa [held_length] at this
    rw [entries i below] at found
    obtain ⟨entry, got, rfl⟩ := Option.map_eq_some_iff.mp (Option.some.inj found)
    exact all i (by omega) entry got
  · intro all i below entry got
    exact all i entry.arrival (by rw [entries i (by omega), got]; rfl)

/-- A packet tells every arrival to the tick exactly when the first one is within the
    reference time and the dropped remainders never add up to a tick. -/
theorem arrivals_accurate_iff_settled (ops : List Op) (ordered : RecordTimesOrdered ops)
    (mediaSsrc : UInt32) (buf : Bytes)
    (built : (buildTwccFeedback (run step .new ops) mediaSsrc).2 = some buf)
    (near : (received (run step .new ops)).IsChain Representable) (baseTime : Instant)
    (based : (run step .new ops).baseTime = some baseTime) (fb : Feedback) (rest : Bytes)
    (read : decode buf = some (fb, rest)) :
    Accurate (run step .new ops) baseTime fb ↔
      InRange baseTime (received (run step .new ops)) ∧
        Settled 0 baseTime (received (run step .new ops)) := by
  obtain ⟨origin, firstArrival, facts⟩ := built_of_some built
  obtain rfl : origin = baseTime := Option.some.inj (facts.based.symm.trans based)
  have after := afterBase_run ordered based
  have decoded := facts.read
  rw [read] at decoded
  simp only [Option.some.injEq, Prod.mk.injEq] at decoded
  obtain ⟨later, arrivals⟩ : ∃ later, received (run step .new ops) = firstArrival :: later := by
    have first := facts.first
    rw [← List.head?_filterMap] at first
    exact List.head?_eq_some_iff.mp first
  have order := after.received (arrivals ▸ List.mem_cons_self)
  rw [arrivals] at near ⊢
  rw [accurate_iff_held _ _ (by rw [decoded.1]), ← accurate_iff (held (run step .new ops)) arrivals order near,
    decoded.1]
  simp only [Feedback.ticks]

theorem dropped_remainders_counterexample :
    let ops : List Op := [.record 10 0, .record 11 249000, .record 12 498000]
    RecordTimesOrdered ops ∧ (received (run step .new ops)).IsChain Representable ∧
      ∃ buf fb rest, (buildTwccFeedback (run step .new ops) 0x2000).2 = some buf ∧
        (run step .new ops).baseTime = some 0 ∧ decode buf = some (fb, rest) ∧
        ¬ Accurate (run step .new ops) 0 fb := by
  intro ops
  refine ⟨by decide, by decide,
    [175, 205, 0, 7, 0, 0, 0, 1, 0, 0, 0x20, 0, 0, 10, 0, 3, 0, 0, 0, 0, 0xD5, 0, 0, 0, 0, 0, 0, 0,
      0, 0, 0, 3], ⟨10, 3, 0, 0, [some 0, some 0, some 0]⟩, [0, 0, 0, 0, 0, 0, 3], by decide, by decide,
    by decide, ?_⟩
  intro accurate
  obtain ⟨t, told, within⟩ := accurate 2 (by decide) ⟨12, 498000⟩ (by decide)
  obtain rfl : 0 = t := by simpa [Feedback.ticks, arrivalTicks] using told
  exact absurd within (by decide)

theorem small_remainder_accurate :
    Accurate (run step .new [.record 65535 0, .record 0 600000]) 0
        ⟨65535, 2, 0, 0, [some 0, some 2]⟩ := by
  refine (arrivals_accurate_iff_settled [.record 65535 0, .record 0 600000] (by decide) 0x2000
    [143, 205, 0, 6, 0, 0, 0, 1, 0, 0, 0x20, 0, 255, 255, 0, 2, 0, 0, 0, 0, 0xD4, 0, 0, 2, 0, 0, 0,
      0] (by decide) (by decide) 0 (by decide) _ [0, 0, 0, 0] (by decide)).mpr ⟨?_, ?_⟩
  · have first : received (run step .new [.record 65535 0, .record 0 600000]) = [0, 600000] := by decide
    rw [first]
    intro a head
    obtain rfl : 0 = a := Option.some.inj head
    decide
  · have all : received (run step .new [.record 65535 0, .record 0 600000]) = [0, 600000] := by decide
    rw [all]
    exact ⟨by decide, by decide, trivial⟩

end TwccArrivals
