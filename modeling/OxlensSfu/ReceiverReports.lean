import OxlensSfu.SourceTracking

/-
What the report blocks say of a stream whose true sequence numbers, 16-bit residues of
unbounded positions, stay in a window around the highest one.
-/
namespace ReceiverReports
open SfuConfig GuardedRun SeqPosition ReceiverStats SourceTracking
open PttRewriter (Instant)

/-- What happens to the counters of a source, its packets given by their true numbers. -/
inductive StatsOp where
  | packet (position : Int) (rtpTs : UInt32) (arrivalMs : UInt64)
  | senderReport (ntpTsHi ntpTsLo : UInt32) (now : Instant)
  | report (now : Instant)
  deriving DecidableEq, Repr

/-- The counters, the highest true number so far, and the packets since the base. -/
structure Tally where
  stats : RecvStats
  top : Int
  count : Nat

def tallyStep (t : Tally) : StatsOp → Tally
  | .packet position rtpTs arrivalMs =>
    { stats := t.stats.update (UInt16.ofInt position) rtpTs arrivalMs
      top := max t.top position
      count := t.count + 1 }
  | .senderReport ntpTsHi ntpTsLo now => { t with stats := t.stats.onSrReceived ntpTsHi ntpTsLo now }
  | .report now => { t with stats := (t.stats.buildRrBlock now).1 }

/-- True numbers lie at most 100 below and less than 3000 above the highest one. -/
def InWindow (t : Tally) : StatsOp → Prop
  | .packet position _ _ => t.top - 100 ≤ position ∧ position < t.top + 3000
  | .senderReport _ _ _ => True
  | .report _ => True

instance (t : Tally) : (op : StatsOp) → Decidable (InWindow t op)
  | .packet _ _ _ => inferInstanceAs (Decidable (_ ∧ _))
  | .senderReport _ _ _ => isTrue trivial
  | .report _ => isTrue trivial

/-- Probation ends with this packet; its number is the base. -/
def EndsProbation (s : RecvStats) (pkt : Packet) : Prop :=
  s.seqProbation ≠ 0 ∧ (s.update pkt.seq pkt.rtpTs pkt.arrivalMs).seqProbation = 0

instance (s : RecvStats) (pkt : Packet) : Decidable (EndsProbation s pkt) :=
  inferInstanceAs (Decidable (_ ∧ _))

/-- The counters from the packet on that ends probation. -/
def opened (s : RecvStats) (pkt : Packet) : Tally :=
  ⟨s.update pkt.seq pkt.rtpTs pkt.arrivalMs, pkt.seq.toNat, 1⟩

/-- The counters are residues of the true numbers. -/
structure Residues (base : UInt16) (t : Tally) : Prop where
  initialized : t.stats.initialized = true
  serverOver : t.stats.seqProbation = 0
  baseSeq : t.stats.baseSeq = base.toUInt32
  maxSeq : t.stats.maxSeq = UInt16.ofInt t.top
  cycles : (t.stats.cycles.toNat : Int) = (t.top - t.top % 65536) % 4294967296
  received : t.stats.received = UInt32.ofNat t.count
  above : (base.toNat : Int) ≤ t.top

theorem ends_by_restart {s : RecvStats} {pkt : Packet} (ends : EndsProbation s pkt) :
    s.initialized = true ∧ s.update pkt.seq pkt.rtpTs pkt.arrivalMs =
      ({ s with seqProbation := 0, maxSeq := pkt.seq }.initSeq pkt.seq).accept pkt.rtpTs pkt.arrivalMs := by
  obtain ⟨probing, finished⟩ := ends
  have positive : 0 < s.seqProbation := UInt32.pos_iff_ne_zero.mpr probing
  cases initialized : s.initialized
  · have first : (s.update pkt.seq pkt.rtpTs pkt.arrivalMs).seqProbation = 1 := by
      simp [RecvStats.update, initialized, RecvStats.accept, RecvStats.updateJitter, rtpSeqMinSequential]
    exact absurd (first.symm.trans finished) (by decide)
  by_cases next : pkt.seq = s.maxSeq + 1
  · by_cases last : s.seqProbation - 1 = 0
    · exact ⟨rfl, by simp [RecvStats.update, initialized, positive, ← next, last]⟩
    · have more : (s.update pkt.seq pkt.rtpTs pkt.arrivalMs).seqProbation = s.seqProbation - 1 := by
        simp [RecvStats.update, initialized, positive, ← next, last]
      exact absurd (more.symm.trans finished) last
  · have again : (s.update pkt.seq pkt.rtpTs pkt.arrivalMs).seqProbation = 1 := by
      simp [RecvStats.update, initialized, positive, next, rtpSeqMinSequential]
    exact absurd (again.symm.trans finished) (by decide)

theorem opened_residues {s : RecvStats} {pkt : Packet} (ends : EndsProbation s pkt) :
    Residues pkt.seq (opened s pkt) := by
  obtain ⟨initialized, server⟩ := ends_by_restart ends
  have small := pkt.seq.toNat_lt
  unfold opened
  rw [server]
  refine ⟨initialized, rfl, rfl, (ofInt_toNat pkt.seq).symm, ?_, rfl, Int.le_refl _⟩
  change (0 : Int) = _
  simp only
  omega

theorem packet_residues {base : UInt16} {t : Tally} (residues : Residues base t) {position : Int}
    (low : t.top - 100 ≤ position) (high : position < t.top + 3000) (rtpTs : UInt32) (arrivalMs : UInt64) :
    Residues base (tallyStep t (.packet position rtpTs arrivalMs)) := by
  have distance := toNat_ofInt (position - t.top)
  rw [ofInt_sub, ← residues.maxSeq] at distance
  have counted : t.stats.received + 1 = UInt32.ofNat (t.count + 1) := by
    rw [residues.received, UInt32.ofNat_add]
    rfl
  have above := residues.above
  by_cases ahead : t.top ≤ position
  · have near : (UInt16.ofInt position - t.stats.maxSeq).toNat < 3000 := by omega
    have wraps : UInt16.ofInt position < t.stats.maxSeq ↔ position % 65536 < t.top % 65536 := by
      have left := toNat_ofInt position
      have right := toNat_ofInt t.top
      rw [UInt16.lt_iff_toNat_lt, residues.maxSeq]
      omega
    have highest : max t.top position = position := by omega
    rw [tallyStep, update_near residues.initialized residues.serverOver _ _ _ near, highest]
    refine ⟨residues.initialized, residues.serverOver, residues.baseSeq, rfl, ?_, counted, by simp only; omega⟩
    change ((if UInt16.ofInt position < t.stats.maxSeq then t.stats.cycles + 65536
      else t.stats.cycles).toNat : Int) = (position - position % 65536) % 4294967296
    have cycles := residues.cycles
    have bound := t.stats.cycles.toNat_lt
    split
    · rename_i wrapped
      have crossed := wraps.mp wrapped
      have sum : (t.stats.cycles + 65536).toNat = (t.stats.cycles.toNat + 65536) % 4294967296 := by
        rw [UInt32.toNat_add]
        rfl
      have cycle : position - position % 65536 = t.top - t.top % 65536 + 65536 := by omega
      rw [cycle, sum]
      omega
    · rename_i straight
      have crossed : ¬ position % 65536 < t.top % 65536 := fun less => straight (wraps.mpr less)
      have cycle : position - position % 65536 = t.top - t.top % 65536 := by omega
      rw [cycle, cycles]
  · have late : 65436 ≤ (UInt16.ofInt position - t.stats.maxSeq).toNat := by omega
    have highest : max t.top position = t.top := by omega
    rw [tallyStep, update_late residues.initialized residues.serverOver _ _ _ late, highest]
    exact { residues with received := counted }

theorem step_residues {base : UInt16} (t : Tally) (op : StatsOp) (residues : Residues base t)
    (allowed : InWindow t op) : Residues base (tallyStep t op) := by
  cases op with
  | packet position rtpTs arrivalMs => exact packet_residues residues allowed.1 allowed.2 rtpTs arrivalMs
  | senderReport ntpTsHi ntpTsLo now => exact { residues with }
  | report now => exact { residues with }

theorem run_residues {base : UInt16} {t : Tally} (residues : Residues base t) {ops : List StatsOp}
    (allowed : Guarded tallyStep InWindow t ops) : Residues base (run tallyStep t ops) :=
  guarded_invariant step_residues residues ops allowed

theorem toNat_min (a b : UInt32) : (min a b).toNat = min a.toNat b.toNat := by
  change (if a ≤ b then a else b).toNat = _
  by_cases order : a ≤ b
  · rw [if_pos order, Nat.min_eq_left (UInt32.le_iff_toNat_le.mp order)]
  · have below : b.toNat ≤ a.toNat :=
      Nat.le_of_not_le fun above => order (UInt32.le_iff_toNat_le.mpr above)
    rw [if_neg order, Nat.min_eq_right below]

theorem capped_lost (expected received : UInt32) :
    ((min (lostOf expected received) 0x7FFFFF).toNat : Int) =
      min (max 0 ((expected.toNat : Int) - received.toNat)) 0x7FFFFF := by
  have excess : ((lostOf expected received).toNat : Int) = max 0 ((expected.toNat : Int) - received.toNat) := by
    rw [lostOf_toNat]
    omega
  rw [← excess, toNat_min]
  change ((min (lostOf expected received).toNat 8388607 : Nat) : Int) = _
  omega

/-- The report of a source whose counters are residues of its true numbers. -/
theorem report_of_residues {base : UInt16} {t : Tally} (residues : Residues base t) (now : Instant) :
    let block := (t.stats.buildRrBlock now).2
    (block.extendedHighestSeq.toNat : Int) = t.top % 4294967296 ∧
      (block.cumulativeLost.toNat : Int) =
        min (max 0 ((t.top - base.toNat + 1) % 4294967296 - t.count % 4294967296)) 0x7FFFFF := by
  have cycles := residues.cycles
  have number := toNat_ofInt t.top
  have small := base.toNat_lt
  have extended : (t.stats.extendedMax.toNat : Int) = t.top % 4294967296 := by
    rw [RecvStats.extendedMax, UInt32.toNat_add, UInt16.toNat_toUInt32, residues.maxSeq]
    omega
  have expected : ((t.stats.extendedMax - t.stats.baseSeq + 1).toNat : Int) =
      (t.top - base.toNat + 1) % 4294967296 := by
    rw [UInt32.toNat_add, UInt32.toNat_sub, residues.baseSeq, UInt16.toNat_toUInt32,
      show (1 : UInt32).toNat = 1 from rfl]
    omega
  have received : (t.stats.received.toNat : Int) = t.count % 4294967296 := by
    rw [residues.received, UInt32.toNat_ofNat']
    omega
  refine ⟨extended, ?_⟩
  change ((min (lostOf (t.stats.extendedMax - t.stats.baseSeq + 1) t.stats.received) 0x7FFFFF).toNat : Int) = _
  rw [← expected, ← received]
  exact capped_lost _ _

/-- After probation, with true numbers in the window, a report gives the highest true number
    and the packets lost up to it, all modulo the 32 bits of the counters. -/
theorem report_counts_true_numbers (s : RecvStats) (pkt : Packet) (ends : EndsProbation s pkt)
    (ops : List StatsOp) (allowed : Guarded tallyStep InWindow (opened s pkt) ops) (now : Instant) :
    let t := run tallyStep (opened s pkt) ops
    let block := (t.stats.buildRrBlock now).2
    (block.extendedHighestSeq.toNat : Int) = t.top % 4294967296 ∧
      (block.cumulativeLost.toNat : Int) =
        min (max 0 ((t.top - pkt.seq.toNat + 1) % 4294967296 - t.count % 4294967296)) 0x7FFFFF :=
  report_of_residues (run_residues (opened_residues ends) allowed) now

/-- The numbers of every 2999th packet. -/
def sprint (n : Nat) : List StatsOp :=
  (List.range n).map fun k => .packet (2999 * (k + 1)) 0 0

theorem sprint_run {t : Tally} (top : t.top = 0) (count : t.count = 1) (n : Nat) :
    Guarded tallyStep InWindow t (sprint n) ∧ (run tallyStep t (sprint n)).top = 2999 * n ∧
      (run tallyStep t (sprint n)).count = n + 1 := by
  induction n with
  | zero => exact ⟨trivial, by simpa [sprint] using top, by simpa [sprint] using count⟩
  | succ n ih =>
    obtain ⟨allowed, highest, counted⟩ := ih
    have more : sprint (n + 1) = sprint n ++ [.packet (2999 * (n + 1)) 0 0] := by
      simp [sprint, List.range_succ]
    have last : run tallyStep t (sprint (n + 1)) =
        tallyStep (run tallyStep t (sprint n)) (.packet (2999 * (n + 1)) 0 0) := by
      rw [more, run, List.foldl_append]
      rfl
    refine ⟨?_, ?_, ?_⟩
    · rw [more, guarded_append]
      exact ⟨allowed, ⟨by rw [highest]; omega, by rw [highest]; omega⟩, trivial⟩
    · rw [last]
      simp only [tallyStep, highest]
      omega
    · rw [last]
      simp only [tallyStep, counted]

/-- The counters of a source whose base is number 0. -/
def fromZero : Tally := opened ((RecvStats.new 1 48000).update 65535 0 0) ⟨0, 0, 0⟩

theorem fromZero_residues : Residues 0 fromZero :=
  @opened_residues ((RecvStats.new 1 48000).update 65535 0 0) ⟨0, 0, 0⟩ (by decide)

/-- What a sprint of `n` packets has lost, and what the report says. -/
theorem sprint_report (n : Nat) :
    Guarded tallyStep InWindow fromZero (sprint n) ∧
      (((run tallyStep fromZero (sprint n)).stats.buildRrBlock 0).2.cumulativeLost.toNat : Int) =
        min (max 0 ((2999 * (n : Int) + 1) % 4294967296 - ((n : Int) + 1) % 4294967296)) 0x7FFFFF ∧
      (run tallyStep fromZero (sprint n)).top + 1 - (run tallyStep fromZero (sprint n)).count =
        2998 * n := by
  obtain ⟨allowed, top, count⟩ := @sprint_run fromZero rfl rfl n
  have report := (report_of_residues (run_residues fromZero_residues allowed) 0).2
  rw [top, count] at report
  simp only [show ((0 : UInt16).toNat : Int) = 0 from rfl, Int.sub_zero, Int.natCast_add,
    Int.cast_ofNat_Int] at report
  exact ⟨allowed, report, by rw [top, count]; omega⟩

theorem sprint_wraps {n : Nat} (far : min (max 0 ((2999 * (n : Int) + 1) % 4294967296 -
      ((n : Int) + 1) % 4294967296)) 0x7FFFFF ≠ min (max 0 (2998 * (n : Int))) 0x7FFFFF) :
    Guarded tallyStep InWindow fromZero (sprint n) ∧
      (((run tallyStep fromZero (sprint n)).stats.buildRrBlock 0).2.cumulativeLost.toNat : Int) ≠
        min (max 0 ((run tallyStep fromZero (sprint n)).top + 1 -
          (run tallyStep fromZero (sprint n)).count)) 0x7FFFFF := by
  obtain ⟨allowed, report, lost⟩ := sprint_report n
  rw [report, lost]
  exact ⟨allowed, far⟩

/-- Where the span of the numbers reaches 2^32, the counters have wrapped and nothing seems lost. -/
theorem lost_wraps_counterexample :
    Guarded tallyStep InWindow fromZero (sprint 1432134) ∧
      (((run tallyStep fromZero (sprint 1432134)).stats.buildRrBlock 0).2.cumulativeLost.toNat : Int) ≠
        min (max 0 ((run tallyStep fromZero (sprint 1432134)).top + 1 -
          (run tallyStep fromZero (sprint 1432134)).count)) 0x7FFFFF :=
  @sprint_wraps 1432134 (by decide)

/-- Three packets lost across the wrap of the 16-bit numbers, one late packet before it. -/
theorem report_across_wrap :
    let t := run tallyStep (opened ((RecvStats.new 1 48000).update 65532 0 0) ⟨65533, 0, 0⟩)
      [.packet 65538 0 0, .report 5, .packet 65535 0 0]
    ((t.stats.buildRrBlock 9).2.extendedHighestSeq.toNat : Int) = t.top % 4294967296 :=
  (report_counts_true_numbers ((RecvStats.new 1 48000).update 65532 0 0) ⟨65533, 0, 0⟩ (by decide)
    [.packet 65538 0 0, .report 5, .packet 65535 0 0] (by decide) 9).1

end ReceiverReports
