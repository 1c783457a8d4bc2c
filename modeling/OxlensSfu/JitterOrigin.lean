import OxlensSfu.FractionLost
import OxlensSfu.SourceTracking
import Mathlib.Data.Rat.Cast.Defs
import Mathlib.Data.Rat.Cast.CharZero
import Mathlib.Tactic.Linarith

/-
The interarrival jitter of two runs over the same packets, the timestamps of one moved by an
offset. The jitter is kept as a rational number, beside the counters with their transits.
-/
namespace JitterOrigin
open SfuConfig GuardedRun ReceiverStats SourceTracking FractionLost

/-- The packet reaches `updateJitter`. -/
def timed (s : RecvStats) (seq : UInt16) : Bool :=
  match verdict s seq with
  | .first => true
  | .counted _ => s.seqProbation == 0
  | .ignored => false

structure Listener where
  stats : RecvStats
  jitter : Rat

def transitOf (clockRate rtpTs : UInt32) (arrivalMs : UInt64) : Int64 :=
  arrivalMs.toInt64 * clockRate.toUInt64.toInt64 / 1000 - rtpTs.toUInt64.toInt64

/-- A last transit of zero stands for none. -/
def nextJitter (jitter : Rat) (lastTransit transit : Int64) : Rat :=
  if lastTransit ≠ 0 then jitter + (((transit - lastTransit).abs.toInt : Rat) - jitter) / 16 else jitter

def Listener.hear (l : Listener) (pkt : Packet) : Listener where
  stats := l.stats.update pkt.seq pkt.rtpTs pkt.arrivalMs
  jitter := if timed l.stats pkt.seq
    then nextJitter l.jitter l.stats.lastTransit (transitOf l.stats.clockRate pkt.rtpTs pkt.arrivalMs)
    else l.jitter

/-- What `updateJitter` is called with moves the transit, and the floating-point jitter by the
    rule of `nextJitter`. -/
theorem update_timing (s : RecvStats) (seq : UInt16) (rtpTs : UInt32) (arrivalMs : UInt64) :
    ((s.update seq rtpTs arrivalMs).lastTransit, (s.update seq rtpTs arrivalMs).jitter) =
      if timed s seq then
        (transitOf s.clockRate rtpTs arrivalMs,
          if s.lastTransit ≠ 0
          then s.jitter + ((transitOf s.clockRate rtpTs arrivalMs - s.lastTransit).abs.toFloat - s.jitter) / 16
          else s.jitter)
      else (s.lastTransit, s.jitter) := by
  have updated := s.update_cases seq rtpTs arrivalMs
  unfold timed
  generalize verdict s seq = taken, s.update seq rtpTs arrivalMs = stats at updated
  cases updated with
  | first fresh => rfl
  | proven known probing next last => rfl
  | inSequence known probing next more => simp [UInt32.pos_iff_ne_zero.mp probing]
  | outOfSequence known probing other => simp [UInt32.pos_iff_ne_zero.mp probing]
  | near known valid ahead => simp only [valid, beq_self_eq_true, if_true]; rfl
  | restart known valid far jump again => rfl
  | ignored known valid far jump once => rfl
  | late known valid behind => simp only [valid, beq_self_eq_true, if_true]; rfl

theorem update_lastTransit (s : RecvStats) (seq : UInt16) (rtpTs : UInt32) (arrivalMs : UInt64) :
    (s.update seq rtpTs arrivalMs).lastTransit =
      if timed s seq then transitOf s.clockRate rtpTs arrivalMs else s.lastTransit :=
  (congrArg Prod.fst (update_timing s seq rtpTs arrivalMs)).trans (apply_ite Prod.fst _ _ _)

/-- What decides over the numbers of the packets, which the timestamps do not touch. -/
structure SameCounters (s s' : RecvStats) : Prop where
  clockRate : s'.clockRate = s.clockRate
  maxSeq : s'.maxSeq = s.maxSeq
  badSeq : s'.badSeq = s.badSeq
  initialized : s'.initialized = s.initialized
  seqProbation : s'.seqProbation = s.seqProbation

theorem same_verdict {s s' : RecvStats} (same : SameCounters s s') (seq : UInt16) :
    verdict s' seq = verdict s seq := by
  simp only [verdict, same.initialized, same.seqProbation, same.maxSeq, same.badSeq]

theorem same_timed {s s' : RecvStats} (same : SameCounters s s') (seq : UInt16) : timed s' seq = timed s seq := by
  simp only [timed, same_verdict same, same.seqProbation]

theorem update_same {s s' : RecvStats} (same : SameCounters s s') (seq : UInt16) (rtpTs rtpTs' : UInt32)
    (arrivalMs : UInt64) : SameCounters (s.update seq rtpTs arrivalMs) (s'.update seq rtpTs' arrivalMs) := by
  simp only [RecvStats.update, same.initialized, same.seqProbation, same.maxSeq, same.badSeq]
  split_ifs <;> exact ⟨same.clockRate, by first | rfl | exact same.maxSeq, by first | rfl | exact same.badSeq,
    by first | rfl | exact same.initialized, by first | rfl | exact same.seqProbation⟩

/-- Both runs, and the timestamp that reached `updateJitter` last in the first one. -/
structure Twins where
  plain : Listener
  moved : Listener
  lastTs : Option UInt32

def start (ssrc clockRate : UInt32) : Twins :=
  ⟨⟨.new ssrc clockRate, 0⟩, ⟨.new ssrc clockRate, 0⟩, none⟩

def twinStep (c : UInt32) (t : Twins) (pkt : Packet) : Twins where
  plain := t.plain.hear pkt
  moved := t.moved.hear { pkt with rtpTs := pkt.rtpTs + c }
  lastTs := if timed t.plain.stats pkt.seq then some pkt.rtpTs else t.lastTs

def SameJitter (t : Twins) : Prop := t.plain.jitter = t.moved.jitter

/-- The offset carries the timestamp past its 32 bits. -/
def carries (c rtpTs : UInt32) : Prop := 2 ^ 32 ≤ rtpTs.toNat + c.toNat

instance (c rtpTs : UInt32) : Decidable (carries c rtpTs) := inferInstanceAs (Decidable (_ ≤ _))

theorem neg_abs (a : Int64) : (-a).abs = a.abs := by
  have neg : (-a.toBitVec).toNat = (2 ^ 64 - a.toBitVec.toNat) % 2 ^ 64 := BitVec.toNat_neg a.toBitVec
  have bound := a.toBitVec.isLt
  apply Int64.toBitVec_inj.mp
  change (-a.toBitVec).abs = a.toBitVec.abs
  apply BitVec.eq_of_toNat_eq
  rw [BitVec.toNat_abs, BitVec.toNat_abs, BitVec.msb_eq_decide, BitVec.msb_eq_decide, neg]
  simp only [decide_eq_true_eq]
  split_ifs <;> omega

theorem abs_cases (a : Int64) : a.abs = a ∨ a.abs = -a := by
  cases negative : a.toBitVec.msb
  · refine .inl (Int64.toBitVec_inj.mp ?_)
    change a.toBitVec.abs = a.toBitVec
    rw [BitVec.abs_eq, negative, if_neg Bool.false_ne_true]
  · refine .inr (Int64.toBitVec_inj.mp ?_)
    change a.toBitVec.abs = -a.toBitVec
    rw [BitVec.abs_eq, negative, if_pos rfl]

theorem abs_eq_abs_iff (a b : Int64) : a.abs = b.abs ↔ a = b ∨ a = -b := by
  constructor
  · intro same
    rcases abs_cases a with left | left <;> rcases abs_cases b with right | right <;> rw [left, right] at same
    · exact .inl same
    · exact .inr same
    · exact .inr (by rw [← same, Int64.neg_neg])
    · exact .inl (Int64.neg_inj.mp same)
  · rintro (rfl | rfl)
    · rfl
    · exact neg_abs b

theorem widened (ts : UInt32) : ts.toUInt64.toInt64 = Int64.ofNat ts.toNat := by
  apply Int64.toBitVec_inj.mp
  apply BitVec.eq_of_toNat_eq
  simp

theorem widened_add (c ts : UInt32) : (ts + c).toUInt64.toInt64 + (if carries c ts then 4294967296 else 0) =
    ts.toUInt64.toInt64 + c.toUInt64.toInt64 := by
  have sum : (ts + c).toNat = (ts.toNat + c.toNat) % 4294967296 := UInt32.toNat_add ts c
  have left := ts.toNat_lt
  have right := c.toNat_lt
  rw [widened, widened, widened, ← Int64.ofNat_add]
  split
  · rename_i past
    unfold carries at past
    have whole : ts.toNat + c.toNat = (ts + c).toNat + 4294967296 := by omega
    rw [whole, Int64.ofNat_add]
    rfl
  · rename_i within
    unfold carries at within
    have whole : ts.toNat + c.toNat = (ts + c).toNat := by omega
    rw [whole, Int64.add_zero]

/-- The transit differences that the two runs take at a packet. -/
def plainDifference (t : Twins) (pkt : Packet) : Int64 :=
  transitOf t.plain.stats.clockRate pkt.rtpTs pkt.arrivalMs - t.plain.stats.lastTransit

def movedDifference (c : UInt32) (t : Twins) (pkt : Packet) : Int64 :=
  transitOf t.plain.stats.clockRate (pkt.rtpTs + c) pkt.arrivalMs - t.moved.stats.lastTransit

/-- A packet that reaches `updateJitter` after another one: its timestamp is carried past the
    32 bits as the last one was, and neither transit of the last one is zero. By coincidence
    two opposite differences agree, and one that equals the jitter does no harm. -/
def Steady (c : UInt32) (t : Twins) (pkt : Packet) : Prop :=
  timed t.plain.stats pkt.seq = true → ∀ ts, t.lastTs = some ts →
    if t.plain.stats.lastTransit ≠ 0 then
      if t.moved.stats.lastTransit ≠ 0 then
        (carries c pkt.rtpTs ↔ carries c ts) ∨ movedDifference c t pkt = -plainDifference t pkt
      else ((plainDifference t pkt).abs.toInt : Rat) = t.plain.jitter
    else t.moved.stats.lastTransit ≠ 0 → ((movedDifference c t pkt).abs.toInt : Rat) = t.plain.jitter

/-- The two runs differ in their transits, by what the offset makes of the last timestamp. -/
structure Apart (c : UInt32) (t : Twins) : Prop where
  same : SameCounters t.plain.stats t.moved.stats
  unset : t.lastTs = none → t.plain.stats.lastTransit = 0 ∧ t.moved.stats.lastTransit = 0
  transits : ∀ ts, t.lastTs = some ts → t.moved.stats.lastTransit + (ts + c).toUInt64.toInt64 =
    t.plain.stats.lastTransit + ts.toUInt64.toInt64

theorem movedDifference_eq_iff {c : UInt32} {t : Twins} (apart : Apart c t) {ts : UInt32}
    (last : t.lastTs = some ts) (pkt : Packet) :
    movedDifference c t pkt = plainDifference t pkt ↔ (carries c pkt.rtpTs ↔ carries c ts) := by
  have transits := apart.transits ts last
  have before := widened_add c ts
  have now := widened_add c pkt.rtpTs
  have period : (4294967296 : Int64) ≠ 0 := by decide
  simp only [movedDifference, plainDifference, transitOf]
  generalize pkt.arrivalMs.toInt64 * t.plain.stats.clockRate.toUInt64.toInt64 / 1000 = arrival
  by_cases carried : carries c pkt.rtpTs
  · by_cases was : carries c ts
    · refine iff_of_true ?_ (iff_of_true carried was)
      rw [if_pos carried] at now
      rw [if_pos was] at before
      grind
    · refine iff_of_false (fun same => period ?_) fun both => was (both.mp carried)
      rw [if_pos carried] at now
      rw [if_neg was] at before
      grind
  · by_cases was : carries c ts
    · refine iff_of_false (fun same => period ?_) fun both => carried (both.mpr was)
      rw [if_neg carried] at now
      rw [if_pos was] at before
      grind
    · refine iff_of_true ?_ (iff_of_false carried was)
      rw [if_neg carried] at now
      rw [if_neg was] at before
      grind

theorem nextJitter_both {last last' transit transit' : Int64} (set : last ≠ 0) (set' : last' ≠ 0) (jitter : Rat) :
    nextJitter jitter last transit = nextJitter jitter last' transit' ↔
      (transit' - last').abs = (transit - last).abs := by
  rw [nextJitter, nextJitter, if_pos set, if_pos set', ← Int64.toInt_inj, ← Int.cast_inj (α := Rat)]
  constructor
  · intro same
    linarith
  · intro same
    rw [same]

theorem nextJitter_one {last transit : Int64} (set : last ≠ 0) (jitter : Rat) :
    nextJitter jitter last transit = jitter ↔ ((transit - last).abs.toInt : Rat) = jitter := by
  rw [nextJitter, if_pos set]
  constructor
  · intro same
    linarith
  · intro same
    rw [same]
    linarith

theorem start_apart (c ssrc clockRate : UInt32) : Apart c (start ssrc clockRate) where
  same := ⟨rfl, rfl, rfl, rfl, rfl⟩
  unset := fun _ => ⟨rfl, rfl⟩
  transits := fun _ heard => nomatch heard

theorem step_apart {c : UInt32} (t : Twins) (pkt : Packet) (apart : Apart c t) : Apart c (twinStep c t pkt) := by
  have same := update_same apart.same pkt.seq pkt.rtpTs (pkt.rtpTs + c) pkt.arrivalMs
  have plain := update_lastTransit t.plain.stats pkt.seq pkt.rtpTs pkt.arrivalMs
  have moved := update_lastTransit t.moved.stats pkt.seq (pkt.rtpTs + c) pkt.arrivalMs
  rw [same_timed apart.same, apart.same.clockRate] at moved
  have later : (twinStep c t pkt).lastTs =
      if timed t.plain.stats pkt.seq then some pkt.rtpTs else t.lastTs := rfl
  cases reached : timed t.plain.stats pkt.seq
  · simp only [reached, Bool.false_eq_true, if_false] at plain moved later
    refine ⟨same, fun none => ?_, fun ts last => ?_⟩
    · change (t.plain.stats.update ..).lastTransit = 0 ∧ (t.moved.stats.update ..).lastTransit = 0
      rw [plain, moved]
      exact apart.unset (later ▸ none)
    · change (t.moved.stats.update ..).lastTransit + _ = (t.plain.stats.update ..).lastTransit + _
      rw [plain, moved]
      exact apart.transits ts (later ▸ last)
  · simp only [reached, if_true] at plain moved later
    refine ⟨same, fun none => ?_, fun ts last => ?_⟩
    · rw [later] at none
      exact nomatch none
    · rw [later, Option.some.injEq] at last
      subst last
      change (t.moved.stats.update ..).lastTransit + _ = (t.plain.stats.update ..).lastTransit + _
      rw [plain, moved, transitOf, transitOf, Int64.sub_add_cancel, Int64.sub_add_cancel]

theorem step_jitter_iff {c : UInt32} (t : Twins) (pkt : Packet) (apart : Apart c t) (same : SameJitter t) :
    SameJitter (twinStep c t pkt) ↔ Steady c t pkt := by
  have moved : timed t.moved.stats pkt.seq = timed t.plain.stats pkt.seq := same_timed apart.same pkt.seq
  simp only [SameJitter, twinStep, Listener.hear, moved, apart.same.clockRate, ← show _ = _ from same]
  unfold Steady
  cases timed t.plain.stats pkt.seq
  · simp
  simp only [if_true, forall_const]
  cases last : t.lastTs with
  | none =>
    obtain ⟨plainUnset, movedUnset⟩ := apart.unset last
    simp [plainUnset, movedUnset, nextJitter]
  | some ts =>
    simp only [Option.some.injEq, forall_eq']
    by_cases unset : t.plain.stats.lastTransit = 0
    · have kept : ∀ transit, nextJitter t.plain.jitter t.plain.stats.lastTransit transit = t.plain.jitter :=
        fun transit => if_neg (not_not.mpr unset)
      rw [kept, if_neg (not_not.mpr unset)]
      by_cases movedUnset : t.moved.stats.lastTransit = 0
      · exact iff_of_true (if_neg (not_not.mpr movedUnset)).symm fun set => absurd movedUnset set
      · exact eq_comm.trans ((nextJitter_one movedUnset _).trans ⟨fun equal _ => equal, fun equal => equal movedUnset⟩)
    · rw [if_pos unset]
      by_cases movedUnset : t.moved.stats.lastTransit = 0
      · have kept : ∀ transit, nextJitter t.plain.jitter t.moved.stats.lastTransit transit = t.plain.jitter :=
          fun transit => if_neg (not_not.mpr movedUnset)
        rw [kept, if_neg (not_not.mpr movedUnset)]
        exact nextJitter_one unset _
      · rw [if_pos movedUnset, nextJitter_both unset movedUnset]
        exact (abs_eq_abs_iff _ _).trans (or_congr (movedDifference_eq_iff apart last pkt) Iff.rfl)

/-- The jitters of the two runs agree after every packet exactly when the run is steady. -/
theorem jitter_origin_iff (ssrc clockRate c : UInt32) (pkts : List Packet) :
    Always (twinStep c) SameJitter (start ssrc clockRate) pkts ↔
      Guarded (twinStep c) (Steady c) (start ssrc clockRate) pkts :=
  always_iff_guarded (fun t pkt apart => step_apart t pkt apart)
    (fun t pkt apart same => step_jitter_iff t pkt apart same) (start_apart c ssrc clockRate) rfl pkts

/-- Arrivals in order, and consecutive timestamps less than half of their period apart. -/
def Streaming : List Packet → Prop :=
  List.IsChain fun p q => p.arrivalMs ≤ q.arrivalMs ∧
    ((q.rtpTs - p.rtpTs).toNat < 2 ^ 31 ∨ (p.rtpTs - q.rtpTs).toNat < 2 ^ 31)

/-- Two packets with the same spacing of their arrivals and timestamps; from another origin the
    timestamps wrap between them, and the jitter is 2^28. -/
theorem jitter_depends_on_origin : ¬ ∀ (ssrc clockRate c : UInt32) (pkts : List Packet), Streaming pkts →
    Always (twinStep c) SameJitter (start ssrc clockRate) pkts := by
  intro claim
  have apart := claim 1 48000 4294965796 [⟨1, 1000, 1000⟩, ⟨2, 1960, 1020⟩] (by
    unfold Streaming
    decide)
  have last : (run (twinStep 4294965796) (start 1 48000) [⟨1, 1000, 1000⟩, ⟨2, 1960, 1020⟩]).plain.jitter =
      (run (twinStep 4294965796) (start 1 48000) [⟨1, 1000, 1000⟩, ⟨2, 1960, 1020⟩]).moved.jitter :=
    always_last apart
  exact absurd last (by decide +kernel)

end JitterOrigin
