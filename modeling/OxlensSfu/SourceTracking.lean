import OxlensSfu.ReceiverStats

/-
The server's sequence tracking beside the standard's, packet by packet. The two differ in
three places: a packet exactly at the misorder bound, the first far packet after a restart,
and a far packet that follows number 65535.
-/
namespace SourceTracking
open SfuConfig GuardedRun RtpSource ReceiverStats

structure Packet where
  seq : UInt16
  rtpTs : UInt32
  arrivalMs : UInt64
  deriving DecidableEq, Repr

/-- Both trackers, and the last far packet since the source (re)started. -/
structure Pair where
  stats : RecvStats
  source : Option Source
  far : Option UInt16

def start (ssrc clockRate : UInt32) : Pair := ⟨.new ssrc clockRate, none, none⟩

def ended (p : Pair) : Prop := p.stats.initialized = true ∧ p.stats.seqProbation = 0

instance (p : Pair) : Decidable (ended p) := inferInstanceAs (Decidable (_ ∧ _))

/-- The number is neither shortly ahead nor shortly behind. -/
def isFar (p : Pair) (seq : UInt16) : Prop :=
  maxDropout ≤ (seq - p.stats.maxSeq).toNat ∧ (seq - p.stats.maxSeq).toNat ≤ rtpSeqMod - maxMisorder

instance (p : Pair) (seq : UInt16) : Decidable (isFar p seq) := inferInstanceAs (Decidable (_ ∧ _))

/-- A far packet restarts the source when it follows the one before, and is remembered if not. -/
def farAfter (p : Pair) (seq : UInt16) : Option UInt16 :=
  if ¬ ended p then none
  else if isFar p seq then if p.far = some (seq - 1) then none else some seq
  else p.far

def pairStep (p : Pair) (pkt : Packet) : Pair where
  stats := p.stats.update pkt.seq pkt.rtpTs pkt.arrivalMs
  source := some ((p.source.getD (newSource pkt.seq)).updateSeq pkt.seq)
  far := farAfter p pkt.seq

/-- Once probation has ended, the counters are the standard's. -/
def Matches (p : Pair) : Prop :=
  ended p → ∃ src, p.source = some src ∧ p.stats.baseSeq = src.baseSeq ∧ p.stats.maxSeq = src.maxSeq ∧
    p.stats.cycles = src.cycles ∧ p.stats.received = src.received

/-- The packet does not lie exactly `RTP_SEQ_MOD - MAX_MISORDER` ahead; and, if it is far, it
    is neither the successor of the base with no far packet before it, nor number 0 after
    the far packet 65535. -/
def Regular (p : Pair) (pkt : Packet) : Prop :=
  ended p → (pkt.seq - p.stats.maxSeq).toNat ≠ rtpSeqMod - maxMisorder ∧
    (isFar p pkt.seq → (p.far = none → pkt.seq.toNat ≠ p.stats.baseSeq.toNat + 1) ∧
      (p.far = some 65535 → pkt.seq ≠ 0))

instance (p : Pair) (pkt : Packet) : Decidable (Regular p pkt) :=
  inferInstanceAs (Decidable (_ → _))

/-- The number that restarts the standard's tracker when it is far; none does at first. -/
def standardBad : Option UInt16 → Nat
  | none => 65537
  | some f => (f.toNat + 1) % 65536

/-- The number that restarts the server's. -/
def serverBad (base : Nat) : Option UInt16 → Nat
  | none => base + 1
  | some f => f.toNat + 1

/-- The two trackers at one point of a source, probation over. -/
structure Joint (s : RecvStats) (src : Source) (far : Option UInt16) : Prop where
  initialized : s.initialized = true
  serverOver : s.seqProbation = 0
  standardOver : src.probation = 0
  maxSeq : src.maxSeq = s.maxSeq
  baseSeq : s.baseSeq = src.baseSeq
  cycles : s.cycles = src.cycles
  received : s.received = src.received
  base16 : s.baseSeq.toNat < 65536
  standard : src.badSeq.toNat = standardBad far
  server : s.badSeq.toNat = serverBad s.baseSeq.toNat far

structure Synced (p : Pair) : Prop where
  fresh : p.stats.initialized = false → p.source = none
  known : p.stats.initialized = true → ∃ src, p.source = some src ∧
    src.probation = p.stats.seqProbation ∧ src.maxSeq = p.stats.maxSeq ∧
    (p.stats.seqProbation = 0 → Joint p.stats src p.far)

theorem start_synced (ssrc clockRate : UInt32) : Synced (start ssrc clockRate) :=
  ⟨fun _ => rfl, fun known => absurd (show false = true from known) (by decide)⟩

theorem Synced.matches {p : Pair} (synced : Synced p) : Matches p := by
  rintro ⟨initialized, finished⟩
  obtain ⟨src, known, _, maxSeq, joint⟩ := synced.known initialized
  have joint := joint finished
  exact ⟨src, known, joint.baseSeq, maxSeq.symm, joint.cycles, joint.received⟩

theorem update_initialized (s : RecvStats) (seq : UInt16) (rtpTs : UInt32) (arrivalMs : UInt64) :
    (s.update seq rtpTs arrivalMs).initialized = true := by
  cases known : s.initialized
  · simp [RecvStats.update, known, RecvStats.accept, RecvStats.updateJitter]
  · have heard : (!s.initialized) = false := by rw [known]; rfl
    simp only [RecvStats.update, heard, Bool.false_eq_true, if_false]
    split
    · split
      · split <;> exact known
      · exact known
    · split
      · exact known
      · split
        · split <;> exact known
        · exact known

/-- Where both trackers start over they agree. -/
theorem joint_restart {s : RecvStats} {src : Source} (initialized : s.initialized = true)
    (serverOver : s.seqProbation = 0) (standardOver : src.probation = 0) (seq : UInt16) (rtpTs : UInt32)
    (arrivalMs : UInt64) :
    Joint ((s.initSeq seq).accept rtpTs arrivalMs) (src.initSeq seq).count none := by
  have base : (seq.toUInt32).toNat = seq.toNat := by simp
  have small := seq.toNat_lt
  refine ⟨initialized, serverOver, standardOver, rfl, rfl, rfl, rfl, ?_, rfl, ?_⟩
  · change (seq.toUInt32).toNat < 65536
    omega
  · change (seq.toUInt32 + 1).toNat = (seq.toUInt32).toNat + 1
    rw [UInt32.toNat_add, base]
    change (seq.toNat + 1) % 4294967296 = _
    omega

/-- A packet before the end of probation. -/
theorem probing_synced {p : Pair} (synced : Synced p) (probing : ¬ ended p) (pkt : Packet) :
    Synced (pairStep p pkt) := by
  have forgotten : farAfter p pkt.seq = none := if_pos probing
  cases initialized : p.stats.initialized
  · -- the standard counts its first packet as one of the probation
    have none_ := synced.fresh initialized
    have first : (newSource pkt.seq).updateSeq pkt.seq =
        { newSource pkt.seq with probation := 1, maxSeq := pkt.seq } := by
      simp [newSource, Source.updateSeq, minSequential]
    refine ⟨fun unknown => absurd (unknown.symm.trans (update_initialized ..)) (by decide),
      fun _ => ⟨_, by rw [pairStep, none_], ?_⟩⟩
    simp [pairStep, first, RecvStats.update, initialized, RecvStats.accept, RecvStats.updateJitter,
      RecvStats.initSeq, rtpSeqMinSequential]
  · obtain ⟨src, known, probation, maxSeq, _⟩ := synced.known initialized
    have waits : p.stats.seqProbation ≠ 0 := fun finished => probing ⟨initialized, finished⟩
    have positive : 0 < p.stats.seqProbation := UInt32.pos_iff_ne_zero.mpr waits
    have standard : (pairStep p pkt).source = some (src.updateSeq pkt.seq) := by
      rw [pairStep, known, Option.getD_some]
    refine ⟨fun unknown => absurd (unknown.symm.trans (update_initialized ..)) (by decide),
      fun _ => ⟨_, standard, ?_⟩⟩
    by_cases next : pkt.seq = p.stats.maxSeq + 1
    · by_cases last : p.stats.seqProbation - 1 = 0
      · have server : (pairStep p pkt).stats = ({ p.stats with
            seqProbation := 0, maxSeq := pkt.seq }.initSeq pkt.seq).accept pkt.rtpTs pkt.arrivalMs := by
          simp [pairStep, RecvStats.update, initialized, positive, ← next, last]
        have other : src.updateSeq pkt.seq = ({ src with probation := 0 }.initSeq pkt.seq).count := by
          simp [Source.updateSeq, probation, waits, maxSeq, ← next, last]
        rw [other, server]
        refine ⟨rfl, rfl, fun _ => ?_⟩
        rw [show (pairStep p pkt).far = none from forgotten]
        exact @joint_restart { p.stats with seqProbation := 0, maxSeq := pkt.seq }
          { src with probation := 0 } initialized rfl rfl pkt.seq pkt.rtpTs pkt.arrivalMs
      · have server : (pairStep p pkt).stats = { p.stats with
            seqProbation := p.stats.seqProbation - 1, maxSeq := pkt.seq
            received := p.stats.received + 1 } := by
          simp [pairStep, RecvStats.update, initialized, positive, ← next, last]
        have other : src.updateSeq pkt.seq =
            { src with probation := src.probation - 1, maxSeq := pkt.seq } := by
          simp [Source.updateSeq, probation, waits, maxSeq, ← next, last]
        rw [other, server]
        exact ⟨by rw [probation], rfl, fun finished => absurd finished last⟩
    · have server : (pairStep p pkt).stats = { p.stats with
          seqProbation := rtpSeqMinSequential - 1, maxSeq := pkt.seq
          received := p.stats.received + 1 } := by
        simp [pairStep, RecvStats.update, initialized, positive, next]
      have other : src.updateSeq pkt.seq =
          { src with probation := minSequential - 1, maxSeq := pkt.seq } := by
        simp [Source.updateSeq, probation, waits, maxSeq, next]
      rw [other, server]
      exact ⟨rfl, rfl, fun finished => absurd (show rtpSeqMinSequential - 1 = 0 from finished) (by decide)⟩

section Ended
variable {s : RecvStats} (initialized : s.initialized = true) (serverOver : s.seqProbation = 0)
  (seq : UInt16) (rtpTs : UInt32) (arrivalMs : UInt64)
include initialized serverOver

theorem update_near (near : (seq - s.maxSeq).toNat < 3000) :
    s.update seq rtpTs arrivalMs = { s with
      cycles := if seq < s.maxSeq then s.cycles + 65536 else s.cycles
      maxSeq := seq }.accept rtpTs arrivalMs := by
  have branch : seq - s.maxSeq < rtpSeqMaxDropout := UInt16.lt_iff_toNat_lt.mpr near
  simp only [RecvStats.update, initialized, serverOver, Bool.not_true, Bool.false_eq_true, if_false,
    UInt32.lt_irrefl, if_pos branch]

theorem update_far (low : 3000 ≤ (seq - s.maxSeq).toNat) (high : (seq - s.maxSeq).toNat ≤ 65435) :
    s.update seq rtpTs arrivalMs =
      if seq.toUInt32 = s.badSeq then (s.initSeq seq).accept rtpTs arrivalMs
      else { s with badSeq := seq.toUInt32 + 1 } := by
  have above : ¬ seq - s.maxSeq < rtpSeqMaxDropout := fun near =>
    absurd (UInt16.lt_iff_toNat_lt.mp near) (Nat.not_lt.mpr low)
  have branch : seq - s.maxSeq ≤ 65535 - rtpSeqMaxMisorder := UInt16.le_iff_toNat_le.mpr high
  simp only [RecvStats.update, initialized, serverOver, Bool.not_true, Bool.false_eq_true, if_false,
    UInt32.lt_irrefl, if_neg above, if_pos branch]

theorem update_late (late : 65436 ≤ (seq - s.maxSeq).toNat) :
    s.update seq rtpTs arrivalMs = s.accept rtpTs arrivalMs := by
  have above : ¬ seq - s.maxSeq < rtpSeqMaxDropout := fun near => by
    have := UInt16.lt_iff_toNat_lt.mp near
    change (seq - s.maxSeq).toNat < 3000 at this
    omega
  have past : ¬ seq - s.maxSeq ≤ 65535 - rtpSeqMaxMisorder := fun branch => by
    have := UInt16.le_iff_toNat_le.mp branch
    change (seq - s.maxSeq).toNat ≤ 65435 at this
    omega
  simp only [RecvStats.update, initialized, serverOver, Bool.not_true, Bool.false_eq_true, if_false,
    UInt32.lt_irrefl, if_neg above, if_neg past]

end Ended

section Standard
variable {src : Source} (standardOver : src.probation = 0) (seq : UInt16)
include standardOver

theorem updateSeq_near (near : (seq - src.maxSeq).toNat < 3000) :
    src.updateSeq seq = { src with
      cycles := if seq < src.maxSeq then src.cycles + 65536 else src.cycles
      maxSeq := seq }.count := by
  simp only [Source.updateSeq, standardOver, ne_eq, not_true_eq_false, if_false, maxDropout, if_pos near]
  rfl

theorem updateSeq_far (low : 3000 ≤ (seq - src.maxSeq).toNat) (high : (seq - src.maxSeq).toNat ≤ 65436) :
    src.updateSeq seq = if seq.toUInt32 = src.badSeq then (src.initSeq seq).count
      else { src with badSeq := UInt32.ofNat ((seq.toNat + 1) % rtpSeqMod) } := by
  have above : ¬ (seq - src.maxSeq).toNat < maxDropout := Nat.not_lt.mpr low
  have branch : (seq - src.maxSeq).toNat ≤ rtpSeqMod - maxMisorder := high
  simp only [Source.updateSeq, standardOver, ne_eq, not_true_eq_false, if_false, if_neg above, if_pos branch]

theorem updateSeq_late (late : 65437 ≤ (seq - src.maxSeq).toNat) : src.updateSeq seq = src.count := by
  have above : ¬ (seq - src.maxSeq).toNat < maxDropout := by unfold maxDropout; omega
  have past : ¬ (seq - src.maxSeq).toNat ≤ rtpSeqMod - maxMisorder := by
    unfold rtpSeqMod maxMisorder; omega
  simp only [Source.updateSeq, standardOver, ne_eq, not_true_eq_false, if_false, if_neg above, if_neg past]

end Standard

section Joint
variable {s : RecvStats} {src : Source} {far : Option UInt16} (joint : Joint s src far) (seq : UInt16)
  (rtpTs : UInt32) (arrivalMs : UInt64)
include joint

theorem Joint.near (near : (seq - s.maxSeq).toNat < 3000) :
    Joint (s.update seq rtpTs arrivalMs) (src.updateSeq seq) far := by
  rw [update_near joint.initialized joint.serverOver _ _ _ near,
    updateSeq_near joint.standardOver _ (joint.maxSeq ▸ near)]
  refine ⟨joint.initialized, joint.serverOver, joint.standardOver, rfl, joint.baseSeq, ?_, ?_, joint.base16,
    joint.standard, joint.server⟩
  · change (if seq < s.maxSeq then s.cycles + 65536 else s.cycles) =
      if seq < src.maxSeq then src.cycles + 65536 else src.cycles
    rw [joint.maxSeq, joint.cycles]
  · change s.received + 1 = src.received + 1
    rw [joint.received]

theorem Joint.late (late : 65437 ≤ (seq - s.maxSeq).toNat) :
    Joint (s.update seq rtpTs arrivalMs) (src.updateSeq seq) far := by
  rw [update_late joint.initialized joint.serverOver _ _ _ (by omega),
    updateSeq_late joint.standardOver _ (joint.maxSeq ▸ late)]
  refine { joint with received := ?_ }
  change s.received + 1 = src.received + 1
  rw [joint.received]

/-- At the bound itself the server counts a packet that the standard does not. -/
theorem Joint.boundary (bound : (seq - s.maxSeq).toNat = 65436) :
    ¬ ((s.update seq rtpTs arrivalMs).maxSeq = (src.updateSeq seq).maxSeq ∧
      (s.update seq rtpTs arrivalMs).received = (src.updateSeq seq).received) := by
  rw [update_late joint.initialized joint.serverOver _ _ _ (by omega),
    updateSeq_far joint.standardOver _ (by rw [joint.maxSeq]; omega) (by rw [joint.maxSeq]; omega)]
  rintro ⟨sameMax, sameCount⟩
  split at sameMax
  · obtain rfl : s.maxSeq = seq := sameMax
    simp at bound
  · rename_i stays
    rw [if_neg stays] at sameCount
    have counts : s.received + 1 = s.received := sameCount.trans joint.received.symm
    simp at counts

section Far
variable (low : 3000 ≤ (seq - s.maxSeq).toNat) (high : (seq - s.maxSeq).toNat ≤ 65435)
include low high

theorem Joint.restart (server : seq.toUInt32 = s.badSeq) (standard : seq.toUInt32 = src.badSeq) :
    Joint (s.update seq rtpTs arrivalMs) (src.updateSeq seq) none := by
  rw [update_far joint.initialized joint.serverOver _ _ _ low high, if_pos server,
    updateSeq_far joint.standardOver _ (joint.maxSeq ▸ low) (by rw [joint.maxSeq]; omega), if_pos standard]
  exact joint_restart joint.initialized joint.serverOver joint.standardOver _ _ _

theorem Joint.remember (server : seq.toUInt32 ≠ s.badSeq) (standard : seq.toUInt32 ≠ src.badSeq) :
    Joint (s.update seq rtpTs arrivalMs) (src.updateSeq seq) (some seq) := by
  have small := seq.toNat_lt
  rw [update_far joint.initialized joint.serverOver _ _ _ low high, if_neg server,
    updateSeq_far joint.standardOver _ (joint.maxSeq ▸ low) (by rw [joint.maxSeq]; omega), if_neg standard]
  refine { joint with standard := ?_, server := ?_ }
  · change (UInt32.ofNat ((seq.toNat + 1) % 65536)).toNat = (seq.toNat + 1) % 65536
    rw [UInt32.toNat_ofNat']
    omega
  · change (seq.toUInt32 + 1).toNat = seq.toNat + 1
    rw [UInt32.toNat_add, UInt16.toNat_toUInt32]
    change (seq.toNat + 1) % 4294967296 = _
    omega

/-- When only one of them starts over, they no longer agree on the highest number. -/
theorem Joint.one_restarts (one : ¬ (seq.toUInt32 = s.badSeq ↔ seq.toUInt32 = src.badSeq)) :
    (s.update seq rtpTs arrivalMs).maxSeq ≠ (src.updateSeq seq).maxSeq := by
  have moved : seq ≠ s.maxSeq := by
    rintro rfl
    simp at low
  rw [update_far joint.initialized joint.serverOver _ _ _ low high,
    updateSeq_far joint.standardOver _ (joint.maxSeq ▸ low) (by rw [joint.maxSeq]; omega)]
  split
  · rename_i server
    rw [if_neg fun standard => one ⟨fun _ => standard, fun _ => server⟩]
    intro same
    exact moved (same.trans joint.maxSeq)
  · rename_i server
    rw [if_pos (by_contra fun standard => one ⟨fun eq => absurd eq server, fun eq => absurd eq standard⟩)]
    intro same
    exact moved same.symm

end Far

/-- The standard restarts exactly when the number follows the last far one. -/
theorem Joint.standard_iff : seq.toUInt32 = src.badSeq ↔ far = some (seq - 1) := by
  have small := seq.toNat_lt
  have value := joint.standard
  rw [← UInt32.toNat_inj, UInt16.toNat_toUInt32]
  cases far with
  | none =>
    simp only [standardBad] at value
    simp only [reduceCtorEq, iff_false]
    omega
  | some f =>
    have bound := f.toNat_lt
    simp only [standardBad] at value
    rw [value, Option.some.injEq, ← UInt16.toNat_inj, UInt16.toNat_sub]
    change seq.toNat = (f.toNat + 1) % 65536 ↔ f.toNat = (2 ^ 16 - 1 + seq.toNat) % 2 ^ 16
    omega

/-- The server restarts in the same cases but for the two irregular ones. -/
theorem Joint.agree_iff :
    (seq.toUInt32 = s.badSeq ↔ seq.toUInt32 = src.badSeq) ↔
      (far = none → seq.toNat ≠ s.baseSeq.toNat + 1) ∧ (far = some 65535 → seq ≠ 0) := by
  have small := seq.toNat_lt
  have left := joint.server
  have right := joint.standard
  rw [← UInt32.toNat_inj, ← UInt32.toNat_inj, UInt16.toNat_toUInt32]
  cases far with
  | none =>
    simp only [standardBad, serverBad] at left right
    simp only [forall_const, reduceCtorEq, false_implies, and_true]
    omega
  | some f =>
    have bound := f.toNat_lt
    simp only [standardBad, serverBad] at left right
    simp only [reduceCtorEq, false_implies, true_and, Option.some.injEq, ← UInt16.toNat_inj, ne_eq]
    change _ ↔ (f.toNat = 65535 → ¬ seq.toNat = 0)
    omega

end Joint

/-- Probation stays over. -/
theorem step_ended {p : Pair} (finished : ended p) (pkt : Packet) : ended (pairStep p pkt) := by
  obtain ⟨initialized, probation⟩ := finished
  refine ⟨update_initialized .., ?_⟩
  change (p.stats.update pkt.seq pkt.rtpTs pkt.arrivalMs).seqProbation = 0
  rcases Nat.lt_or_ge (pkt.seq - p.stats.maxSeq).toNat 3000 with near | beyond
  · rw [update_near initialized probation _ _ _ near]
    exact probation
  rcases Nat.lt_or_ge (pkt.seq - p.stats.maxSeq).toNat 65436 with far | late
  · rw [update_far initialized probation _ _ _ beyond (by omega)]
    split <;> exact probation
  · rw [update_late initialized probation _ _ _ late]
    exact probation

section Step
variable {p : Pair} (synced : Synced p) (finished : ended p) (pkt : Packet)
include synced finished

theorem joint_of_ended : ∃ src, p.source = some src ∧ Joint p.stats src p.far ∧
    (pairStep p pkt).source = some (src.updateSeq pkt.seq) := by
  obtain ⟨src, known, _, _, joint⟩ := synced.known finished.1
  exact ⟨src, known, joint finished.2, by rw [pairStep, known, Option.getD_some]⟩

omit synced in
theorem far_after : (pairStep p pkt).far =
    if isFar p pkt.seq then if p.far = some (pkt.seq - 1) then none else some pkt.seq else p.far := by
  simp only [pairStep, farAfter, finished, not_true_eq_false, if_false]

/-- Outside the three irregular cases both trackers take the same branch. -/
theorem regular_joint (regular : Regular p pkt) :
    ∃ src, (pairStep p pkt).source = some src ∧ Joint (pairStep p pkt).stats src (pairStep p pkt).far := by
  obtain ⟨src, known, joint, standard⟩ := joint_of_ended synced finished pkt
  obtain ⟨inside, restart⟩ := regular finished
  have bound : (pkt.seq - p.stats.maxSeq).toNat ≠ 65436 := inside
  refine ⟨_, standard, ?_⟩
  rw [far_after finished pkt]
  by_cases far : isFar p pkt.seq
  · have low : 3000 ≤ (pkt.seq - p.stats.maxSeq).toNat := far.1
    have high : (pkt.seq - p.stats.maxSeq).toNat ≤ 65436 := far.2
    have agree := (joint.agree_iff pkt.seq).mpr (restart far)
    rw [if_pos far]
    by_cases follows : p.far = some (pkt.seq - 1)
    · have both := (joint.standard_iff pkt.seq).mpr follows
      rw [if_pos follows]
      exact joint.restart pkt.seq _ _ low (by omega) (agree.mpr both) both
    · have neither := fun eq => follows ((joint.standard_iff pkt.seq).mp eq)
      rw [if_neg follows]
      exact joint.remember pkt.seq _ _ low (by omega) (fun eq => neither (agree.mp eq)) neither
  · rw [if_neg far]
    rcases Nat.lt_or_ge (pkt.seq - p.stats.maxSeq).toNat 3000 with near | beyond
    · exact joint.near pkt.seq _ _ near
    · have late : ¬ (pkt.seq - p.stats.maxSeq).toNat ≤ 65436 := fun high => far ⟨beyond, high⟩
      exact joint.late pkt.seq _ _ (by omega)

/-- In each of the irregular cases the trackers part at once. -/
theorem regular_of_matches (matches_ : Matches (pairStep p pkt)) : Regular p pkt := by
  intro _
  obtain ⟨src, known, joint, standard⟩ := joint_of_ended synced finished pkt
  obtain ⟨next, followed, baseSeq, maxSeq, cycles, received⟩ := matches_ (step_ended finished pkt)
  obtain rfl : src.updateSeq pkt.seq = next := Option.some.inj (standard.symm.trans followed)
  constructor
  · intro bound
    exact joint.boundary pkt.seq _ _ bound ⟨maxSeq, received⟩
  · intro far
    have low : 3000 ≤ (pkt.seq - p.stats.maxSeq).toNat := far.1
    have high : (pkt.seq - p.stats.maxSeq).toNat ≤ 65436 := far.2
    have inside : (pkt.seq - p.stats.maxSeq).toNat ≠ 65436 := fun bound =>
      joint.boundary pkt.seq _ _ bound ⟨maxSeq, received⟩
    rw [← joint.agree_iff pkt.seq]
    by_contra one
    exact joint.one_restarts pkt.seq _ _ low (by omega) one maxSeq

end Step

theorem step_synced (p : Pair) (pkt : Packet) (synced : Synced p) (regular : Regular p pkt) :
    Synced (pairStep p pkt) := by
  by_cases finished : ended p
  · obtain ⟨src, known, joint⟩ := regular_joint synced finished pkt regular
    exact ⟨fun unknown => absurd (unknown.symm.trans (update_initialized ..)) (by decide),
      fun _ => ⟨src, known, by rw [joint.standardOver, joint.serverOver], joint.maxSeq, fun _ => joint⟩⟩
  · exact probing_synced synced finished pkt

/-- Once probation has ended, the server's counters stay the standard's exactly as long as
    every packet is regular. -/
theorem counters_standard_iff_regular (ssrc clockRate : UInt32) (pkts : List Packet) :
    Always pairStep Matches (start ssrc clockRate) pkts ↔
      Guarded pairStep Regular (start ssrc clockRate) pkts := by
  refine always_iff_guarded_of_synced (fun _ => Synced.matches) step_synced ?_
    (start_synced ssrc clockRate) pkts
  intro p pkt synced matches_
  by_cases finished : ended p
  · exact regular_of_matches synced finished pkt matches_
  · exact fun after => absurd after finished

/-- The third packet lies 100 below the second: the server counts it, the standard does not. -/
theorem late_bound_counterexample :
    ¬ Always pairStep Matches (start 1 48000) [⟨10, 0, 0⟩, ⟨11, 960, 20⟩, ⟨65447, 1920, 40⟩] := by
  intro always
  have last := always_last always
  obtain ⟨src, known, _, _, _, received⟩ := last (by decide)
  have standard : (run pairStep (start 1 48000)
      [⟨10, 0, 0⟩, ⟨11, 960, 20⟩, ⟨65447, 1920, 40⟩]).source = some ⟨11, 0, 11, 65448, 0, 1⟩ := by decide
  obtain rfl : _ = src := Option.some.inj (standard.symm.trans known)
  exact absurd received (by decide)

/-- A stray packet right behind the first counted one restarts the source. -/
example : (run pairStep (start 1 48000)
    [⟨10, 0, 0⟩, ⟨11, 0, 0⟩, ⟨2900, 0, 0⟩, ⟨5800, 0, 0⟩, ⟨12, 0, 0⟩]).stats.baseSeq = 12 := by decide

end SourceTracking
