import OxlensSfu.ReceiverStats

/-
The share of the packets lost between two reports. Beside the counters stand their true
values: the highest number and its mark at the last report, and the packets counted since.
-/
namespace FractionLost
open SfuConfig GuardedRun ReceiverStats
open PttRewriter (Instant)

/-- `mark` is the highest number at the last report, or the one before the source's first;
    `arrived` is how many packets were counted since. -/
structure Ledger where
  stats : RecvStats
  cycles : Nat
  mark : Int
  arrived : Nat

/-- The highest number, its cycles without the wrap of their counter. -/
def Ledger.top (l : Ledger) : Int := l.cycles + l.stats.maxSeq.toNat

def start (ssrc clockRate : UInt32) : Ledger := ⟨RecvStats.new ssrc clockRate, 0, -1, 0⟩

inductive Event where
  | packet (seq : UInt16) (rtpTs : UInt32) (arrivalMs : UInt64)
  | report (now : Instant)
  deriving DecidableEq, Repr

def step (l : Ledger) : Event → Ledger
  | .packet seq rtpTs arrivalMs =>
    let stats := l.stats.update seq rtpTs arrivalMs
    match verdict l.stats seq with
    | .first => ⟨stats, 0, seq.toNat - 1, 1⟩
    | .counted wraps => ⟨stats, if wraps then l.cycles + 65536 else l.cycles, l.mark, l.arrived + 1⟩
    | .ignored => { l with stats := stats }
  | .report now => ⟨(l.stats.buildRrBlock now).1, l.cycles, l.top, 0⟩

def packets (es : List Event) : Nat :=
  es.countP fun
    | .packet _ _ _ => true
    | .report _ => false

/-- The quotient that a report narrows to eight bits. -/
def lossQuotient (s : RecvStats) : Nat :=
  let expectedInterval := s.extendedMax - s.baseSeq + 1 - s.expectedPrior
  let lostInterval := lostOf expectedInterval (s.received - s.receivedPrior)
  if 0 < expectedInterval then lostInterval.toNat * 256 / expectedInterval.toNat else 0

/-- The quotient fits, and without a packet missing it is zero. -/
structure Sound (l : Ledger) : Prop where
  fits : lossQuotient l.stats ≤ 255
  lossless : l.top - l.mark ≤ l.arrived → ∀ now, (l.stats.buildRrBlock now).2.fractionLost = 0

/-- A packet or a report came before, and the highest number has not moved back. -/
structure Onward (l : Ledger) : Prop where
  heard : l.stats.initialized = true ∨ l.stats.expectedPrior ≠ 0
  forward : l.mark ≤ l.top

def SoundReport (l : Ledger) : Event → Prop
  | .packet _ _ _ => True
  | .report _ => Sound l

def OnwardReport (l : Ledger) : Event → Prop
  | .packet _ _ _ => True
  | .report _ => Onward l

/-- The counters are residues of the true values. -/
structure Tallied (l : Ledger) : Prop where
  cycles : l.stats.cycles.toNat = l.cycles % 4294967296
  mark : (l.mark + 1 - l.stats.baseSeq.toNat - l.stats.expectedPrior.toNat) % 4294967296 = 0
  arrived : l.stats.received.toNat = l.stats.receivedPrior.toNat + l.arrived
  probing : l.stats.seqProbation ≠ 0 → l.cycles = 0 ∧ l.mark ≤ 65535
  valid : l.stats.seqProbation = 0 → l.mark ≤ l.top
  known : l.stats.initialized = true → l.arrived = 0 → l.top = l.mark
  fresh : l.stats.initialized = false → l.arrived = 0 ∧ l.top = 0 ∧ l.stats.baseSeq = 0 ∧
    (l.stats.expectedPrior = 0 → l.mark = -1) ∧ (l.stats.expectedPrior ≠ 0 → l.mark = 0)

theorem start_tallied (ssrc clockRate : UInt32) : Tallied (start ssrc clockRate) where
  cycles := rfl
  mark := rfl
  arrived := rfl
  probing := fun _ => ⟨rfl, show (-1 : Int) ≤ 65535 by decide⟩
  valid := fun finished => absurd finished (show (2 : UInt32) ≠ 0 by decide)
  known := fun heard => nomatch heard
  fresh := fun _ => ⟨rfl, rfl, rfl, fun _ => rfl, fun prior => absurd rfl prior⟩

section Intervals
variable {l : Ledger} (tallied : Tallied l)
include tallied

theorem extendedMax_toNat : (l.stats.extendedMax.toNat : Int) = l.top % 4294967296 := by
  have cycles := tallied.cycles
  rw [RecvStats.extendedMax, UInt32.toNat_add, UInt16.toNat_toUInt32, Ledger.top]
  omega

theorem expectedInterval_toNat :
    ((l.stats.extendedMax - l.stats.baseSeq + 1 - l.stats.expectedPrior).toNat : Int) =
      (l.top - l.mark) % 4294967296 := by
  have extended := extendedMax_toNat tallied
  have mark := tallied.mark
  rw [UInt32.toNat_sub, UInt32.toNat_add, UInt32.toNat_sub, show (1 : UInt32).toNat = 1 from rfl]
  have base := l.stats.baseSeq.toNat_lt
  have prior := l.stats.expectedPrior.toNat_lt
  omega

theorem receivedInterval_toNat : (l.stats.received - l.stats.receivedPrior).toNat = l.arrived := by
  have arrived := tallied.arrived
  rw [UInt32.toNat_sub_of_le _ _ (UInt32.le_iff_toNat_le.mpr (by omega))]
  omega

theorem lossQuotient_eq {expected : Nat} (interval : (expected : Int) = (l.top - l.mark) % 4294967296) :
    lossQuotient l.stats = (expected - l.arrived) * 256 / expected := by
  have expects : (l.stats.extendedMax - l.stats.baseSeq + 1 - l.stats.expectedPrior).toNat = expected :=
    Int.ofNat.inj ((expectedInterval_toNat tallied).trans interval.symm)
  simp only [lossQuotient, lostOf_toNat, receivedInterval_toNat tallied, expects]
  split
  · rfl
  · rename_i nothing
    have zero : expected = 0 := by
      have none := UInt32.not_lt.mp nothing
      rw [UInt32.le_iff_toNat_le, expects] at none
      exact Nat.le_zero.mp none
    rw [zero, Nat.div_zero]

/-- Without a packet since the mark nothing is expected, but for a source never heard. -/
theorem lossQuotient_fits_iff :
    lossQuotient l.stats ≤ 255 ↔ l.stats.initialized = true ∨ l.stats.expectedPrior ≠ 0 := by
  obtain ⟨expected, interval⟩ : ∃ expected : Nat, (expected : Int) = (l.top - l.mark) % 4294967296 :=
    ⟨((l.top - l.mark) % 4294967296).toNat, Int.toNat_of_nonneg (Int.emod_nonneg _ (by decide))⟩
  rw [lossQuotient_eq tallied interval]
  constructor
  · intro fits
    by_contra unheard
    simp only [not_or, Bool.not_eq_true, not_not] at unheard
    obtain ⟨none, top, _, mark, _⟩ := tallied.fresh unheard.1
    have one : expected = 1 := by
      rw [top, mark unheard.2] at interval
      omega
    rw [none, one] at fits
    exact absurd fits (by decide)
  · intro heard
    rcases Nat.eq_zero_or_pos l.arrived with none | some
    · have still : l.top = l.mark := by
        cases known : l.stats.initialized
        · obtain ⟨_, top, _, _, mark⟩ := tallied.fresh known
          rw [top, mark (heard.resolve_left (by simp [known]))]
        · exact tallied.known known none
      have zero : expected = 0 := by
        rw [still] at interval
        omega
      simp [zero]
    · rcases Nat.eq_zero_or_pos expected with zero | positive
      · simp [zero]
      · have below : (expected - l.arrived) * 256 < 256 * expected := by omega
        exact Nat.le_of_lt_succ ((Nat.div_lt_iff_lt_mul positive).mpr below)

/-- A number that has moved back makes almost 2^32 packets expected. -/
theorem lossless_iff (few : l.arrived < 2147483648)
    (heard : l.stats.initialized = true ∨ l.stats.expectedPrior ≠ 0) :
    (l.top - l.mark ≤ l.arrived → UInt8.ofNat (lossQuotient l.stats) = 0) ↔ l.mark ≤ l.top := by
  obtain ⟨expected, interval⟩ : ∃ expected : Nat, (expected : Int) = (l.top - l.mark) % 4294967296 :=
    ⟨((l.top - l.mark) % 4294967296).toNat, Int.toNat_of_nonneg (Int.emod_nonneg _ (by decide))⟩
  have fits := (lossQuotient_fits_iff tallied).mpr heard
  rw [lossQuotient_eq tallied interval] at fits ⊢
  constructor
  · intro lossless
    by_contra back
    have probing : l.stats.seqProbation ≠ 0 := fun finished => back (tallied.valid finished)
    obtain ⟨_, low⟩ := tallied.probing probing
    have top : 0 ≤ l.top := by unfold Ledger.top; omega
    have zero := congrArg UInt8.toNat (lossless (by omega))
    have share : 0 < (expected - l.arrived) * 256 / expected := Nat.div_pos (by omega) (by omega)
    rw [UInt8.toNat_ofNat', Nat.mod_eq_of_lt (by omega)] at zero
    exact absurd zero (Nat.pos_iff_ne_zero.mp share)
  · intro forward enough
    have met : expected - l.arrived = 0 := by omega
    rw [met]
    simp

theorem report_sound_iff (few : l.arrived < 2147483648) : Sound l ↔ Onward l := by
  have fraction : ∀ now, (l.stats.buildRrBlock now).2.fractionLost = UInt8.ofNat (lossQuotient l.stats) := by
    intro now
    change (if _ then _ else (0 : UInt8)) = _
    unfold lossQuotient
    simp only
    split <;> rfl
  constructor
  · intro sound
    have heard := (lossQuotient_fits_iff tallied).mp sound.fits
    exact ⟨heard, (lossless_iff tallied few heard).mp fun enough => fraction 0 ▸ sound.lossless enough 0⟩
  · intro onward
    exact ⟨(lossQuotient_fits_iff tallied).mpr onward.heard, fun enough now =>
      (fraction now).trans ((lossless_iff tallied few onward.heard).mpr onward.forward enough)⟩

end Intervals

/-- The source starts here: nothing is left of its old counters. -/
theorem first_tallied {s : RecvStats} {seq : UInt16} (known : s.initialized = true) (received : s.received = 1)
    (base : s.baseSeq = seq.toUInt32) (max : s.maxSeq = seq) (cycles : s.cycles = 0)
    (expectedPrior : s.expectedPrior = 0) (receivedPrior : s.receivedPrior = 0) :
    Tallied ⟨s, 0, seq.toNat - 1, 1⟩ where
  cycles := by rw [cycles]; rfl
  mark := by
    simp only [base, expectedPrior, UInt16.toNat_toUInt32, show (0 : UInt32).toNat = 0 from rfl]
    omega
  arrived := by rw [received, receivedPrior]; rfl
  probing := by
    have small := seq.toNat_lt
    exact fun _ => ⟨rfl, by simp only; omega⟩
  valid := by
    intro _
    simp only [Ledger.top, max]
    omega
  known := fun _ none => absurd none Nat.one_ne_zero
  fresh := fun unheard => absurd (known.symm.trans unheard) (by decide)

theorem counted_received {s : RecvStats} (room : s.received.toNat < 2147483648) :
    (s.received + 1).toNat = s.received.toNat + 1 := by
  rw [UInt32.toNat_add, show (1 : UInt32).toNat = 1 from rfl]
  omega

/-- One more packet, which moves the highest number to `top`. -/
theorem counted_tallied {l next : Ledger} (tallied : Tallied l)
    (room : l.stats.received.toNat < 2147483648) (known : next.stats.initialized = true)
    (base : next.stats.baseSeq = l.stats.baseSeq) (expectedPrior : next.stats.expectedPrior = l.stats.expectedPrior)
    (receivedPrior : next.stats.receivedPrior = l.stats.receivedPrior)
    (received : next.stats.received = l.stats.received + 1) (mark : next.mark = l.mark)
    (arrived : next.arrived = l.arrived + 1) (cycles : next.stats.cycles.toNat = next.cycles % 4294967296)
    (probing : next.stats.seqProbation ≠ 0 → l.stats.seqProbation ≠ 0 ∧ next.cycles = l.cycles)
    (valid : next.stats.seqProbation = 0 → l.stats.seqProbation = 0 ∧ l.top ≤ next.top) :
    Tallied next where
  cycles := cycles
  mark := by
    rw [mark, base, expectedPrior]
    exact tallied.mark
  arrived := by
    have before := tallied.arrived
    rw [received, receivedPrior, arrived, counted_received room]
    omega
  probing := by
    intro more
    obtain ⟨before, same⟩ := probing more
    rw [same, mark]
    exact tallied.probing before
  valid := by
    intro finished
    obtain ⟨before, onward⟩ := valid finished
    rw [mark]
    exact Int.le_trans (tallied.valid before) onward
  known := fun _ none => absurd (arrived.symm.trans none) (Nat.succ_ne_zero _)
  fresh := fun unheard => absurd (known.symm.trans unheard) (by decide)

theorem packet_tallied {l : Ledger} (tallied : Tallied l) (room : l.stats.received.toNat < 2147483648)
    (seq : UInt16) (rtpTs : UInt32) (arrivalMs : UInt64) :
    Tallied (step l (.packet seq rtpTs arrivalMs)) := by
  have updated := l.stats.update_cases seq rtpTs arrivalMs
  simp only [step]
  generalize verdict l.stats seq = taken, l.stats.update seq rtpTs arrivalMs = stats at updated
  cases updated with
  | first fresh => exact first_tallied rfl rfl rfl rfl rfl rfl rfl
  | proven known probing next last => exact first_tallied known rfl rfl rfl rfl rfl rfl
  | inSequence known probing next more =>
    refine counted_tallied tallied room known rfl rfl rfl rfl rfl rfl tallied.cycles
      (fun _ => ⟨(UInt32.pos_iff_ne_zero.mp probing), rfl⟩) fun finished => absurd finished more
  | outOfSequence known probing other =>
    have again : rtpSeqMinSequential - 1 ≠ 0 := by decide
    refine counted_tallied tallied room known rfl rfl rfl rfl rfl rfl tallied.cycles
      (fun _ => ⟨(UInt32.pos_iff_ne_zero.mp probing), rfl⟩) fun finished => absurd finished again
  | near known valid ahead =>
    have cycles := tallied.cycles
    have small := seq.toNat_lt
    have highest := l.stats.maxSeq.toNat_lt
    by_cases wraps : seq < l.stats.maxSeq
    · simp only [wraps, decide_true, if_true]
      refine counted_tallied tallied room known rfl rfl rfl rfl rfl rfl ?_ (fun more => absurd valid more)
        fun _ => ⟨valid, ?_⟩
      · change (l.stats.cycles + 65536).toNat = (l.cycles + 65536) % 4294967296
        rw [UInt32.toNat_add, show (65536 : UInt32).toNat = 65536 from rfl]
        omega
      · change (l.cycles : Int) + _ ≤ ((l.cycles + 65536 : Nat) : Int) + seq.toNat
        omega
    · simp only [wraps, decide_false, Bool.false_eq_true, if_false]
      have order := UInt16.le_iff_toNat_le.mp (UInt16.not_lt.mp wraps)
      refine counted_tallied tallied room known rfl rfl rfl rfl rfl rfl cycles (fun more => absurd valid more)
        fun _ => ⟨valid, ?_⟩
      change (l.cycles : Int) + _ ≤ (l.cycles : Int) + seq.toNat
      omega
  | restart known valid far jump again => exact first_tallied known rfl rfl rfl rfl rfl rfl
  | ignored known valid far jump once => exact { tallied with }
  | late known valid behind =>
    exact counted_tallied tallied room known rfl rfl rfl rfl rfl rfl tallied.cycles
      (fun more => absurd valid more) fun _ => ⟨valid, Int.le_refl _⟩

theorem packet_received {s : RecvStats} (room : s.received.toNat < 2147483648) (seq : UInt16) (rtpTs : UInt32)
    (arrivalMs : UInt64) : (s.update seq rtpTs arrivalMs).received.toNat ≤ s.received.toNat + 1 := by
  have one : ((0 : UInt32) + 1).toNat ≤ s.received.toNat + 1 := Nat.le_add_left 1 _
  have more := Nat.le_of_eq (counted_received room)
  have updated := s.update_cases seq rtpTs arrivalMs
  generalize verdict s seq = taken, s.update seq rtpTs arrivalMs = stats at updated
  cases updated with
  | first fresh => exact one
  | proven known probing next last => exact one
  | inSequence known probing next more' => exact more
  | outOfSequence known probing other => exact more
  | near known valid ahead => exact more
  | restart known valid far jump again => exact one
  | ignored known valid far jump once => exact Nat.le_succ _
  | late known valid behind => exact more

theorem report_tallied {l : Ledger} (tallied : Tallied l) (now : Instant) : Tallied (step l (.report now)) where
  cycles := tallied.cycles
  mark := by
    have extended := extendedMax_toNat tallied
    have base := l.stats.baseSeq.toNat_lt
    change (l.top + 1 - (l.stats.baseSeq.toNat : Int) -
      ((l.stats.extendedMax - l.stats.baseSeq + 1).toNat : Int)) % 4294967296 = 0
    rw [UInt32.toNat_add, UInt32.toNat_sub, show (1 : UInt32).toNat = 1 from rfl]
    omega
  arrived := rfl
  probing := by
    intro more
    obtain ⟨cycles, _⟩ := tallied.probing more
    have highest := l.stats.maxSeq.toNat_lt
    refine ⟨cycles, ?_⟩
    change l.top ≤ 65535
    rw [Ledger.top, cycles]
    omega
  valid := fun _ => Int.le_refl _
  known := fun _ _ => rfl
  fresh := by
    intro unheard
    obtain ⟨_, top, base, _⟩ := tallied.fresh unheard
    have extended := extendedMax_toNat tallied
    rw [top] at extended
    have zero : l.stats.extendedMax = 0 := UInt32.toNat_inj.mp (Int.ofNat.inj extended)
    refine ⟨rfl, top, base, fun prior => ?_, fun _ => top⟩
    change l.stats.extendedMax - l.stats.baseSeq + 1 = 0 at prior
    rw [zero, base] at prior
    exact absurd prior (by decide)

theorem packets_cons (e : Event) (es : List Event) : packets (e :: es) = packets [e] + packets es := by
  rw [← List.singleton_append]
  exact List.countP_append ..

/-- With room for the packets to come, the counters stay residues of the true values. -/
theorem step_tallied {l : Ledger} (tallied : Tallied l) (e : Event) {more : Nat}
    (room : l.stats.received.toNat + packets [e] + more < 2147483648) :
    Tallied (step l e) ∧ (step l e).stats.received.toNat + more < 2147483648 := by
  cases e with
  | packet seq rtpTs arrivalMs =>
    have counts : packets [Event.packet seq rtpTs arrivalMs] = 1 := rfl
    have stats : (step l (.packet seq rtpTs arrivalMs)).stats = l.stats.update seq rtpTs arrivalMs := by
      simp only [step]
      split <;> rfl
    have below := packet_received (by omega : l.stats.received.toNat < 2147483648) seq rtpTs arrivalMs
    refine ⟨packet_tallied tallied (by omega) seq rtpTs arrivalMs, ?_⟩
    rw [stats]
    omega
  | report now =>
    have counts : packets [Event.report now] = 0 := rfl
    refine ⟨report_tallied tallied now, ?_⟩
    change l.stats.received.toNat + more < 2147483648
    omega

theorem run_sound_iff {es : List Event} : ∀ {l : Ledger}, Tallied l →
    l.stats.received.toNat + packets es < 2147483648 →
    (Guarded step SoundReport l es ↔ Guarded step OnwardReport l es) := by
  induction es with
  | nil => exact fun _ _ => Iff.rfl
  | cons e es ih =>
    intro l tallied room
    rw [packets_cons] at room
    obtain ⟨after, left⟩ := step_tallied tallied e (by omega : _ + _ + packets es < _)
    refine and_congr ?_ (ih after left)
    cases e with
    | packet seq rtpTs arrivalMs => exact Iff.rfl
    | report now =>
      have arrived := tallied.arrived
      exact report_sound_iff tallied (by omega)

/-- The share of the packets lost is sound in every report of a run exactly when each comes
    after a packet or a report, with the highest number not behind its mark. -/
theorem fraction_sound_iff (ssrc clockRate : UInt32) (es : List Event) (few : packets es < 2 ^ 31) :
    Guarded step SoundReport (start ssrc clockRate) es ↔
      Guarded step OnwardReport (start ssrc clockRate) es :=
  run_sound_iff (start_tallied ssrc clockRate) (by
    change 0 + packets es < 2147483648
    omega)

/-- A late second packet behind the first report: one packet, and 255 of 256 are lost. -/
theorem late_second_packet : ¬ Guarded step SoundReport (start 1 90000)
    [.packet 100 0 0, .report 0, .packet 50 0 0, .report 0] := by
  rintro ⟨_, _, _, sound, _⟩
  exact absurd (sound.lossless (by decide) 0) (by decide)

theorem fraction_sound_restart : Guarded step SoundReport (start 1 90000)
    [.packet 65533 0 0, .packet 65534 0 0, .packet 1 0 0, .report 0, .packet 9000 0 0, .packet 9001 0 0,
      .report 0] ↔ Guarded step OnwardReport (start 1 90000)
    [.packet 65533 0 0, .packet 65534 0 0, .packet 1 0 0, .report 0, .packet 9000 0 0, .packet 9001 0 0,
      .report 0] :=
  fraction_sound_iff 1 90000 _ (by decide)

end FractionLost
