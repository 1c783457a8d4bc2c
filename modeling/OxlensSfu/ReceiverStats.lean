import OxlensSfu.Config
import OxlensSfu.PttRewriter
import OxlensSfu.RtpSource
import OxlensSfu.SeqPosition
import OxlensSfu.GuardedRun

/-
What the server counts of a publisher's stream as its RTP peer, and the report blocks it
builds of the counts. All counters wrap, as those of a release build do.
-/
namespace ReceiverStats
open SfuConfig GuardedRun RtpSource
open PttRewriter (Instant)

structure RecvStats where
  ssrc : UInt32
  clockRate : UInt32
  maxSeq : UInt16
  cycles : UInt32
  baseSeq : UInt32
  badSeq : UInt32
  received : UInt32
  expectedPrior : UInt32
  receivedPrior : UInt32
  jitter : Float
  lastTransit : Int64
  lastSrNtpMiddle : UInt32
  lastSrReceivedAt : Option Instant
  initialized : Bool
  seqProbation : UInt32

def RecvStats.new (ssrc clockRate : UInt32) : RecvStats where
  ssrc := ssrc
  clockRate := clockRate
  maxSeq := 0
  cycles := 0
  baseSeq := 0
  badSeq := 0
  received := 0
  expectedPrior := 0
  receivedPrior := 0
  jitter := 0
  lastTransit := 0
  lastSrNtpMiddle := 0
  lastSrReceivedAt := none
  initialized := false
  seqProbation := rtpSeqMinSequential

def RecvStats.initSeq (s : RecvStats) (seq : UInt16) : RecvStats :=
  { s with
    baseSeq := seq.toUInt32
    maxSeq := seq
    badSeq := seq.toUInt32 + 1
    cycles := 0
    received := 0
    receivedPrior := 0
    expectedPrior := 0 }

/-- The arrival in units of the RTP clock, less the timestamp. -/
def RecvStats.updateJitter (s : RecvStats) (rtpTs : UInt32) (arrivalMs : UInt64) : RecvStats :=
  let arrivalRtp := arrivalMs.toInt64 * s.clockRate.toUInt64.toInt64 / 1000
  let transit := arrivalRtp - rtpTs.toUInt64.toInt64
  { s with
    jitter := if s.lastTransit ≠ 0
      then s.jitter + ((transit - s.lastTransit).abs.toFloat - s.jitter) / 16 else s.jitter
    lastTransit := transit }

/-- The last lines of an update: one more packet. -/
def RecvStats.accept (s : RecvStats) (rtpTs : UInt32) (arrivalMs : UInt64) : RecvStats :=
  { s with received := s.received + 1 }.updateJitter rtpTs arrivalMs

def RecvStats.update (s : RecvStats) (seq : UInt16) (rtpTs : UInt32) (arrivalMs : UInt64) : RecvStats :=
  if !s.initialized then
    { s.initSeq seq with
      initialized := true, seqProbation := rtpSeqMinSequential - 1 }.accept rtpTs arrivalMs
  else if 0 < s.seqProbation then
    if seq = s.maxSeq + 1 then
      if s.seqProbation - 1 = 0 then
        ({ s with seqProbation := 0, maxSeq := seq }.initSeq seq).accept rtpTs arrivalMs
      else
        { s with seqProbation := s.seqProbation - 1, maxSeq := seq, received := s.received + 1 }
    else
      { s with seqProbation := rtpSeqMinSequential - 1, maxSeq := seq, received := s.received + 1 }
  else
    let udelta := seq - s.maxSeq
    if udelta < rtpSeqMaxDropout then
      { s with
        cycles := if seq < s.maxSeq then s.cycles + 65536 else s.cycles
        maxSeq := seq }.accept rtpTs arrivalMs
    else if udelta ≤ 65535 - rtpSeqMaxMisorder then
      -- a large jump: the second packet in a row restarts the source, the first is ignored
      if seq.toUInt32 = s.badSeq then (s.initSeq seq).accept rtpTs arrivalMs
      else { s with badSeq := seq.toUInt32 + 1 }
    else s.accept rtpTs arrivalMs

/-- What the source makes of a packet: the first one of a source that starts here, one more
    of its packets, or one too far off to be counted. -/
inductive Verdict where
  | first
  | counted (wraps : Bool)
  | ignored
  deriving DecidableEq, Repr

def verdict (s : RecvStats) (seq : UInt16) : Verdict :=
  if !s.initialized then .first
  else if 0 < s.seqProbation then
    if seq = s.maxSeq + 1 ∧ s.seqProbation - 1 = 0 then .first else .counted false
  else if seq - s.maxSeq < rtpSeqMaxDropout then .counted (seq < s.maxSeq)
  else if seq - s.maxSeq ≤ 65535 - rtpSeqMaxMisorder then
    if seq.toUInt32 = s.badSeq then .first else .ignored
  else .counted false

/-- What a packet can do to the counters. -/
inductive Updated (s : RecvStats) (seq : UInt16) (rtpTs : UInt32) (arrivalMs : UInt64) :
    Verdict → RecvStats → Prop where
  | first (fresh : s.initialized = false) : Updated s seq rtpTs arrivalMs .first
      ({ s.initSeq seq with
        initialized := true, seqProbation := rtpSeqMinSequential - 1 }.accept rtpTs arrivalMs)
  | proven (known : s.initialized = true) (probing : 0 < s.seqProbation) (next : seq = s.maxSeq + 1)
      (last : s.seqProbation - 1 = 0) : Updated s seq rtpTs arrivalMs .first
      (({ s with seqProbation := 0, maxSeq := seq }.initSeq seq).accept rtpTs arrivalMs)
  | inSequence (known : s.initialized = true) (probing : 0 < s.seqProbation) (next : seq = s.maxSeq + 1)
      (more : s.seqProbation - 1 ≠ 0) : Updated s seq rtpTs arrivalMs (.counted false)
      { s with seqProbation := s.seqProbation - 1, maxSeq := seq, received := s.received + 1 }
  | outOfSequence (known : s.initialized = true) (probing : 0 < s.seqProbation) (other : seq ≠ s.maxSeq + 1) :
      Updated s seq rtpTs arrivalMs (.counted false)
      { s with seqProbation := rtpSeqMinSequential - 1, maxSeq := seq, received := s.received + 1 }
  | near (known : s.initialized = true) (valid : s.seqProbation = 0) (ahead : seq - s.maxSeq < rtpSeqMaxDropout) :
      Updated s seq rtpTs arrivalMs (.counted (seq < s.maxSeq))
      ({ s with
        cycles := if seq < s.maxSeq then s.cycles + 65536 else s.cycles
        maxSeq := seq }.accept rtpTs arrivalMs)
  | restart (known : s.initialized = true) (valid : s.seqProbation = 0)
      (far : rtpSeqMaxDropout ≤ seq - s.maxSeq) (jump : seq - s.maxSeq ≤ 65535 - rtpSeqMaxMisorder)
      (again : seq.toUInt32 = s.badSeq) :
      Updated s seq rtpTs arrivalMs .first ((s.initSeq seq).accept rtpTs arrivalMs)
  | ignored (known : s.initialized = true) (valid : s.seqProbation = 0)
      (far : rtpSeqMaxDropout ≤ seq - s.maxSeq) (jump : seq - s.maxSeq ≤ 65535 - rtpSeqMaxMisorder)
      (once : seq.toUInt32 ≠ s.badSeq) :
      Updated s seq rtpTs arrivalMs .ignored { s with badSeq := seq.toUInt32 + 1 }
  | late (known : s.initialized = true) (valid : s.seqProbation = 0)
      (behind : 65535 - rtpSeqMaxMisorder < seq - s.maxSeq) :
      Updated s seq rtpTs arrivalMs (.counted false) (s.accept rtpTs arrivalMs)

theorem RecvStats.update_cases (s : RecvStats) (seq : UInt16) (rtpTs : UInt32) (arrivalMs : UInt64) :
    Updated s seq rtpTs arrivalMs (verdict s seq) (s.update seq rtpTs arrivalMs) := by
  cases known : s.initialized
  · simpa [RecvStats.update, verdict, known] using Updated.first known
  by_cases probing : 0 < s.seqProbation
  · by_cases next : seq = s.maxSeq + 1
    · by_cases last : s.seqProbation - 1 = 0
      · simpa [RecvStats.update, verdict, known, probing, ← next, last] using
          Updated.proven known probing next last
      · simpa [RecvStats.update, verdict, known, probing, ← next, last] using
          Updated.inSequence known probing next last
    · simpa [RecvStats.update, verdict, known, probing, next] using Updated.outOfSequence known probing next
  have valid : s.seqProbation = 0 := by
    simpa [UInt32.pos_iff_ne_zero] using probing
  by_cases ahead : seq - s.maxSeq < rtpSeqMaxDropout
  · simpa [RecvStats.update, verdict, known, valid, ahead] using Updated.near known valid ahead
  by_cases jump : seq - s.maxSeq ≤ 65535 - rtpSeqMaxMisorder
  · by_cases again : seq.toUInt32 = s.badSeq
    · simpa [RecvStats.update, verdict, known, valid, ahead, jump, again] using
        Updated.restart known valid (UInt16.not_lt.mp ahead) jump again
    · simpa [RecvStats.update, verdict, known, valid, ahead, jump, again] using
        Updated.ignored known valid (UInt16.not_lt.mp ahead) jump again
  · simpa [RecvStats.update, verdict, known, valid, ahead, jump] using
      Updated.late known valid (UInt16.not_le.mp jump)

@[simp] theorem RecvStats.ssrc_update (s : RecvStats) (seq : UInt16) (rtpTs : UInt32) (arrivalMs : UInt64) :
    (s.update seq rtpTs arrivalMs).ssrc = s.ssrc := by
  have updated := s.update_cases seq rtpTs arrivalMs
  generalize verdict s seq = taken, s.update seq rtpTs arrivalMs = next at updated
  cases updated <;> rfl

def RecvStats.onSrReceived (s : RecvStats) (ntpTsHi ntpTsLo : UInt32) (now : Instant) : RecvStats :=
  { s with
    lastSrNtpMiddle := (ntpTsHi &&& 0xFFFF) <<< 16 ||| ntpTsLo >>> 16
    lastSrReceivedAt := some now }

structure RrReportBlock where
  ssrc : UInt32
  fractionLost : UInt8
  cumulativeLost : UInt32
  extendedHighestSeq : UInt32
  jitter : UInt32
  lastSr : UInt32
  delaySinceLastSr : UInt32
  deriving DecidableEq, Repr

/-- The time since `t` in units of 1/65536 s. -/
def delaySince (t now : Instant) : UInt32 :=
  let elapsed := now - t
  UInt32.ofNat (elapsed / 1000000000) * 65536 +
    UInt32.ofNat (elapsed % 1000000000 * 65536 / 1000000000)

/-- The excess of what was expected over what was received. -/
def lostOf (expected received : UInt32) : UInt32 := if received < expected then expected - received else 0

theorem lostOf_toNat (expected received : UInt32) :
    (lostOf expected received).toNat = expected.toNat - received.toNat := by
  unfold lostOf
  split
  · rename_i less
    exact UInt32.toNat_sub_of_le _ _ (UInt32.le_iff_toNat_le.mpr (Nat.le_of_lt (UInt32.lt_iff_toNat_lt.mp less)))
  · rename_i enough
    have order : expected.toNat ≤ received.toNat := UInt32.le_iff_toNat_le.mp (UInt32.not_lt.mp enough)
    exact (Nat.sub_eq_zero_of_le order).symm

def RecvStats.extendedMax (s : RecvStats) : UInt32 := s.cycles + s.maxSeq.toUInt32

def RecvStats.buildRrBlock (s : RecvStats) (now : Instant) : RecvStats × RrReportBlock :=
  let extendedMax := s.extendedMax
  let expected := extendedMax - s.baseSeq + 1
  let lost := lostOf expected s.received
  let expectedInterval := expected - s.expectedPrior
  let receivedInterval := s.received - s.receivedPrior
  let lostInterval := lostOf expectedInterval receivedInterval
  let fraction := if 0 < expectedInterval
    then UInt8.ofNat (lostInterval.toNat * 256 / expectedInterval.toNat) else 0
  ({ s with expectedPrior := expected, receivedPrior := s.received },
    { ssrc := s.ssrc
      fractionLost := fraction
      cumulativeLost := min lost 0x7FFFFF
      extendedHighestSeq := extendedMax
      jitter := s.jitter.toUInt32
      lastSr := s.lastSrNtpMiddle
      delaySinceLastSr := match s.lastSrReceivedAt with
        | some t => delaySince t now
        | none => 0 })

end ReceiverStats
