import Mathlib.Data.List.Basic

/-
Sequence number tracking of a received RTP source as the standard's appendix gives it: a
probation until enough packets are in sequence, a count of the 16-bit cycles, and a restart
when two packets in a row are far off. Numbers follow one another modulo 2^16; all counters are
32-bit and wrap.
-/
namespace RtpSource

def rtpSeqMod : Nat := 65536
def maxDropout : Nat := 3000
def maxMisorder : Nat := 100
def minSequential : UInt32 := 2

structure Source where
  maxSeq : UInt16
  cycles : UInt32
  baseSeq : UInt32
  badSeq : UInt32
  probation : UInt32
  received : UInt32
  deriving DecidableEq, Repr

/-- No 16-bit number equals `badSeq` after this. -/
def Source.initSeq (s : Source) (seq : UInt16) : Source :=
  { s with
    baseSeq := seq.toUInt32
    maxSeq := seq
    badSeq := UInt32.ofNat (rtpSeqMod + 1)
    cycles := 0
    received := 0 }

/-- A source that is heard for the first time, before its first packet is counted. -/
def newSource (seq : UInt16) : Source :=
  { (⟨0, 0, 0, 0, 0, 0⟩ : Source).initSeq seq with maxSeq := seq - 1, probation := minSequential }

def Source.count (s : Source) : Source := { s with received := s.received + 1 }

def Source.updateSeq (s : Source) (seq : UInt16) : Source :=
  let udelta := (seq - s.maxSeq).toNat
  if s.probation ≠ 0 then
    if seq = s.maxSeq + 1 then
      if s.probation - 1 = 0 then ({ s with probation := 0 }.initSeq seq).count
      else { s with probation := s.probation - 1, maxSeq := seq }
    else { s with probation := minSequential - 1, maxSeq := seq }
  else if udelta < maxDropout then
    { s with
      cycles := if seq < s.maxSeq then s.cycles + UInt32.ofNat rtpSeqMod else s.cycles
      maxSeq := seq }.count
  else if udelta ≤ rtpSeqMod - maxMisorder then
    if seq.toUInt32 = s.badSeq then (s.initSeq seq).count
    else { s with badSeq := UInt32.ofNat ((seq.toNat + 1) % rtpSeqMod) }
  else s.count

end RtpSource
