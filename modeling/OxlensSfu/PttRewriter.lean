import OxlensSfu.FloorControl
import OxlensSfu.RtpPacket

/-
The rewriter that joins the talk bursts of a PTT room into one virtual stream.
An `Instant` is a monotonic clock reading in nanoseconds, passed in explicitly.
-/
namespace PttRewriter
open WireBytes RtpPacket SfuConfig FloorControl

abbrev Instant := Nat

inductive RewriteResult where
  | ok
  | pendingKeyframe
  | skip
  deriving DecidableEq, Repr

structure RewriteState where
  speaker : Option UserId
  originBaseSeq : UInt16
  originBaseTs : UInt32
  virtualBaseSeq : UInt16
  virtualBaseTs : UInt32
  lastVirtualSeq : UInt16
  lastVirtualTs : UInt32
  awaitingFirstPacket : Bool
  pendingKeyframe : Bool
  clearedAt : Option Instant
  switchedAt : Option Instant
  deriving DecidableEq, Repr

structure Rewriter where
  virtualSsrc : UInt32
  tsGuardGap : UInt32
  requireKeyframe : Bool
  state : RewriteState
  deriving DecidableEq, Repr

def tsGuardGapAudio : UInt32 := 960
def tsGuardGapVideo : UInt32 := 3000
def opusSilence : Bytes := [0xf8, 0xff, 0xfe]
def silenceFlushCount : Nat := 3

def Rewriter.new (virtualSsrc tsGuardGap : UInt32) (requireKeyframe : Bool) : Rewriter where
  virtualSsrc := virtualSsrc
  tsGuardGap := tsGuardGap
  requireKeyframe := requireKeyframe
  state := ⟨none, 0, 0, 0, 0, 0, 0, false, false, none, none⟩

def newAudio (virtualSsrc : UInt32) : Rewriter := .new virtualSsrc tsGuardGapAudio false
def newVideo (virtualSsrc : UInt32) : Rewriter := .new virtualSsrc tsGuardGapVideo true

/-- `elapsed().as_millis() as u32`. -/
def elapsedMs (now since : Instant) : UInt32 := UInt32.ofNat ((now - since) / 1000000)

/-- `u32::saturating_mul`. -/
def saturatingMul (a b : UInt32) : UInt32 := UInt32.ofNat (min (a.toNat * b.toNat) 4294967295)

/-- `u32::saturating_sub`. -/
def saturatingSub (a b : UInt32) : UInt32 := UInt32.ofNat (a.toNat - b.toNat)

def dynamicTsGap (r : Rewriter) (ticksPerMs : UInt32) (now : Instant) : UInt32 :=
  match r.state.clearedAt with
  | some cleared => max (saturatingMul (elapsedMs now cleared) ticksPerMs) r.tsGuardGap
  | none => r.tsGuardGap

/-- The silence frames of the last clear already moved the audio clock. -/
def switchTsGap (r : Rewriter) (now : Instant) : UInt32 :=
  if r.requireKeyframe then dynamicTsGap r 90 now
  else saturatingSub (dynamicTsGap r 48 now) (tsGuardGapAudio * UInt32.ofNat silenceFlushCount)

def switchSpeaker (r : Rewriter) (userId : UserId) (now : Instant) : Rewriter :=
  { r with state := { r.state with
      virtualBaseTs := r.state.lastVirtualTs + switchTsGap r now
      virtualBaseSeq := r.state.lastVirtualSeq + 1
      clearedAt := none
      speaker := some userId
      awaitingFirstPacket := true
      pendingKeyframe := r.requireKeyframe
      switchedAt := some now } }

def silenceFrame (r : Rewriter) (i : Nat) : Bytes :=
  [0x80, opusPayloadType] ++ bytes16 (r.state.lastVirtualSeq + UInt16.ofNat (1 + i)) ++
    bytes32 (r.state.lastVirtualTs + tsGuardGapAudio * UInt32.ofNat (1 + i)) ++
    bytes32 r.virtualSsrc ++ opusSilence

def clearSpeaker (r : Rewriter) (now : Instant) : Rewriter × Option (List Bytes) :=
  let cleared := { r with state := { r.state with
      speaker := none
      awaitingFirstPacket := false
      pendingKeyframe := false
      clearedAt := some now
      switchedAt := none } }
  if r.requireKeyframe then (cleared, none)
  else if r.state.lastVirtualSeq = 0 ∧ r.state.lastVirtualTs = 0 then (cleared, none)
  else
    ({ cleared with state := { cleared.state with
        lastVirtualSeq := r.state.lastVirtualSeq + UInt16.ofNat silenceFlushCount
        lastVirtualTs :=
          r.state.lastVirtualTs + tsGuardGapAudio * UInt32.ofNat silenceFlushCount } },
      some ((List.range silenceFlushCount).map (silenceFrame r)))

/-- Video only: the wait for the keyframe is added to the virtual clock. -/
def pendingCompensation (r : Rewriter) (now : Instant) : UInt32 :=
  if r.requireKeyframe then
    match r.state.switchedAt with
    | some switched =>
      if 50 < elapsedMs now switched then saturatingMul (elapsedMs now switched) 90 else 0
    | none => 0
  else 0

/-- The first packet after a switch fixes the origin of the burst. -/
def anchorBurst (r : Rewriter) (origSeq : UInt16) (origTs : UInt32) (now : Instant) :
    RewriteState :=
  if r.state.awaitingFirstPacket then
    { r.state with
      originBaseSeq := origSeq
      originBaseTs := origTs
      virtualBaseTs := r.state.virtualBaseTs + pendingCompensation r now
      switchedAt := if r.requireKeyframe then none else r.state.switchedAt
      awaitingFirstPacket := false }
  else r.state

def virtualSeq (s : RewriteState) (origSeq : UInt16) : UInt16 :=
  origSeq - s.originBaseSeq + s.virtualBaseSeq

def virtualTs (s : RewriteState) (origTs : UInt32) : UInt32 :=
  origTs - s.originBaseTs + s.virtualBaseTs

def writeHeader (p : Bytes) (seq : UInt16) (ts ssrc : UInt32) : Bytes :=
  overwrite (overwrite (overwrite p 8 (bytes32 ssrc)) 2 (bytes16 seq)) 4 (bytes32 ts)

/-- Past the speaker and keyframe gates: number the packet and record the numbers. -/
def forward (r : Rewriter) (plaintext : Bytes) (now : Instant) : Rewriter × Bytes :=
  let anchored := anchorBurst r (u16At plaintext 2) (u32At plaintext 4) now
  let seq := virtualSeq anchored (u16At plaintext 2)
  let ts := virtualTs anchored (u32At plaintext 4)
  let written := writeHeader plaintext seq ts r.virtualSsrc
  ({ r with state := { anchored with
      pendingKeyframe := false, lastVirtualSeq := seq, lastVirtualTs := ts } },
    if r.state.awaitingFirstPacket && !r.requireKeyframe then
      overwrite written 1 [byteAt written 1 ||| 0x80]
    else written)

def rewrite (r : Rewriter) (plaintext : Bytes) (senderUserId : UserId) (isKeyframe : Bool)
    (now : Instant) : Rewriter × RewriteResult × Bytes :=
  if plaintext.length < 12 then (r, .skip, plaintext)
  else if r.state.speaker ≠ some senderUserId then (r, .skip, plaintext)
  else if r.state.pendingKeyframe && !isKeyframe then (r, .pendingKeyframe, plaintext)
  else
    let (next, written) := forward r plaintext now
    (next, .ok, written)

def reverseSeq (r : Rewriter) (virtual : UInt16) : UInt16 :=
  virtual - r.state.virtualBaseSeq + r.state.originBaseSeq

theorem mask_marker (b : UInt8) : (b ||| 0x80) &&& 0x7F = b &&& 0x7F := by
  apply UInt8.toNat_inj.mp
  simp only [UInt8.toNat_and, UInt8.toNat_or]
  rw [Nat.and_or_distrib_right]
  simp

section Header
variable {p : Bytes} (seq : UInt16) (ts ssrc : UInt32)

theorem stage_lengths (long : 12 ≤ p.length) :
    (overwrite p 8 (bytes32 ssrc)).length = p.length ∧
      (overwrite (overwrite p 8 (bytes32 ssrc)) 2 (bytes16 seq)).length = p.length := by
  have first : (overwrite p 8 (bytes32 ssrc)).length = p.length :=
    length_overwrite (by simpa using long)
  exact ⟨first, by rw [length_overwrite (by rw [length_bytes16]; omega), first]⟩

theorem length_writeHeader (long : 12 ≤ p.length) : (writeHeader p seq ts ssrc).length = p.length := by
  obtain ⟨first, second⟩ := stage_lengths seq ssrc long
  rw [writeHeader, length_overwrite (by rw [length_bytes32]; omega), second]

theorem writeHeader_seq (long : 12 ≤ p.length) : u16At (writeHeader p seq ts ssrc) 2 = seq := by
  obtain ⟨first, second⟩ := stage_lengths seq ssrc long
  rw [writeHeader, u16At_overwrite_outside (by rw [length_bytes32]; omega) (by omega),
    u16At_overwrite seq (by omega)]

theorem writeHeader_ts (long : 12 ≤ p.length) : u32At (writeHeader p seq ts ssrc) 4 = ts := by
  obtain ⟨first, second⟩ := stage_lengths seq ssrc long
  rw [writeHeader, u32At_overwrite ts (by omega)]

theorem writeHeader_ssrc (long : 12 ≤ p.length) : u32At (writeHeader p seq ts ssrc) 8 = ssrc := by
  obtain ⟨first, second⟩ := stage_lengths seq ssrc long
  rw [writeHeader, u32At_overwrite_outside (by rw [length_bytes32]; omega) (by simp),
    u32At_overwrite_outside (by rw [length_bytes16]; omega) (by simp),
    u32At_overwrite ssrc (by omega)]

/-- Only the sequence number, the timestamp and the SSRC are written. -/
theorem writeHeader_outside (long : 12 ≤ p.length) {k : Nat} (outside : k < 2 ∨ 12 ≤ k) :
    byteAt (writeHeader p seq ts ssrc) k = byteAt p k := by
  obtain ⟨first, second⟩ := stage_lengths seq ssrc long
  rw [writeHeader, byteAt_overwrite_outside (by rw [length_bytes32]; omega) (by simp; omega),
    byteAt_overwrite_outside (by rw [length_bytes16]; omega) (by simp; omega),
    byteAt_overwrite_outside (by simpa using long) (by simp; omega)]

theorem writeHeader_payload (long : 12 ≤ p.length) :
    (writeHeader p seq ts ssrc).drop 12 = p.drop 12 := by
  obtain ⟨first, second⟩ := stage_lengths seq ssrc long
  rw [writeHeader, drop_overwrite (by rw [length_bytes32]; omega) (by simp),
    drop_overwrite (by rw [length_bytes16]; omega) (by simp),
    drop_overwrite (by simpa using long) (by simp)]

end Header

/-- What forwarding a packet writes: the virtual numbers and SSRC, and for the first
    audio packet of a burst the marker bit. -/
theorem forward_spec (r : Rewriter) {p : Bytes} (now : Instant) (long : 12 ≤ p.length) :
    let anchored := anchorBurst r (u16At p 2) (u32At p 4) now
    let out := (forward r p now).2
    out.length = p.length ∧ u16At out 2 = virtualSeq anchored (u16At p 2) ∧
      u32At out 4 = virtualTs anchored (u32At p 4) ∧ u32At out 8 = r.virtualSsrc ∧
      byteAt out 0 = byteAt p 0 ∧ byteAt out 1 &&& 0x7F = byteAt p 1 &&& 0x7F ∧
      out.drop 12 = p.drop 12 := by
  intro anchored out
  let written := writeHeader p (virtualSeq anchored (u16At p 2))
    (virtualTs anchored (u32At p 4)) r.virtualSsrc
  have len : written.length = p.length := length_writeHeader _ _ _ long
  have flag : byteAt written 1 = byteAt p 1 := writeHeader_outside _ _ _ long (by omega)
  have zero : byteAt written 0 = byteAt p 0 := writeHeader_outside _ _ _ long (by omega)
  have seq : u16At written 2 = _ := writeHeader_seq _ _ _ long
  have ts : u32At written 4 = _ := writeHeader_ts _ _ _ long
  have ssrc : u32At written 8 = r.virtualSsrc := writeHeader_ssrc _ _ _ long
  have payload : written.drop 12 = p.drop 12 := writeHeader_payload _ _ _ long
  have shape : out = if r.state.awaitingFirstPacket && !r.requireKeyframe then
      overwrite written 1 [byteAt written 1 ||| 0x80] else written := rfl
  split at shape
  · have marked : byteAt out 1 = byteAt written 1 ||| 0x80 := by
      rw [shape, byteAt_overwrite_inside (by omega) (by omega) (by simp)]
      simp [byteAt]
    have fits : 1 + [byteAt written 1 ||| 0x80].length ≤ written.length := by simp; omega
    refine ⟨?_, ?_, ?_, ?_, ?_, ?_, ?_⟩
    · rw [shape, length_overwrite fits, len]
    · rw [shape, u16At_overwrite_outside fits (by simp), seq]
    · rw [shape, u32At_overwrite_outside fits (by simp), ts]
    · rw [shape, u32At_overwrite_outside fits (by simp), ssrc]
    · rw [shape, byteAt_overwrite_outside fits (by simp), zero]
    · rw [marked, flag]
      exact mask_marker _
    · rw [shape, drop_overwrite fits (by simp), payload]
  · rw [shape]
    exact ⟨len, seq, ts, ssrc, zero, by rw [flag], payload⟩

/-- The gates of `rewrite`: a full header, the current speaker, and no awaited keyframe. -/
def Admits (r : Rewriter) (p : Bytes) (sender : UserId) (isKeyframe : Bool) : Prop :=
  12 ≤ p.length ∧ r.state.speaker = some sender ∧
    (r.state.pendingKeyframe = true → isKeyframe = true)

instance (r : Rewriter) (p : Bytes) (sender : UserId) (isKeyframe : Bool) :
    Decidable (Admits r p sender isKeyframe) :=
  inferInstanceAs (Decidable (_ ∧ _ ∧ (_ → _)))

theorem rewrite_admitted {r : Rewriter} {p : Bytes} {sender : UserId} {isKeyframe : Bool}
    (admitted : Admits r p sender isKeyframe) (now : Instant) :
    rewrite r p sender isKeyframe now = ((forward r p now).1, .ok, (forward r p now).2) := by
  obtain ⟨long, speaks, key⟩ := admitted
  have open_ : (r.state.pendingKeyframe && !isKeyframe) = false := by
    cases pending : r.state.pendingKeyframe <;> simp_all
  simp [rewrite, Nat.not_lt.mpr long, speaks, open_]

theorem rewrite_rejected {r : Rewriter} {p : Bytes} {sender : UserId} {isKeyframe : Bool}
    (rejected : ¬ Admits r p sender isKeyframe) (now : Instant) :
    ∃ result, result ≠ .ok ∧ rewrite r p sender isKeyframe now = (r, result, p) := by
  unfold rewrite
  split
  · exact ⟨.skip, by simp, rfl⟩
  rename_i long
  split
  · exact ⟨.skip, by simp, rfl⟩
  rename_i speaks
  split
  · exact ⟨.pendingKeyframe, by simp, rfl⟩
  rename_i open_
  refine absurd ⟨by omega, by simpa using speaks, fun pending => ?_⟩ rejected
  simpa [pending] using open_

end PttRewriter
