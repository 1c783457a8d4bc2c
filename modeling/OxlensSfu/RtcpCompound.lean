import OxlensSfu.Ingress
import OxlensSfu.StunMessage

/- Compound RTCP packets: the blocks one after the other, and what each one is for. -/
namespace RtcpCompound
open WireBytes SfuConfig
open StunMessages (validUtf8)

/-- A block inside a compound packet; `mediaSsrc` is zero where there is none to read. -/
structure RtcpBlockRef where
  offset : Nat
  length : Nat
  mediaSsrc : UInt32
  deriving DecidableEq, Repr

/-- `data` is UTF-8 text. -/
structure MbcpMessage where
  subtype : UInt8
  ssrc : UInt32
  data : Option Bytes
  deriving DecidableEq, Repr

structure CompoundRtcpParsed where
  nackBlocks : List Bytes
  relayBlocks : List RtcpBlockRef
  mbcpBlocks : List MbcpMessage
  srBlocks : List RtcpBlockRef
  rrBlocks : List RtcpBlockRef
  deriving DecidableEq, Repr

def slice (buf : Bytes) (ref : RtcpBlockRef) : Bytes := (buf.drop ref.offset).take ref.length

/-- The text in front of the zero padding. -/
def mbcpText (raw : Bytes) : Option Bytes :=
  let trimmed := raw.takeWhile (· ≠ 0)
  if trimmed = [] then none else if validUtf8 trimmed then some trimmed else none

def parseMbcpApp (buf : Bytes) : Option MbcpMessage :=
  if buf.length < 12 then none
  else if byteAt buf 1 ≠ rtcpPtApp then none
  else if (buf.drop 8).take 4 ≠ mbcpAppName then none
  else some ⟨byteAt buf 0 &&& 0x1F, u32At buf 4,
    if 12 < buf.length then mbcpText (buf.drop 12) else none⟩

/-- The length field counts 32-bit words after the first. -/
def blockLength (buf : Bytes) (offset : Nat) : Nat := ((u16At buf (offset + 2)).toNat + 1) * 4

def blockRef (buf : Bytes) (offset : Nat) : RtcpBlockRef :=
  ⟨offset, blockLength buf offset, if offset + 12 ≤ buf.length then u32At buf (offset + 8) else 0⟩

/-- Blocks of other types are left out. -/
def classify (buf : Bytes) (offset : Nat) (parsed : CompoundRtcpParsed) : CompoundRtcpParsed :=
  let fmt := byteAt buf offset &&& 0x1F
  let pt := byteAt buf (offset + 1)
  let ref := blockRef buf offset
  if pt = rtcpPtNack ∧ fmt = rtcpFmtNack then
    { parsed with nackBlocks := parsed.nackBlocks ++ [slice buf ref] }
  else if pt = rtcpPtApp then
    match parseMbcpApp (slice buf ref) with
    | some msg => { parsed with mbcpBlocks := parsed.mbcpBlocks ++ [msg] }
    | none => parsed
  else if pt = rtcpPtSr then { parsed with srBlocks := parsed.srBlocks ++ [ref] }
  else if pt = rtcpPtRr then { parsed with rrBlocks := parsed.rrBlocks ++ [ref] }
  else if (pt = rtcpPtPsfb ∧ fmt = rtcpFmtPli) ∨ (pt = rtcpPtPsfb ∧ fmt = rtcpFmtRemb) then
    { parsed with relayBlocks := parsed.relayBlocks ++ [ref] }
  else parsed

/-- A block that reaches past the end stops the loop. Every round takes at least four
    bytes, so the length of the buffer is enough fuel. -/
def splitFrom (buf : Bytes) : Nat → Nat → CompoundRtcpParsed → CompoundRtcpParsed
  | 0, _, parsed => parsed
  | fuel + 1, offset, parsed =>
    if offset + 4 ≤ buf.length then
      if buf.length < offset + blockLength buf offset then parsed
      else splitFrom buf fuel (offset + blockLength buf offset) (classify buf offset parsed)
    else parsed

def splitCompoundRtcp (buf : Bytes) : CompoundRtcpParsed :=
  splitFrom buf buf.length 0 ⟨[], [], [], [], []⟩

def assembleCompound (blocks : List Bytes) : Bytes := blocks.flatten

/-- The block is inside the packet and long enough to have a type. -/
structure Inside (buf : Bytes) (ref : RtcpBlockRef) : Prop where
  ends : ref.offset + ref.length ≤ buf.length
  header : 4 ≤ ref.length

theorem four_le_blockLength (buf : Bytes) (offset : Nat) : 4 ≤ blockLength buf offset := by
  unfold blockLength
  omega

/-- What every classified block keeps holds of the whole result. -/
theorem split_keeps {buf : Bytes} {good : CompoundRtcpParsed → Prop}
    (start : good ⟨[], [], [], [], []⟩)
    (one : ∀ offset parsed, Inside buf (blockRef buf offset) → good parsed →
      good (classify buf offset parsed)) : good (splitCompoundRtcp buf) := by
  have all : ∀ fuel offset parsed, good parsed → good (splitFrom buf fuel offset parsed) := by
    intro fuel
    induction fuel with
    | zero => exact fun _ _ held => held
    | succ fuel ih =>
      intro offset parsed held
      unfold splitFrom
      split
      · split
        · exact held
        · rename_i fits
          exact ih _ _ (one offset parsed ⟨Nat.le_of_not_lt fits, four_le_blockLength buf offset⟩ held)
      · exact held
  exact all _ _ _ start

/-- Only payload-specific feedback is relayed, and sender reports stand apart. -/
structure Typed (buf : Bytes) (parsed : CompoundRtcpParsed) : Prop where
  relay : ∀ ref ∈ parsed.relayBlocks,
    Inside buf ref ∧ byteAt buf (ref.offset + 1) = rtcpPtPsfb
  senderReports : ∀ ref ∈ parsed.srBlocks,
    Inside buf ref ∧ byteAt buf (ref.offset + 1) = rtcpPtSr

theorem split_typed (buf : Bytes) : Typed buf (splitCompoundRtcp buf) := by
  refine split_keeps ⟨by simp, by simp⟩ fun offset parsed inside held => ?_
  have appended : ∀ {refs : List RtcpBlockRef} {pt : UInt8},
      (∀ ref ∈ refs, Inside buf ref ∧ byteAt buf (ref.offset + 1) = pt) →
        byteAt buf (offset + 1) = pt → ∀ ref ∈ refs ++ [blockRef buf offset],
          Inside buf ref ∧ byteAt buf (ref.offset + 1) = pt := by
    intro refs pt before type ref member
    rcases List.mem_append.mp member with earlier | here
    · exact before ref earlier
    · obtain rfl := List.mem_singleton.mp here
      exact ⟨inside, type⟩
  unfold classify
  simp only
  split
  · exact ⟨held.relay, held.senderReports⟩
  split
  · split
    · exact ⟨held.relay, held.senderReports⟩
    · exact held
  split
  · rename_i report
    exact ⟨held.relay, appended held.senderReports report⟩
  split
  · exact ⟨held.relay, held.senderReports⟩
  split
  · rename_i feedback
    exact ⟨appended held.relay (feedback.elim (·.1) (·.1)), held.senderReports⟩
  · exact held

theorem byteAt_slice {buf : Bytes} {ref : RtcpBlockRef} {k : Nat} (inside : k < ref.length) :
    byteAt (slice buf ref) k = byteAt buf (ref.offset + k) := by
  simp [byteAt, slice, inside]

end RtcpCompound
