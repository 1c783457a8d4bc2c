import OxlensSfu.WireBytes
import OxlensSfu.Config

/- RTP header fields, payload offset and keyframe detection on plaintext packets. -/
namespace RtpPacket
open WireBytes SfuConfig

structure RtpHeader where
  pt : UInt8
  marker : Bool
  seq : UInt16
  timestamp : UInt32
  ssrc : UInt32
  headerLen : Nat
  deriving DecidableEq, Repr

def csrcCount (p : Bytes) : Nat := (byteAt p 0 &&& 0x0F).toNat
def hasExtension (p : Bytes) : Bool := byteAt p 0 &&& 0x10 != 0

def parseRtpHeader (p : Bytes) : RtpHeader :=
  if p.length < rtpHeaderMinSize then ⟨0, false, 0, 0, 0, 0⟩
  else
    { pt := byteAt p 1 &&& 0x7F
      marker := byteAt p 1 &&& 0x80 != 0
      seq := u16At p 2
      timestamp := u32At p 4
      ssrc := u32At p 8
      headerLen := 12 + csrcCount p * 4 }

theorem long_of_typed {p : Bytes} (typed : (parseRtpHeader p).pt ≠ 0) : 12 ≤ p.length := by
  by_contra short
  have : p.length < rtpHeaderMinSize := Nat.lt_of_not_le short
  simp [parseRtpHeader, this] at typed

theorem parse_long {p : Bytes} (long : 12 ≤ p.length) :
    (parseRtpHeader p).pt = byteAt p 1 &&& 0x7F ∧ (parseRtpHeader p).ssrc = u32At p 8 := by
  have full : ¬ p.length < rtpHeaderMinSize := Nat.not_lt.mpr long
  simp only [parseRtpHeader, if_neg full]
  trivial

def rtpPayloadOffset (p : Bytes) : Option Nat :=
  if p.length < 12 then none
  else
    let fixed := 12 + csrcCount p * 4
    if hasExtension p then
      if p.length < fixed + 4 then none
      else
        let offset := fixed + 4 + (u16At p (fixed + 2)).toNat * 4
        if p.length ≤ offset then none else some offset
    else if p.length ≤ fixed then none else some fixed

/-- Skips the optional octets of the VP8 payload descriptor; `none` when a
    flag octet lies past the end. -/
def vp8DescriptorEnd (p : Bytes) (offset : Nat) : Option Nat :=
  if byteAt p offset &&& 0x80 != 0 then
    if p.length ≤ offset + 1 then none
    else
      let flags := byteAt p (offset + 1)
      if flags &&& 0x80 != 0 then
        if p.length ≤ offset + 2 then none
        else
          let pictureId := if byteAt p (offset + 2) &&& 0x80 != 0 then 2 else 1
          some (offset + 2 + pictureId + (if flags &&& 0x40 != 0 then 1 else 0) +
            (if flags &&& 0x20 != 0 || flags &&& 0x10 != 0 then 1 else 0))
      else
        some (offset + 2 + (if flags &&& 0x40 != 0 then 1 else 0) +
          (if flags &&& 0x20 != 0 || flags &&& 0x10 != 0 then 1 else 0))
  else some (offset + 1)

def isVp8Keyframe (p : Bytes) : Bool :=
  match rtpPayloadOffset p with
  | none => false
  | some offset =>
    if byteAt p offset &&& 0x10 == 0 then false
    else
      match vp8DescriptorEnd p offset with
      | none => false
      | some frame => if p.length ≤ frame then false else byteAt p frame &&& 0x01 == 0

def keyNalType (b : UInt8) : Bool := b &&& 0x1F == 7 || b &&& 0x1F == 5

/-- The STAP-A loop. Every round advances by at least the two size bytes, so
    the packet length is enough fuel. -/
def stapHasKeyNal (p : Bytes) : Nat → Nat → Bool
  | 0, _ => false
  | fuel + 1, pos =>
    if pos + 2 < p.length then
      if keyNalType (byteAt p (pos + 2)) then true
      else
        let next := pos + 2 + (u16At p pos).toNat
        if p.length < next then false else stapHasKeyNal p fuel next
    else false

def isH264Keyframe (p : Bytes) : Bool :=
  match rtpPayloadOffset p with
  | none => false
  | some offset =>
    let nalType := byteAt p offset &&& 0x1F
    if nalType == 7 || nalType == 5 then true
    else if nalType == 24 then stapHasKeyNal p p.length (offset + 1)
    else if nalType == 28 then
      if p.length ≤ offset + 1 then false
      else byteAt p (offset + 1) &&& 0x80 != 0 && keyNalType (byteAt p (offset + 1))
    else false

theorem payloadOffset_inside {p : Bytes} {o : Nat} (found : rtpPayloadOffset p = some o) :
    12 + csrcCount p * 4 ≤ o ∧ o < p.length := by
  simp only [rtpPayloadOffset] at found
  split at found
  · simp at found
  · split at found
    · split at found
      · simp at found
      · split at found
        · simp at found
        · simp only [Option.some.injEq] at found
          omega
    · split at found
      · simp at found
      · simp only [Option.some.injEq] at found
        omega

/-- Without an extension the payload follows the CSRC list. -/
theorem payloadOffset_plain {p : Bytes} (plain : hasExtension p = false) (o : Nat) :
    rtpPayloadOffset p = some o ↔
      o = 12 + csrcCount p * 4 ∧ 12 + csrcCount p * 4 < p.length := by
  simp only [rtpPayloadOffset, plain, Bool.false_eq_true, if_false]
  split
  · simp; omega
  · split
    · simp; omega
    · simp only [Option.some.injEq]; omega

theorem payloadOffset_extended {p : Bytes} (extended : hasExtension p = true) (o : Nat) :
    rtpPayloadOffset p = some o ↔
      o = 12 + csrcCount p * 4 + 4 + (u16At p (12 + csrcCount p * 4 + 2)).toNat * 4 ∧
        o < p.length := by
  simp only [rtpPayloadOffset, extended, if_true]
  split
  · simp; omega
  · split
    · simp; omega
    · split
      · simp; omega
      · simp only [Option.some.injEq]; omega

end RtpPacket
