import OxlensSfu.CheckedReads
import OxlensSfu.RtcpCompound
import OxlensSfu.TwccExtension

/-
The parsers once more, with every read, slice and write checked as the source's are. Each
one returns what the unchecked model computes, so none of them panics and none runs on.
-/
namespace ParserSafety
open WireBytes SfuConfig CheckedReads
open StunMessages (validUtf8)

def fciItems (buf : Bytes) (mediaSsrc : UInt32) (fciEnd : Nat) :
    Nat → Nat → Checked (List Ingress.NackItem)
  | 0, off => if off + 4 ≤ fciEnd then .error .outOfFuel else .ok []
  | fuel + 1, off =>
    if off + 4 ≤ fciEnd then do
      let pid ← readU16 buf off
      let blp ← readU16 buf (off + 2)
      let rest ← fciItems buf mediaSsrc fciEnd fuel (off + 4)
      return ⟨mediaSsrc, pid, blp⟩ :: rest
    else .ok []

/-- The items of one block; `fmt` and `pt` come from its first two bytes. -/
def blockItems (buf : Bytes) (offset pktLen : Nat) (fmt pt : UInt8) : Checked (List Ingress.NackItem) :=
  if pt = rtcpPtNack ∧ fmt = rtcpFmtNack ∧ offset + 12 ≤ buf.length then do
    let mediaSsrc ← readU32 buf (offset + 8)
    fciItems buf mediaSsrc (min (offset + pktLen) buf.length) buf.length (offset + 12)
  else .ok []

def nackItemsFrom (buf : Bytes) : Nat → Nat → Checked (List Ingress.NackItem)
  | 0, offset => if offset + 4 ≤ buf.length then .error .outOfFuel else .ok []
  | fuel + 1, offset =>
    if offset + 4 ≤ buf.length then do
      let fmt ← read buf offset
      let pt ← read buf (offset + 1)
      let lengthWords ← readU16 buf (offset + 2)
      let pktLen := (lengthWords.toNat + 1) * 4
      let items ← blockItems buf offset pktLen (fmt &&& 0x1F) pt
      let rest ← nackItemsFrom buf fuel (offset + pktLen)
      return items ++ rest
    else .ok []

def parseRtcpNack (buf : Bytes) : Checked (List Ingress.NackItem) := nackItemsFrom buf buf.length 0

/-- The bytes in front of the first zero. -/
def trimPadding (raw : Bytes) : Checked Bytes :=
  match raw.findIdx? (· == 0) with
  | some pos => readTo raw pos
  | none => .ok raw

def mbcpText (raw : Bytes) : Checked (Option Bytes) := do
  let trimmed ← trimPadding raw
  return if trimmed = [] then none else if validUtf8 trimmed then some trimmed else none

def parseMbcpApp (buf : Bytes) : Checked (Option RtcpCompound.MbcpMessage) :=
  if buf.length < 12 then .ok none
  else do
    let pt ← read buf 1
    if pt ≠ rtcpPtApp then .ok none
    else do
      let name ← readRange buf 8 12
      if name ≠ mbcpAppName then .ok none
      else do
        let first ← read buf 0
        let ssrc ← readU32 buf 4
        let data ← if 12 < buf.length then do
            let raw ← readFrom buf 12
            mbcpText raw
          else .ok none
        return some ⟨first &&& 0x1F, ssrc, data⟩

/-- The media source that a block names. -/
def blockSsrc (buf : Bytes) (offset : Nat) : Checked UInt32 :=
  if offset + 12 ≤ buf.length then readU32 buf (offset + 8) else .ok 0

/-- One block of a compound packet. -/
def classify (buf : Bytes) (ref : RtcpCompound.RtcpBlockRef) (fmt pt : UInt8)
    (parsed : RtcpCompound.CompoundRtcpParsed) : Checked RtcpCompound.CompoundRtcpParsed :=
  if pt = rtcpPtNack ∧ fmt = rtcpFmtNack then do
    let block ← readRange buf ref.offset (ref.offset + ref.length)
    return { parsed with nackBlocks := parsed.nackBlocks ++ [block] }
  else if pt = rtcpPtApp then do
    let block ← readRange buf ref.offset (ref.offset + ref.length)
    let message ← parseMbcpApp block
    match message with
    | some msg => return { parsed with mbcpBlocks := parsed.mbcpBlocks ++ [msg] }
    | none => return parsed
  else if pt = rtcpPtSr then .ok { parsed with srBlocks := parsed.srBlocks ++ [ref] }
  else if pt = rtcpPtRr then .ok { parsed with rrBlocks := parsed.rrBlocks ++ [ref] }
  else if (pt = rtcpPtPsfb ∧ fmt = rtcpFmtPli) ∨ (pt = rtcpPtPsfb ∧ fmt = rtcpFmtRemb) then
    .ok { parsed with relayBlocks := parsed.relayBlocks ++ [ref] }
  else .ok parsed

def splitFrom (buf : Bytes) : Nat → Nat → RtcpCompound.CompoundRtcpParsed →
    Checked RtcpCompound.CompoundRtcpParsed
  | 0, offset, parsed => if offset + 4 ≤ buf.length then .error .outOfFuel else .ok parsed
  | fuel + 1, offset, parsed =>
    if offset + 4 ≤ buf.length then do
      let fmt ← read buf offset
      let pt ← read buf (offset + 1)
      let lengthWords ← readU16 buf (offset + 2)
      let pktLen := (lengthWords.toNat + 1) * 4
      if buf.length < offset + pktLen then .ok parsed
      else do
        let mediaSsrc ← blockSsrc buf offset
        let next ← classify buf ⟨offset, pktLen, mediaSsrc⟩ (fmt &&& 0x1F) pt parsed
        splitFrom buf fuel (offset + pktLen) next
    else .ok parsed

def splitCompoundRtcp (buf : Bytes) : Checked RtcpCompound.CompoundRtcpParsed :=
  splitFrom buf buf.length 0 ⟨[], [], [], [], []⟩

section Rtcp
variable (buf : Bytes)

theorem fciItems_ok (mediaSsrc : UInt32) {fciEnd : Nat} (inside : fciEnd ≤ buf.length) (fuel off : Nat)
    (enough : fciEnd ≤ off + fuel) :
    fciItems buf mediaSsrc fciEnd fuel off = .ok (Ingress.fciItems buf mediaSsrc fciEnd fuel off) := by
  induction fuel generalizing off with
  | zero =>
    have past : ¬ off + 4 ≤ fciEnd := by omega
    rw [fciItems, if_neg past, Ingress.fciItems]
  | succ fuel ih =>
    unfold fciItems Ingress.fciItems
    split
    · rw [readU16_inside (by omega), readU16_inside (by omega), ih (off + 4) (by omega)]
      rfl
    · rfl

theorem blockItems_ok (offset pktLen : Nat) (fmt pt : UInt8) :
    blockItems buf offset pktLen fmt pt =
      .ok (if pt = rtcpPtNack ∧ fmt = rtcpFmtNack ∧ offset + 12 ≤ buf.length then
        Ingress.fciItems buf (u32At buf (offset + 8)) (min (offset + pktLen) buf.length) buf.length
          (offset + 12)
      else []) := by
  unfold blockItems
  split
  · rename_i named
    rw [readU32_inside (by omega), ok_bind,
      fciItems_ok buf _ (Nat.min_le_right _ _) _ _ (by omega)]
  · rfl

theorem nackItemsFrom_ok (fuel offset : Nat) (enough : buf.length ≤ offset + fuel) :
    nackItemsFrom buf fuel offset = .ok (Ingress.nackItemsFrom buf fuel offset) := by
  induction fuel generalizing offset with
  | zero =>
    have past : ¬ offset + 4 ≤ buf.length := by omega
    rw [nackItemsFrom, if_neg past, Ingress.nackItemsFrom]
  | succ fuel ih =>
    unfold nackItemsFrom Ingress.nackItemsFrom
    split
    · rename_i room
      rw [read_inside (by omega), read_inside (by omega), readU16_inside (by omega)]
      simp only [ok_bind, blockItems_ok]
      rw [ih _ (by omega)]
      rfl
    · rfl

theorem parseRtcpNack_ok : parseRtcpNack buf = .ok (Ingress.parseRtcpNack buf) :=
  nackItemsFrom_ok buf buf.length 0 (by omega)

theorem trimPadding_ok : trimPadding buf = .ok (buf.takeWhile (· ≠ 0)) := by
  have cut : buf.takeWhile (· ≠ 0) = buf.take (buf.findIdx (· == 0)) := by
    rw [List.takeWhile_eq_take_findIdx_not]
    congr 2
    funext b
    simp [beq_eq_decide]
  unfold trimPadding
  split
  · rename_i pos found
    obtain ⟨inside, same⟩ := List.findIdx?_eq_some_iff_findIdx_eq.mp found
    rw [readTo_inside (Nat.le_of_lt inside), cut, same]
  · rename_i absent
    rw [cut, List.findIdx?_eq_none_iff_findIdx_eq.mp absent, List.take_length]

theorem mbcpText_ok : mbcpText buf = .ok (RtcpCompound.mbcpText buf) := by
  rw [mbcpText, trimPadding_ok]
  rfl

theorem slice_window (offset length : Nat) : slice buf offset (offset + length) =
    (buf.drop offset).take length := by
  rw [slice, List.drop_take, Nat.add_sub_cancel_left]

theorem parseMbcpApp_ok : parseMbcpApp buf = .ok (RtcpCompound.parseMbcpApp buf) := by
  unfold parseMbcpApp RtcpCompound.parseMbcpApp
  split
  · rfl
  rw [read_inside (by omega), readRange_inside (by omega) (by omega), read_inside (by omega),
    readU32_inside (by omega), slice_window buf 8 4]
  simp only [ok_bind]
  split
  · rfl
  split
  · rfl
  split
  · rw [readFrom_inside (by omega), ok_bind, mbcpText_ok]
    rfl
  · rfl

theorem blockSsrc_ok (offset : Nat) :
    blockSsrc buf offset = .ok (if offset + 12 ≤ buf.length then u32At buf (offset + 8) else 0) := by
  unfold blockSsrc
  split
  · exact readU32_inside (by omega)
  · rfl

theorem classify_ok (offset : Nat) (fits : offset + RtcpCompound.blockLength buf offset ≤ buf.length)
    (parsed : RtcpCompound.CompoundRtcpParsed) :
    classify buf (RtcpCompound.blockRef buf offset) (byteAt buf offset &&& 0x1F) (byteAt buf (offset + 1))
      parsed = .ok (RtcpCompound.classify buf offset parsed) := by
  have block : readRange buf (RtcpCompound.blockRef buf offset).offset
      ((RtcpCompound.blockRef buf offset).offset + (RtcpCompound.blockRef buf offset).length) =
        .ok (RtcpCompound.slice buf (RtcpCompound.blockRef buf offset)) := by
    refine (readRange_inside (Nat.le_add_right _ _) fits).trans ?_
    rw [slice_window]
    rfl
  unfold classify RtcpCompound.classify
  rw [block]
  simp only [ok_bind, parseMbcpApp_ok]
  split
  · rfl
  split
  · cases RtcpCompound.parseMbcpApp (RtcpCompound.slice buf (RtcpCompound.blockRef buf offset)) with
    | none => rfl
    | some message => rfl
  split
  · rfl
  split
  · rfl
  split <;> rfl

theorem splitFrom_ok (fuel offset : Nat) (parsed : RtcpCompound.CompoundRtcpParsed)
    (enough : buf.length ≤ offset + fuel) :
    splitFrom buf fuel offset parsed = .ok (RtcpCompound.splitFrom buf fuel offset parsed) := by
  induction fuel generalizing offset parsed with
  | zero =>
    have past : ¬ offset + 4 ≤ buf.length := by omega
    rw [splitFrom, if_neg past, RtcpCompound.splitFrom]
  | succ fuel ih =>
    unfold splitFrom RtcpCompound.splitFrom
    split
    · rw [read_inside (by omega), read_inside (by omega), readU16_inside (by omega)]
      simp only [ok_bind, blockSsrc_ok]
      show (if buf.length < offset + RtcpCompound.blockLength buf offset then _ else _) = _
      split
      · rfl
      · rename_i fits
        have taken := classify_ok buf offset (Nat.le_of_not_lt fits) parsed
        rw [RtcpCompound.blockRef] at taken
        refine (congrArg (· >>= _) taken).trans ?_
        have forward : offset + 4 ≤ offset + RtcpCompound.blockLength buf offset := by
          simp only [RtcpCompound.blockLength]
          omega
        exact ih _ _ (by omega)
    · rfl

theorem splitCompoundRtcp_ok : splitCompoundRtcp buf = .ok (RtcpCompound.splitCompoundRtcp buf) :=
  splitFrom_ok buf buf.length 0 _ (by omega)

end Rtcp

def rtpPayloadOffset (p : Bytes) : Checked (Option Nat) :=
  if p.length < 12 then .ok none
  else do
    let first ← read p 0
    let fixed := 12 + (first &&& 0x0F).toNat * 4
    if first &&& 0x10 != 0 then
      if p.length < fixed + 4 then .ok none
      else do
        let words ← readU16 p (fixed + 2)
        let offset := fixed + 4 + words.toNat * 4
        if p.length ≤ offset then .ok none else .ok (some offset)
    else if p.length ≤ fixed then .ok none else .ok (some fixed)

/-- The octets behind the flags of a descriptor; the first of the picture id is read. -/
def pictureIdEnd (p : Bytes) (flags : UInt8) (pos : Nat) : Checked (Option Nat) :=
  if flags &&& 0x80 != 0 then
    if p.length ≤ pos then .ok none
    else do
      let id ← read p pos
      return some (pos + if id &&& 0x80 != 0 then 2 else 1)
  else .ok (some pos)

def vp8DescriptorEnd (p : Bytes) (pd : UInt8) (offset : Nat) : Checked (Option Nat) :=
  if pd &&& 0x80 != 0 then
    if p.length ≤ offset + 1 then .ok none
    else do
      let flags ← read p (offset + 1)
      match ← pictureIdEnd p flags (offset + 2) with
      | none => return none
      | some pos =>
        return some (pos + (if flags &&& 0x40 != 0 then 1 else 0) +
          (if flags &&& 0x20 != 0 || flags &&& 0x10 != 0 then 1 else 0))
  else .ok (some (offset + 1))

def isVp8Keyframe (p : Bytes) : Checked Bool := do
  match ← rtpPayloadOffset p with
  | none => return false
  | some offset =>
    let pd ← read p offset
    if pd &&& 0x10 == 0 then return false
    else
      match ← vp8DescriptorEnd p pd offset with
      | none => return false
      | some frame =>
        if p.length ≤ frame then return false
        else
          let byte ← read p frame
          return byte &&& 0x01 == 0

/-- The STAP-A loop. The type of a unit is read only where a byte is left for it. -/
def stapHasKeyNal (p : Bytes) : Nat → Nat → Checked Bool
  | 0, pos => if pos + 2 < p.length then .error .outOfFuel else .ok false
  | fuel + 1, pos =>
    if pos + 2 < p.length then do
      let size ← readU16 p pos
      let nal ← read p (pos + 2)
      if RtpPacket.keyNalType nal then .ok true
      else if p.length < pos + 2 + size.toNat then .ok false
      else stapHasKeyNal p fuel (pos + 2 + size.toNat)
    else .ok false

def isH264Keyframe (p : Bytes) : Checked Bool := do
  match ← rtpPayloadOffset p with
  | none => return false
  | some offset =>
    let first ← read p offset
    let nalType := first &&& 0x1F
    if nalType == 7 || nalType == 5 then return true
    else if nalType == 24 then stapHasKeyNal p p.length (offset + 1)
    else if nalType == 28 then
      if p.length ≤ offset + 1 then return false
      else
        let fuHeader ← read p (offset + 1)
        return fuHeader &&& 0x80 != 0 && RtpPacket.keyNalType fuHeader
    else return false

def scanElements (buf : Bytes) (extmapId : UInt8) (extDataEnd : Nat) :
    Nat → Nat → Checked (Option UInt16)
  | 0, pos => if pos < extDataEnd then .error .outOfFuel else .ok none
  | fuel + 1, pos =>
    if pos < extDataEnd then do
      let byte ← read buf pos
      if byte = 0 then scanElements buf extmapId extDataEnd fuel (pos + 1)
      else
        let id := (byte >>> 4) &&& 0x0F
        let len := (byte &&& 0x0F).toNat + 1
        if id = 15 then .ok none
        else if extDataEnd < pos + 1 + len then .ok none
        else if id = extmapId ∧ 2 ≤ len then do
          let seq ← readU16 buf (pos + 1)
          return some seq
        else scanElements buf extmapId extDataEnd fuel (pos + 1 + len)
    else .ok none

def parseTwccSeq (buf : Bytes) (extmapId : UInt8) : Checked (Option UInt16) :=
  if buf.length < rtpHeaderMinSize then .ok none
  else do
    let first ← read buf 0
    if !(first &&& 0x10 != 0) then .ok none
    else
      let extOffset := 12 + (first &&& 0x0F).toNat * 4
      if buf.length < extOffset + 4 then .ok none
      else do
        let profile ← readU16 buf extOffset
        let words ← readU16 buf (extOffset + 2)
        if profile ≠ 0xBEDE then .ok none
        else
          let extDataStart := extOffset + 4
          let extDataEnd := extDataStart + words.toNat * 4
          if buf.length < extDataEnd then .ok none
          else scanElements buf extmapId extDataEnd buf.length extDataStart

def buildRtxPacket (original : Bytes) (rtxSsrc : UInt32) (rtxSeq : UInt16) : Checked Bytes :=
  if original.length < rtpHeaderMinSize then .ok []
  else do
    let first ← read original 0
    let headerLen := 12 + (first &&& 0x0F).toNat * 4
    if original.length < headerLen then .ok []
    else do
      let origSeq ← readU16 original 2
      let payload ← readFrom original headerLen
      let header ← readTo original headerLen
      let second ← read original 1
      let retyped ← writeAt header 1 [rtxPtFor (second &&& 0x7F)]
      let numbered ← writeAt retyped 2 (bytes16 rtxSeq)
      let sourced ← writeAt numbered 8 (bytes32 rtxSsrc)
      return sourced ++ bytes16 origSeq ++ payload

section Rtp
variable (p : Bytes)

theorem rtpPayloadOffset_ok : rtpPayloadOffset p = .ok (RtpPacket.rtpPayloadOffset p) := by
  unfold rtpPayloadOffset RtpPacket.rtpPayloadOffset RtpPacket.hasExtension RtpPacket.csrcCount
  split
  · rfl
  rw [read_inside (by omega)]
  simp only [ok_bind]
  split
  · split
    · rfl
    rw [readU16_inside (by omega)]
    simp only [ok_bind]
    split <;> rfl
  · split <;> rfl

theorem vp8DescriptorEnd_ok (offset : Nat) :
    vp8DescriptorEnd p (byteAt p offset) offset = .ok (RtpPacket.vp8DescriptorEnd p offset) := by
  unfold vp8DescriptorEnd RtpPacket.vp8DescriptorEnd
  split
  · split
    · rfl
    rw [read_inside (by omega)]
    simp only [ok_bind, pictureIdEnd]
    split
    · split
      · rfl
      rw [read_inside (by omega)]
      rfl
    · rfl
  · rfl

theorem isVp8Keyframe_ok : isVp8Keyframe p = .ok (RtpPacket.isVp8Keyframe p) := by
  unfold isVp8Keyframe RtpPacket.isVp8Keyframe
  rw [rtpPayloadOffset_ok, ok_bind]
  cases found : RtpPacket.rtpPayloadOffset p with
  | none => rfl
  | some offset =>
    have inside := (RtpPacket.payloadOffset_inside found).2
    simp only [read_inside inside, ok_bind, vp8DescriptorEnd_ok]
    split
    · rfl
    cases RtpPacket.vp8DescriptorEnd p offset with
    | none => rfl
    | some frame =>
      simp only
      split
      · rfl
      rw [read_inside (by omega)]
      rfl

theorem stapHasKeyNal_ok (fuel pos : Nat) (enough : p.length ≤ pos + fuel) :
    stapHasKeyNal p fuel pos = .ok (RtpPacket.stapHasKeyNal p fuel pos) := by
  induction fuel generalizing pos with
  | zero =>
    have past : ¬ pos + 2 < p.length := by omega
    rw [stapHasKeyNal, if_neg past, RtpPacket.stapHasKeyNal]
  | succ fuel ih =>
    unfold stapHasKeyNal RtpPacket.stapHasKeyNal
    split
    · rw [readU16_inside (by omega), read_inside (by omega)]
      simp only [ok_bind]
      split
      · rfl
      split
      · rfl
      · exact ih _ (by omega)
    · rfl

theorem isH264Keyframe_ok : isH264Keyframe p = .ok (RtpPacket.isH264Keyframe p) := by
  unfold isH264Keyframe RtpPacket.isH264Keyframe
  rw [rtpPayloadOffset_ok, ok_bind]
  cases found : RtpPacket.rtpPayloadOffset p with
  | none => rfl
  | some offset =>
    have inside := (RtpPacket.payloadOffset_inside found).2
    simp only [read_inside inside, ok_bind]
    split
    · rfl
    split
    · exact stapHasKeyNal_ok p p.length (offset + 1) (by omega)
    split
    · split
      · rfl
      rw [read_inside (by omega)]
      rfl
    · rfl

theorem scanElements_ok (x : UInt8) {extDataEnd : Nat} (inside : extDataEnd ≤ p.length) (fuel pos : Nat)
    (enough : extDataEnd ≤ pos + fuel) :
    scanElements p x extDataEnd fuel pos = .ok (TwccExtension.scanElements p x extDataEnd fuel pos) := by
  induction fuel generalizing pos with
  | zero =>
    have past : ¬ pos < extDataEnd := by omega
    rw [scanElements, if_neg past, TwccExtension.scanElements]
  | succ fuel ih =>
    unfold scanElements TwccExtension.scanElements
    split
    · rw [read_inside (by omega)]
      simp only [ok_bind]
      split
      · exact ih _ (by omega)
      split
      · rfl
      split
      · rfl
      split
      · rw [readU16_inside (by omega)]
        rfl
      · exact ih _ (by omega)
    · rfl

theorem parseTwccSeq_ok (x : UInt8) : parseTwccSeq p x = .ok (TwccExtension.parseTwccSeq p x) := by
  unfold parseTwccSeq TwccExtension.parseTwccSeq RtpPacket.hasExtension RtpPacket.csrcCount
  split
  · rfl
  rename_i long
  simp only [rtpHeaderMinSize] at long
  rw [read_inside (by omega)]
  simp only [ok_bind]
  split
  · rfl
  split
  · rfl
  rw [readU16_inside (by omega), readU16_inside (by omega)]
  simp only [ok_bind]
  split
  · rfl
  split
  · rfl
  · exact scanElements_ok p x (by omega) _ _ (by omega)

theorem buildRtxPacket_ok (rtxSsrc : UInt32) (rtxSeq : UInt16) :
    buildRtxPacket p rtxSsrc rtxSeq = .ok (RtxPacket.buildRtxPacket p rtxSsrc rtxSeq) := by
  unfold buildRtxPacket RtxPacket.buildRtxPacket RtxPacket.headerEnd RtpPacket.csrcCount
  split
  · rfl
  rename_i long
  simp only [rtpHeaderMinSize] at long
  rw [read_inside (by omega)]
  simp only [ok_bind]
  split
  · rfl
  rename_i fits
  generalize headerLen : 12 + (byteAt p 0 &&& 0x0F).toNat * 4 = n at fits
  have size : (p.take n).length = n := by rw [List.length_take]; omega
  have retyped : 1 + [rtxPtFor (byteAt p 1 &&& 0x7F)].length ≤ (p.take n).length := by
    rw [size, List.length_singleton]
    omega
  have numbered : 2 + (bytes16 rtxSeq).length ≤
      (overwrite (p.take n) 1 [rtxPtFor (byteAt p 1 &&& 0x7F)]).length := by
    rw [length_overwrite retyped, size, length_bytes16]
    omega
  have sourced : 8 + (bytes32 rtxSsrc).length ≤
      (overwrite (overwrite (p.take n) 1 [rtxPtFor (byteAt p 1 &&& 0x7F)]) 2 (bytes16 rtxSeq)).length := by
    rw [length_overwrite numbered, length_overwrite retyped, size, length_bytes32]
    omega
  rw [readU16_inside (by omega), readFrom_inside (by omega), readTo_inside (by omega),
    read_inside (by omega)]
  simp only [ok_bind, writeAt_inside retyped, writeAt_inside numbered, writeAt_inside sourced]
  rfl

end Rtp

def parseAttributes (buf : Bytes) (total : Nat) : Nat → Nat → Checked (List StunMessages.StunAttribute)
  | 0, offset => if offset + 4 ≤ total then .error .outOfFuel else .ok []
  | fuel + 1, offset =>
    if offset + 4 ≤ total then do
      let attrType ← readU16 buf offset
      let attrLen ← readU16 buf (offset + 2)
      if total < offset + 4 + attrLen.toNat then .ok []
      else do
        let value ← readRange buf (offset + 4) (offset + 4 + attrLen.toNat)
        let rest ← parseAttributes buf total fuel (offset + 4 + StunMessages.padded attrLen.toNat)
        return ⟨attrType, value⟩ :: rest
    else .ok []

def parseStun (buf : Bytes) : Checked (Option StunMessages.StunMessage) :=
  if buf.length < StunMessages.headerSize then .ok none
  else do
    let first ← read buf 0
    if first &&& 0xC0 ≠ 0 then .ok none
    else do
      let msgType ← readU16 buf 0
      let length ← readU16 buf 2
      let cookie ← readU32 buf 4
      if cookie ≠ StunMessages.magicCookie then .ok none
      else if length.toNat % 4 ≠ 0 then .ok none
      else
        let total := StunMessages.headerSize + length.toNat
        if buf.length < total then .ok none
        else do
          let transactionId ← readRange buf 8 20
          let attributes ← parseAttributes buf total total StunMessages.headerSize
          let raw ← readTo buf total
          return some ⟨msgType, length, transactionId, attributes, raw⟩

def findAttrOffset (raw : Bytes) (targetType : UInt16) : Nat → Nat → Checked (Option Nat)
  | 0, offset => if offset + 4 ≤ raw.length then .error .outOfFuel else .ok none
  | fuel + 1, offset =>
    if offset + 4 ≤ raw.length then do
      let attrType ← readU16 raw offset
      if attrType = targetType then .ok (some offset)
      else do
        let attrLen ← readU16 raw (offset + 2)
        findAttrOffset raw targetType fuel (offset + (4 + StunMessages.padded attrLen.toNat))
    else .ok none

section Stun
variable (hmacSha1 : Bytes → Bytes → Bytes)

def verifyMessageIntegrity (msg : StunMessages.StunMessage) (key : Bytes) : Checked Bool :=
  match msg.messageIntegrity with
  | none => .ok false
  | some received => do
    match ← findAttrOffset msg.raw StunMessages.attrMessageIntegrity msg.raw.length
        StunMessages.headerSize with
    | none => return false
    | some offset =>
      let tmp ← readTo msg.raw offset
      let attributes ← sub offset StunMessages.headerSize
      let covered ← writeAt tmp 2 (bytes16 (UInt16.ofNat (attributes + 24)))
      let expected := hmacSha1 covered key
      return expected.length == received.length && (expected.zip received).all fun (a, b) => a == b

/-- The parser and, on what it accepts, the integrity check. -/
def authenticate (buf key : Bytes) : Checked (Option Bool) := do
  match ← parseStun buf with
  | none => return none
  | some msg =>
    let valid ← verifyMessageIntegrity hmacSha1 msg key
    return some valid

theorem parseAttributes_ok {buf : Bytes} {total : Nat} (inside : total ≤ buf.length) (fuel offset : Nat)
    (enough : total ≤ offset + fuel) :
    parseAttributes buf total fuel offset = .ok (StunMessages.parseAttributes buf total fuel offset) := by
  induction fuel generalizing offset with
  | zero =>
    have past : ¬ offset + 4 ≤ total := by omega
    rw [parseAttributes, if_neg past, StunMessages.parseAttributes]
  | succ fuel ih =>
    unfold parseAttributes StunMessages.parseAttributes
    split
    · rw [readU16_inside (by omega), readU16_inside (by omega)]
      simp only [ok_bind]
      split
      · rfl
      rw [readRange_inside (by omega) (by omega), ih _ (by omega)]
      rfl
    · rfl

theorem parseStun_ok (buf : Bytes) : parseStun buf = .ok (StunMessages.parse buf) := by
  unfold parseStun StunMessages.parse
  split
  · rfl
  rename_i long
  have header : StunMessages.headerSize = 20 := rfl
  rw [read_inside (by omega), readU16_inside (by omega), readU16_inside (by omega),
    readU32_inside (by omega)]
  simp only [ok_bind]
  split
  · rfl
  split
  · rfl
  split
  · rfl
  split
  · rfl
  rw [readRange_inside (by omega) (by omega), parseAttributes_ok (by omega) _ _ (by omega),
    readTo_inside (by omega)]
  rfl

theorem findAttrOffset_ok (raw : Bytes) (target : UInt16) (fuel offset : Nat)
    (enough : raw.length ≤ offset + fuel) :
    findAttrOffset raw target fuel offset = .ok (StunMessages.findAttrOffset raw target fuel offset) := by
  induction fuel generalizing offset with
  | zero =>
    have past : ¬ offset + 4 ≤ raw.length := by omega
    rw [findAttrOffset, if_neg past, StunMessages.findAttrOffset]
  | succ fuel ih =>
    unfold findAttrOffset StunMessages.findAttrOffset
    split
    · rw [readU16_inside (by omega), readU16_inside (by omega)]
      simp only [ok_bind]
      split
      · rfl
      · exact ih _ (by omega)
    · rfl

/-- An attribute is found behind the place where the walk starts, inside the message. -/
theorem findAttrOffset_inside {raw : Bytes} {target : UInt16} {fuel start offset : Nat}
    (found : StunMessages.findAttrOffset raw target fuel start = some offset) :
    start ≤ offset ∧ offset + 4 ≤ raw.length := by
  induction fuel generalizing start with
  | zero => simp [StunMessages.findAttrOffset] at found
  | succ fuel ih =>
    unfold StunMessages.findAttrOffset at found
    split at found
    · split at found
      · rw [Option.some.injEq] at found
        omega
      · have later := ih found
        omega
    · simp at found

theorem verifyMessageIntegrity_ok (msg : StunMessages.StunMessage) (key : Bytes) :
    verifyMessageIntegrity hmacSha1 msg key =
      .ok (StunMessages.verifyMessageIntegrity hmacSha1 msg key) := by
  unfold verifyMessageIntegrity StunMessages.verifyMessageIntegrity
  cases msg.messageIntegrity with
  | none => rfl
  | some received =>
    simp only [findAttrOffset_ok _ _ _ _ (Nat.le_add_left _ _), ok_bind]
    cases found : StunMessages.findAttrOffset msg.raw StunMessages.attrMessageIntegrity msg.raw.length
        StunMessages.headerSize with
    | none => rfl
    | some offset =>
      obtain ⟨behind, inside⟩ := findAttrOffset_inside found
      have covered : 2 + (bytes16 (UInt16.ofNat (offset - StunMessages.headerSize + 24))).length ≤
          (msg.raw.take offset).length := by
        rw [length_bytes16, List.length_take]
        simp only [StunMessages.headerSize] at behind
        omega
      simp only [readTo_inside (show offset ≤ msg.raw.length by omega), sub_above behind, ok_bind,
        writeAt_inside covered]
      rfl

theorem authenticate_ok (buf key : Bytes) : authenticate hmacSha1 buf key =
    .ok ((StunMessages.parse buf).map (StunMessages.verifyMessageIntegrity hmacSha1 · key)) := by
  rw [authenticate, parseStun_ok, ok_bind]
  cases StunMessages.parse buf with
  | none => rfl
  | some msg =>
    simp only [verifyMessageIntegrity_ok, ok_bind]
    rfl

end Stun

/-- Every parser returns on every byte string, without a fault: it reads and slices inside
    its buffer only, and its loops end. -/
structure Safe (buf : Bytes) : Prop where
  rtcpNack : parseRtcpNack buf = .ok (Ingress.parseRtcpNack buf)
  compoundRtcp : splitCompoundRtcp buf = .ok (RtcpCompound.splitCompoundRtcp buf)
  payloadOffset : rtpPayloadOffset buf = .ok (RtpPacket.rtpPayloadOffset buf)
  vp8Keyframe : isVp8Keyframe buf = .ok (RtpPacket.isVp8Keyframe buf)
  h264Keyframe : isH264Keyframe buf = .ok (RtpPacket.isH264Keyframe buf)
  twccSeq : ∀ extmapId, parseTwccSeq buf extmapId = .ok (TwccExtension.parseTwccSeq buf extmapId)
  stun : ∀ hmacSha1 key, authenticate hmacSha1 buf key =
    .ok ((StunMessages.parse buf).map (StunMessages.verifyMessageIntegrity hmacSha1 · key))
  rtxPacket : ∀ rtxSsrc rtxSeq,
    buildRtxPacket buf rtxSsrc rtxSeq = .ok (RtxPacket.buildRtxPacket buf rtxSsrc rtxSeq)

theorem parsers_safe (buf : Bytes) : Safe buf where
  rtcpNack := parseRtcpNack_ok buf
  compoundRtcp := splitCompoundRtcp_ok buf
  payloadOffset := rtpPayloadOffset_ok buf
  vp8Keyframe := isVp8Keyframe_ok buf
  h264Keyframe := isH264Keyframe_ok buf
  twccSeq := parseTwccSeq_ok buf
  stun := fun hmacSha1 key => authenticate_ok hmacSha1 buf key
  rtxPacket := buildRtxPacket_ok buf

end ParserSafety
