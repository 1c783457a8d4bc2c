import OxlensSfu.RtpPacket

/- RTP packets by their parts: fixed header, CSRC list, extension block, payload. -/
namespace RtpLayout
open WireBytes RtpPacket

/-- A profile and whole words of data, counted in 16 bits. -/
structure ExtensionBlock where
  profile : UInt16
  data : Bytes
  words : data.length % 4 = 0
  fits : data.length / 4 < 65536

def ExtensionBlock.bytes (e : ExtensionBlock) : Bytes :=
  bytes16 e.profile ++ bytes16 (UInt16.ofNat (e.data.length / 4)) ++ e.data

/-- A complete RTP header. -/
structure CompleteHeader where
  fixed : Bytes
  csrcs : Bytes
  extension : Option ExtensionBlock
  fixed_length : fixed.length = 12
  csrcs_length : csrcs.length = csrcCount fixed * 4
  x_bit : hasExtension fixed = extension.isSome

def CompleteHeader.bytes (h : CompleteHeader) : Bytes :=
  h.fixed ++ h.csrcs ++ match h.extension with
    | none => []
    | some e => e.bytes

theorem take_slice (p : Bytes) {i j : Nat} (order : i ≤ j) : p.take i ++ slice p i j = p.take j := by
  have front : p.take i = (p.take j).take i := by rw [List.take_take, Nat.min_eq_left order]
  rw [slice, front, List.take_append_drop]

theorem length_slice {p : Bytes} {i j : Nat} (inside : j ≤ p.length) : (slice p i j).length = j - i := by
  rw [slice, List.length_drop, List.length_take, Nat.min_eq_left inside]

theorem ExtensionBlock.words_toNat (e : ExtensionBlock) :
    (UInt16.ofNat (e.data.length / 4)).toNat * 4 = e.data.length := by
  have whole := e.words
  have small := e.fits
  rw [UInt16.toNat_ofNat']
  omega

theorem ExtensionBlock.bytes_length (e : ExtensionBlock) : e.bytes.length = 4 + e.data.length := by
  simp only [ExtensionBlock.bytes, List.length_append, length_bytes16]

namespace CompleteHeader
variable (h : CompleteHeader)

theorem fixed_le : 12 ≤ h.bytes.length := by
  simp only [CompleteHeader.bytes, List.length_append, h.fixed_length]
  omega

theorem byteAt_zero (rest : Bytes) : byteAt (h.bytes ++ rest) 0 = byteAt h.fixed 0 := by
  have len := h.fixed_length
  rw [CompleteHeader.bytes, List.append_assoc, List.append_assoc, byteAt_append_left (by omega)]

theorem csrcCount_bytes (rest : Bytes) : csrcCount (h.bytes ++ rest) = csrcCount h.fixed := by
  rw [csrcCount, h.byteAt_zero, csrcCount]

theorem hasExtension_bytes (rest : Bytes) :
    hasExtension (h.bytes ++ rest) = h.extension.isSome := by
  rw [hasExtension, h.byteAt_zero, ← hasExtension, h.x_bit]

theorem front_length : (h.fixed ++ h.csrcs).length = 12 + csrcCount h.fixed * 4 := by
  rw [List.length_append, h.fixed_length, h.csrcs_length]

theorem bytes_extended {e : ExtensionBlock} (extended : h.extension = some e) (rest : Bytes) :
    h.bytes ++ rest = (h.fixed ++ h.csrcs) ++ (bytes16 e.profile ++
      (bytes16 (UInt16.ofNat (e.data.length / 4)) ++ (e.data ++ rest))) := by
  simp only [CompleteHeader.bytes, extended, ExtensionBlock.bytes, List.append_assoc]

theorem extension_profile {e : ExtensionBlock} (extended : h.extension = some e) (rest : Bytes) :
    u16At (h.bytes ++ rest) (12 + csrcCount h.fixed * 4) = e.profile := by
  have before : 12 + csrcCount h.fixed * 4 = (h.fixed ++ h.csrcs).length + 0 := by rw [front_length]; rfl
  rw [h.bytes_extended extended, before, u16At_append_right, u16At_bytes16]

/-- The word count of the extension block, where the parsers read it. -/
theorem extension_words {e : ExtensionBlock} (extended : h.extension = some e) (rest : Bytes) :
    u16At (h.bytes ++ rest) (12 + csrcCount h.fixed * 4 + 2) = UInt16.ofNat (e.data.length / 4) := by
  have before : 12 + csrcCount h.fixed * 4 + 2 =
      (h.fixed ++ h.csrcs ++ bytes16 e.profile).length + 0 := by
    rw [List.length_append, front_length, length_bytes16]
  rw [h.bytes_extended extended, ← List.append_assoc, before, u16At_append_right, u16At_bytes16]

theorem bytes_length : h.bytes.length = 12 + csrcCount h.fixed * 4 +
    match h.extension with
    | none => 0
    | some e => e.bytes.length := by
  rw [CompleteHeader.bytes, List.length_append, front_length]
  cases h.extension <;> rfl

/-- A payload of at least one byte starts where the header ends. -/
theorem payloadOffset {payload : Bytes} (filled : payload ≠ []) :
    rtpPayloadOffset (h.bytes ++ payload) = some h.bytes.length := by
  have long := List.length_pos_iff.mpr filled
  have total := h.bytes_length
  have extended := h.hasExtension_bytes payload
  cases kind : h.extension with
  | none =>
    simp only [kind] at total extended
    refine (payloadOffset_plain extended _).mpr ?_
    rw [csrcCount_bytes, List.length_append]
    omega
  | some e =>
    simp only [kind] at total extended
    refine (payloadOffset_extended extended _).mpr ?_
    rw [csrcCount_bytes, h.extension_words kind, e.words_toNat, List.length_append, total, e.bytes_length]
    omega

end CompleteHeader

theorem byteAt_take_twelve (p : Bytes) : byteAt (p.take 12) 0 = byteAt p 0 := byteAt_take (by omega)

/-- The bytes from a profile to the end that its word count names are an extension block. -/
theorem exists_extension {p : Bytes} {base o : Nat} (inside : o < p.length)
    (start : o = base + 4 + (u16At p (base + 2)).toNat * 4) :
    ∃ e : ExtensionBlock, p.take base ++ e.bytes = p.take o := by
  have size : (slice p (base + 4) o).length = (u16At p (base + 2)).toNat * 4 := by
    rw [length_slice (by omega)]
    omega
  have small := (u16At p (base + 2)).toNat_lt
  let e : ExtensionBlock := ⟨u16At p base, slice p (base + 4) o, by omega, by omega⟩
  have words : UInt16.ofNat (e.data.length / 4) = u16At p (base + 2) := by
    rw [show e.data.length / 4 = (u16At p (base + 2)).toNat by simp only [e]; omega]
    exact UInt16.ofNat_toNat
  refine ⟨e, ?_⟩
  rw [ExtensionBlock.bytes, words, ← slice_two (by omega), ← slice_two (by omega), ← List.append_assoc,
    ← List.append_assoc, take_slice p (by omega), take_slice p (by omega), take_slice p (by omega)]

theorem exists_header {p : Bytes} {o : Nat} (found : rtpPayloadOffset p = some o) :
    ∃ h : CompleteHeader, h.bytes = p.take o := by
  have inside := payloadOffset_inside found
  let fixed := p.take 12
  let csrcs := slice p 12 (12 + csrcCount p * 4)
  have twelve : fixed.length = 12 := by simp only [fixed, List.length_take]; omega
  have counted : csrcs.length = csrcCount fixed * 4 := by
    rw [csrcCount, byteAt_take_twelve, ← csrcCount, length_slice (by omega)]
    omega
  have front : fixed ++ csrcs = p.take (12 + csrcCount p * 4) := take_slice p (by omega)
  have bit : hasExtension fixed = hasExtension p := by
    rw [hasExtension, byteAt_take_twelve, ← hasExtension]
  cases extended : hasExtension p with
  | false =>
    obtain ⟨start, _⟩ := (payloadOffset_plain extended o).mp found
    refine ⟨⟨fixed, csrcs, none, twelve, counted, bit.trans extended⟩, ?_⟩
    rw [CompleteHeader.bytes, List.append_nil, front, start]
  | true =>
    obtain ⟨start, _⟩ := (payloadOffset_extended extended o).mp found
    obtain ⟨e, taken⟩ := exists_extension inside.2 start
    refine ⟨⟨fixed, csrcs, some e, twelve, counted, bit.trans extended⟩, ?_⟩
    rw [CompleteHeader.bytes, front, taken]

/-- Every payload that the offset finds stands behind a complete header. -/
theorem complete_of_payloadOffset {p : Bytes} {o : Nat} (found : rtpPayloadOffset p = some o) :
    ∃ (h : CompleteHeader) (payload : Bytes), payload ≠ [] ∧ p = h.bytes ++ payload ∧
      o = h.bytes.length := by
  obtain ⟨h, taken⟩ := exists_header found
  have inside := (payloadOffset_inside found).2
  have rest : p.drop o ≠ [] := by
    rw [← List.length_pos_iff, List.length_drop]
    omega
  refine ⟨h, p.drop o, rest, ?_, ?_⟩
  · rw [taken, List.take_append_drop]
  · rw [taken, List.length_take]
    omega

end RtpLayout
