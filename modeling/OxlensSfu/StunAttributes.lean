import OxlensSfu.BindingResponse

/- A message of any type and any attributes is read back from what was written. -/
namespace StunAttributes
open WireBytes StunMessages BindingResponse

/-- A header with an empty length field. -/
def header (msgType : UInt16) (transactionId : Vector UInt8 12) : Bytes :=
  bytes16 msgType ++ bytes16 0 ++ bytes32 magicCookie ++ transactionId.toList

/-- Each attribute in turn behind the header. -/
def written (msgType : UInt16) (transactionId : Vector UInt8 12) (attributes : List StunAttribute) :
    Bytes :=
  attributes.foldl (fun buf a => writeAttr buf a.attrType a.value) (header msgType transactionId)

/-- The written message, its length field counting the bytes after the header. -/
def datagram (msgType : UInt16) (transactionId : Vector UInt8 12) (attributes : List StunAttribute) :
    Bytes :=
  let buf := written msgType transactionId attributes
  setLength buf (buf.length - headerSize)

section Datagram
variable (msgType : UInt16) (transactionId : Vector UInt8 12) (attributes : List StunAttribute)

theorem writes (buf : Bytes) :
    attributes.foldl (fun buf a => writeAttr buf a.attrType a.value) buf =
      buf ++ attributes.flatMap attributeBytes := by
  induction attributes generalizing buf with
  | nil => simp
  | cons a rest ih => rw [List.foldl_cons, ih, writeAttr_eq, List.flatMap_cons, List.append_assoc]

theorem written_length : (written msgType transactionId attributes).length = 20 + size attributes := by
  simp only [written, writes, header, List.length_append, length_bytes16, length_bytes32,
    Vector.length_toList, size]

theorem datagram_eq : datagram msgType transactionId attributes =
    bytes16 msgType ++ bytes16 (UInt16.ofNat (size attributes)) ++ bytes32 magicCookie ++
      transactionId.toList ++ attributes.flatMap attributeBytes := by
  rw [datagram, written_length, headerSize, Nat.add_sub_cancel_left, written, writes]
  simp only [setLength, overwrite, header, bytes16, List.cons_append, List.nil_append,
    List.take_succ_cons, List.take_zero, List.length_cons, List.length_nil, List.drop_succ_cons,
    List.drop_zero]

theorem datagram_length : (datagram msgType transactionId attributes).length = 20 + size attributes := by
  simp only [datagram_eq, List.length_append, length_bytes16, length_bytes32, Vector.length_toList, size]

end Datagram

theorem slice_append_left {p q : Bytes} {i j : Nat} (inside : j ≤ p.length) :
    slice (p ++ q) i j = slice p i j := by
  rw [slice, List.take_append_of_le_length inside, slice]

/-- The attribute loop reads nothing behind the declared length. -/
theorem parseAttributes_append (buf trailing : Bytes) (fuel offset : Nat) :
    parseAttributes (buf ++ trailing) buf.length fuel offset =
      parseAttributes buf buf.length fuel offset := by
  induction fuel generalizing offset with
  | zero => rfl
  | succ fuel ih =>
    unfold parseAttributes
    split
    · rename_i room
      simp only [u16At_append_left (show offset + 2 + 2 ≤ buf.length by omega),
        u16At_append_left (show offset + 2 ≤ buf.length by omega), ih]
      split
      · rfl
      · rename_i fits
        rw [slice_append_left (Nat.le_of_not_lt fits)]
    · rfl

theorem value_short {attributes : List StunAttribute} (fits : size attributes < 65536) :
    ∀ a ∈ attributes, a.value.length < 65536 := by
  induction attributes with
  | nil => simp
  | cons b rest ih =>
    rw [size_cons] at fits
    have inside : b.value.length ≤ padded b.value.length := by
      simp only [padded]
      omega
    intro a member
    rcases List.mem_cons.mp member with rfl | later
    · omega
    · exact ih (by omega) a later

/-- The two top bits of a message type below 0x4000 are clear. -/
theorem type_bits {msgType : UInt16} (proper : msgType < 0x4000) :
    UInt8.ofNat (msgType.toNat / 256) &&& 0xC0 = 0 := by
  have small : ∀ n < 64, UInt8.ofNat n &&& 0xC0 = 0 := by decide
  have bound : msgType.toNat < 0x4000 := proper
  exact small _ (by omega)

/-- Type, id, attributes in order and the message itself come back; trailing bytes do not. -/
theorem parse_datagram (msgType : UInt16) (proper : msgType < 0x4000) (transactionId : Vector UInt8 12)
    (attributes : List StunAttribute) (fits : size attributes < 65536) (trailing : Bytes) :
    parse (datagram msgType transactionId attributes ++ trailing) =
      some ⟨msgType, UInt16.ofNat (size attributes), transactionId.toList, attributes,
        datagram msgType transactionId attributes⟩ := by
  have length := datagram_length msgType transactionId attributes
  have shape := datagram_eq msgType transactionId attributes
  obtain ⟨first, type, field, cookie, id⟩ := header_fields msgType (UInt16.ofNat (size attributes))
    (Vector.length_toList) (attributes.flatMap attributeBytes ++ trailing)
  rw [← List.append_assoc, ← shape] at first type field cookie id
  have words := size_words attributes
  have count : (UInt16.ofNat (size attributes)).toNat = size attributes := by
    rw [UInt16.toNat_ofNat']
    omega
  have listed := parseAttributes_written (value_short fits) shape
    (show attributes.length ≤ headerSize + size attributes by
      have := attributes_le_size attributes
      omega)
  have opening : (bytes16 msgType ++ bytes16 (UInt16.ofNat (size attributes)) ++ bytes32 magicCookie ++
      transactionId.toList).length = headerSize := by
    simp only [List.length_append, length_bytes16, length_bytes32, Vector.length_toList, headerSize]
  rw [opening, ← parseAttributes_append _ trailing, length] at listed
  unfold parse
  rw [if_neg (by rw [List.length_append, length, headerSize]; omega), first, if_neg (by simp [type_bits proper]),
    cookie, if_neg (by simp), field]
  simp only [count]
  rw [if_neg (by omega), if_neg (by rw [List.length_append, length, headerSize]; omega), type, id,
    List.take_append_of_le_length (by rw [length, headerSize]),
    List.take_of_length_le (by rw [length, headerSize])]
  simp only [headerSize] at listed ⊢
  rw [listed]

/-- An empty value, a padded one at the end, and two bytes behind the message. -/
theorem parse_datagram_padded :
    let attributes : List StunAttribute := [⟨attrUseCandidate, []⟩, ⟨attrSoftware, [1, 2, 3]⟩]
    let message := datagram 0x3FFF (Vector.replicate 12 7) attributes
    parse (message ++ [9, 9]) =
      some ⟨0x3FFF, UInt16.ofNat (size attributes), (Vector.replicate 12 (7 : UInt8)).toList, attributes,
        message⟩ :=
  parse_datagram 0x3FFF (by decide) (Vector.replicate 12 7) _ (by decide) [9, 9]

end StunAttributes
