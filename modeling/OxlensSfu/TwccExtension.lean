import OxlensSfu.RtpLayout

/- The transport-wide sequence number in the one-byte header extension. -/
namespace TwccExtension
open WireBytes SfuConfig RtpPacket RtpLayout

/-- The element loop. Every round advances by at least one byte. -/
def scanElements (buf : Bytes) (extmapId : UInt8) (extDataEnd : Nat) : Nat → Nat → Option UInt16
  | 0, _ => none
  | fuel + 1, pos =>
    if pos < extDataEnd then
      let byte := byteAt buf pos
      if byte = 0 then scanElements buf extmapId extDataEnd fuel (pos + 1)
      else
        let id := (byte >>> 4) &&& 0x0F
        let len := (byte &&& 0x0F).toNat + 1
        if id = 15 then none
        else if extDataEnd < pos + 1 + len then none
        else if id = extmapId ∧ 2 ≤ len then some (u16At buf (pos + 1))
        else scanElements buf extmapId extDataEnd fuel (pos + 1 + len)
    else none

def parseTwccSeq (buf : Bytes) (extmapId : UInt8) : Option UInt16 :=
  if buf.length < rtpHeaderMinSize then none
  else if !hasExtension buf then none
  else
    let extOffset := 12 + csrcCount buf * 4
    if buf.length < extOffset + 4 then none
    else if u16At buf extOffset ≠ 0xBEDE then none
    else
      let extDataStart := extOffset + 4
      let extDataEnd := extDataStart + (u16At buf (extOffset + 2)).toNat * 4
      if buf.length < extDataEnd then none
      else scanElements buf extmapId extDataEnd buf.length extDataStart

structure Element where
  id : UInt8
  data : Bytes
  id_range : 1 ≤ id.toNat ∧ id.toNat ≤ 14
  size : 1 ≤ data.length ∧ data.length ≤ 16

/-- The id above the number of data bytes less one. -/
def Element.header (e : Element) : UInt8 := UInt8.ofNat (16 * e.id.toNat + (e.data.length - 1))

inductive Item where
  | padding
  | element (e : Element)

def Item.bytes : Item → Bytes
  | .padding => [0]
  | .element e => e.header :: e.data

/-- An id of 15 ends the elements; what fills the block behind it is never read. -/
structure Terminator where
  byte : UInt8
  fill : Bytes
  id : byte >>> 4 &&& 0x0F = 15

def endingBytes : Option Terminator → Bytes
  | none => []
  | some t => t.byte :: t.fill

/-- The data of a block in the one-byte form. -/
structure Block where
  items : List Item
  ending : Option Terminator
  words : (items.flatMap Item.bytes ++ endingBytes ending).length % 4 = 0
  fits : (items.flatMap Item.bytes ++ endingBytes ending).length / 4 < 65536

/-- A header with such a block. -/
structure OneByteHeader where
  fixed : Bytes
  csrcs : Bytes
  block : Block
  fixed_length : fixed.length = 12
  csrcs_length : csrcs.length = csrcCount fixed * 4
  x_bit : hasExtension fixed = true

def Block.data (b : Block) : Bytes := b.items.flatMap Item.bytes ++ endingBytes b.ending

def Block.extension (b : Block) : ExtensionBlock := ⟨0xBEDE, b.data, b.words, b.fits⟩

def OneByteHeader.complete (h : OneByteHeader) : CompleteHeader where
  fixed := h.fixed
  csrcs := h.csrcs
  extension := some h.block.extension
  fixed_length := h.fixed_length
  csrcs_length := h.csrcs_length
  x_bit := h.x_bit

/-- The number that an item holds for an id: its first two data bytes. -/
def Item.seqFor (x : UInt8) : Item → Option UInt16
  | .padding => none
  | .element e => if e.id = x ∧ 2 ≤ e.data.length then some (u16At e.data 0) else none

def firstSeq (x : UInt8) (items : List Item) : Option UInt16 := items.findSome? (Item.seqFor x)

namespace Element
variable (e : Element)

theorem header_toNat : e.header.toNat = 16 * e.id.toNat + (e.data.length - 1) := by
  have range := e.id_range
  have size := e.size
  simp only [Element.header, UInt8.toNat_ofNat']
  omega

theorem header_ne_zero : e.header ≠ 0 := by
  have range := e.id_range
  have value := e.header_toNat
  intro zero
  rw [zero] at value
  simp only [UInt8.reduceToNat] at value
  omega

theorem header_id : e.header >>> 4 &&& 0x0F = e.id := by
  have range := e.id_range
  have size := e.size
  apply UInt8.toNat_inj.mp
  rw [UInt8.toNat_and, UInt8.toNat_shiftRight, header_toNat]
  show _ >>> 4 &&& (2 ^ 4 - 1) = _
  rw [Nat.and_two_pow_sub_one_eq_mod, Nat.shiftRight_eq_div_pow]
  omega

theorem header_len : (e.header &&& 0x0F).toNat + 1 = e.data.length := by
  have size := e.size
  rw [UInt8.toNat_and, header_toNat]
  show (_ &&& (2 ^ 4 - 1)) + 1 = _
  rw [Nat.and_two_pow_sub_one_eq_mod]
  omega

theorem id_ne_terminator : e.id ≠ 15 := by
  have range := e.id_range
  rintro terminator
  rw [terminator] at range
  exact absurd range.2 (by decide)

end Element

theorem Terminator.byte_ne_zero (t : Terminator) : t.byte ≠ 0 := by
  intro zero
  have id := t.id
  rw [zero] at id
  exact absurd id (by decide)

section Scan
variable (front rest : Bytes) (x : UInt8) (extDataEnd : Nat)

theorem scan_padding (inside : front.length < extDataEnd) (fuel : Nat) :
    scanElements (front ++ 0 :: rest) x extDataEnd (fuel + 1) front.length =
      scanElements (front ++ 0 :: rest) x extDataEnd fuel (front ++ [(0 : UInt8)]).length := by
  have byte : byteAt (front ++ 0 :: rest) front.length = 0 := byteAt_behind front (0 :: rest) 0
  rw [scanElements, if_pos inside]
  simp [byte]

theorem scan_terminator (t : Terminator) (fuel : Nat) :
    scanElements (front ++ t.byte :: rest) x extDataEnd fuel front.length = none := by
  have byte : byteAt (front ++ t.byte :: rest) front.length = t.byte :=
    byteAt_behind front (t.byte :: rest) 0
  cases fuel with
  | zero => rfl
  | succ fuel =>
    rw [scanElements, byte]
    simp only [if_neg t.byte_ne_zero, t.id, if_true, ite_self]

/-- An element is taken, or passed over with all its data. -/
theorem scan_element (e : Element) (inside : (front ++ e.header :: e.data).length ≤ extDataEnd)
    (fuel : Nat) :
    scanElements (front ++ (e.header :: e.data ++ rest)) x extDataEnd (fuel + 1) front.length =
      (Item.seqFor x (.element e)).or
        (scanElements (front ++ (e.header :: e.data ++ rest)) x extDataEnd fuel
          (front ++ e.header :: e.data).length) := by
  have byte : byteAt (front ++ (e.header :: e.data ++ rest)) front.length = e.header :=
    byteAt_behind front (e.header :: e.data ++ rest) 0
  have next : front.length + 1 + e.data.length = (front ++ e.header :: e.data).length := by
    simp only [List.length_append, List.length_cons]
    omega
  have started : front.length < extDataEnd := by
    rw [← next] at inside
    omega
  have number : 2 ≤ e.data.length →
      u16At (front ++ (e.header :: e.data ++ rest)) (front.length + 1) = u16At e.data 0 := by
    intro long
    have parts : front ++ (e.header :: e.data ++ rest) = (front ++ [e.header]) ++ (e.data ++ rest) := by simp
    have start : front.length + 1 = (front ++ [e.header]).length + 0 := by simp
    rw [parts, start, u16At_append_right, u16At_append_left (by omega)]
  rw [scanElements, if_pos started, byte]
  simp only [if_neg e.header_ne_zero, e.header_id, if_neg e.id_ne_terminator, e.header_len, next,
    if_neg (Nat.not_lt.mpr inside), Item.seqFor]
  split
  · rename_i wanted
    rw [number wanted.2, Option.some_or]
  · rw [Option.none_or]

end Scan

/-- The walk over a block finds what its list of items holds. -/
theorem scan_items (x : UInt8) (ending : Option Terminator) (payload : Bytes) (items : List Item)
    (front : Bytes) (fuel : Nat) (enough : items.length ≤ fuel) :
    scanElements (front ++ (items.flatMap Item.bytes ++ (endingBytes ending ++ payload))) x
      (front.length + (items.flatMap Item.bytes ++ endingBytes ending).length) fuel front.length =
        firstSeq x items := by
  induction items generalizing front fuel with
  | nil =>
    cases ending with
    | some t => exact scan_terminator front (t.fill ++ payload) x _ t fuel
    | none =>
      cases fuel with
      | zero => rfl
      | succ fuel =>
        simp [scanElements, endingBytes, firstSeq]
  | cons item items ih =>
    obtain ⟨fuel, rfl⟩ : ∃ k, fuel = k + 1 := ⟨fuel - 1, by simp only [List.length_cons] at enough; omega⟩
    have rest := ih (front ++ item.bytes) fuel (by simpa using enough)
    have extDataEnd : (front ++ item.bytes).length +
        (items.flatMap Item.bytes ++ endingBytes ending).length =
          front.length + ((item :: items).flatMap Item.bytes ++ endingBytes ending).length := by
      simp only [List.flatMap_cons, List.length_append]
      omega
    have inside : (front ++ item.bytes).length ≤
        front.length + ((item :: items).flatMap Item.bytes ++ endingBytes ending).length := by
      rw [← extDataEnd]
      omega
    rw [extDataEnd, List.append_assoc] at rest
    rw [firstSeq, List.findSome?_cons, ← firstSeq, ← rest]
    generalize front.length + ((item :: items).flatMap Item.bytes ++ endingBytes ending).length = last
      at inside
    rw [List.flatMap_cons, List.append_assoc]
    cases item with
    | padding =>
      have started : front.length < last := by
        simp only [Item.bytes, List.length_append, List.length_singleton] at inside
        omega
      exact scan_padding front _ x last started fuel
    | element e =>
      rw [Item.bytes, scan_element front _ x last e inside fuel]
      cases Item.seqFor x (.element e) <;> rfl

theorem items_le_bytes (items : List Item) : items.length ≤ (items.flatMap Item.bytes).length := by
  induction items with
  | nil => simp
  | cons item items ih =>
    have filled : 1 ≤ item.bytes.length := by cases item <;> simp [Item.bytes]
    rw [List.flatMap_cons, List.length_append, List.length_cons]
    omega

namespace OneByteHeader
variable (h : OneByteHeader) (payload : Bytes)

theorem block_extension : h.complete.extension = some h.block.extension := rfl

/-- The word count of the block, where the parser reads it. -/
theorem words_read : (u16At (h.complete.bytes ++ payload) (12 + csrcCount h.fixed * 4 + 2)).toNat * 4 =
    h.block.data.length := by
  have field := h.complete.extension_words h.block_extension payload
  exact (congrArg (fun words => words.toNat * 4) field).trans h.block.extension.words_toNat

theorem length_bytes : (h.complete.bytes ++ payload).length =
    12 + csrcCount h.fixed * 4 + 4 + h.block.data.length + payload.length := by
  have header : h.complete.bytes.length = 12 + csrcCount h.fixed * 4 + (4 + h.block.data.length) :=
    h.complete.bytes_length.trans (congrArg _ h.block.extension.bytes_length)
  rw [List.length_append, header]
  omega

/-- All that stands in front of the first item. -/
def front : Bytes :=
  h.fixed ++ h.csrcs ++ bytes16 0xBEDE ++ bytes16 (UInt16.ofNat (h.block.data.length / 4))

theorem length_front : h.front.length = 12 + csrcCount h.fixed * 4 + 4 := by
  simp only [front, List.length_append, length_bytes16, h.fixed_length, h.csrcs_length]

theorem bytes_items : h.complete.bytes ++ payload =
    h.front ++ (h.block.items.flatMap Item.bytes ++ (endingBytes h.block.ending ++ payload)) := by
  simp only [front, CompleteHeader.bytes, OneByteHeader.complete, Block.extension, Block.data,
    ExtensionBlock.bytes, List.append_assoc]

/-- The scan starts at the first item and reads them all. -/
theorem scan_block (x : UInt8) :
    scanElements (h.complete.bytes ++ payload) x (12 + csrcCount h.fixed * 4 + 4 + h.block.data.length)
      (h.complete.bytes ++ payload).length (12 + csrcCount h.fixed * 4 + 4) =
        firstSeq x h.block.items := by
  have enough : h.block.items.length ≤ (h.complete.bytes ++ payload).length := by
    have few := items_le_bytes h.block.items
    rw [h.length_bytes payload, Block.data, List.length_append]
    omega
  have scanned := scan_items x h.block.ending payload h.block.items h.front
    (h.complete.bytes ++ payload).length enough
  rw [← bytes_items, length_front] at scanned
  exact scanned

end OneByteHeader

/-- The number found is that of the first element with the id and two data bytes; CSRCs,
    other elements, fill and payload have no say. -/
theorem parseTwccSeq_eq_firstSeq (h : OneByteHeader) (payload : Bytes) (x : UInt8) :
    parseTwccSeq (h.complete.bytes ++ payload) x = firstSeq x h.block.items := by
  have minimal := h.complete.fixed_le
  have total := h.length_bytes payload
  have long : ¬ (h.complete.bytes ++ payload).length < rtpHeaderMinSize := by
    rw [List.length_append]
    exact Nat.not_lt.mpr (Nat.le_add_right_of_le minimal)
  have xBit : hasExtension (h.complete.bytes ++ payload) = true := h.complete.hasExtension_bytes payload
  have profile : u16At (h.complete.bytes ++ payload) (12 + csrcCount h.fixed * 4) = 0xBEDE :=
    h.complete.extension_profile h.block_extension payload
  have counted : csrcCount (h.complete.bytes ++ payload) = csrcCount h.fixed :=
    h.complete.csrcCount_bytes payload
  simp only [parseTwccSeq, if_neg long, xBit, Bool.not_true, Bool.false_eq_true, if_false, counted,
    profile, ne_eq, not_true_eq_false, h.words_read]
  rw [if_neg (by omega), if_neg (by omega)]
  exact h.scan_block payload x

end TwccExtension
