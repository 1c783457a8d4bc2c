import OxlensSfu.RtpLayout

/- The H264 keyframe gate against the packetization of NAL units. -/
namespace H264Keyframe
open WireBytes RtpPacket RtpLayout

structure NalUnit where
  header : UInt8
  body : Bytes

namespace NalUnit

def bytes (u : NalUnit) : Bytes := u.header :: u.body
def nalType (u : NalUnit) : UInt8 := u.header &&& 0x1F

/-- An IDR slice or a sequence parameter set. -/
def Key (u : NalUnit) : Prop := u.nalType = 5 ∨ u.nalType = 7

end NalUnit

/-- The three ways in which NAL units travel. -/
inductive Payload where
  | single (unit : NalUnit) (plain : 1 ≤ unit.nalType ∧ unit.nalType ≤ 23)
  | stapA (indicator : UInt8) (units : List NalUnit) (aggregate : indicator &&& 0x1F = 24)
      (fits : ∀ u ∈ units, u.bytes.length < 65536)
  | fuA (unit : NalUnit) (pieces : List Bytes) (cut : pieces.flatten = unit.body)
      (i : Fin pieces.length)

def sized (u : NalUnit) : Bytes := bytes16 (UInt16.ofNat u.bytes.length) ++ u.bytes

def fuIndicator (u : NalUnit) : UInt8 := (u.header &&& 0xE0) ||| 28

/-- Start bit, end bit and the type of the fragmented unit. -/
def fuHeader (u : NalUnit) (first last : Bool) : UInt8 :=
  ((if first then 0x80 else 0) ||| (if last then 0x40 else 0)) ||| u.nalType

namespace Payload

def bytes : Payload → Bytes
  | .single u _ => u.bytes
  | .stapA indicator units _ _ => indicator :: units.flatMap sized
  | .fuA u pieces _ i =>
    fuIndicator u :: fuHeader u (i.val == 0) (i.val + 1 == pieces.length) :: pieces.get i

/-- The packet in which a keyframe, or the parameter set ahead of it, begins. -/
def Opens : Payload → Prop
  | .single u _ => u.Key
  | .stapA _ units _ _ => ∃ u ∈ units, u.Key
  | .fuA u _ _ i => i.val = 0 ∧ u.Key

end Payload

theorem keyNalType_iff (b : UInt8) : keyNalType b = true ↔ b &&& 0x1F = 5 ∨ b &&& 0x1F = 7 := by
  simp [keyNalType, or_comm]

theorem keyNalType_header (u : NalUnit) : keyNalType u.header = true ↔ u.Key :=
  keyNalType_iff u.header

theorem sized_length (u : NalUnit) : (sized u).length = 3 + u.body.length := by
  simp only [sized, NalUnit.bytes, List.length_append, length_bytes16, List.length_cons]
  omega

/-- The indicator of a fragment carries type 28, whatever the unit's own bits. -/
theorem fuIndicator_type (u : NalUnit) : fuIndicator u &&& 0x1F = 28 := by
  rw [fuIndicator, or_masked, UInt8.and_assoc, show (0xE0 &&& 0x1F : UInt8) = 0 from rfl,
    UInt8.and_zero, UInt8.zero_or]
  rfl

theorem fuHeader_type (u : NalUnit) (first last : Bool) :
    fuHeader u first last &&& 0x1F = u.nalType := by
  have flags : ((if first then 0x80 else 0) ||| (if last then 0x40 else 0) : UInt8) &&& 0x1F = 0 := by
    cases first <;> cases last <;> rfl
  rw [fuHeader, or_masked, flags, UInt8.zero_or, NalUnit.nalType, UInt8.and_assoc]
  rfl

theorem fuHeader_start (u : NalUnit) (first last : Bool) :
    (fuHeader u first last &&& 0x80 != 0) = first := by
  have typed : u.nalType &&& 0x80 = 0 := by
    rw [NalUnit.nalType, UInt8.and_assoc, show (0x1F &&& 0x80 : UInt8) = 0 from rfl, UInt8.and_zero]
  rw [fuHeader, or_masked, typed, UInt8.or_zero]
  cases first <;> cases last <;> rfl

/-- One turn of the aggregate loop passes over one unit. -/
theorem stapHasKeyNal_cons (front : Bytes) {u : NalUnit} (fits : u.bytes.length < 65536) (rest : Bytes)
    (fuel : Nat) :
    stapHasKeyNal (front ++ (sized u ++ rest)) (fuel + 1) front.length =
      (keyNalType u.header ||
        stapHasKeyNal (front ++ (sized u ++ rest)) fuel (front ++ sized u).length) := by
  have total : (front ++ (sized u ++ rest)).length = front.length + (3 + u.body.length) + rest.length := by
    simp only [List.length_append, sized_length]
    omega
  have header : byteAt (front ++ (sized u ++ rest)) (front.length + 2) = u.header := byteAt_behind _ _ 2
  have size : u16At (front ++ (sized u ++ rest)) front.length = UInt16.ofNat u.bytes.length := by
    refine (u16At_append_right front (sized u ++ rest) 0).trans ?_
    rw [sized, List.append_assoc, u16At_bytes16]
  have next : front.length + 2 + (UInt16.ofNat u.bytes.length).toNat = (front ++ sized u).length := by
    simp only [UInt16.toNat_ofNat', NalUnit.bytes, List.length_cons, List.length_append,
      sized_length] at fits ⊢
    omega
  have inside : ¬ (front ++ (sized u ++ rest)).length < (front ++ sized u).length := by
    rw [total, List.length_append, sized_length]
    omega
  rw [stapHasKeyNal, if_pos (by omega), header, size, next]
  simp only [if_neg inside]
  cases keyNalType u.header <;> rfl

/-- The loop finds a key unit wherever it stands in the list. -/
theorem stapHasKeyNal_units (units : List NalUnit) (front : Bytes) (fuel : Nat)
    (fits : ∀ u ∈ units, u.bytes.length < 65536) (enough : units.length ≤ fuel) :
    stapHasKeyNal (front ++ units.flatMap sized) fuel front.length = true ↔ ∃ u ∈ units, u.Key := by
  induction units generalizing front fuel with
  | nil =>
    cases fuel with
    | zero => simp [stapHasKeyNal]
    | succ fuel =>
      have past : ¬ front.length + 2 < front.length := by omega
      simp [stapHasKeyNal, past]
  | cons u units ih =>
    obtain ⟨fuel, rfl⟩ : ∃ k, fuel = k + 1 := ⟨fuel - 1, by simp only [List.length_cons] at enough; omega⟩
    have rest := ih (front ++ sized u) fuel (fun v member => fits v (List.mem_cons_of_mem u member))
      (by simpa using enough)
    rw [List.append_assoc] at rest
    rw [List.flatMap_cons, stapHasKeyNal_cons front (fits u List.mem_cons_self), Bool.or_eq_true, rest,
      keyNalType_header]
    simp

theorem units_le_bytes (units : List NalUnit) : units.length ≤ (units.flatMap sized).length := by
  induction units with
  | nil => simp
  | cons u units ih =>
    rw [List.flatMap_cons, List.length_append, sized_length, List.length_cons]
    omega

section Packet
variable (h : CompleteHeader) (b : UInt8) (rest : Bytes)

theorem payload_start : byteAt (h.bytes ++ b :: rest) h.bytes.length = b :=
  byteAt_behind h.bytes (b :: rest) 0

theorem isH264Keyframe_plain (plain : b &&& 0x1F ≤ 23) :
    isH264Keyframe (h.bytes ++ b :: rest) = keyNalType b := by
  have apart : ∀ t : UInt8, 23 < t → (b &&& 0x1F == t) = false := by
    intro t above
    rw [beq_eq_false_iff_ne]
    rintro rfl
    exact absurd plain (UInt8.not_le.mpr above)
  simp only [isH264Keyframe, h.payloadOffset (List.cons_ne_nil b rest), payload_start, keyNalType,
    apart 24 (by decide), apart 28 (by decide)]
  cases b &&& 0x1F == 7 || b &&& 0x1F == 5 <;> rfl

theorem isH264Keyframe_aggregate (aggregate : b &&& 0x1F = 24) :
    isH264Keyframe (h.bytes ++ b :: rest) =
      stapHasKeyNal (h.bytes ++ b :: rest) (h.bytes ++ b :: rest).length (h.bytes.length + 1) := by
  simp only [isH264Keyframe, h.payloadOffset (List.cons_ne_nil b rest), payload_start, aggregate]
  rfl

theorem isH264Keyframe_fragment (fragment : b &&& 0x1F = 28) (fu : UInt8) :
    isH264Keyframe (h.bytes ++ b :: fu :: rest) = (fu &&& 0x80 != 0 && keyNalType fu) := by
  have read : byteAt (h.bytes ++ b :: fu :: rest) (h.bytes.length + 1) = fu := byteAt_behind _ _ 1
  have long : ¬ (h.bytes ++ b :: fu :: rest).length ≤ h.bytes.length + 1 := by
    simp only [List.length_append, List.length_cons]
    omega
  simp only [isH264Keyframe, h.payloadOffset (List.cons_ne_nil b (fu :: rest)), payload_start, fragment,
    if_neg long, read]
  rfl

end Packet

/-- Behind every complete header the gate opens exactly for a payload that begins a keyframe. -/
theorem isH264Keyframe_iff_opens (h : CompleteHeader) (payload : Payload) :
    isH264Keyframe (h.bytes ++ payload.bytes) = true ↔ payload.Opens := by
  cases payload with
  | single u plain =>
    have answer := isH264Keyframe_plain h u.header u.body plain.2
    rw [Payload.bytes, NalUnit.bytes, answer]
    exact keyNalType_header u
  | stapA indicator units aggregate fits =>
    have answer := isH264Keyframe_aggregate h indicator (units.flatMap sized) aggregate
    have start : h.bytes.length + 1 = (h.bytes ++ [indicator]).length := by simp
    have parts : h.bytes ++ indicator :: units.flatMap sized =
        (h.bytes ++ [indicator]) ++ units.flatMap sized := by simp
    rw [Payload.bytes, answer, start, parts]
    refine stapHasKeyNal_units units _ _ fits ?_
    have count := units_le_bytes units
    rw [List.length_append]
    omega
  | fuA u pieces cut i =>
    have answer := isH264Keyframe_fragment h (fuIndicator u) (pieces.get i) (fuIndicator_type u)
      (fuHeader u (i.val == 0) (i.val + 1 == pieces.length))
    rw [Payload.bytes, answer, fuHeader_start, Bool.and_eq_true, keyNalType_iff, fuHeader_type,
      beq_iff_eq]
    rfl

end H264Keyframe
