import OxlensSfu.RtpLayout

/- The VP8 keyframe gate against the payload descriptor of RFC 7741. -/
namespace Vp8Keyframe
open WireBytes RtpPacket RtpLayout

/-- 7 or 15 bits, told apart by the M bit. -/
inductive PictureId where
  | short (id : UInt8) (m_bit : (id &&& 0x80 != 0) = false)
  | long (high low : UInt8) (m_bit : (high &&& 0x80 != 0) = true)

def PictureId.bytes : PictureId → Bytes
  | .short id _ => [id]
  | .long high low _ => [high, low]

def pictureIdBytes : Option PictureId → Bytes
  | none => []
  | some id => id.bytes

structure Extension where
  flags : UInt8
  pictureId : Option PictureId
  tl0PicIdx : Option UInt8
  tidKeyIdx : Option UInt8
  i_bit : (flags &&& 0x80 != 0) = pictureId.isSome
  l_bit : (flags &&& 0x40 != 0) = tl0PicIdx.isSome
  tk_bits : (flags &&& 0x20 != 0 || flags &&& 0x10 != 0) = tidKeyIdx.isSome

def Extension.octets (e : Extension) : Bytes :=
  pictureIdBytes e.pictureId ++ e.tl0PicIdx.toList ++ e.tidKeyIdx.toList

def Extension.bytes (e : Extension) : Bytes := e.flags :: e.octets

/-- A complete payload descriptor. -/
structure Descriptor where
  first : UInt8
  extension : Option Extension
  x_bit : (first &&& 0x80 != 0) = extension.isSome

def Descriptor.bytes (d : Descriptor) : Bytes :=
  d.first :: match d.extension with
    | none => []
    | some e => e.bytes

/-- The packet starts partition `pid`, and the first bit of its VP8 payload reads as that of a
    keyframe. Only partition 0 begins with the frame header that the bit belongs to. -/
def StartsKey (pid : UInt8) (p : Bytes) : Prop :=
  ∃ (h : CompleteHeader) (d : Descriptor) (frame : UInt8) (rest : Bytes),
    p = h.bytes ++ (d.bytes ++ frame :: rest) ∧ d.first &&& 0x10 ≠ 0 ∧ d.first &&& 0x07 = pid ∧
      frame &&& 0x01 = 0

/-- The octets behind the flags, as the walk counts them. -/
def optionalOctets (flags : UInt8) (more : Bytes) : Nat :=
  (if flags &&& 0x80 != 0 then if byteAt more 0 &&& 0x80 != 0 then 2 else 1 else 0) +
    (if flags &&& 0x40 != 0 then 1 else 0) +
    (if flags &&& 0x20 != 0 || flags &&& 0x10 != 0 then 1 else 0)

section Walk
variable (front : Bytes) {first : UInt8}

theorem descriptorEnd_plain (x_bit : (first &&& 0x80 != 0) = false) (more : Bytes) :
    vp8DescriptorEnd (front ++ first :: more) front.length = some (front.length + 1) := by
  have start : byteAt (front ++ first :: more) front.length = first := byteAt_behind front _ 0
  simp [vp8DescriptorEnd, start, x_bit]

theorem descriptorEnd_truncated (x_bit : (first &&& 0x80 != 0) = true) :
    vp8DescriptorEnd (front ++ [first]) front.length = none := by
  have start : byteAt (front ++ [first]) front.length = first := byteAt_behind front _ 0
  simp [vp8DescriptorEnd, start, x_bit]

theorem descriptorEnd_extended (x_bit : (first &&& 0x80 != 0) = true) (flags : UInt8) (more : Bytes) :
    vp8DescriptorEnd (front ++ first :: flags :: more) front.length =
      if (flags &&& 0x80 != 0) = true ∧ more = [] then none
      else some (front.length + 2 + optionalOctets flags more) := by
  have start : byteAt (front ++ first :: flags :: more) front.length = first := byteAt_behind front _ 0
  have second : byteAt (front ++ first :: flags :: more) (front.length + 1) = flags :=
    byteAt_behind front _ 1
  have third : byteAt (front ++ first :: flags :: more) (front.length + 2) = byteAt more 0 :=
    byteAt_behind front _ 2
  have long : ¬ (front ++ first :: flags :: more).length ≤ front.length + 1 := by
    simp only [List.length_append, List.length_cons]
    omega
  have room : (front ++ first :: flags :: more).length ≤ front.length + 2 ↔ more = [] := by
    simp only [List.length_append, List.length_cons, ← List.length_eq_zero_iff]
    omega
  unfold vp8DescriptorEnd
  rw [start, second, third, if_pos x_bit, if_neg long]
  simp only [room]
  cases i_bit : flags &&& 0x80 != 0 with
  | false =>
    simp only [optionalOctets, i_bit, Bool.false_eq_true, false_and, if_false, Nat.zero_add,
      Nat.add_assoc]
  | true => simp only [optionalOctets, i_bit, if_true, true_and, Nat.add_assoc]

end Walk

theorem toList_length (o : Option UInt8) : o.toList.length = if o.isSome then 1 else 0 := by
  cases o <;> rfl

theorem pictureId_length {flag : Bool} {o : Option PictureId} (present : flag = o.isSome)
    (rest : Bytes) :
    (if flag then if byteAt (pictureIdBytes o ++ rest) 0 &&& 0x80 != 0 then 2 else 1 else 0) =
      (pictureIdBytes o).length := by
  subst present
  match o with
  | none => rfl
  | some (.short id m_bit) => simp [pictureIdBytes, PictureId.bytes, byteAt, m_bit]
  | some (.long high low m_bit) => simp [pictureIdBytes, PictureId.bytes, byteAt, m_bit]

/-- The flags of an extension call for the octets that it holds. -/
theorem octets_of_extension (e : Extension) (rest : Bytes) :
    optionalOctets e.flags (e.octets ++ rest) = e.octets.length := by
  rw [optionalOctets, e.l_bit, e.tk_bits, ← toList_length, ← toList_length, Extension.octets,
    List.length_append, List.length_append, List.append_assoc, List.append_assoc,
    pictureId_length e.i_bit]

theorem octets_ne_nil {e : Extension} (present : (e.flags &&& 0x80 != 0) = true) (rest : Bytes) :
    e.octets ++ rest ≠ [] := by
  rw [e.i_bit] at present
  rw [Extension.octets]
  match e.pictureId, present with
  | some (.short id m_bit), _ => simp [pictureIdBytes, PictureId.bytes]
  | some (.long high low m_bit), _ => simp [pictureIdBytes, PictureId.bytes]

/-- The walk over the flags ends behind the descriptor that was written. -/
theorem descriptorEnd_bytes (front : Bytes) (d : Descriptor) (rest : Bytes) :
    vp8DescriptorEnd (front ++ (d.bytes ++ rest)) front.length =
      some (front.length + d.bytes.length) := by
  obtain ⟨first, extension, x_bit⟩ := d
  cases extension with
  | none => exact descriptorEnd_plain front x_bit rest
  | some e =>
    have walked := descriptorEnd_extended front x_bit e.flags (e.octets ++ rest)
    rw [if_neg fun short => octets_ne_nil short.1 rest short.2, octets_of_extension] at walked
    refine walked.trans ?_
    simp only [Descriptor.bytes, Extension.bytes, List.length_cons]
    congr 1
    omega

/-- A flag takes the octet that it calls for from what follows. -/
theorem take_octet (flag : Bool) (rest : Bytes) (room : (if flag then 1 else 0) ≤ rest.length) :
    ∃ (o : Option UInt8) (tail : Bytes), flag = o.isSome ∧ rest = o.toList ++ tail := by
  cases flag with
  | false => exact ⟨none, rest, rfl, rfl⟩
  | true =>
    match rest, room with
    | b :: tail, _ => exact ⟨some b, tail, rfl, rfl⟩

theorem take_pictureId (flag : Bool) (rest : Bytes) (start : flag = true → rest ≠ [])
    (room : (if flag then if byteAt rest 0 &&& 0x80 != 0 then 2 else 1 else 0) ≤ rest.length) :
    ∃ (o : Option PictureId) (tail : Bytes), flag = o.isSome ∧ rest = pictureIdBytes o ++ tail := by
  cases flag with
  | false => exact ⟨none, rest, rfl, rfl⟩
  | true =>
    cases rest with
    | nil => exact absurd rfl (start rfl)
    | cons b tail =>
      cases m_bit : b &&& 0x80 != 0 with
      | false => exact ⟨some (.short b m_bit), tail, rfl, rfl⟩
      | true =>
        match tail, room with
        | c :: tail, _ => exact ⟨some (.long b c m_bit), tail, rfl, rfl⟩
        | [], room => simp [byteAt, m_bit] at room

/-- A walk that ends inside the packet has passed a complete descriptor. -/
theorem descriptor_of_end {front rest : Bytes} {frame : Nat} (filled : rest ≠ [])
    (walked : vp8DescriptorEnd (front ++ rest) front.length = some frame)
    (inside : frame < (front ++ rest).length) :
    ∃ (d : Descriptor) (tail : Bytes), rest = d.bytes ++ tail := by
  rw [List.length_append] at inside
  cases rest with
  | nil => exact absurd rfl filled
  | cons first more =>
    cases x_bit : first &&& 0x80 != 0 with
    | false => exact ⟨⟨first, none, x_bit⟩, more, rfl⟩
    | true =>
      cases more with
      | nil => simp [descriptorEnd_truncated front x_bit] at walked
      | cons flags more =>
        rw [descriptorEnd_extended front x_bit] at walked
        split at walked
        · simp at walked
        rename_i started
        have last := Option.some.inj walked
        simp only [optionalOctets, List.length_cons] at last inside
        obtain ⟨pictureId, more', i_bit, rfl⟩ := take_pictureId (flags &&& 0x80 != 0) more
          (fun present empty => started ⟨present, empty⟩) (by omega)
        have picture := pictureId_length i_bit more'
        rw [picture] at last
        rw [List.length_append] at inside
        obtain ⟨tl0PicIdx, more'', l_bit, rfl⟩ := take_octet (flags &&& 0x40 != 0) more' (by omega)
        rw [l_bit, ← toList_length] at last
        rw [List.length_append] at inside
        obtain ⟨tidKeyIdx, tail, tk_bits, rfl⟩ :=
          take_octet (flags &&& 0x20 != 0 || flags &&& 0x10 != 0) more'' (by omega)
        refine ⟨⟨first, some ⟨flags, pictureId, tl0PicIdx, tidKeyIdx, i_bit, l_bit, tk_bits⟩, x_bit⟩,
          tail, ?_⟩
        simp [Descriptor.bytes, Extension.bytes, Extension.octets, List.append_assoc]

theorem first_read (h : CompleteHeader) (d : Descriptor) (rest : Bytes) :
    byteAt (h.bytes ++ (d.bytes ++ rest)) h.bytes.length = d.first :=
  byteAt_behind h.bytes (d.bytes ++ rest) 0

/-- The answer on a packet with a complete descriptor and VP8 payload. -/
theorem isVp8Keyframe_parts (h : CompleteHeader) (d : Descriptor) (frame : UInt8) (rest : Bytes) :
    isVp8Keyframe (h.bytes ++ (d.bytes ++ frame :: rest)) =
      (d.first &&& 0x10 != 0 && frame &&& 0x01 == 0) := by
  have read : byteAt (h.bytes ++ (d.bytes ++ frame :: rest)) (h.bytes.length + d.bytes.length) = frame := by
    rw [byteAt_behind]
    exact byteAt_behind d.bytes (frame :: rest) 0
  have long : ¬ (h.bytes ++ (d.bytes ++ frame :: rest)).length ≤ h.bytes.length + d.bytes.length := by
    simp only [List.length_append, List.length_cons]
    omega
  simp only [isVp8Keyframe, h.payloadOffset (List.append_ne_nil_of_right_ne_nil _ (List.cons_ne_nil _ _)),
    first_read, descriptorEnd_bytes, if_neg long, read]
  cases start : d.first &&& 0x10 == 0 <;> simp [bne, start]

/-- What the function checks: a complete descriptor with S = 1, whatever its partition index. -/
theorem isVp8Keyframe_iff_startsKey (p : Bytes) :
    isVp8Keyframe p = true ↔ ∃ pid, StartsKey pid p := by
  constructor
  · intro opened
    have answer := opened
    unfold isVp8Keyframe at opened
    split at opened
    · simp at opened
    rename_i offset found
    obtain ⟨h, payload, filled, rfl, rfl⟩ := complete_of_payloadOffset found
    split at opened
    · simp at opened
    split at opened
    · simp at opened
    rename_i frame walked
    split at opened
    · simp at opened
    rename_i inside
    obtain ⟨d, tail, rfl⟩ := descriptor_of_end filled walked (Nat.lt_of_not_le inside)
    rw [descriptorEnd_bytes] at walked
    cases walked
    cases tail with
    | nil => simp at inside
    | cons byte rest =>
      simp only [isVp8Keyframe_parts, Bool.and_eq_true, bne_iff_ne, beq_iff_eq] at answer
      exact ⟨_, h, d, byte, rest, rfl, answer.1, rfl, answer.2⟩
  · rintro ⟨pid, h, d, frame, rest, rfl, start, _, key⟩
    simp [isVp8Keyframe_parts, start, key]

/-- The partition index is a field of the packet. -/
theorem startsKey_pid {p : Bytes} {pid pid' : UInt8} (one : StartsKey pid p) (other : StartsKey pid' p) :
    pid = pid' := by
  obtain ⟨h, d, frame, rest, parts, _, rfl, _⟩ := one
  obtain ⟨h', d', frame', rest', parts', _, rfl, _⟩ := other
  have offset := h.payloadOffset (List.append_ne_nil_of_right_ne_nil d.bytes (List.cons_ne_nil frame rest))
  have offset' :=
    h'.payloadOffset (List.append_ne_nil_of_right_ne_nil d'.bytes (List.cons_ne_nil frame' rest'))
  rw [← parts] at offset
  rw [← parts', offset] at offset'
  have first := first_read h d (frame :: rest)
  have first' := first_read h' d' (frame' :: rest')
  rw [← parts, Option.some.inj offset'] at first
  rw [← parts', first] at first'
  rw [first']

/-- The gate opens for keyframes only, exactly on the packets that do not start a later
    partition whose first bit happens to be clear. -/
theorem isVp8Keyframe_exact_iff (p : Bytes) :
    (isVp8Keyframe p = true ↔ StartsKey 0 p) ↔ ¬ ∃ pid, pid ≠ 0 ∧ StartsKey pid p := by
  rw [isVp8Keyframe_iff_startsKey]
  constructor
  · rintro gate ⟨pid, later, starts⟩
    exact later (startsKey_pid starts (gate.mp ⟨pid, starts⟩))
  · intro none_later
    refine ⟨fun ⟨pid, starts⟩ => ?_, fun first => ⟨0, first⟩⟩
    by_cases zero : pid = 0
    · exact zero ▸ starts
    · exact absurd ⟨pid, zero, starts⟩ none_later

/-- The header of a packet without CSRCs and extension. -/
def plainHeader : CompleteHeader := ⟨0x80 :: List.replicate 11 0, [], none, rfl, rfl, rfl⟩

/-- S = 1 with partition index 1: coefficient data, not a frame header. -/
theorem later_partition_opens : ¬ ∀ p, isVp8Keyframe p = true ↔ StartsKey 0 p := by
  intro holds
  have later : StartsKey 1 (plainHeader.bytes ++ [0x11, 0x00]) :=
    ⟨plainHeader, ⟨0x11, none, rfl⟩, 0, [], rfl, by decide, by decide, by decide⟩
  have first := (holds _).mp ((isVp8Keyframe_iff_startsKey _).mpr ⟨1, later⟩)
  exact absurd (startsKey_pid first later) (by decide)

end Vp8Keyframe
