import OxlensSfu.StunMessage

/- The bytes of a string are well-formed UTF-8, and zero is the byte of NUL alone. -/
namespace Utf8Text
open WireBytes StunMessages

theorem toList_loop (b : ByteArray) (i : Nat) (seen : List UInt8) :
    ByteArray.toList.loop b i seen = seen.reverse ++ b.data.toList.drop i := by
  fun_induction ByteArray.toList.loop b i seen with
  | case1 i seen inside ih =>
    have bound : i < b.data.toList.length := by simpa using inside
    have byte : b.get! i = b.data.toList[i] := by
      rw [ByteArray.get!]
      exact getElem!_pos b.data i bound
    rw [ih, List.drop_eq_getElem_cons bound, byte]
    simp
  | case2 i seen outside =>
    rw [List.drop_eq_nil_of_le (by simpa using Nat.le_of_not_lt outside), List.append_nil]

theorem toList_data (b : ByteArray) : b.toList = b.data.toList := by
  rw [ByteArray.toList, toList_loop]
  rfl

theorem toUTF8_toList (s : String) : s.toUTF8.toList = s.toList.flatMap String.utf8EncodeChar := by
  rw [toList_data, String.toUTF8_eq_toByteArray, ← String.utf8Encode_toList]
  exact List.toList_data_toByteArray

theorem toUTF8_length (s : String) : s.toUTF8.toList.length = s.utf8ByteSize := by
  rw [toList_data]
  rfl

theorem continuation_low : ∀ n < 64, continuation (UInt8.ofNat (n + 0x80)) = true := by decide

theorem between_iff (a lower upper : UInt8) :
    (lower ≤ a && a ≤ upper) = true ↔ lower.toNat ≤ a.toNat ∧ a.toNat ≤ upper.toNat := by
  simp [UInt8.le_iff_toNat_le]

theorem unless_iff (a special : UInt8) (bound : Bool) :
    (a != special || bound) = true ↔ (a.toNat = special.toNat → bound = true) := by
  simp only [Bool.or_eq_true, bne_iff_ne, ne_eq, ← UInt8.toNat_inj, Decidable.imp_iff_not_or]

section Forms
variable (rest : Bytes)

theorem validUtf8_one {v : Nat} (small : v ≤ 0x7F) :
    validUtf8 (UInt8.ofNat v :: rest) = validUtf8 rest := by
  have ascii : UInt8.ofNat v < 0x80 := by
    simp only [UInt8.lt_iff_toNat_lt, UInt8.toNat_ofNat', UInt8.reduceToNat]
    omega
  rw [validUtf8.eq_def]
  simp only [if_pos ascii]

/-- The second and later bytes of a character. -/
def tailByte (n : Nat) : UInt8 := UInt8.ofNat (n % 0x40 + 0x80)

theorem continuation_tailByte (n : Nat) : continuation (tailByte n) = true :=
  continuation_low (n % 0x40) (Nat.mod_lt n (by omega))

theorem toNat_tailByte (n : Nat) : (tailByte n).toNat = n % 64 + 128 := by
  simp only [tailByte, UInt8.toNat_ofNat']
  omega

theorem validUtf8_two {v : Nat} (lower : 0x80 ≤ v) (upper : v ≤ 0x7FF) :
    validUtf8 (UInt8.ofNat (v / 64 % 0x20 + 0xC0) :: tailByte v :: rest) = validUtf8 rest := by
  have value : (UInt8.ofNat (v / 64 % 0x20 + 0xC0)).toNat = v / 64 + 192 := by
    simp only [UInt8.toNat_ofNat']
    omega
  have ascii : ¬ UInt8.ofNat (v / 64 % 0x20 + 0xC0) < 0x80 := by
    simp only [UInt8.lt_iff_toNat_lt, value, UInt8.reduceToNat]
    omega
  have lead : (0xC2 ≤ UInt8.ofNat (v / 64 % 0x20 + 0xC0) &&
      UInt8.ofNat (v / 64 % 0x20 + 0xC0) ≤ 0xDF) = true := by
    simp only [between_iff, value, UInt8.reduceToNat]
    omega
  rw [validUtf8.eq_def]
  simp only [if_neg ascii, if_pos lead, continuation_tailByte, Bool.true_and]

/-- No surrogates: 0xD800 to 0xDFFF are no characters. -/
theorem validUtf8_three {v : Nat} (lower : 0x800 ≤ v) (upper : v ≤ 0xFFFF)
    (scalar : v < 0xD800 ∨ 0xDFFF < v) :
    validUtf8 (UInt8.ofNat (v / 4096 % 0x10 + 0xE0) :: tailByte (v / 64) :: tailByte v :: rest) =
      validUtf8 rest := by
  have value : (UInt8.ofNat (v / 4096 % 0x10 + 0xE0)).toNat = v / 4096 + 224 := by
    simp only [UInt8.toNat_ofNat']
    omega
  have second := toNat_tailByte (v / 64)
  generalize UInt8.ofNat (v / 4096 % 0x10 + 0xE0) = a at value ⊢
  have ascii : ¬ a < 0x80 := by
    simp only [UInt8.lt_iff_toNat_lt, value, UInt8.reduceToNat]
    omega
  have short : ¬ (0xC2 ≤ a && a ≤ 0xDF) = true := by
    simp only [between_iff, value, UInt8.reduceToNat]
    omega
  have lead : (0xE0 ≤ a && a ≤ 0xEF) = true := by
    simp only [between_iff, value, UInt8.reduceToNat]
    omega
  have overlong : (a != 0xE0 || 0xA0 ≤ tailByte (v / 64)) = true := by
    simp only [unless_iff, UInt8.le_iff_toNat_le, second, value, UInt8.reduceToNat, decide_eq_true_eq]
    omega
  have surrogate : (a != 0xED || tailByte (v / 64) ≤ 0x9F) = true := by
    simp only [unless_iff, UInt8.le_iff_toNat_le, second, value, UInt8.reduceToNat, decide_eq_true_eq]
    omega
  rw [validUtf8.eq_def]
  simp only [if_neg ascii, if_neg short, if_pos lead, continuation_tailByte, overlong, surrogate,
    Bool.true_and]

theorem validUtf8_four {v : Nat} (lower : 0x10000 ≤ v) (upper : v < 0x110000) :
    validUtf8 (UInt8.ofNat (v / 262144 % 0x08 + 0xF0) :: tailByte (v / 4096) :: tailByte (v / 64) ::
      tailByte v :: rest) = validUtf8 rest := by
  have value : (UInt8.ofNat (v / 262144 % 0x08 + 0xF0)).toNat = v / 262144 + 240 := by
    simp only [UInt8.toNat_ofNat']
    omega
  have second := toNat_tailByte (v / 4096)
  generalize UInt8.ofNat (v / 262144 % 0x08 + 0xF0) = a at value ⊢
  have ascii : ¬ a < 0x80 := by
    simp only [UInt8.lt_iff_toNat_lt, value, UInt8.reduceToNat]
    omega
  have short : ¬ (0xC2 ≤ a && a ≤ 0xDF) = true := by
    simp only [between_iff, value, UInt8.reduceToNat]
    omega
  have middle : ¬ (0xE0 ≤ a && a ≤ 0xEF) = true := by
    simp only [between_iff, value, UInt8.reduceToNat]
    omega
  have least : (0xF0 ≤ a) = true := by
    simp only [UInt8.le_iff_toNat_le, value, UInt8.reduceToNat, eq_iff_iff, iff_true]
    omega
  have most : (a ≤ 0xF4) = true := by
    simp only [UInt8.le_iff_toNat_le, value, UInt8.reduceToNat, eq_iff_iff, iff_true]
    omega
  have overlong : (a != 0xF0 || 0x90 ≤ tailByte (v / 4096)) = true := by
    simp only [unless_iff, UInt8.le_iff_toNat_le, second, value, UInt8.reduceToNat, decide_eq_true_eq]
    omega
  have beyond : (a != 0xF4 || tailByte (v / 4096) ≤ 0x8F) = true := by
    simp only [unless_iff, UInt8.le_iff_toNat_le, second, value, UInt8.reduceToNat, decide_eq_true_eq]
    omega
  rw [validUtf8.eq_def]
  simp only [if_neg ascii, if_neg short, if_neg middle, least, most, continuation_tailByte, overlong, beyond,
    Bool.true_and, decide_true]

end Forms

theorem validUtf8_encodeChar (c : Char) (rest : Bytes) :
    validUtf8 (String.utf8EncodeChar c ++ rest) = validUtf8 rest := by
  have scalar : c.val.toNat < 0xD800 ∨ (0xDFFF < c.val.toNat ∧ c.val.toNat < 0x110000) := c.valid
  unfold String.utf8EncodeChar
  simp only
  split
  · exact validUtf8_one rest (by assumption)
  split
  · exact validUtf8_two rest (by omega) (by assumption)
  split
  · exact validUtf8_three rest (by omega) (by assumption) (by omega)
  · exact validUtf8_four rest (by omega) (by omega)

theorem toUTF8_valid (s : String) : validUtf8 s.toUTF8.toList = true := by
  rw [toUTF8_toList]
  induction s.toList with
  | nil => rfl
  | cons c cs ih => rw [List.flatMap_cons, validUtf8_encodeChar, ih]

theorem tailByte_ne_zero (n : Nat) : tailByte n ≠ 0 := by
  intro zero
  have value := toNat_tailByte n
  rw [zero] at value
  simp at value

theorem lead_ne_zero {n mark : Nat} (small : n + mark < 256) (marked : 0 < mark) :
    UInt8.ofNat (n + mark) ≠ 0 := by
  intro zero
  have value := congrArg UInt8.toNat zero
  simp only [UInt8.toNat_ofNat', UInt8.reduceToNat] at value
  omega

theorem zero_not_mem_lead {n mark : Nat} (small : n + mark < 256) (marked : 0 < mark) {tail : Bytes}
    (later : ∀ b ∈ tail, b ≠ 0) : 0 ∉ UInt8.ofNat (n + mark) :: tail := by
  intro member
  rcases List.mem_cons.mp member with lead | behind
  · exact lead_ne_zero small marked lead.symm
  · exact later 0 behind rfl

/-- Only NUL has a zero byte. -/
theorem zero_mem_encodeChar (c : Char) : 0 ∈ String.utf8EncodeChar c ↔ c = Char.ofNat 0 := by
  have nul : c = Char.ofNat 0 ↔ c.val.toNat = 0 := by
    rw [Char.ext_iff, ← UInt32.toNat_inj]
    rfl
  rw [nul]
  unfold String.utf8EncodeChar
  simp only
  split
  · rw [List.mem_singleton, ← UInt8.toNat_inj]
    simp only [UInt8.toNat_ofNat', UInt8.reduceToNat]
    omega
  have tails : ∀ ns : List Nat, ∀ b ∈ ns.map tailByte, b ≠ 0 := by
    intro ns b member
    obtain ⟨n, _, rfl⟩ := List.mem_map.mp member
    exact tailByte_ne_zero n
  generalize c.val.toNat = v at *
  split
  · exact iff_of_false (zero_not_mem_lead (by omega) (by omega) (tails [v])) (by omega)
  split
  · exact iff_of_false (zero_not_mem_lead (by omega) (by omega) (tails [v / 64, v])) (by omega)
  · exact iff_of_false (zero_not_mem_lead (by omega) (by omega) (tails [v / 4096, v / 64, v])) (by omega)

theorem zero_mem_toUTF8 (s : String) : 0 ∈ s.toUTF8.toList ↔ Char.ofNat 0 ∈ s.toList := by
  rw [toUTF8_toList, List.mem_flatMap]
  constructor
  · rintro ⟨c, member, zero⟩
    exact (zero_mem_encodeChar c).mp zero ▸ member
  · intro member
    exact ⟨_, member, (zero_mem_encodeChar _).mpr rfl⟩

theorem toUTF8_ne_nil {s : String} (filled : s ≠ "") : s.toUTF8.toList ≠ [] := by
  intro empty
  have size := toUTF8_length s
  rw [empty] at size
  exact filled (String.utf8ByteSize_eq_zero_iff.mp size.symm)

end Utf8Text
