import OxlensSfu.RtcpBuilders
import OxlensSfu.TruncatedFloat

/- The bitrate of a REMB packet: six bits of exponent and eighteen of mantissa. -/
namespace RembBitrate
open WireBytes RtcpBuilders TruncatedFloat

def readExponent (p : Bytes) : Nat := (byteAt p 17 >>> 2).toNat

def readMantissa (p : Bytes) : Nat :=
  (byteAt p 17 &&& 0x03).toNat * 65536 + (byteAt p 18).toNat * 256 + (byteAt p 19).toNat

/-- The loop state after `exp` halvings of the bitrate. -/
structure Halved (b : UInt64) (exp : UInt8) (mantissa : UInt64) : Prop where
  floor : mantissa.toNat = b.toNat / 2 ^ exp.toNat
  normal : exp = 0 ∨ 2 ^ 17 ≤ mantissa.toNat

theorem guard_iff (mantissa : UInt64) : 0x3FFFF < mantissa ↔ 2 ^ 18 ≤ mantissa.toNat := by
  rw [UInt64.lt_iff_toNat_lt]
  exact Nat.succ_le_iff.symm

theorem shift_toNat (mantissa : UInt64) : (mantissa >>> 1).toNat = mantissa.toNat / 2 := by
  rw [UInt64.toNat_shiftRight]
  exact Nat.shiftRight_one _

theorem narrow_toNat {mantissa : UInt64} (done : ¬ 0x3FFFF < mantissa) :
    mantissa.toUInt32.toNat = mantissa.toNat := by
  rw [guard_iff] at done
  rw [UInt64.toNat_toUInt32]
  omega

namespace Halved
variable {b : UInt64} {exp : UInt8} {mantissa : UInt64}

theorem start (b : UInt64) : Halved b 0 b := ⟨by simp, .inl rfl⟩

theorem step (state : Halved b exp mantissa) (more : 0x3FFFF < mantissa) (room : exp.toNat < 255) :
    Halved b (exp + 1) (mantissa >>> 1) := by
  have next : (exp + 1).toNat = exp.toNat + 1 := by
    rw [UInt8.toNat_add]
    exact Nat.mod_eq_of_lt (by simp only [UInt8.toNat_one]; omega)
  rw [guard_iff] at more
  constructor
  · rw [shift_toNat, state.floor, next, Nat.div_div_eq_div_mul, Nat.pow_succ]
  · rw [shift_toNat]
    omega

theorem done (state : Halved b exp mantissa) (last : ¬ 0x3FFFF < mantissa) :
    Truncates 17 b.toNat exp.toNat mantissa.toUInt32.toNat := by
  rw [narrow_toNat last]
  rw [guard_iff] at last
  refine ⟨state.floor, Nat.lt_of_not_le last, ?_⟩
  exact state.normal.imp (fun zero => by rw [zero]; rfl) id

end Halved

/-- The loop ends in a truncation of the bitrate: every round takes one bit off the mantissa. -/
theorem encodeRembFrom_truncates {b : UInt64} (fuel : Nat) {exp : UInt8} {mantissa : UInt64}
    (state : Halved b exp mantissa) (enough : mantissa.toNat < 2 ^ (18 + fuel))
    (room : exp.toNat + fuel ≤ 255) :
    Truncates 17 b.toNat (encodeRembFrom fuel exp mantissa).1.toNat
      (encodeRembFrom fuel exp mantissa).2.toNat := by
  induction fuel generalizing exp mantissa with
  | zero =>
    refine state.done ?_
    rw [guard_iff]
    omega
  | succ fuel ih =>
    unfold encodeRembFrom
    split
    · rename_i more
      have halves : (mantissa >>> 1).toNat < 2 ^ (18 + fuel) := by
        rw [shift_toNat]
        rw [← Nat.add_assoc, Nat.pow_succ] at enough
        omega
      have next := state.step more (by omega)
      refine ih next halves ?_
      have count : (exp + 1).toNat ≤ exp.toNat + 1 := by
        rw [UInt8.toNat_add]
        exact Nat.mod_le _ _
      omega
    · rename_i last
      exact state.done last

/-- More rounds than there are bits above the eighteenth change nothing: the loop has ended. -/
theorem encodeRembFrom_ended (rounds : Nat) (exp : UInt8) (mantissa : UInt64)
    (short : mantissa.toNat < 2 ^ (18 + rounds)) (more : Nat) :
    encodeRembFrom (rounds + more) exp mantissa = encodeRembFrom rounds exp mantissa := by
  induction rounds generalizing exp mantissa with
  | zero =>
    have last : ¬ 0x3FFFF < mantissa := by
      rw [guard_iff]
      omega
    cases more with
    | zero => rfl
    | succ more =>
      rw [Nat.zero_add]
      simp only [encodeRembFrom, if_neg last]
  | succ rounds ih =>
    rw [Nat.add_right_comm, encodeRembFrom, encodeRembFrom]
    split
    · refine ih _ _ ?_
      rw [shift_toNat]
      rw [← Nat.add_assoc, Nat.pow_succ] at short
      omega
    · rfl

theorem encode_truncates (b : UInt64) :
    Truncates 17 b.toNat (encodeRembBitrate b).1.toNat (encodeRembBitrate b).2.toNat := by
  have range := b.toNat_lt
  exact encodeRembFrom_truncates 64 (.start b) (by omega) (by decide)

theorem encode_ended (b : UInt64) (more : Nat) :
    encodeRembFrom (46 + more) 0 b = encodeRembBitrate b := by
  have range : b.toNat < 2 ^ (18 + 46) := b.toNat_lt
  rw [encodeRembFrom_ended 46 0 b range]
  exact (encodeRembFrom_ended 46 0 b range 18).symm

theorem exponent_le (b : UInt64) : (encodeRembBitrate b).1.toNat ≤ 46 :=
  (encode_truncates b).exponent_le b.toNat_lt

/-- Byte 17 holds the exponent above the two top bits of the mantissa. -/
theorem octet_toNat {exp : UInt8} {mantissa : UInt32} (small : exp.toNat < 64)
    (fits : mantissa.toNat < 2 ^ 18) :
    (exp <<< 2 ||| (mantissa >>> 16).toUInt8 &&& 0x03).toNat = 4 * exp.toNat + mantissa.toNat / 65536 := by
  have high : (exp <<< 2).toNat = 4 * exp.toNat := by
    rw [UInt8.toNat_shiftLeft]
    show (exp.toNat <<< 2) % 2 ^ 8 = 4 * exp.toNat
    rw [Nat.shiftLeft_eq]
    omega
  have low : ((mantissa >>> 16).toUInt8 &&& 0x03).toNat = mantissa.toNat / 65536 := by
    rw [UInt8.toNat_and, UInt32.toNat_toUInt8, UInt32.toNat_shiftRight]
    show (mantissa.toNat >>> 16 % 2 ^ 8) &&& (2 ^ 2 - 1) = mantissa.toNat / 65536
    rw [Nat.and_two_pow_sub_one_eq_mod, Nat.shiftRight_eq_div_pow]
    omega
  have parts := Nat.two_pow_add_eq_or_of_lt (show mantissa.toNat / 65536 < 2 ^ 2 by omega) exp.toNat
  rw [UInt8.toNat_or, high, low]
  exact parts.symm

section Packet
variable (b : UInt64) (ssrc : UInt32)

theorem mantissa_lt : (encodeRembBitrate b).2.toNat < 2 ^ 18 := (encode_truncates b).fits

theorem byte17 : (byteAt (buildRemb b ssrc) 17).toNat =
    4 * (encodeRembBitrate b).1.toNat + (encodeRembBitrate b).2.toNat / 65536 :=
  octet_toNat (Nat.lt_of_le_of_lt (exponent_le b) (by decide)) (mantissa_lt b)

theorem readExponent_build : readExponent (buildRemb b ssrc) = (encodeRembBitrate b).1.toNat := by
  have fits := mantissa_lt b
  rw [readExponent, UInt8.toNat_shiftRight, byte17]
  show _ >>> 2 = _
  rw [Nat.shiftRight_eq_div_pow]
  omega

theorem readMantissa_build : readMantissa (buildRemb b ssrc) = (encodeRembBitrate b).2.toNat := by
  have fits := mantissa_lt b
  have top : (byteAt (buildRemb b ssrc) 17 &&& 0x03).toNat = (encodeRembBitrate b).2.toNat / 65536 := by
    rw [UInt8.toNat_and, byte17]
    show _ &&& (2 ^ 2 - 1) = _
    rw [Nat.and_two_pow_sub_one_eq_mod]
    omega
  have middle : (byteAt (buildRemb b ssrc) 18).toNat = (encodeRembBitrate b).2.toNat / 256 % 256 := by
    show ((encodeRembBitrate b).2 >>> 8).toUInt8.toNat = _
    rw [UInt32.toNat_toUInt8, UInt32.toNat_shiftRight]
    exact congrArg (· % 256) (Nat.shiftRight_eq_div_pow _ 8)
  have bottom : (byteAt (buildRemb b ssrc) 19).toNat = (encodeRembBitrate b).2.toNat % 256 :=
    UInt32.toNat_toUInt8 _
  rw [readMantissa, top, middle, bottom]
  omega

theorem build_truncates : Truncates 17 b.toNat (readExponent (buildRemb b ssrc))
    (readMantissa (buildRemb b ssrc)) := by
  rw [readExponent_build, readMantissa_build]
  exact encode_truncates b

end Packet

/-- What a receiver reads from the packet of a bitrate. -/
structure Carries (b : UInt64) (p : Bytes) : Prop where
  lower : readMantissa p * 2 ^ readExponent p ≤ b.toNat
  upper : b.toNat < (readMantissa p + 1) * 2 ^ readExponent p
  small : b.toNat < 2 ^ 18 → readMantissa p = b.toNat
  large : 2 ^ 18 ≤ b.toNat → 2 ^ 17 ≤ readMantissa p

/-- The loop is over after 46 rounds, and its result goes into the packet unclipped. -/
structure LoopFits (b : UInt64) (p : Bytes) : Prop where
  ended : ∀ more, encodeRembFrom (46 + more) 0 b = encodeRembBitrate b
  exponent : (encodeRembBitrate b).1.toNat < 64
  mantissa : (encodeRembBitrate b).2.toNat < 2 ^ 18
  sameExponent : readExponent p = (encodeRembBitrate b).1.toNat
  sameMantissa : readMantissa p = (encodeRembBitrate b).2.toNat

/-- Neither the rate nor its field of 24 bits falls when the bitrate rises. -/
structure Ordered (p p' : Bytes) : Prop where
  value : readMantissa p * 2 ^ readExponent p ≤ readMantissa p' * 2 ^ readExponent p'
  field : readExponent p * 2 ^ 18 + readMantissa p ≤ readExponent p' * 2 ^ 18 + readMantissa p'

theorem remb_bitrate_law (b : UInt64) (ssrc : UInt32) :
    Carries b (buildRemb b ssrc) ∧ LoopFits b (buildRemb b ssrc) ∧
      ∀ b' ssrc', b ≤ b' → Ordered (buildRemb b ssrc) (buildRemb b' ssrc') := by
  have here := build_truncates b ssrc
  refine ⟨⟨here.lower, here.upper, here.exact_small, here.top_bit⟩,
    ⟨encode_ended b, Nat.lt_of_le_of_lt (exponent_le b) (by decide), mantissa_lt b,
      readExponent_build b ssrc, readMantissa_build b ssrc⟩, ?_⟩
  intro b' ssrc' order
  have above := build_truncates b' ssrc'
  have numbers : b.toNat ≤ b'.toNat := UInt64.le_iff_toNat_le.mp order
  exact ⟨here.value_mono above numbers, here.field_mono above numbers⟩

theorem top_rates_ordered : Ordered (buildRemb 18446744073709551614 1) (buildRemb 18446744073709551615 2) :=
  (remb_bitrate_law 18446744073709551614 1).2.2 18446744073709551615 2 (by decide)

end RembBitrate
