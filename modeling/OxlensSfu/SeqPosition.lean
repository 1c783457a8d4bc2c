import Mathlib.Data.Int.Bitwise

/-
16-bit numbers as residues of unbounded integer positions. The signed distance between
two numbers is the distance of their positions as long as these are less than half the
range apart.
-/
namespace SeqPosition

theorem toNat_ofInt (p : Int) : ((UInt16.ofInt p).toNat : Int) = p % 65536 := by
  have positive := Int.emod_nonneg p (show (2 ^ 16 : Int) ≠ 0 by decide)
  have below := Int.emod_lt_of_pos p (show (0 : Int) < 2 ^ 16 by decide)
  rw [UInt16.ofInt, UInt16.toNat_ofNat']
  omega

theorem bmod_ofInt {d : Int} (low : -32768 ≤ d) (high : d < 32768) :
    Int.bmod (UInt16.ofInt d).toNat 65536 = d := by
  rw [toNat_ofInt]
  exact (Int.emod_bmod d 65536).trans (Int.bmod_eq_of_le (by omega) (by omega))

theorem ofInt_sub (p q : Int) : UInt16.ofInt (p - q) = UInt16.ofInt p - UInt16.ofInt q := by
  rw [Int.sub_eq_add_neg, UInt16.ofInt_add, UInt16.ofInt_neg, UInt16.sub_eq_add_neg]

theorem ofInt_ofNat (n : Nat) : UInt16.ofInt n = UInt16.ofNat n := by
  apply UInt16.toNat_inj.mp
  have value := toNat_ofInt n
  rw [UInt16.toNat_ofNat']
  omega

theorem ofInt_toNat (seq : UInt16) : UInt16.ofInt seq.toNat = seq := by
  rw [ofInt_ofNat]
  exact UInt16.ofNat_toNat

/-- How far `seq` lies ahead of `reference`, negative behind it. -/
def ahead (seq reference : UInt16) : Int := Int.bmod (seq - reference).toNat 65536

/-- The position of a number near a known one. -/
def near (reference : Int) (seq : UInt16) : Int := reference + ahead seq (UInt16.ofInt reference)

theorem ofInt_near (reference : Int) (seq : UInt16) : UInt16.ofInt (near reference seq) = seq := by
  have residue : UInt16.ofInt (ahead seq (UInt16.ofInt reference)) = seq - UInt16.ofInt reference := by
    apply UInt16.toNat_inj.mp
    have value := toNat_ofInt (ahead seq (UInt16.ofInt reference))
    have := (seq - UInt16.ofInt reference).toNat_lt
    have cut := @Int.bmod_emod ((seq - UInt16.ofInt reference).toNat) 65536
    unfold ahead at value ⊢
    omega
  rw [near, UInt16.ofInt_add, residue, UInt16.add_comm, UInt16.sub_add_cancel]

theorem ahead_pos_iff (seq reference : UInt16) :
    0 < ahead seq reference ↔ 0 < seq - reference ∧ seq - reference < 0x8000 := by
  have below := (seq - reference).toNat_lt
  have definition := Int.bmod_def (seq - reference).toNat 65536
  rw [UInt16.lt_iff_toNat_lt, UInt16.lt_iff_toNat_lt]
  change _ ↔ 0 < (seq - reference).toNat ∧ (seq - reference).toNat < 32768
  unfold ahead
  rw [definition]
  split <;> omega

/-- Numbers that are few apart in either direction have positions that are few apart. -/
theorem ahead_bound {seq reference : UInt16} {n : Nat} (few : n < 32768)
    (close : (seq - reference).toNat ≤ n ∨ (reference - seq).toNat ≤ n) :
    -(n : Int) ≤ ahead seq reference ∧ ahead seq reference ≤ n := by
  have definition := Int.bmod_def (seq - reference).toNat 65536
  have range := (seq - reference).toNat_lt
  rw [UInt16.toNat_sub, UInt16.toNat_sub] at close
  rw [UInt16.toNat_sub] at definition range
  have left := seq.toNat_lt
  have right := reference.toNat_lt
  unfold ahead
  rw [UInt16.toNat_sub, definition]
  split <;> omega

end SeqPosition
