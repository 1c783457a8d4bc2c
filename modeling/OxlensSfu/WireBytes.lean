import Mathlib.Data.List.Basic

/-
Byte strings on the wire: big-endian fields, slices and in-place writes.
Reading past the end gives zero; a reader guards its reads as its source does.
-/
namespace WireBytes

abbrev Bytes := List UInt8

def be16 (a b : UInt8) : UInt16 := UInt16.ofNat (a.toNat * 256 + b.toNat)

def be32 (a b c d : UInt8) : UInt32 :=
  UInt32.ofNat (((a.toNat * 256 + b.toNat) * 256 + c.toNat) * 256 + d.toNat)

def bytes16 (x : UInt16) : Bytes := [UInt8.ofNat (x.toNat / 256), UInt8.ofNat (x.toNat % 256)]

def bytes32 (x : UInt32) : Bytes :=
  [UInt8.ofNat (x.toNat / 16777216), UInt8.ofNat (x.toNat / 65536 % 256),
    UInt8.ofNat (x.toNat / 256 % 256), UInt8.ofNat (x.toNat % 256)]

def byteAt (p : Bytes) (i : Nat) : UInt8 := p.getD i 0
def u16At (p : Bytes) (i : Nat) : UInt16 := be16 (byteAt p i) (byteAt p (i + 1))
def u32At (p : Bytes) (i : Nat) : UInt32 :=
  be32 (byteAt p i) (byteAt p (i + 1)) (byteAt p (i + 2)) (byteAt p (i + 3))

/-- The bytes from offset `i` up to, not including, offset `j`. -/
def slice (p : Bytes) (i j : Nat) : Bytes := (p.take j).drop i

/-- Writes `bs` over the bytes of `p` that start at offset `i`. -/
def overwrite (p : Bytes) (i : Nat) (bs : Bytes) : Bytes :=
  p.take i ++ bs ++ p.drop (i + bs.length)

@[simp] theorem be16_bytes16 (x : UInt16) :
    be16 (UInt8.ofNat (x.toNat / 256)) (UInt8.ofNat (x.toNat % 256)) = x := by
  apply UInt16.toNat_inj.mp
  have := x.toNat_lt
  simp only [be16, UInt8.toNat_ofNat', UInt16.toNat_ofNat']
  omega

@[simp] theorem be32_bytes32 (x : UInt32) :
    be32 (UInt8.ofNat (x.toNat / 16777216)) (UInt8.ofNat (x.toNat / 65536 % 256))
      (UInt8.ofNat (x.toNat / 256 % 256)) (UInt8.ofNat (x.toNat % 256)) = x := by
  apply UInt32.toNat_inj.mp
  have := x.toNat_lt
  simp only [be32, UInt8.toNat_ofNat', UInt32.toNat_ofNat']
  omega

theorem be16_toNat (a b : UInt8) : (be16 a b).toNat = a.toNat * 256 + b.toNat := by
  have := a.toNat_lt
  have := b.toNat_lt
  simp only [be16, UInt16.toNat_ofNat']
  omega

theorem be16_injective {a b c d : UInt8} (same : be16 a b = be16 c d) : a = c ∧ b = d := by
  have values := congrArg UInt16.toNat same
  rw [be16_toNat, be16_toNat] at values
  have := a.toNat_lt
  have := b.toNat_lt
  have := c.toNat_lt
  have := d.toNat_lt
  exact ⟨UInt8.toNat_inj.mp (by omega), UInt8.toNat_inj.mp (by omega)⟩

theorem be32_injective {a b c d a' b' c' d' : UInt8} (same : be32 a b c d = be32 a' b' c' d') :
    a = a' ∧ b = b' ∧ c = c' ∧ d = d' := by
  have values := congrArg UInt32.toNat same
  simp only [be32, UInt32.toNat_ofNat'] at values
  have := a.toNat_lt
  have := b.toNat_lt
  have := c.toNat_lt
  have := d.toNat_lt
  have := a'.toNat_lt
  have := b'.toNat_lt
  have := c'.toNat_lt
  have := d'.toNat_lt
  refine ⟨UInt8.toNat_inj.mp ?_, UInt8.toNat_inj.mp ?_, UInt8.toNat_inj.mp ?_,
    UInt8.toNat_inj.mp ?_⟩ <;> omega

@[simp] theorem bytes16_be16 (a b : UInt8) : bytes16 (be16 a b) = [a, b] := by
  have := a.toNat_lt
  have := b.toNat_lt
  simp only [bytes16, be16_toNat, List.cons.injEq, and_true]
  exact ⟨UInt8.toNat_inj.mp (by simp only [UInt8.toNat_ofNat']; omega),
    UInt8.toNat_inj.mp (by simp only [UInt8.toNat_ofNat']; omega)⟩

@[simp] theorem length_bytes16 (x : UInt16) : (bytes16 x).length = 2 := rfl
@[simp] theorem length_bytes32 (x : UInt32) : (bytes32 x).length = 4 := rfl

theorem length_overwrite {p : Bytes} {i : Nat} {bs : Bytes} (fits : i + bs.length ≤ p.length) :
    (overwrite p i bs).length = p.length := by
  simp only [overwrite, List.length_append, List.length_take, List.length_drop]
  omega

theorem byteAt_append_left {p q : Bytes} {i : Nat} (inside : i < p.length) :
    byteAt (p ++ q) i = byteAt p i := by
  simp [byteAt, List.getD_eq_getElem?_getD, List.getElem?_append_left inside]

theorem byteAt_append_right {p q : Bytes} {i : Nat} (past : p.length ≤ i) :
    byteAt (p ++ q) i = byteAt q (i - p.length) := by
  simp [byteAt, List.getD_eq_getElem?_getD, List.getElem?_append_right past]

theorem byteAt_behind (p q : Bytes) (i : Nat) : byteAt (p ++ q) (p.length + i) = byteAt q i := by
  rw [byteAt_append_right (by omega), Nat.add_sub_cancel_left]

theorem byteAt_take {p : Bytes} {i n : Nat} (inside : i < n) : byteAt (p.take n) i = byteAt p i := by
  simp [byteAt, List.getD_eq_getElem?_getD, List.getElem?_take_of_lt inside]

theorem byteAt_drop (p : Bytes) (i n : Nat) : byteAt (p.drop n) i = byteAt p (n + i) := by
  simp [byteAt, List.getD_eq_getElem?_getD]

theorem byteAt_overwrite_inside {p : Bytes} {i k : Nat} {bs : Bytes} (start : i ≤ p.length)
    (lower : i ≤ k) (upper : k < i + bs.length) :
    byteAt (overwrite p i bs) k = byteAt bs (k - i) := by
  have len : (p.take i).length = i := by simp [start]
  rw [overwrite, byteAt_append_left (by simp only [List.length_append, len]; omega),
    byteAt_append_right (by omega), len]

theorem byteAt_overwrite_outside {p : Bytes} {i k : Nat} {bs : Bytes}
    (fits : i + bs.length ≤ p.length) (outside : k < i ∨ i + bs.length ≤ k) :
    byteAt (overwrite p i bs) k = byteAt p k := by
  have len : (p.take i).length = i := by simp only [List.length_take]; omega
  rcases outside with before | after
  · rw [overwrite, List.append_assoc, byteAt_append_left (by omega), byteAt_take before]
  · rw [overwrite, byteAt_append_right (by simp only [List.length_append, len]; omega),
      byteAt_drop]
    congr 1
    simp only [List.length_append, len]
    omega

/-- A mask distributes over a union of bits. -/
theorem or_masked (a b m : UInt8) : (a ||| b) &&& m = (a &&& m) ||| (b &&& m) := by
  apply UInt8.toNat_inj.mp
  simp only [UInt8.toNat_and, UInt8.toNat_or]
  rw [Nat.and_or_distrib_right]

theorem u16At_take {p : Bytes} {n i : Nat} (inside : i + 2 ≤ n) : u16At (p.take n) i = u16At p i := by
  rw [u16At, byteAt_take (by omega), byteAt_take (by omega), u16At]

theorem u16At_append_left {p q : Bytes} {i : Nat} (inside : i + 2 ≤ p.length) :
    u16At (p ++ q) i = u16At p i := by
  rw [u16At, byteAt_append_left (by omega), byteAt_append_left (by omega), u16At]

theorem u16At_append_right (p q : Bytes) (i : Nat) : u16At (p ++ q) (p.length + i) = u16At q i := by
  rw [u16At, byteAt_append_right (by omega), byteAt_append_right (by omega), u16At]
  congr 2 <;> omega

theorem u32At_append_left {p q : Bytes} {i : Nat} (inside : i + 4 ≤ p.length) :
    u32At (p ++ q) i = u32At p i := by
  rw [u32At, byteAt_append_left (by omega), byteAt_append_left (by omega),
    byteAt_append_left (by omega), byteAt_append_left (by omega), u32At]

@[simp] theorem u16At_bytes16 (x : UInt16) (rest : Bytes) : u16At (bytes16 x ++ rest) 0 = x :=
  be16_bytes16 x

theorem u16At_overwrite {p : Bytes} {i : Nat} (x : UInt16) (fits : i + 2 ≤ p.length) :
    u16At (overwrite p i (bytes16 x)) i = x := by
  rw [u16At, byteAt_overwrite_inside (by omega) (by omega) (by simp),
    byteAt_overwrite_inside (by omega) (by omega) (by simp)]
  simp [byteAt, bytes16]

theorem u32At_overwrite {p : Bytes} {i : Nat} (x : UInt32) (fits : i + 4 ≤ p.length) :
    u32At (overwrite p i (bytes32 x)) i = x := by
  rw [u32At, byteAt_overwrite_inside (by omega) (by omega) (by simp),
    byteAt_overwrite_inside (by omega) (by omega) (by simp),
    byteAt_overwrite_inside (by omega) (by omega) (by simp),
    byteAt_overwrite_inside (by omega) (by omega) (by simp)]
  simp [byteAt, bytes32]

theorem u16At_overwrite_outside {p : Bytes} {i k : Nat} {bs : Bytes}
    (fits : i + bs.length ≤ p.length) (outside : k + 2 ≤ i ∨ i + bs.length ≤ k) :
    u16At (overwrite p i bs) k = u16At p k := by
  rw [u16At, byteAt_overwrite_outside fits (by omega), byteAt_overwrite_outside fits (by omega),
    u16At]

theorem u32At_overwrite_outside {p : Bytes} {i k : Nat} {bs : Bytes}
    (fits : i + bs.length ≤ p.length) (outside : k + 4 ≤ i ∨ i + bs.length ≤ k) :
    u32At (overwrite p i bs) k = u32At p k := by
  rw [u32At, byteAt_overwrite_outside fits (by omega), byteAt_overwrite_outside fits (by omega),
    byteAt_overwrite_outside fits (by omega), byteAt_overwrite_outside fits (by omega), u32At]

theorem drop_overwrite {p : Bytes} {i n : Nat} {bs : Bytes} (fits : i + bs.length ≤ p.length)
    (after : i + bs.length ≤ n) : (overwrite p i bs).drop n = p.drop n := by
  have len : (p.take i ++ bs).length = i + bs.length := by
    simp only [List.length_append, List.length_take]; omega
  rw [overwrite, List.drop_append, List.drop_eq_nil_of_le (by omega), List.nil_append,
    List.drop_drop, len]
  congr 1
  omega

theorem slice_middle (front value back : Bytes) :
    slice (front ++ value ++ back) front.length (front.length + value.length) = value := by
  rw [slice, List.take_left' List.length_append, List.drop_left' rfl]

theorem slice_two {p : Bytes} {i : Nat} (inside : i + 2 ≤ p.length) :
    slice p i (i + 2) = bytes16 (u16At p i) := by
  rw [u16At, bytes16_be16]
  apply List.ext_getElem
  · simp only [slice, List.length_drop, List.length_take, List.length_cons, List.length_nil]
    omega
  · intro k left right
    have low : k < 2 := right
    rcases (by omega : k = 0 ∨ k = 1) with rfl | rfl
    · simp [slice, byteAt, List.getD_eq_getElem?_getD, show i < p.length by omega]
    · simp [slice, byteAt, List.getD_eq_getElem?_getD, show i + 1 < p.length by omega]

theorem slice_eq_iff {p q : Bytes} {i j : Nat} (left : j ≤ p.length) (right : j ≤ q.length) :
    slice p i j = slice q i j ↔ ∀ k, i ≤ k → k < j → byteAt p k = byteAt q k := by
  have read : ∀ (b : Bytes) k, i ≤ k → k < j → byteAt (slice b i j) (k - i) = byteAt b k := by
    intro b k lower upper
    rw [slice, byteAt_drop, Nat.add_sub_of_le lower, byteAt_take upper]
  constructor
  · intro same k lower upper
    rw [← read p k lower upper, ← read q k lower upper, same]
  · intro same
    apply List.ext_getElem
    · simp only [slice, List.length_drop, List.length_take]
      omega
    · intro k hp hq
      have bound : k + i < j := by
        simp only [slice, List.length_drop, List.length_take] at hp
        omega
      have bytes := same (k + i) (by omega) bound
      rw [← read p (k + i) (by omega) bound, ← read q (k + i) (by omega) bound,
        Nat.add_sub_cancel] at bytes
      simpa [byteAt, List.getD_eq_getElem?_getD, hp, hq] using bytes

end WireBytes
