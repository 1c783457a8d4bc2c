import OxlensSfu.WireBytes

/-
Reads that can fail. A read, a slice or a write past the end of its buffer is a fault; so
is a subtraction below zero, and a loop that would go on when its fuel is spent.
-/
namespace CheckedReads
open WireBytes

inductive Fault where
  | outOfBounds
  | underflow
  | outOfFuel
  deriving DecidableEq, Repr

abbrev Checked (α : Type) := Except Fault α

section Operations
variable {α : Type}

/-- `buf[i]`. -/
def read (buf : List α) (i : Nat) : Checked α :=
  match buf[i]? with
  | some a => .ok a
  | none => .error .outOfBounds

/-- `buf[i..j]`. -/
def readRange (buf : List α) (i j : Nat) : Checked (List α) :=
  if i ≤ j ∧ j ≤ buf.length then .ok ((buf.take j).drop i) else .error .outOfBounds

/-- `buf[..j]`. -/
def readTo (buf : List α) (j : Nat) : Checked (List α) := readRange buf 0 j

/-- `buf[i..]`. -/
def readFrom (buf : List α) (i : Nat) : Checked (List α) := readRange buf i buf.length

/-- `buf[i..i + n].copy_from_slice(bs)` with the `n` bytes of `bs`. -/
def writeAt (buf : Bytes) (i : Nat) (bs : Bytes) : Checked Bytes :=
  if i + bs.length ≤ buf.length then .ok (overwrite buf i bs) else .error .outOfBounds

def sub (a b : Nat) : Checked Nat := if b ≤ a then .ok (a - b) else .error .underflow

end Operations

def readU16 (buf : Bytes) (i : Nat) : Checked UInt16 := do
  let a ← read buf i
  let b ← read buf (i + 1)
  return be16 a b

def readU32 (buf : Bytes) (i : Nat) : Checked UInt32 := do
  let a ← read buf i
  let b ← read buf (i + 1)
  let c ← read buf (i + 2)
  let d ← read buf (i + 3)
  return be32 a b c d

section Steps
variable {α β : Type}

@[simp] theorem ok_bind (a : α) (f : α → Checked β) : ((.ok a : Checked α) >>= f) = f a := rfl
@[simp] theorem pure_ok (a : α) : (pure a : Checked α) = .ok a := rfl

end Steps

section Inside
variable {buf bs : Bytes} {i j : Nat}

theorem read_inside (inside : i < buf.length) : read buf i = .ok (byteAt buf i) := by
  simp [read, byteAt, List.getD_eq_getElem?_getD, inside]

theorem readU16_inside (inside : i + 2 ≤ buf.length) : readU16 buf i = .ok (u16At buf i) := by
  rw [readU16, read_inside (by omega), read_inside (by omega), u16At]
  rfl

theorem readU32_inside (inside : i + 4 ≤ buf.length) : readU32 buf i = .ok (u32At buf i) := by
  rw [readU32, read_inside (by omega), read_inside (by omega), read_inside (by omega),
    read_inside (by omega), u32At]
  rfl

theorem readRange_inside (order : i ≤ j) (inside : j ≤ buf.length) :
    readRange buf i j = .ok (slice buf i j) := if_pos ⟨order, inside⟩

theorem readTo_inside (inside : j ≤ buf.length) : readTo buf j = .ok (buf.take j) :=
  readRange_inside (Nat.zero_le j) inside

theorem readFrom_inside (inside : i ≤ buf.length) : readFrom buf i = .ok (buf.drop i) := by
  rw [readFrom, readRange_inside inside (Nat.le_refl _), slice, List.take_length]

theorem writeAt_inside (fits : i + bs.length ≤ buf.length) :
    writeAt buf i bs = .ok (overwrite buf i bs) := if_pos fits

theorem sub_above (above : i ≤ j) : sub j i = .ok (j - i) := if_pos above

end Inside
end CheckedReads
