import OxlensSfu.SeqPosition
import OxlensSfu.WireBytes

/-
Transport-wide feedback packets as a receiver reads them: a header, chunks of seven
two-bit statuses, and a delta for every number that was received. Deltas count ticks
of 250 µs, the reference time counts 256 ticks.
-/
namespace TransportFeedback
open WireBytes SeqPosition

structure Feedback where
  baseSeq : UInt16
  statusCount : Nat
  referenceTime : Int
  fbPktCount : UInt8
  /-- One entry for each number from the base on; `none` was not received. -/
  deltas : List (Option Int)
  deriving DecidableEq, Repr

/-- The seven two-bit symbols of a status vector chunk, the first in the highest bits. -/
def symbols (chunk : UInt16) : List Nat :=
  (List.range 7).map fun slot => chunk.toNat / 4 ^ (6 - slot) % 4

def readChunks : Nat → Bytes → Option (List Nat × Bytes)
  | 0, bs => some ([], bs)
  | k + 1, a :: b :: bs =>
    if (be16 a b).toNat / 16384 = 3 then
      (readChunks k bs).map fun (later, rest) => (symbols (be16 a b) ++ later, rest)
    else none
  | _ + 1, _ => none

/-- Status 0 has no delta, status 1 an unsigned byte, status 2 a signed 16-bit number. -/
def readDeltas : List Nat → Bytes → Option (List (Option Int) × Bytes)
  | [], bs => some ([], bs)
  | 0 :: ss, bs => (readDeltas ss bs).map fun (later, rest) => (none :: later, rest)
  | 1 :: ss, a :: bs =>
    (readDeltas ss bs).map fun (later, rest) => (some (a.toNat : Int) :: later, rest)
  | 2 :: ss, a :: b :: bs =>
    (readDeltas ss bs).map fun (later, rest) =>
      (some (Int.bmod (be16 a b).toNat 65536) :: later, rest)
  | _, _ => none

def signed24 (a b c : UInt8) : Int := Int.bmod (a.toNat * 65536 + b.toNat * 256 + c.toNat) 16777216

/-- The feedback and the bytes that are left behind its last delta. -/
def decode (buf : Bytes) : Option (Feedback × Bytes) :=
  if buf.length < 20 then none
  else if byteAt buf 0 &&& 0xC0 ≠ 0x80 ∨ byteAt buf 0 &&& 0x1F ≠ 15 ∨ byteAt buf 1 ≠ 205 then none
  else
    let count := (u16At buf 14).toNat
    (readChunks ((count + 6) / 7) (buf.drop 20)).bind fun (statuses, afterChunks) =>
      (readDeltas (statuses.take count) afterChunks).map fun (deltas, rest) =>
        (⟨u16At buf 12, count, signed24 (byteAt buf 16) (byteAt buf 17) (byteAt buf 18),
          byteAt buf 19, deltas⟩, rest)

/-- The frame of a packet whose last bytes, behind what a reader consumes, are padding. -/
structure Padded (buf rest : Bytes) : Prop where
  aligned : buf.length % 4 = 0
  lengthField : (u16At buf 2).toNat = buf.length / 4 - 1
  flag : byteAt buf 0 &&& 0x20 ≠ 0 ↔ rest ≠ []
  last : rest ≠ [] → rest.getLast? = some (UInt8.ofNat rest.length)

/-- How many bytes of padding a packet says that it ends with. -/
def announcedPadding (buf : Bytes) : Nat :=
  if byteAt buf 0 &&& 0x20 ≠ 0 then (buf.getLastD 0).toNat else 0

/-- Bytes behind the content of a padded packet are exactly the announced ones. -/
theorem Padded.announced {buf rest : Bytes} (padded : Padded buf rest) (suffix : rest <:+ buf)
    (short : rest.length < 256) : announcedPadding buf = rest.length := by
  unfold announcedPadding
  split
  · rename_i set
    have some_ := padded.flag.mp set
    obtain ⟨content, rfl⟩ := suffix
    have last := padded.last some_
    rw [List.getLastD_eq_getLast?, List.getLast?_append, last]
    simpa using short
  · rename_i unset
    by_contra more
    exact unset (padded.flag.mpr fun empty => more (by simp [empty]))

/-- The ticks from the sender's time origin to each arrival: the reference time and
    all deltas up to the arrival's own. -/
def arrivalTicks (start : Int) : List (Option Int) → List (Option Int)
  | [] => []
  | none :: ds => none :: arrivalTicks start ds
  | some d :: ds => some (start + d) :: arrivalTicks (start + d) ds

def Feedback.ticks (fb : Feedback) : List (Option Int) :=
  arrivalTicks (fb.referenceTime * 256) fb.deltas

/-- The status that announces a delta: small deltas take a byte, all others two. -/
def statusOf : Option Int → Nat
  | none => 0
  | some d => if 0 ≤ d ∧ d ≤ 255 then 1 else 2

/-- The nearest delta that two signed bytes hold, within the range of the encoding. -/
def clampDelta (d : Int) : Int := max (-8192) (min d 8191)

def deltaBytes : Option Int → Bytes
  | none => []
  | some d =>
    if 0 ≤ d ∧ d ≤ 255 then [UInt8.ofNat d.toNat] else bytes16 (UInt16.ofInt (clampDelta d))

theorem clampDelta_small {d : Int} (low : 0 ≤ d) (high : d ≤ 255) : clampDelta d = d := by
  unfold clampDelta
  omega

theorem readChunks_words (words : List UInt16) (rest : Bytes)
    (vectors : ∀ w ∈ words, w.toNat / 16384 = 3) :
    readChunks words.length (words.flatMap bytes16 ++ rest) = some (words.flatMap symbols, rest) := by
  induction words with
  | nil => rfl
  | cons w words ih =>
    have first := vectors w List.mem_cons_self
    have later := ih fun v member => vectors v (List.mem_cons_of_mem _ member)
    simp only [List.flatMap_cons, List.length_cons, bytes16, List.cons_append, List.nil_append,
      readChunks, be16_bytes16, if_pos first]
    rw [later]
    rfl

/-- Reading the deltas gives back what was written, whatever stands behind them. -/
theorem readDeltas_deltaBytes (entries : List (Option Int)) (rest : Bytes) :
    readDeltas (entries.map statusOf) (entries.flatMap deltaBytes ++ rest) =
      some (entries.map (Option.map clampDelta), rest) := by
  induction entries with
  | nil => rfl
  | cons entry entries ih =>
    rw [List.map_cons, List.map_cons, List.flatMap_cons, List.append_assoc]
    cases entry with
    | none => simp [statusOf, deltaBytes, readDeltas, ih]
    | some d =>
      by_cases small : 0 ≤ d ∧ d ≤ 255
      · have byte : ((UInt8.ofNat d.toNat).toNat : Int) = d := by
          rw [UInt8.toNat_ofNat']
          omega
        simp only [statusOf, deltaBytes, if_pos small, readDeltas, List.singleton_append, ih,
          Option.map_some, byte, clampDelta_small small.1 small.2]
      · have word : Int.bmod (UInt16.ofInt (clampDelta d)).toNat 65536 = clampDelta d :=
          bmod_ofInt (by unfold clampDelta; omega) (by unfold clampDelta; omega)
        simp only [statusOf, deltaBytes, if_neg small, bytes16, List.cons_append, List.nil_append,
          readDeltas, be16_bytes16, ih, Option.map_some, word]

end TransportFeedback
