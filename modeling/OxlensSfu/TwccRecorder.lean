import OxlensSfu.PttRewriter
import OxlensSfu.TransportFeedback
import OxlensSfu.GuardedRun

/-
Arrival times of a publisher's packets by their transport-wide sequence number, and the
feedback packets built of them. Every feedback covers the numbers from the pending base
to the highest one recorded.
-/
namespace TwccRecorder
open WireBytes SfuConfig TransportFeedback GuardedRun
open PttRewriter (Instant)

structure ArrivalEntry where
  twccSeq : UInt16
  arrival : Instant
  deriving DecidableEq, Repr

structure Recorder where
  arrivals : Fin twccRecorderCapacity → Option ArrivalEntry
  pendingBaseSeq : UInt16
  maxSeq : UInt16
  started : Bool
  count : UInt64
  baseTime : Option Instant
  fbPktCount : UInt8

def Recorder.new : Recorder where
  arrivals := fun _ => none
  pendingBaseSeq := 0
  maxSeq := 0
  started := false
  count := 0
  baseTime := none
  fbPktCount := 0

def slot (twccSeq : UInt16) : Fin twccRecorderCapacity :=
  ⟨twccSeq.toNat % twccRecorderCapacity, Nat.mod_lt _ (by decide)⟩

/-- The highest number moves to a number that is less than half the range ahead. -/
def Recorder.record (r : Recorder) (twccSeq : UInt16) (arrival : Instant) : Recorder :=
  let stored := { r with
    arrivals := fun i => if i = slot twccSeq then some ⟨twccSeq, arrival⟩ else r.arrivals i
    count := r.count + 1 }
  if !r.started then
    { stored with
      started := true, pendingBaseSeq := twccSeq, maxSeq := twccSeq, baseTime := some arrival }
  else if 0 < twccSeq - r.maxSeq ∧ twccSeq - r.maxSeq < 0x8000 then { stored with maxSeq := twccSeq }
  else stored

def Recorder.get (r : Recorder) (twccSeq : UInt16) : Option ArrivalEntry :=
  (r.arrivals (slot twccSeq)).filter fun e => e.twccSeq = twccSeq

def Recorder.advanceBase (r : Recorder) (newBase : UInt16) : Recorder :=
  { r with pendingBaseSeq := newBase }

def Recorder.pendingCount (r : Recorder) : UInt16 :=
  if !r.started then 0 else r.maxSeq - r.pendingBaseSeq + 1

inductive PacketStatus where
  | notReceived
  | smallDelta
  | largeDelta
  deriving DecidableEq, Repr

def PacketStatus.code : PacketStatus → UInt16
  | .notReceived => 0
  | .smallDelta => 1
  | .largeDelta => 2

/-- `later.duration_since(earlier).as_micros() as i64`. -/
def microsSince (later earlier : Instant) : Int := Int.bmod (((later - earlier) / 1000 : Nat) : Int) (2 ^ 64)

/-- The time from `baseTime` in steps of 250 µs. -/
def offset250us (baseTime arrival : Instant) : Int := (microsSince arrival baseTime).tdiv 250

/-- The first delta counts from the reference time, every other one from the arrival before. -/
def delta250us (baseTime : Instant) (prevArrival : Option Instant) (arrival : Instant) : Int :=
  match prevArrival with
  | some prev =>
    if prev ≤ arrival then (microsSince arrival prev).tdiv 250 else -(microsSince prev arrival).tdiv 250
  | none => offset250us baseTime arrival - (offset250us baseTime arrival).tdiv 256 * 256

def statusFor (delta : Int) : PacketStatus :=
  if 0 ≤ delta ∧ delta ≤ 255 then .smallDelta
  else if -8192 ≤ delta ∧ delta ≤ 8191 then .largeDelta
  else .largeDelta

structure Scan where
  statuses : List PacketStatus
  deltas : List Int
  firstArrival : Option Instant
  prevArrival : Option Instant
  deriving DecidableEq, Repr

def scanStep (r : Recorder) (baseTime : Instant) (s : Scan) (i : Nat) : Scan :=
  match r.get (r.pendingBaseSeq + UInt16.ofNat i) with
  | some entry =>
    let delta := delta250us baseTime s.prevArrival entry.arrival
    { statuses := s.statuses ++ [statusFor delta]
      deltas := s.deltas ++ [delta]
      firstArrival := if s.firstArrival.isNone then some entry.arrival else s.firstArrival
      prevArrival := some entry.arrival }
  | none => { s with statuses := s.statuses ++ [.notReceived] }

def scan (r : Recorder) (baseTime : Instant) : Scan :=
  (List.range r.pendingCount.toNat).foldl (scanStep r baseTime) ⟨[], [], none, none⟩

/-- A chunk of seven statuses; past the end of the list they read as not received. -/
def statusChunk (statuses : List PacketStatus) : UInt16 :=
  (List.range 7).foldl
    (fun chunk slot => chunk ||| (statuses.getD slot .notReceived).code <<< UInt16.ofNat (12 - slot * 2))
    0xC000

def chunksFrom : Nat → List PacketStatus → List UInt16
  | _, [] => []
  | 0, _ => []
  | fuel + 1, statuses => statusChunk statuses :: chunksFrom fuel (statuses.drop 7)

def encodeStatusChunks (statuses : List PacketStatus) : List UInt16 :=
  chunksFrom statuses.length statuses

def encodeRecvDeltas : List PacketStatus → List Int → Bytes
  | [], _ => []
  | .notReceived :: ss, ds => encodeRecvDeltas ss ds
  | _ :: ss, [] => encodeRecvDeltas ss []
  | .smallDelta :: ss, d :: ds => UInt8.ofNat (max 0 (min d 255)).toNat :: encodeRecvDeltas ss ds
  | .largeDelta :: ss, d :: ds =>
    bytes16 (UInt16.ofInt (max (-8192) (min d 8191))) ++ encodeRecvDeltas ss ds

/-- The low 24 bits of the time of the first arrival, in steps of 64 ms. -/
def referenceTime24 (baseTime firstArrival : Instant) : Nat :=
  ((offset250us baseTime firstArrival).tdiv 256 % 16777216).toNat

/-- Zeros up to the total length; the last byte of the padding counts it. -/
def padTo (totalLen padCount : Nat) (buf : Bytes) : Bytes :=
  let filled := buf ++ List.replicate (totalLen - buf.length) 0
  if 0 < padCount then filled.dropLast ++ [UInt8.ofNat padCount] else filled

/-- The packet around its chunks and delta bytes. -/
def assemble (r : Recorder) (mediaSsrc : UInt32) (referenceTime : Nat) (chunks : List UInt16)
    (deltaBytes : Bytes) : Bytes :=
  let payloadLen := 8 + chunks.length * 2 + deltaBytes.length
  let bodyLen := 12 + payloadLen
  let paddedBody := (bodyLen + 3) / 4 * 4
  let totalLen := 4 + paddedBody
  padTo totalLen (totalLen - (4 + bodyLen)) <|
    [if bodyLen < paddedBody then 0xAF else 0x8F, rtcpPtRtpfb] ++
      bytes16 (UInt16.ofNat (paddedBody / 4)) ++ bytes32 1 ++ bytes32 mediaSsrc ++
      bytes16 r.pendingBaseSeq ++ bytes16 r.pendingCount ++
      [UInt8.ofNat (referenceTime / 65536), UInt8.ofNat (referenceTime / 256 % 256),
        UInt8.ofNat (referenceTime % 256), r.fbPktCount] ++
      chunks.flatMap bytes16 ++ deltaBytes

def buildTwccFeedback (r : Recorder) (mediaSsrc : UInt32) : Recorder × Option Bytes :=
  if !r.started || r.pendingCount = 0 then (r, none)
  else match r.baseTime with
    | none => (r, none)
    | some baseTime =>
      if UInt16.ofNat twccRecorderCapacity < r.pendingCount then (r.advanceBase (r.maxSeq - 100), none)
      else
        let scanned := scan r baseTime
        match scanned.firstArrival with
        | none => (r, none)
        | some firstArrival =>
          ({ r with fbPktCount := r.fbPktCount + 1 }.advanceBase (r.pendingBaseSeq + r.pendingCount),
            some (assemble r mediaSsrc (referenceTime24 baseTime firstArrival)
              (encodeStatusChunks scanned.statuses) (encodeRecvDeltas scanned.statuses scanned.deltas)))

/-- The arrivals that the recorder holds for the numbers of its next feedback. -/
def held (r : Recorder) : List (Option Instant) :=
  (List.range r.pendingCount.toNat).map fun i =>
    (r.get (r.pendingBaseSeq + UInt16.ofNat i)).map (·.arrival)

/-- The delta of each arrival, given the arrival before the list. -/
def deltasOf (baseTime : Instant) : Option Instant → List (Option Instant) → List (Option Int)
  | _, [] => []
  | prev, none :: hs => none :: deltasOf baseTime prev hs
  | prev, some a :: hs => some (delta250us baseTime prev a) :: deltasOf baseTime (some a) hs

def statusOfEntry : Option Int → PacketStatus
  | none => .notReceived
  | some d => statusFor d

theorem statusOfEntry_code (entry : Option Int) : (statusOfEntry entry).code.toNat = statusOf entry := by
  cases entry with
  | none => rfl
  | some d =>
    simp only [statusOfEntry, statusFor, statusOf]
    split
    · rfl
    · split <;> rfl

def scanHeld (baseTime : Instant) (s : Scan) : Option Instant → Scan
  | some arrival =>
    { statuses := s.statuses ++ [statusFor (delta250us baseTime s.prevArrival arrival)]
      deltas := s.deltas ++ [delta250us baseTime s.prevArrival arrival]
      firstArrival := if s.firstArrival.isNone then some arrival else s.firstArrival
      prevArrival := some arrival }
  | none => { s with statuses := s.statuses ++ [.notReceived] }

theorem scan_eq_foldl (r : Recorder) (baseTime : Instant) :
    scan r baseTime = (held r).foldl (scanHeld baseTime) ⟨[], [], none, none⟩ := by
  rw [held, List.foldl_map, scan]
  congr 1
  funext s i
  unfold scanStep
  cases r.get (r.pendingBaseSeq + UInt16.ofNat i) <;> rfl

theorem foldl_scanHeld (baseTime : Instant) (hs : List (Option Instant)) (s : Scan) :
    let out := hs.foldl (scanHeld baseTime) s
    out.statuses = s.statuses ++ (deltasOf baseTime s.prevArrival hs).map statusOfEntry ∧
      out.deltas = s.deltas ++ (deltasOf baseTime s.prevArrival hs).filterMap id ∧
      out.firstArrival = s.firstArrival.or (hs.findSome? id) := by
  induction hs generalizing s with
  | nil => simp [deltasOf]
  | cons h hs ih =>
    obtain ⟨statuses, deltas, first⟩ := ih (scanHeld baseTime s h)
    cases h with
    | none => exact ⟨by simpa [deltasOf, statusOfEntry, scanHeld] using statuses,
        by simpa [deltasOf, scanHeld] using deltas, by simpa [scanHeld] using first⟩
    | some a =>
      refine ⟨by simpa [deltasOf, statusOfEntry, scanHeld] using statuses,
        by simpa [deltasOf, scanHeld] using deltas, ?_⟩
      cases found : s.firstArrival <;> simpa [scanHeld, found] using first

theorem scan_spec (r : Recorder) (baseTime : Instant) :
    (scan r baseTime).statuses = (deltasOf baseTime none (held r)).map statusOfEntry ∧
      (scan r baseTime).deltas = (deltasOf baseTime none (held r)).filterMap id ∧
      (scan r baseTime).firstArrival = (held r).findSome? id := by
  rw [scan_eq_foldl]
  simpa using foldl_scanHeld baseTime (held r) ⟨[], [], none, none⟩

theorem deltasOf_isSome (baseTime : Instant) (hs : List (Option Instant)) (prev : Option Instant) :
    (deltasOf baseTime prev hs).map (·.isSome) = hs.map (·.isSome) := by
  induction hs generalizing prev with
  | nil => rfl
  | cons h hs ih => cases h <;> simp [deltasOf, ih]

theorem encodeRecvDeltas_entries (entries : List (Option Int)) :
    encodeRecvDeltas (entries.map statusOfEntry) (entries.filterMap id) = entries.flatMap deltaBytes := by
  induction entries with
  | nil => rfl
  | cons entry entries ih =>
    cases entry with
    | none => simpa [statusOfEntry, encodeRecvDeltas, deltaBytes] using ih
    | some d =>
      rw [List.filterMap_cons_some (show id (some d) = some d from rfl), List.map_cons,
        List.flatMap_cons]
      simp only [statusOfEntry, statusFor, deltaBytes]
      by_cases small : 0 ≤ d ∧ d ≤ 255
      · have same : max 0 (min d 255) = d := by omega
        simp only [if_pos small, encodeRecvDeltas, same, ih, List.singleton_append]
      · simp only [if_neg small, ite_self, encodeRecvDeltas, ih]
        rfl

theorem or_toNat {a b : UInt16} {k : Nat} (high : a.toNat % 2 ^ k = 0) (low : b.toNat < 2 ^ k) :
    (a ||| b).toNat = a.toNat + b.toNat := by
  have split := Nat.div_add_mod a.toNat (2 ^ k)
  rw [UInt16.toNat_or, ← split, high, Nat.add_zero, Nat.two_pow_add_eq_or_of_lt low]

theorem code_shift (s : PacketStatus) (slot : Fin 7) :
    (s.code <<< UInt16.ofNat (12 - slot * 2)).toNat = s.code.toNat * 4 ^ (6 - slot.val) := by
  revert slot
  cases s <;> decide

theorem code_lt (s : PacketStatus) : s.code.toNat < 3 := by cases s <;> decide

/-- The first `k` symbols of a chunk, behind the two bits of its type, as a number. -/
def vectorValue (statuses : List PacketStatus) : Nat → Nat
  | 0 => 3
  | k + 1 => vectorValue statuses k * 4 + (statuses.getD k .notReceived).code.toNat

theorem statusChunk_prefix (statuses : List PacketStatus) (k : Nat) (bound : k ≤ 7) :
    ((List.range k).foldl
      (fun chunk slot => chunk ||| (statuses.getD slot .notReceived).code <<< UInt16.ofNat (12 - slot * 2))
      0xC000).toNat = vectorValue statuses k * 4 ^ (7 - k) := by
  induction k with
  | zero => exact show (0xC000 : UInt16).toNat = 3 * 4 ^ 7 by decide
  | succ k ih =>
    have before := ih (by omega)
    have symbol := code_shift (statuses.getD k .notReceived) ⟨k, by omega⟩
    have small := code_lt (statuses.getD k .notReceived)
    have scale : 4 ^ (7 - k) = 4 * 4 ^ (6 - k) := by
      rw [show 7 - k = 6 - k + 1 by omega, Nat.pow_succ, Nat.mul_comm]
    have power : 2 ^ (2 * (7 - k)) = 4 ^ (7 - k) := by rw [Nat.pow_mul]
    have room : 0 < 4 ^ (6 - k) := Nat.pow_pos (by decide)
    rw [List.range_succ, List.foldl_append, List.foldl_cons, List.foldl_nil,
      or_toNat (k := 2 * (7 - k)) (by rw [before, power]; exact Nat.mul_mod_left _ _)
        (by rw [symbol, power, scale]; exact Nat.mul_lt_mul_of_pos_right (by omega) room),
      before, symbol, scale, show 7 - (k + 1) = 6 - k by omega, vectorValue, Nat.add_mul, Nat.mul_assoc]

theorem statusChunk_toNat (statuses : List PacketStatus) :
    (statusChunk statuses).toNat = vectorValue statuses 7 := by
  have whole := statusChunk_prefix statuses 7 (Nat.le_refl 7)
  simpa [statusChunk] using whole

theorem statusChunk_symbols (statuses : List PacketStatus) :
    (statusChunk statuses).toNat / 16384 = 3 ∧
      symbols (statusChunk statuses) =
        (List.range 7).map fun slot => (statuses.getD slot .notReceived).code.toNat := by
  have c0 := code_lt (statuses.getD 0 .notReceived)
  have c1 := code_lt (statuses.getD 1 .notReceived)
  have c2 := code_lt (statuses.getD 2 .notReceived)
  have c3 := code_lt (statuses.getD 3 .notReceived)
  have c4 := code_lt (statuses.getD 4 .notReceived)
  have c5 := code_lt (statuses.getD 5 .notReceived)
  have c6 := code_lt (statuses.getD 6 .notReceived)
  have value := statusChunk_toNat statuses
  simp only [vectorValue] at value
  refine ⟨by omega, ?_⟩
  simp only [symbols, value, show List.range 7 = [0, 1, 2, 3, 4, 5, 6] from rfl, List.map_cons,
    List.map_nil, Nat.reducePow, Nat.reduceSub, List.cons.injEq, and_true]
  refine ⟨?_, ?_, ?_, ?_, ?_, ?_, ?_⟩ <;> omega

/-- A chunk carries the first seven statuses, filled up with zeros. -/
theorem symbols_take (statuses : List PacketStatus) :
    symbols (statusChunk statuses) =
      (statuses.take 7).map (·.code.toNat) ++ List.replicate (7 - statuses.length) 0 := by
  rw [(statusChunk_symbols statuses).2]
  apply List.ext_getElem
  · simp only [List.length_map, List.length_range, List.length_append, List.length_take,
      List.length_replicate]
    omega
  · intro k left right
    have bound : k < 7 := by simpa using left
    rw [List.getElem_map, List.getElem_range]
    by_cases inside : k < statuses.length
    · rw [List.getElem_append_left (by simp only [List.length_map, List.length_take]; omega)]
      simp [List.getD_eq_getElem?_getD, inside]
    · rw [List.getElem_append_right (by simp only [List.length_map, List.length_take]; omega)]
      simp [List.getD_eq_getElem?_getD, inside, PacketStatus.code]

theorem chunksFrom_vectors (fuel : Nat) (statuses : List PacketStatus) :
    ∀ w ∈ chunksFrom fuel statuses, w.toNat / 16384 = 3 := by
  induction fuel generalizing statuses with
  | zero => cases statuses <;> simp [chunksFrom]
  | succ fuel ih =>
    cases statuses with
    | nil => simp [chunksFrom]
    | cons s ss =>
      intro w member
      rcases List.mem_cons.mp member with rfl | later
      · exact (statusChunk_symbols (s :: ss)).1
      · exact ih _ w later

theorem chunksFrom_length {fuel : Nat} {statuses : List PacketStatus} (enough : statuses.length ≤ fuel) :
    (chunksFrom fuel statuses).length = (statuses.length + 6) / 7 := by
  induction fuel generalizing statuses with
  | zero => simp [List.length_eq_zero_iff.mp (Nat.le_zero.mp enough), chunksFrom]
  | succ fuel ih =>
    cases statuses with
    | nil => rfl
    | cons s ss =>
      have rest := @ih ((s :: ss).drop 7) (by simp only [List.length_drop]; omega)
      simp only [List.length_drop, List.length_cons] at rest
      simp only [chunksFrom, List.length_cons, rest]
      omega

theorem chunksFrom_symbols {fuel : Nat} {statuses : List PacketStatus}
    (enough : statuses.length ≤ fuel) :
    ((chunksFrom fuel statuses).flatMap symbols).take statuses.length =
      statuses.map (·.code.toNat) := by
  induction fuel generalizing statuses with
  | zero => simp [List.length_eq_zero_iff.mp (Nat.le_zero.mp enough)]
  | succ fuel ih =>
    cases split : statuses with
    | nil => simp
    | cons s ss =>
      rw [← split]
      have unfolded : chunksFrom (fuel + 1) statuses =
          statusChunk statuses :: chunksFrom fuel (statuses.drop 7) := by rw [split]; rfl
      have rest := @ih (statuses.drop 7) (by
        have : 0 < statuses.length := by rw [split]; exact Nat.succ_pos _
        simp only [List.length_drop]
        omega)
      rw [unfolded, List.flatMap_cons, symbols_take]
      by_cases whole : 7 ≤ statuses.length
      · have first : ((statuses.take 7).map (·.code.toNat)).length = 7 := by simp [whole]
        rw [show 7 - statuses.length = 0 by omega, List.replicate_zero, List.append_nil,
          List.take_append, List.take_of_length_le (by omega), first, ← List.length_drop, rest,
          ← List.map_append, List.take_append_drop]
      · have last : statuses.drop 7 = [] := List.drop_eq_nil_of_le (by omega)
        have all : statuses.take 7 = statuses := List.take_of_length_le (by omega)
        rw [last, all, List.append_assoc, List.take_append_of_le_length (by simp),
          List.take_of_length_le (by simp)]

theorem encodeStatusChunks_length (statuses : List PacketStatus) :
    (encodeStatusChunks statuses).length = (statuses.length + 6) / 7 :=
  chunksFrom_length (Nat.le_refl _)

theorem encodeStatusChunks_symbols (entries : List (Option Int)) :
    ((encodeStatusChunks (entries.map statusOfEntry)).flatMap symbols).take entries.length =
      entries.map statusOf := by
  have taken := chunksFrom_symbols (Nat.le_refl (entries.map statusOfEntry).length)
  rw [List.length_map] at taken
  rw [encodeStatusChunks, List.length_map, taken, List.map_map]
  exact List.map_congr_left fun entry _ => statusOfEntry_code entry

theorem deltasOf_length (baseTime : Instant) (hs : List (Option Instant)) (prev : Option Instant) :
    (deltasOf baseTime prev hs).length = hs.length := by
  simpa using congrArg List.length (deltasOf_isSome baseTime hs prev)

theorem held_length (r : Recorder) : (held r).length = r.pendingCount.toNat := by simp [held]

theorem flatMap_deltaBytes_length (entries : List (Option Int)) :
    (entries.flatMap deltaBytes).length ≤ 2 * entries.length := by
  induction entries with
  | nil => simp
  | cons entry entries ih =>
    have one : (deltaBytes entry).length ≤ 2 := by
      cases entry with
      | none => simp [deltaBytes]
      | some d => simp only [deltaBytes]; split <;> simp
    simp only [List.flatMap_cons, List.length_append, List.length_cons]
    omega

theorem flatMap_bytes16_length (words : List UInt16) :
    (words.flatMap bytes16).length = words.length * 2 := by
  induction words with
  | nil => rfl
  | cons w words ih =>
    rw [List.flatMap_cons, List.length_append, ih, length_bytes16, List.length_cons]
    omega

/-- The twenty bytes in front of the chunks. -/
def packetHeader (flags : UInt8) (words : UInt16) (mediaSsrc : UInt32) (r : Recorder) (time : Nat) : Bytes :=
  [flags, rtcpPtRtpfb] ++ bytes16 words ++ bytes32 1 ++ bytes32 mediaSsrc ++ bytes16 r.pendingBaseSeq ++
    bytes16 r.pendingCount ++
    [UInt8.ofNat (time / 65536), UInt8.ofNat (time / 256 % 256), UInt8.ofNat (time % 256), r.fbPktCount]

section Packet
variable (flags : UInt8) (words : UInt16) (mediaSsrc : UInt32) (r : Recorder) (time : Nat) (body : Bytes)

theorem packetHeader_length : (packetHeader flags words mediaSsrc r time).length = 20 := rfl

theorem byteAt_packet {i : Nat} (inside : i < 20) :
    byteAt (packetHeader flags words mediaSsrc r time ++ body) i =
      byteAt (packetHeader flags words mediaSsrc r time) i :=
  byteAt_append_left (by rw [packetHeader_length]; exact inside)

theorem packet_fields :
    let p := packetHeader flags words mediaSsrc r time ++ body
    byteAt p 0 = flags ∧ byteAt p 1 = rtcpPtRtpfb ∧ u16At p 2 = words ∧ u16At p 12 = r.pendingBaseSeq ∧
      u16At p 14 = r.pendingCount ∧ byteAt p 19 = r.fbPktCount := by
  simp only [u16At]
  rw [byteAt_packet, byteAt_packet, byteAt_packet, byteAt_packet, byteAt_packet, byteAt_packet,
    byteAt_packet, byteAt_packet, byteAt_packet]
  · simp [packetHeader, byteAt, bytes16, bytes32]
  all_goals decide

theorem packet_time (bound : time < 16777216) :
    let p := packetHeader flags words mediaSsrc r time ++ body
    signed24 (byteAt p 16) (byteAt p 17) (byteAt p 18) = Int.bmod time 16777216 := by
  intro p
  have high : (byteAt p 16).toNat = time / 65536 := by
    rw [byteAt_packet _ _ _ _ _ _ (by decide)]
    simp [packetHeader, byteAt, bytes16, bytes32]
    omega
  have middle : (byteAt p 17).toNat = time / 256 % 256 := by
    rw [byteAt_packet _ _ _ _ _ _ (by decide)]
    simp [packetHeader, byteAt, bytes16, bytes32]
  have low : (byteAt p 18).toNat = time % 256 := by
    rw [byteAt_packet _ _ _ _ _ _ (by decide)]
    simp [packetHeader, byteAt, bytes16, bytes32]
  have sum : ((byteAt p 16).toNat * 65536 + (byteAt p 17).toNat * 256 + (byteAt p 18).toNat : Int) =
      time := by omega
  exact congrArg (fun value => Int.bmod value 16777216) sum

end Packet

theorem referenceTime24_lt (baseTime firstArrival : Instant) :
    referenceTime24 baseTime firstArrival < 16777216 := by
  have below := Int.emod_lt_of_pos ((offset250us baseTime firstArrival).tdiv 256)
    (show (0 : Int) < 16777216 by decide)
  unfold referenceTime24
  omega

/-- What the padding of a packet is announced to take, for its chunk and delta bytes. -/
def padCount (bodyBytes : Nat) : Nat := (4 - bodyBytes % 4) % 4

/-- What stands behind the last delta. The length of the body counts four bytes more than
    the body has, so four zeros stand there even where no padding is announced. -/
def trailer (k : Nat) : Bytes :=
  if 0 < k then List.replicate (k + 3) 0 ++ [UInt8.ofNat k] else List.replicate 4 0

theorem trailer_length (k : Nat) : (trailer k).length = k + 4 := by
  unfold trailer
  split
  · simp
  · simp only [List.length_replicate]
    omega

theorem padTo_eq {buf : Bytes} {totalLen k : Nat} (room : totalLen = buf.length + k + 4) :
    padTo totalLen k buf = buf ++ trailer k := by
  have zeros : totalLen - buf.length = k + 3 + 1 := by omega
  unfold padTo trailer
  simp only [zeros]
  split
  · rw [List.replicate_succ', ← List.append_assoc, List.dropLast_concat, List.append_assoc]
  · rename_i none_
    rw [show k = 0 by omega]

/-- The packet as a reader sees it: header, chunks and deltas, and the bytes behind them. -/
theorem assemble_eq (r : Recorder) (mediaSsrc : UInt32) (time : Nat) (chunks : List UInt16)
    (deltaBytes : Bytes) :
    let body := chunks.flatMap bytes16 ++ deltaBytes
    assemble r mediaSsrc time chunks deltaBytes =
      packetHeader (if 0 < padCount body.length then 0xAF else 0x8F)
        (UInt16.ofNat ((20 + body.length + padCount body.length) / 4)) mediaSsrc r time ++
      (body ++ trailer (padCount body.length)) := by
  intro body
  have length : body.length = chunks.length * 2 + deltaBytes.length := by
    rw [List.length_append, flatMap_bytes16_length]
  have padded : (12 + (8 + chunks.length * 2 + deltaBytes.length) + 3) / 4 * 4 =
      20 + body.length + padCount body.length := by
    unfold padCount
    omega
  have announced : 4 + (20 + body.length + padCount body.length) -
      (4 + (12 + (8 + chunks.length * 2 + deltaBytes.length))) = padCount body.length := by omega
  have flagged : 12 + (8 + chunks.length * 2 + deltaBytes.length) <
      20 + body.length + padCount body.length ↔ 0 < padCount body.length := by omega
  unfold assemble
  simp only [padded, announced, flagged]
  rw [padTo_eq]
  · simp only [packetHeader, List.append_assoc, body]
  · simp only [List.length_append, length_bytes16, length_bytes32, List.length_cons, List.length_nil,
      flatMap_bytes16_length]
    omega

section Reading
variable (r : Recorder) (mediaSsrc : UInt32) (time : Nat) (entries : List (Option Int))

/-- The packet of these entries. -/
def packetOf (time : Nat) (entries : List (Option Int)) : Bytes :=
  assemble r mediaSsrc time (encodeStatusChunks (entries.map statusOfEntry))
    (entries.flatMap deltaBytes)

def bodyBytes (entries : List (Option Int)) : Bytes :=
  (encodeStatusChunks (entries.map statusOfEntry)).flatMap bytes16 ++
    entries.flatMap deltaBytes

theorem bodyBytes_short (few : entries.length ≤ 8192) : (bodyBytes entries).length ≤ 18726 := by
  have deltas := flatMap_deltaBytes_length entries
  have chunks := encodeStatusChunks_length (entries.map statusOfEntry)
  rw [List.length_map] at chunks
  rw [bodyBytes, List.length_append, flatMap_bytes16_length, chunks]
  omega

theorem decode_packetOf (bound : time < 16777216) (count : r.pendingCount.toNat = entries.length) :
    decode (packetOf r mediaSsrc time entries) =
      some (⟨r.pendingBaseSeq, r.pendingCount.toNat, Int.bmod time 16777216, r.fbPktCount,
        entries.map (Option.map clampDelta)⟩, trailer (padCount (bodyBytes entries).length)) := by
  let chunks := encodeStatusChunks (entries.map statusOfEntry)
  let flags : UInt8 := if 0 < padCount (bodyBytes entries).length then 0xAF else 0x8F
  let words := UInt16.ofNat ((20 + (bodyBytes entries).length + padCount (bodyBytes entries).length) / 4)
  have shape : packetOf r mediaSsrc time entries = packetHeader flags words mediaSsrc r time ++
      (bodyBytes entries ++ trailer (padCount (bodyBytes entries).length)) := assemble_eq ..
  obtain ⟨first, second, _, base, number, feedback⟩ := packet_fields flags words mediaSsrc r time
    (bodyBytes entries ++ trailer (padCount (bodyBytes entries).length))
  have timed := packet_time flags words mediaSsrc r time
    (bodyBytes entries ++ trailer (padCount (bodyBytes entries).length)) bound
  rw [← shape] at first second base number feedback timed
  have long : ¬ (packetOf r mediaSsrc time entries).length < 20 := by
    rw [shape, List.length_append, packetHeader_length]
    omega
  have typed : ¬ (byteAt (packetOf r mediaSsrc time entries) 0 &&& 0xC0 ≠ 0x80 ∨
      byteAt (packetOf r mediaSsrc time entries) 0 &&& 0x1F ≠ 15 ∨
      byteAt (packetOf r mediaSsrc time entries) 1 ≠ 205) := by
    rw [first, second]
    simp only [flags]
    split <;> decide
  have content : (packetOf r mediaSsrc time entries).drop 20 = chunks.flatMap bytes16 ++
      (entries.flatMap deltaBytes ++ trailer (padCount (bodyBytes entries).length)) := by
    rw [shape, List.drop_left' (packetHeader_length ..), bodyBytes, List.append_assoc]
  have wordCount : chunks.length = (entries.length + 6) / 7 := by
    rw [encodeStatusChunks_length, List.length_map]
  unfold decode
  rw [if_neg long, if_neg typed]
  simp only [number, content, count]
  rw [← wordCount, readChunks_words chunks _ (chunksFrom_vectors _ _), Option.bind_some]
  simp only [chunks, encodeStatusChunks_symbols, readDeltas_deltaBytes, base, timed, feedback,
    Option.map_some]

/-- The packet fills whole words and its length field counts them. -/
theorem packetOf_frame (few : entries.length ≤ 8192) :
    (packetOf r mediaSsrc time entries).length % 4 = 0 ∧
      (u16At (packetOf r mediaSsrc time entries) 2).toNat =
        (packetOf r mediaSsrc time entries).length / 4 - 1 := by
  have short := bodyBytes_short entries few
  have shape : packetOf r mediaSsrc time entries = _ := assemble_eq ..
  have length : (packetOf r mediaSsrc time entries).length =
      24 + (bodyBytes entries).length + padCount (bodyBytes entries).length := by
    rw [shape, List.length_append, packetHeader_length, List.length_append, trailer_length, bodyBytes]
    omega
  have pad : padCount (bodyBytes entries).length = (4 - (bodyBytes entries).length % 4) % 4 := rfl
  refine ⟨by omega, ?_⟩
  rw [length, shape, (packet_fields ..).2.2.1, UInt16.toNat_ofNat']
  change (20 + (bodyBytes entries).length + padCount (bodyBytes entries).length) / 4 % 2 ^ 16 = _
  omega

/-- Four bytes more than announced stand behind the last delta. -/
theorem packetOf_announced :
    announcedPadding (packetOf r mediaSsrc time entries) + 4 =
      (trailer (padCount (bodyBytes entries).length)).length := by
  have shape : packetOf r mediaSsrc time entries = _ := assemble_eq ..
  have below : padCount (bodyBytes entries).length < 4 := Nat.mod_lt _ (by decide)
  change padCount (bodyBytes entries).length < 4 at below
  rw [trailer_length, announcedPadding, shape, (packet_fields ..).1]
  change (if (if 0 < padCount (bodyBytes entries).length then (0xAF : UInt8) else 0x8F) &&& 0x20 ≠ 0 then
    ((packetHeader _ _ _ _ _ ++ (bodyBytes entries ++
      trailer (padCount (bodyBytes entries).length))).getLastD 0).toNat else 0) + 4 = _
  by_cases some_ : 0 < padCount (bodyBytes entries).length
  · rw [if_pos some_, if_pos (by decide), trailer, if_pos some_, ← List.append_assoc,
      ← List.append_assoc, List.getLastD_concat, UInt8.toNat_ofNat']
    omega
  · rw [if_neg some_, if_neg (by decide)]
    omega

end Reading

/-- Everything that building a packet takes and leaves. -/
structure Built (r : Recorder) (mediaSsrc : UInt32) (baseTime firstArrival : Instant) (buf : Bytes) :
    Prop where
  started : r.started = true
  some_ : r.pendingCount ≠ 0
  few : r.pendingCount.toNat ≤ 8192
  based : r.baseTime = some baseTime
  first : (held r).findSome? id = some firstArrival
  bytes : buf = packetOf r mediaSsrc (referenceTime24 baseTime firstArrival)
    (deltasOf baseTime none (held r))
  next : (buildTwccFeedback r mediaSsrc).1 =
    { r with fbPktCount := r.fbPktCount + 1, pendingBaseSeq := r.pendingBaseSeq + r.pendingCount }

theorem built_of_some {r : Recorder} {mediaSsrc : UInt32} {buf : Bytes}
    (built : (buildTwccFeedback r mediaSsrc).2 = some buf) :
    ∃ baseTime firstArrival, Built r mediaSsrc baseTime firstArrival buf := by
  unfold buildTwccFeedback at built
  split at built
  · simp at built
  rename_i pending
  split at built
  · simp at built
  rename_i baseTime based
  split at built
  · simp at built
  rename_i fits
  obtain ⟨statuses, deltas, first⟩ := scan_spec r baseTime
  simp only at built
  split at built
  · simp at built
  rename_i firstArrival found
  have bytes := Option.some.inj built
  refine ⟨baseTime, firstArrival, ?_⟩
  have few : r.pendingCount.toNat ≤ 8192 := UInt16.le_iff_toNat_le.mp (UInt16.not_lt.mp fits)
  simp only [Bool.or_eq_true, Bool.not_eq_true', decide_eq_true_eq, not_or, Bool.not_eq_false] at pending
  refine ⟨pending.1, pending.2, few, based, by rw [← first, found], ?_, ?_⟩
  · rw [← bytes, statuses, deltas, encodeRecvDeltas_entries, packetOf]
  · unfold buildTwccFeedback
    simp only [pending.1, pending.2, based, if_neg fits, found]
    rfl

/-- What a reader recovers of the recorder that the packet was built from. -/
structure Reports (r : Recorder) (baseTime : Instant) (fb : Feedback) : Prop where
  baseSeq : fb.baseSeq = r.pendingBaseSeq
  statusCount : fb.statusCount = r.pendingCount.toNat ∧ fb.deltas.length = fb.statusCount
  fbPktCount : fb.fbPktCount = r.fbPktCount
  received : ∀ i < fb.statusCount,
    (fb.deltas.getD i none).isSome ↔ (r.get (r.pendingBaseSeq + UInt16.ofNat i)).isSome
  deltas : fb.deltas.filterMap id = (scan r baseTime).deltas.map clampDelta

/-- A reader recovers the recorder, and what it leaves is the padding of the packet. -/
def Faithful (r : Recorder) (buf : Bytes) : Prop :=
  ∃ baseTime fb rest, r.baseTime = some baseTime ∧ decode buf = some (fb, rest) ∧
    Reports r baseTime fb ∧ Padded buf rest

theorem filterMap_clamp (entries : List (Option Int)) :
    (entries.map (Option.map clampDelta)).filterMap id = (entries.filterMap id).map clampDelta := by
  induction entries with
  | nil => rfl
  | cons entry entries ih => cases entry <;> simpa using ih

/-- The reader's part of a packet: all of the recorder, and four bytes more behind the
    last delta than the packet announces. -/
theorem Built.read {r : Recorder} {mediaSsrc : UInt32} {baseTime firstArrival : Instant} {buf : Bytes}
    (built : Built r mediaSsrc baseTime firstArrival buf) :
    decode buf = some (⟨r.pendingBaseSeq, r.pendingCount.toNat,
        Int.bmod (referenceTime24 baseTime firstArrival) 16777216, r.fbPktCount,
        (deltasOf baseTime none (held r)).map (Option.map clampDelta)⟩,
      trailer (padCount (bodyBytes (deltasOf baseTime none (held r))).length)) := by
  have count : r.pendingCount.toNat = (deltasOf baseTime none (held r)).length := by
    rw [deltasOf_length, held_length]
  rw [built.bytes]
  exact decode_packetOf r mediaSsrc _ _ (referenceTime24_lt baseTime firstArrival) count

theorem Built.reports {r : Recorder} {mediaSsrc : UInt32} {baseTime firstArrival : Instant} {buf : Bytes}
    (built : Built r mediaSsrc baseTime firstArrival buf) {fb : Feedback} {rest : Bytes}
    (read : decode buf = some (fb, rest)) : Reports r baseTime fb := by
  rw [built.read] at read
  simp only [Option.some.injEq, Prod.mk.injEq] at read
  obtain ⟨rfl, rfl⟩ := read
  refine ⟨rfl, ⟨rfl, by rw [List.length_map, deltasOf_length, held_length]⟩, rfl, ?_, ?_⟩
  · intro i below
    have same := congrArg (fun flags => flags.getD i false) (deltasOf_isSome baseTime (held r) none)
    simp only [held, List.map_map, List.getD_eq_getElem?_getD, List.getElem?_map,
      List.getElem?_range below, Option.map_some, Option.getD_some, Function.comp_apply,
      Option.isSome_map] at same ⊢
    rw [← same]
    cases (deltasOf baseTime none ((List.range r.pendingCount.toNat).map fun i =>
      (r.get (r.pendingBaseSeq + UInt16.ofNat i)).map (·.arrival)))[i]? with
    | none => simp
    | some entry => simp
  · rw [filterMap_clamp, (scan_spec r baseTime).2.1]

inductive Op where
  | record (twccSeq : UInt16) (arrival : Instant)
  | feedback (mediaSsrc : UInt32)
  deriving DecidableEq, Repr

def step (r : Recorder) : Op → Recorder
  | .record twccSeq arrival => r.record twccSeq arrival
  | .feedback mediaSsrc => (buildTwccFeedback r mediaSsrc).1

/-- A packet whose reader is left with more than its announced padding is not padded. -/
theorem Built.not_padded {r : Recorder} {mediaSsrc : UInt32} {baseTime firstArrival : Instant}
    {buf : Bytes} (built : Built r mediaSsrc baseTime firstArrival buf) {fb : Feedback} {rest : Bytes}
    (read : decode buf = some (fb, rest)) : announcedPadding buf + 4 = rest.length ∧ ¬ Padded buf rest := by
  have behind := packetOf_announced r mediaSsrc (referenceTime24 baseTime firstArrival)
    (deltasOf baseTime none (held r))
  rw [← built.bytes] at behind
  have left := built.read
  rw [read] at left
  simp only [Option.some.injEq, Prod.mk.injEq] at left
  obtain ⟨_, rfl⟩ := left
  refine ⟨behind, fun padded => ?_⟩
  have below : padCount (bodyBytes (deltasOf baseTime none (held r))).length < 4 := Nat.mod_lt _ (by decide)
  have suffix : trailer (padCount (bodyBytes (deltasOf baseTime none (held r))).length) <:+ buf := by
    rw [built.bytes, packetOf, assemble_eq, ← List.append_assoc]
    exact List.suffix_append _ _
  have exact_ := padded.announced suffix (by rw [trailer_length]; omega)
  omega

/-- Every packet built tells its reader what the recorder held, in whole words that its
    length field counts, but never frames its padding: four bytes behind the last delta
    are not announced. -/
theorem feedback_padding_never_announced (ops : List Op) (mediaSsrc : UInt32) (buf : Bytes)
    (built : (buildTwccFeedback (run step .new ops) mediaSsrc).2 = some buf) :
    (∃ baseTime fb rest, (run step .new ops).baseTime = some baseTime ∧ decode buf = some (fb, rest) ∧
      Reports (run step .new ops) baseTime fb ∧ buf.length % 4 = 0 ∧
      (u16At buf 2).toNat = buf.length / 4 - 1 ∧ rest.length = announcedPadding buf + 4) ∧
    ¬ Faithful (run step .new ops) buf := by
  obtain ⟨baseTime, firstArrival, facts⟩ := built_of_some built
  have few : (deltasOf baseTime none (held (run step .new ops))).length ≤ 8192 := by
    rw [deltasOf_length, held_length]
    exact facts.few
  have frame := packetOf_frame (run step .new ops) mediaSsrc (referenceTime24 baseTime firstArrival)
    (deltasOf baseTime none (held (run step .new ops))) few
  rw [← facts.bytes] at frame
  constructor
  · exact ⟨baseTime, _, _, facts.based, facts.read, facts.reports facts.read, frame.1, frame.2,
      (facts.not_padded facts.read).1.symm⟩
  · rintro ⟨_, fb, rest, _, read, _, padded⟩
    exact (facts.not_padded read).2 padded

theorem feedback_padding_counterexample :
    (buildTwccFeedback (run step .new [.record 10 0]) 0x2000).2 =
        some [0xAF, 205, 0, 6, 0, 0, 0, 1, 0, 0, 0x20, 0, 0, 10, 0, 1, 0, 0, 0, 0, 0xD0, 0, 0,
          0, 0, 0, 0, 1] ∧
      ¬ Faithful (run step .new [.record 10 0])
        [0xAF, 205, 0, 6, 0, 0, 0, 1, 0, 0, 0x20, 0, 0, 10, 0, 1, 0, 0, 0, 0, 0xD0, 0, 0,
          0, 0, 0, 0, 1] := by
  refine ⟨by decide, ?_⟩
  rintro ⟨_, fb, rest, _, read, _, padded⟩
  have alone : decode [0xAF, 205, 0, 6, 0, 0, 0, 1, 0, 0, 0x20, 0, 0, 10, 0, 1, 0, 0, 0, 0, 0xD0, 0, 0,
      0, 0, 0, 0, 1] = some (⟨10, 1, 0, 0, [some 0]⟩, [0, 0, 0, 0, 1]) := by decide
  rw [alone] at read
  simp only [Option.some.injEq, Prod.mk.injEq] at read
  obtain ⟨_, rfl⟩ := read
  exact absurd (padded.last (by decide)) (by decide)

theorem feedback_padding_reordered :
    ∃ buf, (buildTwccFeedback
        (run step .new [.record 65534 1000000, .record 0 71250000, .record 65535 70000000]) 0x2000).2 =
        some buf ∧
      ¬ Faithful (run step .new [.record 65534 1000000, .record 0 71250000, .record 65535 70000000]) buf :=
  ⟨[175, 205, 0, 7, 0, 0, 0, 1, 0, 0, 32, 0, 255, 254, 0, 3, 0, 0, 0, 0, 217, 0, 0, 1, 20, 5, 0, 0, 0, 0,
      0, 2], by decide,
    (feedback_padding_never_announced
      [.record 65534 1000000, .record 0 71250000, .record 65535 70000000] 0x2000 _ (by decide)).2⟩

end TwccRecorder
