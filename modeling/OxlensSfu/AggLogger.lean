import OxlensSfu.KeyedMap

/- Repeated events counted under a key, and handed on once in every telemetry tick. -/
namespace Agg
open KeyedMap

def maxKeys : Nat := 1024

structure AggEntry where
  count : UInt64
  firstNs : UInt64
  lastNs : UInt64
  label : String
  roomId : Option String

structure AggRecord where
  key : UInt64
  label : String
  roomId : Option String
  count : UInt64
  deltaMs : UInt64
  deriving DecidableEq

/-- The payload of the telemetry event. -/
structure AggLog where
  ts : UInt64
  entries : List AggRecord

structure AggLogger where
  entries : Table UInt64 AggEntry
  bounded : entries.keys.length ≤ maxKeys

def AggEntry.bump (entry : AggEntry) (elapsed : Nat) : AggEntry :=
  { entry with count := entry.count + 1, lastNs := UInt64.ofNat elapsed }

namespace AggLogger

def get (agg : AggLogger) (key : UInt64) : Option AggEntry := agg.entries.lookup key

def len (agg : AggLogger) : Nat := agg.entries.keys.length

def modify (agg : AggLogger) (key : UInt64) (f : AggEntry → AggEntry) : AggLogger where
  entries := KeyedMap.modify agg.entries key f
  bounded := by
    rw [keys_modify]
    exact agg.bounded

def insert (agg : AggLogger) (room : agg.len < maxKeys) (key : UInt64) (entry : AggEntry) :
    AggLogger where
  entries := agg.entries.insert key entry
  bounded := Nat.le_trans (length_keys_insert agg.entries key entry) room

def retain (agg : AggLogger) (keep : UInt64 → AggEntry → Bool) : AggLogger where
  entries := KeyedMap.retain agg.entries keep
  bounded := Nat.le_trans (length_keys_retain agg.entries keep) agg.bounded

@[simp] theorem get_modify (agg : AggLogger) (key : UInt64) (f : AggEntry → AggEntry) (k : UInt64) :
    (agg.modify key f).get k = if k = key then (agg.get key).map f else agg.get k := by
  refine (lookup_modify agg.entries key f k).trans ?_
  split
  · rename_i here
    rw [here]
    rfl
  · rfl

@[simp] theorem get_insert (agg : AggLogger) (room : agg.len < maxKeys) (key : UInt64)
    (entry : AggEntry) (k : UInt64) :
    (agg.insert room key entry).get k = if k = key then some entry else agg.get k :=
  lookup_insert agg.entries key entry k

@[simp] theorem get_retain (agg : AggLogger) (keep : UInt64 → AggEntry → Bool) (k : UInt64) :
    (agg.retain keep).get k = (agg.get k).filter (keep k) :=
  lookup_retain agg.entries keep k

end AggLogger

def init : AggLogger where
  entries := ∅
  bounded := Nat.zero_le _

@[simp] theorem get_init (k : UInt64) : init.get k = none := AList.lookup_empty k

/-- A key without an entry is not counted. `elapsed` is in nanoseconds since the epoch. -/
def inc (agg : AggLogger) (key : UInt64) (elapsed : Nat) : AggLogger :=
  match agg.get key with
  | some _ => agg.modify key (·.bump elapsed)
  | none => agg

def incWith (agg : AggLogger) (key : UInt64) (label : String) (roomId : Option String)
    (elapsed : Nat) : AggLogger :=
  match agg.get key with
  | some _ => agg.modify key (·.bump elapsed)
  | none =>
    if full : maxKeys ≤ agg.len then agg
    else agg.insert (Nat.lt_of_not_le full) key
      ⟨1, UInt64.ofNat elapsed, UInt64.ofNat elapsed, label, roomId⟩

def register (agg : AggLogger) (key : UInt64) (label : String) (roomId : Option String)
    (elapsed : Nat) : AggLogger :=
  if full : maxKeys ≤ agg.len then agg
  else match agg.get key with
    | some _ => agg
    | none => agg.insert (Nat.lt_of_not_le full) key ⟨0, UInt64.ofNat elapsed, 0, label, roomId⟩

def clearRoom (agg : AggLogger) (roomId : String) : AggLogger :=
  agg.retain fun _ entry => entry.roomId != some roomId

/-- The time between the first and the last event of a window, in milliseconds. -/
def deltaMs (entry : AggEntry) : UInt64 :=
  if entry.count ≤ 1 then 0
  else (if entry.firstNs ≤ entry.lastNs then entry.lastNs - entry.firstNs else 0) / 1000000

def record (key : UInt64) (entry : AggEntry) : Option AggRecord :=
  if entry.count = 0 then none
  else some ⟨key, entry.label, entry.roomId, entry.count, deltaMs entry⟩

def records (agg : AggLogger) : List AggRecord :=
  (toList agg.entries).filterMap fun (key, entry) => record key entry

/-- No entry outlives the flush, also one without a record. -/
def flush (agg : AggLogger) (ts : UInt64) : AggLogger × Option AggLog :=
  (agg.retain fun _ _ => false, if records agg = [] then none else some ⟨ts, records agg⟩)

theorem get_inc (agg : AggLogger) (key : UInt64) (elapsed : Nat) (k : UInt64) :
    (inc agg key elapsed).get k =
      if k = key then (agg.get key).map (·.bump elapsed) else agg.get k := by
  unfold inc
  cases found : agg.get key with
  | some entry =>
    dsimp only
    rw [AggLogger.get_modify, found]
  | none =>
    by_cases here : k = key
    · rw [if_pos here, here, found, Option.map_none]
    · rw [if_neg here]

theorem get_incWith {agg : AggLogger} (room : agg.len < maxKeys) (key : UInt64) (label : String)
    (roomId : Option String) (elapsed : Nat) (k : UInt64) :
    (incWith agg key label roomId elapsed).get k =
      if k = key then
        some ((agg.get key).elim ⟨1, UInt64.ofNat elapsed, UInt64.ofNat elapsed, label, roomId⟩
          (·.bump elapsed))
      else agg.get k := by
  unfold incWith
  cases found : agg.get key with
  | some entry =>
    rw [AggLogger.get_modify, found, Option.map_some, Option.elim_some]
  | none =>
    rw [dif_neg (Nat.not_le.mpr room), AggLogger.get_insert, Option.elim_none]

theorem get_register {agg : AggLogger} (room : agg.len < maxKeys) (key : UInt64) (label : String)
    (roomId : Option String) (elapsed : Nat) (k : UInt64) :
    (register agg key label roomId elapsed).get k =
      if k = key then some ((agg.get key).getD ⟨0, UInt64.ofNat elapsed, 0, label, roomId⟩)
      else agg.get k := by
  rw [register, dif_neg (Nat.not_le.mpr room)]
  cases found : agg.get key with
  | some entry =>
    by_cases here : k = key
    · rw [if_pos here, here, found, Option.getD_some]
    · rw [if_neg here]
  | none =>
    dsimp only
    rw [AggLogger.get_insert, Option.getD_none]

theorem get_clearRoom (agg : AggLogger) (roomId : String) (k : UInt64) :
    (clearRoom agg roomId).get k = (agg.get k).filter fun entry => entry.roomId != some roomId :=
  AggLogger.get_retain agg _ k

theorem get_flush (agg : AggLogger) (ts : UInt64) (k : UInt64) : (flush agg ts).1.get k = none := by
  rw [flush, AggLogger.get_retain]
  cases agg.get k <;> rfl

/-- A flush hands out every record, in no event when there is none. -/
theorem entries_flush (agg : AggLogger) (ts : UInt64) :
    (flush agg ts).2.toList.flatMap AggLog.entries = records agg := by
  unfold flush
  split
  · rename_i silent
    rw [silent]
    rfl
  · simp

theorem filter_record (k key : UInt64) (entry : AggEntry) :
    (record k entry).filter (fun r => r.key = key) = if k = key then record k entry else none := by
  unfold record
  by_cases here : k = key
  · split <;> simp [here]
  · split <;> simp [here]

/-- The record of a key tells what its entry holds, and no other record does. -/
theorem filter_records (agg : AggLogger) (key : UInt64) :
    ((records agg).filter fun r => r.key = key) = ((agg.get key).bind (record key)).toList := by
  have swap : ((records agg).filter fun r => r.key = key) =
      ((toList agg.entries).filter fun e => e.1 = key).filterMap fun e => record e.1 e.2 := by
    rw [records, List.filter_filterMap, List.filterMap_filter]
    congr 1
    funext e
    rw [filter_record]
    simp
  rw [swap, filter_toList, AggLogger.get]
  cases agg.entries.lookup key with
  | none => rfl
  | some entry =>
    simp only [Option.map_some, Option.toList_some, Option.bind_some]
    cases made : record key entry <;> simp [made]

end Agg
