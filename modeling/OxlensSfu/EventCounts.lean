import Mathlib.Algebra.GroupWithZero.Nat
import Mathlib.Data.List.Dedup
import OxlensSfu.AggLogger
import OxlensSfu.WindowTally

/- No event is lost between its call and the flush, but for the calls that find no entry. -/
namespace EventCounts
open GuardedRun WindowTally Agg

inductive Call
  | register (key : UInt64) (label : String) (roomId : Option String) (elapsed : Nat)
  | inc (key : UInt64) (elapsed : Nat)
  | incWith (key : UInt64) (label : String) (roomId : Option String) (elapsed : Nat)
  | clearRoom (roomId : String)
  | flush (ts : UInt64)

def Call.key? : Call → Option UInt64
  | .register key .. => some key
  | .inc key _ => some key
  | .incWith key .. => some key
  | _ => none

def Call.registers (key : UInt64) : Call → Bool
  | .register k .. => k == key
  | .incWith k .. => k == key
  | _ => false

def Call.counts (key : UInt64) : Call → Bool
  | .inc k _ => k == key
  | .incWith k .. => k == key
  | _ => false

/-- The call carries the room of its key. -/
def Call.InRoom (room : UInt64 → Option String) : Call → Prop
  | .register key _ roomId _ => roomId = room key
  | .incWith key _ roomId _ => roomId = room key
  | _ => True

/-- The logger and the events that it has emitted. -/
structure Service where
  agg : AggLogger
  emitted : List AggLog

def Service.start : Service := ⟨init, []⟩

def Service.step (s : Service) : Call → Service
  | .register key label roomId elapsed => { s with agg := register s.agg key label roomId elapsed }
  | .inc key elapsed => { s with agg := inc s.agg key elapsed }
  | .incWith key label roomId elapsed => { s with agg := incWith s.agg key label roomId elapsed }
  | .clearRoom roomId => { s with agg := clearRoom s.agg roomId }
  | .flush ts => ⟨(flush s.agg ts).1, s.emitted ++ (flush s.agg ts).2.toList⟩

def countAt (key : UInt64) (agg : AggLogger) : Option Nat := (agg.get key).map (·.count.toNat)

def pendingCount (key : UInt64) (agg : AggLogger) : Nat := (countAt key agg).getD 0

/-- The counts of a key in all flushed records. -/
def flushedCount (key : UInt64) (emitted : List AggLog) : Nat :=
  (((emitted.flatMap AggLog.entries).filter fun r => r.key = key).map (·.count.toNat)).sum

/-- The counts that are pending when the room of the key is cleared. -/
def clearedCount (room : UInt64 → Option String) (key : UInt64) : Service → List Call → Nat
  | _, [] => 0
  | s, .clearRoom roomId :: calls =>
    (if room key = some roomId then pendingCount key s.agg else 0) +
      clearedCount room key (s.step (.clearRoom roomId)) calls
  | s, call :: calls => clearedCount room key (s.step call) calls

/-- The calls of `inc` and `inc_with` since the key was registered. -/
def callsSince (key : UInt64) (calls : List Call) : Nat :=
  (calls.dropWhile fun c => !c.registers key).countP (Call.counts key)

def CountsKept (room : UInt64 → Option String) (key : UInt64) (calls : List Call) : Prop :=
  flushedCount key (run Service.step Service.start calls).emitted +
      pendingCount key (run Service.step Service.start calls).agg +
      clearedCount room key Service.start calls = callsSince key calls

instance (room : UInt64 → Option String) (key : UInt64) (calls : List Call) :
    Decidable (CountsKept room key calls) := inferInstanceAs (Decidable (_ = _))

def counterSize : Nat := UInt64.size

/-- What a call does to the window of one key. -/
def stepOf (room : UInt64 → Option String) (key : UInt64) : Call → Option Step
  | .register k .. => if k = key then some .opening else none
  | .inc k _ => if k = key then some .call else none
  | .incWith k .. => if k = key then some .openingCall else none
  | .clearRoom roomId => if room key = some roomId then some .drop else none
  | .flush _ => some .drain

/-- Every entry stands under a key of the run, in the room of its key. -/
def Homed (room : UInt64 → Option String) (keys : List UInt64) (agg : AggLogger) : Prop :=
  ∀ k entry, agg.get k = some entry → k ∈ keys ∧ entry.roomId = room k

section Homes
variable {room : UInt64 → Option String} {keys : List UInt64}

theorem homed_enter {agg after : AggLogger} {key : UInt64} {entry : AggEntry}
    (homed : Homed room keys agg) (known : key ∈ keys) (home : entry.roomId = room key)
    (entered : ∀ k, after.get k = if k = key then some entry else agg.get k) : Homed room keys after := by
  intro k held found
  rw [entered] at found
  split at found
  · rename_i here
    rw [here, ← Option.some.inj found]
    exact ⟨known, home⟩
  · exact homed k held found

/-- The entries of a run's keys leave room for one more. -/
theorem len_lt (few : keys.dedup.length < maxKeys) {agg : AggLogger} (homed : Homed room keys agg) :
    agg.len < maxKeys := by
  refine Nat.lt_of_le_of_lt (List.Nodup.length_le_of_subset agg.entries.keys_nodup ?_) few
  intro k member
  have present : (agg.entries.lookup k).isSome := AList.lookup_isSome.mpr (AList.mem_keys.mpr member)
  obtain ⟨entry, found⟩ := Option.isSome_iff_exists.mp present
  exact List.mem_dedup.mpr (homed k entry found).1

theorem step_homed (few : keys.dedup.length < maxKeys) {s : Service} {call : Call}
    (known : ∀ k ∈ call.key?, k ∈ keys) (inRoom : call.InRoom room) (homed : Homed room keys s.agg) :
    Homed room keys (s.step call).agg := by
  have free := len_lt few homed
  cases call with
  | register key label roomId elapsed =>
    refine homed_enter homed (known key rfl) ?_ (get_register free key label roomId elapsed)
    cases before : s.agg.get key with
    | some old => exact (homed key old before).2
    | none => exact inRoom
  | inc key elapsed =>
    intro k entry found
    simp only [Service.step, get_inc] at found
    split at found
    · rename_i here
      obtain ⟨old, before, rfl⟩ := Option.map_eq_some_iff.mp found
      rw [here]
      exact homed key old before
    · exact homed k entry found
  | incWith key label roomId elapsed =>
    refine homed_enter homed (known key rfl) ?_ (get_incWith free key label roomId elapsed)
    cases before : s.agg.get key with
    | some old => exact (homed key old before).2
    | none => exact inRoom
  | clearRoom roomId =>
    intro k entry found
    simp only [Service.step, get_clearRoom, Option.filter_eq_some_iff] at found
    exact homed k entry found.1
  | flush ts =>
    intro k entry found
    simp only [Service.step, get_flush] at found
    cases found

end Homes

section Counts
variable {room : UInt64 → Option String} {key : UInt64}

theorem bump_count (entry : AggEntry) (elapsed : Nat) :
    (entry.bump elapsed).count.toNat = bumped counterSize entry.count.toNat := by
  have small : entry.count.toNat < UInt64.size := entry.count.toNat_lt
  have wrapped : (entry.bump elapsed).count.toNat = (entry.count.toNat + 1) % UInt64.size :=
    UInt64.toNat_add _ _
  rw [wrapped, bumped, counterSize]
  by_cases fits : entry.count.toNat + 1 < UInt64.size
  · rw [if_pos fits, Nat.mod_eq_of_lt fits]
  · have last : entry.count.toNat + 1 = UInt64.size := by omega
    rw [if_neg fits, last, Nat.mod_self]

/-- A call for the key `k` that enters an entry with the count of the step `step`. -/
theorem countAt_keyed {agg after : AggLogger} {k : UInt64} {entry : Option AggEntry} {step : Step}
    (entered : ∀ j, after.get j = if j = k then entry else agg.get j)
    (counted : entry.map (·.count.toNat) = counterAfter counterSize (countAt k agg) step) :
    countAt key after = (if k = key then some step else none).elim (countAt key agg)
      (counterAfter counterSize (countAt key agg)) := by
  rw [countAt, entered]
  by_cases own : k = key
  · rw [if_pos own.symm, if_pos own, counted, own]
    rfl
  · rw [if_neg (Ne.symm own), if_neg own]
    rfl

/-- A call does to the count of a key what its step does to the window. -/
theorem countAt_step {keys : List UInt64} (few : keys.dedup.length < maxKeys) {s : Service}
    (homed : Homed room keys s.agg) (call : Call) :
    countAt key (s.step call).agg =
      (stepOf room key call).elim (countAt key s.agg) (counterAfter counterSize (countAt key s.agg)) := by
  have free := len_lt few homed
  cases call with
  | register k label roomId elapsed =>
    refine countAt_keyed (get_register free k label roomId elapsed) ?_
    rw [countAt]
    cases s.agg.get k <;> rfl
  | inc k elapsed =>
    refine countAt_keyed (get_inc s.agg k elapsed) ?_
    rw [countAt]
    cases s.agg.get k with
    | none => rfl
    | some entry => exact congrArg some (bump_count entry elapsed)
  | incWith k label roomId elapsed =>
    refine countAt_keyed (get_incWith free k label roomId elapsed) ?_
    rw [countAt]
    cases s.agg.get k with
    | none => rfl
    | some entry => exact congrArg some (bump_count entry elapsed)
  | clearRoom roomId =>
    simp only [countAt, Service.step, get_clearRoom, stepOf]
    cases found : s.agg.get key with
    | none => split <;> rfl
    | some entry =>
      rw [Option.filter_some, (homed key entry found).2]
      split
      · rename_i other
        rw [if_neg (by simpa using other)]
        rfl
      · rename_i same
        rw [if_pos (by simpa using same)]
        rfl
  | flush ts =>
    simp only [countAt, Service.step, get_flush]
    rfl

theorem records_count (agg : AggLogger) :
    (((records agg).filter fun r => r.key = key).map (·.count.toNat)).sum = pendingCount key agg := by
  rw [filter_records, pendingCount, countAt]
  cases agg.get key with
  | none => rfl
  | some entry =>
    simp only [Option.bind_some, Option.map_some, Option.getD_some, record]
    split
    · rename_i zero
      rw [zero]
      rfl
    · simp

theorem flushedCount_step (s : Service) (call : Call) :
    flushedCount key (s.step call).emitted = flushedCount key s.emitted +
      if stepOf room key call = some .drain then pendingCount key s.agg else 0 := by
  cases call with
  | flush ts =>
    rw [stepOf, if_pos rfl, ← records_count]
    simp only [Service.step, flushedCount, List.flatMap_append, entries_flush, List.filter_append,
      List.map_append, List.sum_append]
  | register k label roomId elapsed => simp [Service.step, stepOf]
  | inc k elapsed => simp [Service.step, stepOf]
  | incWith k label roomId elapsed => simp [Service.step, stepOf]
  | clearRoom roomId => simp [Service.step, stepOf]

theorem clearedCount_cons (s : Service) (call : Call) (calls : List Call) :
    clearedCount room key s (call :: calls) =
      (if stepOf room key call = some .drop then pendingCount key s.agg else 0) +
        clearedCount room key (s.step call) calls := by
  cases call with
  | clearRoom roomId =>
    rw [clearedCount, stepOf]
    by_cases own : room key = some roomId <;> simp [own]
  | flush ts => simp [clearedCount, stepOf]
  | register k label roomId elapsed => simp [clearedCount, stepOf]
  | inc k elapsed => simp [clearedCount, stepOf]
  | incWith k label roomId elapsed => simp [clearedCount, stepOf]

/-- What is asked of a call's step is asked of the call, when a call without the key says no. -/
theorem asked_step (p : Step → Bool) (drain : p .drain = false) (drop : p .drop = false) (call : Call) :
    ((stepOf room key call).map p).getD false = match call with
      | .register k .. => k == key && p .opening
      | .inc k _ => k == key && p .call
      | .incWith k .. => k == key && p .openingCall
      | _ => false := by
  cases call with
  | register k label roomId elapsed => by_cases own : k = key <;> simp [stepOf, own]
  | inc k elapsed => by_cases own : k = key <;> simp [stepOf, own]
  | incWith k label roomId elapsed => by_cases own : k = key <;> simp [stepOf, own]
  | clearRoom roomId => by_cases own : room key = some roomId <;> simp [stepOf, own, drop]
  | flush ts => exact drain

theorem counts_step (call : Call) :
    ((stepOf room key call).map Step.counts).getD false = call.counts key := by
  rw [asked_step Step.counts rfl rfl]
  cases call <;> simp [Call.counts, Step.counts]

theorem opens_step (call : Call) :
    ((stepOf room key call).map Step.opens).getD false = call.registers key := by
  rw [asked_step Step.opens rfl rfl]
  cases call <;> simp [Call.registers, Step.opens]

theorem countP_steps (calls : List Call) :
    (calls.filterMap (stepOf room key)).countP Step.counts = calls.countP (Call.counts key) := by
  rw [List.countP_filterMap]
  exact congrArg (List.countP · calls) (funext counts_step)

theorem callsSince_steps (calls : List Call) :
    WindowTally.callsSince (calls.filterMap (stepOf room key)) = callsSince key calls := by
  induction calls with
  | nil => rfl
  | cons call calls ih =>
    have opens := @opens_step room key call
    by_cases registers : call.registers key
    · rw [callsSince, List.dropWhile_cons_of_neg (by simp [registers]), ← @countP_steps room]
      cases taken : stepOf room key call with
      | none => simp [taken, registers] at opens
      | some step =>
        rw [taken, registers] at opens
        have first : step.opens = true := opens
        rw [List.filterMap_cons_some taken, WindowTally.callsSince,
          List.dropWhile_cons_of_neg (by simp [first])]
    · rw [callsSince, List.dropWhile_cons_of_pos (by simp [registers]), ← callsSince, ← ih]
      cases taken : stepOf room key call with
      | none => rw [List.filterMap_cons_none taken]
      | some step =>
        rw [taken, Bool.eq_false_iff.mpr registers] at opens
        have later : step.opens = false := opens
        rw [List.filterMap_cons_some taken, WindowTally.callsSince,
          List.dropWhile_cons_of_pos (by simp [later]), ← WindowTally.callsSince]

/-- The tally tells the count of the entry and what was flushed. -/
structure Mirrors (key : UInt64) (s : Service) (t : Tally) : Prop where
  counted : countAt key s.agg = t.window.count?
  drained : flushedCount key s.emitted = t.drained

/-- A step that a call takes, or none. -/
def advance (t : Tally) (step : Option Step) : Tally := step.elim t (t.step counterSize)

theorem step_mirrors {keys : List UInt64} (few : keys.dedup.length < maxKeys) {s : Service} {t : Tally}
    (homed : Homed room keys s.agg) (mirrors : Mirrors key s t) (call : Call) :
    Mirrors key (s.step call) (advance t (stepOf room key call)) ∧
      (advance t (stepOf room key call)).dropped = t.dropped +
        if stepOf room key call = some .drop then pendingCount key s.agg else 0 := by
  have pending : pendingCount key s.agg = t.window.pending := by
    rw [pendingCount, mirrors.counted, Window.pending]
  have counted := @countAt_step room key keys few s homed call
  have drained := @flushedCount_step room key s call
  rw [mirrors.counted] at counted
  rw [mirrors.drained, pending] at drained
  rw [pending]
  cases taken : stepOf room key call with
  | none =>
    rw [taken] at counted drained
    exact ⟨⟨counted, drained⟩, rfl⟩
  | some step =>
    rw [taken] at counted drained
    refine ⟨⟨counted.trans (count_after counterSize t.window step).symm, ?_⟩, ?_⟩
    · simpa [advance, Tally.step] using drained
    · simp [advance, Tally.step]

theorem run_cons_advance (t : Tally) (call : Call) (calls : List Call) :
    run (Tally.step counterSize) t ((call :: calls).filterMap (stepOf room key)) =
      run (Tally.step counterSize) (advance t (stepOf room key call))
        (calls.filterMap (stepOf room key)) := by
  cases taken : stepOf room key call with
  | none =>
    rw [List.filterMap_cons_none taken]
    rfl
  | some step =>
    rw [List.filterMap_cons_some taken]
    rfl

theorem run_mirrors {keys : List UInt64} (few : keys.dedup.length < maxKeys) {calls : List Call}
    (known : ∀ call ∈ calls, ∀ k ∈ call.key?, k ∈ keys) (inRoom : ∀ call ∈ calls, call.InRoom room)
    {s : Service} {t : Tally} (homed : Homed room keys s.agg) (mirrors : Mirrors key s t) :
    Mirrors key (run Service.step s calls)
        (run (Tally.step counterSize) t (calls.filterMap (stepOf room key))) ∧
      (run (Tally.step counterSize) t (calls.filterMap (stepOf room key))).dropped =
        t.dropped + clearedCount room key s calls := by
  induction calls generalizing s t with
  | nil => exact ⟨mirrors, rfl⟩
  | cons call calls ih =>
    obtain ⟨knownHere, knownLater⟩ := List.forall_mem_cons.mp known
    obtain ⟨here, later⟩ := List.forall_mem_cons.mp inRoom
    obtain ⟨next, dropped⟩ := step_mirrors few homed mirrors call
    obtain ⟨last, total⟩ := ih knownLater later (step_homed few knownHere here homed) next
    rw [run_cons_advance, run_cons]
    refine ⟨last, ?_⟩
    rw [total, dropped, clearedCount_cons, Nat.add_assoc]

end Counts

/-- No count of a key is lost exactly when every call for it, from its first registration on,
    finds an entry with room for one more. -/
theorem counts_kept_iff {room : UInt64 → Option String} {calls : List Call}
    (few : (calls.filterMap Call.key?).dedup.length < maxKeys)
    (inRoom : ∀ call ∈ calls, call.InRoom room) (key : UInt64) :
    CountsKept room key calls ↔
      AllCounted counterSize .unseen (calls.filterMap (stepOf room key)) := by
  have known : ∀ call ∈ calls, ∀ k ∈ call.key?, k ∈ calls.filterMap Call.key? :=
    fun call member k name => List.mem_filterMap.mpr ⟨call, member, name⟩
  have homed : Homed room (calls.filterMap Call.key?) Service.start.agg := by
    intro k entry found
    rw [Service.start, get_init] at found
    cases found
  have start : Mirrors key Service.start Tally.start := by
    refine ⟨?_, rfl⟩
    rw [countAt, Service.start, get_init]
    rfl
  obtain ⟨last, dropped⟩ := run_mirrors few known inRoom homed start
  rw [← kept_iff, callsSince_steps, ← last.drained, Window.pending, ← last.counted, dropped]
  simp only [CountsKept, pendingCount, Tally.start, Nat.zero_add]

/-- A key that is registered again after each flush. -/
theorem two_windows_kept : CountsKept (fun _ => some "lobby") 7
    [.register 7 "rtx_cache_miss" (some "lobby") 0, .inc 7 2, .inc 7 3, .flush 3000,
      .register 7 "rtx_cache_miss" (some "lobby") 4, .inc 7 5, .flush 6000] :=
  (counts_kept_iff (by decide) (by simp [Call.InRoom]) 7).mpr (by decide)

/-- The flush removes the registration; the next `inc` is counted nowhere. -/
theorem inc_after_flush_lost : ¬ ∀ (room : UInt64 → Option String) (calls : List Call),
    (calls.filterMap Call.key?).dedup.length < maxKeys → (∀ call ∈ calls, call.InRoom room) →
      ∀ key, CountsKept room key calls := by
  intro kept
  have lost := kept (fun _ => some "lobby")
    [.register 7 "rtx_cache_miss" (some "lobby") 0, .inc 7 2, .flush 3000, .inc 7 5] (by decide)
    (by simp [Call.InRoom]) 7
  exact absurd lost (by decide)

end EventCounts
