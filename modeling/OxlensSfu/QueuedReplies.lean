import OxlensSfu.QueueDiscipline

/-
What a Queued answer says about the queue. Positions are reported as bytes in four
places; a repeated request reports the priority that it asked with.
-/
namespace QueuedReplies
open FloorControl FloorQueue QueueDiscipline GuardedRun StableSort

def isOf (u : UserId) (e : QueueEntry) : Bool := e.userId == u

/-- The queue of the controller is what the answer says. -/
structure Agrees (c : FloorController) (u : UserId) (position priority : UInt8)
    (queueSize : UInt16) : Prop where
  waits : u ∈ waiting c
  place : c.queue.findIdx (isOf u) + 1 = position.toNat
  stored : ∀ e ∈ c.queue, e.userId = u → e.priority = priority
  size : c.queue.length = queueSize.toNat
  query : queryQueuePosition c u = some (position, priority)
  snapshot : ∀ x ∈ queueSnapshot c, x.1 = u → x = (u, priority, position)

/-- Who waits already asks with the priority it waits with; nobody is told a place that
    does not fit into a byte. -/
def Faithful (c : FloorController) (u : UserId) (priority : UInt8) (nowMs : Nat) : Prop :=
  match c.queue.find? (isOf u) with
  | some e => e.priority = priority ∧ c.queue.findIdx (isOf u) < 255
  | none => (c.queue.countP fun e => e.Before ⟨u, priority, nowMs⟩) < 255

instance (c : FloorController) (u : UserId) (priority : UInt8) (nowMs : Nat) :
    Decidable (Faithful c u priority nowMs) := by
  unfold Faithful
  split <;> infer_instance

theorem find_zipIdx {α : Type} (p : α → Bool) (l : List α) (n : Nat) :
    (l.zipIdx n).find? (fun x => p x.1) = (l.find? p).map fun a => (a, n + l.findIdx p) := by
  induction l generalizing n with
  | nil => rfl
  | cons a l ih =>
    rw [List.zipIdx_cons, List.find?_cons, List.find?_cons, List.findIdx_cons]
    cases p a with
    | true => rfl
    | false =>
      simp only [ih, cond_false]
      cases l.find? p with
      | none => rfl
      | some b => simp [Nat.add_comm, Nat.add_left_comm]

section Waiting
variable {c : FloorController} {u : UserId}

theorem find_of_waiting (present : u ∈ waiting c) :
    ∃ e, c.queue.find? (isOf u) = some e ∧ e ∈ c.queue ∧ e.userId = u := by
  cases found : c.queue.find? (isOf u) with
  | none =>
    obtain ⟨e, member, named⟩ := List.mem_map.mp present
    exact absurd named (by simpa [isOf] using List.find?_eq_none.mp found e member)
  | some e =>
    exact ⟨e, rfl, List.mem_of_find?_eq_some found, by simpa [isOf] using List.find?_some found⟩

theorem entry_unique (distinct : (waiting c).Nodup) {a b : QueueEntry} (here : a ∈ c.queue)
    (there : b ∈ c.queue) (same : a.userId = b.userId) : a = b :=
  List.inj_on_of_nodup_map distinct here there same

/-- Nobody waits twice, so whoever is found at a place is first found there. -/
theorem findIdx_of_getElem (distinct : (waiting c).Nodup) {i : Nat} {e : QueueEntry}
    (at_ : c.queue[i]? = some e) (named : e.userId = u) : c.queue.findIdx (isOf u) = i := by
  obtain ⟨short, here⟩ := List.getElem?_eq_some_iff.mp at_
  rw [List.findIdx_eq short]
  refine ⟨by simp [isOf, here, named], fun j before => ?_⟩
  have inside : j < c.queue.length := Nat.lt_trans before short
  have jth : j < (waiting c).length := by simpa [waiting] using inside
  have ith : i < (waiting c).length := by simpa [waiting] using short
  have apart : (waiting c)[j] ≠ (waiting c)[i] := by
    rw [Ne, distinct.getElem_inj_iff]
    exact Nat.ne_of_lt before
  simpa [waiting, isOf, here, named] using apart

theorem query_of_waiting {e : QueueEntry} (found : c.queue.find? (isOf u) = some e) :
    queryQueuePosition c u =
      some (UInt8.ofNat (c.queue.findIdx (isOf u) + 1), e.priority) := by
  have position := find_zipIdx (isOf u) c.queue 0
  rw [found] at position
  unfold isOf at position ⊢
  simp [queryQueuePosition, position]

theorem snapshot_of_waiting (distinct : (waiting c).Nodup) {e : QueueEntry}
    (found : c.queue.find? (isOf u) = some e) {x : UserId × UInt8 × UInt8}
    (listed : x ∈ queueSnapshot c) (named : x.1 = u) :
    x = (u, e.priority, UInt8.ofNat (c.queue.findIdx (isOf u) + 1)) := by
  obtain ⟨⟨e', i⟩, member, rfl⟩ := List.mem_map.mp listed
  have at_ : c.queue[i]? = some e' := List.mem_zipIdx_iff_getElem?.mp member
  have own : e.userId = u := by simpa [isOf] using List.find?_some found
  have same : e' = e := entry_unique distinct (List.mem_of_getElem? at_)
    (List.mem_of_find?_eq_some found) (named.trans own.symm)
  change (e'.userId, e'.priority, UInt8.ofNat (i + 1)) = _
  rw [findIdx_of_getElem distinct at_ named, same, own]

/-- An answer built from the queue agrees with it up to the two narrowings. -/
theorem reply_agrees_iff (distinct : (waiting c).Nodup) (short : c.queue.length ≤ 65535)
    {e : QueueEntry} (found : c.queue.find? (isOf u) = some e) (priority : UInt8) :
    Agrees c u (UInt8.ofNat (c.queue.findIdx (isOf u) + 1)) priority
        (UInt16.ofNat c.queue.length) ↔
      e.priority = priority ∧ c.queue.findIdx (isOf u) < 255 := by
  have member := List.mem_of_find?_eq_some found
  have own : e.userId = u := by simpa [isOf] using List.find?_some found
  constructor
  · intro agrees
    have place := agrees.place
    rw [UInt8.toNat_ofNat'] at place
    exact ⟨agrees.stored e member own, by omega⟩
  · rintro ⟨rfl, fits⟩
    refine ⟨List.mem_map.mpr ⟨e, member, own⟩, ?_, ?_, ?_, query_of_waiting found, ?_⟩
    · rw [UInt8.toNat_ofNat']
      omega
    · intro e' member' named
      rw [entry_unique distinct member' member (named.trans own.symm)]
    · rw [UInt16.toNat_ofNat']
      omega
    · exact fun x listed named => snapshot_of_waiting distinct found listed named

end Waiting

/-- A new waiter stands behind all that may stand before it. -/
theorem enqueue_place {c : FloorController} (sorted : c.queue.Pairwise QueueEntry.Before)
    {u : UserId} (absent : u ∉ waiting c) (priority : UInt8) (nowMs : Nat) :
    let entry : QueueEntry := ⟨u, priority, nowMs⟩
    (enqueue c entry).queue.find? (isOf u) = some entry ∧
      (enqueue c entry).queue.findIdx (isOf u) = c.queue.countP fun e => e.Before entry := by
  intro entry
  have others : ∀ e ∈ c.queue, isOf u e = false := by
    intro e member
    have other : e.userId ≠ u := fun same => absent (List.mem_map.mpr ⟨e, member, same⟩)
    simpa [isOf] using other
  have inserted : (enqueue c entry).queue = insertLast QueueEntry.Before entry c.queue := by
    simp only [enqueue]
    rw [insertionSort_snoc, sorted.insertionSort_eq]
  constructor
  · obtain ⟨e, found, member, named⟩ := find_of_waiting (u := u) (c := enqueue c entry)
      ((waiting_enqueue_perm c entry).mem_iff.mpr List.mem_cons_self)
    have listed : e ∈ c.queue ++ [entry] := (List.mem_insertionSort QueueEntry.Before).mp member
    rcases List.mem_append.mp listed with old | new
    · have other := others e old
      simp [isOf, named] at other
    · rw [found, List.mem_singleton.mp new]
  · rw [inserted]
    exact findIdx_insertLast QueueEntry.Before (by simp [isOf, entry]) others sorted

theorem queued_reply_agrees_iff (config : FloorConfig) (small : config.maxQueueSize ≤ 65535)
    (ops : List FloorOp) (u user : UserId) (p position priority : UInt8) (nowMs : Nat)
    (queueSize : UInt16)
    (queued : .queued user position priority queueSize ∈
      (request (run step (withConfig config) ops) u p nowMs).2) :
    (user = u ∧ Agrees (request (run step (withConfig config) ops) u p nowMs).1 u position priority
      queueSize) ↔ Faithful (run step (withConfig config) ops) u p nowMs := by
  obtain ⟨same, ordered⟩ := queue_always_ordered config ops
  generalize run step (withConfig config) ops = c at same ordered queued ⊢
  have short : c.queue.length ≤ 65535 := Nat.le_trans (same ▸ ordered.bounded) small
  have move := request_transition c u p nowMs
  have after := step_ordered c (.request u p nowMs) ordered
  have sized : (request c u p nowMs).1.queue.length ≤ 65535 := by
    have bounded := after.bounded
    have kept : (step c (.request u p nowMs)).config = c.config := transition_config move
    rw [kept, same] at bounded
    exact Nat.le_trans bounded small
  have distinct : (waiting (request c u p nowMs).1).Nodup := after.distinct
  clear after
  generalize (request c u p nowMs).1 = next at move sized distinct ⊢
  generalize (request c u p nowMs).2 = acts at move queued
  cases move with
  | grantIdle => simp at queued
  | grantAgain => simp at queued
  | preempt => simp at queued
  | deny => simp at queued
  | stillQueued _ _ _ present =>
    obtain ⟨e, found, _, _⟩ := find_of_waiting ((waits_iff c u).mp present)
    rw [List.mem_singleton, queuedReply, FloorAction.queued.injEq] at queued
    obtain ⟨rfl, rfl, rfl, rfl⟩ := queued
    rw [eq_self, true_and, Faithful, found]
    exact reply_agrees_iff distinct sized found priority
  | enqueue _ _ _ absent _ =>
    have outside := (waits_false_iff c u).mp absent
    obtain ⟨found, place⟩ := enqueue_place ordered.sorted outside p nowMs
    have unfound : c.queue.find? (isOf u) = none := by
      rw [List.find?_eq_none]
      intro e member own
      exact outside (List.mem_map.mpr ⟨e, member, by simpa [isOf] using own⟩)
    rw [List.mem_singleton, queuedReply, FloorAction.queued.injEq] at queued
    obtain ⟨rfl, rfl, rfl, rfl⟩ := queued
    rw [eq_self, true_and, Faithful, unfound, ← place]
    exact (reply_agrees_iff distinct sized found priority).trans (and_iff_right rfl)

/-- A talks, B waits with priority 3, and C comes to wait before it. -/
theorem queued_reply_agrees_insert :
    ("C" = "C" ∧ Agrees (request (run step (withConfig .default)
      [.request "A" 5 0, .request "B" 3 1]) "C" 4 2).1 "C" 1 4 2) ↔
      Faithful (run step (withConfig .default) [.request "A" 5 0, .request "B" 3 1]) "C" 4 2 :=
  queued_reply_agrees_iff .default (by decide) _ "C" "C" 4 1 4 2 2 (by decide)

/-- B waits with priority 3 and asks again with priority 4. -/
theorem repeated_request_misreports : ¬ ∀ (config : FloorConfig), config.maxQueueSize ≤ 65535 →
    ∀ (ops : List FloorOp) (u user : UserId) (p position priority : UInt8) (nowMs : Nat)
    (queueSize : UInt16), .queued user position priority queueSize ∈
      (request (run step (withConfig config) ops) u p nowMs).2 →
    user = u ∧ Agrees (request (run step (withConfig config) ops) u p nowMs).1 u position priority
      queueSize := by
  intro all
  have agrees := (all .default (by decide) [.request "A" 5 0, .request "B" 3 1] "B" "B" 4 1 4 2 1
    (by decide)).2
  have stored := agrees.stored ⟨"B", 3, 1⟩ (by decide) rfl
  exact absurd stored (by decide)

end QueuedReplies
