import OxlensSfu.FloorQueue
import OxlensSfu.StableSort

/-
The waiting queue as a discipline: who waits, in which order, and who is served.
Beside the controller the ledger keeps the waiting entries in order of insertion;
the queue is the stable sort of that list.
-/
namespace QueueDiscipline
open SfuConfig FloorControl FloorQueue GuardedRun StableSort

instance : Std.Total QueueEntry.Before :=
  ⟨fun a b => by
    rcases Nat.lt_trichotomy a.priority.toNat b.priority.toNat with lt | eq | gt
    · exact .inr (.inl lt)
    · have same : a.priority = b.priority := UInt8.toNat_inj.mp eq
      rcases Nat.le_total a.enqueuedAt b.enqueuedAt with le | ge
      · exact .inl (.inr ⟨same, le⟩)
      · exact .inr (.inr ⟨same.symm, ge⟩)
    · exact .inl (.inl gt)⟩

instance : IsTrans QueueEntry QueueEntry.Before :=
  ⟨fun a b c ab bc => by
    rcases ab with ab | ⟨ab, early⟩ <;> rcases bc with bc | ⟨bc, late⟩
    · exact .inl (UInt8.lt_trans bc ab)
    · exact .inl (bc ▸ ab)
    · exact .inl (ab ▸ bc)
    · exact .inr ⟨ab.trans bc, Nat.le_trans early late⟩⟩

/-- The user whose own operation takes it out of the queue. -/
def withdraws : FloorOp → Option UserId
  | .release u _ => some u
  | .cancelQueue u => some u
  | .onParticipantLeave u _ => some u
  | _ => none

/-- Who is still waiting when a burst that the operation ends hands over. -/
def staying (op : FloorOp) (waiters : List QueueEntry) : List QueueEntry :=
  match op with
  | .onParticipantLeave u _ => waiters.filter (·.userId != u)
  | _ => waiters

/-- What an operation does to the queue. -/
inductive Moved (c : FloorController) (op : FloorOp) (next : FloorController)
    (acts : List FloorAction) : Prop where
  | kept (same : next.queue = c.queue)
  | joined (e : QueueEntry) (absent : e.userId ∉ waiting c)
      (space : c.queue.length < c.config.maxQueueSize)
      (queue : next.queue = (c.queue ++ [e]).insertionSort QueueEntry.Before)
  | left (u : UserId) (own : withdraws op = some u)
      (queue : next.queue = c.queue.filter (·.userId != u))
  | served (head : QueueEntry) (queue : staying op c.queue = head :: next.queue)
      (granted : .granted head.userId head.priority floorDefaultDurationS ∈ acts)

theorem endBurst_moved {c b : FloorController} {op : FloorOp} (u : UserId) (action : FloorAction)
    (grantMs : Nat) (before : b.queue = staying op c.queue)
    (idle : Moved c op { b with state := .idle, prevSpeaker := some u } [action]) :
    Moved c op (endBurst b u action grantMs).1 (endBurst b u action grantMs).2 := by
  rcases endBurst_cases b u action grantMs with ⟨_, run⟩ | ⟨next, rest, queue, run⟩
  · rw [run]; exact idle
  · rw [run]; exact .served next (before.symm.trans queue) (by simp)

theorem transition_moved {c next : FloorController} {op : FloorOp} {acts : List FloorAction}
    (move : Transition c op next acts) : Moved c op next acts := by
  cases move with
  | grantIdle => exact .kept rfl
  | grantAgain => exact .kept rfl
  | preempt => exact .kept rfl
  | stillQueued => exact .kept rfl
  | enqueue _ _ _ absent space =>
    exact .joined _ ((waits_false_iff c _).mp absent) space rfl
  | deny => exact .kept rfl
  | releaseHeld => exact endBurst_moved _ _ _ rfl (.kept rfl)
  | releaseOther => exact .left _ rfl rfl
  | releaseIdle => exact .kept rfl
  | pingHeld => exact .kept rfl
  | pingOther => exact .kept rfl
  | cancel => exact .left _ rfl rfl
  | expire => exact endBurst_moved _ _ _ rfl (.kept rfl)
  | timersQuiet => exact .kept rfl
  | leaveHeld => exact endBurst_moved _ _ _ rfl (.left _ rfl rfl)
  | leaveOther => exact .left _ rfl rfl

theorem staying_sublist (op : FloorOp) (waiters : List QueueEntry) :
    (staying op waiters).Sublist waiters := by
  cases op with
  | onParticipantLeave => exact List.filter_sublist
  | _ => exact List.Sublist.refl _

theorem endBurst_config (c : FloorController) (u : UserId) (action : FloorAction) (grantMs : Nat) :
    (endBurst c u action grantMs).1.config = c.config := by
  rcases endBurst_cases c u action grantMs with ⟨_, run⟩ | ⟨next, rest, _, run⟩
  · rw [run]
  · rw [run]
    rfl

theorem transition_config {c next : FloorController} {op : FloorOp} {acts : List FloorAction}
    (move : Transition c op next acts) : next.config = c.config := by
  cases move with
  | releaseHeld => exact endBurst_config _ _ _ _
  | expire => exact endBurst_config _ _ _ _
  | leaveHeld => exact endBurst_config _ _ _ _
  | _ => rfl

/-- Nobody waits twice, the queue is sorted and bounded, and an idle floor has no
    waiters. -/
structure Ordered (c : FloorController) : Prop where
  distinct : (waiting c).Nodup
  sorted : c.queue.Pairwise QueueEntry.Before
  bounded : c.queue.length ≤ c.config.maxQueueSize
  idleEmpty : c.state = .idle → c.queue = []

theorem moved_sorted {c next : FloorController} {op : FloorOp} {acts : List FloorAction}
    (move : Moved c op next acts) (sorted : c.queue.Pairwise QueueEntry.Before) :
    next.queue.Pairwise QueueEntry.Before := by
  cases move with
  | kept same => rw [same]; exact sorted
  | joined e absent space queue => rw [queue]; exact List.pairwise_insertionSort _ _
  | left u own queue => rw [queue]; exact sorted.filter _
  | served head queue granted =>
    have stay := sorted.sublist (staying_sublist op c.queue)
    rw [queue] at stay
    exact stay.tail

theorem moved_bounded {c next : FloorController} {op : FloorOp} {acts : List FloorAction}
    (move : Moved c op next acts) (bounded : c.queue.length ≤ c.config.maxQueueSize) :
    next.queue.length ≤ c.config.maxQueueSize := by
  cases move with
  | kept same => rw [same]; exact bounded
  | joined e absent space queue =>
    rw [queue, List.length_insertionSort, List.length_append]
    exact space
  | left u own queue => rw [queue]; exact Nat.le_trans (List.length_filter_le _ _) bounded
  | served head queue granted =>
    have stay := (staying_sublist op c.queue).length_le
    rw [queue, List.length_cons] at stay
    omega

theorem step_ordered (c : FloorController) (op : FloorOp) (ordered : Ordered c) :
    Ordered (step c op) := by
  have move := applyOp_transition c op
  have sound := step_sound c op ⟨ordered.distinct, ordered.idleEmpty⟩
  refine ⟨sound.distinct, moved_sorted (transition_moved move) ordered.sorted, ?_,
    sound.idleEmpty⟩
  have config : (step c op).config = c.config := transition_config move
  rw [config]
  exact moved_bounded (transition_moved move) ordered.bounded

theorem withConfig_ordered (config : FloorConfig) : Ordered (withConfig config) :=
  ⟨by simp [waiting, withConfig], List.Pairwise.nil, Nat.zero_le _, fun _ => rfl⟩

theorem queue_always_ordered (config : FloorConfig) (ops : List FloorOp) :
    (run step (withConfig config) ops).config = config ∧
      Ordered (run step (withConfig config) ops) := by
  have kept : ∀ c op, (c.config = config ∧ Ordered c) → True →
      (step c op).config = config ∧ Ordered (step c op) := by
    intro c op ⟨same, ordered⟩ _
    have move := applyOp_transition c op
    exact ⟨(transition_config move).trans same, step_ordered c op ordered⟩
  exact guarded_invariant kept ⟨rfl, withConfig_ordered config⟩ ops
    (guarded_of_forall (fun _ _ => trivial) _ ops)

/-- The controller, and its waiting entries in order of insertion. -/
structure Ledger where
  controller : FloorController
  arrivals : List QueueEntry
  deriving DecidableEq

def start (config : FloorConfig) : Ledger := ⟨withConfig config, []⟩

/-- An entry that is still in the queue keeps its place; a new one comes last. -/
def record (before after : FloorController) (arrivals : List QueueEntry) : List QueueEntry :=
  arrivals.filter (· ∈ after.queue) ++ after.queue.filter (· ∉ before.queue)

def advance (l : Ledger) (op : FloorOp) : Ledger :=
  let next := step l.controller op
  ⟨next, record l.controller next l.arrivals⟩

/-- The queue is the stable sort of the arrivals, and nobody waits twice. -/
structure Served (l : Ledger) : Prop where
  queue : l.controller.queue = l.arrivals.insertionSort QueueEntry.Before
  distinct : (waiting l.controller).Nodup

theorem staying_sort (op : FloorOp) (waiters : List QueueEntry) :
    staying op (waiters.insertionSort QueueEntry.Before) =
      (staying op waiters).insertionSort QueueEntry.Before := by
  cases op with
  | onParticipantLeave => exact filter_insertionSort _ _ _
  | _ => rfl

/-- Whoever is served was the first arrival among those that nothing outranks. -/
theorem served_first {l : Ledger} (served : Served l) {op : FloorOp} {head : QueueEntry}
    {rest : List QueueEntry} (pop : staying op l.controller.queue = head :: rest) :
    ∃ earlier later, staying op l.arrivals = earlier ++ head :: later ∧
      (∀ x ∈ earlier, ¬ x.Before head) ∧ (∀ x ∈ later, head.Before x) ∧
      rest = (earlier ++ later).insertionSort QueueEntry.Before := by
  rw [served.queue, staying_sort] at pop
  exact insertionSort_head _ pop

theorem filter_staying {op : FloorOp} {waiters rest : List QueueEntry}
    (inside : ∀ e ∈ rest, e ∈ staying op waiters) :
    (staying op waiters).filter (· ∈ rest) = waiters.filter (· ∈ rest) := by
  cases op with
  | onParticipantLeave u grantMs =>
    simp only [staying, List.filter_filter]
    refine List.filter_congr fun e _ => ?_
    by_cases listed : e ∈ rest
    · have other := (List.mem_filter.mp (inside e listed)).2
      simp [listed, other]
    · simp [listed]
  | _ => rfl

theorem record_served {l : Ledger} (served : Served l) {op : FloorOp} {next : FloorController}
    {head : QueueEntry} (pop : staying op l.controller.queue = head :: next.queue) :
    next.queue = (record l.controller next l.arrivals).insertionSort QueueEntry.Before := by
  obtain ⟨earlier, later, split, -, -, rest⟩ := served_first served pop
  have members : ∀ e, e ∈ next.queue ↔ e ∈ earlier ∨ e ∈ later := by
    intro e
    rw [rest, List.mem_insertionSort, List.mem_append]
  have inside : ∀ e ∈ next.queue, e ∈ staying op l.arrivals := by
    intro e listed
    rw [split, List.mem_append, List.mem_cons]
    exact ((members e).mp listed).imp_right .inr
  have gone : head ∉ next.queue := by
    have users := (staying_sublist op l.controller.queue).map (·.userId)
    have apart := served.distinct.sublist users
    rw [pop, List.map_cons, List.nodup_cons] at apart
    exact fun listed => apart.1 (List.mem_map_of_mem listed)
  have nobody : next.queue.filter (· ∉ l.controller.queue) = [] := by
    rw [List.filter_eq_nil_iff]
    intro e listed
    have waits : e ∈ l.controller.queue :=
      (staying_sublist op _).subset (pop ▸ List.mem_cons_of_mem _ listed)
    simp [waits]
  have stayed : earlier.filter (· ∈ next.queue) = earlier ∧
      later.filter (· ∈ next.queue) = later := by
    simp only [List.filter_eq_self, decide_eq_true_eq]
    exact ⟨fun e he => (members e).mpr (.inl he), fun e he => (members e).mpr (.inr he)⟩
  rw [record, nobody, List.append_nil, ← filter_staying inside, split, List.filter_append,
    List.filter_cons_of_neg (by simpa using gone), stayed.1, stayed.2]
  exact rest

theorem record_joined {l : Ledger} (served : Served l) {next : FloorController} {e : QueueEntry}
    (absent : e.userId ∉ waiting l.controller)
    (queue : next.queue = (l.controller.queue ++ [e]).insertionSort QueueEntry.Before) :
    next.queue = (record l.controller next l.arrivals).insertionSort QueueEntry.Before := by
  have fresh : e ∉ l.controller.queue := fun listed => absent (List.mem_map_of_mem listed)
  have old : l.arrivals.filter (· ∈ next.queue) = l.arrivals := by
    simp only [List.filter_eq_self, decide_eq_true_eq]
    intro x arrived
    have listed : x ∈ l.controller.queue := by rwa [served.queue, List.mem_insertionSort]
    rw [queue, List.mem_insertionSort]
    exact List.mem_append_left _ listed
  have new : next.queue.filter (· ∉ l.controller.queue) = [e] := by
    have none : l.controller.queue.filter (· ∉ l.controller.queue) = [] := by
      rw [List.filter_eq_nil_iff]
      intro x listed
      simp [listed]
    rw [queue, filter_insertionSort, List.filter_append, none,
      List.filter_cons_of_pos (by simpa using fresh)]
    rfl
  rw [record, old, new, queue, served.queue, insertionSort_resort]

theorem moved_served {l : Ledger} (served : Served l) {op : FloorOp} {next : FloorController}
    {acts : List FloorAction} (move : Moved l.controller op next acts) :
    next.queue = (record l.controller next l.arrivals).insertionSort QueueEntry.Before := by
  have arrived : ∀ e, e ∈ l.arrivals ↔ e ∈ l.controller.queue := fun e => by
    rw [served.queue, List.mem_insertionSort]
  cases move with
  | kept same =>
    have nobody : next.queue.filter (· ∉ l.controller.queue) = [] := by
      rw [List.filter_eq_nil_iff, same]
      intro e listed
      simp [listed]
    have all : l.arrivals.filter (· ∈ next.queue) = l.arrivals := by
      simp only [List.filter_eq_self, decide_eq_true_eq, same]
      exact fun e listed => (arrived e).mp listed
    rw [record, nobody, all, same, List.append_nil, served.queue]
  | joined e absent space queue => exact record_joined served absent queue
  | left u own queue =>
    have nobody : next.queue.filter (· ∉ l.controller.queue) = [] := by
      rw [List.filter_eq_nil_iff, queue]
      intro e listed
      simp [List.mem_of_mem_filter listed]
    have others : l.arrivals.filter (· ∈ next.queue) = l.arrivals.filter (·.userId != u) := by
      refine List.filter_congr fun e listed => ?_
      have waits := (arrived e).mp listed
      have only : e ∈ next.queue ↔ (e.userId != u) = true := by
        rw [queue, List.mem_filter]
        exact and_iff_right waits
      rw [decide_eq_decide.mpr only, Bool.decide_coe]
    rw [record, nobody, others, List.append_nil, queue, served.queue, filter_insertionSort]
  | served head queue granted => exact record_served served queue

theorem advance_served (l : Ledger) (op : FloorOp) (held : Ordered l.controller ∧ Served l) :
    Ordered (advance l op).controller ∧ Served (advance l op) := by
  have ordered := step_ordered l.controller op held.1
  exact ⟨ordered, moved_served held.2 (transition_moved (applyOp_transition l.controller op)),
    ordered.distinct⟩

/-- The operation granted the floor to `u`, or `u` itself withdrew. -/
def Excused (op : FloorOp) (acts : List FloorAction) (u : UserId) : Bool :=
  withdraws op == some u || acts.any fun act => match act with
    | .granted speaker _ _ => speaker == u
    | _ => false

/-- Nobody is lost or reordered by the operation, and the floor is handed over to the
    waiter of highest priority, then of smallest time, then of earliest insertion. -/
structure Disciplined (l : Ledger) (op : FloorOp) : Prop where
  keeps : (l.controller.queue.filter fun e => !Excused op (applyOp l.controller op).2 e.userId).Sublist
    (advance l op).controller.queue
  serves : ∀ u p d, .granted u p d ∈ (applyOp l.controller op).2 → (∀ v q t, op ≠ .request v q t) →
    ∃ e earlier later, e.userId = u ∧ e.priority = p ∧
      staying op l.arrivals = earlier ++ e :: later ∧
      (∀ x ∈ earlier, x.priority < e.priority ∨
        (x.priority = e.priority ∧ e.enqueuedAt < x.enqueuedAt)) ∧
      (∀ x ∈ later, x.priority < e.priority ∨
        (e.priority = x.priority ∧ e.enqueuedAt ≤ x.enqueuedAt))

theorem not_before {a b : QueueEntry} (no : ¬ a.Before b) :
    a.priority < b.priority ∨ (a.priority = b.priority ∧ b.enqueuedAt < a.enqueuedAt) := by
  rw [QueueEntry.Before, not_or, not_and] at no
  rcases Nat.lt_trichotomy a.priority.toNat b.priority.toNat with lt | eq | gt
  · exact .inl lt
  · have same : a.priority = b.priority := UInt8.toNat_inj.mp eq
    exact .inr ⟨same, Nat.lt_of_not_le (no.2 same)⟩
  · exact absurd gt no.1

/-- Whoever leaves is excused. -/
theorem bound_staying (op : FloorOp) (acts : List FloorAction) (waiters : List QueueEntry) :
    (staying op waiters).filter (fun e => !Excused op acts e.userId) =
      waiters.filter fun e => !Excused op acts e.userId := by
  cases op with
  | onParticipantLeave u grantMs =>
    simp only [staying, List.filter_filter]
    refine List.filter_congr fun e _ => ?_
    by_cases same : e.userId = u
    · simp [Excused, withdraws, same]
    · simp [same]
  | _ => rfl

theorem moved_keeps {c next : FloorController} {op : FloorOp} {acts : List FloorAction}
    (sorted : c.queue.Pairwise QueueEntry.Before) (move : Moved c op next acts) :
    (c.queue.filter fun e => !Excused op acts e.userId).Sublist next.queue := by
  cases move with
  | kept same => rw [same]; exact List.filter_sublist
  | joined e absent space queue =>
    have stay : c.queue.Sublist next.queue := by
      rw [queue]
      exact List.sublist_insertionSort sorted (List.sublist_append_left _ _)
    exact List.filter_sublist.trans stay
  | left u own queue =>
    rw [queue]
    refine List.monotone_filter_right _ fun e bound => ?_
    rw [bne_iff_ne]
    rintro rfl
    simp [Excused, own] at bound
  | served head queue granted =>
    have out : Excused op acts head.userId = true := by
      rw [Excused, Bool.or_eq_true, List.any_eq_true]
      exact .inr ⟨_, granted, by simp⟩
    rw [← bound_staying op acts c.queue, queue, List.filter_cons_of_neg (by simp [out])]
    exact List.filter_sublist

theorem granted_served {c next : FloorController} {op : FloorOp} {acts : List FloorAction}
    (move : Transition c op next acts) (answer : ∀ v q t, op ≠ .request v q t) {u : UserId}
    {p : UInt8} {d : UInt16} (granted : .granted u p d ∈ acts) :
    ∃ head, head.userId = u ∧ head.priority = p ∧ staying op c.queue = head :: next.queue := by
  have burst : ∀ (b : FloorController) (s : UserId) (action : FloorAction) (grantMs : Nat),
      b.queue = staying op c.queue → (∀ u p d, action ≠ .granted u p d) →
      .granted u p d ∈ (endBurst b s action grantMs).2 →
      ∃ head, head.userId = u ∧ head.priority = p ∧
        staying op c.queue = head :: (endBurst b s action grantMs).1.queue := by
    intro b s action grantMs same ends granted
    rcases endBurst_cases b s action grantMs with ⟨_, run⟩ | ⟨next, rest, queue, run⟩
    · rw [run, List.mem_singleton] at granted
      exact absurd granted.symm (ends u p d)
    · rw [run, List.mem_pair] at granted
      rcases granted with same' | same'
      · exact absurd same'.symm (ends u p d)
      · rw [FloorAction.granted.injEq] at same'
        exact ⟨next, same'.1.symm, same'.2.1.symm, by rw [run, ← same, queue]⟩
  cases move with
  | grantIdle => exact absurd rfl (answer _ _ _)
  | grantAgain => exact absurd rfl (answer _ _ _)
  | preempt => exact absurd rfl (answer _ _ _)
  | stillQueued => exact absurd rfl (answer _ _ _)
  | enqueue => exact absurd rfl (answer _ _ _)
  | deny => exact absurd rfl (answer _ _ _)
  | releaseHeld => exact burst c _ _ _ rfl (by simp) granted
  | expire => exact burst c _ _ _ rfl (by simp) granted
  | leaveHeld => exact burst (dequeue c _) _ _ _ rfl (by simp) granted
  | releaseOther => simp at granted
  | releaseIdle => simp at granted
  | pingHeld => simp at granted
  | pingOther => simp at granted
  | cancel => simp at granted
  | timersQuiet => simp at granted
  | leaveOther => simp at granted

theorem queue_disciplined (config : FloorConfig) (ops : List FloorOp) (op : FloorOp) :
    Disciplined (run advance (start config) ops) op := by
  have held : Ordered (run advance (start config) ops).controller ∧
      Served (run advance (start config) ops) :=
    guarded_invariant (fun l op held _ => advance_served l op held)
      ⟨withConfig_ordered config, rfl, (withConfig_ordered config).distinct⟩ ops
      (guarded_of_forall (fun _ _ => trivial) _ ops)
  have move := applyOp_transition (run advance (start config) ops).controller op
  refine ⟨moved_keeps held.1.sorted (transition_moved move), fun u p d granted answer => ?_⟩
  obtain ⟨e, user, priority, pop⟩ := granted_served move answer granted
  obtain ⟨earlier, later, split, before, after, -⟩ := served_first held.2 pop
  exact ⟨e, earlier, later, user, priority, split, fun x hx => not_before (before x hx), after⟩

/-- While preemption is enabled no waiter outranks the speaker. -/
def Dominant (c : FloorController) : Prop :=
  ∀ s sp start last, c.state = .taken s sp start last → ∀ e ∈ c.queue, e.priority ≤ sp

theorem endBurst_dominant {c : FloorController} (sorted : c.queue.Pairwise QueueEntry.Before)
    (u : UserId) (action : FloorAction) (grantMs : Nat) :
    Dominant (endBurst c u action grantMs).1 := by
  rcases endBurst_cases c u action grantMs with ⟨_, run⟩ | ⟨next, rest, queue, run⟩
  · rw [run]
    intro s sp start last state
    cases state
  · rw [run]
    intro s sp start last state e listed
    cases state
    rw [queue] at sorted
    rcases (List.pairwise_cons.mp sorted).1 e listed with lower | ⟨same, -⟩
    · exact UInt8.le_of_lt lower
    · exact UInt8.le_of_eq same.symm

theorem transition_dominant {c next : FloorController} {op : FloorOp} {acts : List FloorAction}
    (enabled : c.config.preemptionEnabled = true) (ordered : Ordered c) (dominant : Dominant c)
    (move : Transition c op next acts) : Dominant next := by
  cases move with
  | grantIdle idle =>
    intro s sp start last state e listed
    cases state
    simp [take, ordered.idleEmpty idle] at listed
  | grantAgain => exact dominant
  | preempt held _ _ higher =>
    intro s sp start last state e listed
    cases state
    exact UInt8.le_of_lt (UInt8.lt_of_le_of_lt (dominant _ _ _ _ held e listed) higher)
  | stillQueued => exact dominant
  | enqueue held _ yields =>
    intro s sp start last state e listed
    have speaker := held.symm.trans state
    cases speaker
    simp only [FloorControl.enqueue, List.mem_insertionSort, List.mem_append,
      List.mem_singleton] at listed
    rcases listed with old | rfl
    · exact dominant _ _ _ _ held e old
    · exact UInt8.not_lt.mp fun higher => yields ⟨enabled, higher⟩
  | deny => exact dominant
  | releaseHeld => exact endBurst_dominant ordered.sorted _ _ _
  | releaseOther =>
    exact fun s sp start last state e listed =>
      dominant s sp start last state e (List.mem_of_mem_filter listed)
  | releaseIdle => exact dominant
  | pingHeld held =>
    intro s sp start last state e listed
    cases state
    exact dominant _ _ _ _ held e listed
  | pingOther => exact dominant
  | cancel =>
    exact fun s sp start last state e listed =>
      dominant s sp start last state e (List.mem_of_mem_filter listed)
  | expire => exact endBurst_dominant ordered.sorted _ _ _
  | timersQuiet => exact dominant
  | leaveHeld => exact endBurst_dominant (ordered.sorted.filter _) _ _ _
  | leaveOther =>
    exact fun s sp start last state e listed =>
      dominant s sp start last state e (List.mem_of_mem_filter listed)

theorem speaker_outranks_waiters (config : FloorConfig)
    (enabled : config.preemptionEnabled = true) (ops : List FloorOp) :
    Dominant (run step (withConfig config) ops) := by
  have kept : ∀ c op, (c.config.preemptionEnabled = true ∧ Ordered c ∧ Dominant c) → True →
      (step c op).config.preemptionEnabled = true ∧ Ordered (step c op) ∧ Dominant (step c op) := by
    intro c op ⟨enabled, ordered, dominant⟩ _
    have move := applyOp_transition c op
    have config : (step c op).config = c.config := transition_config move
    exact ⟨by rw [config, enabled], step_ordered c op ordered,
      transition_dominant enabled ordered dominant move⟩
  have fresh : Dominant (withConfig config) := by
    intro s sp start last state
    cases state
  exact (guarded_invariant kept ⟨enabled, withConfig_ordered config, fresh⟩ ops
    (guarded_of_forall (fun _ _ => trivial) _ ops)).2.2

theorem speaker_outranks_two_waiters :
    Dominant (run step (withConfig .default)
      [.request "A" 5 0, .request "B" 3 1, .request "C" 4 2, .release "A" 3]) :=
  speaker_outranks_waiters .default rfl _

end QueueDiscipline
