import OxlensSfu.HandshakeTasks

/-
The way of a DTLS datagram from the socket to the handshake task. A worker is done with the
datagrams of its addresses in the order in which they came, except for the one it waits
with; a task reads what was handed to it in that order, and each datagram once.
-/
namespace DatagramOrder
open WireBytes KeyedMap Participants RoomHubs RoomHub Servers GuardedRun StepRefinement
open Seating TransportStory SendCounts DtlsTransport HandshakeTasks

/-- A worker takes a DTLS datagram, and later is done with it: it hands it to a task, or
    drops it, since nobody has its address. -/
inductive Note where
  | taken (remote : SocketAddr) (data : Bytes)
  | done (remote : SocketAddr) (data : Bytes) (task : Option TaskId)

def doneWith (s : Transport) (w : WorkerId) (data : Bytes) (remote : SocketAddr) : List Note :=
  match injection s w remote with
  | .handed t => [.done remote data (some t)]
  | .full => []
  | .refused => [.done remote data ((s.hub.findByAddr remote).map fun _ => s.nextTask)]

def datagramNotes (s : Transport) (w : WorkerId) (remote : SocketAddr) (buf : Bytes) : List Note :=
  if (s.workers w).waiting.isSome then []
  else
    match DtlsTransport.classify buf with
    | .dtls => .taken remote buf :: doneWith s w buf remote
    | _ => []

def notes (shard : SocketAddr → WorkerId) (s : Transport) : DtlsTransport.Event → List Note
  | .datagram remote buf _ => datagramNotes s (shard remote) remote buf
  | .resume w =>
    match (s.workers w).waiting with
    | some (remote, data) =>
      doneWith (onWorker s w fun worker => { worker with waiting := none }) w data remote
    | none => []
  | .local_ _ | .recv .. | .established .. | .ended _ | .egress .. => []

def takenBy (shard : SocketAddr → WorkerId) (w : WorkerId) (log : List Note) :
    List (SocketAddr × Bytes) :=
  log.filterMap fun
    | .taken remote data => if shard remote = w then some (remote, data) else none
    | .done .. => none

def doneBy (shard : SocketAddr → WorkerId) (w : WorkerId) (log : List Note) :
    List (SocketAddr × Bytes) :=
  log.filterMap fun
    | .done remote data _ => if shard remote = w then some (remote, data) else none
    | .taken .. => none

/-- What was handed to a task. -/
def handedTo (t : TaskId) (log : List Note) : List (SocketAddr × Bytes) :=
  log.filterMap fun
    | .done remote data (some t') => if t' = t then some (remote, data) else none
    | _ => none

/-- The worker is done with what it took, but for what it waits with. -/
def InOrder (shard : SocketAddr → WorkerId) (s : Transport) (log : List Note) : Prop :=
  ∀ w, doneBy shard w log ++ (s.workers w).waiting.toList = takenBy shard w log

/-- The task has read the first of what was handed to it, as far as its buffer was long enough,
    and the rest is in its channel. -/
structure Fed (task : Handshake) (handed : List (SocketAddr × Bytes)) : Prop where
  own : ∀ d ∈ handed, d.1 = task.remote
  split : ∃ read, handed.map Prod.snd = read ++ task.queue ∧
    List.Forall₂ (fun got sent => got <+: sent) task.read read
  bounded : task.queue.length ≤ dtlsChannelSize

structure Delivered (s : Transport) (log : List Note) : Prop where
  fed : ∀ t, t < s.nextTask → Fed (s.tasks t) (handedTo t log)
  unborn : ∀ t, s.nextTask ≤ t → handedTo t log = []

section Logs
variable (shard : SocketAddr → WorkerId) (log more : List Note)

theorem takenBy_append (w : WorkerId) :
    takenBy shard w (log ++ more) = takenBy shard w log ++ takenBy shard w more := List.filterMap_append

theorem doneBy_append (w : WorkerId) :
    doneBy shard w (log ++ more) = doneBy shard w log ++ doneBy shard w more := List.filterMap_append

theorem handedTo_append (t : TaskId) :
    handedTo t (log ++ more) = handedTo t log ++ handedTo t more := List.filterMap_append

end Logs

section Order
variable {shard : SocketAddr → WorkerId} {s next : Transport} {log : List Note}

/-- Without a DTLS datagram nothing is noted and nobody begins or ends to wait. -/
theorem InOrder.quiet (order : InOrder shard s log)
    (same : ∀ w, (next.workers w).waiting = (s.workers w).waiting) : InOrder shard next log := by
  intro w
  rw [same w]
  exact order w

/-- What becomes of a DTLS datagram. -/
inductive Handling (s : Transport) (w : WorkerId) (data : Bytes) (remote : SocketAddr)
    (next : Transport) (noted : List Note) : Prop
  | handed (t : TaskId) (held : (s.workers w).dtlsMap.lookup remote = some t)
      (room : (s.tasks t).queue.length < dtlsChannelSize)
      (shape : next = countPacket (enqueue s t data) w) (note : noted = [.done remote data (some t)])
  | full (shape : next = onWorker s w fun worker => { worker with waiting := some (remote, data) })
      (note : noted = [])
  | dropped (shape : next = countPacket s w) (note : noted = [.done remote data none])
  | started (p : Ptr) (pc : PcType)
      (shape : next =
        countPacket (enqueue (startDtlsHandshake s w remote p pc) s.nextTask data) w)
      (note : noted = [.done remote data (some s.nextTask)])

theorem handleDtls_handling (s : Transport) (w : WorkerId) (data : Bytes) (remote : SocketAddr) :
    Handling s w data remote (handleDtls s w data remote) (doneWith s w data remote) := by
  unfold handleDtls doneWith
  cases injected : injection s w remote with
  | handed t =>
    unfold injection at injected
    split at injected
    · simp at injected
    rename_i t' held
    split at injected
    · simp at injected
    split at injected
    · rename_i room
      simp only [Injection.handed.injEq] at injected
      subst injected
      exact .handed t' held room rfl rfl
    · simp at injected
  | full => exact .full rfl rfl
  | refused =>
    cases s.hub.findByAddr remote with
    | none => exact .dropped rfl rfl
    | some owner =>
      obtain ⟨p, pc, r⟩ := owner
      exact .started p pc rfl rfl

theorem enqueue_waiting (s : Transport) (t : TaskId) (data : Bytes) (w : WorkerId) :
    ((enqueue s t data).workers w).waiting = (s.workers w).waiting := rfl

theorem done_one (w : WorkerId) (remote : SocketAddr) (data : Bytes) (task : Option TaskId) :
    doneBy shard w [.done remote data task] =
      if shard remote = w then [(remote, data)] else [] := by
  simp only [doneBy, List.filterMap_cons, List.filterMap_nil]
  split <;> split <;> simp_all

/-- A worker that is free is done with the datagram, or waits with it. -/
theorem handling_waiting {w : WorkerId} {data : Bytes} {remote : SocketAddr} {noted : List Note}
    (handling : Handling s w data remote next noted) (free : (s.workers w).waiting = none)
    (route : shard remote = w) (w' : WorkerId) :
    doneBy shard w' noted ++ (next.workers w').waiting.toList =
      if w' = w then [(remote, data)] else (s.workers w').waiting.toList := by
  have finished : ∀ task, doneBy shard w' [.done remote data task] ++ (s.workers w').waiting.toList =
      if w' = w then [(remote, data)] else (s.workers w').waiting.toList := by
    intro task
    rw [done_one, route]
    by_cases here : w' = w
    · subst here
      simp [free]
    · simp [here, Ne.symm here]
  cases handling with
  | handed t _ _ shape note =>
    rw [shape, note, countPacket_waiting, enqueue_waiting]
    exact finished _
  | full shape note =>
    rw [shape, note]
    simp only [onWorker, doneBy, List.filterMap_nil, List.nil_append]
    by_cases here : w' = w
    · subst here
      rw [Function.update_self, if_pos rfl]
      rfl
    · rw [Function.update_of_ne here, if_neg here]
  | dropped shape note =>
    rw [shape, note, countPacket_waiting]
    exact finished _
  | started p pc shape note =>
    rw [shape, note, countPacket_waiting, enqueue_waiting, startDtlsHandshake_waiting]
    exact finished _

end Order

section Delivery
variable {s next : Transport} {log : List Note}

def content (task : Handshake) : SocketAddr × List Bytes × List Bytes := (task.remote, task.queue, task.read)

theorem Fed.congr {task other : Handshake} {handed : List (SocketAddr × Bytes)} (fed : Fed task handed)
    (same : content other = content task) : Fed other handed := by
  simp only [content, Prod.mk.injEq] at same
  obtain ⟨remote, queue, read⟩ := same
  exact ⟨by rw [remote]; exact fed.own, by rw [queue, read]; exact fed.split,
    by rw [queue]; exact fed.bounded⟩

/-- The tasks go on as they were, and a new one has got nothing yet. -/
structure Idle (s next : Transport) : Prop where
  grows : s.nextTask ≤ next.nextTask
  old : ∀ t, t < s.nextTask → content (next.tasks t) = content (s.tasks t)
  fresh : ∀ t, s.nextTask ≤ t → t < next.nextTask →
    (next.tasks t).queue = [] ∧ (next.tasks t).read = []

theorem Idle.of_tasks (tasks : next.tasks = s.tasks) (nextTask : next.nextTask = s.nextTask) :
    Idle s next where
  grows := Nat.le_of_eq nextTask.symm
  old t _ := by rw [tasks]
  fresh t beyond started := by
    rw [nextTask] at started
    exact absurd started (Nat.not_lt.mpr beyond)

theorem Delivered.idle (delivered : Delivered s log) (idle : Idle s next) : Delivered next log where
  fed t started := by
    by_cases old : t < s.nextTask
    · exact (delivered.fed t old).congr (idle.old t old)
    · have beyond := Nat.not_lt.mp old
      obtain ⟨queue, read⟩ := idle.fresh t beyond started
      rw [delivered.unborn t beyond]
      exact ⟨fun _ none_ => by simp at none_, ⟨[], by rw [queue]; rfl, by rw [read]; exact .nil⟩,
        by rw [queue]; exact Nat.zero_le _⟩
  unborn t beyond := delivered.unborn t (Nat.le_trans idle.grows beyond)

theorem handed_one (t t' : TaskId) (remote : SocketAddr) (data : Bytes) :
    handedTo t [.done remote data (some t')] = if t' = t then [(remote, data)] else [] := by
  simp only [handedTo, List.filterMap_cons, List.filterMap_nil]
  split <;> split <;> simp_all

/-- One more datagram in the channel. -/
theorem Fed.enqueue {task : Handshake} {handed : List (SocketAddr × Bytes)} (fed : Fed task handed)
    {data : Bytes} (room : task.queue.length < dtlsChannelSize) :
    Fed { task with queue := task.queue ++ [data] } (handed ++ [(task.remote, data)]) := by
  obtain ⟨read, handed_, got⟩ := fed.split
  refine ⟨fun d member => ?_, ⟨read, ?_, got⟩, ?_⟩
  · rcases List.mem_append.mp member with before | here
    · exact fed.own d before
    · rw [List.mem_singleton.mp here]
  · rw [List.map_append, handed_]
    simp
  · rw [List.length_append, List.length_singleton]
    exact room

theorem Fed.read {task : Handshake} {handed : List (SocketAddr × Bytes)} (fed : Fed task handed)
    {data : Bytes} {rest : List Bytes} (queue : task.queue = data :: rest) (bufLen : Nat) :
    Fed { task with queue := rest, read := task.read ++ [data.take bufLen] } handed := by
  obtain ⟨read, handed_, got⟩ := fed.split
  refine ⟨fed.own, ⟨read ++ [data], ?_, ?_⟩, ?_⟩
  · rw [handed_, queue]
    simp
  · exact List.rel_append got (.cons (List.take_prefix bufLen data) .nil)
  · have bounded := fed.bounded
    rw [queue, List.length_cons] at bounded
    exact Nat.le_of_succ_le bounded

theorem Delivered.handling (delivered : Delivered s log) {shard : SocketAddr → WorkerId}
    (mapped : Mapped shard s) {w : WorkerId} {data : Bytes} {remote : SocketAddr}
    {noted : List Note} (handling : Handling s w data remote next noted) :
    Delivered next (log ++ noted) := by
  cases handling with
  | handed t held room shape note =>
    obtain ⟨started, own, _⟩ := mapped.held w remote t held
    subst shape
    subst note
    have tasks : ∀ t', (countPacket (enqueue s t data) w).tasks t' =
        if t' = t then { s.tasks t with queue := (s.tasks t).queue ++ [data] } else s.tasks t' :=
      fun t' => by simp only [countPacket, onWorker, enqueue, onTask, Function.update_apply]
    refine ⟨fun t' started' => ?_, fun t' beyond => ?_⟩
    · rw [tasks, handedTo_append, handed_one]
      by_cases here : t' = t
      · subst here
        rw [if_pos rfl, if_pos rfl, ← own]
        exact (delivered.fed t' started).enqueue room
      · rw [if_neg here, if_neg (Ne.symm here), List.append_nil]
        exact delivered.fed t' started'
    · have other : t ≠ t' := Nat.ne_of_lt (Nat.lt_of_lt_of_le started beyond)
      rw [handedTo_append, handed_one, if_neg other, List.append_nil]
      exact delivered.unborn t' beyond
  | full shape note =>
    subst shape
    subst note
    rw [List.append_nil]
    exact delivered.idle (.of_tasks rfl rfl)
  | dropped shape note =>
    subst shape
    subst note
    have none_ : ∀ t, handedTo t [.done remote data none] = [] := fun _ => rfl
    have idle : Delivered (countPacket s w) log := delivered.idle (.of_tasks rfl rfl)
    refine ⟨fun t started => ?_, fun t beyond => ?_⟩
    · rw [handedTo_append, none_, List.append_nil]
      exact idle.fed t started
    · rw [handedTo_append, none_, List.append_nil]
      exact idle.unborn t beyond
  | started p pc shape note =>
    subst shape
    subst note
    have tasks : ∀ t', (countPacket (enqueue (startDtlsHandshake s w remote p pc) s.nextTask data)
        w).tasks t' = if t' = s.nextTask then ⟨remote, p, pc, .handshaking, [data], [], none⟩
          else s.tasks t' := by
      intro t'
      simp only [countPacket, onWorker, enqueue, onTask, startDtlsHandshake, Function.update_apply]
      by_cases here : t' = s.nextTask
      · simp [here]
      · simp [here]
    refine ⟨fun t' started' => ?_, fun t' beyond => ?_⟩
    · rw [tasks, handedTo_append, handed_one]
      by_cases here : t' = s.nextTask
      · subst here
        rw [if_pos rfl, if_pos rfl, delivered.unborn _ (Nat.le_refl _)]
        exact ⟨fun d member => by rw [List.mem_singleton.mp member],
          ⟨[], rfl, .nil⟩, by simp [dtlsChannelSize]⟩
      · rw [if_neg here, if_neg (Ne.symm here), List.append_nil]
        exact delivered.fed t' (Nat.lt_of_le_of_ne (Nat.lt_succ_iff.mp started') here)
    · have beyond : s.nextTask + 1 ≤ t' := beyond
      have other : s.nextTask ≠ t' := Nat.ne_of_lt beyond
      rw [handedTo_append, handed_one, if_neg other, List.append_nil]
      exact delivered.unborn t' (Nat.le_of_succ_le beyond)

end Delivery
section Steps
variable (hmacSha1 : Bytes → Bytes → Bytes) (crc32 : Bytes → UInt32) (s : Transport)

theorem Idle.refl : Idle s s := .of_tasks rfl rfl

theorem onTask_idle (t : TaskId) (f : Handshake → Handshake)
    (same : content (f (s.tasks t)) = content (s.tasks t)) : Idle s (onTask s t f) where
  grows := Nat.le_refl _
  old t' _ := by
    simp only [onTask]
    by_cases here : t' = t
    · subst here
      rw [Function.update_self]
      exact same
    · rw [Function.update_of_ne here]
  fresh t' beyond started := absurd started (Nat.not_lt.mpr beyond)

theorem handleSrtp_idle (buf : Bytes) (remote : SocketAddr) (o : Readings buf) :
    Idle s (DtlsTransport.handleSrtp hmacSha1 crc32 s buf remote o) := by
  unfold DtlsTransport.handleSrtp
  cases s.hub.findByAddr remote with
  | none => exact .refl s
  | some owner =>
    obtain ⟨sender, pc, r⟩ := owner
    cases o.plain with
    | none => exact .of_tasks rfl rfl
    | some plain =>
      cases pc with
      | subscribe => exact .of_tasks rfl rfl
      | publish =>
        simp only
        split
        · exact .of_tasks rfl rfl
        split <;> exact .of_tasks rfl rfl

theorem startDtlsHandshake_idle (w : WorkerId) (remote : SocketAddr) (p : Ptr) (pc : PcType) :
    Idle s (startDtlsHandshake s w remote p pc) where
  grows := Nat.le_succ _
  old t started := by rw [started_task, if_neg (Nat.ne_of_lt started)]
  fresh t beyond started := by
    have here : t = s.nextTask := Nat.le_antisymm (Nat.lt_succ_iff.mp started) beyond
    rw [started_task, if_pos here]
    exact ⟨rfl, rfl⟩

theorem handleStun_idle (w : WorkerId) (buf : Bytes) (remote : SocketAddr) (nowMs : Nat) :
    Idle s (DtlsTransport.handleStun hmacSha1 crc32 s w buf remote nowMs) := by
  unfold DtlsTransport.handleStun
  simp only
  split
  · -- The answer before touches no task, so the fields are those of the start.
    have idle := startDtlsHandshake_idle
      { withCounted s (SendCounts.step hmacSha1 crc32 s.counted (.server (.stun remote buf nowMs
        (decide (remote ∈ (s.workers w).dtlsMap))) 0)) with
        responses := s.responses ++ ((StunLatch.handleStun hmacSha1 crc32 s.hub buf remote nowMs
          (decide (remote ∈ (s.workers w).dtlsMap))).2.map fun r => (r.remote, r.response)).toList }
      w remote
    exact ⟨(idle _ _).grows, (idle _ _).old, (idle _ _).fresh⟩
  · exact .of_tasks rfl rfl

theorem installSrtpKeys_tasks (p : Ptr) (pc : PcType) (keys : SrtpKeyMaterial) :
    (installSrtpKeys hmacSha1 crc32 s p pc keys).tasks = s.tasks ∧
      (installSrtpKeys hmacSha1 crc32 s p pc keys).nextTask = s.nextTask := by
  unfold installSrtpKeys
  simp only
  split <;> exact ⟨rfl, rfl⟩

theorem subscribeReady_tasks (p : Ptr) : (subscribeReady s p).tasks = s.tasks ∧
    (subscribeReady s p).nextTask = s.nextTask := by
  unfold subscribeReady spawnEgressTask
  simp only
  split <;> exact ⟨rfl, rfl⟩

theorem Idle.same {next last : Transport} (idle : Idle s next) (tasks : last.tasks = next.tasks)
    (nextTask : last.nextTask = next.nextTask) : Idle s last where
  grows := by rw [nextTask]; exact idle.grows
  old t started := by rw [tasks]; exact idle.old t started
  fresh t beyond started := by
    rw [tasks]
    rw [nextTask] at started
    exact idle.fresh t beyond started

theorem established_idle (t : TaskId) (material : Option Material) :
    Idle s (established hmacSha1 crc32 s t material) := by
  unfold established
  split
  · have done : Idle s (connected s t (material.map exportSrtpKeys)) := onTask_idle s t _ rfl
    cases material with
    | none => exact done
    | some m =>
      obtain ⟨tasks, nextTask⟩ := installSrtpKeys_tasks hmacSha1 crc32
        (connected s t (some (exportSrtpKeys m))) (s.tasks t).participant (s.tasks t).pc
        (exportSrtpKeys m)
      have installed := done.same s tasks nextTask
      simp only [Option.map_some]
      split
      · obtain ⟨spawned, number⟩ := subscribeReady_tasks (installSrtpKeys hmacSha1 crc32
          (connected s t (some (exportSrtpKeys m))) (s.tasks t).participant (s.tasks t).pc
          (exportSrtpKeys m)) (s.tasks t).participant
        exact installed.same s spawned number
      · exact installed
  · exact .refl s

theorem recv_delivered {log : List Note} (t : TaskId) (bufLen : Nat) (delivered : Delivered s log) :
    Delivered (recv s t bufLen) log := by
  unfold recv
  split
  · exact delivered
  · cases queue : (s.tasks t).queue with
    | nil => exact delivered
    | cons data rest =>
      refine ⟨fun t' started => ?_, delivered.unborn⟩
      simp only [onTask]
      by_cases here : t' = t
      · subst here
        rw [Function.update_self]
        exact (delivered.fed t' started).read queue bufLen
      · rw [Function.update_of_ne here]
        exact delivered.fed t' started

variable (shard : SocketAddr → WorkerId)

/-- A datagram that is no DTLS, or finds its worker waiting, is not noted. -/
theorem receive_quiet (remote : SocketAddr) (buf : Bytes) (o : Readings buf)
    (other : (s.workers (shard remote)).waiting.isSome = true ∨ DtlsTransport.classify buf ≠ .dtls) :
    Idle s (receive hmacSha1 crc32 shard s remote buf o) ∧
      (∀ w, ((receive hmacSha1 crc32 shard s remote buf o).workers w).waiting =
        (s.workers w).waiting) ∧
      datagramNotes s (shard remote) remote buf = [] := by
  unfold receive datagramNotes
  by_cases waits : (s.workers (shard remote)).waiting.isSome = true
  · rw [if_pos waits, if_pos waits]
    exact ⟨.refl s, fun _ => rfl, rfl⟩
  · simp only [if_neg waits]
    have kind := other.resolve_left waits
    cases kind_ : DtlsTransport.classify buf with
    | stun =>
      exact ⟨(handleStun_idle hmacSha1 crc32 s _ buf remote o.nowMs).same s rfl rfl,
        fun w => (countPacket_waiting _ _ w).trans
          (handleStun_waiting hmacSha1 crc32 s _ w buf remote o.nowMs), rfl⟩
    | dtls => exact absurd kind_ kind
    | srtp =>
      refine ⟨(handleSrtp_idle hmacSha1 crc32 s buf remote o).same s rfl rfl, fun w => ?_, rfl⟩
      rw [countPacket_waiting, handleSrtp_workers]
    | unknown => exact ⟨.of_tasks rfl rfl, fun w => countPacket_waiting _ _ w, rfl⟩

/-- The order of the datagrams and what became of them, after every step. -/
structure Kept (s : Transport) (log : List Note) : Prop where
  tended : Tended shard s
  order : InOrder shard s log
  delivered : Delivered s log

theorem taken_one (w : WorkerId) (remote : SocketAddr) (data : Bytes) (more : List Note) :
    takenBy shard w (.taken remote data :: more) =
      (if shard remote = w then [(remote, data)] else []) ++ takenBy shard w more := by
  simp only [takenBy, List.filterMap_cons]
  by_cases here : shard remote = w
  · simp [here]
  · simp [here]

theorem taken_done (w w' : WorkerId) (data : Bytes) (remote : SocketAddr) :
    takenBy shard w (doneWith s w' data remote) = [] := by
  unfold doneWith
  cases injection s w' remote <;> rfl

theorem done_taken (w : WorkerId) (remote : SocketAddr) (data : Bytes) (more : List Note) :
    doneBy shard w (.taken remote data :: more) = doneBy shard w more := rfl

theorem handed_taken (t : TaskId) (remote : SocketAddr) (data : Bytes) (log : List Note) :
    handedTo t (.taken remote data :: log) = handedTo t log := rfl

theorem dtls_order {log : List Note} (order : InOrder shard s log) (remote : SocketAddr)
    (data : Bytes) (free : (s.workers (shard remote)).waiting = none) :
    InOrder shard (handleDtls s (shard remote) data remote)
      (log ++ .taken remote data :: doneWith s (shard remote) data remote) := by
  intro w
  have here := handling_waiting (handleDtls_handling s (shard remote) data remote) free rfl w
  rw [takenBy_append, taken_one, taken_done, doneBy_append, done_taken, List.append_nil,
    List.append_assoc, here, ← order w]
  by_cases own : w = shard remote
  · subst own
    simp [free]
  · simp [own, Ne.symm own]

theorem resumed_order {log : List Note} (order : InOrder shard s log) (waits : Waits shard s)
    (w : WorkerId) {remote : SocketAddr} {data : Bytes}
    (waiting : (s.workers w).waiting = some (remote, data)) :
    InOrder shard
      (handleDtls (onWorker s w fun worker => { worker with waiting := none }) w data remote)
      (log ++ doneWith (onWorker s w fun worker => { worker with waiting := none }) w data remote) := by
  intro w'
  have free : ((onWorker s w fun worker => { worker with waiting := none }).workers w).waiting =
      none := by
    simp only [onWorker, Function.update_self]
  have here := handling_waiting (handleDtls_handling _ w data remote) free
    (waits w remote data waiting) w'
  rw [takenBy_append, taken_done, doneBy_append, List.append_assoc, here, List.append_nil,
    ← order w']
  by_cases own : w' = w
  · subst own
    rw [if_pos rfl, waiting]
    rfl
  · rw [if_neg own]
    simp only [onWorker, Function.update_of_ne own]

theorem step_kept (e : DtlsTransport.Event) (log : List Note) (kept : Kept shard s log) :
    Kept shard (DtlsTransport.step hmacSha1 crc32 shard s e) (log ++ notes shard s e) := by
  have tended := step_tended hmacSha1 crc32 shard s e kept.tended
  have quiet : ∀ {next : Transport}, Tended shard next → Idle s next →
      (∀ w, (next.workers w).waiting = (s.workers w).waiting) → Kept shard next log :=
    fun tended idle same => ⟨tended, kept.order.quiet same, kept.delivered.idle idle⟩
  have handled : ∀ {s : Transport} {w : WorkerId} {data : Bytes} {remote : SocketAddr}
      {log : List Note}, Mapped shard s → Delivered s log → Delivered (handleDtls s w data remote)
        (log ++ doneWith s w data remote) :=
    fun mapped delivered => delivered.handling mapped (handleDtls_handling _ _ _ _)
  cases e with
  | local_ e =>
    rw [notes, List.append_nil]
    exact quiet tended (.of_tasks rfl rfl) fun _ => rfl
  | datagram remote buf o =>
    rw [notes]
    by_cases other : (s.workers (shard remote)).waiting.isSome = true ∨
        DtlsTransport.classify buf ≠ .dtls
    · obtain ⟨idle, same, none_⟩ := receive_quiet hmacSha1 crc32 s shard remote buf o other
      rw [none_, List.append_nil]
      exact quiet tended idle same
    · rw [not_or, not_not, Bool.not_eq_true, Option.isSome_eq_false_iff,
        Option.isNone_iff_eq_none] at other
      obtain ⟨free, kind⟩ := other
      have noted : datagramNotes s (shard remote) remote buf =
          .taken remote buf :: doneWith s (shard remote) buf remote := by
        simp only [datagramNotes, free, kind, Option.isSome_none, Bool.false_eq_true, if_false]
      have shape : DtlsTransport.step hmacSha1 crc32 shard s (.datagram remote buf o) =
          handleDtls s (shard remote) buf remote := by
        simp only [DtlsTransport.step, receive, free, kind, Option.isSome_none, Bool.false_eq_true,
          if_false]
      rw [noted]
      rw [shape] at tended ⊢
      refine ⟨tended, dtls_order s shard kept.order remote buf free, ?_⟩
      have delivered := @handled s (shard remote) buf remote log kept.tended.mapped kept.delivered
      refine ⟨fun t started => ?_, fun t beyond => ?_⟩
      · rw [handedTo_append, handed_taken, ← handedTo_append]
        exact delivered.fed t started
      · rw [handedTo_append, handed_taken, ← handedTo_append]
        exact delivered.unborn t beyond
  | resume w =>
    simp only [DtlsTransport.step, resume, notes] at tended ⊢
    cases waiting : (s.workers w).waiting with
    | none =>
      simp only [List.append_nil]
      exact kept
    | some entry =>
      obtain ⟨remote, data⟩ := entry
      simp only [waiting] at tended ⊢
      have cleared : Idle s (onWorker s w fun worker => { worker with waiting := none }) :=
        .of_tasks rfl rfl
      refine ⟨tended, resumed_order s shard kept.order kept.tended.waits w waiting, ?_⟩
      exact handled (kept.tended.mapped.lasting (.onWorker w _ fun _ => .inl rfl))
        (kept.delivered.idle cleared)
  | recv t bufLen =>
    rw [notes, List.append_nil]
    refine ⟨tended, kept.order.quiet fun w => ?_, recv_delivered s t bufLen kept.delivered⟩
    simp only [DtlsTransport.step, recv]
    split
    · rfl
    · cases (s.tasks t).queue <;> rfl
  | established t material =>
    rw [notes, List.append_nil]
    exact quiet tended (established_idle hmacSha1 crc32 s t material) fun w => by
      rw [DtlsTransport.step, established_workers]
  | ended t =>
    rw [notes, List.append_nil]
    have ended : Idle s (endTask s t) := onTask_idle s t _ rfl
    exact quiet tended ended fun _ => rfl
  | egress p now =>
    rw [notes, List.append_nil]
    refine quiet tended ?_ fun w => ?_
    · simp only [DtlsTransport.step]
      split
      · exact .of_tasks rfl rfl
      · exact .refl s
    · simp only [DtlsTransport.step]
      split <;> rfl

theorem new_kept : Kept shard Transport.new [] where
  tended := new_tended shard
  order _ := rfl
  delivered := ⟨fun t started => absurd started (Nat.not_lt_zero t), fun _ _ => rfl⟩

/-- The notes of a run. -/
def journal (es : List DtlsTransport.Event) : List Note :=
  story (DtlsTransport.step hmacSha1 crc32 shard) (notes shard) Transport.new es

theorem run_kept (es : List DtlsTransport.Event) :
    Kept shard (run (DtlsTransport.step hmacSha1 crc32 shard) Transport.new es)
      (journal hmacSha1 crc32 shard es) :=
  story_invariant (fun s e log => step_kept hmacSha1 crc32 s shard e log) (new_kept shard) es

/-- No DTLS datagram is lost, doubled or overtaken on the way to its task: a worker is done with
    what it took in the order in which it took it, but for the one it waits with, and a task has
    read the first of what was handed to it, from its own address only, the rest being in its
    channel. -/
theorem datagrams_in_order (es : List DtlsTransport.Event) :
    let s := run (DtlsTransport.step hmacSha1 crc32 shard) Transport.new es
    let log := journal hmacSha1 crc32 shard es
    (∀ w, doneBy shard w log ++ (s.workers w).waiting.toList = takenBy shard w log) ∧
      ∀ t, t < s.nextTask → Fed (s.tasks t) (handedTo t log) := by
  have kept := run_kept hmacSha1 crc32 shard es
  exact ⟨kept.order, kept.delivered.fed⟩

end Steps
end DatagramOrder
