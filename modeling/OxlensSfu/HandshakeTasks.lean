import OxlensSfu.SessionSteps

/-
The handshake tasks. A worker starts one for an address that is latched, and keeps it in
its map for as long as it runs: no other task is started for that address meanwhile, and
the sweep takes out only what is over.
-/
namespace HandshakeTasks
open WireBytes KeyedMap Participants RoomHubs RoomHub Servers GuardedRun StepRefinement
open Membership AddressIndex Seating TransportStory SendCounts DtlsTransport

/-- What a task was started for. -/
def aim (task : Handshake) : SocketAddr × Ptr × PcType := (task.remote, task.participant, task.pc)

/-- No task is started. -/
structure Lasting (s next : Transport) : Prop where
  nextTask : next.nextTask = s.nextTask
  aims : ∀ t, aim (next.tasks t) = aim (s.tasks t)
  finished : ∀ t, (s.tasks t).phase = .ended → (next.tasks t).phase = .ended
  settled : ∀ t, (s.tasks t).phase ≠ .handshaking →
    (next.tasks t).phase ≠ .handshaking ∧ (next.tasks t).keys = (s.tasks t).keys
  unkeyed : ∀ t, (next.tasks t).phase = .handshaking → (next.tasks t).keys = (s.tasks t).keys
  maps : ∀ w a, (next.workers w).dtlsMap.lookup a = (s.workers w).dtlsMap.lookup a ∨
    ((next.workers w).dtlsMap.lookup a = none ∧
      ∃ t, (s.workers w).dtlsMap.lookup a = some t ∧ (next.tasks t).phase = .ended)

/-- A task is started for the session that the address is latched to. -/
structure Starts (w : WorkerId) (remote : SocketAddr) (s next : Transport) : Prop where
  free : ∀ t, (s.workers w).dtlsMap.lookup remote = some t → (s.tasks t).phase = .ended
  owned : ∃ p pc r, s.hub.findByAddr remote = some (p, pc, r) ∧
    next = startDtlsHandshake s w remote p pc

namespace Lasting
variable {s next last : Transport}

theorem refl (s : Transport) : Lasting s s where
  nextTask := rfl
  aims _ := rfl
  finished _ ended := ended
  settled _ past := ⟨past, rfl⟩
  unkeyed _ _ := rfl
  maps _ _ := .inl rfl

theorem trans (left : Lasting s next) (right : Lasting next last) : Lasting s last where
  nextTask := right.nextTask.trans left.nextTask
  aims t := (right.aims t).trans (left.aims t)
  finished t ended := right.finished t (left.finished t ended)
  settled t past := by
    obtain ⟨still, keys⟩ := left.settled t past
    obtain ⟨after, same⟩ := right.settled t still
    exact ⟨after, same.trans keys⟩
  unkeyed t handshaking := by
    have before : (next.tasks t).phase = .handshaking := by
      by_contra past
      exact (right.settled t past).1 handshaking
    exact (right.unkeyed t handshaking).trans (left.unkeyed t before)
  maps w a := by
    rcases left.maps w a with same | ⟨gone, t, held, ended⟩
    · rcases right.maps w a with same' | ⟨gone, t, held, ended⟩
      · exact .inl (same'.trans same)
      · exact .inr ⟨gone, t, same.symm.trans held, ended⟩
    · rcases right.maps w a with same' | ⟨_, t', held', _⟩
      · exact .inr ⟨same'.trans gone, t, held, right.finished t ended⟩
      · rw [gone] at held'
        simp at held'

/-- What changes neither the tasks nor the workers. -/
theorem of_rest (tasks : next.tasks = s.tasks) (workers : next.workers = s.workers)
    (nextTask : next.nextTask = s.nextTask) : Lasting s next where
  nextTask := nextTask
  aims _ := by rw [tasks]
  finished _ ended := by rw [tasks]; exact ended
  settled _ past := by rw [tasks]; exact ⟨past, rfl⟩
  unkeyed _ _ := by rw [tasks]
  maps _ _ := .inl (by rw [workers])

/-- A task that goes on, or comes to its end. -/
theorem onTask (t : TaskId) (f : Handshake → Handshake) (same : aim (f (s.tasks t)) = aim (s.tasks t))
    (finished : (s.tasks t).phase = .ended → (f (s.tasks t)).phase = .ended)
    (settled : (s.tasks t).phase ≠ .handshaking →
      (f (s.tasks t)).phase ≠ .handshaking ∧ (f (s.tasks t)).keys = (s.tasks t).keys)
    (unkeyed : (f (s.tasks t)).phase = .handshaking → (f (s.tasks t)).keys = (s.tasks t).keys) :
    Lasting s (DtlsTransport.onTask s t f) where
  nextTask := rfl
  aims t' := by
    simp only [DtlsTransport.onTask]
    by_cases here : t' = t
    · subst here
      rw [Function.update_self, same]
    · rw [Function.update_of_ne here]
  finished t' ended := by
    simp only [DtlsTransport.onTask]
    by_cases here : t' = t
    · subst here
      rw [Function.update_self]
      exact finished ended
    · rw [Function.update_of_ne here]
      exact ended
  settled t' past := by
    simp only [DtlsTransport.onTask]
    by_cases here : t' = t
    · subst here
      rw [Function.update_self]
      exact settled past
    · rw [Function.update_of_ne here]
      exact ⟨past, rfl⟩
  unkeyed t' handshaking := by
    simp only [DtlsTransport.onTask] at handshaking ⊢
    by_cases here : t' = t
    · subst here
      rw [Function.update_self] at handshaking ⊢
      exact unkeyed handshaking
    · rw [Function.update_of_ne here]
  maps _ _ := .inl rfl

theorem onWorker (w : WorkerId) (f : Worker → Worker)
    (maps : ∀ a, (f (s.workers w)).dtlsMap.lookup a = (s.workers w).dtlsMap.lookup a ∨
      ((f (s.workers w)).dtlsMap.lookup a = none ∧
        ∃ t, (s.workers w).dtlsMap.lookup a = some t ∧ (s.tasks t).phase = .ended)) :
    Lasting s (DtlsTransport.onWorker s w f) where
  nextTask := rfl
  aims _ := rfl
  finished _ ended := ended
  settled _ past := ⟨past, rfl⟩
  unkeyed _ _ := rfl
  maps w' a := by
    simp only [DtlsTransport.onWorker]
    by_cases here : w' = w
    · subst here
      rw [Function.update_self]
      exact maps a
    · rw [Function.update_of_ne here]
      exact .inl rfl

end Lasting

section Operations
variable (s : Transport)

theorem countPacket_lasting (w : WorkerId) : Lasting s (countPacket s w) := by
  unfold countPacket
  refine .onWorker w _ fun a => ?_
  simp only
  split
  · rw [removeStale, lookup_retain]
    cases held : (s.workers w).dtlsMap.lookup a with
    | none => exact .inl rfl
    | some t =>
      by_cases finished : (s.tasks t).phase = .ended
      · exact .inr ⟨by simp [finished], t, rfl, finished⟩
      · exact .inl (by simp [finished])
  · exact .inl rfl

theorem enqueue_lasting (t : TaskId) (data : Bytes) : Lasting s (enqueue s t data) :=
  .onTask t _ rfl id (fun past => ⟨past, rfl⟩) fun _ => rfl

theorem recv_lasting (t : TaskId) (bufLen : Nat) : Lasting s (recv s t bufLen) := by
  unfold recv
  split
  · exact .refl s
  · cases (s.tasks t).queue with
    | nil => exact .refl s
    | cons data rest => exact .onTask t _ rfl id (fun past => ⟨past, rfl⟩) fun _ => rfl

theorem endTask_lasting (t : TaskId) : Lasting s (endTask s t) :=
  .onTask t _ rfl (fun _ => rfl) (fun _ => ⟨by simp, rfl⟩) fun _ => rfl

/-- What a worker does with a DTLS datagram: at most it starts a task for it. -/
inductive TaskStep (w : WorkerId) (remote : SocketAddr) (next : Transport) : Prop
  | lasting (lasts : Lasting s next)
  | starts (before started : Transport) (first : Lasting s before)
      (starts : Starts w remote before started) (last : Lasting started next)
      (hub : next.hub = started.hub)

theorem TaskStep.after {s mid next : Transport} {w : WorkerId} {remote : SocketAddr}
    (first : Lasting s mid) (worked : TaskStep mid w remote next) : TaskStep s w remote next := by
  cases worked with
  | lasting lasts => exact .lasting (first.trans lasts)
  | starts before started lasts starts last hub =>
    exact .starts before started (first.trans lasts) starts last hub

theorem TaskStep.before {s mid next : Transport} {w : WorkerId} {remote : SocketAddr}
    (worked : TaskStep s w remote mid) (last : Lasting mid next) (hub : next.hub = mid.hub) :
    TaskStep s w remote next := by
  cases worked with
  | lasting lasts => exact .lasting (lasts.trans last)
  | starts before started lasts starts rest same =>
    exact .starts before started lasts starts (rest.trans last) (hub.trans same)

theorem handleDtls_tasks (w : WorkerId) (data : Bytes) (remote : SocketAddr) :
    TaskStep s w remote (handleDtls s w data remote) := by
  unfold handleDtls
  cases injected : injection s w remote with
  | handed t => exact .lasting ((enqueue_lasting s t data).trans (countPacket_lasting _ w))
  | full => exact .lasting (.onWorker w _ fun _ => .inl rfl)
  | refused =>
    simp only
    cases found : s.hub.findByAddr remote with
    | none => exact .lasting (countPacket_lasting s w)
    | some owner =>
      obtain ⟨p, pc, r⟩ := owner
      have free : ∀ t, (s.workers w).dtlsMap.lookup remote = some t → (s.tasks t).phase = .ended := by
        intro t held
        simp only [injection, held] at injected
        split at injected
        · assumption
        · split at injected <;> simp at injected
      exact .starts s _ (.refl s) ⟨free, p, pc, r, found, rfl⟩
        ((enqueue_lasting _ _ data).trans (countPacket_lasting _ w)) rfl

theorem resume_tasks (w : WorkerId) :
    Lasting s (resume s w) ∨ ∃ remote data, (s.workers w).waiting = some (remote, data) ∧
      TaskStep s w remote (resume s w) := by
  unfold resume
  cases (s.workers w).waiting with
  | none => exact .inl (.refl s)
  | some entry =>
    obtain ⟨remote, data⟩ := entry
    exact .inr ⟨remote, data, rfl, .after (.onWorker w _ fun _ => .inl rfl)
      (handleDtls_tasks _ w data remote)⟩

end Operations

section Stun
variable {hmacSha1 : Bytes → Bytes → Bytes} {crc32 : Bytes → UInt32} {hub : RoomHub} {buf : Bytes}
  {remote : SocketAddr} {nowMs : Nat} {has : Bool} {p : Ptr} {pc : PcType}

/-- A handshake is asked for the session that the request names, unless there is one. -/
theorem startDtls_named
    (asked : (StunLatch.handleStun hmacSha1 crc32 hub buf remote nowMs has).2.bind (·.startDtls) =
      some (p, pc)) :
    has = false ∧ ∃ msg r, StunLatch.namedSession hub buf = some (msg, p, pc, r) := by
  unfold StunLatch.handleStun at asked
  unfold StunLatch.namedSession
  cases parsed : StunMessages.parse buf with
  | none => simp [parsed] at asked
  | some msg =>
    simp only [parsed] at asked ⊢
    by_cases kind : msg.msgType ≠ StunMessages.bindingRequest
    · simp [kind] at asked
    rw [if_neg kind] at asked ⊢
    cases username : msg.username with
    | none => simp [username] at asked
    | some username' =>
      simp only [username, latchByUfrag] at asked ⊢
      cases found : hub.findByUfrag (StunMessages.serverUfrag username') with
      | none => simp [found] at asked
      | some session =>
        obtain ⟨q, qc, r⟩ := session
        simp only [found] at asked
        split at asked
        · simp at asked
        · simp only [Option.bind_some] at asked
          split at asked
          · rename_i candidate
            simp only [Option.some.injEq, Prod.mk.injEq] at asked
            obtain ⟨rfl, rfl⟩ := asked
            refine ⟨?_, msg, r, rfl⟩
            cases has with
            | false => rfl
            | true => simp at candidate
          · simp at asked

/-- The session that a request names is found under the source of the request. -/
theorem latched_found (seated : Seated hub) {msg : StunMessages.StunMessage} {r : RoomId}
    (named : StunLatch.namedSession hub buf = some (msg, p, pc, r)) :
    (StunLatch.handleStun hmacSha1 crc32 hub buf remote nowMs has).1.findByAddr remote =
      some (p, pc, r) := by
  obtain ⟨f, found⟩ := StunLatch.namedSession_ufrag named
  obtain ⟨u, room, held, _⟩ := findByUfrag_member seated.sound found
  rw [StunLatch.handleStun_hub, named]
  have latched : (hub.latchSession p pc r remote).findByAddr remote = some (p, pc, r) := by
    rw [findByAddr_iff, latched_hubIndex, if_pos rfl, latched_room, if_pos rfl, held]
    exact ⟨rfl, _, rfl, by rw [latchIndex_byAddr, if_pos rfl]⟩
  exact latched

end Stun

section Steps
variable (hmacSha1 : Bytes → Bytes → Bytes) (crc32 : Bytes → UInt32) (s : Transport)

theorem handleStun_tasks (seated : Seated s.hub) (w : WorkerId) (buf : Bytes) (remote : SocketAddr)
    (nowMs : Nat) : TaskStep s w remote (DtlsTransport.handleStun hmacSha1 crc32 s w buf remote nowMs) := by
  unfold DtlsTransport.handleStun
  simp only
  split
  · rename_i p pc asked
    obtain ⟨absent, msg, r, named⟩ := startDtls_named asked
    have found := @latched_found hmacSha1 crc32 s.hub buf remote nowMs
      (decide (remote ∈ (s.workers w).dtlsMap)) p pc seated msg r named
    refine .starts _ _ ?_ ⟨fun t held => ?_, p, pc, r, ?_, rfl⟩ (.refl _) rfl
    · exact .of_rest rfl rfl rfl
    · have here : (s.workers w).dtlsMap.lookup remote = some t := held
      rw [decide_eq_false_iff_not] at absent
      exact absurd (AList.lookup_isSome.mp (by rw [here]; rfl)) absent
    · exact found
  · exact .lasting (.of_rest rfl rfl rfl)

theorem handleSrtp_lasting (buf : Bytes) (remote : SocketAddr) (o : Readings buf) :
    Lasting s (DtlsTransport.handleSrtp hmacSha1 crc32 s buf remote o) := by
  unfold DtlsTransport.handleSrtp
  cases s.hub.findByAddr remote with
  | none => exact .refl s
  | some owner =>
    obtain ⟨sender, pc, r⟩ := owner
    cases o.plain with
    | none => exact .of_rest rfl rfl rfl
    | some plain =>
      cases pc with
      | subscribe => exact .of_rest rfl rfl rfl
      | publish =>
        simp only
        split
        · exact .of_rest rfl rfl rfl
        split
        · exact .of_rest rfl rfl rfl
        · exact .of_rest rfl rfl rfl

theorem subscribeReady_lasting (p : Ptr) : Lasting s (subscribeReady s p) := by
  unfold subscribeReady spawnEgressTask
  simp only
  split <;> exact .of_rest rfl rfl rfl

theorem installSrtpKeys_lasting (p : Ptr) (pc : PcType) (keys : SrtpKeyMaterial) :
    Lasting s (installSrtpKeys hmacSha1 crc32 s p pc keys) := by
  unfold installSrtpKeys
  simp only
  split <;> exact .of_rest rfl rfl rfl

theorem established_lasting (t : TaskId) (material : Option Material) :
    Lasting s (established hmacSha1 crc32 s t material) := by
  unfold established
  split
  · rename_i running
    obtain ⟨_, handshaking⟩ := running
    have goesOn : Lasting s (connected s t (material.map exportSrtpKeys)) :=
      .onTask t _ rfl (fun ended => by rw [handshaking] at ended; simp at ended)
        (fun past => absurd handshaking past) fun still => by simp at still
    cases material with
    | none => exact goesOn
    | some m =>
      have keyed := goesOn.trans (installSrtpKeys_lasting hmacSha1 crc32 _ (s.tasks t).participant
        (s.tasks t).pc (exportSrtpKeys m))
      simp only [Option.map_some]
      split
      · exact keyed.trans (subscribeReady_lasting _ _)
      · exact keyed
  · exact .refl s

/-- The worker that a datagram of the address is read by, or that waits with one. -/
def Routed (shard : SocketAddr → WorkerId) (s : Transport) (w : WorkerId) (remote : SocketAddr) :
    Prop :=
  shard remote = w ∨ ∃ data, (s.workers w).waiting = some (remote, data)

theorem step_tasks (shard : SocketAddr → WorkerId) (seated : Seated s.hub)
    (e : DtlsTransport.Event) :
    Lasting s (DtlsTransport.step hmacSha1 crc32 shard s e) ∨ ∃ w remote, Routed shard s w remote ∧
      TaskStep s w remote (DtlsTransport.step hmacSha1 crc32 shard s e) := by
  cases e with
  | local_ e => exact .inl (.of_rest rfl rfl rfl)
  | datagram remote buf o =>
    simp only [DtlsTransport.step, receive]
    split
    · exact .inl (.refl s)
    · cases DtlsTransport.classify buf with
      | stun =>
        exact .inr ⟨shard remote, remote, .inl rfl,
          (handleStun_tasks hmacSha1 crc32 s seated _ buf remote o.nowMs).before
            (countPacket_lasting _ _) rfl⟩
      | dtls => exact .inr ⟨shard remote, remote, .inl rfl, handleDtls_tasks s _ buf remote⟩
      | srtp =>
        exact .inl ((handleSrtp_lasting hmacSha1 crc32 s buf remote o).trans
          (countPacket_lasting _ _))
      | unknown => exact .inl (countPacket_lasting s _)
  | resume w =>
    rcases resume_tasks s w with lasts | ⟨remote, data, waits, worked⟩
    · exact .inl lasts
    · exact .inr ⟨w, remote, .inr ⟨data, waits⟩, worked⟩
  | recv t bufLen => exact .inl (recv_lasting s t bufLen)
  | established t material => exact .inl (established_lasting hmacSha1 crc32 s t material)
  | ended t => exact .inl (endTask_lasting s t)
  | egress p now =>
    simp only [DtlsTransport.step]
    split
    · exact .inl (.of_rest rfl rfl rfl)
    · exact .inl (.refl s)

end Steps

/-- A task that runs is in the map of the worker of its address, and what is in a map is the
    task that was started last for the address. -/
structure Mapped (shard : SocketAddr → WorkerId) (s : Transport) : Prop where
  live : ∀ t, t < s.nextTask → (s.tasks t).phase ≠ .ended →
    (s.workers (shard (s.tasks t).remote)).dtlsMap.lookup (s.tasks t).remote = some t
  held : ∀ w a t, (s.workers w).dtlsMap.lookup a = some t →
    t < s.nextTask ∧ (s.tasks t).remote = a ∧ shard a = w

section Maps
variable {shard : SocketAddr → WorkerId} {s next : Transport}

theorem aim_remote {a b : Handshake} (same : aim a = aim b) : a.remote = b.remote :=
  congrArg Prod.fst same

theorem Mapped.lasting (mapped : Mapped shard s) (lasts : Lasting s next) : Mapped shard next where
  live t started running := by
    rw [lasts.nextTask] at started
    have before : (s.tasks t).phase ≠ .ended := fun finished => running (lasts.finished t finished)
    have held := mapped.live t started before
    rw [aim_remote (lasts.aims t)]
    rcases lasts.maps (shard (s.tasks t).remote) (s.tasks t).remote with same | ⟨_, t', there, finished⟩
    · exact same.trans held
    · rw [held, Option.some.injEq] at there
      rw [← there] at finished
      exact absurd finished running
  held w a t entry := by
    rw [lasts.nextTask, aim_remote (lasts.aims t)]
    rcases lasts.maps w a with same | ⟨gone, _⟩
    · exact mapped.held w a t (same.symm.trans entry)
    · rw [gone] at entry
      simp at entry

theorem started_lookup (w w' : WorkerId) (remote a : SocketAddr) (p : Ptr) (pc : PcType) :
    ((startDtlsHandshake s w remote p pc).workers w').dtlsMap.lookup a =
      if w' = w ∧ a = remote then some s.nextTask else (s.workers w').dtlsMap.lookup a := by
  simp only [startDtlsHandshake, onWorker]
  by_cases here : w' = w
  · subst here
    rw [Function.update_self, lookup_insert]
    simp
  · rw [Function.update_of_ne here, if_neg fun both => here both.1]

theorem started_task (w : WorkerId) (remote : SocketAddr) (p : Ptr) (pc : PcType) (t : TaskId) :
    (startDtlsHandshake s w remote p pc).tasks t =
      if t = s.nextTask then ⟨remote, p, pc, .handshaking, [], [], none⟩ else s.tasks t := by
  simp only [startDtlsHandshake, Function.update_apply]

theorem Mapped.starts {w : WorkerId} {remote : SocketAddr} (mapped : Mapped shard s)
    (route : shard remote = w) (starts : Starts w remote s next) : Mapped shard next := by
  obtain ⟨free, p, pc, r, _, rfl⟩ := starts
  refine ⟨fun t started running => ?_, fun w' a t entry => ?_⟩
  · rw [started_lookup, started_task] at *
    by_cases fresh : t = s.nextTask
    · subst fresh
      simp [route]
    · rw [if_neg fresh] at running ⊢
      have old : t < s.nextTask := Nat.lt_of_le_of_ne (Nat.lt_succ_iff.mp started) fresh
      have held := mapped.live t old running
      rw [if_neg]
      · exact held
      · rintro ⟨_, same⟩
        rw [same, route] at held
        exact running (free t held)
  · rw [started_lookup] at entry
    rw [started_task]
    split at entry
    · rename_i here
      simp only [Option.some.injEq] at entry
      subst entry
      rw [if_pos rfl, here.1, here.2]
      exact ⟨Nat.lt_succ_self _, rfl, route⟩
    · obtain ⟨old, own, sharded⟩ := mapped.held w' a t entry
      rw [if_neg (Nat.ne_of_lt old)]
      exact ⟨Nat.lt_succ_of_lt old, own, sharded⟩

/-- A worker waits only with a datagram that is its own. -/
def Waits (shard : SocketAddr → WorkerId) (s : Transport) : Prop :=
  ∀ w remote data, (s.workers w).waiting = some (remote, data) → shard remote = w

theorem countPacket_waiting (s : Transport) (w w' : WorkerId) :
    ((countPacket s w).workers w').waiting = (s.workers w').waiting := by
  simp only [countPacket, onWorker]
  by_cases here : w' = w
  · subst here
    rw [Function.update_self]
    split <;> rfl
  · rw [Function.update_of_ne here]

theorem startDtlsHandshake_waiting (s : Transport) (w w' : WorkerId) (remote : SocketAddr) (p : Ptr)
    (pc : PcType) :
    ((startDtlsHandshake s w remote p pc).workers w').waiting = (s.workers w').waiting := by
  simp only [startDtlsHandshake, onWorker]
  by_cases here : w' = w
  · subst here
    rw [Function.update_self]
  · rw [Function.update_of_ne here]

/-- Only a full channel makes a worker wait. -/
theorem handleDtls_waiting (s : Transport) (w w' : WorkerId) (data : Bytes) (remote : SocketAddr) :
    ((handleDtls s w data remote).workers w').waiting = (s.workers w').waiting ∨
      (w' = w ∧ ((handleDtls s w data remote).workers w').waiting = some (remote, data)) := by
  unfold handleDtls
  cases injection s w remote with
  | handed t =>
    left
    exact countPacket_waiting _ w w'
  | full =>
    simp only [onWorker]
    by_cases here : w' = w
    · subst here
      exact .inr ⟨rfl, by rw [Function.update_self]⟩
    · exact .inl (by rw [Function.update_of_ne here])
  | refused =>
    left
    simp only
    cases s.hub.findByAddr remote with
    | none => exact countPacket_waiting _ w w'
    | some owner =>
      obtain ⟨p, pc, r⟩ := owner
      exact (countPacket_waiting _ w w').trans (startDtlsHandshake_waiting s w w' remote p pc)

theorem Waits.dtls (waits : Waits shard s) {w : WorkerId} {data : Bytes} {remote : SocketAddr}
    (route : shard remote = w) : Waits shard (handleDtls s w data remote) := by
  intro w' remote' data' waiting
  rcases handleDtls_waiting s w w' data remote with same | ⟨here, set⟩
  · rw [same] at waiting
    exact waits w' remote' data' waiting
  · rw [set] at waiting
    simp only [Option.some.injEq, Prod.mk.injEq] at waiting
    rw [here, ← waiting.1, route]

theorem Waits.of_workers (waits : Waits shard s)
    (same : ∀ w', (next.workers w').waiting = (s.workers w').waiting ∨
      (next.workers w').waiting = none) : Waits shard next := by
  intro w' remote data waiting
  rcases same w' with kept | gone
  · rw [kept] at waiting
    exact waits w' remote data waiting
  · rw [gone] at waiting
    simp at waiting

end Maps

section Runs
variable (hmacSha1 : Bytes → Bytes → Bytes) (crc32 : Bytes → UInt32) (shard : SocketAddr → WorkerId)

theorem handleSrtp_workers (s : Transport) (buf : Bytes) (remote : SocketAddr) (o : Readings buf) :
    (DtlsTransport.handleSrtp hmacSha1 crc32 s buf remote o).workers = s.workers := by
  unfold DtlsTransport.handleSrtp
  cases s.hub.findByAddr remote with
  | none => rfl
  | some owner =>
    obtain ⟨sender, pc, r⟩ := owner
    cases o.plain with
    | none => rfl
    | some plain =>
      cases pc with
      | subscribe => rfl
      | publish =>
        simp only
        split
        · rfl
        split <;> rfl

theorem handleStun_waiting (s : Transport) (w w' : WorkerId) (buf : Bytes) (remote : SocketAddr)
    (nowMs : Nat) :
    ((DtlsTransport.handleStun hmacSha1 crc32 s w buf remote nowMs).workers w').waiting =
      (s.workers w').waiting := by
  unfold DtlsTransport.handleStun
  simp only
  split
  · exact startDtlsHandshake_waiting _ w w' remote _ _
  · rfl

theorem subscribeReady_workers (s : Transport) (p : Ptr) : (subscribeReady s p).workers = s.workers := by
  unfold subscribeReady spawnEgressTask
  simp only
  split <;> rfl

theorem installSrtpKeys_workers (s : Transport) (p : Ptr) (pc : PcType) (keys : SrtpKeyMaterial) :
    (installSrtpKeys hmacSha1 crc32 s p pc keys).workers = s.workers := by
  unfold installSrtpKeys
  simp only
  split <;> rfl

theorem established_workers (s : Transport) (t : TaskId) (material : Option Material) :
    (established hmacSha1 crc32 s t material).workers = s.workers := by
  unfold established
  split
  · cases material with
    | none => rfl
    | some m =>
      have installed := installSrtpKeys_workers hmacSha1 crc32
        (connected s t (some (exportSrtpKeys m))) (s.tasks t).participant (s.tasks t).pc
        (exportSrtpKeys m)
      simp only [Option.map_some]
      split
      · exact (subscribeReady_workers _ _).trans installed
      · exact installed
  · rfl

theorem step_waits (s : Transport) (e : DtlsTransport.Event) (waits : Waits shard s) :
    Waits shard (DtlsTransport.step hmacSha1 crc32 shard s e) := by
  have same : ∀ {next : Transport}, next.workers = s.workers → Waits shard next :=
    fun workers => waits.of_workers fun w => .inl (by rw [workers])
  cases e with
  | local_ e => exact same rfl
  | datagram remote buf o =>
    simp only [DtlsTransport.step, receive]
    split
    · exact waits
    · cases DtlsTransport.classify buf with
      | stun =>
        exact waits.of_workers fun w => .inl ((countPacket_waiting _ _ w).trans
          (handleStun_waiting hmacSha1 crc32 s _ w buf remote o.nowMs))
      | dtls => exact waits.dtls rfl
      | srtp =>
        refine waits.of_workers fun w => .inl ((countPacket_waiting _ _ w).trans ?_)
        rw [handleSrtp_workers]
      | unknown => exact waits.of_workers fun w => .inl (countPacket_waiting _ _ w)
  | resume w =>
    simp only [DtlsTransport.step, resume]
    cases waiting : (s.workers w).waiting with
    | none => exact waits
    | some entry =>
      obtain ⟨remote, data⟩ := entry
      have cleared : Waits shard (onWorker s w fun worker => { worker with waiting := none }) := by
        refine waits.of_workers fun w' => ?_
        simp only [onWorker]
        by_cases here : w' = w
        · subst here
          exact .inr (by rw [Function.update_self])
        · exact .inl (by rw [Function.update_of_ne here])
      exact cleared.dtls (waits w remote data waiting)
  | recv t bufLen =>
    simp only [DtlsTransport.step, recv]
    split
    · exact waits
    · cases (s.tasks t).queue with
      | nil => exact waits
      | cons data rest => exact same rfl
  | established t material => exact same (established_workers hmacSha1 crc32 s t material)
  | ended t => exact same rfl
  | egress p now =>
    simp only [DtlsTransport.step]
    split
    · exact same rfl
    · exact waits

/-- A task has no keys as long as it shakes hands. -/
def Unkeyed (s : Transport) : Prop := ∀ t, (s.tasks t).phase = .handshaking → (s.tasks t).keys = none

theorem Unkeyed.lasting {s next : Transport} (unkeyed : Unkeyed s) (lasts : Lasting s next) :
    Unkeyed next := by
  intro t handshaking
  have before : (s.tasks t).phase = .handshaking := by
    by_contra past
    exact (lasts.settled t past).1 handshaking
  exact (lasts.unkeyed t handshaking).trans (unkeyed t before)

theorem Unkeyed.starts {s next : Transport} {w : WorkerId} {remote : SocketAddr}
    (unkeyed : Unkeyed s) (starts : Starts w remote s next) : Unkeyed next := by
  obtain ⟨_, p, pc, r, _, rfl⟩ := starts
  intro t handshaking
  rw [started_task] at handshaking ⊢
  split
  · rfl
  · rename_i old
    rw [if_neg old] at handshaking
    exact unkeyed t handshaking

/-- What holds of the workers and their tasks in every state. -/
structure Tended (s : Transport) : Prop where
  seated : Seated s.hub
  mapped : Mapped shard s
  waits : Waits shard s
  unkeyed : Unkeyed s

theorem counted_seated (c : Counted) (e : SendCounts.Event) (seated : Seated c.server.hub) :
    Seated (SendCounts.step hmacSha1 crc32 c e).server.hub := by
  cases e with
  | server e now => exact step_seated hmacSha1 crc32 c.server e seated
  | publishRtcp remote buf touchMs draw =>
    exact SenderReports.processPublishRtcp_seated c.server.hub remote buf touchMs draw (sentBy c) seated

theorem step_tended (s : Transport) (e : DtlsTransport.Event) (tended : Tended shard s) :
    Tended shard (DtlsTransport.step hmacSha1 crc32 shard s e) := by
  have seated := @lift_invariant _ _ _ _ _ _ Transport.counted _
    (transport_tells hmacSha1 crc32 shard) (fun c => Seated c.server.hub)
    (counted_seated hmacSha1 crc32) s e tended.seated
  have waits := step_waits hmacSha1 crc32 shard s e tended.waits
  have lasting : ∀ {next}, Lasting s next → Mapped shard next ∧ Unkeyed next :=
    fun lasts => ⟨tended.mapped.lasting lasts, tended.unkeyed.lasting lasts⟩
  have kept : Mapped shard (DtlsTransport.step hmacSha1 crc32 shard s e) ∧
      Unkeyed (DtlsTransport.step hmacSha1 crc32 shard s e) := by
    rcases step_tasks hmacSha1 crc32 s shard tended.seated e with lasts | ⟨w, remote, routed, worked⟩
    · exact lasting lasts
    · have route : shard remote = w := by
        rcases routed with here | ⟨data, waiting⟩
        · exact here
        · exact tended.waits w remote data waiting
      cases worked with
      | lasting lasts => exact lasting lasts
      | starts before started first starts last hub =>
        obtain ⟨mapped, unkeyed⟩ := lasting first
        exact ⟨(mapped.starts route starts).lasting last, (unkeyed.starts starts).lasting last⟩
  exact ⟨seated, kept.1, waits, kept.2⟩

theorem new_tended : Tended shard Transport.new where
  seated := new_seated
  mapped := ⟨fun t started => absurd started (Nat.not_lt_zero t), fun w a t held => by
    simp [Transport.new, Worker.new] at held⟩
  waits w remote data waiting := by simp [Transport.new, Worker.new] at waiting
  unkeyed _ _ := rfl

theorem run_tended (es : List DtlsTransport.Event) :
    Tended shard (run (DtlsTransport.step hmacSha1 crc32 shard) Transport.new es) :=
  run_invariant (step_tended hmacSha1 crc32 shard) (new_tended shard) es

/-- Of the tasks for one address at most one runs, and this is the one that the worker hands
    the datagrams of the address to. -/
theorem one_task_runs (es : List DtlsTransport.Event) :
    let s := run (DtlsTransport.step hmacSha1 crc32 shard) Transport.new es
    ∀ t, t < s.nextTask → (s.tasks t).phase ≠ .ended →
      (∀ t', t' < s.nextTask → (s.tasks t').phase ≠ .ended → (s.tasks t').remote = (s.tasks t).remote →
        t' = t) ∧
      injection s (shard (s.tasks t).remote) (s.tasks t).remote =
        if (s.tasks t).queue.length < dtlsChannelSize then .handed t else .full := by
  intro s t started running
  have mapped := (run_tended hmacSha1 crc32 shard es).mapped
  have held := mapped.live t started running
  refine ⟨fun t' started' running' same => ?_, ?_⟩
  · have held' := mapped.live t' started' running'
    rw [same, held] at held'
    exact (Option.some.inj held').symm
  · simp only [injection]
    rw [held]
    simp only [if_neg running]

/-- The tasks that were there are carried on, and a new one is for the session that its address
    is latched to. -/
structure Carried (s next : Transport) : Prop where
  old : ∀ t, t < s.nextTask → t < next.nextTask ∧ aim (next.tasks t) = aim (s.tasks t) ∧
    ((s.tasks t).phase ≠ .handshaking → (next.tasks t).keys = (s.tasks t).keys)
  fresh : ∀ t, t < next.nextTask → t < s.nextTask ∨ (t = s.nextTask ∧
    ∃ r, next.hub.findByAddr (next.tasks t).remote =
      some ((next.tasks t).participant, (next.tasks t).pc, r))

theorem Lasting.carried {s next : Transport} (lasts : Lasting s next) : Carried s next where
  old t started := ⟨by rw [lasts.nextTask]; exact started, lasts.aims t,
    fun past => (lasts.settled t past).2⟩
  fresh t started := .inl (by rw [← lasts.nextTask]; exact started)

theorem TaskStep.carried {s next : Transport} {w : WorkerId} {remote : SocketAddr}
    (worked : TaskStep s w remote next) : Carried s next := by
  cases worked with
  | lasting lasts => exact lasts.carried
  | starts before started first starts last hub =>
    obtain ⟨_, p, pc, r, found, rfl⟩ := starts
    have number : next.nextTask = s.nextTask + 1 :=
      last.nextTask.trans (congrArg (· + 1) first.nextTask)
    refine ⟨fun t there => ⟨?_, ?_, fun past => ?_⟩, fun t there => ?_⟩
    · rw [number]
      exact Nat.lt_succ_of_lt there
    · rw [last.aims, started_task, if_neg, first.aims]
      rw [first.nextTask]
      exact Nat.ne_of_lt there
    · have other : t ≠ before.nextTask := by
        rw [first.nextTask]
        exact Nat.ne_of_lt there
      obtain ⟨still, keys⟩ := first.settled t past
      have same := started_task w remote p pc t (s := before)
      rw [if_neg other] at same
      rw [← same] at still keys
      exact ((last.settled t still).2).trans keys
    · by_cases fresh : t = s.nextTask
      · refine .inr ⟨fresh, r, ?_⟩
        have aims := last.aims t
        rw [started_task, if_pos (by rw [first.nextTask]; exact fresh)] at aims
        simp only [aim, Prod.mk.injEq] at aims
        rw [hub, aims.1, aims.2.1, aims.2.2]
        exact found
      · rw [number] at there
        exact .inl (Nat.lt_of_le_of_ne (Nat.lt_succ_iff.mp there) fresh)

theorem step_carried (s : Transport) (seated : Seated s.hub) (e : DtlsTransport.Event) :
    Carried s (DtlsTransport.step hmacSha1 crc32 shard s e) := by
  rcases step_tasks hmacSha1 crc32 s shard seated e with lasts | ⟨w, remote, _, worked⟩
  · exact lasts.carried
  · exact worked.carried

/-- At some event of the run the task was started, and right after it its address was latched to
    the session that it is for. -/
def StartedFor (es : List DtlsTransport.Event) (t : TaskId) (task : Handshake) : Prop :=
  ∃ before e after, es = before ++ e :: after ∧
    (run (DtlsTransport.step hmacSha1 crc32 shard) Transport.new before).nextTask = t ∧
    t < (run (DtlsTransport.step hmacSha1 crc32 shard) Transport.new (before ++ [e])).nextTask ∧
    ∃ r, (run (DtlsTransport.step hmacSha1 crc32 shard) Transport.new (before ++ [e])).hub.findByAddr
      task.remote = some (task.participant, task.pc, r)

theorem StartedFor.longer {es : List DtlsTransport.Event} {t : TaskId} {task later : Handshake}
    (started : StartedFor hmacSha1 crc32 shard es t task) (same : aim later = aim task)
    (e : DtlsTransport.Event) : StartedFor hmacSha1 crc32 shard (es ++ [e]) t later := by
  obtain ⟨before, first, after, split_, numbered, began, r, found⟩ := started
  refine ⟨before, first, after ++ [e], by rw [split_]; simp, numbered, began, r, ?_⟩
  simp only [aim, Prod.mk.injEq] at same
  rw [same.1, same.2.1, same.2.2]
  exact found

/-- Every task was started for the session that its address was latched to at that moment. -/
theorem tasks_started_for (es : List DtlsTransport.Event) :
    let s := run (DtlsTransport.step hmacSha1 crc32 shard) Transport.new es
    ∀ t, t < s.nextTask → StartedFor hmacSha1 crc32 shard es t (s.tasks t) := by
  intro s t started
  revert t
  induction es using List.reverseRecOn with
  | nil => exact fun t started => absurd started (Nat.not_lt_zero t)
  | append_singleton es e ih =>
    have final : run (DtlsTransport.step hmacSha1 crc32 shard) Transport.new (es ++ [e]) =
        DtlsTransport.step hmacSha1 crc32 shard
          (run (DtlsTransport.step hmacSha1 crc32 shard) Transport.new es) e := by
      rw [StepRefinement.run_append]
      rfl
    intro t started
    have carried := step_carried hmacSha1 crc32 shard _ (run_tended hmacSha1 crc32 shard es).seated e
    simp only [s, final] at started ⊢
    rcases carried.fresh t started with earlier | ⟨new_, r, found⟩
    · exact (ih t earlier).longer hmacSha1 crc32 shard (carried.old t earlier).2.1 e
    · exact ⟨es, e, [], rfl, new_.symm, by rw [final]; exact started, r, by rw [final]; exact found⟩

end Runs

section Samples

def seatTaken : List DtlsTransport.Event :=
  signals [sampleRoom .conference false, .connect, identifyAs 0 "ann",
    .request 0 2 (.roomJoin (some "room")) (sampleOracle 1)]

/-- A datagram that no decryption is tried on. -/
def sampleReadings (buf : Bytes) : Readings buf where
  nowMs := 1000
  plain := none
  header := fun _ none_ => by simp at none_
  media := sampleOracle 1
  mbcp := fun _ => sampleOracle 1
  feedback := ⟨1000, 1000, [], [], fun _ => 0, fun _ => true, fun _ => sampleOracle 1⟩
  draw := ⟨7, by decide⟩

def sampleMaterial : Material := ⟨List.replicate 60 5, by decide⟩

/-- The first bytes of a ClientHello. -/
def hello : Bytes := [22, 254, 253]

/-- The publish session is latched, and its handshake has begun. -/
def shakingHands : List DtlsTransport.Event :=
  seatTaken ++ [.datagram (portAt 5000) (bindingRequest 1 1) (sampleReadings (bindingRequest 1 1)),
    .datagram (portAt 5000) hello (sampleReadings hello)]

def inTouch : Transport := run (DtlsTransport.step sampleHmac (fun _ => 0) fun _ => 0) .new shakingHands

theorem first_task_runs :
    (∀ t, t < inTouch.nextTask → (inTouch.tasks t).phase ≠ .ended →
      (inTouch.tasks t).remote = (inTouch.tasks 0).remote → t = 0) ∧
    injection inTouch 0 (inTouch.tasks 0).remote =
      if (inTouch.tasks 0).queue.length < dtlsChannelSize then .handed 0 else .full :=
  one_task_runs sampleHmac (fun _ => 0) (fun _ => 0) shakingHands 0 (by decide +kernel)
    (by decide +kernel)

theorem first_task_started_for :
    StartedFor sampleHmac (fun _ => 0) (fun _ => 0) shakingHands 0 (inTouch.tasks 0) :=
  tasks_started_for sampleHmac (fun _ => 0) (fun _ => 0) shakingHands 0 (by decide +kernel)

end Samples
end HandshakeTasks
