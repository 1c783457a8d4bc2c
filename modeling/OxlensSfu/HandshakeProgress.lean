import OxlensSfu.DatagramOrder
import OxlensSfu.SessionKeys

/-
What can always go on. A worker that waits is freed by one read of the task that it waits for;
and a session that a request names can be keyed over an address that no running task has.
-/
namespace HandshakeProgress
open WireBytes KeyedMap Participants RoomHubs RoomHub Servers GuardedRun StepRefinement
open Seating TransportStory SendCounts DtlsTransport HandshakeTasks DatagramOrder SessionSteps
open SessionKeys

section Workers
variable {s : Transport} {w : WorkerId} {remote : SocketAddr} {data : Bytes}

def cleared (s : Transport) (w : WorkerId) : Transport :=
  onWorker s w fun worker => { worker with waiting := none }

theorem cleared_waiting : ((cleared s w).workers w).waiting = none := by
  simp only [cleared, onWorker, Function.update_self]

theorem injection_cleared : injection (cleared s w) w remote = injection s w remote := by
  simp only [injection, cleared, onWorker, Function.update_self]
  rfl

theorem handleDtls_frees (free : (s.workers w).waiting = none) (space : injection s w remote ≠ .full) :
    ((handleDtls s w data remote).workers w).waiting = none := by
  unfold handleDtls
  cases injected : injection s w remote with
  | full => exact absurd injected space
  | handed t => exact (countPacket_waiting _ w w).trans free
  | refused =>
    simp only
    cases s.hub.findByAddr remote with
    | none => exact (countPacket_waiting s w w).trans free
    | some owner =>
      exact (countPacket_waiting _ w w).trans
        ((startDtlsHandshake_waiting s w w remote owner.1 owner.2.1).trans free)

/-- Who finds room in the channel, or no task, does not wait any longer. -/
theorem resume_frees (waiting : (s.workers w).waiting = some (remote, data))
    (space : injection s w remote ≠ .full) : ((resume s w).workers w).waiting = none := by
  have again : resume s w = handleDtls (cleared s w) w data remote := by
    simp only [resume, waiting, cleared]
  rw [again]
  exact handleDtls_frees cleared_waiting (injection_cleared.trans_ne space)

theorem injection_full (full : injection s w remote = .full) :
    ∃ t, (s.workers w).dtlsMap.lookup remote = some t ∧ (s.tasks t).phase ≠ .ended ∧
      dtlsChannelSize ≤ (s.tasks t).queue.length := by
  unfold injection at full
  split at full
  · simp at full
  rename_i t held
  split at full
  · simp at full
  rename_i running
  split at full
  · simp at full
  rename_i filled
  exact ⟨t, held, running, Nat.le_of_not_lt filled⟩

/-- A read makes room in a channel that holds no more than it can. -/
theorem recv_makes_room {t : TaskId} (held : (s.workers w).dtlsMap.lookup remote = some t)
    (running : (s.tasks t).phase ≠ .ended) (bounded : (s.tasks t).queue.length ≤ dtlsChannelSize)
    (bufLen : Nat) : injection (recv s t bufLen) w remote ≠ .full := by
  unfold recv
  rw [if_neg running]
  cases queue : (s.tasks t).queue with
  | nil =>
    have empty : injection s w remote = .handed t := by
      simp only [injection, held, if_neg running, queue, List.length_nil]
      exact if_pos (by decide)
    simp only
    rw [empty]
    simp
  | cons data rest =>
    have space : rest.length < dtlsChannelSize := by
      rw [queue] at bounded
      exact bounded
    simp only [injection, onTask, held, Function.update_self, if_neg running, if_pos space]
    simp

theorem ended_makes_room {t : TaskId} (held : (s.workers w).dtlsMap.lookup remote = some t) :
    injection (endTask s t) w remote ≠ .full := by
  simp [injection, endTask, onTask, held]

theorem recv_waiting (t : TaskId) (bufLen : Nat) (w : WorkerId) :
    ((recv s t bufLen).workers w).waiting = (s.workers w).waiting := by
  unfold recv
  split
  · rfl
  · cases (s.tasks t).queue <;> rfl

/-- The worker takes datagrams again, and the server is as it was. -/
structure Freed (s : Transport) (w : WorkerId) (next : Transport) : Prop where
  waiting : (next.workers w).waiting = none
  counted : next.counted = s.counted

end Workers

section Connecting
variable {s next : Transport} {w : WorkerId} {remote : SocketAddr} {data : Bytes}

end Connecting

section Runs
variable (hmacSha1 : Bytes → Bytes → Bytes) (crc32 : Bytes → UInt32) (shard : SocketAddr → WorkerId)

/-- A worker that waits is free when it tries again, or as soon as the one task that it waits for
    has read one datagram or is over. -/
theorem waiting_worker_freed (es : List DtlsTransport.Event) (w : WorkerId) :
    let s := run (DtlsTransport.step hmacSha1 crc32 shard) Transport.new es
    Freed s w (DtlsTransport.step hmacSha1 crc32 shard s (.resume w)) ∨
      ∃ t, t < s.nextTask ∧ (s.tasks t).phase ≠ .ended ∧ shard (s.tasks t).remote = w ∧
        ∀ f, (f = .ended t ∨ ∃ bufLen, f = .recv t bufLen) →
          Freed s w (run (DtlsTransport.step hmacSha1 crc32 shard) s [f, .resume w]) := by
  intro s
  have kept := run_kept hmacSha1 crc32 shard es
  cases waiting : (s.workers w).waiting with
  | none =>
    refine .inl ⟨?_, resume_counted s w⟩
    simp only [DtlsTransport.step, resume, waiting]
  | some entry =>
    obtain ⟨remote, data⟩ := entry
    by_cases full : injection s w remote = .full
    · obtain ⟨t, held, running, _⟩ := injection_full full
      obtain ⟨started, own, route⟩ := kept.tended.mapped.held w remote t held
      refine .inr ⟨t, started, running, own ▸ route, fun f either => ?_⟩
      rcases either with rfl | ⟨bufLen, rfl⟩
      · exact ⟨resume_frees waiting (ended_makes_room held), resume_counted (endTask s t) w⟩
      · have fed := kept.delivered.fed t started
        refine ⟨?_, (resume_counted (recv s t bufLen) w).trans (recv_counted s t bufLen)⟩
        exact resume_frees ((recv_waiting t bufLen w).trans waiting)
          (recv_makes_room held running fed.bounded bufLen)
    · exact .inl ⟨resume_frees waiting full, resume_counted s w⟩

variable {s : Transport} {remote : SocketAddr} {stun hello : Bytes} {msg : StunMessages.StunMessage}
  {p : Ptr} {pc : PcType} {r : RoomId} (tended : Tended shard s)
  (named : StunLatch.namedSession s.hub stun = some (msg, p, pc, r))
  (free : (s.workers (shard remote)).waiting = none)
  (unused : injection s (shard remote) remote = .refused)

include tended named free unused

end Runs

section Sessions
variable (hmacSha1 : Bytes → Bytes → Bytes) (crc32 : Bytes → UInt32) (shard : SocketAddr → WorkerId)

end Sessions

section Samples

def seated : Transport := run (DtlsTransport.step sampleHmac (fun _ => 0) fun _ => 0) .new seatTaken

end Samples
end HandshakeProgress
