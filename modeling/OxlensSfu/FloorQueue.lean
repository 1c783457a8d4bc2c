import OxlensSfu.FloorControl
import OxlensSfu.GuardedRun

/-
Who may wait while somebody talks. The transition relation lists, once, what
each operation of the controller can do; the invariants are read off from it.
-/
namespace FloorQueue
open SfuConfig FloorControl GuardedRun

inductive Transition (c : FloorController) :
    FloorOp → FloorController → List FloorAction → Prop where
  | grantIdle {u p now} (idle : c.state = .idle) :
      Transition c (.request u p now) { take c u p now with prevSpeaker := none }
        [.granted u p floorDefaultDurationS]
  | grantAgain {u p now sp start last} (held : c.state = .taken u sp start last) :
      Transition c (.request u p now) c [.granted u sp floorDefaultDurationS]
  | preempt {u p now s sp start last} (held : c.state = .taken s sp start last) (other : s ≠ u)
      (enabled : c.config.preemptionEnabled = true) (higher : sp < p) :
      Transition c (.request u p now) { take c u p now with prevSpeaker := some s }
        [.revoked s "preempted", .granted u p floorDefaultDurationS]
  | stillQueued {u p now s sp start last} (held : c.state = .taken s sp start last)
      (other : s ≠ u) (yields : ¬(c.config.preemptionEnabled = true ∧ sp < p))
      (present : waits c u = true) :
      Transition c (.request u p now) c [queuedReply c u p]
  | enqueue {u p now s sp start last} (held : c.state = .taken s sp start last)
      (other : s ≠ u) (yields : ¬(c.config.preemptionEnabled = true ∧ sp < p))
      (absent : waits c u = false) (space : c.queue.length < c.config.maxQueueSize) :
      Transition c (.request u p now) (enqueue c ⟨u, p, now⟩)
        [queuedReply (FloorControl.enqueue c ⟨u, p, now⟩) u p]
  | deny {u p now s sp start last reason} (held : c.state = .taken s sp start last)
      (other : s ≠ u) (yields : ¬(c.config.preemptionEnabled = true ∧ sp < p)) :
      Transition c (.request u p now) c [.denied reason s]
  | releaseHeld {u grantMs sp start last} (held : c.state = .taken u sp start last) :
      Transition c (.release u grantMs) (endBurst c u (.released u) grantMs).1
        (endBurst c u (.released u) grantMs).2
  | releaseOther {u grantMs s sp start last} (held : c.state = .taken s sp start last)
      (other : s ≠ u) : Transition c (.release u grantMs) (dequeue c u) []
  | releaseIdle {u grantMs} (idle : c.state = .idle) :
      Transition c (.release u grantMs) c [.released u]
  | pingHeld {u now sp start last} (held : c.state = .taken u sp start last) :
      Transition c (.ping u now) { c with state := .taken u sp start now } [.pingOk]
  | pingOther {u now} (other : currentSpeaker c ≠ some u) :
      Transition c (.ping u now) c [.pingDenied]
  | cancel {u} : Transition c (.cancelQueue u) (dequeue c u) []
  | expire {now grantMs s sp start last cause} (held : c.state = .taken s sp start last) :
      Transition c (.checkTimers now grantMs) (endBurst c s (.revoked s cause) grantMs).1
        (endBurst c s (.revoked s cause) grantMs).2
  | timersQuiet {now grantMs} : Transition c (.checkTimers now grantMs) c []
  | leaveHeld {u grantMs sp start last} (held : c.state = .taken u sp start last) :
      Transition c (.onParticipantLeave u grantMs)
        (endBurst (dequeue c u) u (.released u) grantMs).1
        (endBurst (dequeue c u) u (.released u) grantMs).2
  | leaveOther {u grantMs} (other : currentSpeaker c ≠ some u) :
      Transition c (.onParticipantLeave u grantMs) (dequeue c u) []

theorem request_transition (c : FloorController) (u : UserId) (p : UInt8) (now : Nat) :
    Transition c (.request u p now) (request c u p now).1 (request c u p now).2 := by
  unfold request
  split
  · rename_i idle
    exact .grantIdle idle
  · rename_i s sp start last held
    split
    · rename_i same
      subst same
      exact .grantAgain held
    rename_i other
    split
    · rename_i higher
      exact .preempt held other higher.1 higher.2
    rename_i yields
    split
    · split
      · rename_i present
        exact .stillQueued held other yields present
      rename_i absent
      split
      · exact .deny held other yields
      · rename_i space
        exact .enqueue held other yields (by simpa using absent) (Nat.lt_of_not_le space)
    · exact .deny held other yields

theorem release_transition (c : FloorController) (u : UserId) (grantMs : Nat) :
    Transition c (.release u grantMs) (release c u grantMs).1 (release c u grantMs).2 := by
  unfold release
  split
  · rename_i s sp start last held
    split
    · rename_i same
      subst same
      exact .releaseHeld held
    · rename_i other
      exact .releaseOther held other
  · rename_i idle
    exact .releaseIdle idle

theorem ping_transition (c : FloorController) (u : UserId) (now : Nat) :
    Transition c (.ping u now) (ping c u now).1 [(ping c u now).2] := by
  unfold ping
  split
  · rename_i s sp start last held
    split
    · rename_i same
      subst same
      exact .pingHeld held
    · rename_i other
      exact .pingOther (by simp [currentSpeaker, held, other])
  · rename_i idle
    exact .pingOther (by simp [currentSpeaker, idle])

theorem checkTimers_transition (c : FloorController) (now grantMs : Nat) :
    Transition c (.checkTimers now grantMs) (checkTimers c now grantMs).1
      (checkTimers c now grantMs).2 := by
  unfold checkTimers
  split
  · rename_i s sp start last held
    split
    · exact .expire held
    · split
      · exact .expire held
      · exact .timersQuiet
  · exact .timersQuiet

theorem onParticipantLeave_transition (c : FloorController) (u : UserId) (grantMs : Nat) :
    Transition c (.onParticipantLeave u grantMs) (onParticipantLeave c u grantMs).1
      (onParticipantLeave c u grantMs).2 := by
  simp only [onParticipantLeave]
  split
  · rename_i s sp start last held
    have state : c.state = .taken s sp start last := held
    split
    · rename_i same
      subst same
      exact .leaveHeld state
    · rename_i other
      exact .leaveOther (by simp [currentSpeaker, state, other])
  · rename_i idle
    have state : c.state = .idle := idle
    exact .leaveOther (by simp [currentSpeaker, state])

theorem applyOp_transition (c : FloorController) (op : FloorOp) :
    Transition c op (applyOp c op).1 (applyOp c op).2 := by
  cases op with
  | request u p now => exact request_transition c u p now
  | release u grantMs => exact release_transition c u grantMs
  | ping u now => exact ping_transition c u now
  | cancelQueue u => exact .cancel
  | checkTimers now grantMs => exact checkTimers_transition c now grantMs
  | onParticipantLeave u grantMs => exact onParticipantLeave_transition c u grantMs

/-- The burst of `s` ends: nobody waits and the floor is idle, or the head talks. -/
theorem endBurst_cases (c : FloorController) (s : UserId) (action : FloorAction)
    (grantMs : Nat) :
    (c.queue = [] ∧ endBurst c s action grantMs =
      ({ c with state := .idle, prevSpeaker := some s }, [action])) ∨
    (∃ next rest, c.queue = next :: rest ∧ endBurst c s action grantMs =
      ({ take c next.userId next.priority grantMs with queue := rest, prevSpeaker := none },
        [action, .granted next.userId next.priority floorDefaultDurationS])) := by
  cases waiting : c.queue with
  | nil => left; simp [endBurst, tryGrantNext, waiting]
  | cons next rest => right; exact ⟨next, rest, rfl, by simp [endBurst, tryGrantNext, waiting, take]⟩

def waiting (c : FloorController) : List UserId := c.queue.map (·.userId)

theorem waits_iff (c : FloorController) (u : UserId) : waits c u = true ↔ u ∈ waiting c := by
  simp [waits, waiting]

theorem waits_false_iff (c : FloorController) (u : UserId) :
    waits c u = false ↔ u ∉ waiting c := by
  rw [← waits_iff, Bool.not_eq_true]

theorem waiting_dequeue (c : FloorController) (u : UserId) :
    waiting (dequeue c u) = (waiting c).filter (· != u) := by
  simp only [waiting, dequeue, List.filter_map]
  rfl

theorem waiting_enqueue_perm (c : FloorController) (entry : QueueEntry) :
    (waiting (enqueue c entry)).Perm (entry.userId :: waiting c) := by
  have sorted := (List.perm_insertionSort QueueEntry.Before (c.queue ++ [entry])).map
    QueueEntry.userId
  refine sorted.trans ?_
  simp only [List.map_append, List.map_cons, List.map_nil]
  exact List.perm_append_singleton _ _

/-- Nobody waits twice, and nobody waits for an idle floor. -/
structure QueueSound (c : FloorController) : Prop where
  distinct : (waiting c).Nodup
  idleEmpty : c.state = .idle → c.queue = []

theorem endBurst_sound {c : FloorController} (sound : (waiting c).Nodup) (s : UserId)
    (action : FloorAction) (grantMs : Nat) : QueueSound (endBurst c s action grantMs).1 := by
  rcases endBurst_cases c s action grantMs with ⟨empty, run⟩ | ⟨next, rest, queue, run⟩
  · rw [run]
    exact ⟨sound, fun _ => empty⟩
  · rw [run]
    simp only [waiting, queue, List.map_cons, List.nodup_cons] at sound
    exact ⟨sound.2, fun idle => by simp [take] at idle⟩

theorem transition_sound {c next : FloorController} {op : FloorOp} {acts : List FloorAction}
    (sound : QueueSound c) (move : Transition c op next acts) : QueueSound next := by
  obtain ⟨distinct, idleEmpty⟩ := sound
  cases move with
  | grantIdle => exact ⟨distinct, fun idle => by simp [take] at idle⟩
  | grantAgain => exact ⟨distinct, idleEmpty⟩
  | preempt => exact ⟨distinct, fun idle => by simp [take] at idle⟩
  | stillQueued => exact ⟨distinct, idleEmpty⟩
  | enqueue held _ _ absent _ =>
    refine ⟨?_, fun idle => ?_⟩
    · rw [(waiting_enqueue_perm c _).nodup_iff, List.nodup_cons]
      exact ⟨(waits_false_iff c _).mp absent, distinct⟩
    · simp [FloorControl.enqueue, held] at idle
  | deny => exact ⟨distinct, idleEmpty⟩
  | releaseHeld => exact endBurst_sound distinct _ _ _
  | releaseOther held =>
    refine ⟨?_, fun idle => ?_⟩
    · rw [waiting_dequeue]; exact distinct.filter _
    · simp [dequeue, held] at idle
  | releaseIdle => exact ⟨distinct, idleEmpty⟩
  | pingHeld => exact ⟨distinct, fun idle => by simp at idle⟩
  | pingOther => exact ⟨distinct, idleEmpty⟩
  | cancel =>
    refine ⟨?_, fun idle => ?_⟩
    · rw [waiting_dequeue]; exact distinct.filter _
    · simp [dequeue, idleEmpty idle]
  | expire => exact endBurst_sound distinct _ _ _
  | timersQuiet => exact ⟨distinct, idleEmpty⟩
  | leaveHeld =>
    apply endBurst_sound
    rw [waiting_dequeue]
    exact distinct.filter _
  | leaveOther =>
    refine ⟨?_, fun idle => ?_⟩
    · rw [waiting_dequeue]; exact distinct.filter _
    · have empty := idleEmpty (show c.state = .idle from idle)
      simp [dequeue, empty]

theorem step_sound (c : FloorController) (op : FloorOp) (sound : QueueSound c) :
    QueueSound (step c op) := transition_sound sound (applyOp_transition c op)

theorem withConfig_sound (config : FloorConfig) : QueueSound (withConfig config) :=
  ⟨by simp [waiting, withConfig], fun _ => rfl⟩

/-- The burst of `u` ends among the actions. -/
def EndsBurst (acts : List FloorAction) (u : UserId) : Prop :=
  .released u ∈ acts ∨ ∃ cause, .revoked u cause ∈ acts

def GrantsTo (acts : List FloorAction) (u : UserId) : Prop :=
  ∃ priority duration, .granted u priority duration ∈ acts

def HolderNotWaiting (c : FloorController) : Prop :=
  ∀ u, currentSpeaker c = some u → waits c u = false

/-- The holder does not wait, and an operation that ends its burst grants it nothing. -/
structure HolderDisjoint (c : FloorController) : Prop where
  notWaiting : HolderNotWaiting c
  noRegrant : ∀ op u, currentSpeaker c = some u → EndsBurst (applyOp c op).2 u →
    ¬ GrantsTo (applyOp c op).2 u

/-- A request that takes the floor from another speaker. -/
def preempts (c : FloorController) (u : UserId) (p : UInt8) : Bool :=
  match c.state with
  | .idle => false
  | .taken s sp _ _ => s != u && c.config.preemptionEnabled && decide (sp < p)

/-- The preempting user is not waiting in the queue at that moment. -/
def PreemptsFromOutside (c : FloorController) : FloorOp → Prop
  | .request u p _ => preempts c u p = true → waits c u = false
  | _ => True

theorem endBurst_holder_absent {c : FloorController} (sound : (waiting c).Nodup) (s : UserId)
    (action : FloorAction) (grantMs : Nat) (u : UserId)
    (holder : currentSpeaker (endBurst c s action grantMs).1 = some u) :
    waits (endBurst c s action grantMs).1 u = false := by
  rcases endBurst_cases c s action grantMs with ⟨_, run⟩ | ⟨next, rest, queue, run⟩
  · simp [run, currentSpeaker] at holder
  · rw [run] at holder ⊢
    simp only [take, currentSpeaker, Option.some.injEq] at holder
    subst holder
    simp only [waiting, queue, List.map_cons, List.nodup_cons] at sound
    exact (waits_false_iff _ _).mpr sound.1

theorem waits_dequeue {c : FloorController} {u v : UserId} (absent : waits c v = false) :
    waits (dequeue c u) v = false := by
  rw [waits_false_iff] at absent ⊢
  rw [waiting_dequeue]
  exact fun member => absent (List.mem_of_mem_filter member)

theorem endBurst_never_regrants {c : FloorController} {s : UserId} (absent : waits c s = false)
    (action : FloorAction) (ends : ∀ u p d, action ≠ .granted u p d) (grantMs : Nat) :
    ¬ GrantsTo (endBurst c s action grantMs).2 s := by
  rintro ⟨p, d, granted⟩
  rcases endBurst_cases c s action grantMs with ⟨_, run⟩ | ⟨next, rest, queue, run⟩
  · rw [run, List.mem_singleton] at granted
    exact ends s p d granted.symm
  · rw [run, List.mem_pair] at granted
    rcases granted with same | same
    · exact ends s p d same.symm
    · have head : next.userId = s := by simp only [FloorAction.granted.injEq] at same; exact same.1.symm
      rw [waits_false_iff] at absent
      exact absent (by simp [waiting, queue, head])

theorem never_regrants {c next : FloorController} {op : FloorOp} {acts : List FloorAction}
    (apart : HolderNotWaiting c) (move : Transition c op next acts) {u : UserId}
    (holder : currentSpeaker c = some u) (ended : EndsBurst acts u) : ¬ GrantsTo acts u := by
  cases move with
  | grantIdle idle => simp [currentSpeaker, idle] at holder
  | grantAgain => simp [EndsBurst] at ended
  | preempt held other =>
    simp only [currentSpeaker, held, Option.some.injEq] at holder
    subst holder
    simp [GrantsTo, other]
  | stillQueued => simp [EndsBurst, queuedReply] at ended
  | enqueue => simp [EndsBurst, queuedReply] at ended
  | deny => simp [EndsBurst] at ended
  | releaseHeld held =>
    simp only [currentSpeaker, held, Option.some.injEq] at holder
    subst holder
    exact endBurst_never_regrants (apart _ (by simp [currentSpeaker, held])) _ (by simp) _
  | releaseOther => simp [EndsBurst] at ended
  | releaseIdle idle => simp [currentSpeaker, idle] at holder
  | pingHeld => simp [EndsBurst] at ended
  | pingOther => simp [EndsBurst] at ended
  | cancel => simp [EndsBurst] at ended
  | expire held =>
    simp only [currentSpeaker, held, Option.some.injEq] at holder
    subst holder
    exact endBurst_never_regrants (apart _ (by simp [currentSpeaker, held])) _ (by simp) _
  | timersQuiet => simp [EndsBurst] at ended
  | leaveHeld held =>
    simp only [currentSpeaker, held, Option.some.injEq] at holder
    subst holder
    refine endBurst_never_regrants ?_ _ (by simp) _
    simp [waits_false_iff, waiting_dequeue]
  | leaveOther => simp [EndsBurst] at ended

theorem holderDisjoint_iff (c : FloorController) : HolderDisjoint c ↔ HolderNotWaiting c :=
  ⟨fun disjoint => disjoint.notWaiting, fun apart =>
    ⟨apart, fun op _ holder ended => never_regrants apart (applyOp_transition c op) holder ended⟩⟩

theorem preempts_held {c : FloorController} {s u : UserId} {sp p : UInt8} {start last : Nat}
    (held : c.state = .taken s sp start last) :
    preempts c u p = true ↔ s ≠ u ∧ c.config.preemptionEnabled = true ∧ sp < p := by
  simp [preempts, held, and_assoc]

/-- From a sound state whose holder does not wait, only a preemption by a waiting
    user makes the holder wait. -/
theorem transition_apart_iff {c next : FloorController} {op : FloorOp} {acts : List FloorAction}
    (sound : QueueSound c) (apart : HolderNotWaiting c) (move : Transition c op next acts) :
    HolderNotWaiting next ↔ PreemptsFromOutside c op := by
  cases move with
  | grantIdle idle =>
    simp only [PreemptsFromOutside, preempts, idle, Bool.false_eq_true, false_imp_iff, iff_true]
    intro v _
    simp [waits, take, sound.idleEmpty idle]
  | grantAgain held =>
    simp only [PreemptsFromOutside, preempts_held held]
    exact iff_of_true apart (fun h => absurd rfl h.1)
  | @preempt u p now s sp start last held other enabled higher =>
    simp only [PreemptsFromOutside, preempts_held held]
    constructor
    · intro after _
      exact after u rfl
    · intro outside v holder
      simp only [take, currentSpeaker, Option.some.injEq] at holder
      subst holder
      exact outside ⟨other, enabled, higher⟩
  | stillQueued held _ yields =>
    simp only [PreemptsFromOutside, preempts_held held]
    exact iff_of_true apart (fun h => absurd h.2 yields)
  | @enqueue u p now s sp start last held other yields absent =>
    simp only [PreemptsFromOutside, preempts_held held]
    refine iff_of_true (fun v holder => ?_) (fun h => absurd h.2 yields)
    have same : s = v := by simpa [FloorControl.enqueue, currentSpeaker, held] using holder
    subst same
    have before := (waits_false_iff c s).mp (apart s (by simp [currentSpeaker, held]))
    rw [waits_false_iff, (waiting_enqueue_perm c _).mem_iff, List.mem_cons, not_or]
    exact ⟨other, before⟩
  | deny held _ yields =>
    simp only [PreemptsFromOutside, preempts_held held]
    exact iff_of_true apart (fun h => absurd h.2 yields)
  | releaseHeld => exact iff_of_true (endBurst_holder_absent sound.distinct _ _ _) trivial
  | releaseOther => exact iff_of_true (fun v holder => waits_dequeue (apart v holder)) trivial
  | releaseIdle => exact iff_of_true apart trivial
  | pingHeld held =>
    refine iff_of_true (fun v holder => ?_) trivial
    exact apart v (by simpa [currentSpeaker, held] using holder)
  | pingOther => exact iff_of_true apart trivial
  | cancel => exact iff_of_true (fun v holder => waits_dequeue (apart v holder)) trivial
  | expire => exact iff_of_true (endBurst_holder_absent sound.distinct _ _ _) trivial
  | timersQuiet => exact iff_of_true apart trivial
  | leaveHeld =>
    refine iff_of_true (endBurst_holder_absent ?_ _ _ _) trivial
    rw [waiting_dequeue]
    exact sound.distinct.filter _
  | leaveOther => exact iff_of_true (fun v holder => waits_dequeue (apart v holder)) trivial

/-- The holder stays out of the queue along a run exactly as long as no waiting
    user preempts. -/
theorem holder_disjoint_iff_preempts_from_outside (config : FloorConfig) (ops : List FloorOp) :
    Always step HolderDisjoint (withConfig config) ops ↔
      Guarded step PreemptsFromOutside (withConfig config) ops := by
  refine always_iff_guarded step_sound (fun c op sound disjoint => ?_)
    (withConfig_sound config) ?_ ops
  · rw [holderDisjoint_iff]
    exact transition_apart_iff sound disjoint.notWaiting (applyOp_transition c op)
  · rw [holderDisjoint_iff]
    intro u holder
    simp [withConfig, currentSpeaker] at holder

/-- "B" waits with priority 2, preempts with priority 9 and still waits; its own
    release hands the floor straight back to it. -/
theorem preempting_waiter_regranted :
    let c := run step .new [.request "A" 5 0, .request "B" 2 1, .request "B" 9 2]
    ¬ HolderDisjoint c ∧ currentSpeaker c = some "B" ∧
      (applyOp c (.release "B" 3)).2 = [.released "B", .granted "B" 2 30] := by
  refine ⟨fun disjoint => ?_, by decide, by decide⟩
  exact absurd (disjoint.notWaiting "B" (by decide)) (by decide)

end FloorQueue
