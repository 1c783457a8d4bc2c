import OxlensSfu.FloorTasks
import OxlensSfu.FloorQueue
import OxlensSfu.PendingEffects

/-
What others know of the floor. An observer of the action stream always knows the holder.
The WS handlers act on the stream only after the floor lock is released, so their rewriter
updates and messages may interleave; the members agree when nothing overtakes.
-/
namespace FloorViews
open SfuConfig FloorControl FloorQueue PttRewriter Participants RoomHubs Signaling
open FloorHandlers GuardedRun PendingEffects FloorTasks

/-- What an observer of the actions takes for the holder and its priority. -/
def observe (holder : Option (UserId × UInt8)) : FloorAction → Option (UserId × UInt8)
  | .granted speaker priority _ => some (speaker, priority)
  | .released _ => none
  | .revoked _ _ => none
  | _ => holder

/-- All actions of a run, in order. -/
def emitted (c : FloorController) : List FloorOp → List FloorAction
  | [] => []
  | op :: ops => (applyOp c op).2 ++ emitted (step c op) ops

def holder (c : FloorController) : Option (UserId × UInt8) :=
  match c.state with
  | .taken speaker speakerPriority _ _ => some (speaker, speakerPriority)
  | .idle => none

theorem holder_speaker (c : FloorController) : (holder c).map Prod.fst = currentSpeaker c := by
  cases state : c.state <;> simp [holder, currentSpeaker, state]

theorem holder_priority (c : FloorController) :
    (holder c).map Prod.snd = currentSpeakerPriority c := by
  cases state : c.state <;> simp [holder, currentSpeakerPriority, state]

theorem endBurst_observed (c : FloorController) (s : UserId) {action : FloorAction}
    (ends : ∀ seen, observe seen action = none) (grantMs : Nat)
    (seen : Option (UserId × UInt8)) :
    (endBurst c s action grantMs).2.foldl observe seen = holder (endBurst c s action grantMs).1 := by
  rcases endBurst_cases c s action grantMs with ⟨_, run⟩ | ⟨next, rest, _, run⟩
  · rw [run]
    exact ends seen
  · rw [run]
    rfl

theorem transition_observed {c next : FloorController} {op : FloorOp} {acts : List FloorAction}
    (move : Transition c op next acts) : acts.foldl observe (holder c) = holder next := by
  cases move with
  | grantIdle => rfl
  | grantAgain held => simp [observe, holder, held]
  | preempt => rfl
  | stillQueued => rfl
  | enqueue => rfl
  | deny => rfl
  | releaseHeld => exact endBurst_observed c _ (fun _ => rfl) _ _
  | releaseOther => rfl
  | releaseIdle idle => simp [observe, holder, idle]
  | pingHeld held => simp [observe, holder, held]
  | pingOther => rfl
  | cancel => rfl
  | expire => exact endBurst_observed c _ (fun _ => rfl) _ _
  | timersQuiet => rfl
  | leaveHeld => exact endBurst_observed _ _ (fun _ => rfl) _ _
  | leaveOther => rfl

theorem run_observed (c : FloorController) (ops : List FloorOp) :
    (emitted c ops).foldl observe (holder c) = holder (run step c ops) := by
  induction ops generalizing c with
  | nil => rfl
  | cons op ops ih =>
    have one : (applyOp c op).2.foldl observe (holder c) = holder (step c op) :=
      transition_observed (applyOp_transition c op)
    rw [emitted, List.foldl_append, one, run_cons]
    exact ih (step c op)

theorem actions_determine_floor (config : FloorConfig) (ops : List FloorOp) :
    let seen := (emitted (withConfig config) ops).foldl observe none
    seen.map Prod.fst = currentSpeaker (run step (withConfig config) ops) ∧
      seen.map Prod.snd = currentSpeakerPriority (run step (withConfig config) ops) := by
  intro seen
  have known : seen = holder (run step (withConfig config) ops) :=
    run_observed (withConfig config) ops
  rw [known]
  exact ⟨holder_speaker _, holder_priority _⟩

/-- A PTT room with its floor handlers in flight, the oldest floor call first. -/
structure World where
  floor : FloorController
  audio : Rewriter
  video : Rewriter
  channel : UserId → List WsEvent
  seen : UserId → List Received
  inFlight : List (List Effect)

inductive Event where
  | request (requester : UserId) (pid : Nat) (priority : Option UInt8) (now : Nat)
  | release (requester : UserId) (pid : Nat) (grantMs : Nat)
  /-- The handler of the `i`-th floor call takes its next step. -/
  | act (i : Nat) (now : Instant)
  /-- The connection of a member sends the first event of its channel. -/
  | deliver (member : UserId)
  deriving DecidableEq, Repr

def perform (w : World) (now : Instant) : Effect → World
  | .switchAudio speaker => { w with audio := switchSpeaker w.audio speaker now }
  | .switchVideo speaker => { w with video := switchSpeaker w.video speaker now }
  | .clearAudio => { w with audio := (clearSpeaker w.audio now).1 }
  | .clearVideo => { w with video := (clearSpeaker w.video now).1 }
  | .push member event =>
    { w with channel := Function.update w.channel member (w.channel member ++ [event]) }
  | .answer member reply =>
    { w with seen := Function.update w.seen member (w.seen member ++ [.reply reply]) }

section Runs
variable (roomId : RoomId) (members : List UserId)

def advance (w : World) : Event → World
  | .request requester pid priority now =>
    let (floor, actions) := request w.floor requester (priority.getD floorDefaultPriority) now
    { w with
      floor := floor
      inFlight := w.inFlight ++ [requestTask roomId members requester pid actions] }
  | .release requester pid grantMs =>
    let (floor, actions) := release w.floor requester grantMs
    { w with
      floor := floor
      inFlight := w.inFlight ++ [releaseTask roomId members requester pid actions] }
  | .act i now =>
    match w.inFlight[i]? with
    | some (e :: rest) => perform { w with inFlight := w.inFlight.set i rest } now e
    | _ => w
  | .deliver member =>
    match w.channel member with
    | event :: later =>
      { w with
        channel := Function.update w.channel member later
        seen := Function.update w.seen member (w.seen member ++ [.event event]) }
    | [] => w

end Runs

/-- A new PTT room whose members have received nothing. -/
def opened (config : FloorConfig) (audioSsrc videoSsrc : UInt32) : World where
  floor := withConfig config
  audio := newAudio audioSsrc
  video := newVideo videoSsrc
  channel := fun _ => []
  seen := fun _ => []
  inFlight := []

/-- All handlers have finished and all channels are drained. -/
def Settled (members : List UserId) (w : World) : Prop :=
  (∀ task ∈ w.inFlight, task = []) ∧ ∀ m ∈ members, w.channel m = []

/-- Rewriters and members have the speaker of the floor. -/
structure Agreed (members : List UserId) (w : World) : Prop where
  audio : w.audio.state.speaker = currentSpeaker w.floor
  video : w.video.state.speaker = currentSpeaker w.floor
  members : ∀ m ∈ members, (w.seen m).foldl view none = currentSpeaker w.floor

/-- A reply that tells of the floor finds no such events in the channel of its member. -/
def Drained (w : World) : Effect → Prop
  | .answer member reply =>
    news (.reply reply) = none ∨ ∀ event ∈ w.channel member, news (.event event) = none
  | _ => True

/-- The next effect of a handler overtakes nothing: no older handler still has to tell the
    same rewriter or member, and a reply passes no events. -/
def Behind (w : World) (i : Nat) : Option (List Effect) → Prop
  | some (e :: _) => (e.target = none ∨ InTurn Effect.target w.inFlight i e) ∧ Drained w e
  | _ => True

def InOrder (w : World) : Event → Prop
  | .act i _ => Behind w i w.inFlight[i]?
  | _ => True

instance (w : World) : ∀ e, Decidable (Drained w e)
  | .answer member reply => inferInstanceAs (Decidable (news (.reply reply) = none ∨
      ∀ event ∈ w.channel member, news (.event event) = none))
  | .switchAudio _ | .switchVideo _ | .clearAudio | .clearVideo | .push _ _ => isTrue trivial

instance (w : World) (i : Nat) : ∀ task, Decidable (Behind w i task)
  | some (_ :: _) => inferInstanceAs (Decidable (_ ∧ _))
  | some [] | none => isTrue trivial

instance (w : World) : ∀ e, Decidable (InOrder w e)
  | .act i _ => inferInstanceAs (Decidable (Behind w i w.inFlight[i]?))
  | .request .. | .release .. | .deliver .. => isTrue trivial

instance (members : List UserId) (w : World) : Decidable (Settled members w) :=
  inferInstanceAs (Decidable (_ ∧ _))

/-- A rewriter, or the client of a member. -/
def Listed (members : List UserId) : Target → Prop
  | .client member => member ∈ members
  | _ => True

def World.known (w : World) : Target → Option UserId
  | .audio => w.audio.state.speaker
  | .video => w.video.state.speaker
  | .client member => ((w.channel member).map .event).foldl view ((w.seen member).foldl view none)

/-- Once the handlers in flight have acted, everyone has the speaker of the floor. -/
def Converging (members : List UserId) (w : World) : Prop :=
  ∀ t, Listed members t →
    outcome Effect.target learn (some t) (w.known t) w.inFlight = currentSpeaker w.floor

theorem view_again (known : Option UserId) (r : Received) : view (view known r) r = view known r := by
  unfold view
  cases news r <;> rfl

theorem view_silent {known : Option UserId} {r : Received} (silent : news r = none) :
    view known r = known := by
  rw [view, silent]
  rfl

theorem push_seen (t : Target) (member : UserId) (event : WsEvent) (known : Option UserId) :
    see Effect.target learn (some t) known (.push member event) =
      if t = .client member then view known (.event event) else known := by
  by_cases silent : news (.event event) = none
  · simp [see, Effect.target, silent, view_silent silent]
  · have told : (news (.event event)).isSome = true := Option.isSome_iff_ne_none.mpr silent
    simp [see, Effect.target, learn, told, eq_comm]

theorem answer_seen (t : Target) (member : UserId) (reply : Reply) (known : Option UserId) :
    see Effect.target learn (some t) known (.answer member reply) =
      if t = .client member then view known (.reply reply) else known := by
  by_cases silent : news (.reply reply) = none
  · simp [see, Effect.target, silent, view_silent silent]
  · have told : (news (.reply reply)).isSome = true := Option.isSome_iff_ne_none.mpr silent
    simp [see, Effect.target, learn, told, eq_comm]

theorem broadcast_seen (t : Target) (event : WsEvent) (receivers : List UserId)
    (known : Option UserId) :
    (broadcast receivers event).foldl (see Effect.target learn (some t)) known =
      if ∃ m ∈ receivers, t = .client m then view known (.event event) else known := by
  induction receivers generalizing known with
  | nil => simp [broadcast]
  | cons m ms ih =>
    have head : (broadcast (m :: ms) event).foldl (see Effect.target learn (some t)) known =
        (broadcast ms event).foldl (see Effect.target learn (some t))
          (see Effect.target learn (some t) known (.push m event)) := rfl
    rw [head, ih, push_seen]
    by_cases here : t = .client m
    · have listed : ∃ n ∈ m :: ms, t = .client n := ⟨m, List.mem_cons_self, here⟩
      rw [if_pos here, if_pos listed, view_again, ite_self]
    · simp [here]

theorem pushTo_seen {members : List UserId} (t : Target) (member : UserId) (event : WsEvent)
    (known : Option UserId) :
    (pushTo members member event).foldl (see Effect.target learn (some t)) known =
      if member ∈ members ∧ t = .client member then view known (.event event) else known := by
  unfold pushTo
  split
  · rename_i listed
    rw [List.foldl_cons, List.foldl_nil, push_seen]
    simp [listed]
  · rename_i absent
    simp [absent]

section Tasks
variable {roomId : RoomId} {members : List UserId} {t : Target} (listed : Listed members t)
include listed

/-- A grant tells everyone but the requester, who has it from the reply. -/
theorem requestGranted_seen (requester speaker : UserId) (priority : UInt8) (durationS : UInt16)
    (known : Option UserId) :
    (requestEffects roomId members requester (.granted speaker priority durationS)).foldl
        (see Effect.target learn (some t)) known =
      if t = .client requester then known else some speaker := by
  rw [requestEffects, List.foldl_append, broadcast_seen]
  cases t with
  | audio => simp [see, Effect.target, learn]
  | video => simp [see, Effect.target, learn]
  | client m =>
    have here : m ∈ members := listed
    simp only [Target.client.injEq, List.mem_filter, decide_eq_true_eq, exists_eq_right']
    by_cases own : m = requester
    · simp [own, see, Effect.target]
    · simp [own, here, view, news]

theorem request_seen {c next : FloorController} {u : UserId} {p : UInt8} {now : Nat} {pid : Nat}
    {acts : List FloorAction} (move : Transition c (.request u p now) next acts) :
    (requestTask roomId members u pid acts).foldl (see Effect.target learn (some t)) (currentSpeaker c) =
      currentSpeaker next := by
  have granted : ∀ (priority : UInt8) (durationS : UInt16) (known : Option UserId),
      see Effect.target learn (some t)
        ((requestEffects roomId members u (.granted u priority durationS)).foldl
          (see Effect.target learn (some t)) known)
        (.answer u (.ok opFloorRequest pid (.granted u priority durationS))) = some u := by
    intro priority durationS known
    rw [requestGranted_seen listed, answer_seen]
    split <;> rfl
  cases move with
  | grantIdle idle =>
    simp only [requestTask, List.flatMap_cons, List.flatMap_nil, List.append_nil,
      List.foldl_append, List.foldl_cons, List.foldl_nil, requestReply, if_true]
    exact granted _ _ _
  | grantAgain held =>
    simp only [requestTask, List.flatMap_cons, List.flatMap_nil, List.append_nil,
      List.foldl_append, List.foldl_cons, List.foldl_nil, requestReply, if_true]
    rw [granted]
    simp [currentSpeaker, held]
  | preempt held =>
    simp only [requestTask, List.flatMap_cons, List.flatMap_nil, List.append_nil,
      List.foldl_append, List.foldl_cons, List.foldl_nil, requestReply, if_true]
    exact granted _ _ _
  | stillQueued =>
    simp [requestTask, requestEffects, queuedReply, requestReply, answer_seen, view, news]
  | enqueue held =>
    simp [requestTask, requestEffects, queuedReply, requestReply, answer_seen, view, news,
      FloorControl.enqueue, currentSpeaker]
  | deny =>
    simp [requestTask, requestEffects, requestReply, answer_seen, view, news]

theorem releaseGranted_seen (requester speaker : UserId) (priority : UInt8) (durationS : UInt16)
    (known : Option UserId) :
    (releaseEffects roomId members requester (.granted speaker priority durationS)).foldl
        (see Effect.target learn (some t)) known = some speaker := by
  have own : ∀ known, known = some speaker →
      (if speaker ≠ requester then
          pushTo members speaker (.floorGranted speaker priority durationS) else []).foldl
        (see Effect.target learn (some t)) known = some speaker := by
    intro known same
    split
    · rw [pushTo_seen, same]
      split <;> rfl
    · exact same
  rw [releaseEffects, List.foldl_append]
  apply own
  rw [List.foldl_append, broadcast_seen]
  cases t with
  | audio => simp [see, Effect.target, learn]
  | video => simp [see, Effect.target, learn]
  | client m => rw [if_pos ⟨m, listed, rfl⟩]; rfl

/-- Silence for the rewriters, FLOOR_IDLE for the members: nobody talks. -/
theorem released_seen (requester prev : UserId) (known : Option UserId) :
    (releaseEffects roomId members requester (.released prev)).foldl (see Effect.target learn (some t))
      ((flushEffects (.released prev)).foldl (see Effect.target learn (some t)) known) = none := by
  rw [releaseEffects, broadcast_seen]
  cases t with
  | audio => simp [flushEffects, see, Effect.target, learn]
  | video => simp [flushEffects, see, Effect.target, learn]
  | client m => rw [if_pos ⟨m, listed, rfl⟩]; rfl

theorem release_seen {c next : FloorController} {u : UserId} {grantMs : Nat} {pid : Nat}
    {acts : List FloorAction} (move : Transition c (.release u grantMs) next acts) :
    (releaseTask roomId members u pid acts).foldl (see Effect.target learn (some t)) (currentSpeaker c) =
      currentSpeaker next := by
  have quiet : ∀ known, see Effect.target learn (some t) known (.answer u (.ok opFloorRelease pid .empty)) =
      known := by
    intro known
    rw [answer_seen]
    split <;> rfl
  cases move with
  | releaseHeld held =>
    rcases endBurst_cases c u (.released u) grantMs with ⟨_, run⟩ | ⟨head, rest, _, run⟩
    · rw [run]
      simp only [releaseTask, List.flatMap_cons, List.flatMap_nil, List.append_nil,
        List.foldl_append, List.foldl_cons, List.foldl_nil, releaseReply, quiet]
      exact released_seen listed u u _
    · rw [run]
      simp only [releaseTask, flushEffects, List.flatMap_cons, List.flatMap_nil, List.append_nil,
        List.foldl_append, List.foldl_cons, List.foldl_nil, releaseReply, quiet]
      exact releaseGranted_seen listed u _ _ _ _
  | releaseOther => simp [releaseTask, quiet, dequeue, currentSpeaker]
  | releaseIdle idle =>
    simp only [releaseTask, List.flatMap_cons, List.flatMap_nil, List.append_nil,
      List.foldl_append, List.foldl_cons, List.foldl_nil, releaseReply, quiet]
    rw [released_seen listed]
    simp [currentSpeaker, idle]

end Tasks

theorem foldl_silent {events : List WsEvent} (silent : ∀ event ∈ events, news (.event event) = none)
    (known : Option UserId) : (events.map .event).foldl view known = known := by
  induction events with
  | nil => rfl
  | cons event events ih =>
    rw [List.map_cons, List.foldl_cons, view_silent (silent event List.mem_cons_self)]
    exact ih fun e member => silent e (List.mem_cons_of_mem _ member)

/-- An effect changes what its own target knows, unless it is a reply that overtakes
    the channel. -/
theorem perform_known (w : World) (now : Instant) {e : Effect} (drained : Drained w e) (t : Target) :
    (perform w now e).known t = see Effect.target learn (some t) (w.known t) e := by
  have silent : ∀ r : Rewriter, (clearSpeaker r now).1.state.speaker = none := by
    intro r
    unfold clearSpeaker
    split
    · rfl
    · split <;> rfl
  cases e with
  | switchAudio speaker => cases t <;> rfl
  | switchVideo speaker => cases t <;> rfl
  | clearAudio => cases t <;> first | rfl | exact silent w.audio
  | clearVideo => cases t <;> first | rfl | exact silent w.video
  | push m event =>
    rw [push_seen]
    cases t with
    | client n =>
      by_cases here : n = m
      · simp [perform, World.known, here, List.foldl_append]
      · simp [perform, World.known, here]
    | _ => rfl
  | answer m reply =>
    rw [answer_seen]
    cases t with
    | client n =>
      by_cases here : n = m
      · subst here
        simp only [perform, World.known, Function.update_self, List.foldl_append, List.foldl_cons,
          List.foldl_nil, if_true]
        rcases drained with silent | empty
        · rw [view_silent silent, view_silent silent]
        · rw [foldl_silent empty, foldl_silent empty]
      · simp [perform, World.known, here]
    | _ => rfl

theorem perform_fixed (w : World) (now : Instant) (e : Effect) :
    (perform w now e).floor = w.floor ∧ (perform w now e).inFlight = w.inFlight := by
  cases e <;> exact ⟨rfl, rfl⟩

theorem deliver_known (w : World) (m : UserId) {event : WsEvent} {later : List WsEvent}
    (waiting : w.channel m = event :: later) (t : Target) :
    World.known { w with
      channel := Function.update w.channel m later
      seen := Function.update w.seen m (w.seen m ++ [.event event]) } t = w.known t := by
  cases t with
  | client n =>
    by_cases here : n = m
    · subst here
      simp [World.known, waiting, List.foldl_append]
    · simp [World.known, here]
  | _ => rfl

section Steps
variable {roomId : RoomId} {members : List UserId}

/-- A new handler takes everyone from the old speaker to the new one. -/
theorem call_converging {w : World} (converging : Converging members w) {floor : FloorController}
    {task : List Effect}
    (seen : ∀ t, Listed members t →
      task.foldl (see Effect.target learn (some t)) (currentSpeaker w.floor) = currentSpeaker floor) :
    Converging members { w with floor := floor, inFlight := w.inFlight ++ [task] } := by
  intro t listed
  have before := converging t listed
  have same : World.known { w with floor := floor, inFlight := w.inFlight ++ [task] } t =
      w.known t := by cases t <;> rfl
  rw [same, outcome_call, before]
  exact seen t listed

theorem advance_converging {w : World} {e : Event} (inOrder : InOrder w e)
    (converging : Converging members w) : Converging members (advance roomId members w e) := by
  cases e with
  | request u pid priority now =>
    exact call_converging converging fun t listed =>
      request_seen listed (request_transition w.floor u (priority.getD floorDefaultPriority) now)
  | release u pid grantMs =>
    exact call_converging converging fun t listed =>
      release_seen listed (release_transition w.floor u grantMs)
  | act i now =>
    simp only [advance]
    split
    · rename_i e rest next
      rw [InOrder, next] at inOrder
      obtain ⟨inTurn, drained⟩ := inOrder
      intro t listed
      obtain ⟨floor, inFlight⟩ := perform_fixed { w with inFlight := w.inFlight.set i rest } now e
      have known : (perform { w with inFlight := w.inFlight.set i rest } now e).known t = _ :=
        perform_known { w with inFlight := w.inFlight.set i rest } now (by cases e <;> exact drained) t
      have same : World.known { w with inFlight := w.inFlight.set i rest } t = w.known t := by
        cases t <;> rfl
      have turn : e.target = some t → InTurn Effect.target w.inFlight i e := fun told =>
        inTurn.resolve_left (by simp [told])
      rw [floor, inFlight, known, same, outcome_perform next turn]
      exact converging t listed
    · exact converging
  | deliver m =>
    simp only [advance]
    split
    · rename_i event later waiting
      intro t listed
      rw [deliver_known w m waiting]
      exact converging t listed
    · exact converging

theorem settled_agreed {w : World} (settled : Settled members w)
    (converging : Converging members w) : Agreed members w := by
  have done : ∀ t, Listed members t → w.known t = currentSpeaker w.floor := by
    intro t listed
    rw [← converging t listed, outcome_done settled.1]
  refine ⟨done .audio trivial, done .video trivial, fun m listed => ?_⟩
  have known := done (.client m) listed
  rw [World.known, settled.2 m listed] at known
  exact known

theorem views_agree_in_order (config : FloorConfig) (audioSsrc videoSsrc : UInt32)
    (es : List Event)
    (inOrder : Guarded (advance roomId members) InOrder (opened config audioSsrc videoSsrc) es)
    (settled : Settled members
      (run (advance roomId members) (opened config audioSsrc videoSsrc) es)) :
    Agreed members (run (advance roomId members) (opened config audioSsrc videoSsrc) es) := by
  have fresh : Converging members (opened config audioSsrc videoSsrc) := by
    intro t listed
    cases t <;> rfl
  exact settled_agreed settled
    (guarded_invariant (fun _ _ converging allowed => advance_converging allowed converging)
      fresh es inOrder)

end Steps

/-- Floor messages come from members. -/
def ByMember (members : List UserId) : Event → Prop
  | .request requester .. => requester ∈ members
  | .release requester .. => requester ∈ members
  | _ => True

instance (members : List UserId) : ∀ e, Decidable (ByMember members e)
  | .request requester .. => inferInstanceAs (Decidable (requester ∈ members))
  | .release requester .. => inferInstanceAs (Decidable (requester ∈ members))
  | .act .. | .deliver .. => isTrue trivial

/-- The handler of the `i`-th call takes `n` steps. -/
def acts (i n : Nat) : List Event := List.replicate n (.act i 0)

theorem views_agree_in_handover :
    Agreed ["A", "B"] (run (advance "r" ["A", "B"]) (opened .default 1 2)
      ([.request "A" 1 none 0] ++ acts 0 4 ++ [.request "B" 2 none 1, .deliver "B"] ++ acts 1 1 ++
        [.release "A" 3 2] ++ acts 2 10 ++
        [.deliver "A", .deliver "A", .deliver "B", .deliver "B", .deliver "B"])) :=
  views_agree_in_order .default 1 2 _ (by decide) (by decide)

/-- "A" releases and "B" is granted the idle floor, but the effects of the release come
    last: "B" has the floor, and nobody knows. -/
theorem release_overtaken : ¬ ∀ (config : FloorConfig) (audioSsrc videoSsrc : UInt32)
    (roomId : RoomId) (members : List UserId) (es : List Event), (∀ e ∈ es, ByMember members e) →
    Settled members (run (advance roomId members) (opened config audioSsrc videoSsrc) es) →
    Agreed members (run (advance roomId members) (opened config audioSsrc videoSsrc) es) := by
  intro agree
  have agreed := agree .default 1 2 "r" ["A", "B"]
    ([.request "A" 1 none 0] ++ acts 0 4 ++ [.deliver "B", .release "A" 2 1, .request "B" 3 none 2] ++
      acts 2 4 ++ acts 1 5 ++ [.deliver "A", .deliver "A", .deliver "B"]) (by decide) (by decide)
  exact absurd agreed.audio (by decide)

end FloorViews
