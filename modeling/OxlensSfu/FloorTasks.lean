import OxlensSfu.FloorHandlers

/-
A WS floor handler as the list of effects it performs once its floor call has returned:
rewriter updates, messages to members, and its reply. Performed without interruption the
list does what the handler does.
-/
namespace FloorTasks
open SfuConfig FloorControl PttRewriter KeyedMap Participants RoomHubs Signaling FloorHandlers

/-- What reaches a member: events through its channel, replies past it. -/
inductive Received where
  | event (e : WsEvent)
  | reply (r : Reply)
  deriving DecidableEq, Repr

/-- One step of a WS floor handler after its floor call. -/
inductive Effect where
  | switchAudio (speaker : UserId)
  | switchVideo (speaker : UserId)
  | clearAudio
  | clearVideo
  | push (member : UserId) (event : WsEvent)
  | answer (member : UserId) (reply : Reply)
  deriving DecidableEq, Repr

inductive Target where
  | audio
  | video
  | client (member : UserId)
  deriving DecidableEq, Repr

/-- The speaker that a message tells of, if it tells of the floor. -/
def news : Received → Option (Option UserId)
  | .event (.floorTaken _ speaker _) => some (some speaker)
  | .event (.floorGranted speaker _ _) => some (some speaker)
  | .event (.floorIdle _ _ _) => some none
  | .reply (.ok _ _ (.granted speaker _ _)) => some (some speaker)
  | _ => none

/-- The speaker a member knows of: the last one announced or granted to it. -/
def view (known : Option UserId) (r : Received) : Option UserId := (news r).getD known

/-- What an effect tells of the floor; other messages have no target. -/
def Effect.target : Effect → Option Target
  | .switchAudio _ => some .audio
  | .switchVideo _ => some .video
  | .clearAudio => some .audio
  | .clearVideo => some .video
  | .push member event => if (news (.event event)).isSome then some (.client member) else none
  | .answer member reply => if (news (.reply reply)).isSome then some (.client member) else none

def learn (known : Option UserId) : Effect → Option UserId
  | .switchAudio speaker => some speaker
  | .switchVideo speaker => some speaker
  | .clearAudio => none
  | .clearVideo => none
  | .push _ event => view known (.event event)
  | .answer _ reply => view known (.reply reply)

section Handlers
variable (roomId : RoomId) (members : List UserId) (requester : UserId) (pid : Nat)

def broadcast (receivers : List UserId) (event : WsEvent) : List Effect :=
  receivers.map (.push · event)

def pushTo (member : UserId) (event : WsEvent) : List Effect :=
  if member ∈ members then [.push member event] else []

/-- The effects of FLOOR_REQUEST for one action. -/
def requestEffects : FloorAction → List Effect
  | .granted speaker priority _ =>
    [.switchAudio speaker, .switchVideo speaker] ++
      broadcast (members.filter (· ≠ requester)) (.floorTaken roomId speaker priority)
  | .revoked prevSpeaker cause => pushTo members prevSpeaker (.floorRevoke roomId cause)
  | _ => []

/-- The response of FLOOR_REQUEST after one more action. -/
def requestReply (response : Reply) : FloorAction → Reply
  | .granted speaker priority durationS =>
    if speaker = requester then .ok opFloorRequest pid (.granted speaker priority durationS)
    else response
  | .queued _ position priority queueSize =>
    .ok opFloorRequest pid (.queued position priority queueSize)
  | .denied reason currentSpeaker =>
    .err opFloorRequest pid 2010 (reason ++ " (speaker=" ++ currentSpeaker ++ ")")
  | _ => response

def requestTask (actions : List FloorAction) : List Effect :=
  actions.flatMap (requestEffects roomId members requester) ++
    [.answer requester
      (actions.foldl (requestReply requester pid) (.ok opFloorRequest pid .empty))]

/-- The effects of FLOOR_RELEASE for one action, after the rewriters were cleared. -/
def releaseEffects : FloorAction → List Effect
  | .granted speaker priority durationS =>
    [.switchAudio speaker, .switchVideo speaker] ++
      broadcast members (.floorTaken roomId speaker priority) ++
      (if speaker ≠ requester then
        pushTo members speaker (.floorGranted speaker priority durationS) else [])
  | .released prevSpeaker => broadcast members (.floorIdle roomId prevSpeaker none)
  | .revoked prevSpeaker cause =>
    pushTo members prevSpeaker (.floorRevoke roomId cause) ++
      broadcast members (.floorIdle roomId prevSpeaker (some cause))
  | _ => []

def flushEffects : FloorAction → List Effect
  | .released _ => [.clearAudio, .clearVideo]
  | _ => []

def releaseReply (response : Reply) : FloorAction → Reply
  | .denied reason currentSpeaker =>
    .err opFloorRelease pid 2010 (reason ++ " (speaker=" ++ currentSpeaker ++ ")")
  | _ => response

def releaseTask (actions : List FloorAction) : List Effect :=
  actions.flatMap flushEffects ++ actions.flatMap (releaseEffects roomId members requester) ++
    [.answer requester (actions.foldl (releaseReply pid) (.ok opFloorRelease pid .empty))]

end Handlers

section Atomic
variable (arcs : Ptr → Participant) (room : Room) (clk : Nat → Instant)

/-- An effect on the room of a handler that is not interrupted. -/
def onRun (run : FloorRun) : Effect → FloorRun
  | .switchAudio speaker =>
    { run with
      ptt := { run.ptt with
        audioRewriter := switchSpeaker run.ptt.audioRewriter speaker (clk run.reads) }
      reads := run.reads + 1 }
  | .switchVideo speaker =>
    { run with
      ptt := { run.ptt with
        videoRewriter := switchSpeaker run.ptt.videoRewriter speaker (clk run.reads) }
      reads := run.reads + 1 }
  | .clearAudio =>
    { run with
      ptt := { run.ptt with
        audioRewriter := (clearSpeaker run.ptt.audioRewriter (clk run.reads)).1 }
      reads := run.reads + 1 }
  | .clearVideo =>
    { run with
      ptt := { run.ptt with
        videoRewriter := (clearSpeaker run.ptt.videoRewriter (clk run.reads)).1 }
      reads := run.reads + 1 }
  | .push member event => sendTo arcs room run member event
  | .answer _ _ => run

/-- The same floor, rewriters, messages and clock readings; the heap is left out. -/
def SameRun (a b : FloorRun) : Prop := ∃ heap, b = { a with heap := heap }

variable {arcs room clk} {a b : FloorRun}

theorem sameRun_sendTo (same : SameRun a b) (u : UserId) (event : WsEvent) :
    SameRun (sendTo arcs room a u event) (sendTo arcs room b u event) := by
  obtain ⟨heap, rfl⟩ := same
  unfold sendTo
  split
  · exact ⟨heap, rfl⟩
  · exact ⟨heap, rfl⟩

theorem sameRun_onParticipant (same : SameRun a b) (u : UserId)
    (f : ParticipantState → ParticipantState) : SameRun a (onParticipant room b u f) := by
  obtain ⟨heap, rfl⟩ := same
  unfold onParticipant
  split
  · exact ⟨_, rfl⟩
  · exact ⟨heap, rfl⟩

theorem sameRun_send (same : SameRun a b) (events : Outbox) :
    SameRun (send a events) (send b events) := by
  obtain ⟨heap, rfl⟩ := same
  exact ⟨heap, rfl⟩

/-- Both switches of a grant, then its announcement. -/
theorem sameRun_grant (same : SameRun a b) (speaker : UserId) (announce : Outbox) :
    SameRun (send (switchRewriters clk a speaker) announce)
      (grant room clk b speaker announce) := by
  obtain ⟨heap, rfl⟩ := same
  apply sameRun_send
  exact sameRun_onParticipant ⟨heap, rfl⟩ speaker _

/-- One message to every listed member of the room. -/
theorem broadcast_run {entries : List (Sigma fun _ : UserId => Ptr)}
    (inside : ∀ e ∈ entries, room.participants.lookup e.1 = some e.2) (event : WsEvent)
    (run : FloorRun) :
    (broadcast (entries.map Sigma.fst) event).foldl (onRun arcs room clk) run =
      send run (entries.map fun e => ((arcs e.2).wsTx, event)) := by
  induction entries generalizing run with
  | nil => simp [broadcast, send]
  | cons e entries ih =>
    have found : room.getParticipant e.1 = some e.2 := inside e List.mem_cons_self
    have head : onRun arcs room clk run (.push e.1 event) = send run [((arcs e.2).wsTx, event)] := by
      simp [onRun, sendTo, found]
    have tail := ih (fun f member => inside f (List.mem_cons_of_mem _ member))
      (send run [((arcs e.2).wsTx, event)])
    have split : (broadcast ((e :: entries).map Sigma.fst) event).foldl (onRun arcs room clk) run =
        (broadcast (entries.map Sigma.fst) event).foldl (onRun arcs room clk)
          (onRun arcs room clk run (.push e.1 event)) := rfl
    rw [split, head, tail]
    simp [send]

theorem lookup_entries : ∀ e ∈ room.participants.entries, room.participants.lookup e.1 = some e.2 :=
  fun _ member => AList.mem_lookup_iff.mpr member

theorem broadcast_room (event : WsEvent) (run : FloorRun) :
    (broadcast room.participants.keys event).foldl (onRun arcs room clk) run =
      send run (broadcastToRoom arcs room event) := by
  refine (broadcast_run lookup_entries event run).trans ?_
  rw [broadcastToRoom, values, List.map_map]
  rfl

theorem broadcast_others (exclude : UserId) (event : WsEvent) (run : FloorRun) :
    (broadcast (room.participants.keys.filter (· ≠ exclude)) event).foldl (onRun arcs room clk) run =
      send run (broadcastToOthers arcs room exclude event) := by
  have keys : room.participants.keys.filter (· ≠ exclude) =
      (room.participants.entries.filter (·.1 ≠ exclude)).map Sigma.fst := by
    rw [AList.keys, List.keys, List.filter_map]
    rfl
  rw [keys, broadcast_run fun e member => lookup_entries e (List.mem_of_mem_filter member),
    broadcastToOthers, Room.otherParticipants, toList, List.filter_map, List.map_map,
    List.map_map]
  rfl

theorem pushTo_run (u : UserId) (event : WsEvent) (run : FloorRun) :
    (pushTo room.participants.keys u event).foldl (onRun arcs room clk) run =
      sendTo arcs room run u event := by
  unfold pushTo
  split
  · rfl
  · rename_i absent
    have none : room.getParticipant u = none := AList.lookup_eq_none.mpr absent
    simp [sendTo, none]

theorem requestEffects_run (same : SameRun a b) (u : UserId) (pid : Nat) (response : Reply)
    (action : FloorAction) :
    SameRun ((requestEffects room.id room.participants.keys u action).foldl (onRun arcs room clk) a)
        (floorRequestAction arcs room clk u pid (b, response) action).1 ∧
      (floorRequestAction arcs room clk u pid (b, response) action).2 =
        requestReply u pid response action := by
  cases action with
  | granted speaker priority durationS =>
    refine ⟨?_, rfl⟩
    rw [requestEffects, List.foldl_append, broadcast_others]
    exact sameRun_grant same speaker _
  | revoked prevSpeaker cause =>
    refine ⟨?_, rfl⟩
    rw [requestEffects, pushTo_run]
    exact sameRun_sendTo (sameRun_onParticipant same prevSpeaker _) prevSpeaker _
  | _ => exact ⟨same, rfl⟩

theorem releaseEffects_run (same : SameRun a b) (u : UserId) (pid : Nat) (response : Reply)
    (action : FloorAction) :
    SameRun ((releaseEffects room.id room.participants.keys u action).foldl (onRun arcs room clk) a)
        (applyFloorAction arcs room clk opFloorRelease pid u (b, response) action).1 ∧
      (applyFloorAction arcs room clk opFloorRelease pid u (b, response) action).2 =
        releaseReply pid response action := by
  cases action with
  | granted speaker priority durationS =>
    refine ⟨?_, rfl⟩
    rw [releaseEffects, List.foldl_append, List.foldl_append, broadcast_room]
    have granted := @sameRun_grant room clk _ _ same speaker
      (broadcastToRoom arcs room (.floorTaken room.id speaker priority))
    simp only [applyFloorAction]
    split
    · rw [pushTo_run]
      exact sameRun_sendTo granted speaker _
    · exact granted
  | released prevSpeaker =>
    refine ⟨?_, rfl⟩
    rw [releaseEffects, broadcast_room]
    exact sameRun_send same _
  | revoked prevSpeaker cause =>
    refine ⟨?_, rfl⟩
    rw [releaseEffects, List.foldl_append, pushTo_run, broadcast_room]
    exact sameRun_send (sameRun_sendTo (sameRun_onParticipant same prevSpeaker _) prevSpeaker _) _
  | _ => exact ⟨same, rfl⟩

/-- What holds for one action of a handler holds for all of them. -/
theorem fold_run {effects : FloorAction → List Effect}
    {handler : FloorRun × Reply → FloorAction → FloorRun × Reply}
    {reply : Reply → FloorAction → Reply}
    (one : ∀ {a b : FloorRun}, SameRun a b → ∀ (response : Reply) (action : FloorAction),
      SameRun ((effects action).foldl (onRun arcs room clk) a) (handler (b, response) action).1 ∧
        (handler (b, response) action).2 = reply response action)
    (same : SameRun a b) (acts : List FloorAction) (response : Reply) :
    SameRun ((acts.flatMap effects).foldl (onRun arcs room clk) a)
        (acts.foldl handler (b, response)).1 ∧
      (acts.foldl handler (b, response)).2 = acts.foldl reply response := by
  induction acts generalizing a b response with
  | nil => exact ⟨same, rfl⟩
  | cons action acts ih =>
    obtain ⟨next, replied⟩ := one same response action
    have rest := ih next (reply response action)
    rw [← replied] at rest
    rw [List.flatMap_cons, List.foldl_append, List.foldl_cons, List.foldl_cons, ← replied]
    exact rest

theorem flush_run (same : SameRun a b) (acts : List FloorAction) :
    SameRun ((acts.flatMap flushEffects).foldl (onRun arcs room clk) a)
      (flushReleased (flushPttSilence room clk) b acts) := by
  induction acts generalizing a b with
  | nil => exact same
  | cons action acts ih =>
    rw [List.flatMap_cons, List.foldl_append, flushReleased, List.foldl_cons]
    apply ih
    cases action with
    | released prevSpeaker =>
      obtain ⟨heap, rfl⟩ := same
      exact ⟨_, rfl⟩
    | _ => exact same

/-- An uninterrupted FLOOR_REQUEST does what its handler does. -/
theorem requestTask_run (heap : Heap) (u : UserId) (pid : Nat) (priority : Option UInt8)
    (now : Nat) :
    let called := floorOp room.toPttState (.request u (priority.getD floorDefaultPriority) now)
    let task := requestTask room.id room.participants.keys u pid called.2
    let done := handleFloorRequest arcs room heap clk u pid priority now
    SameRun (task.foldl (onRun arcs room clk) (begin_ called.1 heap)) done.1 ∧
      task.getLast? = some (.answer u done.2) := by
  intro called task done
  obtain ⟨same, reply⟩ := fold_run (fun same => requestEffects_run same u pid)
    (show SameRun (begin_ called.1 heap) (begin_ called.1 heap) from ⟨heap, rfl⟩) called.2
    (.ok opFloorRequest pid .empty)
  refine ⟨?_, ?_⟩
  · simp only [task, requestTask, List.foldl_append]
    exact same
  · simp only [task, requestTask, List.getLast?_append, List.getLast?_singleton, Option.some_or,
      ← reply]
    rfl

/-- An uninterrupted FLOOR_RELEASE does what its handler does. -/
theorem releaseTask_run (heap : Heap) (u : UserId) (pid grantMs : Nat) :
    let called := floorOp room.toPttState (.release u grantMs)
    let task := releaseTask room.id room.participants.keys u pid called.2
    let done := handleFloorRelease arcs room heap clk u pid grantMs
    SameRun (task.foldl (onRun arcs room clk) (begin_ called.1 heap)) done.1 ∧
      task.getLast? = some (.answer u done.2) := by
  intro called task done
  have flushed := @flush_run arcs room clk _ _
    (show SameRun (begin_ called.1 heap) (begin_ called.1 heap) from ⟨heap, rfl⟩) called.2
  obtain ⟨same, reply⟩ := fold_run (fun same => releaseEffects_run same u pid) flushed called.2
    (.ok opFloorRelease pid .empty)
  refine ⟨?_, ?_⟩
  · simp only [task, releaseTask, List.foldl_append]
    exact same
  · simp only [task, releaseTask, List.getLast?_append, List.getLast?_singleton, Option.some_or,
      ← reply]
    rfl

end Atomic
end FloorTasks
