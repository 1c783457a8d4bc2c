import OxlensSfu.PacketSteps
import OxlensSfu.Interleaving

/-
What a client reads from its connection. Replies are written at once and pushes wait in the
channel, so that a reply may overtake a push; but each of the two keeps its order.
-/
namespace PacketOrder
open WireBytes SfuConfig GuardedRun StepRefinement Interleaving KeyedMap Participants RoomHubs
open Signaling FloorHandlers RoomHandlers TrackHandlers TracksAck PacketDispatch PacketSteps
open FloorControl (UserId FloorAction)
open PttRewriter (Instant)

/-- The opcode and the pid that a packet carries. -/
def names (packet : Packet) : UInt16 × Nat := (packet.op, packet.pid)

def replyNames : Reply → UInt16 × Nat
  | .ok op pid _ => (op, pid)
  | .err op pid _ _ => (op, pid)

theorem names_ofReply (reply : Reply) : names (.ofReply reply) = replyNames reply := by
  cases reply <;> rfl

section Replies
variable (hub : RoomHub) (session : Session) (pid : Nat) (u : UserId)

theorem applyFloorActions_names (arcs : Ptr → Participant) (room : Room) (clk : Nat → Instant)
    (op : UInt16) (requester : UserId) (run : FloorRun) (actions : List FloorAction) :
    replyNames (applyFloorActions arcs room clk op pid requester run actions).2 = (op, pid) := by
  have each : ∀ (actions : List FloorAction) (state : FloorRun × Reply),
      replyNames state.2 = (op, pid) →
      replyNames (actions.foldl (applyFloorAction arcs room clk op pid requester) state).2 =
        (op, pid) := by
    intro actions
    induction actions with
    | nil => exact fun _ named => named
    | cons action actions ih =>
      intro state named
      refine ih _ ?_
      cases action with
      | denied reason speaker => rfl
      | _ => exact named
  exact each actions _ rfl

theorem handleFloorRequest_names (arcs : Ptr → Participant) (room : Room) (heap : Heap)
    (clk : Nat → Instant) (priority : Option UInt8) (now : Nat) :
    replyNames (handleFloorRequest arcs room heap clk u pid priority now).2 =
      (opFloorRequest, pid) := by
  have each : ∀ (actions : List FloorAction) (state : FloorRun × Reply),
      replyNames state.2 = (opFloorRequest, pid) →
      replyNames (actions.foldl (floorRequestAction arcs room clk u pid) state).2 =
        (opFloorRequest, pid) := by
    intro actions
    induction actions with
    | nil => exact fun _ named => named
    | cons action actions ih =>
      intro state named
      refine ih _ ?_
      cases action with
      | granted speaker priority durationS =>
        simp only [floorRequestAction]
        split
        · rfl
        · exact named
      | queued _ position priority size => rfl
      | denied reason speaker => rfl
      | _ => exact named
  exact each _ _ rfl

theorem onFloor_names {op : UInt16} {found : Except Reply (RoomId × Room)}
    {handler : Room → FloorRun × Reply}
    (refused : ∀ reply, found = .error reply → replyNames reply = (op, pid))
    (handled : ∀ room, replyNames (handler room).2 = (op, pid)) :
    replyNames (Servers.onFloor hub session found handler).reply = (op, pid) := by
  unfold Servers.onFloor
  split
  · rename_i reply
    exact refused reply rfl
  · exact handled _

theorem floorRoom_names (op : UInt16) (roomId : Option RoomId) (reply : Reply)
    (refused : Servers.floorRoom hub op pid roomId = .error reply) :
    replyNames reply = (op, pid) := by
  unfold Servers.floorRoom at refused
  split at refused
  · cases refused
    rfl
  split at refused
  · cases refused
    rfl
  · cases refused

theorem pttRoom_names (op : UInt16) (roomId : Option RoomId) (reply : Reply)
    (refused : Servers.pttRoom hub op pid roomId = .error reply) :
    replyNames reply = (op, pid) := by
  unfold Servers.pttRoom at refused
  split at refused
  · rename_i first found
    cases refused
    exact floorRoom_names hub pid op roomId reply found
  split at refused
  · cases refused
  · cases refused
    rfl

theorem handleRoomJoin_names (roomId : Option RoomId) (o : Oracle) :
    replyNames (handleRoomJoin hub session pid u roomId o).reply = (opRoomJoin, pid) := by
  unfold handleRoomJoin
  repeat' split
  all_goals rfl

theorem handleRoomLeave_names (roomId : Option RoomId) (o : Oracle) :
    replyNames (handleRoomLeave hub session pid u roomId o).reply = (opRoomLeave, pid) := by
  unfold handleRoomLeave
  split
  · rfl
  simp only
  split
  · rfl
  · rfl

theorem inRoom_names (op : UInt16) (reply : Reply)
    (refused : inRoom hub session u op pid = .error reply) : replyNames reply = (op, pid) := by
  unfold inRoom at refused
  split at refused
  · cases refused
    rfl
  split at refused
  · cases refused
    rfl
  split at refused
  · cases refused
    rfl
  · cases refused

theorem handlePublishTracks_names (d : Option PublishTracksRequest) (draws : Ptr → NonzeroSsrc) :
    replyNames (handlePublishTracks hub session pid u d draws).reply = (opPublishTracks, pid) := by
  unfold handlePublishTracks
  split
  · rfl
  split
  · rename_i reply refused
    exact inRoom_names hub session pid u opPublishTracks reply refused
  · rfl

theorem handleSubscribeLayer_names (targets : Option (List SubscribeLayerTarget))
    (draws : Ptr → NonzeroSsrc) (now : Instant) :
    replyNames (handleSubscribeLayer hub session pid u targets draws now).reply =
      (opSubscribeLayer, pid) := by
  unfold handleSubscribeLayer
  repeat' split
  all_goals rfl

/-- Every reply names its request. -/
theorem plain_names (req : Request) (o : Oracle) :
    replyNames (Servers.dispatch hub session pid req o).reply = (req.op, pid) := by
  cases user : session.userId with
  | none =>
    cases req with
    | identify d => cases d <;> rfl
    | _ =>
      simp only [Servers.dispatch, user]
      rfl
  | some u =>
    cases req with
    | heartbeat => rfl
    | identify d => cases d <;> rfl
    | roomCreate d => cases d <;> simp only [Servers.dispatch, user] <;> rfl
    | roomJoin roomId =>
      simp only [Servers.dispatch, user]
      exact handleRoomJoin_names hub session pid u roomId o
    | roomLeave roomId =>
      simp only [Servers.dispatch, user]
      exact handleRoomLeave_names hub session pid u roomId o
    | publishTracks d =>
      simp only [Servers.dispatch, user]
      exact handlePublishTracks_names hub session pid u d o.vssrc
    | floorRequest d =>
      simp only [Servers.dispatch, user]
      exact onFloor_names hub session pid (pttRoom_names hub pid opFloorRequest _)
        fun room => handleFloorRequest_names pid u _ room _ _ _ _
    | floorRelease roomId =>
      simp only [Servers.dispatch, user]
      exact onFloor_names hub session pid (pttRoom_names hub pid opFloorRelease _)
        fun room => applyFloorActions_names pid _ room _ _ _ _ _
    | floorPing roomId =>
      simp only [Servers.dispatch, user]
      refine onFloor_names hub session pid (floorRoom_names hub pid opFloorPing _) fun room => ?_
      simp only [handleFloorPing]
      split
      · rfl
      · rfl
    | subscribeLayer targets =>
      simp only [Servers.dispatch, user]
      exact handleSubscribeLayer_names hub session pid u targets o.vssrc _

end Replies

section Answers

/-- A session that has identified gets no reply to TELEMETRY. -/
def Unanswered (session : Session) : Body → Prop
  | .telemetry _ => session.userId.isSome
  | _ => False

instance (session : Session) : DecidablePred (Unanswered session)
  | .telemetry _ => inferInstanceAs (Decidable (session.userId.isSome = true))
  | .plain _ | .roomList | .tracksAck _ | .muteUpdate _ | .cameraReady _ | .message _ | .roomSync
  | .floorQueuePos _ | .unknown _ => isFalse id

variable (hub : RoomHub) (session : Session) (pid : Nat)

theorem currentRoom_refused {α : Type} {op : UInt16} {payload : Option α} {packet : Packet}
    (refused : currentRoom hub session op pid payload = .error packet) :
    names packet = (op, pid) := by
  unfold currentRoom at refused
  split at refused
  · cases refused
    rfl
  split at refused
  · cases refused
    rfl
  split at refused
  · cases refused
    rfl
  · cases refused

theorem seat_refused {α : Type} {op : UInt16} {u : UserId} {payload : Option α} {packet : Packet}
    (refused : seat hub session op pid u payload = .error packet) : names packet = (op, pid) := by
  unfold seat at refused
  split at refused
  · rename_i first found
    cases refused
    exact currentRoom_refused hub session pid found
  split at refused
  · cases refused
    rfl
  · cases refused

/-- One packet answers, under the opcode and the pid that were asked. -/
def Answers (op : UInt16) (pid : Nat) (out : Handled) : Prop :=
  out.reply.toList.map names = [(op, pid)]

theorem answered_answers {op : UInt16} {packet : Packet} (named : names packet = (op, pid)) :
    Answers op pid (answered hub session packet) := congrArg (fun n => [n]) named

theorem handleAck_answers (u : UserId) (ssrcs : Option (List UInt32)) (draws : Ptr → NonzeroSsrc) :
    Answers opTracksAck pid (handleAck hub session pid u ssrcs draws) := by
  have named : names (.ofAck (handleTracksAck hub session pid u ssrcs draws).reply) =
      (opTracksAck, pid) := by
    unfold handleTracksAck
    split
    · rfl
    split
    · rfl
    split
    · rfl
    simp only
    split
    · rfl
    · rfl
  exact congrArg (fun n => [n]) named

theorem handleMuteUpdate_answers (u : UserId) (d : Option MuteUpdateRequest) :
    Answers opMuteUpdate pid (handleMuteUpdate hub session pid u d) := by
  unfold handleMuteUpdate
  split
  · rename_i refused
    exact answered_answers hub session pid (seat_refused hub session pid refused)
  split
  · rfl
  · rfl

theorem handleCameraReady_answers (u : UserId) (d : Option RoomId) :
    Answers opCameraReady pid (handleCameraReady hub session pid u d) := by
  unfold handleCameraReady
  split
  · rename_i refused
    exact answered_answers hub session pid (seat_refused hub session pid refused)
  simp only
  split
  · rfl
  · rfl

theorem handleMessage_answers (u : UserId) (d : Option MessageRequest) (msgId : String) :
    Answers opMessage pid (handleMessage hub session pid u d msgId) := by
  unfold handleMessage
  split
  · rfl
  · rfl

theorem handleRoomSync_answers (u : UserId) (draws : Ptr → NonzeroSsrc) :
    Answers opRoomSync pid (handleRoomSync hub session pid u draws) := by
  unfold handleRoomSync
  split
  · rename_i refused
    exact answered_answers hub session pid (currentRoom_refused hub session pid refused)
  · rfl

theorem handleFloorQueuePos_answers (u : UserId) (roomId : Option RoomId) :
    Answers opFloorQueuePos pid (handleFloorQueuePos hub session pid u roomId) := by
  refine answered_answers hub session pid ?_
  split
  · rename_i reply refused
    rw [names_ofReply]
    exact floorRoom_names hub pid opFloorQueuePos roomId reply refused
  · rfl

/-- What `dispatch` answers: once, and with what was asked. -/
theorem dispatch_answers (body : Body) (o : Oracle) :
    (dispatch hub session pid body o).reply.toList.map names =
      if Unanswered session body then [] else [(body.op, pid)] := by
  by_cases silent : Unanswered session body
  · rw [if_pos silent]
    cases body with
    | telemetry data =>
      obtain ⟨u, user⟩ := Option.isSome_iff_exists.mp silent
      simp only [dispatch, user]
      rfl
    | _ => exact silent.elim
  · rw [if_neg silent]
    cases body with
    | plain req =>
      simp only [dispatch, ofHandler, Option.toList_some, List.map_singleton, names_ofReply,
        plain_names, Body.op]
    | _ =>
      cases user : session.userId with
      | none =>
        simp only [dispatch, user]
        rfl
      | some u =>
        simp only [dispatch, user]
        first
        | rfl
        | exact handleAck_answers hub session pid u _ o.vssrc
        | exact handleMuteUpdate_answers hub session pid u _
        | exact handleCameraReady_answers hub session pid u _
        | exact handleMessage_answers hub session pid u _ o.uuid
        | exact handleRoomSync_answers hub session pid u o.vssrc
        | exact handleFloorQueuePos_answers hub session pid u _
        | exact absurd (Option.isSome_iff_exists.mpr ⟨u, user⟩) silent

end Answers

section Order
variable (hmacSha1 : Bytes → Bytes → Bytes) (crc32 : Bytes → UInt32) (conn : ConnId)

/-- What a step puts into the channels. -/
def pushesOf (s : WsServer) : Event → Pushes
  | .background e => ofOutbox (Servers.step hmacSha1 crc32 s.server e).sent
  | .text conn _ (.request pid body o) =>
    match s.sessions conn with
    | some session => (dispatch s.hub session pid body o).pushes
    | none => []
  | .heartbeatTimer conn nowMs o =>
    if (s.sessions conn).isSome ∧ heartbeatTimeoutMs < nowMs - s.lastActivity conn then
      ofOutbox (Servers.step hmacSha1 crc32 s.server (.close conn o)).sent
    else []
  | .close conn o =>
    if (s.sessions conn).isSome then
      ofOutbox (Servers.step hmacSha1 crc32 s.server (.close conn o)).sent
    else []
  | _ => []

/-- What of it reaches a connection that is open. -/
def arrivals (s : WsServer) (e : Event) : List Packet :=
  if ((PacketDispatch.step hmacSha1 crc32 s e).sessions conn).isSome then
    pushedTo (pushesOf hmacSha1 crc32 s e) conn
  else []

/-- What is written to the connection at once: HELLO and the replies. -/
def repliesOf (s : WsServer) : Event → List Packet
  | .connect _ =>
    if s.nextConn = conn then [.new opHello 1 (.hello heartbeatIntervalMs)] else []
  | .text asking _ (.request pid body o) =>
    match s.sessions asking with
    | some session =>
      if asking = conn then (dispatch s.hub session pid body o).reply.toList else []
    | none => []
  | _ => []

/-- HELLO has pid 1; and a reply answers a request. -/
def asksOf (s : WsServer) : Event → List (UInt16 × Nat)
  | .connect _ => if s.nextConn = conn then [(opHello, 1)] else []
  | .text asking _ (.request pid body _) =>
    match s.sessions asking with
    | some session =>
      if asking = conn ∧ ¬ Unanswered session body then [(body.op, pid)] else []
    | none => []
  | _ => []

theorem repliesOf_names (s : WsServer) (e : Event) :
    (repliesOf conn s e).map names = asksOf conn s e := by
  cases e with
  | connect nowMs =>
    simp only [repliesOf, asksOf]
    split
    · rfl
    · rfl
  | text asking nowMs frame =>
    cases frame with
    | request pid body o =>
      simp only [repliesOf, asksOf]
      split
      · rename_i session _
        by_cases here : asking = conn
        · rw [if_pos here, dispatch_answers]
          by_cases silent : Unanswered session body
          · simp [silent]
          · simp [silent, here]
        · simp [here]
      · rfl
    | _ => rfl
  | _ => rfl

/-- What is kept of one connection: what it has written is made of its replies and of what has
    arrived for it, as far as that was taken out of the channel. -/
structure Kept (s : WsServer) (replies arrived : List Packet) : Prop where
  written : ∃ written, Interleaves replies written (s.wire conn) ∧ written <+: arrived ∧
    ((s.sessions conn).isSome → written ++ s.channel conn = arrived)
  fresh : s.nextConn ≤ conn →
    s.sessions conn = none ∧ s.channel conn = [] ∧ arrived = []

section Moves
variable {conn} {s next : WsServer} {replies arrived : List Packet}

theorem Kept.congr (kept : Kept conn s replies arrived) (wire : next.wire conn = s.wire conn)
    (channel : next.channel conn = s.channel conn)
    (sessions : (next.sessions conn).isSome = (s.sessions conn).isSome)
    (nextConn : next.nextConn = s.nextConn) : Kept conn next replies arrived := by
  constructor
  · rw [wire, channel, sessions]
    exact kept.written
  · rw [nextConn, channel]
    intro later
    obtain ⟨closed, rest⟩ := kept.fresh later
    rw [closed] at sessions
    exact ⟨Option.isSome_eq_false_iff.mp sessions |> Option.isNone_iff_eq_none.mp, rest⟩

theorem Kept.pushed (kept : Kept conn s replies arrived) (pushes : Pushes) :
    Kept conn (push s pushes) replies
      (arrived ++ if (s.sessions conn).isSome then pushedTo pushes conn else []) := by
  obtain ⟨written, merged, before, opened⟩ := kept.written
  constructor
  · refine ⟨written, merged, before.trans (List.prefix_append _ _), fun here => ?_⟩
    have here : (s.sessions conn).isSome := here
    simp only [push, here, if_true]
    rw [← List.append_assoc, opened here]
  · intro later
    obtain ⟨closed, empty, none_⟩ := kept.fresh later
    simp [push, closed, empty, none_]

theorem Kept.replied (kept : Kept conn s replies arrived) (target : ConnId)
    (packets : List Packet) :
    Kept conn (write s target packets) (replies ++ if target = conn then packets else [])
      arrived := by
  obtain ⟨written, merged, rest⟩ := kept.written
  refine ⟨⟨written, ?_, rest⟩, kept.fresh⟩
  by_cases here : target = conn
  · subst here
    simp only [write, Function.update_self, if_true]
    have more := merged.append (Interleaves.of_left packets)
    rwa [List.append_nil] at more
  · simp only [write, Function.update_of_ne (Ne.symm here), here, if_false, List.append_nil]
    exact merged

/-- One packet is taken out of the channel and written. -/
theorem Kept.drained (kept : Kept conn s replies arrived) (target : ConnId) {packet : Packet}
    {rest : List Packet} (opened : (s.sessions target).isSome)
    (queued : s.channel target = packet :: rest) :
    Kept conn (write { s with channel := Function.update s.channel target rest } target [packet])
      replies arrived := by
  by_cases here : target = conn
  · subst here
    obtain ⟨written, merged, _, whole⟩ := kept.written
    have all : (written ++ [packet]) ++ rest = arrived := by
      rw [← whole opened, queued, List.append_assoc]
      rfl
    constructor
    · refine ⟨written ++ [packet], ?_, ⟨rest, all⟩, fun _ => ?_⟩
      · simp only [write, Function.update_self]
        have more := merged.append (Interleaves.of_right [packet])
        rwa [List.append_nil] at more
      · simp only [write, Function.update_self]
        exact all
    · intro later
      rw [(kept.fresh later).1] at opened
      cases opened
  · exact kept.congr (Function.update_of_ne (Ne.symm here) _ _)
      (Function.update_of_ne (Ne.symm here) _ _) rfl rfl

/-- The connection is gone. -/
theorem Kept.closed (kept : Kept conn s replies arrived) (wire : next.wire conn = s.wire conn)
    (gone : next.sessions conn = none) (empty : next.channel conn = [])
    (nextConn : next.nextConn = s.nextConn) : Kept conn next replies arrived := by
  obtain ⟨written, merged, before, _⟩ := kept.written
  constructor
  · rw [wire]
    refine ⟨written, merged, before, fun opened => ?_⟩
    rw [gone] at opened
    cases opened
  · rw [nextConn]
    exact fun later => ⟨gone, empty, (kept.fresh later).2.2⟩

end Moves

theorem background_sessions (s : Servers.Server) {e : Servers.Event} (background : Background e) :
    (Servers.step hmacSha1 crc32 s e).sessions = s.sessions ∧
      (Servers.step hmacSha1 crc32 s e).nextConn = s.nextConn := by
  cases e with
  | connect => exact background.elim
  | request conn pid req o => exact background.elim
  | close conn o => exact background.elim
  | _ => exact ⟨rfl, rfl⟩

theorem close_sessions (s : Servers.Server) (target : ConnId) (o : Oracle) :
    (Servers.step hmacSha1 crc32 s (.close target o)).sessions =
        Function.update s.sessions target none ∧
      (Servers.step hmacSha1 crc32 s (.close target o)).nextConn = s.nextConn := by
  simp only [Servers.step, Servers.close]
  split
  · rename_i closed
    exact ⟨by rw [← closed, Function.update_eq_self], rfl⟩
  · exact ⟨rfl, rfl⟩

theorem finish_kept {s : WsServer} {replies arrived : List Packet}
    (kept : Kept conn s replies arrived) (target : ConnId) (o : Oracle) :
    let next := finish hmacSha1 crc32 s target o
    let sent := ofOutbox (Servers.step hmacSha1 crc32 s.server (.close target o)).sent
    Kept conn next replies
      (arrived ++ if (next.sessions conn).isSome then pushedTo sent conn else []) := by
  intro next sent
  obtain ⟨sessions, nextConn⟩ := close_sessions hmacSha1 crc32 s.server target o
  have after : next.sessions = Function.update s.sessions target none := sessions
  by_cases here : target = conn
  · subst here
    have gone : next.sessions target = none := by rw [after, Function.update_self]
    rw [gone]
    simp only [Option.isSome_none, Bool.false_eq_true, if_false, List.append_nil]
    exact kept.closed rfl gone (Function.update_self _ _ _) nextConn
  · have same : next.sessions conn = s.sessions conn := by
      rw [after, Function.update_of_ne (Ne.symm here)]
    let moved : WsServer := { s with
      hub := next.hub, sessions := next.sessions, nextConn := next.nextConn }
    have held : Kept conn moved replies arrived :=
      kept.congr rfl rfl (congrArg Option.isSome same) nextConn
    have pushed := held.pushed sent
    exact pushed.congr rfl (Function.update_of_ne (Ne.symm here) _ _) rfl rfl

theorem step_kept (s : WsServer) (e : Event) {replies arrived : List Packet}
    (kept : Kept conn s replies arrived) :
    Kept conn (PacketDispatch.step hmacSha1 crc32 s e) (replies ++ repliesOf conn s e)
      (arrived ++ arrivals hmacSha1 crc32 conn s e) := by
  have quiet : ∀ {next : WsServer}, Kept conn next replies arrived →
      Kept conn next (replies ++ []) (arrived ++ if (next.sessions conn).isSome then [] else []) := by
    intro next same
    rw [List.append_nil, ite_self, List.append_nil]
    exact same
  cases e with
  | background e =>
    obtain ⟨e, background⟩ := e
    obtain ⟨sessions, nextConn⟩ := background_sessions hmacSha1 crc32 s.server background
    simp only [repliesOf, List.append_nil]
    let done := Servers.step hmacSha1 crc32 s.server e
    let moved : WsServer := { s with
      hub := done.hub, sessions := done.sessions, nextConn := done.nextConn }
    have same : (moved.sessions conn).isSome = (s.sessions conn).isSome := by
      simp only [moved, done, sessions]
      rfl
    have begun : Kept conn moved replies arrived := kept.congr rfl rfl same nextConn
    exact begun.pushed (ofOutbox done.sent)
  | connect nowMs =>
    simp only [arrivals, pushesOf, repliesOf, pushedTo, List.filterMap_nil, ite_self,
      List.append_nil]
    refine Kept.congr (Kept.replied ?_ s.nextConn _) rfl rfl rfl rfl
    by_cases here : conn = s.nextConn
    · subst here
      obtain ⟨closed, empty, nothing⟩ := kept.fresh (Nat.le_refl _)
      obtain ⟨written, merged, before, _⟩ := kept.written
      rw [nothing] at before ⊢
      obtain rfl := List.prefix_nil.mp before
      constructor
      · refine ⟨[], merged, List.prefix_refl _, fun _ => ?_⟩
        simp [perform, push, ofOutbox, pushedTo, Servers.step, WsServer.server, empty]
      · exact fun later => absurd later (Nat.not_succ_le_self _)
    · have other : (perform hmacSha1 crc32 s .connect).sessions conn = s.sessions conn :=
        Function.update_of_ne here _ _
      constructor
      · rw [other]
        obtain ⟨written, merged, before, opened⟩ := kept.written
        refine ⟨written, merged, before, fun there => ?_⟩
        rw [← opened there]
        simp [perform, push, ofOutbox, pushedTo, Servers.step, WsServer.server]
      · intro later
        obtain ⟨closed, empty, nothing⟩ := kept.fresh (Nat.le_of_succ_le later)
        refine ⟨other.trans closed, ?_, nothing⟩
        simp [perform, push, ofOutbox, pushedTo, Servers.step, WsServer.server, empty]
  | text asking nowMs frame =>
    cases opened : s.sessions asking with
    | none =>
      cases frame <;>
        simp only [PacketDispatch.step, arrivals, pushesOf, repliesOf, opened] <;>
        exact quiet kept
    | some session =>
      cases frame with
      | request pid body o =>
        simp only [PacketDispatch.step, arrivals, pushesOf, repliesOf, opened]
        let out := dispatch s.hub session pid body o
        let moved : WsServer := { active s asking nowMs with
          hub := out.hub
          sessions := Function.update s.sessions asking (some out.session)
          telemetry := s.telemetry ++ out.telemetry
          plis := s.plis ++ out.plis }
        have same : (moved.sessions conn).isSome = (s.sessions conn).isSome := by
          by_cases here : conn = asking
          · subst here
            simp [moved, opened]
          · simp [moved, Function.update_of_ne here]
        have begun : Kept conn moved replies arrived := kept.congr rfl rfl same rfl
        exact (begun.pushed out.pushes).replied asking out.reply.toList
      | garbage =>
        simp only [PacketDispatch.step, arrivals, pushesOf, repliesOf, opened]
        exact quiet (kept.congr rfl rfl rfl rfl)
      | response =>
        simp only [PacketDispatch.step, arrivals, pushesOf, repliesOf, opened]
        exact quiet (kept.congr rfl rfl rfl rfl)
  | other target nowMs =>
    simp only [PacketDispatch.step, arrivals, pushesOf, repliesOf]
    split
    · exact quiet (kept.congr rfl rfl rfl rfl)
    · exact quiet kept
  | drain target =>
    cases opened : s.sessions target with
    | none =>
      simp only [PacketDispatch.step, arrivals, pushesOf, repliesOf, opened]
      exact quiet kept
    | some session =>
      cases queued : s.channel target with
      | nil =>
        simp only [PacketDispatch.step, arrivals, pushesOf, repliesOf, opened, queued]
        exact quiet kept
      | cons packet rest =>
        simp only [PacketDispatch.step, arrivals, pushesOf, repliesOf, opened, queued]
        exact quiet (kept.drained target (by rw [opened]; rfl) queued)
  | heartbeatTimer target nowMs o =>
    simp only [PacketDispatch.step, arrivals, pushesOf, repliesOf]
    split
    · rw [List.append_nil]
      exact finish_kept hmacSha1 crc32 conn kept target o
    · exact quiet kept
  | close target o =>
    simp only [PacketDispatch.step, arrivals, pushesOf, repliesOf]
    split
    · rw [List.append_nil]
      exact finish_kept hmacSha1 crc32 conn kept target o
    · exact quiet kept

/-- Whatever the order of the events: the replies on a connection answer its requests one by
    one in their order, each under the opcode and the pid of its request; and the wire is made
    of them and of the pushes to the connection, which come in the order in which they were
    made. No push is lost or doubled: what is not yet written waits in the channel. -/
theorem packets_in_order (es : List Event) :
    let step := PacketDispatch.step hmacSha1 crc32
    let s := run step .new es
    let replies := story step (repliesOf conn) .new es
    let arrived := story step (arrivals hmacSha1 crc32 conn) .new es
    replies.map names = story step (asksOf conn) .new es ∧
      ∃ written, Interleaves replies written (s.wire conn) ∧ written <+: arrived ∧
        ((s.sessions conn).isSome → written ++ s.channel conn = arrived) := by
  intro step s replies arrived
  have start : Kept conn WsServer.new [] [] :=
    ⟨⟨[], .nil, List.prefix_refl _, fun _ => rfl⟩, fun _ => ⟨rfl, rfl, rfl⟩⟩
  have kept : Kept conn s ([] ++ replies) ([] ++ arrived) :=
    stories_invariant (fun s e _ _ => step_kept hmacSha1 crc32 conn s e) start es
  exact ⟨story_map names (repliesOf_names conn) .new es, kept.written⟩

end Order
end PacketOrder
