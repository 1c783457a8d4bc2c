import OxlensSfu.PacketDispatch
import OxlensSfu.StepRefinement
import OxlensSfu.LastSeen

/-
What a step of the connections does to the server beneath: one of its own events, or a
packet that writes a few fields of participants and moves nobody.
-/
namespace PacketSteps
open WireBytes SfuConfig GuardedRun KeyedMap Participants RoomHubs RoomHub Signaling RoomHandlers
open TrackHandlers TracksAck Seating PacketDispatch
open FloorControl (UserId)
open Servers (Server)

/-- The packets that `Request` describes. -/
def Plain (body : Body) : Prop := ∃ req, body = .plain req

/-- What the other packets leave alone: of a participant all but the mute flags, the burst and
    the virtual SSRC. -/
structure Blind {α : Type} (view : ParticipantState → α) : Prop where
  muted : ∀ s ssrc muted,
    view { s with tracks := (setTrackMuted ssrc muted s.tracks).1 } = view s
  burst : ∀ s burst, view { s with pliBurst := burst } = view s
  drawn : ∀ s vssrc, view { s with simulcastVideoSsrc := vssrc } = view s

section Seats
variable {α : Type} {hub : RoomHub} {session : Session} {op : UInt16} {pid : Nat} {payload : Option α}
  {d : α} {r : RoomId} {room : Room}

theorem currentRoom_ok (found : currentRoom hub session op pid payload = .ok (d, r, room)) :
    payload = some d ∧ session.currentRoom = some r ∧ hub.rooms.lookup r = some room := by
  unfold currentRoom at found
  split at found
  · cases found
  split at found
  · cases found
  rename_i there
  split at found
  · cases found
  · rename_i held
    cases found
    exact ⟨rfl, there, held⟩

theorem seat_ok {u : UserId} {p : Ptr} (found : seat hub session op pid u payload = .ok (d, r, room, p)) :
    hub.rooms.lookup r = some room ∧ room.participants.lookup u = some p := by
  unfold seat at found
  split at found
  · cases found
  rename_i inside
  split at found
  · cases found
  · rename_i entry
    cases found
    exact ⟨(currentRoom_ok inside).2.2, entry⟩

end Seats

section Handlers
variable {α : Type} {view : ParticipantState → α} (hub : RoomHub) (session : Session) (pid : Nat)
  (u : UserId)

/-- The handler writes the heap only, and no more than `view` hides. -/
structure Writes (view : ParticipantState → α) (hub : RoomHub) (session : Session) (out : Handled) :
    Prop where
  only : out.hub = { hub with heap := out.hub.heap }
  keeps : out.session = session
  hidden : Shows view hub.heap out.hub.heap

theorem answered_writes (packet : Packet) : Writes view hub session (answered hub session packet) :=
  ⟨rfl, rfl, .refl view hub.heap⟩

theorem handleAck_writes (drawn : ∀ s vssrc, view { s with simulcastVideoSsrc := vssrc } = view s)
    (ssrcs : Option (List UInt32)) (draws : Ptr → NonzeroSsrc) :
    Writes view hub session (handleAck hub session pid u ssrcs draws) :=
  ⟨rfl, rfl, handleTracksAck_shows drawn hub session pid u ssrcs draws⟩

theorem handleMuteUpdate_writes
    (hidden : ∀ s ssrc muted,
      view { s with tracks := (setTrackMuted ssrc muted s.tracks).1 } = view s)
    (d : Option MuteUpdateRequest) :
    Writes view hub session (handleMuteUpdate hub session pid u d) := by
  unfold handleMuteUpdate
  split
  · exact answered_writes hub session _
  split
  · exact answered_writes hub session _
  rename_i req r room p _ _ tracks kind muted
  have same := hidden (hub.heap p) req.ssrc req.muted
  rw [muted] at same
  have written : Shows view hub.heap (mutate hub.heap p fun s => { s with tracks := tracks }) :=
    .mutate same
  exact ⟨rfl, rfl, written⟩

theorem handleCameraReady_writes (hidden : ∀ s burst, view { s with pliBurst := burst } = view s)
    (d : Option RoomId) :
    Writes view hub session (handleCameraReady hub session pid u d) := by
  unfold handleCameraReady
  split
  · exact answered_writes hub session _
  rename_i room p _
  simp only
  split
  · exact answered_writes hub session _
  rename_i ssrc _
  have written : Shows view hub.heap
      (mutate hub.heap p fun s => s.requestKeyframe (some ssrc) cameraBurst) :=
    .mutate (view_requestKeyframe hidden _ _ _)
  exact ⟨rfl, rfl, written⟩

theorem handleMessage_writes (d : Option MessageRequest) (msgId : String) :
    Writes view hub session (handleMessage hub session pid u d msgId) := by
  unfold handleMessage
  split
  · exact answered_writes hub session _
  · exact ⟨rfl, rfl, .refl view hub.heap⟩

theorem handleRoomSync_writes
    (drawn : ∀ s vssrc, view { s with simulcastVideoSsrc := vssrc } = view s)
    (draws : Ptr → NonzeroSsrc) :
    Writes view hub session (handleRoomSync hub session pid u draws) := by
  unfold handleRoomSync
  split
  · exact answered_writes hub session _
  refine ⟨rfl, rfl, ?_⟩
  simp only [answered, syncTracks]
  split
  · exact .refl view hub.heap
  · exact Catalog.simulcastReplace_shows _ draws drawn hub.heap _

/-- Every packet that is not a plain request. -/
theorem dispatch_writes (blind : Blind view) {body : Body} (other : ¬ Plain body) (o : Oracle) :
    Writes view hub session (dispatch hub session pid body o) := by
  cases user : session.userId with
  | none =>
    cases body with
    | plain req => exact absurd ⟨req, rfl⟩ other
    | _ =>
      simp only [dispatch, user]
      exact answered_writes hub session _
  | some u =>
    cases body with
    | plain req => exact absurd ⟨req, rfl⟩ other
    | tracksAck ssrcs =>
      simp only [dispatch, user]
      exact handleAck_writes hub session pid u blind.drawn ssrcs o.vssrc
    | muteUpdate d =>
      simp only [dispatch, user]
      exact handleMuteUpdate_writes hub session pid u blind.muted d
    | cameraReady d =>
      simp only [dispatch, user]
      exact handleCameraReady_writes hub session pid u blind.burst d
    | message d =>
      simp only [dispatch, user]
      exact handleMessage_writes hub session pid u d o.uuid
    | roomSync =>
      simp only [dispatch, user]
      exact handleRoomSync_writes hub session pid u blind.drawn o.vssrc
    | telemetry data =>
      simp only [dispatch, user]
      exact ⟨rfl, rfl, .refl view hub.heap⟩
    | _ =>
      simp only [dispatch, user]
      exact answered_writes hub session _

end Handlers

section Steps
variable (hmacSha1 : Bytes → Bytes → Bytes) (crc32 : Bytes → UInt32)

/-- The part of the state that the server beneath has. -/
def beneath (s : WsServer) : RoomHub × (ConnId → Option Session) × ConnId :=
  (s.hub, s.sessions, s.nextConn)

def below (s : Server) : RoomHub × (ConnId → Option Session) × ConnId :=
  (s.hub, s.sessions, s.nextConn)

/-- What an event of the connections is to the server beneath. -/
inductive Means : Event → Servers.Event → Prop
  | background (e : { e : Servers.Event // Background e }) : Means (.background e) e.val
  | connect (nowMs : Nat) : Means (.connect nowMs) .connect
  | request (conn : ConnId) (nowMs pid : Nat) (req : Request) (o : Oracle) :
      Means (.text conn nowMs (.request pid (.plain req) o)) (.request conn pid req o)
  | timedOut (conn : ConnId) (nowMs : Nat) (o : Oracle) :
      Means (.heartbeatTimer conn nowMs o) (.close conn o)
  | close (conn : ConnId) (o : Oracle) : Means (.close conn o) (.close conn o)

/-- One event of the server beneath, or a packet that writes the heap only. -/
inductive Moved (s : WsServer) (e : Event) (next : WsServer) : Prop
  | server (e' : Servers.Event) (means : Means e e')
      (same : beneath next = below (Servers.step hmacSha1 crc32 s.server e'))
  | packet (conn : ConnId) (session : Session) (pid : Nat) (body : Body) (o : Oracle)
      (opened : s.sessions conn = some session) (other : ¬ Plain body)
      (same : beneath next =
        ((dispatch s.hub session pid body o).hub, s.sessions, s.nextConn))
  | still (same : beneath next = beneath s)

theorem beneath_answer {s : WsServer} {conn : ConnId} {session : Session}
    (opened : s.sessions conn = some session) (nowMs : Nat) (pid : Nat) (body : Body) (o : Oracle) :
    Moved hmacSha1 crc32 s (.text conn nowMs (.request pid body o))
      (answer (active s conn nowMs) conn session pid body o) := by
  by_cases plain : Plain body
  · obtain ⟨req, rfl⟩ := plain
    refine .server (.request conn pid req o) (.request conn nowMs pid req o) ?_
    simp only [below, Servers.step, Servers.request, WsServer.server, opened]
    rfl
  · refine .packet conn session pid body o opened plain ?_
    have blind : Blind fun _ : ParticipantState => () :=
      ⟨fun _ _ _ => rfl, fun _ _ => rfl, fun _ _ => rfl⟩
    have kept := (dispatch_writes s.hub session pid blind plain o).keeps
    have same : Function.update s.sessions conn (some session) = s.sessions := by
      rw [← opened, Function.update_eq_self]
    rw [← kept] at same
    exact congrArg (fun sessions => ((dispatch s.hub session pid body o).hub, sessions, s.nextConn))
      same

theorem step_moved (s : WsServer) (e : Event) :
    Moved hmacSha1 crc32 s e (PacketDispatch.step hmacSha1 crc32 s e) := by
  have still : ∀ e, Moved hmacSha1 crc32 s e s := fun _ => .still rfl
  cases e with
  | background e => exact .server e (.background e) rfl
  | connect nowMs => exact .server .connect (.connect nowMs) rfl
  | text conn nowMs frame =>
    simp only [PacketDispatch.step]
    split
    · exact still _
    rename_i session opened
    cases frame with
    | request pid body o => exact beneath_answer hmacSha1 crc32 opened nowMs pid body o
    | garbage => exact .still rfl
    | response => exact .still rfl
  | other conn nowMs =>
    simp only [PacketDispatch.step]
    split
    · exact .still rfl
    · exact still _
  | drain conn =>
    simp only [PacketDispatch.step]
    split
    · exact .still rfl
    · exact still _
  | heartbeatTimer conn nowMs o =>
    simp only [PacketDispatch.step]
    split
    · exact .server (.close conn o) (.timedOut conn nowMs o) rfl
    · exact still _
  | close conn o =>
    simp only [PacketDispatch.step]
    split
    · exact .server (.close conn o) (.close conn o) rfl
    · exact still _

/-- What every event of the server keeps, and every write of the other packets, the
    connections keep. -/
theorem step_keeps {inv : RoomHub → Prop}
    (server : ∀ (s : Server) (e : Servers.Event), inv s.hub →
      inv (Servers.step hmacSha1 crc32 s e).hub)
    (packet : ∀ (hub : RoomHub) (session : Session) (pid : Nat) (body : Body) (o : Oracle),
      ¬ Plain body → inv hub → inv (dispatch hub session pid body o).hub)
    (s : WsServer) (e : Event) (held : inv s.hub) :
    inv (PacketDispatch.step hmacSha1 crc32 s e).hub := by
  cases step_moved hmacSha1 crc32 s e with
  | server e' _ same =>
    rw [show (PacketDispatch.step hmacSha1 crc32 s e).hub = _ from congrArg Prod.fst same]
    exact server s.server e' held
  | packet conn session pid body o opened other same =>
    rw [show (PacketDispatch.step hmacSha1 crc32 s e).hub = _ from congrArg Prod.fst same]
    exact packet s.hub session pid body o other held
  | still same =>
    rw [show (PacketDispatch.step hmacSha1 crc32 s e).hub = _ from congrArg Prod.fst same]
    exact held

theorem step_seated (s : WsServer) (e : Event) (seated : Seated s.hub) :
    Seated (PacketDispatch.step hmacSha1 crc32 s e).hub := by
  have blind : Blind addresses := ⟨fun _ _ _ => rfl, fun _ _ => rfl, fun _ _ => rfl⟩
  refine @step_keeps hmacSha1 crc32 Seated (Seating.step_seated hmacSha1 crc32) ?_ s e seated
  intro hub session pid body o other seated
  have writes := dispatch_writes hub session pid blind other o
  rw [writes.only]
  exact seated.of_heap writes.hidden

theorem run_seated (es : List Event) :
    Seated (run (PacketDispatch.step hmacSha1 crc32) WsServer.new es).hub :=
  @run_invariant _ _ (PacketDispatch.step hmacSha1 crc32) (fun s => Seated s.hub)
    (step_seated hmacSha1 crc32) WsServer.new new_seated es

end Steps
end PacketSteps
