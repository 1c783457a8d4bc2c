import OxlensSfu.Membership
import OxlensSfu.Server

/-
What the handlers do to the membership of the rooms and to the sessions. A request has one
of four outcomes; no other event lets anybody in.
-/
namespace MemberFrames
open WireBytes SfuConfig FloorControl KeyedMap Participants RoomHubs RoomHub Membership
open Signaling FloorHandlers RoomHandlers TrackHandlers Ingress Servers

/-- Nobody comes in; somebody may be gone. -/
structure Keeps (hub next : RoomHub) : Prop where
  arcs : next.arcs = hub.arcs
  nextPtr : next.nextPtr = hub.nextPtr
  member : ∀ {r u p}, Member next r u p → Member hub r u p

theorem Keeps.refl (hub : RoomHub) : Keeps hub hub := ⟨rfl, rfl, id⟩

theorem Keeps.trans {hub next last : RoomHub} (first : Keeps hub next) (second : Keeps next last) :
    Keeps hub last :=
  ⟨second.arcs.trans first.arcs, second.nextPtr.trans first.nextPtr,
    fun here => first.member (second.member here)⟩

theorem Keeps.of_same {hub next : RoomHub} (same : SameMembers hub next) : Keeps hub next :=
  ⟨same.arcs, same.nextPtr, same.member⟩

theorem Keeps.of_rooms {hub next : RoomHub} (arcs : next.arcs = hub.arcs)
    (nextPtr : next.nextPtr = hub.nextPtr) (rooms : next.rooms = hub.rooms) : Keeps hub next :=
  .of_same (.of_rooms arcs nextPtr rooms)

/-- Nobody is in the room under that id any more, and nothing else has changed. -/
structure Removes (hub next : RoomHub) (r : RoomId) (u : UserId) : Prop where
  arcs : next.arcs = hub.arcs
  nextPtr : next.nextPtr = hub.nextPtr
  member : ∀ r' u' p, Member next r' u' p ↔ Member hub r' u' p ∧ ¬(r' = r ∧ u' = u)

theorem Removes.keeps {hub next : RoomHub} {r : RoomId} {u : UserId}
    (removes : Removes hub next r u) : Keeps hub next :=
  ⟨removes.arcs, removes.nextPtr, fun here => ((removes.member _ _ _).mp here).1⟩

theorem Removes.before {hub told next : RoomHub} {r : RoomId} {u : UserId}
    (same : SameMembers hub told) (removes : Removes told next r u) : Removes hub next r u where
  arcs := removes.arcs.trans same.arcs
  nextPtr := removes.nextPtr.trans same.nextPtr
  member r' u' p := by rw [removes.member, same.member_iff]

theorem Removes.after {hub told next : RoomHub} {r : RoomId} {u : UserId}
    (removes : Removes hub told r u) (same : SameMembers told next) : Removes hub next r u where
  arcs := same.arcs.trans removes.arcs
  nextPtr := same.nextPtr.trans removes.nextPtr
  member r' u' p := by rw [same.member_iff, removes.member]

/-- One participant comes in, with the channel `wsTx`. -/
structure Registers (hub next : RoomHub) (r : RoomId) (u : UserId) (wsTx : ConnId) : Prop where
  absent : ∀ p, ¬ Member hub r u p
  arcs : next.arcs = Function.update hub.arcs hub.nextPtr (next.arcs hub.nextPtr)
  channel : (next.arcs hub.nextPtr).wsTx = wsTx
  nextPtr : next.nextPtr = hub.nextPtr + 1
  member : ∀ r' u' p, Member next r' u' p ↔
    Member hub r' u' p ∨ (r' = r ∧ u' = u ∧ p = hub.nextPtr)

section Hub
variable {hub : RoomHub}

theorem removes_of_ok {next : RoomHub} {r : RoomId} {u : UserId} {p : Ptr}
    (removed : hub.removeParticipant r u = .ok (next, p)) : Removes hub next r u :=
  have fixed := removeParticipant_fixed removed
  ⟨fixed.1, fixed.2.2.1, member_removeParticipant removed⟩

theorem absent_of_error {e : LightError} {r : RoomId} {u : UserId}
    (failed : hub.removeParticipant r u = .error e) (p : Ptr) : ¬ Member hub r u p := by
  rintro ⟨room, held, here⟩
  have removed := removeParticipant_ok.mpr ⟨room, held, here, rfl⟩
  rw [failed] at removed
  simp at removed

theorem removes_of_absent {r : RoomId} {u : UserId} (absent : ∀ p, ¬ Member hub r u p) :
    Removes hub hub r u := by
  refine ⟨rfl, rfl, fun r' u' p => ⟨fun here => ⟨here, ?_⟩, fun both => both.1⟩⟩
  rintro ⟨rfl, rfl⟩
  exact absent p here

theorem create_keeps (id : RoomId) (name : String) (capacity : Option Nat) (mode : RoomMode)
    (createdAt : Nat) (simulcast : Bool) (audioSsrc videoSsrc : UInt32) :
    Keeps hub (hub.create id name capacity mode createdAt simulcast audioSsrc videoSsrc) := by
  refine ⟨rfl, rfl, ?_⟩
  rintro r u p ⟨room, held, here⟩
  rcases create_found held with rfl | ⟨_, there⟩
  · simp [Room.new] at here
  · exact ⟨room, there, here⟩

theorem withPtt_same (r : RoomId) (ptt : PttState) (heap : Heap) :
    SameMembers hub (withPtt hub r ptt heap) :=
  .of_modify rfl rfl rfl (fun _ => rfl) fun _ => rfl

theorem departFloor_same (r : RoomId) (room : Room) (u : UserId) (o : Oracle) :
    SameMembers hub (departFloor hub r room u o).1 := by
  unfold departFloor
  dsimp only
  by_cases ptt : room.mode = .ptt
  · rw [if_pos ptt]
    exact withPtt_same r _ _
  · rw [if_neg ptt]
    exact .of_rooms rfl rfl rfl

theorem departOrStay_same (r : RoomId) (u : UserId) (o : Oracle) :
    SameMembers hub (departOrStay hub r u o).1 := by
  unfold departOrStay
  split
  · exact departFloor_same r _ u o
  · exact .of_rooms rfl rfl rfl

theorem cleanupOrStay_same (r : RoomId) (u : UserId) (o : Oracle) :
    SameMembers hub (cleanupOrStay hub r u o).1 := by
  unfold cleanupOrStay
  split
  · exact (departFloor_same r _ u o).trans (.of_rooms rfl rfl rfl)
  · exact .of_rooms rfl rfl rfl

theorem announceLeave_same (r : RoomId) (u : UserId) (p : Ptr) :
    SameMembers hub (announceLeave hub r u p).1 := by
  unfold announceLeave
  split <;> exact .of_rooms rfl rfl rfl

theorem removeOrLog_removes (told : RoomHub × Outbox) (r : RoomId) (u : UserId) :
    Removes told.1 (removeOrLog told r u).1 r u := by
  unfold removeOrLog
  split
  · rename_i removed
    exact removes_of_ok removed
  · rename_i failed
    exact removes_of_absent (absent_of_error failed)

/-- The cleanup removes who stands where the session points, whoever that is. -/
theorem member_cleanup (session : Session) (o : Oracle) (r : RoomId) (u : UserId) (p : Ptr) :
    Member (cleanup hub session o).1 r u p ↔
      Member hub r u p ∧ ¬(session.currentRoom = some r ∧ session.userId = some u) := by
  unfold cleanup
  split
  · rename_i r' u' room user
    have removes := (removeOrLog_removes (cleanupOrStay hub r' u' o) r' u').before
      (cleanupOrStay_same r' u' o)
    simp only [removes.member, room, user, Option.some.injEq, eq_comm]
  · rename_i pointless
    simp only [iff_self_and]
    rintro _ ⟨room, user⟩
    exact pointless r u room user

theorem cleanup_keeps (session : Session) (o : Oracle) : Keeps hub (cleanup hub session o).1 := by
  unfold cleanup
  split
  · rename_i r u _ _
    exact ((removeOrLog_removes (cleanupOrStay hub r u o) r u).before
      (cleanupOrStay_same r u o)).keeps
  · exact .refl hub

/-- The participant of a join fits in. -/
def Joinable (hub : RoomHub) (r : RoomId) (u : UserId) : Prop :=
  ∃ room, hub.rooms.lookup r = some room ∧ room.participants.keys.length < room.capacity ∧
    u ∉ room.participants

theorem registers_of_ok {next : RoomHub} {r : RoomId} {who : Participant} {now : Nat} {p : Ptr}
    (added : hub.addParticipant r who now = .ok (next, p)) :
    Registers hub next r who.userId who.wsTx := by
  have member := member_addParticipant added
  obtain ⟨room, held, _, absent, _, rfl⟩ := addParticipant_ok.mp added
  refine ⟨?_, by simp [register], by simp [register], rfl, member⟩
  intro q there
  have here := there.lookup held
  rw [AList.lookup_eq_none.mpr absent] at here
  simp at here

/-- A join succeeds exactly where the participant fits in. -/
theorem handleRoomJoin_cases (session : Session) (pid : Nat) (u : UserId) (r : RoomId)
    (o : Oracle) :
    let out := handleRoomJoin hub session pid u (some r) o
    (¬ Joinable hub r u ∧ out.hub = hub ∧ out.session = session) ∨
      (Joinable hub r u ∧ Registers hub out.hub r u session.wsTx ∧
        out.session = { session with
          currentRoom := some r, pubUfrag := some o.pubIce.ufrag, subUfrag := some o.subIce.ufrag }) := by
  intro out
  let who := newParticipant session u r o
  have fits : ∀ next p, hub.addParticipant r who o.nowMs = .ok (next, p) → Joinable hub r u := by
    intro next p added
    obtain ⟨room, held, space, absent, _⟩ := addParticipant_ok.mp added
    exact ⟨room, held, space, absent⟩
  cases added : hub.addParticipant r who o.nowMs with
  | error e =>
    left
    refine ⟨?_, ?_⟩
    · rintro ⟨room, held, space, absent⟩
      have joined := (@addParticipant_ok hub _ r who o.nowMs _).mpr
        ⟨room, held, space, absent, rfl, rfl⟩
      rw [added] at joined
      simp at joined
    · simp only [out, handleRoomJoin]
      split
      · exact ⟨rfl, rfl⟩
      · rw [show hub.addParticipant r (newParticipant session u r o) o.nowMs = .error e from added]
        exact ⟨rfl, rfl⟩
  | ok done =>
    right
    obtain ⟨next, p⟩ := done
    have registers := registers_of_ok added
    have entered := addParticipant_lookup added r
    obtain ⟨room, held, _⟩ := addParticipant_ok.mp added
    rw [if_pos rfl, held, Option.map_some] at entered
    have shape : out = announceJoin next session pid u r o (room.enter hub.nextPtr who o.nowMs) := by
      simp only [out, handleRoomJoin, held]
      rw [show hub.addParticipant r (newParticipant session u r o) o.nowMs = .ok (next, p) from added]
      simp only [entered]
    have same : SameMembers next out.hub := by
      rw [shape]
      exact .of_rooms rfl rfl rfl
    refine ⟨fits next p added, ?_, by rw [shape]; rfl⟩
    refine ⟨registers.absent, ?_, ?_, same.nextPtr.trans registers.nextPtr, ?_⟩
    · rw [same.arcs]
      exact registers.arcs
    · rw [same.arcs]
      exact registers.channel
    · intro r' u' q
      rw [same.member_iff]
      exact registers.member r' u' q

/-- A leave succeeds exactly where somebody is in the room under that id. -/
theorem handleRoomLeave_cases (session : Session) (pid : Nat) (u : UserId) (r : RoomId)
    (o : Oracle) :
    let out := handleRoomLeave hub session pid u (some r) o
    Removes hub out.hub r u ∧
      (((∀ p, ¬ Member hub r u p) ∧ out.session = session) ∨
        ((∃ p, Member hub r u p) ∧ out.session =
          { session with currentRoom := none, pubUfrag := none, subUfrag := none })) := by
  intro out
  have told := @departOrStay_same hub r u o
  cases result : (departOrStay hub r u o).1.removeParticipant r u with
  | error e =>
    have absent := absent_of_error result
    have shape : out.hub = (departOrStay hub r u o).1 ∧ out.session = session := by
      simp only [out, handleRoomLeave, result, and_self]
    refine ⟨?_, .inl ⟨fun p here => absent p ((told.member_iff r u p).mpr here), shape.2⟩⟩
    rw [shape.1]
    exact (removes_of_absent absent).before told
  | ok done =>
    obtain ⟨next, p⟩ := done
    have here := (removeParticipant_fixed result).2.2.2
    have shape : out.hub = (announceLeave next r u p).1 ∧ out.session =
        { session with currentRoom := none, pubUfrag := none, subUfrag := none } := by
      simp only [out, handleRoomLeave, result, and_self]
    refine ⟨?_, .inr ⟨⟨p, (told.member_iff r u p).mp here⟩, shape.2⟩⟩
    rw [shape.1]
    exact ((removes_of_ok result).after (announceLeave_same r u p)).before told

theorem runZombieReaper_keeps (nowMs : Nat) : Keeps hub (runZombieReaper hub nowMs).1 := by
  have reaped : Keeps hub (hub.reapZombies nowMs zombieTimeoutMs).1 :=
    @reapZombies_keeps (Keeps hub)
      (fun _ _ _ _ _ kept removed => kept.trans (removes_of_ok removed).keeps) hub nowMs
      zombieTimeoutMs (.refl hub)
  refine reaped.trans ?_
  rw [runZombieReaper, announceReaped_hub]
  exact .of_rooms rfl rfl rfl

theorem flushMetrics_keeps : Keeps hub (flushMetrics hub) := by
  refine flushMetrics_related Keeps.refl Keeps.trans (fun hub r => Keeps.of_same ?_) hub
  unfold flushRoom
  split
  · exact .of_rooms rfl rfl rfl
  · exact .of_modify rfl rfl rfl (fun _ => rfl) fun _ => rfl

theorem handleStun_keeps (hmacSha1 : Bytes → Bytes → Bytes)
    (crc32 : Bytes → UInt32) (buf : Bytes) (remote : SocketAddr) (now : Nat)
    (dtlsHas : Bool) :
    Keeps hub (StunLatch.handleStun hmacSha1 crc32 hub buf remote now dtlsHas).1 := by
  rw [StunLatch.handleStun_hub]
  split
  · exact .refl hub
  · exact .of_same (.of_modify rfl rfl rfl (fun _ => rfl) fun _ => rfl)

theorem handleSrtp_keeps (remote : SocketAddr) (buf : Bytes) (o : Oracle) :
    Keeps hub (handleSrtp hub remote buf o).hub := by
  rcases handleSrtp_cases hub remote buf o with
    dropped | ⟨sender, touched⟩ | ⟨sender, r, room, _, _, _, relayed⟩
  · rw [dropped]
    exact .refl hub
  · rw [touched]
    exact .of_rooms rfl rfl rfl
  · rw [relayed, relayRtp_hub]
    exact .of_same ((touch_same hub sender o.nowMs).trans (withPtt_same r _ _))

theorem handleSubscribeNack_keeps (remote : SocketAddr) (block : Bytes)
    (touchMs nowMs : Nat) (visit : List UserId) :
    Keeps hub (handleSubscribeNack hub remote block touchMs nowMs visit).1 := by
  rcases handleSubscribeNack_cases hub remote block touchMs nowMs visit with
    dropped | ⟨subscriber, touched⟩ | ⟨subscriber, r, room, _, _, answered⟩
  · rw [dropped]
    exact .refl hub
  · rw [touched]
    exact .of_rooms rfl rfl rfl
  · rw [answered]
    exact .of_rooms rfl rfl rfl

theorem handleMbcpFrom_keeps (remote : SocketAddr) (subtype : UInt8) (touchMs : Nat)
    (o : Oracle) : Keeps hub (handleMbcpFrom hub remote subtype touchMs o).1 := by
  unfold handleMbcpFrom
  split
  · exact .refl hub
  simp only
  split
  · exact .of_rooms rfl rfl rfl
  split
  · exact .of_same ((touch_same hub _ touchMs).trans (withPtt_same _ _ _))
  · exact .of_rooms rfl rfl rfl

theorem runFloorTimer_keeps (r : RoomId) (o : Oracle) :
    Keeps hub (runFloorTimer hub r o).1 := by
  unfold runFloorTimer
  split
  · exact .refl hub
  split
  · exact .of_same (withPtt_same r _ _)
  · exact .refl hub

theorem onFloor_keeps (session : Session) (found : Except Reply (RoomId × Room))
    (handler : Room → FloorRun × Reply) : Keeps hub (onFloor hub session found handler).hub := by
  cases found with
  | error reply => exact .refl hub
  | ok place => exact .of_same (withPtt_same _ _ _)

@[simp] theorem onFloor_session (session : Session) (found : Except Reply (RoomId × Room))
    (handler : Room → FloorRun × Reply) :
    (onFloor hub session found handler).session = session := by
  cases found <;> rfl

theorem handleHeartbeat_keeps (session : Session) (nowMs : Nat) :
    Keeps hub (handleHeartbeat hub session nowMs) := by
  unfold handleHeartbeat
  split
  · exact .of_same (touch_same hub _ _)
  · exact .refl hub

end Hub

/-- What a request can do to the hub and to its session. -/
inductive Outcome (hub : RoomHub) (session : Session) (o : Oracle) :
    Request → RoomHub → Session → Prop
  | stays {req next} (keeps : Keeps hub next) (named : ∀ d, req ≠ .identify (some d))
      (refused : ∀ r u, req = .roomJoin (some r) → session.userId = some u → ¬ Joinable hub r u)
      (absent : ∀ r u, req = .roomLeave (some r) → session.userId = some u →
        ∀ p, ¬ Member hub r u p) :
      Outcome hub session o req next session
  | renamed (d : IdentifyRequest) : Outcome hub session o (.identify (some d)) hub
      { session with userId := some (chosenUserId d.userId o.userNumber) }
  | joined {r u next} (user : session.userId = some u) (fits : Joinable hub r u)
      (registers : Registers hub next r u session.wsTx) :
      Outcome hub session o (.roomJoin (some r)) next { session with
        currentRoom := some r, pubUfrag := some o.pubIce.ufrag, subUfrag := some o.subIce.ufrag }
  | left {r u next} (user : session.userId = some u) (present : ∃ p, Member hub r u p)
      (removes : Removes hub next r u) :
      Outcome hub session o (.roomLeave (some r)) next
        { session with currentRoom := none, pubUfrag := none, subUfrag := none }

theorem Outcome.wsTx {hub next : RoomHub} {session moved : Session} {o : Oracle} {req : Request}
    (outcome : Outcome hub session o req next moved) : moved.wsTx = session.wsTx := by
  cases outcome <;> rfl

/-- A request lets nobody in, or one participant with the channel of the session. -/
theorem Outcome.members {hub next : RoomHub} {session moved : Session} {o : Oracle}
    {req : Request} (outcome : Outcome hub session o req next moved) :
    Keeps hub next ∨ ∃ r u, Registers hub next r u session.wsTx := by
  cases outcome with
  | stays keeps _ _ _ => exact .inl keeps
  | renamed d => exact .inl (.refl hub)
  | joined _ _ registers => exact .inr ⟨_, _, registers⟩
  | left _ _ removes => exact .inl removes.keeps

section Dispatch
variable (hub : RoomHub) (session : Session) (pid : Nat) (o : Oracle)

theorem join_outcome {u : UserId} (user : session.userId = some u) (r : RoomId) :
    let out := handleRoomJoin hub session pid u (some r) o
    Outcome hub session o (.roomJoin (some r)) out.hub out.session := by
  intro out
  rcases @handleRoomJoin_cases hub session pid u r o with
    ⟨refused, kept, same⟩ | ⟨fits, registers, moved⟩
  · rw [show out.hub = hub from kept, show out.session = session from same]
    refine .stays (.refl hub) (by simp) (fun r' u' asked named => ?_) (by simp)
    rw [Request.roomJoin.injEq, Option.some.injEq] at asked
    rw [user, Option.some.injEq] at named
    rw [← asked, ← named]
    exact refused
  · rw [show out.session = _ from moved]
    exact .joined user fits registers

theorem leave_outcome {u : UserId} (user : session.userId = some u) (r : RoomId) :
    let out := handleRoomLeave hub session pid u (some r) o
    Outcome hub session o (.roomLeave (some r)) out.hub out.session := by
  intro out
  obtain ⟨removes, ⟨absent, same⟩ | ⟨present, moved⟩⟩ :=
    @handleRoomLeave_cases hub session pid u r o
  · rw [show out.session = session from same]
    refine .stays removes.keeps (by simp) (by simp) fun r' u' asked named p => ?_
    rw [Request.roomLeave.injEq, Option.some.injEq] at asked
    rw [user, Option.some.injEq] at named
    rw [← asked, ← named]
    exact absent p
  · rw [show out.session = _ from moved]
    exact .left user present removes

theorem dispatch_outcome (req : Request) :
    Outcome hub session o req (dispatch hub session pid req o).hub
      (dispatch hub session pid req o).session := by
  cases user : session.userId with
  | none =>
    have anonymous : ∀ {next}, Keeps hub next → (∀ d, req ≠ .identify (some d)) →
        Outcome hub session o req next session := fun keeps named =>
      .stays keeps named (by simp [user]) (by simp [user])
    cases req with
    | heartbeat => exact anonymous (handleHeartbeat_keeps session o.nowMs) (by simp)
    | identify d =>
      cases d with
      | none => exact anonymous (.refl hub) (by simp)
      | some d => exact .renamed d
    | _ =>
      simp only [dispatch, user]
      exact anonymous (.refl hub) (by simp)
  | some u =>
    have stays : ∀ {next}, Keeps hub next → (∀ d, req ≠ .identify (some d)) →
        (∀ r, req ≠ .roomJoin (some r)) → (∀ r, req ≠ .roomLeave (some r)) →
        Outcome hub session o req next session := fun keeps named noJoin noLeave =>
      .stays keeps named (fun r _ asked => absurd asked (noJoin r))
        fun r _ asked => absurd asked (noLeave r)
    cases req with
    | heartbeat => exact stays (handleHeartbeat_keeps session o.nowMs) (by simp) (by simp) (by simp)
    | identify d =>
      cases d with
      | none => exact stays (.refl hub) (by simp) (by simp) (by simp)
      | some d => exact .renamed d
    | roomCreate d =>
      simp only [dispatch, user]
      cases d with
      | none => exact stays (.refl hub) (by simp) (by simp) (by simp)
      | some d => exact stays (create_keeps _ _ _ _ _ _ _ _) (by simp) (by simp) (by simp)
    | roomJoin d =>
      simp only [dispatch, user]
      cases d with
      | none => exact stays (.refl hub) (by simp) (by simp) (by simp)
      | some r => exact join_outcome hub session pid o user r
    | roomLeave d =>
      simp only [dispatch, user]
      cases d with
      | none => exact stays (.refl hub) (by simp) (by simp) (by simp)
      | some r => exact leave_outcome hub session pid o user r
    | publishTracks d =>
      simp only [dispatch, user]
      exact stays (.of_rooms rfl rfl rfl) (by simp) (by simp) (by simp)
    | subscribeLayer d =>
      simp only [dispatch, user]
      exact stays (.of_rooms rfl rfl rfl) (by simp) (by simp) (by simp)
    | _ =>
      simp only [dispatch, user, onFloor_session]
      exact stays (onFloor_keeps session _ _) (by simp) (by simp) (by simp)

end Dispatch

/-- Apart from requests and connections that open and close, an event lets nobody in and
    moves no session. -/
inductive StepKind (hmacSha1 : Bytes → Bytes → Bytes) (crc32 : Bytes → UInt32) (s : Server) :
    Event → Prop where
  | request (conn : ConnId) (pid : Nat) (req : Request) (o : Oracle) :
      StepKind hmacSha1 crc32 s (.request conn pid req o)
  | close (conn : ConnId) (o : Oracle) : StepKind hmacSha1 crc32 s (.close conn o)
  | connect : StepKind hmacSha1 crc32 s .connect
  | quiet {e : Event} (keeps : Keeps s.hub (Servers.step hmacSha1 crc32 s e).hub)
      (sessions : (Servers.step hmacSha1 crc32 s e).sessions = s.sessions)
      (nextConn : (Servers.step hmacSha1 crc32 s e).nextConn = s.nextConn) :
      StepKind hmacSha1 crc32 s e

theorem step_kind (hmacSha1 : Bytes → Bytes → Bytes) (crc32 : Bytes → UInt32) (s : Server) (e : Event) :
    StepKind hmacSha1 crc32 s e := by
  cases e with
  | request conn pid req o => exact .request conn pid req o
  | close conn o => exact .close conn o
  | connect => exact .connect
  | defaultRoom name capacity mode simulcast o => exact .quiet (create_keeps _ _ _ _ _ _ _ _) rfl rfl
  | floorTimer r o => exact .quiet (runFloorTimer_keeps r o) rfl rfl
  | reaper nowMs => exact .quiet (runZombieReaper_keeps nowMs) rfl rfl
  | metricsFlush => exact .quiet flushMetrics_keeps rfl rfl
  | stun remote buf nowMs dtlsHas =>
    exact .quiet (handleStun_keeps hmacSha1 crc32 buf remote nowMs dtlsHas) rfl rfl
  | srtpKeys p pc => exact .quiet (.of_rooms rfl rfl rfl) rfl rfl
  | rtp remote buf o => exact .quiet (handleSrtp_keeps remote buf o) rfl rfl
  | mbcp remote subtype touchMs o =>
    exact .quiet (handleMbcpFrom_keeps remote subtype touchMs o) rfl rfl
  | nack remote block touchMs nowMs visit =>
    exact .quiet (handleSubscribeNack_keeps remote block touchMs nowMs visit) rfl rfl
  | egress p => exact .quiet (.of_rooms rfl rfl rfl) rfl rfl

end MemberFrames
