import OxlensSfu.FloorQueue
import OxlensSfu.PacketSteps
import OxlensSfu.RoomEvents

/-
Bursts of keyframe requests. Whoever gives up a seat has its burst cancelled first, and from
then on nothing asks it for keyframes.
-/
namespace PliBursts
open WireBytes SfuConfig KeyedMap GuardedRun Participants RoomHubs RoomHub Signaling FloorHandlers
open RoomHandlers Ingress Servers Membership MemberFrames CatalogFrames Seating RoomFrames RoomEvents
open PacketSteps
open PacketDispatch (WsServer Handled)
open FloorControl (UserId FloorAction FloorController onParticipantLeave dequeue waits endBurst)
open FloorQueue (GrantsTo endBurst_never_regrants waits_false_iff waiting_dequeue)
open PttRewriter (Instant)

def Idle (p : Ptr) (h : Heap) : Prop := (h p).pliBurst = none

section Idle
variable {p q : Ptr} {h h' : Heap}

theorem Idle.shown (idle : Idle p h) (shown : Shows (·.pliBurst) h h') : Idle p h' :=
  (shown p).trans idle

theorem cancelled_idle : Idle p (mutate h p (·.cancelPliBurst)) := by
  rw [Idle, mutate_self]
  rfl

theorem Idle.cancel (idle : Idle p h) : Idle p (mutate h q (·.cancelPliBurst)) := by
  by_cases here : p = q
  · subst here
    exact cancelled_idle
  · rwa [Idle, mutate_ne _ here]

theorem Idle.other (idle : Idle p h) (apart : p ≠ q) (f : ParticipantState → ParticipantState) :
    Idle p (mutate h q f) := by
  rwa [Idle, mutate_ne f apart]

end Idle

section Floor
variable {room : Room} {u : UserId} {p : Ptr} (here : room.participants.lookup u = some p)
  (once : Injective room.participants) (arcs : Ptr → Participant) (clk : Nat → Instant)

/-- Whoever leaves is not granted the floor by leaving. -/
theorem leave_never_grants (c : FloorController) (u : UserId) (grantMs : Nat) :
    ¬ GrantsTo (onParticipantLeave c u grantMs).2 u := by
  have absent : waits (dequeue c u) u = false := by
    rw [waits_false_iff, waiting_dequeue]
    simp
  have quiet : ¬ GrantsTo ([] : List FloorAction) u := by
    rintro ⟨_, _, granted⟩
    exact nomatch granted
  unfold onParticipantLeave
  simp only
  split
  · split
    · exact endBurst_never_regrants absent (.released u) (by simp) grantMs
    · exact quiet
  · exact quiet

include here once

theorem burstTo_idle (run : FloorRun) (idle : Idle p run.heap) {speaker : UserId} (other : speaker ≠ u) :
    Idle p (burstTo room run speaker).heap := by
  unfold burstTo onParticipant
  split
  · rename_i q entry
    refine idle.other (fun same => other ?_) _
    subst same
    exact once speaker u p entry here
  · exact idle

theorem applyFloorAction_idle (op : UInt16) (pid : Nat) (requester : UserId) (state : FloorRun × Reply)
    {action : FloorAction} (idle : Idle p state.1.heap)
    (others : ∀ priority duration, action ≠ .granted u priority duration) :
    Idle p (applyFloorAction arcs room clk op pid requester state action).1.heap := by
  cases action with
  | granted speaker priority durationS =>
    have other : speaker ≠ u := fun same => others priority durationS (by rw [same])
    have asked : Idle p (burstTo room (switchRewriters clk state.1 speaker) speaker).heap :=
      burstTo_idle here once (switchRewriters clk state.1 speaker) idle other
    simp only [applyFloorAction]
    split
    · rw [sendTo_heap]
      exact asked
    · exact asked
  | revoked prevSpeaker cause =>
    simp only [applyFloorAction, send, sendTo_heap, onParticipant]
    split
    · exact idle.cancel
    · exact idle
  | _ => exact idle

theorem applyFloorActions_idle (op : UInt16) (pid : Nat) (requester : UserId)
    {actions : List FloorAction} (others : ¬ GrantsTo actions u) {run : FloorRun}
    (idle : Idle p run.heap) :
    Idle p (applyFloorActions arcs room clk op pid requester run actions).1.heap := by
  have all : ∀ (actions : List FloorAction) (state : FloorRun × Reply), ¬ GrantsTo actions u →
      Idle p state.1.heap →
      Idle p (actions.foldl (applyFloorAction arcs room clk op pid requester) state).1.heap := by
    intro actions
    induction actions with
    | nil => exact fun _ _ idle => idle
    | cons action actions ih =>
      intro state others idle
      refine ih _ (fun ⟨priority, duration, granted⟩ => others ⟨priority, duration, ?_⟩) ?_
      · exact List.mem_cons_of_mem _ granted
      · refine applyFloorAction_idle here once arcs clk op pid requester state idle fun priority duration
          same => others ⟨priority, duration, ?_⟩
        rw [same]
        exact List.mem_cons_self
  exact all actions _ others idle

theorem floorLeave_idle {h : Heap} (idle : Idle p h) (grantMs : Nat) :
    Idle p (floorLeave arcs room h clk u grantMs).heap := by
  have blind : ∀ run : FloorRun, Shows (·.pliBurst) run.heap (flushPttSilence room clk run).heap :=
    fun run => Shows.fold id (fun h _ => .sendToReady (view_trySend fun _ _ => rfl) h _ _) _ run.heap
  simp only [floorLeave]
  split
  · exact idle
  · exact Idle.shown (applyFloorActions_idle here once arcs clk opFloorRelease 0 u
      (leave_never_grants room.floor u grantMs) idle) (blind _)

end Floor

/-- Nobody without a seat has a burst pending. -/
def Rests (hub : RoomHub) : Prop := ∀ p, (∀ r u, ¬ Member hub r u p) → Idle p hub.heap

/-- Whoever is built comes in. -/
def Opens (hub next : RoomHub) : Prop :=
  ∀ p, hub.nextPtr ≤ p → p < next.nextPtr → ∃ r u, Member next r u p

/-- Whoever is in stays. -/
def Stays (hub next : RoomHub) : Prop := ∀ r u p, Member hub r u p → Member next r u p

section Hub
variable {hub next : RoomHub} {r : RoomId} {u : UserId} {p : Ptr}

theorem Opens.of_keeps (keeps : Keeps hub next) : Opens hub next := by
  intro p low high
  rw [keeps.nextPtr] at high
  exact absurd high (Nat.not_lt.mpr low)

theorem Rests.of_confined (rests : Rests hub) (confined : Confined r hub next)
    (stays : Stays hub next) (opens : Opens hub next) : Rests next := by
  intro p away
  have outside : ∀ r u, ¬ Member hub r u p := fun r u here => away r u (stays r u _ here)
  have known : p < hub.nextPtr ∨ next.nextPtr ≤ p := by
    by_contra fresh
    rw [not_or, Nat.not_lt, Nat.not_le] at fresh
    obtain ⟨r, u, here⟩ := opens p fresh.1 fresh.2
    exact away r u here
  rw [Idle, confined.alone p known (outside r)]
  exact rests p outside

theorem Rests.of_shows (rests : Rests hub) (stays : Stays hub next)
    (shown : Shows (·.pliBurst) hub.heap next.heap) : Rests next :=
  fun p away => (rests p fun r u here => away r u (stays r u _ here)).shown shown

/-- Whoever is removed has no burst any more. -/
theorem Rests.removed (rests : Rests hub) (idle : ∀ p, Member hub r u p → Idle p hub.heap)
    (gone : hub.removeParticipant r u = .ok (next, p)) : Rests next := by
  obtain ⟨_, heap, _, leaver⟩ := removeParticipant_fixed gone
  intro q away
  rw [heap]
  by_cases left : Member hub r u q
  · exact idle q left
  · refine rests q fun r' u' here => away r' u' ?_
    refine (member_removeParticipant gone r' u' q).mpr ⟨here, ?_⟩
    rintro ⟨rfl, rfl⟩
    exact left here

theorem departFloor_idle {room : Room} (once : Injective room.participants)
    (here : room.participants.lookup u = some p) (o : Oracle) :
    Idle p (departFloor hub r room u o).1.heap := by
  have entry : room.getParticipant u = some p := here
  simp only [departFloor, entry]
  split
  · exact floorLeave_idle here once hub.arcs o.clk cancelled_idle o.grantMs
  · exact cancelled_idle

theorem departOrStay_idle (sound : WellFormed hub) (here : Member hub r u p) (o : Oracle) :
    Idle p (departOrStay hub r u o).1.heap := by
  obtain ⟨room, held, entry⟩ := here
  simp only [departOrStay, held]
  exact departFloor_idle (participants_injective sound held) entry o

theorem purge_shows (room : Room) (heap : Heap) (u : UserId) :
    Shows (·.pliBurst) heap (purgeSubscribeLayers room heap u) := by
  apply Shows.mutateAll
  intro s
  rfl

theorem cleanupOrStay_idle (sound : WellFormed hub) (here : Member hub r u p) (o : Oracle) :
    Idle p (cleanupOrStay hub r u o).1.heap := by
  obtain ⟨room, held, entry⟩ := here
  simp only [cleanupOrStay, held, cleanupRoom]
  exact (departFloor_idle (participants_injective sound held) entry o).shown (purge_shows room _ u)

theorem Stays.of_same (same : SameMembers hub next) : Stays hub next :=
  fun _ _ _ here => same.symm.member here

theorem handleRoomLeave_rests (sound : WellFormed hub) (rests : Rests hub) (session : Session) (pid : Nat)
    (o : Oracle) : Rests (handleRoomLeave hub session pid u (some r) o).hub := by
  have same : SameMembers hub (departOrStay hub r u o).1 := departOrStay_same r u o
  have departed : Rests (departOrStay hub r u o).1 :=
    rests.of_confined (departOrStay_confined o u) (.of_same same) (.of_keeps (.of_same same))
  simp only [handleRoomLeave]
  split
  · exact departed
  · rename_i removed p gone
    have left : Rests removed :=
      departed.removed (fun q here => departOrStay_idle sound (same.member here) o) gone
    have told : SameMembers removed (announceLeave removed r u p).1 := announceLeave_same r u p
    exact left.of_confined (announceLeave_confined u p) (.of_same told) (.of_keeps (.of_same told))

theorem cleanup_rests (sound : WellFormed hub) (rests : Rests hub) (session : Session) (o : Oracle) :
    Rests (cleanup hub session o).1 := by
  unfold cleanup
  split
  · rename_i r u _ _
    have same : SameMembers hub (cleanupOrStay hub r u o).1 := cleanupOrStay_same r u o
    have told : Rests (cleanupOrStay hub r u o).1 :=
      rests.of_confined (cleanupOrStay_confined o u) (.of_same same) (.of_keeps (.of_same same))
    unfold removeOrLog
    split
    · rename_i gone
      exact told.removed (fun q here => cleanupOrStay_idle sound (same.member here) o) gone
    · exact told
  · exact rests

/-- The reaper cancels after it has removed. -/
theorem announceReaped_idle (reaped : List (RoomId × Ptr)) (state : RoomHub × Outbox)
    (due : Idle p state.1.heap ∨ p ∈ reaped.map Prod.snd) :
    Idle p (reaped.foldl announceReaped state).1.heap := by
  induction reaped generalizing state with
  | nil => simpa using due
  | cons zombie reaped ih =>
    have one : (announceReaped state zombie).1.heap = mutate state.1.heap zombie.2 (·.cancelPliBurst) := by
      unfold announceReaped
      simp only
      split <;> rfl
    rw [List.foldl_cons]
    apply ih
    rw [one]
    rcases due with idle | listed
    · exact .inl idle.cancel
    · rw [List.map_cons, List.mem_cons] at listed
      rcases listed with rfl | later
      · exact .inl cancelled_idle
      · exact .inr later

theorem runZombieReaper_rests (rests : Rests hub) (nowMs : Nat) : Rests (runZombieReaper hub nowMs).1 := by
  have reaped := @reapZombies_invariant
    (fun state => ∀ p, (∀ r u, ¬ Member state.1 r u p) →
      Idle p state.1.heap ∨ p ∈ state.2.map Prod.snd)
    (fun state r u next p kept gone => by
      obtain ⟨_, heap, _, leaver⟩ := removeParticipant_fixed gone
      intro q away
      rw [heap, List.map_append, List.mem_append]
      by_cases left : q = p
      · exact .inr (.inr (by simp [left]))
      · refine (kept q fun r' u' here => away r' u' ?_).imp_right .inl
        refine (member_removeParticipant gone r' u' q).mpr ⟨here, ?_⟩
        rintro ⟨rfl, rfl⟩
        exact left (member_unique here leaver))
    hub nowMs zombieTimeoutMs fun p away => .inl (rests p away)
  intro p away
  simp only [runZombieReaper]
  refine announceReaped_idle _ _ (reaped p fun r u here => away r u ?_)
  rw [runZombieReaper, announceReaped_hub]
  exact here

end Hub

/-- The id that is drawn for a new room is not in use. -/
def NewRoomId (hub : RoomHub) : Servers.Event → Prop
  | .defaultRoom _ _ _ _ o | .request _ _ (.roomCreate _) o => o.uuid ∉ hub.rooms
  | _ => True

/-- The events by which somebody gives up a seat. -/
def Leaves : Servers.Event → Prop
  | .request _ _ (.roomLeave _) _ | .close .. | .reaper _ => True
  | _ => False

section Stays
variable (hub : RoomHub)

theorem onFloor_stays (session : Session) (found : Except Reply (RoomId × Room))
    (handler : Room → FloorRun × Reply) : Stays hub (onFloor hub session found handler).hub := by
  cases found with
  | error reply => exact fun _ _ _ here => here
  | ok place => exact .of_same (withPtt_same _ _ _)

theorem handleRoomJoin_stays (session : Session) (pid : Nat) (u : UserId) (r : RoomId) (o : Oracle) :
    Stays hub (handleRoomJoin hub session pid u (some r) o).hub := by
  rcases @handleRoomJoin_cases hub session pid u r o with ⟨_, kept, _⟩ | ⟨_, registers, _⟩
  · rw [kept]
    exact fun _ _ _ here => here
  · exact fun r' u' p here => (registers.member r' u' p).mpr (.inl here)

theorem dispatch_stays (conn : ConnId) (session : Session) (pid : Nat) {req : Request} (o : Oracle)
    (fresh : NewRoomId hub (.request conn pid req o)) (remains : ¬ Leaves (.request conn pid req o)) :
    Stays hub (dispatch hub session pid req o).hub := by
  have same : Stays hub hub := fun _ _ _ here => here
  unfold dispatch
  split
  · simp only [handleHeartbeat]
    split
    · exact .of_same (touch_same hub _ _)
    · exact same
  · exact same
  · exact same
  · rename_i d _ _
    cases d with
    | none => exact same
    | some d => exact fun r u p here => (member_create _ _ _ _ _ _ _ fresh r u p).mpr here
  · rename_i named u _
    cases named with
    | none => exact same
    | some r => exact handleRoomJoin_stays hub session pid u r o
  · exact absurd trivial remains
  · exact .of_same (.of_rooms rfl rfl rfl)
  · exact onFloor_stays hub session _ _
  · exact onFloor_stays hub session _ _
  · exact onFloor_stays hub session _ _
  · exact .of_same (.of_rooms rfl rfl rfl)

theorem dispatch_opens (session : Session) (pid : Nat) (req : Request) (o : Oracle) :
    Opens hub (dispatch hub session pid req o).hub := by
  rcases (dispatch_outcome hub session pid o req).members with keeps | ⟨r, u, registers⟩
  · exact .of_keeps keeps
  · intro p low high
    rw [registers.nextPtr] at high
    exact ⟨r, u, (registers.member r u p).mpr (.inr ⟨rfl, rfl, Nat.le_antisymm (Nat.le_of_lt_succ high) low⟩)⟩

end Stays

section Steps
variable (hmacSha1 : Bytes → Bytes → Bytes) (crc32 : Bytes → UInt32) {s : Server} {e : Servers.Event}

theorem step_stays (fresh : NewRoomId s.hub e) (remains : ¬ Leaves e) :
    Stays s.hub (Servers.step hmacSha1 crc32 s e).hub := by
  have same : Stays s.hub s.hub := fun _ _ _ here => here
  cases e with
  | defaultRoom name capacity mode simulcast o =>
    exact fun r u p here => (member_create _ _ _ _ _ _ _ fresh r u p).mpr here
  | connect => exact same
  | request conn pid req o =>
    simp only [Servers.step, Servers.request]
    split
    · exact same
    · exact dispatch_stays s.hub conn _ pid o fresh remains
  | floorTimer r o =>
    simp only [Servers.step, push, runFloorTimer]
    split
    · exact same
    split
    · exact .of_same (withPtt_same r _ _)
    · exact same
  | metricsFlush =>
    refine .of_same (flushMetrics_related (fun _ => .of_rooms rfl rfl rfl) .trans (fun hub r => ?_) s.hub)
    unfold flushRoom
    split
    · exact .of_rooms rfl rfl rfl
    · exact .of_modify rfl rfl rfl (fun _ => rfl) fun _ => rfl
  | stun remote buf nowMs dtlsHas =>
    simp only [Servers.step, StunLatch.handleStun_hub]
    split
    · exact same
    · exact .of_same (.of_modify rfl rfl rfl (fun _ => rfl) fun _ => rfl)
  | rtp remote buf o =>
    rcases handleSrtp_cases s.hub remote buf o with
      dropped | ⟨sender, touched⟩ | ⟨sender, r, room, _, _, _, relayed⟩
    · simp only [Servers.step, dropped]
      exact same
    · simp only [Servers.step, touched]
      exact .of_same (touch_same s.hub sender o.nowMs)
    · simp only [Servers.step, relayed]
      rw [relayRtp_hub]
      exact .of_same ((touch_same s.hub sender o.nowMs).trans (withPtt_same r _ _))
  | mbcp remote subtype touchMs o =>
    simp only [Servers.step, push, handleMbcpFrom]
    split
    · exact same
    split
    · exact .of_same (touch_same s.hub _ touchMs)
    split
    · exact .of_same ((touch_same s.hub _ touchMs).trans (withPtt_same _ _ _))
    · exact .of_same (touch_same s.hub _ touchMs)
  | nack remote block touchMs nowMs visit =>
    rcases handleSubscribeNack_cases s.hub remote block touchMs nowMs visit with
      dropped | ⟨subscriber, touched⟩ | ⟨subscriber, r, room, _, _, answered⟩
    · simp only [Servers.step, dropped]
      exact same
    · simp only [Servers.step, touched]
      exact .of_same (touch_same s.hub subscriber touchMs)
    · simp only [Servers.step, answered]
      exact .of_same (.of_rooms rfl rfl rfl)
  | srtpKeys p pc => exact .of_same (.of_rooms rfl rfl rfl)
  | egress p => exact .of_same (.of_rooms rfl rfl rfl)
  | _ => exact absurd trivial remains

theorem step_opens : Opens s.hub (Servers.step hmacSha1 crc32 s e).hub := by
  cases step_kind hmacSha1 crc32 s e with
  | request conn pid req o =>
    simp only [Servers.step, Servers.request]
    split
    · exact .of_keeps (.refl s.hub)
    · exact dispatch_opens s.hub _ pid req o
  | close conn o =>
    simp only [Servers.step, Servers.close]
    split
    · exact .of_keeps (.refl s.hub)
    · exact .of_keeps (cleanup_keeps _ o)
  | connect => exact .of_keeps (.refl s.hub)
  | quiet keeps _ _ => exact .of_keeps keeps

theorem flushMetrics_shows (hub : RoomHub) : Shows (·.pliBurst) hub.heap (flushMetrics hub).heap := by
  refine @flushMetrics_related (fun hub next => Shows (·.pliBurst) hub.heap next.heap)
    (fun hub => .refl _ hub.heap) (fun first second => first.trans second) (fun hub r => ?_) hub
  unfold flushRoom
  split
  · exact .refl _ hub.heap
  · apply Shows.mutateAll
    intro s
    rfl

theorem step_rests (fresh : NewRoomId s.hub e) (seated : Seated s.hub) (rests : Rests s.hub) :
    Rests (Servers.step hmacSha1 crc32 s e).hub := by
  by_cases leaves : Leaves e
  · cases e with
    | request conn pid req o =>
      cases req with
      | roomLeave named =>
        simp only [Servers.step, Servers.request]
        split
        · exact rests
        rename_i session _
        unfold dispatch
        cases session.userId with
        | none => exact rests
        | some u =>
          cases named with
          | none => exact rests
          | some r => exact handleRoomLeave_rests seated.sound rests session pid o
      | _ => exact leaves.elim
    | close conn o =>
      simp only [Servers.step, Servers.close]
      split
      · exact rests
      · exact cleanup_rests seated.sound rests _ o
    | reaper nowMs => exact runZombieReaper_rests rests nowMs
    | _ => exact leaves.elim
  · have stays := step_stays hmacSha1 crc32 fresh leaves
    by_cases roams : Roams e
    · refine rests.of_shows stays ?_
      cases e with
      | metricsFlush => exact flushMetrics_shows s.hub
      | srtpKeys p pc =>
        have keyed : Shows (·.pliBurst) s.hub.heap
            (mutate s.hub.heap p fun st => st.installSrtpKeys pc) := .mutate (by cases pc <;> rfl)
        exact keyed
      | egress p =>
        have taken : Shows (·.pliBurst) s.hub.heap
            (mutate s.hub.heap p fun st => { st with egress := st.egress.tail }) := .mutate rfl
        exact taken
      | reaper nowMs => exact absurd trivial leaves
      | _ => exact roams.elim
    · rcases step_confined hmacSha1 crc32 seated e roams with same | ⟨r, _, confined⟩
      · rw [same]
        exact rests
      · exact rests.of_confined confined stays (step_opens hmacSha1 crc32)

end Steps

section Packets
variable {hub : RoomHub} (session : Session) (pid : Nat)

/-- A packet that is no plain request asks at most the participant behind it for keyframes. -/
theorem packet_rests (rests : Rests hub) {body : PacketDispatch.Body} (other : ¬ Plain body) (o : Oracle) :
    Rests (PacketDispatch.dispatch hub session pid body o).hub := by
  have quiet : ∀ {out : Handled}, Writes (·.pliBurst) hub session out → Rests out.hub := by
    intro out writes
    refine rests.of_shows ?_ writes.hidden
    rw [writes.only]
    exact fun _ _ _ here => here
  cases user : session.userId with
  | none =>
    cases body with
    | plain req => exact absurd ⟨req, rfl⟩ other
    | _ =>
      simp only [PacketDispatch.dispatch, user]
      exact rests
  | some u =>
    cases body with
    | plain req => exact absurd ⟨req, rfl⟩ other
    | tracksAck ssrcs =>
      simp only [PacketDispatch.dispatch, user]
      exact quiet (handleAck_writes hub session pid u (fun _ _ => rfl) ssrcs o.vssrc)
    | muteUpdate d =>
      simp only [PacketDispatch.dispatch, user]
      exact quiet (handleMuteUpdate_writes hub session pid u (fun _ _ _ => rfl) d)
    | cameraReady d =>
      simp only [PacketDispatch.dispatch, user, PacketDispatch.handleCameraReady]
      split
      · exact rests
      rename_i r room p found
      split
      · exact rests
      · obtain ⟨held, entry⟩ := seat_ok found
        intro q away
        exact (rests q away).other (fun same => away r u ⟨room, held, same ▸ entry⟩) _
    | message d =>
      simp only [PacketDispatch.dispatch, user]
      exact quiet (handleMessage_writes hub session pid u d o.uuid)
    | roomSync =>
      simp only [PacketDispatch.dispatch, user]
      exact quiet (handleRoomSync_writes hub session pid u (fun _ _ => rfl) o.vssrc)
    | _ =>
      simp only [PacketDispatch.dispatch, user]
      exact rests

end Packets

section Runs
variable (hmacSha1 : Bytes → Bytes → Bytes) (crc32 : Bytes → UInt32)

/-- The ids that are drawn for new rooms are not in use. -/
def NewIds (s : WsServer) (e : PacketDispatch.Event) : Prop := ∀ e', Means e e' → NewRoomId s.hub e'

theorem connections_rest (s : WsServer) (e : PacketDispatch.Event) (fresh : NewIds s e)
    (seated : Seated s.hub) (rests : Rests s.hub) : Rests (PacketDispatch.step hmacSha1 crc32 s e).hub := by
  cases step_moved hmacSha1 crc32 s e with
  | server e' means same =>
    rw [show (PacketDispatch.step hmacSha1 crc32 s e).hub = _ from congrArg Prod.fst same]
    exact step_rests hmacSha1 crc32 (fresh e' means) seated rests
  | packet conn session pid body o opened other same =>
    rw [show (PacketDispatch.step hmacSha1 crc32 s e).hub = _ from congrArg Prod.fst same]
    exact packet_rests session pid rests other o
  | still same =>
    rw [show (PacketDispatch.step hmacSha1 crc32 s e).hub = _ from congrArg Prod.fst same]
    exact rests

/-- In every run nobody without a seat has a burst of keyframe requests pending, whichever way it
    lost the seat. -/
theorem bursts_end_with_seat (es : List PacketDispatch.Event)
    (fresh : Guarded (PacketDispatch.step hmacSha1 crc32) NewIds .new es) (p : Ptr) :
    let hub := (run (PacketDispatch.step hmacSha1 crc32) .new es).hub
    (∀ r u, ¬ Member hub r u p) → (hub.heap p).pliBurst = none := by
  intro hub away
  have kept := @guarded_invariant _ _ (PacketDispatch.step hmacSha1 crc32) NewIds
    (fun s => Seated s.hub ∧ Rests s.hub)
    (fun s e kept new => ⟨PacketSteps.step_seated hmacSha1 crc32 s e kept.1,
      connections_rest hmacSha1 crc32 s e new kept.1 kept.2⟩)
    WsServer.new ⟨new_seated, fun _ _ => rfl⟩ es fresh
  exact kept.2 p away

end Runs

section Samples
open Servers (sampleHmac sampleOracle bindingRequest)
open PacketDispatch (published ask)

/-- The publisher is latched and keyed, and turns its camera on. -/
def cameraOn : List PacketDispatch.Event :=
  published ++ [.background ⟨.stun (AddressIndex.portAt 5000) (bindingRequest 1 1) 1000 false, trivial⟩,
    .background ⟨.srtpKeys 0 .publish, trivial⟩,
    .text 0 1000 (.request 5 (.cameraReady (some "room")) (sampleOracle 0))]

def afterwards (es : List PacketDispatch.Event) : WsServer :=
  run (PacketDispatch.step sampleHmac fun _ => 0) .new es

def leaveRoom : PacketDispatch.Event := ask 0 (.roomLeave (some "room")) 0

theorem leaver_gone (r : RoomId) (u : UserId) : ¬ Member (afterwards (cameraOn ++ [leaveRoom])).hub r u 0 := by
  rintro ⟨room, held, here⟩
  have gone : ∀ e ∈ toList (afterwards (cameraOn ++ [leaveRoom])).hub.rooms,
      0 ∉ values e.2.participants := by decide +kernel
  exact gone (r, room) (mem_toList.mpr held) (mem_values.mpr ⟨u, here⟩)

theorem leaver_unasked : ((afterwards cameraOn).hub.heap 0).pliBurst ≠ none ∧
    ((afterwards (cameraOn ++ [leaveRoom])).hub.heap 0).pliBurst = none := by
  refine ⟨by decide +kernel, bursts_end_with_seat sampleHmac (fun _ => 0) (cameraOn ++ [leaveRoom]) ?_ 0
    leaver_gone⟩
  refine ⟨?_, ?_, ?_, ?_, ?_, ?_, ?_, ?_, ?_, ?_, ?_, ?_, trivial⟩
  · intro e' means
    cases means
    exact AList.notMem_empty "room"
  all_goals
    intro e' means
    cases means <;> exact trivial

end Samples
end PliBursts
