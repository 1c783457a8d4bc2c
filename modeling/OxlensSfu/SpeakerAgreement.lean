import OxlensSfu.FloorQueue
import OxlensSfu.Server

/-
Whether the two rewriters of a room follow its floor. A floor view is the little that
matters for that: the holder, and the speaker of either rewriter. Every handler either
leaves the view alone or makes both rewriters follow, except a departure.
-/
namespace SpeakerAgreement
open WireBytes SfuConfig FloorControl PttRewriter KeyedMap Participants RoomHubs RoomHub
open Signaling FloorHandlers RoomHandlers TrackHandlers Ingress Servers
open FloorQueue Membership GuardedRun

structure FloorView where
  mode : RoomMode
  holder : Option UserId
  audio : Option UserId
  video : Option UserId
  deriving DecidableEq, Repr

def viewOf (mode : RoomMode) (ptt : PttState) : FloorView where
  mode := mode
  holder := currentSpeaker ptt.floor
  audio := ptt.audioRewriter.state.speaker
  video := ptt.videoRewriter.state.speaker

def Agrees (v : FloorView) : Prop := v.audio = v.holder ∧ v.video = v.holder

instance (v : FloorView) : Decidable (Agrees v) := inferInstanceAs (Decidable (_ ∧ _))

section Effects
variable (mode : RoomMode) (clk : Nat → Instant) (run : FloorRun)

@[simp] theorem viewOf_switch (u : UserId) :
    viewOf mode (switchRewriters clk run u).ptt =
      ⟨mode, currentSpeaker run.ptt.floor, some u, some u⟩ := rfl

@[simp] theorem clearSpeaker_speaker (r : Rewriter) (now : Instant) :
    (clearSpeaker r now).1.state.speaker = none := by
  unfold clearSpeaker
  split
  · rfl
  · split <;> rfl

@[simp] theorem viewOf_clear :
    viewOf mode (clearRewriters clk run).ptt =
      ⟨mode, currentSpeaker run.ptt.floor, none, none⟩ := by
  simp [viewOf, clearRewriters]

@[simp] theorem switch_floor (u : UserId) :
    (switchRewriters clk run u).ptt.floor = run.ptt.floor := rfl

@[simp] theorem clear_floor : (clearRewriters clk run).ptt.floor = run.ptt.floor := rfl

@[simp] theorem begin_ptt (ptt : PttState) (heap : Heap) : (begin_ ptt heap).ptt = ptt := rfl

end Effects

/-- A floor operation, and what it can do. -/
theorem floorOp_transition (ptt : PttState) (op : FloorOp) :
    ∃ next acts, floorOp ptt op = ({ ptt with floor := next }, acts) ∧
      Transition ptt.floor op next acts :=
  ⟨_, _, rfl, applyOp_transition ptt.floor op⟩

theorem currentSpeaker_of_taken {c : FloorController} {s : UserId} {sp : UInt8} {start last : Nat}
    (held : c.state = .taken s sp start last) : currentSpeaker c = some s := by
  simp [currentSpeaker, held]

/-- A handler leaves the view alone, or both rewriters follow the floor. -/
def Follows (before after : FloorView) : Prop :=
  after = before ∨ Agrees after

/-- Carrying out a request switches both rewriters to whom it grants, and answers without
    touching them otherwise. -/
theorem request_follows {σ : Type} {pttOf : σ → PttState} {perform : σ → FloorAction → σ} {mode : RoomMode}
    (granted : ∀ s speaker priority durationS,
      viewOf mode (pttOf (perform s (.granted speaker priority durationS))) =
        ⟨mode, currentSpeaker (pttOf s).floor, some speaker, some speaker⟩)
    (revoked : ∀ s speaker cause, (pttOf (perform s (.revoked speaker cause))).floor = (pttOf s).floor)
    (queued : ∀ s u position priority size, pttOf (perform s (.queued u position priority size)) = pttOf s)
    (denied : ∀ s reason speaker, pttOf (perform s (.denied reason speaker)) = pttOf s)
    {ptt : PttState} {u : UserId} {p : UInt8} {now : Nat} {next : FloorController}
    {acts : List FloorAction} (can : Transition ptt.floor (.request u p now) next acts) {s : σ}
    (begun : pttOf s = { ptt with floor := next }) :
    Follows (viewOf mode ptt) (viewOf mode (pttOf (acts.foldl perform s))) := by
  cases can with
  | grantIdle idle =>
    right
    simp [granted, begun, Agrees, currentSpeaker, take]
  | grantAgain held =>
    right
    simp [granted, begun, Agrees, currentSpeaker_of_taken held]
  | preempt held other enabled higher =>
    right
    simp [granted, revoked, begun, Agrees, currentSpeaker, take]
  | stillQueued held other yields present =>
    left
    rw [List.foldl_cons, List.foldl_nil, queuedReply, queued, begun]
  | enqueue held other yields absent space =>
    left
    rw [List.foldl_cons, List.foldl_nil, queuedReply, queued, begun]
    rfl
  | deny held other yields =>
    left
    rw [List.foldl_cons, List.foldl_nil, denied, begun]

section Handlers
variable (arcs : Ptr → Participant) (room : Room) (heap : Heap) (clk : Nat → Instant)

theorem handleFloorRequest_follows (u : UserId) (pid : Nat) (priority : Option UInt8) (now : Nat) :
    Follows (viewOf room.mode room.toPttState)
      (viewOf room.mode (handleFloorRequest arcs room heap clk u pid priority now).1.ptt) := by
  obtain ⟨next, acts, result, can⟩ := floorOp_transition room.toPttState
    (.request u (priority.getD floorDefaultPriority) now)
  simp only [handleFloorRequest, result]
  refine @request_follows _ (fun state : FloorRun × Reply => state.1.ptt)
    (floorRequestAction arcs room clk u pid) room.mode ?_ ?_ ?_ ?_ room.toPttState _ _ _ _ _ can _ rfl
  · intro s speaker priority durationS
    simp [floorRequestAction]
  · intro s speaker cause
    simp [floorRequestAction]
  · intro s u position priority size
    rfl
  · intro s reason speaker
    rfl

/-- WS release: the rewriters are cleared before a queued user is granted. -/
theorem handleFloorRelease_follows (u : UserId) (pid : Nat) (grantMs : Nat) :
    Follows (viewOf room.mode room.toPttState)
      (viewOf room.mode (handleFloorRelease arcs room heap clk u pid grantMs).1.ptt) := by
  obtain ⟨next, acts, result, can⟩ := floorOp_transition room.toPttState (.release u grantMs)
  simp only [handleFloorRelease, result]
  cases can with
  | releaseHeld held =>
    right
    rcases endBurst_cases room.floor u (.released u) grantMs with
      ⟨_, ended⟩ | ⟨head, rest, _, ended⟩
    · simp [ended, flushReleased, applyFloorActions, applyFloorAction, Agrees, currentSpeaker]
    · rw [ended]
      simp only [flushReleased, applyFloorActions, applyFloorAction, List.foldl_cons,
        List.foldl_nil]
      split <;> simp [Agrees, currentSpeaker, take]
  | releaseOther held other =>
    left
    rfl
  | releaseIdle idle =>
    right
    simp [flushReleased, applyFloorActions, applyFloorAction, Agrees, currentSpeaker, idle]

theorem handleFloorPing_follows (u : UserId) (pid : Nat) (now : Nat) :
    Follows (viewOf room.mode room.toPttState)
      (viewOf room.mode (handleFloorPing room heap u pid now).1.ptt) := by
  obtain ⟨next, acts, result, can⟩ := floorOp_transition room.toPttState (.ping u now)
  simp only [handleFloorPing, result]
  left
  cases can with
  | pingHeld held => simp [viewOf, currentSpeaker, held]
  | pingOther other => rfl

theorem handleMbcp_follows (sender : Ptr) (subtype : UInt8) (now grantMs : Nat) :
    Follows (viewOf room.mode room.toPttState)
      (viewOf room.mode (handleMbcp arcs room heap clk sender subtype now grantMs).ptt) := by
  simp only [handleMbcp]
  split
  · obtain ⟨next, acts, result, can⟩ := floorOp_transition room.toPttState
      (.request (arcs sender).userId floorDefaultPriority now)
    simp only [result]
    refine @request_follows _ FloorRun.ptt (applyMbcpFloorAction arcs room clk sender) room.mode
      ?_ ?_ ?_ ?_ room.toPttState _ _ _ _ _ can _ rfl
    · intro run speaker priority durationS
      simp [applyMbcpFloorAction]
    · intro run speaker cause
      simp [applyMbcpFloorAction]
    · intro run u position priority size
      rfl
    · intro run reason speaker
      rfl
  split
  · obtain ⟨next, acts, result, can⟩ := floorOp_transition room.toPttState
      (.release (arcs sender).userId grantMs)
    simp only [result]
    cases can with
    | releaseHeld held =>
      right
      rcases endBurst_cases room.floor (arcs sender).userId (.released (arcs sender).userId)
        grantMs with ⟨_, ended⟩ | ⟨head, rest, _, ended⟩
      · simp [ended, flushReleased, applyMbcpFloorAction, Agrees, currentSpeaker]
      · simp [ended, flushReleased, applyMbcpFloorAction, Agrees, currentSpeaker, take]
    | releaseOther held other =>
      left
      rfl
    | releaseIdle idle =>
      right
      simp [flushReleased, applyMbcpFloorAction, Agrees, currentSpeaker, idle]
  split
  · obtain ⟨next, acts, result, can⟩ := floorOp_transition room.toPttState
      (.ping (arcs sender).userId now)
    simp only [result]
    left
    cases can with
    | pingHeld held => simp [viewOf, currentSpeaker, held]
    | pingOther other => rfl
  · left
    rfl

theorem floorTimerTick_follows (now grantMs : Nat) :
    Follows (viewOf room.mode room.toPttState)
      (viewOf room.mode (floorTimerTick arcs room heap clk now grantMs).ptt) := by
  obtain ⟨next, acts, result, can⟩ := floorOp_transition room.toPttState
    (.checkTimers now grantMs)
  simp only [floorTimerTick, result]
  cases can with
  | expire held =>
    rename_i s sp start last cause
    right
    rcases endBurst_cases room.floor s (.revoked s cause) grantMs with
      ⟨_, ended⟩ | ⟨head, rest, _, ended⟩
    · simp [ended, timerAction, Agrees, currentSpeaker]
    · simp [ended, timerAction, Agrees, currentSpeaker, take]
  | timersQuiet =>
    left
    rfl

/-- Who is next in line once `u` is gone. -/
def heir (c : FloorController) (u : UserId) : Option UserId :=
  ((dequeue c u).queue.head?).map (·.userId)

/-- A departing holder leaves both rewriters cleared, whoever the floor passes to. -/
theorem floorLeave_view (u : UserId) (grantMs : Nat) :
    viewOf room.mode (floorLeave arcs room heap clk u grantMs).ptt =
      if currentSpeaker room.floor = some u then ⟨room.mode, heir room.floor u, none, none⟩
      else viewOf room.mode room.toPttState := by
  obtain ⟨next, acts, result, can⟩ := floorOp_transition room.toPttState
    (.onParticipantLeave u grantMs)
  simp only [floorLeave, result]
  cases can with
  | leaveHeld held =>
    rw [if_pos (currentSpeaker_of_taken held)]
    rcases endBurst_cases (dequeue room.floor u) u (.released u) grantMs with
      ⟨empty, ended⟩ | ⟨head, rest, waiting, ended⟩
    · simp [ended, applyFloorActions, applyFloorAction, heir, empty, currentSpeaker]
    · rw [ended]
      simp only [applyFloorActions, applyFloorAction, List.foldl_cons, List.foldl_nil, heir,
        waiting, List.isEmpty_cons, Bool.false_eq_true, if_false, flushPttSilence_ptt, viewOf_clear]
      split <;> simp [currentSpeaker, take]
  | leaveOther other =>
    rw [if_neg other]
    rfl

end Handlers

def floorView (hub : RoomHub) (r : RoomId) : Option FloorView :=
  (hub.rooms.lookup r).map fun room => viewOf room.mode room.toPttState

def SameViews (hub next : RoomHub) : Prop := ∀ r, floorView next r = floorView hub r

namespace SameViews
variable {hub next last : RoomHub}

theorem trans (first : SameViews hub next) (second : SameViews next last) : SameViews hub last :=
  fun r => (second r).trans (first r)

theorem of_rooms (rooms : next.rooms = hub.rooms) : SameViews hub next := by
  intro r
  rw [floorView, floorView, rooms]

theorem of_modify {r : RoomId} {f : Room → Room} (rooms : next.rooms = modify hub.rooms r f)
    (kept : ∀ room, hub.rooms.lookup r = some room →
      viewOf (f room).mode (f room).toPttState = viewOf room.mode room.toPttState) :
    SameViews hub next := by
  intro r'
  rw [floorView, floorView, rooms, lookup_modify]
  split
  · rename_i here
    subst here
    cases found : hub.rooms.lookup r' with
    | none => rfl
    | some room => simp [kept room found]
  · rfl

end SameViews

theorem floorView_withPtt (hub : RoomHub) (r : RoomId) (ptt : PttState) (heap : Heap)
    (r' : RoomId) : floorView (withPtt hub r ptt heap) r' =
      if r' = r then (hub.rooms.lookup r).map fun room => viewOf room.mode ptt
      else floorView hub r' := by
  rw [floorView, withPtt, lookup_modify]
  split
  · rename_i here
    subst here
    cases hub.rooms.lookup r' <;> rfl
  · rfl

theorem floorView_create (hub : RoomHub) (id : RoomId) (name : String) (capacity : Option Nat)
    (mode : RoomMode) (now : Nat) (simulcast : Bool) (a v : UInt32) (r : RoomId) :
    floorView (hub.create id name capacity mode now simulcast a v) r =
      if r = id then some ⟨mode, none, none, none⟩ else floorView hub r := by
  rw [floorView, create_lookup]
  split <;> rfl

theorem removeParticipant_views {hub next : RoomHub} {r : RoomId} {u : UserId} {p : Ptr}
    (removed : hub.removeParticipant r u = .ok (next, p)) : SameViews hub next := by
  obtain ⟨room, found, here, rfl⟩ := removeParticipant_ok.mp removed
  refine .of_modify rfl fun room' found' => ?_
  rw [found, Option.some.injEq] at found'
  subst found'
  rfl

theorem addParticipant_views {hub next : RoomHub} {r : RoomId} {who : Participant} {now : Nat}
    {p : Ptr} (added : hub.addParticipant r who now = .ok (next, p)) : SameViews hub next := by
  obtain ⟨room, found, _, _, _, rfl⟩ := addParticipant_ok.mp added
  refine .of_modify rfl fun room' found' => ?_
  rw [found, Option.some.injEq] at found'
  subst found'
  rfl

theorem reapZombies_views (hub : RoomHub) (nowMs timeoutMs : Nat) :
    SameViews hub (hub.reapZombies nowMs timeoutMs).1 :=
  @reapZombies_keeps (SameViews hub)
    (fun _ _ _ _ _ same removed => same.trans (removeParticipant_views removed)) hub nowMs
    timeoutMs (.of_rooms rfl)

theorem runZombieReaper_views (hub : RoomHub) (nowMs : Nat) :
    SameViews hub (runZombieReaper hub nowMs).1 := by
  refine (reapZombies_views hub nowMs zombieTimeoutMs).trans (.of_rooms ?_)
  rw [runZombieReaper, announceReaped_hub]

theorem flushMetrics_views (hub : RoomHub) : SameViews hub (flushMetrics hub) := by
  refine @flushMetrics_related SameViews (fun _ => .of_rooms rfl) SameViews.trans (fun hub r => ?_)
    hub
  unfold flushRoom
  split
  · exact .of_rooms rfl
  · exact .of_modify rfl fun _ _ => rfl

theorem handleStun_views (hmacSha1 : Bytes → Bytes → Bytes) (crc32 : Bytes → UInt32)
    (hub : RoomHub) (buf : Bytes) (remote : SocketAddr) (now : Nat) (dtlsHas : Bool) :
    SameViews hub (StunLatch.handleStun hmacSha1 crc32 hub buf remote now dtlsHas).1 := by
  rw [StunLatch.handleStun_hub]
  split
  · exact .of_rooms rfl
  · exact .of_modify rfl fun _ _ => rfl

theorem rewrite_speaker (r : Rewriter) (p : Bytes) (sender : UserId) (isKey : Bool)
    (now : Instant) : (rewrite r p sender isKey now).1.state.speaker = r.state.speaker := by
  unfold rewrite
  split
  · rfl
  split
  · rfl
  split
  · rfl
  · simp only [forward, anchorBurst]
    split <;> rfl

theorem prepareFanoutPayload_view (mode : RoomMode) (ptt : PttState) (sender : UserId)
    (hdr : RtpPacket.RtpHeader) (p : Bytes) (now : Instant) :
    viewOf mode (prepareFanoutPayload mode ptt sender hdr p now).1 = viewOf mode ptt := by
  have rewritten : viewOf mode (rewriteByPt ptt sender hdr p now).1 = viewOf mode ptt := by
    unfold rewriteByPt
    split
    · simp [viewOf, rewrite_speaker]
    · split
      · simp [viewOf, rewrite_speaker]
      · rfl
  unfold prepareFanoutPayload
  split
  · split
    · rfl
    · split
      all_goals
        rename_i result
        rw [result] at rewritten
        exact rewritten
  · rfl

theorem handleSrtp_views (hub : RoomHub) (remote : SocketAddr) (buf : Bytes) (o : Oracle) :
    SameViews hub (handleSrtp hub remote buf o).hub := by
  rcases handleSrtp_cases hub remote buf o with
    dropped | ⟨sender, touched⟩ | ⟨sender, r, room, _, held, _, relayed⟩
  · rw [dropped]
    exact .of_rooms rfl
  · rw [touched]
    exact .of_rooms rfl
  · rw [relayed, relayRtp_hub]
    intro r'
    rw [floorView_withPtt]
    split
    · rename_i here
      subst here
      simp only [RoomHub.touch, floorView, held, Option.map_some, prepareFanoutPayload_view]
    · rfl

theorem handleSubscribeNack_views (hub : RoomHub) (remote : SocketAddr) (block : Bytes)
    (touchMs nowMs : Nat) (visit : List UserId) :
    SameViews hub (handleSubscribeNack hub remote block touchMs nowMs visit).1 := by
  rcases handleSubscribeNack_cases hub remote block touchMs nowMs visit with
    dropped | ⟨subscriber, touched⟩ | ⟨subscriber, r, room, _, _, answered⟩
  · rw [dropped]
    exact .of_rooms rfl
  · rw [touched]
    exact .of_rooms rfl
  · rw [answered]
    exact .of_rooms rfl

/-- `u` holds the floor of a room while somebody else waits. -/
def Succeeds (c : FloorController) (u : UserId) : Prop :=
  currentSpeaker c = some u ∧ heir c u ≠ none

/-- The departure of `u` from the room would pass the floor on. -/
def PassesFloor (hub : RoomHub) (r : RoomId) (u : UserId) : Prop :=
  ∃ room, hub.rooms.lookup r = some room ∧ room.mode = .ptt ∧ Succeeds room.floor u

/-- No holder leaves a PTT room, by request or by disconnect, while somebody else waits. -/
def NoSuccession (s : Server) : Event → Prop
  | .request conn _ (.roomLeave (some r)) _ => ∀ session, s.sessions conn = some session →
      ∀ u, session.userId = some u → ¬ PassesFloor s.hub r u
  | .close conn _ => ∀ session, s.sessions conn = some session →
      ∀ r u, session.currentRoom = some r → session.userId = some u → ¬ PassesFloor s.hub r u
  | _ => True

/-- A property of views that agreement is enough for, and that a room with a holder and
    silent rewriters lacks. -/
structure Audible (P : FloorView → Prop) : Prop where
  agrees : ∀ v, Agrees v → P v
  silent : ∀ mode u, ¬ P ⟨mode, some u, none, none⟩

theorem agrees_audible : Audible Agrees where
  agrees _ same := same
  silent _ _ := by simp [Agrees]

/-- Every PTT room of the hub has the property. -/
def EveryPtt (P : FloorView → Prop) (hub : RoomHub) : Prop :=
  ∀ r v, floorView hub r = some v → v.mode = .ptt → P v

section Preservation
variable {P : FloorView → Prop} {hub next : RoomHub}

theorem EveryPtt.same (good : EveryPtt P hub) (views : SameViews hub next) : EveryPtt P next := by
  intro r v found ptt
  rw [views r] at found
  exact good r v found ptt

theorem EveryPtt.follow (audible : Audible P) (good : EveryPtt P hub) {r : RoomId} {room : Room}
    (held : hub.rooms.lookup r = some room) {ptt : PttState}
    (follows : Follows (viewOf room.mode room.toPttState) (viewOf room.mode ptt)) (heap : Heap) :
    EveryPtt P (withPtt hub r ptt heap) := by
  intro r' v found mode
  rw [floorView_withPtt] at found
  split at found
  · rename_i here
    subst here
    rw [held, Option.map_some, Option.some.injEq] at found
    subst found
    rcases follows with same | agrees
    · rw [same] at mode ⊢
      exact good r' _ (by rw [floorView, held, Option.map_some]) mode
    · exact audible.agrees _ agrees
  · exact good r' v found mode

theorem departFloor_everyPtt (audible : Audible P) (good : EveryPtt P hub) {r : RoomId}
    {room : Room} (held : hub.rooms.lookup r = some room) (u : UserId) (o : Oracle) :
    EveryPtt P (departFloor hub r room u o).1 ↔ ¬ PassesFloor hub r u := by
  have passes : PassesFloor hub r u ↔ room.mode = .ptt ∧ Succeeds room.floor u := by
    constructor
    · rintro ⟨room', held', both⟩
      rw [held, Option.some.injEq] at held'
      subst held'
      exact both
    · intro both
      exact ⟨room, held, both⟩
  rw [passes]
  unfold departFloor
  simp only
  split
  · rename_i ptt
    constructor
    · rintro after ⟨_, holds, waiting⟩
      have here := after r ⟨room.mode, heir room.floor u, none, none⟩ (by
        rw [floorView_withPtt, if_pos rfl, held, Option.map_some, floorLeave_view,
          if_pos holds]) ptt
      obtain ⟨next, heir⟩ := Option.ne_none_iff_exists'.mp waiting
      rw [heir] at here
      exact audible.silent _ _ here
    · intro stays
      apply EveryPtt.follow audible good held
      rw [floorLeave_view]
      split
      · rename_i holds
        right
        have none : heir room.floor u = none := by
          by_contra waiting
          exact stays ⟨ptt, holds, waiting⟩
        exact ⟨none.symm, none.symm⟩
      · exact .inl rfl
  · rename_i conference
    constructor
    · rintro _ ⟨ptt, _⟩
      exact conference ptt
    · intro _
      exact good.same (.of_rooms rfl)

theorem EveryPtt.same_iff (views : SameViews hub next) : EveryPtt P next ↔ EveryPtt P hub :=
  ⟨fun good => good.same fun r => (views r).symm, fun good => good.same views⟩

theorem not_passes_of_absent {r : RoomId} (absent : hub.rooms.lookup r = none) (u : UserId) :
    ¬ PassesFloor hub r u := by
  rintro ⟨room, held, _⟩
  simp [absent] at held

theorem handleRoomLeave_everyPtt (audible : Audible P) (good : EveryPtt P hub) (session : Session)
    (pid : Nat) (u : UserId) (r : RoomId) (o : Oracle) :
    EveryPtt P (handleRoomLeave hub session pid u (some r) o).hub ↔ ¬ PassesFloor hub r u := by
  have departed : EveryPtt P (departOrStay hub r u o).1 ↔ ¬ PassesFloor hub r u := by
    unfold departOrStay
    cases held : hub.rooms.lookup r with
    | some room => exact departFloor_everyPtt audible good held u o
    | none => simp [good, not_passes_of_absent held]
  rw [← departed]
  simp only [handleRoomLeave]
  split
  · exact Iff.rfl
  · rename_i removed p result
    refine EveryPtt.same_iff ((removeParticipant_views result).trans ?_)
    unfold announceLeave
    split <;> exact .of_rooms rfl

theorem removeOrLog_views (told : RoomHub × Outbox) (r : RoomId) (u : UserId) :
    SameViews told.1 (removeOrLog told r u).1 := by
  unfold removeOrLog
  split
  · rename_i result
    exact removeParticipant_views result
  · exact .of_rooms rfl

theorem cleanup_everyPtt (audible : Audible P) (good : EveryPtt P hub) (session : Session)
    (o : Oracle) : EveryPtt P (cleanup hub session o).1 ↔
      ∀ r u, session.currentRoom = some r → session.userId = some u → ¬ PassesFloor hub r u := by
  unfold cleanup
  split
  · rename_i r u room user
    have told : EveryPtt P (cleanupOrStay hub r u o).1 ↔ ¬ PassesFloor hub r u := by
      unfold cleanupOrStay
      cases held : hub.rooms.lookup r with
      | some found =>
        rw [← departFloor_everyPtt audible good held u o]
        exact EveryPtt.same_iff (.of_rooms rfl)
      | none => simp [good, not_passes_of_absent held]
    rw [EveryPtt.same_iff (removeOrLog_views (cleanupOrStay hub r u o) r u), told]
    constructor
    · intro stays r' u' room' user'
      rw [room, Option.some.injEq] at room'
      rw [user, Option.some.injEq] at user'
      subst room' user'
      exact stays
    · intro stays
      exact stays r u room user
  · rename_i absent
    simp only [good, true_iff]
    intro r u room user
    exact absurd user (absent r u room)

theorem onFloor_everyPtt (audible : Audible P) (good : EveryPtt P hub) (session : Session)
    {found : Except Reply (RoomId × Room)} {handler : Room → FloorRun × Reply}
    (registered : ∀ r room, found = .ok (r, room) → hub.rooms.lookup r = some room)
    (follows : ∀ room, Follows (viewOf room.mode room.toPttState)
      (viewOf room.mode (handler room).1.ptt)) :
    EveryPtt P (onFloor hub session found handler).hub := by
  cases result : found with
  | error reply => exact good
  | ok place => exact EveryPtt.follow audible good (registered _ _ result) (follows _) _

theorem floorRoom_registered {op : UInt16} {pid : Nat} {roomId : Option RoomId} {r : RoomId}
    {room : Room} (found : floorRoom hub op pid roomId = .ok (r, room)) :
    hub.rooms.lookup r = some room := by
  unfold floorRoom at found
  split at found
  · simp at found
  split at found
  · simp at found
  rename_i held
  simp only [Except.ok.injEq, Prod.mk.injEq] at found
  rw [← found.1, ← found.2]
  exact held

theorem pttRoom_registered {op : UInt16} {pid : Nat} {roomId : Option RoomId} {r : RoomId}
    {room : Room} (found : pttRoom hub op pid roomId = .ok (r, room)) :
    hub.rooms.lookup r = some room := by
  unfold pttRoom at found
  split at found
  · simp at found
  rename_i held
  split at found
  · simp only [Except.ok.injEq, Prod.mk.injEq] at found
    rw [← found.1, ← found.2]
    exact floorRoom_registered held
  · simp at found

theorem create_everyPtt (audible : Audible P) (good : EveryPtt P hub) (id : RoomId)
    (name : String) (capacity : Option Nat) (mode : RoomMode) (now : Nat) (simulcast : Bool)
    (a v : UInt32) : EveryPtt P (hub.create id name capacity mode now simulcast a v) := by
  intro r view found ptt
  rw [floorView_create] at found
  split at found
  · rw [Option.some.injEq] at found
    subst found
    exact audible.agrees _ ⟨rfl, rfl⟩
  · exact good r view found ptt

theorem handleRoomJoin_views (session : Session) (pid : Nat) (u : UserId) (roomId : Option RoomId)
    (o : Oracle) : SameViews hub (handleRoomJoin hub session pid u roomId o).hub := by
  unfold handleRoomJoin
  split
  · exact .of_rooms rfl
  split
  · exact .of_rooms rfl
  split
  · exact .of_rooms rfl
  rename_i joined _ added
  refine (addParticipant_views added).trans ?_
  split <;> exact .of_rooms rfl

/-- The guard on requests: a leave must not pass the floor on. -/
theorem dispatch_everyPtt (audible : Audible P) (good : EveryPtt P hub) (session : Session)
    (pid : Nat) (req : Request) (o : Oracle) :
    EveryPtt P (dispatch hub session pid req o).hub ↔
      ∀ r u, req = .roomLeave (some r) → session.userId = some u → ¬ PassesFloor hub r u := by
  have other : EveryPtt P (dispatch hub session pid req o).hub →
      (∀ r, req ≠ .roomLeave (some r)) → (EveryPtt P (dispatch hub session pid req o).hub ↔
        ∀ r u, req = .roomLeave (some r) → session.userId = some u → ¬ PassesFloor hub r u) :=
    fun holds never => ⟨fun _ r u same => absurd same (never r), fun _ => holds⟩
  cases user : session.userId with
  | none =>
    have holds : EveryPtt P (dispatch hub session pid req o).hub := by
      cases req <;> simp only [dispatch, user]
      case heartbeat =>
        unfold handleHeartbeat
        split
        · exact good.same (.of_rooms rfl)
        · exact good
      all_goals exact good
    simp [holds]
  | some u =>
    rw [user] at other
    cases req with
    | heartbeat =>
      apply other _ (by simp)
      simp only [dispatch, handleHeartbeat]
      split
      · exact good.same (.of_rooms rfl)
      · exact good
    | identify d => exact other good (by simp)
    | roomCreate d =>
      apply other _ (by simp)
      simp only [dispatch, user, handleRoomCreate]
      split
      · exact good
      · exact create_everyPtt audible good _ _ _ _ _ _ _ _
    | roomJoin roomId =>
      apply other _ (by simp)
      simp only [dispatch, user]
      exact good.same (handleRoomJoin_views session pid u roomId o)
    | roomLeave roomId =>
      simp only [dispatch, user]
      cases roomId with
      | none => simpa [handleRoomLeave] using good
      | some r =>
        rw [handleRoomLeave_everyPtt audible good]
        simp
    | publishTracks d =>
      apply other _ (by simp)
      simp only [dispatch, user]
      exact good.same (.of_rooms rfl)
    | floorRequest d =>
      apply other _ (by simp)
      simp only [dispatch, user]
      exact onFloor_everyPtt audible good session (fun _ _ => pttRoom_registered)
        fun room => handleFloorRequest_follows hub.arcs room hub.heap o.clk u pid _ o.nowMs
    | floorRelease roomId =>
      apply other _ (by simp)
      simp only [dispatch, user]
      exact onFloor_everyPtt audible good session (fun _ _ => pttRoom_registered)
        fun room => handleFloorRelease_follows hub.arcs room hub.heap o.clk u pid o.grantMs
    | floorPing roomId =>
      apply other _ (by simp)
      simp only [dispatch, user]
      exact onFloor_everyPtt audible good session (fun _ _ => floorRoom_registered)
        fun room => handleFloorPing_follows room hub.heap u pid o.nowMs
    | subscribeLayer targets =>
      apply other _ (by simp)
      simp only [dispatch, user]
      exact good.same (.of_rooms rfl)

theorem handleMbcpFrom_everyPtt (audible : Audible P) (good : EveryPtt P hub)
    (remote : SocketAddr) (subtype : UInt8) (touchMs : Nat) (o : Oracle) :
    EveryPtt P (handleMbcpFrom hub remote subtype touchMs o).1 := by
  unfold handleMbcpFrom
  split
  · exact good
  rename_i sender pc r found
  have touched : EveryPtt P (hub.touch sender touchMs) := good.same (.of_rooms rfl)
  simp only
  split
  · exact touched
  rename_i room held
  split
  · exact EveryPtt.follow audible touched held (handleMbcp_follows _ room _ o.clk sender subtype
      o.nowMs o.grantMs) _
  · exact touched

theorem runFloorTimer_everyPtt (audible : Audible P) (good : EveryPtt P hub) (r : RoomId)
    (o : Oracle) : EveryPtt P (runFloorTimer hub r o).1 := by
  unfold runFloorTimer
  split
  · exact good
  rename_i room held
  split
  · exact EveryPtt.follow audible good held
      (floorTimerTick_follows hub.arcs room hub.heap o.clk o.nowMs o.grantMs) _
  · exact good

end Preservation

section Runs
variable (hmacSha1 : Bytes → Bytes → Bytes) (crc32 : Bytes → UInt32) {P : FloorView → Prop}

theorem request_everyPtt_iff (audible : Audible P) {s : Server} (good : EveryPtt P s.hub)
    (conn : ConnId) (pid : Nat) (req : Request) (o : Oracle) :
    EveryPtt P (request s conn pid req o).hub ↔ NoSuccession s (.request conn pid req o) := by
  have guard : NoSuccession s (.request conn pid req o) ↔ ∀ session, s.sessions conn = some session →
      ∀ r u, req = .roomLeave (some r) → session.userId = some u → ¬ PassesFloor s.hub r u := by
    cases req with
    | roomLeave roomId =>
      cases roomId with
      | none => simp [NoSuccession]
      | some r =>
        constructor
        · intro stays session here r' u same
          simp only [Request.roomLeave.injEq, Option.some.injEq] at same
          subst same
          exact stays session here u
        · intro stays session here u
          exact stays session here r u rfl
    | _ => simp [NoSuccession]
  rw [guard]
  unfold Servers.request
  cases s.sessions conn with
  | none => simp [good]
  | some session => simp [dispatch_everyPtt audible good]

theorem close_everyPtt_iff (audible : Audible P) {s : Server} (good : EveryPtt P s.hub)
    (conn : ConnId) (o : Oracle) :
    EveryPtt P (close s conn o).hub ↔ NoSuccession s (.close conn o) := by
  simp only [NoSuccession, close]
  cases s.sessions conn with
  | none => simp [good]
  | some session =>
    have cleaned := cleanup_everyPtt audible good session o
    simpa [push] using cleaned

theorem step_everyPtt_iff (audible : Audible P) (s : Server) (good : EveryPtt P s.hub)
    (e : Event) :
    EveryPtt P (step hmacSha1 crc32 s e).hub ↔ NoSuccession s e := by
  cases e with
  | request conn pid req o => exact request_everyPtt_iff audible good conn pid req o
  | close conn o => exact close_everyPtt_iff audible good conn o
  | defaultRoom name capacity mode simulcast o =>
    exact iff_of_true (create_everyPtt audible good _ _ _ _ _ _ _ _) trivial
  | connect => exact iff_of_true good trivial
  | floorTimer r o => exact iff_of_true (runFloorTimer_everyPtt audible good r o) trivial
  | reaper nowMs => exact iff_of_true (good.same (runZombieReaper_views s.hub nowMs)) trivial
  | metricsFlush => exact iff_of_true (good.same (flushMetrics_views s.hub)) trivial
  | stun remote buf nowMs dtlsHas =>
    exact iff_of_true (good.same (handleStun_views hmacSha1 crc32 s.hub buf remote nowMs dtlsHas))
      trivial
  | srtpKeys p pc => exact iff_of_true (good.same (.of_rooms rfl)) trivial
  | rtp remote buf o => exact iff_of_true (good.same (handleSrtp_views s.hub remote buf o)) trivial
  | mbcp remote subtype touchMs o =>
    exact iff_of_true (handleMbcpFrom_everyPtt audible good remote subtype touchMs o) trivial
  | nack remote block touchMs nowMs visit =>
    exact iff_of_true
      (good.same (handleSubscribeNack_views s.hub remote block touchMs nowMs visit)) trivial
  | egress p => exact iff_of_true (good.same (.of_rooms rfl)) trivial

theorem new_everyPtt : EveryPtt P Server.new.hub := by
  intro r v found
  simp [floorView, Server.new, RoomHub.new] at found

/-- Any such property holds all along a run exactly when no holder leaves while somebody
    else waits. -/
theorem everyPtt_iff_noSuccession (audible : Audible P) (es : List Event) :
    Always (step hmacSha1 crc32) (fun s => EveryPtt P s.hub) Server.new es ↔
      Guarded (step hmacSha1 crc32) NoSuccession Server.new es := by
  apply @always_iff_guarded _ _ (step hmacSha1 crc32) NoSuccession (fun s => EveryPtt P s.hub)
    (fun _ => True)
  · intros
    trivial
  · intro s e _ good
    exact step_everyPtt_iff hmacSha1 crc32 audible s good e
  · trivial
  · exact new_everyPtt

end Runs

/-- In every PTT room both rewriters hold exactly the current speaker of the floor. -/
def SpeakersAgree (hub : RoomHub) : Prop :=
  ∀ r room, hub.rooms.lookup r = some room → room.mode = .ptt →
    room.audioRewriter.state.speaker = currentSpeaker room.floor ∧
      room.videoRewriter.state.speaker = currentSpeaker room.floor

theorem speakersAgree_iff (hub : RoomHub) : SpeakersAgree hub ↔ EveryPtt Agrees hub := by
  constructor
  · intro agree r v found ptt
    rw [floorView, Option.map_eq_some_iff] at found
    obtain ⟨room, held, rfl⟩ := found
    exact agree r room held ptt
  · intro every r room held ptt
    exact every r _ (by rw [floorView, held, Option.map_some]) ptt

theorem speakers_agree_iff_no_succession (hmacSha1 : Bytes → Bytes → Bytes)
    (crc32 : Bytes → UInt32) (es : List Event) :
    Always (step hmacSha1 crc32) (fun s => SpeakersAgree s.hub) Server.new es ↔
      Guarded (step hmacSha1 crc32) NoSuccession Server.new es := by
  simp only [speakersAgree_iff]
  exact everyPtt_iff_noSuccession hmacSha1 crc32 agrees_audible es

/-- The holder leaves while a second user waits: the second gets the floor, and then
    both rewriters are cleared. -/
def leaveWithWaiter : List Event :=
  sampleRoom .ptt false :: joinAs 0 "a" 1 ++ joinAs 1 "b" 2 ++
    [requestFloor 0, requestFloor 1,
      .request 0 4 (.roomLeave (some "room")) (sampleOracle 0)]

theorem waiter_inherits_silence :
    ¬ ∀ (hmacSha1 : Bytes → Bytes → Bytes) (crc32 : Bytes → UInt32) (es : List Event),
      SpeakersAgree (run (step hmacSha1 crc32) Server.new es).hub := by
  intro agree
  have every := (speakersAgree_iff _).mp (agree (fun _ _ => []) (fun _ => 0) leaveWithWaiter)
  have view : floorView (run (step (fun _ _ => []) fun _ => 0) Server.new leaveWithWaiter).hub
      "room" = some ⟨.ptt, some "b", none, none⟩ := by decide
  exact absurd (every "room" _ view rfl) (by decide)

end SpeakerAgreement
