import OxlensSfu.LayerFrames
import OxlensSfu.Seating

/-
Which events touch what the announcements read: the tracks of a participant, its virtual
SSRC and the layers that it selected. Floor traffic, datagrams other than RTP and the
background tasks leave all of it alone; who leaves takes entries away.
-/
namespace CatalogFrames
open WireBytes SfuConfig RtpPacket KeyedMap Participants RoomHubs RoomHub Signaling FloorHandlers
open RoomHandlers TrackHandlers Ingress Servers Membership MemberFrames MediaFrames RoomSteps
open LayerFrames Catalog Seating
open FloorControl (UserId FloorAction)
open PttRewriter (Instant)

/-- The view shows neither queue nor keyframe bursts. -/
structure FloorBlind {α : Type} (view : ParticipantState → α) : Prop where
  queue : ∀ s egress, view { s with egress := egress } = view s
  burst : ∀ s pliBurst, view { s with pliBurst := pliBurst } = view s

section Floor
variable {α : Type} {view : ParticipantState → α} (blind : FloorBlind view)
variable (arcs : Ptr → Participant) (room : Room) (heap : Heap) (clk : Nat → Instant)
  (run : FloorRun)

include blind

theorem sent_shows (h : Heap) (targets : List Ptr) (pkt : EgressPacket) :
    Shows view h (sendToReady h targets pkt) :=
  .sendToReady (view_trySend blind.queue) h targets pkt

omit blind in
theorem onParticipant_shows (u : UserId) {f : ParticipantState → ParticipantState}
    (kept : ∀ s, view (f s) = view s) : Shows view run.heap (onParticipant room run u f).heap := by
  unfold onParticipant
  split
  · exact .mutate (kept _)
  · exact .refl view run.heap

theorem cancelOf_shows (u : UserId) :
    Shows view run.heap (onParticipant room run u (·.cancelPliBurst)).heap :=
  onParticipant_shows room run u fun s => blind.burst s none

theorem burstTo_shows (u : UserId) : Shows view run.heap (burstTo room run u).heap :=
  onParticipant_shows room run u fun _ => view_requestKeyframe blind.burst _ _ _

theorem sendMbcpTo_shows (u : UserId) (pkt : Bytes) :
    Shows view run.heap (sendMbcpTo room run u pkt).heap := by
  unfold sendMbcpTo
  split
  · exact sent_shows blind run.heap _ _
  · exact .refl view run.heap

theorem flushPttSilence_shows : Shows view run.heap (flushPttSilence room clk run).heap :=
  Shows.fold id (fun h _ => sent_shows blind h _ _) _ run.heap

theorem floorRequestAction_shows (requester : UserId) (pid : Nat) (state : FloorRun × Reply)
    (action : FloorAction) : Shows view state.1.heap
      (floorRequestAction arcs room clk requester pid state action).1.heap := by
  obtain ⟨run, response⟩ := state
  cases action with
  | granted speaker priority durationS =>
    exact burstTo_shows blind room (switchRewriters clk run speaker) speaker
  | revoked prevSpeaker cause =>
    simp only [floorRequestAction, Deliveries.sendTo_heap]
    exact cancelOf_shows blind room run prevSpeaker
  | _ => exact .refl view run.heap

theorem applyFloorAction_shows (op : UInt16) (pid : Nat) (requester : UserId)
    (state : FloorRun × Reply) (action : FloorAction) : Shows view state.1.heap
      (applyFloorAction arcs room clk op pid requester state action).1.heap := by
  obtain ⟨run, response⟩ := state
  cases action with
  | granted speaker priority durationS =>
    have taken := burstTo_shows blind room (switchRewriters clk run speaker) speaker
    simp only [applyFloorAction]
    split
    · rw [Deliveries.sendTo_heap]
      exact taken
    · exact taken
  | revoked prevSpeaker cause =>
    simp only [applyFloorAction, send, Deliveries.sendTo_heap]
    exact cancelOf_shows blind room run prevSpeaker
  | _ => exact .refl view run.heap

theorem applyFloorActions_shows (op : UInt16) (pid : Nat) (requester : UserId)
    (actions : List FloorAction) : Shows view run.heap
      (applyFloorActions arcs room clk op pid requester run actions).1.heap :=
  Shows.fold (fun state : FloorRun × Reply => state.1.heap)
    (applyFloorAction_shows blind arcs room clk op pid requester) actions (run, _)

theorem applyMbcpFloorAction_shows (requester : Ptr) (action : FloorAction) :
    Shows view run.heap (applyMbcpFloorAction arcs room clk requester run action).heap := by
  cases action with
  | granted speaker priority durationS =>
    exact (burstTo_shows blind room (switchRewriters clk run speaker) speaker).trans
      (sent_shows blind _ _ _)
  | revoked prevSpeaker cause =>
    exact ((cancelOf_shows blind room run prevSpeaker).trans
      (sendMbcpTo_shows blind room _ _ _)).trans (sent_shows blind _ _ _)
  | pingOk => exact .refl view run.heap
  | pingDenied => exact .refl view run.heap
  | _ => exact sent_shows blind run.heap _ _

theorem timerAction_shows (action : FloorAction) :
    Shows view run.heap (timerAction arcs room clk run action).heap := by
  cases action with
  | granted speaker priority durationS =>
    simp only [timerAction, send, Deliveries.sendTo_heap]
    exact burstTo_shows blind room (switchRewriters clk run speaker) speaker
  | revoked prevSpeaker cause =>
    simp only [timerAction, send, Deliveries.sendTo_heap]
    exact cancelOf_shows blind room run prevSpeaker
  | _ => exact .refl view run.heap

omit blind in
/-- A flush for every Released among the actions. -/
theorem flushReleased_shows {flush : FloorRun → FloorRun}
    (one : ∀ run, Shows view run.heap (flush run).heap) (actions : List FloorAction) :
    Shows view run.heap (flushReleased flush run actions).heap := by
  apply Shows.fold FloorRun.heap
  intro run action
  cases action with
  | released prevSpeaker => exact one run
  | _ => exact .refl view run.heap

theorem handleFloorRequest_shows (u : UserId) (pid : Nat) (priority : Option UInt8) (now : Nat) :
    Shows view heap (handleFloorRequest arcs room heap clk u pid priority now).1.heap :=
  Shows.fold (fun state : FloorRun × Reply => state.1.heap)
    (floorRequestAction_shows blind arcs room clk u pid) _ (begin_ _ heap, _)

theorem handleFloorRelease_shows (u : UserId) (pid : Nat) (grantMs : Nat) :
    Shows view heap (handleFloorRelease arcs room heap clk u pid grantMs).1.heap :=
  (flushReleased_shows (begin_ _ heap) (flushPttSilence_shows blind room clk) _).trans
    (applyFloorActions_shows blind arcs room clk _ _ _ _ _)

theorem handleMbcp_shows (sender : Ptr) (subtype : UInt8) (now grantMs : Nat) :
    Shows view heap (handleMbcp arcs room heap clk sender subtype now grantMs).heap := by
  have applied : ∀ (actions : List FloorAction) (run : FloorRun), Shows view run.heap
      (actions.foldl (applyMbcpFloorAction arcs room clk sender) run).heap :=
    fun actions run => Shows.fold FloorRun.heap
      (fun run action => applyMbcpFloorAction_shows blind arcs room clk run sender action)
      actions run
  simp only [handleMbcp]
  split
  · exact applied _ (begin_ _ heap)
  split
  · have dropped : ∀ run, Shows view run.heap (clearRewriters clk run).heap :=
      fun run => .refl view run.heap
    exact (flushReleased_shows (begin_ _ heap) dropped _).trans (applied _ _)
  split <;> exact .refl view heap

theorem floorTimerTick_shows (now grantMs : Nat) :
    Shows view heap (floorTimerTick arcs room heap clk now grantMs).heap :=
  Shows.fold FloorRun.heap (timerAction_shows blind arcs room clk) _ (begin_ _ heap)

theorem floorLeave_shows (u : UserId) (grantMs : Nat) :
    Shows view heap (floorLeave arcs room heap clk u grantMs).heap := by
  simp only [floorLeave]
  split
  · exact .refl view heap
  · exact (applyFloorActions_shows blind arcs room clk (begin_ _ heap) _ _ _ _).trans
      (flushPttSilence_shows blind room clk _)

end Floor

/-- Tracks and virtual SSRC are the same; entries for publishers at most go. -/
structure Faded (s t : ParticipantState) : Prop where
  tracks : t.tracks = s.tracks
  vssrc : t.simulcastVideoSsrc = s.simulcastVideoSsrc
  layers : ∀ {k entry}, t.subscribeLayers.lookup k = some entry →
    s.subscribeLayers.lookup k = some entry

/-- What the announcements and the layer selection read. -/
def catalog (s : ParticipantState) : List Track × UInt32 × Table UserId SubscribeLayerEntry :=
  (s.tracks, s.simulcastVideoSsrc, s.subscribeLayers)

def AllFaded (h h' : Heap) : Prop := ∀ p, Faded (h p) (h' p)

namespace AllFaded
variable {h h' h'' : Heap}

theorem of_shows (same : Shows catalog h h') : AllFaded h h' := by
  intro p
  have fields := same p
  simp only [catalog, Prod.mk.injEq] at fields
  obtain ⟨tracks, vssrc, layers⟩ := fields
  exact ⟨tracks, vssrc, fun found => by rw [← layers]; exact found⟩

theorem refl (h : Heap) : AllFaded h h := of_shows (.refl catalog h)

theorem trans (first : AllFaded h h') (second : AllFaded h' h'') : AllFaded h h'' := fun p =>
  ⟨(second p).tracks.trans (first p).tracks, (second p).vssrc.trans (first p).vssrc,
    fun found => (first p).layers ((second p).layers found)⟩

end AllFaded

theorem catalog_floor : FloorBlind catalog := ⟨fun _ _ => rfl, fun _ _ => rfl⟩

section Purge
variable (room : Room) (heap : Heap) (u : UserId)

/-- The entries after a purge, participant by participant. -/
theorem purge_lookup (p : Ptr) (k : UserId) :
    (purgeSubscribeLayers room heap u p).subscribeLayers.lookup k =
      if k = u ∧ p ∈ room.otherParticipants u then none
      else (heap p).subscribeLayers.lookup k := by
  unfold purgeSubscribeLayers
  generalize room.otherParticipants u = others
  induction others generalizing heap with
  | nil => simp
  | cons q others ih =>
    rw [List.foldl_cons, ih]
    by_cases here : p = q
    · subst here
      rw [mutate_self, lookup_erase]
      by_cases forgotten : k = u
      · simp [forgotten]
      · simp [forgotten]
    · rw [mutate_ne _ here]
      simp [here]

/-- Whoever left, no tracks and no virtual SSRC of the others are touched. -/
theorem purge_faded : AllFaded heap (purgeSubscribeLayers room heap u) := by
  have shown : Shows (fun s => (s.tracks, s.simulcastVideoSsrc)) heap
      (purgeSubscribeLayers room heap u) := by
    apply Shows.mutateAll
    intro s
    rfl
  intro p
  have fields := shown p
  simp only [Prod.mk.injEq] at fields
  refine ⟨fields.1, fields.2, fun found => ?_⟩
  rw [purge_lookup] at found
  split at found
  · simp at found
  · exact found

end Purge

/-- A relation that whoever leaves keeps between the heaps before and after. -/
structure DepartureFrame (rel : Heap → Heap → Prop) : Prop where
  refl : ∀ h, rel h h
  trans : ∀ {h h' h''}, rel h h' → rel h' h'' → rel h h''
  cancels : ∀ h p, rel h (mutate h p (·.cancelPliBurst))
  leaves : ∀ arcs room h clk u grantMs, rel h (floorLeave arcs room h clk u grantMs).heap
  purges : ∀ room h u, rel h (purgeSubscribeLayers room h u)

section Departure
variable {rel : Heap → Heap → Prop} (frame : DepartureFrame rel) (hub : RoomHub) (o : Oracle)

include frame

theorem departFloor_framed (r : RoomId) (room : Room) (u : UserId) :
    rel hub.heap (departFloor hub r room u o).1.heap := by
  have cancelled : ∀ heap, rel hub.heap heap → rel hub.heap (if room.mode = .ptt then
      (withPtt hub r (floorLeave hub.arcs room heap o.clk u o.grantMs).ptt
          (floorLeave hub.arcs room heap o.clk u o.grantMs).heap,
        (floorLeave hub.arcs room heap o.clk u o.grantMs).sent)
      else ({ hub with heap := heap }, [])).1.heap := by
    intro heap same
    split
    · exact frame.trans same (frame.leaves hub.arcs room heap o.clk u _)
    · exact same
  unfold departFloor
  apply cancelled
  split
  · exact frame.cancels _ _
  · exact frame.refl hub.heap

theorem departOrStay_framed (r : RoomId) (u : UserId) :
    rel hub.heap (departOrStay hub r u o).1.heap := by
  unfold departOrStay
  split
  · exact departFloor_framed frame hub o r _ u
  · exact frame.refl hub.heap

theorem handleRoomLeave_framed (session : Session) (pid : Nat) (u : UserId)
    (roomId : Option RoomId) :
    rel hub.heap (handleRoomLeave hub session pid u roomId o).hub.heap := by
  unfold handleRoomLeave
  split
  · exact frame.refl hub.heap
  rename_i r
  have departed := departOrStay_framed frame hub o r u
  simp only
  split
  · exact departed
  · rename_i removed p result
    have gone : rel hub.heap removed.heap := by
      rw [(removeParticipant_fixed result).2.1]
      exact departed
    unfold announceLeave
    split
    · exact frame.trans gone (frame.purges _ _ _)
    · exact gone

theorem cleanup_framed (session : Session) : rel hub.heap (cleanup hub session o).1.heap := by
  unfold cleanup
  split
  · rename_i r u _ _
    have told : rel hub.heap (cleanupOrStay hub r u o).1.heap := by
      unfold cleanupOrStay
      split
      · exact frame.trans (departFloor_framed frame hub o r _ u) (frame.purges _ _ _)
      · exact frame.refl hub.heap
    unfold removeOrLog
    split
    · rename_i removed p result
      rw [(removeParticipant_fixed result).2.1]
      exact told
    · exact told
  · exact frame.refl hub.heap

theorem runZombieReaper_framed (nowMs : Nat) : rel hub.heap (runZombieReaper hub nowMs).1.heap := by
  have reaped : (hub.reapZombies nowMs zombieTimeoutMs).1.heap = hub.heap :=
    @reapZombies_keeps (fun next => next.heap = hub.heap)
      (fun _ _ _ _ _ same removed => (removeParticipant_fixed removed).2.1.trans same) hub nowMs
      zombieTimeoutMs rfl
  have announced : ∀ (zombies : List (RoomId × Ptr)) (state : RoomHub × Outbox),
      rel state.1.heap (zombies.foldl announceReaped state).1.heap := by
    intro zombies
    induction zombies with
    | nil => exact fun state => frame.refl state.1.heap
    | cons zombie zombies ih =>
      intro state
      refine frame.trans ?_ (ih (announceReaped state zombie))
      simp only [announceReaped]
      split <;> exact frame.cancels _ _
  have told := announced (hub.reapZombies nowMs zombieTimeoutMs).2
    ((hub.reapZombies nowMs zombieTimeoutMs).1, [])
  rw [← reaped]
  exact told

end Departure

theorem faded_frame : DepartureFrame AllFaded where
  refl := .refl
  trans := .trans
  cancels _ _ := .of_shows (.mutate rfl)
  leaves arcs room h clk u grantMs :=
    .of_shows (floorLeave_shows catalog_floor arcs room h clk u grantMs)
  purges room h u := purge_faded room h u

section Handlers
variable (hub : RoomHub) (o : Oracle)

theorem touch_faded (p : Ptr) (ts : Nat) : AllFaded hub.heap (hub.touch p ts).heap := by
  have touched : Shows catalog hub.heap (mutate hub.heap p fun s => s.touch ts) := .mutate rfl
  exact .of_shows touched

theorem departOrStay_faded (r : RoomId) (u : UserId) :
    AllFaded hub.heap (departOrStay hub r u o).1.heap :=
  departOrStay_framed faded_frame hub o r u

theorem handleRoomLeave_faded (session : Session) (pid : Nat) (u : UserId)
    (roomId : Option RoomId) :
    AllFaded hub.heap (handleRoomLeave hub session pid u roomId o).hub.heap :=
  handleRoomLeave_framed faded_frame hub o session pid u roomId

theorem cleanup_faded (session : Session) : AllFaded hub.heap (cleanup hub session o).1.heap :=
  cleanup_framed faded_frame hub o session

theorem runZombieReaper_faded (nowMs : Nat) :
    AllFaded hub.heap (runZombieReaper hub nowMs).1.heap :=
  runZombieReaper_framed faded_frame hub nowMs

theorem flushMetrics_faded : AllFaded hub.heap (flushMetrics hub).heap := by
  refine @flushMetrics_related (fun hub next => AllFaded hub.heap next.heap)
    (fun hub => .refl hub.heap) AllFaded.trans (fun hub r => ?_) hub
  unfold flushRoom
  split
  · exact .refl hub.heap
  · apply AllFaded.of_shows
    apply Shows.mutateAll
    intro s
    rfl

theorem handleStun_faded (hmacSha1 : Bytes → Bytes → Bytes) (crc32 : Bytes → UInt32) (buf : Bytes)
    (remote : SocketAddr) (now : Nat) (dtlsHas : Bool) :
    AllFaded hub.heap (StunLatch.handleStun hmacSha1 crc32 hub buf remote now dtlsHas).1.heap := by
  rw [StunLatch.handleStun_hub]
  split
  · exact .refl hub.heap
  · rename_i p pc r _
    have latched : Shows catalog hub.heap (mutate hub.heap p fun s => s.latchAddress pc remote) :=
      .mutate (by cases pc <;> rfl)
    exact (AllFaded.of_shows latched).trans (touch_faded (hub.latchSession p pc r remote) p now)

theorem handleMbcpFrom_faded (remote : SocketAddr) (subtype : UInt8) (touchMs : Nat) :
    AllFaded hub.heap (handleMbcpFrom hub remote subtype touchMs o).1.heap := by
  unfold handleMbcpFrom
  split
  · exact .refl hub.heap
  rename_i sender pc r _
  have touched := touch_faded hub sender touchMs
  simp only
  split
  · exact touched
  split
  · exact touched.trans (.of_shows (handleMbcp_shows catalog_floor _ _ _ _ _ _ _ _))
  · exact touched

theorem runFloorTimer_faded (r : RoomId) :
    AllFaded hub.heap (runFloorTimer hub r o).1.heap := by
  unfold runFloorTimer
  split
  · exact .refl hub.heap
  split
  · exact .of_shows (floorTimerTick_shows catalog_floor _ _ _ _ _ _)
  · exact .refl hub.heap

theorem handleSubscribeNack_faded (remote : SocketAddr) (block : Bytes) (touchMs nowMs : Nat)
    (visit : List UserId) :
    AllFaded hub.heap (handleSubscribeNack hub remote block touchMs nowMs visit).1.heap := by
  rcases handleSubscribeNack_cases hub remote block touchMs nowMs visit with
    dropped | ⟨subscriber, touched⟩ | ⟨subscriber, r, room, _, _, answered⟩
  · rw [dropped]
    exact .refl hub.heap
  · rw [touched]
    exact touch_faded hub subscriber touchMs
  · rw [answered]
    refine (touch_faded hub subscriber touchMs).trans (.of_shows fun p => ?_)
    obtain ⟨_, tracks, vssrc, layers⟩ := NackReplies.shows_fields
      (NackReplies.handleNackBlock_answers hub.arcs room visit subscriber
        (hub.touch subscriber touchMs).heap block nowMs).1 p
    simp only [catalog, tracks, vssrc, layers]

theorem onFloor_faded (session : Session) {found : Except Reply (RoomId × Room)}
    {handler : Room → FloorRun × Reply}
    (quiet : ∀ room, Shows catalog hub.heap (handler room).1.heap) :
    AllFaded hub.heap (onFloor hub session found handler).hub.heap := by
  unfold onFloor
  split
  · exact .refl hub.heap
  · exact .of_shows (quiet _)

end Handlers

/-- The events that bring somebody in, publish, select or fan out. -/
def Tells : Event → Prop
  | .request _ _ (.roomJoin _) _ | .request _ _ (.publishTracks _) _
  | .request _ _ (.subscribeLayer _) _ | .rtp .. => True
  | _ => False

section Steps
variable (hmacSha1 : Bytes → Bytes → Bytes) (crc32 : Bytes → UInt32) (s : Server) (e : Event)

theorem dispatch_faded (session : Session) (pid : Nat) {req : Request} (o : Oracle)
    (quiet : ∀ conn, ¬ Tells (.request conn pid req o)) :
    AllFaded s.hub.heap (dispatch s.hub session pid req o).hub.heap := by
  have beat : AllFaded s.hub.heap (handleHeartbeat s.hub session o.nowMs).heap := by
    unfold handleHeartbeat
    split
    · exact touch_faded s.hub _ _
    · exact .refl s.hub.heap
  cases user : session.userId with
  | none =>
    cases req <;> simp only [dispatch, user]
    case heartbeat => exact beat
    all_goals exact .refl s.hub.heap
  | some u =>
    cases req <;> simp only [dispatch, user]
    case heartbeat => exact beat
    case identify d => exact .refl s.hub.heap
    case roomCreate d =>
      unfold handleRoomCreate
      split
      · exact .refl s.hub.heap
      · exact .refl s.hub.heap
    case roomJoin roomId => exact absurd trivial (quiet 0)
    case roomLeave roomId => exact handleRoomLeave_faded s.hub o session pid u roomId
    case publishTracks d => exact absurd trivial (quiet 0)
    case subscribeLayer targets => exact absurd trivial (quiet 0)
    case floorRequest d =>
      exact onFloor_faded s.hub session fun room =>
        handleFloorRequest_shows catalog_floor _ room _ _ _ _ _ _
    case floorRelease roomId =>
      exact onFloor_faded s.hub session fun room =>
        handleFloorRelease_shows catalog_floor _ room _ _ _ _ _
    case floorPing roomId => exact onFloor_faded s.hub session fun room => .refl catalog s.hub.heap

/-- All other events leave the tracks and virtual SSRCs alone, and make no entry. -/
theorem step_faded (quiet : ¬ Tells e) :
    AllFaded s.hub.heap (Servers.step hmacSha1 crc32 s e).hub.heap := by
  cases e with
  | request conn pid req o =>
    simp only [Servers.step, Servers.request]
    split
    · exact .refl s.hub.heap
    · rename_i session _
      refine dispatch_faded s session pid o fun conn' tells => quiet ?_
      cases req <;> exact tells
  | close conn o =>
    simp only [Servers.step, Servers.close]
    split
    · exact .refl s.hub.heap
    · exact cleanup_faded s.hub o _
  | defaultRoom name capacity mode simulcast o => exact .refl s.hub.heap
  | connect => exact .refl s.hub.heap
  | floorTimer r o => exact runFloorTimer_faded s.hub o r
  | reaper nowMs => exact runZombieReaper_faded s.hub nowMs
  | metricsFlush => exact flushMetrics_faded s.hub
  | stun remote buf nowMs dtlsHas =>
    exact handleStun_faded s.hub hmacSha1 crc32 buf remote nowMs dtlsHas
  | srtpKeys p pc =>
    have keyed : Shows catalog s.hub.heap (mutate s.hub.heap p fun st => st.installSrtpKeys pc) :=
      .mutate (by cases pc <;> rfl)
    exact .of_shows keyed
  | rtp remote buf o => exact absurd trivial quiet
  | mbcp remote subtype touchMs o => exact handleMbcpFrom_faded s.hub o remote subtype touchMs
  | nack remote block touchMs nowMs visit =>
    exact handleSubscribeNack_faded s.hub remote block touchMs nowMs visit
  | egress p =>
    have popped : Shows catalog s.hub.heap
        (mutate s.hub.heap p fun st => { st with egress := st.egress.tail }) := .mutate rfl
    exact .of_shows popped

/-- A room's participants stand under their own names. -/
theorem seated_named {hub : RoomHub} (seated : Seated hub) {r : RoomId} {room : Room}
    (held : hub.rooms.lookup r = some room) : Named hub.arcs room :=
  fun _ _ entry => seated.named ⟨room, held, entry⟩

/-- The participant behind `p` is registered in a room of this kind. -/
def Resident (hub : RoomHub) (r : RoomId) (simulcast : Bool) (u : UserId) (p : Ptr) : Prop :=
  ∃ room, hub.rooms.lookup r = some room ∧ room.simulcastEnabled = simulcast ∧
    room.participants.lookup u = some p

theorem Resident.member {hub : RoomHub} {r : RoomId} {simulcast : Bool} {u : UserId} {p : Ptr}
    (here : Resident hub r simulcast u p) : Member hub r u p := by
  obtain ⟨room, held, _, entry⟩ := here
  exact ⟨room, held, entry⟩

/-- No event turns a room with participants into one of the other kind. -/
theorem step_resident {r : RoomId} {simulcast : Bool} {u : UserId} {p : Ptr}
    (here : Resident (Servers.step hmacSha1 crc32 s e).hub r simulcast u p)
    (was : Member s.hub r u p) : Resident s.hub r simulcast u p := by
  obtain ⟨after, found, kind, entry⟩ := here
  obtain ⟨before, held, there⟩ := was
  refine ⟨before, held, ?_, there⟩
  rcases step_changes hmacSha1 crc32 s e with changes | creates
  · obtain ⟨room, held', _, same, _⟩ := changes r after found
    rw [held, Option.some.injEq] at held'
    rw [held', ← same, kind]
  · obtain ⟨id, name, capacity, mode, createdAt, sim, a, v, made⟩ := creates
    rw [made] at found
    rcases create_found found with rfl | ⟨_, same⟩
    · simp [Room.new] at entry
    · rw [held, Option.some.injEq] at same
      rw [same, kind]

/-- Except for a join, an event seats nobody. -/
theorem step_member (stays : ∀ conn pid roomId o, e ≠ .request conn pid (.roomJoin roomId) o)
    {r : RoomId} {u : UserId} {p : Ptr}
    (here : Member (Servers.step hmacSha1 crc32 s e).hub r u p) : Member s.hub r u p := by
  cases step_kind hmacSha1 crc32 s e with
  | request conn pid req o =>
    simp only [Servers.step, Servers.request] at here
    split at here
    · exact here
    rename_i session _
    have outcome := dispatch_outcome s.hub session pid o req
    revert outcome here
    generalize (dispatch s.hub session pid req o).hub = next
    generalize (dispatch s.hub session pid req o).session = moved
    intro here outcome
    cases outcome with
    | stays keeps _ _ _ => exact keeps.member here
    | renamed d => exact here
    | joined _ _ _ => exact absurd rfl (stays conn pid _ o)
    | left _ _ removes => exact removes.keeps.member here
  | close conn o =>
    simp only [Servers.step, Servers.close] at here
    split at here
    · exact here
    · exact (cleanup_keeps _ o).member here
  | connect => exact here
  | quiet keeps _ _ => exact keeps.member here

end Steps
end CatalogFrames
