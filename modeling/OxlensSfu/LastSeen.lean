import OxlensSfu.VirtualSsrcs

/-
Who writes last_seen: a join, a HEARTBEAT of the session, and a datagram that names or
comes from the participant. Every other handler leaves it alone. Tracks and the RTX counter
are written by a join and a publication only.
-/
namespace LastSeen
open WireBytes SfuConfig KeyedMap Participants RoomHubs RoomHub Signaling FloorHandlers
open RoomHandlers TrackHandlers Ingress Servers Membership MemberFrames MediaFrames CatalogFrames
open FloorControl (UserId)

def seenOf (h : Heap) : Ptr → Nat := fun p => (h p).lastSeen

/-- The participant that is refreshed, and the reading of the clock it is refreshed with. -/
abbrev Refresh := Option (Ptr × Nat)

def mark : Refresh → (Ptr → Nat) → Ptr → Nat
  | some (p, reading), seen => Function.update seen p reading
  | none, seen => seen

/-- Whom a WS packet refreshes; a join refreshes the participant that it builds. -/
def requestRefreshes (hub : RoomHub) (session : Session) (req : Request) (o : Oracle) : Refresh :=
  match req with
  | .heartbeat => (pointsAt hub session).map fun p => (p, o.nowMs)
  | .roomJoin (some roomId) => do
    let userId ← session.userId
    let room ← hub.rooms.lookup roomId
    if room.participants.keys.length < room.capacity ∧ userId ∉ room.participants then
      some (hub.nextPtr, o.nowMs)
    else none
  | _ => none

def refreshes (s : Server) : Event → Refresh
  | .request conn _ req o =>
    (s.sessions conn).bind fun session => requestRefreshes s.hub session req o
  | .stun _ buf nowMs _ =>
    (StunLatch.namedSession s.hub buf).map fun (_, p, _, _) => (p, nowMs)
  | .rtp remote _ o => (s.hub.findByAddr remote).map fun (p, _, _) => (p, o.nowMs)
  | .mbcp remote _ touchMs _ => (s.hub.findByAddr remote).map fun (p, _, _) => (p, touchMs)
  | .nack remote _ touchMs _ _ => (s.hub.findByAddr remote).map fun (p, _, _) => (p, touchMs)
  | _ => none

/-- What a participant is kept with while it stays in its room. -/
def account (s : ParticipantState) : Nat × List Track × UInt32 := (s.lastSeen, s.tracks, s.rtxSsrcCounter)

def refreshed : Refresh → Heap → Heap
  | some (p, reading), heap => mutate heap p fun s => s.touch reading
  | none, heap => heap

/-- What an event does to the accounts: it refreshes one, opens one, or publishes on one. -/
inductive Accounted (hub : RoomHub) (refresh : Refresh) (next : Heap) : Prop
  | refreshed (same : Shows account (refreshed refresh hub.heap) next)
  | joined (reading : Nat) (here : refresh = some (hub.nextPtr, reading))
      (same : Shows account (Function.update hub.heap hub.nextPtr (.new reading)) next)
  | published (r : RoomId) (u : UserId) (room : Room) (p : Ptr) (req : PublishTracksRequest)
      (silent : refresh = none) (held : hub.rooms.lookup r = some room)
      (seat : room.participants.lookup u = some p)
      (same : Shows account (mutate hub.heap p fun _ => (publishAll (hub.heap p) u req).state) next)

theorem Accounted.quiet {hub : RoomHub} {next : Heap} (same : Shows account hub.heap next) :
    Accounted hub none next := .refreshed same

theorem seenOf_account {h h' : Heap} (same : Shows account h h') : seenOf h' = seenOf h :=
  funext fun p => congrArg Prod.fst (same p)

theorem seenOf_refreshed (refresh : Refresh) (h : Heap) :
    seenOf (refreshed refresh h) = mark refresh (seenOf h) := by
  cases refresh with
  | none => rfl
  | some refresh =>
    obtain ⟨p, reading⟩ := refresh
    funext q
    simp only [seenOf, refreshed, mutate, mark]
    by_cases here : q = p
    · rw [here, Function.update_self, Function.update_self]
      rfl
    · rw [Function.update_of_ne here, Function.update_of_ne here]
      rfl

theorem refreshed_shows (refresh : Refresh) {h h' : Heap} (same : Shows account h h') :
    Shows account (refreshed refresh h) (refreshed refresh h') := by
  cases refresh with
  | none => exact same
  | some refresh =>
    obtain ⟨p, reading⟩ := refresh
    intro q
    by_cases here : q = p
    · subst here
      have fields := same q
      simp only [account, Prod.mk.injEq] at fields
      simp only [refreshed, mutate_self, account, ParticipantState.touch, fields.2]
    · rw [refreshed, refreshed, mutate_ne _ here, mutate_ne _ here]
      exact same q

theorem Accounted.seen {hub : RoomHub} {refresh : Refresh} {next : Heap}
    (accounted : Accounted hub refresh next) : seenOf next = mark refresh (seenOf hub.heap) := by
  cases accounted with
  | refreshed same => rw [seenOf_account same, seenOf_refreshed]
  | joined reading here same =>
    rw [seenOf_account same, here]
    funext q
    simp only [seenOf, mark]
    by_cases fresh : q = hub.nextPtr
    · rw [fresh, Function.update_self, Function.update_self]
      rfl
    · rw [Function.update_of_ne fresh, Function.update_of_ne fresh]
      rfl
  | published r u room p req silent _ _ same =>
    have kept : Shows (·.lastSeen) hub.heap
        (mutate hub.heap p fun _ => (publishAll (hub.heap p) u req).state) :=
      .mutate (view_publishAll (fun _ _ _ => rfl) (fun _ _ => rfl) (hub.heap p) req)
    rw [seenOf_account same, silent]
    exact funext kept

theorem account_floorBlind : FloorBlind account := ⟨fun _ _ => rfl, fun _ _ => rfl⟩

theorem account_mediaBlind : MediaBlind account where
  keyframe := view_requestKeyframe fun _ _ => rfl
  drawn := view_ensure fun _ _ => rfl
  layers _ _ := rfl

theorem account_countersBlind : CountersBlind account := ⟨fun _ _ => rfl, fun _ _ => rfl, fun _ _ => rfl⟩

theorem account_trySend (s : ParticipantState) (pkt : EgressPacket) :
    account (s.trySend pkt) = account s :=
  @view_trySend _ account (fun _ _ => rfl) s pkt

theorem account_frame : DepartureFrame (Shows account) where
  refl := .refl _
  trans := .trans
  cancels _ _ := .mutate rfl
  leaves arcs room h clk u grantMs := floorLeave_shows account_floorBlind arcs room h clk u grantMs
  purges room h u := by
    apply Shows.mutateAll
    intro s
    rfl

section Handlers
variable (hub : RoomHub) (o : Oracle)

theorem flushMetrics_account : Shows account hub.heap (flushMetrics hub).heap := by
  refine @flushMetrics_related (fun hub next => Shows account hub.heap next.heap)
    (fun hub => .refl _ hub.heap) Shows.trans (fun hub r => ?_) hub
  unfold flushRoom
  split
  · exact .refl _ hub.heap
  · apply Shows.mutateAll
    intro s
    rfl

theorem handleStun_account (hmacSha1 : Bytes → Bytes → Bytes) (crc32 : Bytes → UInt32) (buf : Bytes)
    (remote : SocketAddr) (now : Nat) (dtlsHas : Bool) :
    Shows account (refreshed ((StunLatch.namedSession hub buf).map fun (_, p, _, _) => (p, now)) hub.heap)
      (StunLatch.handleStun hmacSha1 crc32 hub buf remote now dtlsHas).1.heap := by
  rw [StunLatch.handleStun_hub]
  cases StunLatch.namedSession hub buf with
  | none => exact .refl account hub.heap
  | some named =>
    obtain ⟨msg, p, pc, r⟩ := named
    have latched : Shows account hub.heap
        (mutate hub.heap p fun s => s.latchAddress pc remote) := .mutate (by cases pc <;> rfl)
    exact refreshed_shows (some (p, now)) latched

theorem handleSrtp_account (remote : SocketAddr) (buf : Bytes) :
    Shows account (refreshed ((hub.findByAddr remote).map fun (p, _, _) => (p, o.nowMs)) hub.heap)
      (handleSrtp hub remote buf o).hub.heap := by
  unfold handleSrtp
  split
  · rename_i unknown
    rw [unknown]
    exact .refl account hub.heap
  rename_i sender pc r found
  rw [found]
  simp only [Option.map_some]
  split
  · exact .refl account _
  rename_i room _
  split
  · intro q
    have relayed := relayRtp_at (q := q) (hub.touch sender o.nowMs) r room sender buf o
      account_mediaBlind fun pkt => .inr fun s => account_trySend s pkt
    refine relayed.trans (mutate_at fun _ => ?_)
    exact (view_detectGap account_mediaBlind (fun _ _ _ => rfl) _ _).trans
      (view_collectRtpStats (fun _ _ => rfl) _ _ _)
  · exact .refl account _

theorem handleMbcpFrom_account (remote : SocketAddr) (subtype : UInt8) (touchMs : Nat) :
    Shows account (refreshed ((hub.findByAddr remote).map fun (p, _, _) => (p, touchMs)) hub.heap)
      (handleMbcpFrom hub remote subtype touchMs o).1.heap := by
  unfold handleMbcpFrom
  split
  · rename_i unknown
    rw [unknown]
    exact .refl account hub.heap
  rename_i sender pc r found
  rw [found]
  simp only [Option.map_some]
  split
  · exact .refl account _
  split
  · exact handleMbcp_shows account_floorBlind _ _ _ _ _ _ _ _
  · exact .refl account _

theorem handleSubscribeNack_account (remote : SocketAddr) (block : Bytes) (touchMs nowMs : Nat)
    (visit : List UserId) :
    Shows account (refreshed ((hub.findByAddr remote).map fun (p, _, _) => (p, touchMs)) hub.heap)
      (handleSubscribeNack hub remote block touchMs nowMs visit).1.heap := by
  unfold handleSubscribeNack
  split
  · rename_i unknown
    rw [unknown]
    exact .refl account hub.heap
  rename_i subscriber pc r found
  rw [found]
  simp only [Option.map_some]
  split
  · exact .refl account _
  rename_i room _
  split
  · intro q
    have allowed : RtxTracks room (fun _ => True) (hub.touch subscriber touchMs).heap :=
      fun _ _ _ _ _ _ => trivial
    exact handleNackBlock_at hub.arcs room visit subscriber account_countersBlind account_mediaBlind
      (fun _ _ _ _ _ s => account_trySend s _) _ allowed block nowMs
  · exact .refl account _

theorem runFloorTimer_account (r : RoomId) :
    Shows account hub.heap (runFloorTimer hub r o).1.heap := by
  unfold runFloorTimer
  split
  · exact .refl _ hub.heap
  split
  · exact floorTimerTick_shows account_floorBlind _ _ _ _ _ _
  · exact .refl _ hub.heap

theorem onFloor_account (session : Session) {found : Except Reply (RoomId × Room)}
    {handler : Room → FloorRun × Reply}
    (quiet : ∀ room, Shows account hub.heap (handler room).1.heap) :
    Shows account hub.heap (onFloor hub session found handler).hub.heap := by
  unfold onFloor
  split
  · exact .refl _ hub.heap
  · exact quiet _

/-- A publication that is let in writes the account of its participant. -/
theorem handlePublishTracks_account (session : Session) (pid : Nat) (u : UserId)
    (d : Option PublishTracksRequest) (draws : Ptr → NonzeroSsrc) :
    Accounted hub none (handlePublishTracks hub session pid u d draws).heap := by
  unfold handlePublishTracks
  split
  · exact .quiet (.refl account hub.heap)
  split
  · exact .quiet (.refl account hub.heap)
  · rename_i req _ room p placed
    obtain ⟨r, _, held, seat⟩ := VirtualSsrcs.inRoom_ok placed
    exact .published r u room p req rfl held seat
      (Catalog.simulcastReplace_shows room draws (fun _ _ => rfl) _ _)

theorem announceJoin_account (session : Session) (pid : Nat) (u : UserId) (r : RoomId)
    (room : Room) :
    Shows account hub.heap (announceJoin hub session pid u r o room).hub.heap :=
  (account_frame.purges room hub.heap u).trans
    (Catalog.simulcastReplace_shows room o.vssrc (fun _ _ => rfl) _ _)

/-- A join that succeeds opens the account of the participant that it builds. -/
theorem handleRoomJoin_account (session : Session) (pid : Nat) {u : UserId}
    (user : session.userId = some u) (roomId : Option RoomId) :
    Accounted hub (requestRefreshes hub session (.roomJoin roomId) o)
      (handleRoomJoin hub session pid u roomId o).hub.heap := by
  cases roomId with
  | none => exact .quiet (.refl account hub.heap)
  | some r =>
    cases held : hub.rooms.lookup r with
    | none =>
      simp only [handleRoomJoin, requestRefreshes, held, user, Option.bind_eq_bind, Option.bind_some,
        Option.bind_none]
      exact .quiet (.refl account hub.heap)
    | some room =>
      simp only [requestRefreshes, user, held, Option.bind_eq_bind, Option.bind_some]
      by_cases fits : room.participants.keys.length < room.capacity ∧ u ∉ room.participants
      · have added := (@addParticipant_ok hub _ r (newParticipant session u r o) o.nowMs _).mpr
          ⟨room, held, fits.1, fits.2, rfl, rfl⟩
        have entered := addParticipant_lookup added r
        rw [if_pos rfl, held, Option.map_some] at entered
        rw [if_pos fits]
        simp only [handleRoomJoin, held, added, entered]
        exact .joined o.nowMs rfl (announceJoin_account _ o session pid u r _)
      · rw [if_neg fits]
        have refused : ∀ next p, hub.addParticipant r (newParticipant session u r o) o.nowMs ≠
            .ok (next, p) := by
          intro next p added
          obtain ⟨room', held', space, absent, _⟩ := addParticipant_ok.mp added
          rw [held, Option.some.injEq] at held'
          subst held'
          exact fits ⟨space, absent⟩
        cases added : hub.addParticipant r (newParticipant session u r o) o.nowMs with
        | error e =>
          simp only [handleRoomJoin, held, added]
          exact .quiet (.refl account hub.heap)
        | ok done => exact absurd added (refused done.1 done.2)

theorem dispatch_accounted (session : Session) (pid : Nat) (req : Request) :
    Accounted hub (requestRefreshes hub session req o) (dispatch hub session pid req o).hub.heap := by
  have still : Accounted hub none hub.heap := .quiet (.refl account hub.heap)
  have beat : Accounted hub (requestRefreshes hub session .heartbeat o)
      (handleHeartbeat hub session o.nowMs).heap := by
    simp only [handleHeartbeat, requestRefreshes]
    cases pointsAt hub session with
    | none => exact still
    | some p => exact .refreshed (.refl account _)
  cases user : session.userId with
  | none =>
    cases req with
    | heartbeat => exact beat
    | identify d => exact still
    | roomJoin roomId =>
      cases roomId <;> simpa only [dispatch, user, requestRefreshes, Option.bind_eq_bind, Option.bind_none]
        using still
    | _ => simpa only [dispatch, user, requestRefreshes] using still
  | some u =>
    cases req with
    | heartbeat => exact beat
    | identify d => exact still
    | roomCreate d =>
      simp only [dispatch, user, handleRoomCreate, requestRefreshes]
      split <;> exact still
    | roomJoin roomId =>
      simp only [dispatch, user]
      exact handleRoomJoin_account hub o session pid user roomId
    | roomLeave roomId =>
      simp only [dispatch, user]
      exact .quiet (handleRoomLeave_framed account_frame hub o session pid u roomId)
    | publishTracks d =>
      simp only [dispatch, user]
      exact handlePublishTracks_account hub session pid u d o.vssrc
    | subscribeLayer targets =>
      simp only [dispatch, user]
      apply Accounted.quiet
      apply @handleSubscribeLayer_invariant fun heap => Shows account hub.heap heap
      · intro r room subscriber heap target _ _ kept
        exact kept.trans (LayerFrames.subscribeTarget_untouched room subscriber o.vssrc (o.clk 0) heap target
          ⟨fun _ _ => rfl, fun _ _ => rfl, fun _ _ => rfl⟩ account_mediaBlind.drawn)
      · exact .refl _ hub.heap
    | floorRequest d =>
      simp only [dispatch, user]
      exact .quiet (onFloor_account hub session fun room =>
        handleFloorRequest_shows account_floorBlind _ room _ _ _ _ _ _)
    | floorRelease roomId =>
      simp only [dispatch, user]
      exact .quiet (onFloor_account hub session fun room =>
        handleFloorRelease_shows account_floorBlind _ room _ _ _ _ _)
    | floorPing roomId =>
      simp only [dispatch, user]
      exact .quiet (onFloor_account hub session fun room => .refl _ hub.heap)

end Handlers

theorem step_accounted (hmacSha1 : Bytes → Bytes → Bytes) (crc32 : Bytes → UInt32) (s : Server)
    (e : Event) : Accounted s.hub (refreshes s e) (Servers.step hmacSha1 crc32 s e).hub.heap := by
  have still : Accounted s.hub none s.hub.heap := .quiet (.refl account s.hub.heap)
  cases e with
  | request conn pid req o =>
    simp only [Servers.step, Servers.request, refreshes]
    cases s.sessions conn with
    | none => exact still
    | some session => exact dispatch_accounted s.hub o session pid req
  | close conn o =>
    simp only [Servers.step, Servers.close]
    split
    · exact still
    · exact .quiet (cleanup_framed account_frame s.hub o _)
  | defaultRoom name capacity mode simulcast o => exact still
  | connect => exact still
  | floorTimer r o => exact .quiet (runFloorTimer_account s.hub o r)
  | reaper nowMs => exact .quiet (runZombieReaper_framed account_frame s.hub nowMs)
  | metricsFlush => exact .quiet (flushMetrics_account s.hub)
  | stun remote buf nowMs dtlsHas =>
    exact .refreshed (handleStun_account s.hub hmacSha1 crc32 buf remote nowMs dtlsHas)
  | srtpKeys p pc =>
    have keyed : Shows account s.hub.heap
        (mutate s.hub.heap p fun st => st.installSrtpKeys pc) := .mutate (by cases pc <;> rfl)
    exact .quiet keyed
  | rtp remote buf o => exact .refreshed (handleSrtp_account s.hub o remote buf)
  | mbcp remote subtype touchMs o => exact .refreshed (handleMbcpFrom_account s.hub o remote subtype touchMs)
  | nack remote block touchMs nowMs visit =>
    exact .refreshed (handleSubscribeNack_account s.hub remote block touchMs nowMs visit)
  | egress p =>
    have popped : Shows account s.hub.heap
        (mutate s.hub.heap p fun st => { st with egress := st.egress.tail }) := .mutate rfl
    exact .quiet popped

/-- One event moves last_seen of whom it refreshes, and of nobody else. -/
theorem step_seen (hmacSha1 : Bytes → Bytes → Bytes) (crc32 : Bytes → UInt32) (s : Server)
    (e : Event) :
    seenOf (Servers.step hmacSha1 crc32 s e).hub.heap =
      mark (refreshes s e) (seenOf s.hub.heap) :=
  (step_accounted hmacSha1 crc32 s e).seen

end LastSeen
