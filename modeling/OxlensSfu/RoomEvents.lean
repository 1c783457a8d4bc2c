import OxlensSfu.RoomFrames

/-
What an event about one room can do. Other rooms stay as they are, and of the participants
those in the room make moves of their own, or somebody new comes in.
-/
namespace RoomEvents
open WireBytes SfuConfig KeyedMap Participants RoomHubs RoomHub Signaling FloorHandlers
open RoomHandlers TrackHandlers Ingress Servers Membership MemberFrames AddressIndex Seating
open SenderReports RoomFrames ParticipantMoves SpeakerAgreement RoomSteps CatalogFrames
open FloorControl (UserId)
open PttRewriter (Instant)

/-- Every participant makes moves, or is new. -/
structure Moved (hub next : RoomHub) : Prop where
  grows : hub.nextPtr ≤ next.nextPtr
  moves : ∀ p, Evolves (hub.heap p) (next.heap p) ∨
    (hub.nextPtr ≤ p ∧ p < next.nextPtr ∧ ∃ joinedAt, Evolves (.new joinedAt) (next.heap p))

structure Confined (r : RoomId) (hub next : RoomHub) : Prop extends Moved hub next where
  rooms : ∀ r', r' ≠ r → next.rooms.lookup r' = hub.rooms.lookup r'
  members : ∀ {u p}, Member next r u p → Member hub r u p ∨ (hub.nextPtr ≤ p ∧ p < next.nextPtr)
  alone : ∀ p, p < hub.nextPtr ∨ next.nextPtr ≤ p → (∀ u, ¬ Member hub r u p) →
    next.heap p = hub.heap p

section Rules
variable {r : RoomId} {hub next last : RoomHub}

theorem Moved.refl (hub : RoomHub) : Moved hub hub := ⟨Nat.le_refl _, fun _ => .inl .refl⟩

theorem Moved.trans (first : Moved hub next) (second : Moved next last) : Moved hub last := by
  refine ⟨Nat.le_trans first.grows second.grows, fun p => ?_⟩
  rcases first.moves p with went | ⟨fresh, known, t, went⟩
  · rcases second.moves p with on | ⟨fresh, known, t, on⟩
    · exact .inl (went.trans on)
    · exact .inr ⟨Nat.le_trans first.grows fresh, known, t, on⟩
  · rcases second.moves p with on | ⟨later, _, _, _⟩
    · exact .inr ⟨fresh, Nat.lt_of_lt_of_le known second.grows, t, went.trans on⟩
    · exact absurd known (Nat.not_lt.mpr later)

theorem Confined.refl (r : RoomId) (hub : RoomHub) : Confined r hub hub where
  toMoved := .refl hub
  rooms _ _ := rfl
  members := .inl
  alone _ _ _ := rfl

theorem Confined.trans (first : Confined r hub next) (second : Confined r next last) :
    Confined r hub last where
  toMoved := first.toMoved.trans second.toMoved
  rooms r' other := (second.rooms r' other).trans (first.rooms r' other)
  members there := by
    rcases second.members there with here | ⟨fresh, known⟩
    · rcases first.members here with before | ⟨fresh, known⟩
      · exact .inl before
      · exact .inr ⟨fresh, Nat.lt_of_lt_of_le known second.grows⟩
    · exact .inr ⟨Nat.le_trans first.grows fresh, known⟩
  alone p apart outside := by
    have still : ∀ u, ¬ Member next r u p := fun u here => by
      rcases first.members here with before | ⟨fresh, known⟩
      · exact outside u before
      · rcases apart with old | unborn
        · exact absurd old (Nat.not_lt.mpr fresh)
        · exact absurd (Nat.lt_of_lt_of_le known second.grows) (Nat.not_lt.mpr unborn)
    have early := apart.imp_right fun unborn => Nat.le_trans second.grows unborn
    have late := apart.imp_left fun old => Nat.lt_of_lt_of_le old first.grows
    rw [second.alone p late still, first.alone p early outside]

/-- Only the participants of the room are written, and nobody comes in. -/
theorem Confined.of_within {room : Room} (held : hub.rooms.lookup r = some room)
    (within : Within (Seats room) hub.heap next.heap) (nextPtr : next.nextPtr = hub.nextPtr)
    (rooms : ∀ r', r' ≠ r → next.rooms.lookup r' = hub.rooms.lookup r')
    (members : ∀ {u p}, Member next r u p → Member hub r u p) : Confined r hub next where
  grows := Nat.le_of_eq nextPtr.symm
  moves p := .inl (within p).1
  rooms := rooms
  members there := .inl (members there)
  alone p _ outside := (within p).2 fun seats => by
    obtain ⟨u, entry⟩ := seats
    exact outside u ⟨room, held, entry⟩

theorem Confined.of_heap {room : Room} (held : hub.rooms.lookup r = some room) {heap : Heap}
    (within : Within (Seats room) hub.heap heap) : Confined r hub { hub with heap := heap } :=
  .of_within held within rfl (fun _ _ => rfl) id

theorem Confined.of_withPtt {room : Room} (held : hub.rooms.lookup r = some room) {heap : Heap}
    (within : Within (Seats room) hub.heap heap) (ptt : PttState) :
    Confined r hub (withPtt hub r ptt heap) := by
  refine .of_within held within rfl (fun r' other => ?_) (withPtt_same r ptt heap).member
  rw [withPtt, lookup_modify, if_neg other]

end Rules

section Media
variable {r : RoomId} {hub : RoomHub} {remote : SocketAddr} {sender : Ptr} {pc : PcType}
  (seated : Seated hub) (found : hub.findByAddr remote = some (sender, pc, r))

theorem touch_within {own : Ptr → Prop} {p : Ptr} (inside : own p) (ts : Nat) :
    Within own hub.heap (hub.touch p ts).heap :=
  Within.move inside (f := fun s => s.touch ts) (.touched ts)

include seated found

theorem sender_seats {room : Room} (held : hub.rooms.lookup r = some room) : Seats room sender := by
  obtain ⟨_, held', entry⟩ := seated.sender found
  cases held.symm.trans held'
  exact ⟨_, entry⟩

theorem touched_confined (ts : Nat) : Confined r hub (hub.touch sender ts) := by
  obtain ⟨room, held, entry⟩ := seated.sender found
  exact .of_heap held (touch_within ⟨_, entry⟩ ts)

theorem handleSrtp_confined (buf : Bytes) (o : Oracle) :
    Confined r hub (Ingress.handleSrtp hub remote buf o).hub := by
  simp only [Ingress.handleSrtp, found]
  split
  · exact touched_confined seated found o.nowMs
  rename_i room held
  split
  · have here := sender_seats seated found held
    rw [relayRtp_hub]
    exact .of_withPtt held ((touch_within here _).trans (relayRtp_within here _ _ _ _)) _
  · exact touched_confined seated found o.nowMs

theorem handleSubscribeNack_confined (block : Bytes) (touchMs nowMs : Nat) (visit : List UserId) :
    Confined r hub (handleSubscribeNack hub remote block touchMs nowMs visit).1 := by
  simp only [handleSubscribeNack, found]
  split
  · exact touched_confined seated found touchMs
  rename_i room held
  split
  · rename_i accepted
    have here := sender_seats seated found held
    have touched : Within (Seats room) hub.heap (hub.touch sender touchMs).heap :=
      touch_within here touchMs
    exact .of_heap held (touched.trans
      (handleNackBlock_within hub.arcs visit here _ _ _ (touched.ready accepted.2)))
  · exact touched_confined seated found touchMs

theorem handleMbcpFrom_confined (subtype : UInt8) (touchMs : Nat) (o : Oracle) :
    Confined r hub (handleMbcpFrom hub remote subtype touchMs o).1 := by
  simp only [handleMbcpFrom, found]
  split
  · exact touched_confined seated found touchMs
  rename_i room held
  split
  · have here := sender_seats seated found held
    exact .of_withPtt held
      ((touch_within here _).trans (handleMbcp_within hub.arcs o.clk here _ _ _ _)) _
  · exact touched_confined seated found touchMs

theorem processPublishRtcp_confined (buf : Bytes) (touchMs : Nat) (draw : NonzeroSsrc)
    (sent : Ptr → UInt32 → UInt32 × UInt32) :
    Confined r hub (SenderReports.processPublishRtcp hub remote buf touchMs draw sent).1 := by
  simp only [SenderReports.processPublishRtcp, found]
  split
  · exact touched_confined seated found touchMs
  rename_i room held
  split
  · split
    · have here := sender_seats seated found held
      exact .of_heap held
        ((touch_within here _).trans (relayPublishRtcpTranslated_within here _ _ _ _ _ _))
    · exact touched_confined seated found touchMs
  · exact touched_confined seated found touchMs

end Media

section Departures
variable {r : RoomId} {hub : RoomHub} (o : Oracle)

theorem departFloor_confined {room : Room} (held : hub.rooms.lookup r = some room) (u : UserId) :
    Confined r hub (departFloor hub r room u o).1 := by
  have left : ∀ heap, Within (Seats room) hub.heap heap → Confined r hub (if room.mode = .ptt then
      (withPtt hub r (floorLeave hub.arcs room heap o.clk u o.grantMs).ptt
          (floorLeave hub.arcs room heap o.clk u o.grantMs).heap,
        (floorLeave hub.arcs room heap o.clk u o.grantMs).sent)
      else ({ hub with heap := heap }, [])).1 := by
    intro heap within
    split
    · exact .of_withPtt held (within.trans (floorLeave_within hub.arcs o.clk heap u o.grantMs)) _
    · exact .of_heap held within
  unfold departFloor
  apply left
  split
  · rename_i p entry
    have seat : Seats room p := ⟨u, entry⟩
    exact .move seat .cancelled
  · exact .refl _ hub.heap

theorem departOrStay_confined (u : UserId) : Confined r hub (departOrStay hub r u o).1 := by
  unfold departOrStay
  split
  · rename_i room held
    exact departFloor_confined o held u
  · exact .refl r hub

theorem removed_confined {next : RoomHub} {u : UserId} {p : Ptr}
    (removed : hub.removeParticipant r u = .ok (next, p)) : Confined r hub next := by
  obtain ⟨_, heap, nextPtr, _⟩ := removeParticipant_fixed removed
  refine ⟨⟨Nat.le_of_eq nextPtr.symm, fun q => .inl ?_⟩, fun r' other => ?_, fun there => ?_,
    fun q _ _ => by rw [heap]⟩
  · rw [heap]
  · rw [removeParticipant_lookup removed, if_neg other]
  · exact .inl ((member_removeParticipant removed _ _ _).mp there).1

theorem announceLeave_confined (u : UserId) (p : Ptr) : Confined r hub (announceLeave hub r u p).1 := by
  unfold announceLeave
  split
  · rename_i room held
    exact .of_heap held (purgeSubscribeLayers_within hub.heap u)
  · exact .refl r hub

theorem handleRoomLeave_confined (session : Session) (pid : Nat) (u : UserId) :
    Confined r hub (handleRoomLeave hub session pid u (some r) o).hub := by
  have departed : Confined r hub (departOrStay hub r u o).1 := departOrStay_confined o u
  simp only [handleRoomLeave]
  split
  · exact departed
  · rename_i removed p result
    exact (departed.trans (removed_confined result)).trans (announceLeave_confined u p)

theorem cleanupOrStay_confined (u : UserId) : Confined r hub (cleanupOrStay hub r u o).1 := by
  unfold cleanupOrStay
  split
  · rename_i room held
    have departed := departFloor_confined o held u
    have same : SameMembers hub (departFloor hub r room u o).1 := departFloor_same r room u o
    have purged : Within (Seats room) (departFloor hub r room u o).1.heap
        (purgeSubscribeLayers room (departFloor hub r room u o).1.heap u) :=
      purgeSubscribeLayers_within _ u
    refine departed.trans ⟨⟨Nat.le_refl _, fun p => .inl (purged p).1⟩, fun _ _ => rfl, .inl,
      fun p _ outside => (purged p).2 fun seats => ?_⟩
    obtain ⟨v, entry⟩ := seats
    exact outside v ((same.member_iff r v p).mpr ⟨room, held, entry⟩)
  · exact .refl r hub

theorem cleanup_confined (session : Session) (current : session.currentRoom = some r) :
    Confined r hub (cleanup hub session o).1 := by
  unfold cleanup
  rw [current]
  cases session.userId with
  | none => exact .refl r hub
  | some u =>
    have told : Confined r hub (cleanupOrStay hub r u o).1 := cleanupOrStay_confined o u
    simp only [removeOrLog]
    split
    · rename_i result
      exact told.trans (removed_confined result)
    · exact told

end Departures

section Requests
variable {r : RoomId} {hub : RoomHub}

theorem handleRoomJoin_confined (o : Oracle) (session : Session) (pid : Nat) (u : UserId) :
    Confined r hub (handleRoomJoin hub session pid u (some r) o).hub := by
  simp only [handleRoomJoin]
  split
  · exact .refl r hub
  split
  · exact .refl r hub
  rename_i next p added
  have lookups := addParticipant_lookup added
  have grows := member_addParticipant added
  have entered : Confined r hub next := by
    obtain ⟨_, _, _, _, rfl, rfl⟩ := addParticipant_ok.mp added
    refine ⟨⟨Nat.le_succ _, fun q => ?_⟩, fun r' other => by rw [lookups, if_neg other],
      fun there => ?_, fun q apart _ => Function.update_of_ne ?_ _ _⟩
    · by_cases fresh : q = hub.nextPtr
      · subst fresh
        refine .inr ⟨Nat.le_refl _, Nat.lt_succ_self _, o.nowMs, ?_⟩
        simp only [register, Function.update_self]
        exact .refl
      · simp only [register, Function.update_of_ne fresh]
        exact .inl .refl
    · rcases (grows _ _ _).mp there with here | ⟨_, _, rfl⟩
      · exact .inl here
      · exact .inr ⟨Nat.le_refl _, Nat.lt_succ_self _⟩
    · rcases apart with old | unborn
      · exact Nat.ne_of_lt old
      · exact Nat.ne_of_gt unborn
  split
  · rename_i room held
    exact entered.trans (.of_heap held
      ((purgeSubscribeLayers_within _ u).trans (simulcastReplaceVideoSsrc_within _ _ _)))
  · exact entered

theorem onFloor_confined (session : Session) {found : Except Reply (RoomId × Room)}
    {handler : Room → FloorRun × Reply}
    (named : ∀ r' room, found = .ok (r', room) → r' = r ∧ hub.rooms.lookup r' = some room)
    (within : ∀ room, Within (Seats room) hub.heap (handler room).1.heap) :
    Confined r hub (onFloor hub session found handler).hub := by
  unfold onFloor
  split
  · exact .refl r hub
  · rename_i r' room
    obtain ⟨rfl, held⟩ := named r' room rfl
    exact .of_withPtt held (within room) _

theorem floorTimer_confined (o : Oracle) : Confined r hub (runFloorTimer hub r o).1 := by
  unfold runFloorTimer
  split
  · exact .refl r hub
  rename_i room held
  split
  · exact .of_withPtt held (floorTimerTick_within hub.arcs o.clk hub.heap _ _) _
  · exact .refl r hub

theorem handlePublishTracks_confined {session : Session} (current : session.currentRoom = some r)
    (pid : Nat) (u : UserId) (d : Option PublishTracksRequest) (draws : Ptr → NonzeroSsrc) :
    Confined r hub (ofTracks hub session (handlePublishTracks hub session pid u d draws)).hub := by
  unfold handlePublishTracks
  split
  · exact .refl r hub
  rename_i req
  split
  · exact .refl r hub
  rename_i speaking
  simp only [inRoom, current] at speaking
  split at speaking
  · simp at speaking
  rename_i room held
  split at speaking
  · simp at speaking
  rename_i p entry
  simp only [Except.ok.injEq, Prod.mk.injEq] at speaking
  obtain ⟨rfl, rfl⟩ := speaking
  have seat : Seats room p := ⟨u, entry⟩
  have published : Within (Seats room) hub.heap
      (mutate hub.heap p fun _ => (publishAll (hub.heap p) u req).state) :=
    .move seat (.published u req)
  exact .of_heap held (published.trans (announcePublished_within draws hub.arcs _ u _))

theorem handleSubscribeLayer_confined {session : Session} (current : session.currentRoom = some r)
    (pid : Nat) (u : UserId) (targets : Option (List SubscribeLayerTarget))
    (draws : Ptr → NonzeroSsrc) (now : Instant) :
    Confined r hub
      (ofTracks hub session (handleSubscribeLayer hub session pid u targets draws now)).hub := by
  simp only [handleSubscribeLayer, current]
  split
  · exact .refl r hub
  rename_i targets
  split
  · exact .refl r hub
  rename_i room held
  split
  · exact .refl r hub
  split
  · exact .refl r hub
  rename_i subscriber entry
  have seat : Seats room subscriber := ⟨u, entry⟩
  exact .of_heap held
    (Within.fold id (fun h target _ => subscribeTarget_within draws seat now h target) hub.heap)

theorem handleHeartbeat_confined {session : Session} (current : session.currentRoom = some r)
    (nowMs : Nat) : Confined r hub (handleHeartbeat hub session nowMs) := by
  unfold handleHeartbeat
  split
  · rename_i p points
    simp only [pointsAt, current, Option.bind_eq_bind, Option.bind_some,
      Option.bind_eq_some_iff] at points
    obtain ⟨u, _, room, held, entry⟩ := points
    have seat : Seats room p := ⟨u, entry⟩
    exact .of_heap held (touch_within seat nowMs)
  · exact .refl r hub

theorem create_confined (name : String) (capacity : Option Nat) (mode : RoomMode)
    (createdAt : Nat) (simulcast : Bool) (a v : UInt32) :
    Confined r hub (hub.create r name capacity mode createdAt simulcast a v) := by
  refine ⟨⟨Nat.le_refl _, fun _ => .inl .refl⟩, fun r' other => ?_, fun there => ?_, fun _ _ _ => rfl⟩
  · rw [create_lookup, if_neg other]
  · obtain ⟨after, found, entry⟩ := there
    rcases create_found found with rfl | ⟨_, held⟩
    · simp [Room.new] at entry
    · exact .inl ⟨after, held, entry⟩

/-- A binding moves the session that it names, in the room that it is in. -/
theorem latched_confined {u : UserId} {p : Ptr} (here : Member hub r u p) (pc : PcType)
    (addr : SocketAddr) (now : Nat) :
    Confined r hub ((hub.latchSession p pc r addr).touch p now) := by
  obtain ⟨room, held, entry⟩ := here
  have seat : Seats room p := ⟨u, entry⟩
  refine .of_within held ?_ rfl (fun r' other => ?_) (latchSession_same hub p pc r addr).member
  · have latched : Within (Seats room) hub.heap (hub.latchSession p pc r addr).heap :=
      Within.move seat (f := fun s => s.latchAddress pc addr) (.latched pc addr)
    exact latched.trans (touch_within seat now)
  · exact (latched_room r').trans (if_neg other)

end Requests

/-- The request is about this room: it names it, makes it, or the session is in it. -/
def Asks (r : RoomId) (session : Session) (o : Oracle) : Request → Prop
  | .identify _ => False
  | .roomCreate _ => o.uuid = r
  | .roomJoin roomId | .roomLeave roomId | .floorRelease roomId | .floorPing roomId =>
    roomId = some r
  | .floorRequest d => d.map (·.roomId) = some r
  | .heartbeat | .publishTracks _ | .subscribeLayer _ => session.currentRoom = some r

/-- The event is about this room, or about all rooms. -/
def About (r : RoomId) (s : Server) : Servers.Event → Prop
  | .defaultRoom _ _ _ _ o => o.uuid = r
  | .connect => False
  | .request conn _ req o => ∃ session, s.sessions conn = some session ∧ Asks r session o req
  | .close conn _ => ∃ session, s.sessions conn = some session ∧ session.currentRoom = some r
  | .floorTimer roomId _ => roomId = r
  | .reaper _ | .metricsFlush => True
  | .stun _ buf _ _ => ∃ msg p pc, StunLatch.namedSession s.hub buf = some (msg, p, pc, r)
  | .srtpKeys p _ | .egress p => ∃ u, Member s.hub r u p
  | .rtp remote .. | .mbcp remote .. | .nack remote .. =>
    ∃ p pc, s.hub.findByAddr remote = some (p, pc, r)

/-- The events that go through all rooms, or are about a participant wherever it is. -/
def Roams : Servers.Event → Prop
  | .reaper _ | .metricsFlush | .srtpKeys .. | .egress _ => True
  | _ => False

/-- Whoever leaves makes others move. -/
theorem evolves_frame : DepartureFrame fun h h' => ∀ p, Evolves (h p) (h' p) where
  refl _ _ := .refl
  trans first second p := (first p).trans (second p)
  cancels h p q :=
    (@Within.move (fun _ => True) h p trivial (·.cancelPliBurst) .cancelled q).1
  leaves arcs _ h clk u grantMs p := (floorLeave_within arcs clk h u grantMs p).1
  purges _ h u p := (purgeSubscribeLayers_within h u p).1

section Steps

theorem dispatch_confined (hub : RoomHub) (session : Session) (pid : Nat) (req : Request)
    (o : Oracle) : (dispatch hub session pid req o).hub = hub ∨
      ∃ r, Asks r session o req ∧ Confined r hub (dispatch hub session pid req o).hub := by
  unfold dispatch
  split
  · cases current : session.currentRoom with
    | none =>
      simp only [handleHeartbeat, pointsAt, current]
      exact .inl rfl
    | some r => exact .inr ⟨r, current, handleHeartbeat_confined current o.nowMs⟩
  · exact .inl rfl
  · exact .inl rfl
  · rename_i d _ _
    cases d with
    | none => exact .inl rfl
    | some req => exact .inr ⟨o.uuid, rfl, create_confined _ _ _ _ _ _ _⟩
  · rename_i named u _
    cases named with
    | none => exact .inl rfl
    | some r => exact .inr ⟨r, rfl, handleRoomJoin_confined o session pid u⟩
  · rename_i named u _
    cases named with
    | none => exact .inl rfl
    | some r => exact .inr ⟨r, rfl, handleRoomLeave_confined o session pid u⟩
  · rename_i d u _
    cases current : session.currentRoom with
    | none =>
      cases d with
      | none => exact .inl rfl
      | some req =>
        simp only [handlePublishTracks, inRoom, current]
        exact .inl rfl
    | some r => exact .inr ⟨r, current, handlePublishTracks_confined current pid u d o.vssrc⟩
  · rename_i d u _
    cases d with
    | none => exact .inl rfl
    | some d =>
      refine .inr ⟨d.roomId, rfl, onFloor_confined session (fun r' room found => ⟨?_, ?_⟩)
        fun room => handleFloorRequest_within hub.arcs o.clk hub.heap u pid _ o.nowMs⟩
      · exact (Option.some.inj (pttRoom_named found).1).symm
      · exact pttRoom_registered found
  · rename_i named u _
    cases named with
    | none => exact .inl rfl
    | some r =>
      refine .inr ⟨r, rfl, onFloor_confined session (fun r' room found => ⟨?_, ?_⟩)
        fun room => handleFloorRelease_within hub.arcs o.clk hub.heap u pid o.grantMs⟩
      · exact (Option.some.inj (pttRoom_named found).1).symm
      · exact pttRoom_registered found
  · rename_i named u _
    cases named with
    | none => exact .inl rfl
    | some r =>
      refine .inr ⟨r, rfl, onFloor_confined session (fun r' room found => ⟨?_, ?_⟩)
        fun room => .refl _ hub.heap⟩
      · exact (Option.some.inj (floorRoom_named found)).symm
      · exact floorRoom_registered found
  · rename_i targets u _
    cases current : session.currentRoom with
    | none =>
      cases targets with
      | none => exact .inl rfl
      | some targets =>
        simp only [handleSubscribeLayer, current]
        exact .inl rfl
    | some r =>
      exact .inr ⟨r, current, handleSubscribeLayer_confined current pid u targets o.vssrc _⟩

variable (hmacSha1 : Bytes → Bytes → Bytes) (crc32 : Bytes → UInt32)

/-- An event changes nothing of the hub, or it is about a room and keeps to it. -/
theorem step_confined {s : Server} (seated : Seated s.hub) (e : Servers.Event) (stays : ¬ Roams e) :
    (Servers.step hmacSha1 crc32 s e).hub = s.hub ∨
      ∃ r, About r s e ∧ Confined r s.hub (Servers.step hmacSha1 crc32 s e).hub := by
  cases e with
  | defaultRoom name capacity mode simulcast o => exact .inr ⟨o.uuid, rfl, create_confined _ _ _ _ _ _ _⟩
  | connect => exact .inl rfl
  | request conn pid req o =>
    simp only [Servers.step, Servers.request]
    split
    · exact .inl rfl
    · rename_i session here
      rcases dispatch_confined s.hub session pid req o with same | ⟨r, asks, confined⟩
      · exact .inl same
      · exact .inr ⟨r, ⟨session, here, asks⟩, confined⟩
  | close conn o =>
    simp only [Servers.step, Servers.close]
    split
    · exact .inl rfl
    · rename_i session here
      cases current : session.currentRoom with
      | none =>
        simp only [cleanup, current]
        exact .inl rfl
      | some r => exact .inr ⟨r, ⟨session, here, current⟩, cleanup_confined o session current⟩
  | floorTimer r o => exact .inr ⟨r, rfl, floorTimer_confined o⟩
  | stun remote buf nowMs dtlsHas =>
    simp only [Servers.step, StunLatch.handleStun_hub]
    split
    · exact .inl rfl
    · rename_i msg p pc r named
      obtain ⟨f, found⟩ := StunLatch.namedSession_ufrag named
      obtain ⟨u, here⟩ := findByUfrag_member seated.sound found
      exact .inr ⟨r, ⟨msg, p, pc, named⟩, latched_confined here pc remote nowMs⟩
  | rtp remote buf o =>
    cases found : s.hub.findByAddr remote with
    | none =>
      simp only [Servers.step, Ingress.handleSrtp, found]
      exact .inl trivial
    | some owner => exact .inr ⟨owner.2.2, ⟨_, _, found⟩, handleSrtp_confined seated found buf o⟩
  | mbcp remote subtype touchMs o =>
    cases found : s.hub.findByAddr remote with
    | none =>
      simp only [Servers.step, push, handleMbcpFrom, found]
      exact .inl trivial
    | some owner =>
      exact .inr ⟨owner.2.2, ⟨_, _, found⟩, handleMbcpFrom_confined seated found subtype touchMs o⟩
  | nack remote block touchMs nowMs visit =>
    cases found : s.hub.findByAddr remote with
    | none =>
      simp only [Servers.step, handleSubscribeNack, found]
      exact .inl trivial
    | some owner =>
      exact .inr ⟨owner.2.2, ⟨_, _, found⟩,
        handleSubscribeNack_confined seated found block touchMs nowMs visit⟩
  | _ => exact absurd trivial stays

/-- Outside the flush and the egress tasks every participant makes moves, or is new. -/
theorem step_moved {s : Server} (seated : Seated s.hub) (e : Servers.Event)
    (flush : e ≠ .metricsFlush) (takes : ∀ p, e ≠ .egress p) :
    Moved s.hub (Servers.step hmacSha1 crc32 s e).hub := by
  by_cases roams : Roams e
  · cases e with
    | reaper nowMs =>
      exact ⟨Nat.le_of_eq (runZombieReaper_keeps nowMs).nextPtr.symm,
        fun p => .inl (runZombieReaper_framed evolves_frame s.hub nowMs p)⟩
    | srtpKeys p pc =>
      refine ⟨Nat.le_refl _, fun q => .inl ?_⟩
      have keyed : Within (fun _ => True) s.hub.heap (mutate s.hub.heap p _) :=
        Within.move trivial (f := fun st => st.installSrtpKeys pc) (.keyed pc)
      exact (keyed q).1
    | metricsFlush => exact absurd rfl flush
    | egress p => exact absurd rfl (takes p)
    | _ => exact roams.elim
  · rcases step_confined hmacSha1 crc32 seated e roams with same | ⟨_, _, confined⟩
    · rw [same]
      exact .refl s.hub
    · exact confined.toMoved

end Steps
end RoomEvents
