import OxlensSfu.PoisedRewriters
import OxlensSfu.BurstContinuity

/-
Requests of the floor by its holder and releases of the idle floor. The floor answers both
without a change; the handlers take the answers for an ordinary grant and an ordinary release.
-/
namespace FloorIdempotence
open WireBytes SfuConfig FloorControl PttRewriter KeyedMap Participants RoomHubs RoomHub Signaling
open FloorHandlers RoomHandlers Ingress Servers Deliveries PoisedRewriters SpeakerAgreement GuardedRun
open BurstContinuity (listenerJoined talk)

inductive FloorCall where
  | request
  | release
  deriving DecidableEq

/-- The holder asks for the floor again, or somebody gives up the idle floor, over WS or MBCP. -/
inductive Repeats (s : Server) (r : RoomId) (room : Room) : FloorCall → Event → Prop
  | wsRequest {conn session u pid priority o} (here : s.sessions conn = some session)
      (user : session.userId = some u) (holds : currentSpeaker room.floor = some u) :
      Repeats s r room .request (.request conn pid (.floorRequest (some ⟨r, priority⟩)) o)
  | mbcpRequest {remote sender pc touchMs o} (found : s.hub.findByAddr remote = some (sender, pc, r))
      (ready : mediaReady (s.hub.heap sender) pc = true)
      (holds : currentSpeaker room.floor = some (s.hub.arcs sender).userId) :
      Repeats s r room .request (.mbcp remote mbcpSubtypeFreq touchMs o)
  | wsRelease {conn session u pid o} (here : s.sessions conn = some session)
      (user : session.userId = some u) (idle : room.floor.state = .idle) :
      Repeats s r room .release (.request conn pid (.floorRelease (some r)) o)
  | mbcpRelease {remote sender pc touchMs o} (found : s.hub.findByAddr remote = some (sender, pc, r))
      (ready : mediaReady (s.hub.heap sender) pc = true) (idle : room.floor.state = .idle) :
      Repeats s r room .release (.mbcp remote mbcpSubtypeFrel touchMs o)

/-- Sequence numbers, timestamps, and the waits for a first packet and for a keyframe. -/
def numbering (r : Rewriter) :
    UInt16 × UInt32 × UInt16 × UInt32 × UInt16 × UInt32 × Bool × Bool :=
  (r.state.originBaseSeq, r.state.originBaseTs, r.state.virtualBaseSeq, r.state.virtualBaseTs,
    r.state.lastVirtualSeq, r.state.lastVirtualTs,
    r.state.awaitingFirstPacket, r.state.pendingKeyframe)

def rtpOf : EgressPacket → Option Bytes
  | .rtp p => some p
  | .rtcp _ => none

def mediaIn (s : ParticipantState) : List Bytes := s.egress.filterMap rtpOf

/-- Floor, numbering and queued media are as before. -/
structure Unmoved (s next : Server) (r : RoomId) (room : Room) : Prop where
  room : ∃ after, next.hub.rooms.lookup r = some after ∧ after.floor = room.floor ∧
    numbering after.audioRewriter = numbering room.audioRewriter ∧
    numbering after.videoRewriter = numbering room.videoRewriter
  queues : ∀ p, mediaIn (next.hub.heap p) = mediaIn (s.hub.heap p)

/-- The burst still waits for its first packet, and began at this distance from the last output. -/
def Opening (r : Rewriter) (gap : UInt32) : Prop :=
  r.state.awaitingFirstPacket = true ∧ r.state.virtualBaseTs = r.state.lastVirtualTs + gap

instance (r : Rewriter) (gap : UInt32) : Decidable (Opening r gap) :=
  inferInstanceAs (Decidable (_ ∧ _))

/-- A repeated request finds both rewriters at the start of a burst with the least gap; a release
    finds an audio rewriter that has put nothing out. -/
def Untouched (room : Room) : FloorCall → Prop
  | .request => Opening room.audioRewriter 0 ∧ Opening room.videoRewriter tsGuardGapVideo
  | .release =>
    room.audioRewriter.state.lastVirtualSeq = 0 ∧ room.audioRewriter.state.lastVirtualTs = 0

section Rewriters
variable {requireKeyframe : Bool} {r : Rewriter}

/-- The gap of a change of speakers with no clear before it. -/
def leastGap (requireKeyframe : Bool) : UInt32 := if requireKeyframe then tsGuardGapVideo else 0

theorem switch_numbering_iff {gap : UInt32}
    (fixed : gap = if requireKeyframe then tsGuardGapVideo else tsGuardGapAudio)
    (poised : Poised requireKeyframe gap r) (u : UserId) (now : Instant) :
    numbering (switchSpeaker r u now) = numbering r ↔ Opening r (leastGap requireKeyframe) := by
  have least : r.state.clearedAt = none → switchTsGap r now = leastGap requireKeyframe := by
    intro spent
    simp only [switchTsGap, dynamicTsGap, spent, poised.kind, poised.gap, fixed, leastGap]
    cases requireKeyframe <;> decide
  simp only [numbering, switchSpeaker, Prod.mk.injEq, true_and, Opening]
  constructor
  · rintro ⟨_, ts, waits, _⟩
    have begun := poised.waiting waits.symm
    exact ⟨waits.symm, by rw [← ts, least begun.2.1]⟩
  · rintro ⟨waits, ts⟩
    obtain ⟨_, spent, seq⟩ := poised.waiting waits
    exact ⟨seq.symm, by rw [least spent, ts], waits.symm, by
      rw [poised.pending, waits, poised.kind, Bool.and_true]⟩

/-- Without a speaker there is no wait that a clear could end. -/
theorem clear_numbering_iff {gap : UInt32} (poised : Poised requireKeyframe gap r)
    (silent : r.state.speaker = none) (now : Instant) :
    numbering (clearSpeaker r now).1 = numbering r ↔
      requireKeyframe = true ∨ (r.state.lastVirtualSeq = 0 ∧ r.state.lastVirtualTs = 0) := by
  have begun : r.state.awaitingFirstPacket = false := by
    rw [← Bool.not_eq_true]
    exact fun waits => (poised.waiting waits).1 silent
  have open_ : r.state.pendingKeyframe = false := by rw [poised.pending, begun, Bool.and_false]
  unfold clearSpeaker
  rw [← poised.kind]
  split
  · rename_i video
    simp [numbering, begun, open_, video]
  · rename_i audio
    split
    · rename_i unused
      simp [numbering, begun, open_, unused]
    · rename_i used
      refine ⟨fun same => ?_, fun either => absurd either (not_or.mpr ⟨audio, used⟩)⟩
      simp only [numbering, Prod.mk.injEq] at same
      have moved : r.state.lastVirtualSeq + 3 = r.state.lastVirtualSeq := same.2.2.2.2.1
      grind

end Rewriters

section Calls
variable (hmacSha1 : Bytes → Bytes → Bytes) (crc32 : Bytes → UInt32)
variable {s : Server} {r : RoomId} {room : Room} {e : Event}

theorem withPtt_room {hub : RoomHub} (held : hub.rooms.lookup r = some room) (ptt : PttState)
    (heap : Heap) :
    (withPtt hub r ptt heap).rooms.lookup r = some { room with toPttState := ptt } := by
  rw [withPtt, lookup_modify, if_pos rfl, held, Option.map_some]

theorem request_again {c : FloorController} {u : UserId} (holds : currentSpeaker c = some u)
    (priority : UInt8) (now : Nat) : ∃ held,
    FloorControl.request c u priority now = (c, [.granted u held floorDefaultDurationS]) := by
  cases state : c.state with
  | idle => simp [currentSpeaker, state] at holds
  | taken speaker held start last =>
    simp only [currentSpeaker, state, Option.some.injEq] at holds
    exact ⟨held, by simp [FloorControl.request, state, holds]⟩

theorem release_idle {c : FloorController} (idle : c.state = .idle) (u : UserId) (grantMs : Nat) :
    FloorControl.release c u grantMs = (c, [.released u]) := by
  simp [FloorControl.release, idle]

section Handlers
variable (arcs : Ptr → Participant) (room : Room) (heap : Heap) (clk : Nat → Instant)

/-- What the handlers of a repeated request do to the room. -/
def requested (u : UserId) : PttState :=
  ⟨room.floor, switchSpeaker room.audioRewriter u (clk 0),
    switchSpeaker room.videoRewriter u (clk 1)⟩

/-- What the handlers of a release of the idle floor do to the room. -/
def released : PttState :=
  ⟨room.floor, (clearSpeaker room.audioRewriter (clk 0)).1,
    (clearSpeaker room.videoRewriter (clk 1)).1⟩

theorem handleFloorRequest_again {u : UserId} (holds : currentSpeaker room.floor = some u) (pid : Nat)
    (priority : Option UInt8) (now : Nat) :
    (handleFloorRequest arcs room heap clk u pid priority now).1.ptt = requested room clk u := by
  obtain ⟨sp, again⟩ := request_again holds (priority.getD floorDefaultPriority) now
  simp only [handleFloorRequest, floorOp, applyOp, again, List.foldl_cons, List.foldl_nil,
    floorRequestAction, grant_ptt]
  rfl

theorem handleMbcp_again {sender : Ptr} (holds : currentSpeaker room.floor = some (arcs sender).userId)
    (now grantMs : Nat) :
    (handleMbcp arcs room heap clk sender mbcpSubtypeFreq now grantMs).ptt =
      requested room clk (arcs sender).userId := by
  obtain ⟨sp, again⟩ := request_again holds floorDefaultPriority now
  simp only [handleMbcp, if_true, floorOp, applyOp, again, List.foldl_cons, List.foldl_nil,
    applyMbcpFloorAction, send_ptt, broadcastMbcp_ptt, burstTo_ptt]
  rfl

theorem handleFloorRelease_idle (idle : room.floor.state = .idle) (u : UserId) (pid grantMs : Nat) :
    (handleFloorRelease arcs room heap clk u pid grantMs).1.ptt = released room clk := by
  simp only [handleFloorRelease, floorOp, applyOp, release_idle idle]
  rfl

theorem handleMbcp_idle (idle : room.floor.state = .idle) (sender : Ptr) (now grantMs : Nat) :
    (handleMbcp arcs room heap clk sender mbcpSubtypeFrel now grantMs).ptt = released room clk := by
  have other : ¬ mbcpSubtypeFrel = mbcpSubtypeFreq := by decide
  simp only [handleMbcp, if_neg other, if_true, floorOp, applyOp, release_idle idle]
  rfl

end Handlers

section Server
variable {s : Server} {r : RoomId} {room : Room} {conn : ConnId} {session : Session} {u : UserId}
  {o : Oracle}

theorem wsRequest_hub (here : s.sessions conn = some session) (user : session.userId = some u)
    (held : s.hub.rooms.lookup r = some room) (mode : room.mode = .ptt)
    (pid : Nat) (priority : Option UInt8) :
    let done := handleFloorRequest s.hub.arcs room s.hub.heap o.clk u pid priority o.nowMs
    (Servers.step hmacSha1 crc32 s (.request conn pid (.floorRequest (some ⟨r, priority⟩)) o)).hub =
      withPtt s.hub r done.1.ptt done.1.heap := by
  simp only [Servers.step, Servers.request, here, dispatch, user, onFloor, pttRoom, floorRoom,
    Option.map_some, held, mode, if_true, Option.bind_some]

theorem wsRelease_hub (here : s.sessions conn = some session) (user : session.userId = some u)
    (held : s.hub.rooms.lookup r = some room) (mode : room.mode = .ptt) (pid : Nat) :
    let done := handleFloorRelease s.hub.arcs room s.hub.heap o.clk u pid o.grantMs
    (Servers.step hmacSha1 crc32 s (.request conn pid (.floorRelease (some r)) o)).hub =
      withPtt s.hub r done.1.ptt done.1.heap := by
  simp only [Servers.step, Servers.request, here, dispatch, user, onFloor, pttRoom, floorRoom,
    held, mode, if_true]

theorem mbcp_hub {remote : SocketAddr} {sender : Ptr} {pc : PcType}
    (found : s.hub.findByAddr remote = some (sender, pc, r))
    (ready : mediaReady (s.hub.heap sender) pc = true)
    (held : s.hub.rooms.lookup r = some room) (mode : room.mode = .ptt)
    (subtype : UInt8) (touchMs : Nat) :
    let touched := s.hub.touch sender touchMs
    let done := handleMbcp s.hub.arcs room touched.heap o.clk sender subtype o.nowMs o.grantMs
    (Servers.step hmacSha1 crc32 s (.mbcp remote subtype touchMs o)).hub =
      withPtt touched r done.ptt done.heap := by
  simp only [Servers.step, push, handleMbcpFrom, found, held, ready, mode, and_self, if_true]

/-- The two rewriters and the floor after a repeated call. -/
def answered (room : Room) (clk : Nat → Instant) (u : UserId) : FloorCall → PttState
  | .request => requested room clk u
  | .release => released room clk

variable {call : FloorCall} {e : Event}

theorem repeats_room (repeats : Repeats s r room call e) (held : s.hub.rooms.lookup r = some room)
    (mode : room.mode = .ptt) : ∃ clk u, (Servers.step hmacSha1 crc32 s e).hub.rooms.lookup r =
      some { room with toPttState := answered room clk u call } := by
  cases repeats with
  | @wsRequest conn session u pid priority o here user holds =>
    refine ⟨o.clk, u, ?_⟩
    rw [wsRequest_hub hmacSha1 crc32 here user held mode, withPtt_room held,
      handleFloorRequest_again _ _ _ _ holds]
    rfl
  | @mbcpRequest remote sender pc touchMs o found ready holds =>
    refine ⟨o.clk, (s.hub.arcs sender).userId, ?_⟩
    have held' : (s.hub.touch sender touchMs).rooms.lookup r = some room := held
    rw [mbcp_hub hmacSha1 crc32 found ready held mode, withPtt_room held',
      handleMbcp_again _ _ _ _ holds]
    rfl
  | @wsRelease conn session u pid o here user idle =>
    refine ⟨o.clk, u, ?_⟩
    rw [wsRelease_hub hmacSha1 crc32 here user held mode, withPtt_room held,
      handleFloorRelease_idle _ _ _ _ idle]
    rfl
  | @mbcpRelease remote sender pc touchMs o found ready idle =>
    refine ⟨o.clk, (s.hub.arcs sender).userId, ?_⟩
    have held' : (s.hub.touch sender touchMs).rooms.lookup r = some room := held
    rw [mbcp_hub hmacSha1 crc32 found ready held mode, withPtt_room held',
      handleMbcp_idle _ _ _ _ idle]
    rfl

theorem repeats_delivers (repeats : Repeats s r room call e) (held : s.hub.rooms.lookup r = some room)
    (mode : room.mode = .ptt) (untouched : Untouched room call) :
    Delivers s.hub.heap (Servers.step hmacSha1 crc32 s e).hub.heap [] := by
  cases repeats with
  | wsRequest here user holds =>
    rw [wsRequest_hub hmacSha1 crc32 here user held mode]
    exact handleFloorRequest_delivers ..
  | mbcpRequest found ready holds =>
    rw [mbcp_hub hmacSha1 crc32 found ready held mode]
    exact (touch_serves s.hub _ _).delivers.trans (handleMbcp_delivers ..)
  | @wsRelease conn session u pid o here user idle =>
    rw [wsRelease_hub hmacSha1 crc32 here user held mode]
    have delivers := handleFloorRelease_delivers s.hub.arcs room s.hub.heap o.clk u pid o.grantMs
    have unused : silence room room.audioRewriter = [] := by
      rw [silence, silenceOf, if_pos (.inr untouched), List.map_nil]
    rwa [if_pos (.inl idle), unused] at delivers
  | mbcpRelease found ready idle =>
    rw [mbcp_hub hmacSha1 crc32 found ready held mode]
    exact (touch_serves s.hub _ _).delivers.trans (handleMbcp_delivers ..)

/-- RTCP deliveries put no media into a queue. -/
theorem delivers_media {h h' : Heap} (delivers : Delivers h h' []) (p : Ptr) :
    mediaIn (h' p) = mediaIn (h p) := by
  obtain ⟨sends, same, noMedia⟩ := delivers
  have one : ∀ (targets : List Ptr) (pkt : Bytes) (h : Heap),
      Shows mediaIn h (sendToReady h targets (.rtcp pkt)) := by
    intro targets pkt h
    refine Shows.mutateAll (fun s => ?_) targets h
    unfold ParticipantState.isSubscribeReady ParticipantState.trySend
    split
    · split
      · simp [mediaIn, rtpOf]
      · rfl
    · rfl
  have all : ∀ (sends : List Delivery), sends.filterMap mediaOf = [] →
      ∀ h, Shows mediaIn h (deliver h sends) := by
    intro sends
    induction sends with
    | nil => exact fun _ h => .refl mediaIn h
    | cons d sends ih =>
      intro none h
      obtain ⟨targets, pkt⟩ := d
      cases pkt with
      | rtp out => simp [mediaOf] at none
      | rtcp out => exact (one targets out h).trans (ih (by simpa [mediaOf] using none) _)
  have queues : (h' p).egress = (deliver h sends p).egress := congrArg (fun c => c.2.2.2) (same p)
  rw [mediaIn, queues]
  exact all sends noMedia h p

theorem answered_numbering_iff (poised : BothPoised room.toPttState)
    (hushed : Hushed (viewOf room.mode room.toPttState)) (repeats : Repeats s r room call e)
    (clk : Nat → Instant) (u : UserId) :
    (numbering (answered room clk u call).audioRewriter = numbering room.audioRewriter ∧
      numbering (answered room clk u call).videoRewriter = numbering room.videoRewriter) ↔
        Untouched room call := by
  cases call with
  | request =>
    exact and_congr (switch_numbering_iff rfl poised.1 u _) (switch_numbering_iff rfl poised.2 u _)
  | release =>
    have idle : currentSpeaker room.floor = none := by
      cases repeats with
      | wsRelease here user idle => simp [currentSpeaker, idle]
      | mbcpRelease found ready idle => simp [currentSpeaker, idle]
    obtain ⟨audio, video⟩ := hushed idle
    simp only [answered, released, clear_numbering_iff poised.1 audio, clear_numbering_iff poised.2 video,
      Bool.false_eq_true, false_or, true_or, and_true, Untouched]

theorem call_unmoved_iff (poised : EveryPoised s.hub) (held : s.hub.rooms.lookup r = some room)
    (mode : room.mode = .ptt) (repeats : Repeats s r room call e) :
    Unmoved s (Servers.step hmacSha1 crc32 s e) r room ↔ Untouched room call := by
  obtain ⟨both, hushed⟩ := poised r room held
  obtain ⟨clk, u, after⟩ := repeats_room hmacSha1 crc32 repeats held mode
  have same := answered_numbering_iff both hushed repeats clk u
  have floor : (answered room clk u call).floor = room.floor := by cases call <;> rfl
  constructor
  · rintro ⟨⟨room', found, _, audio, video⟩, _⟩
    rw [after, Option.some.injEq] at found
    subst found
    exact same.mp ⟨audio, video⟩
  · intro untouched
    obtain ⟨audio, video⟩ := same.mpr untouched
    exact ⟨⟨_, after, floor, audio, video⟩,
      delivers_media (repeats_delivers hmacSha1 crc32 repeats held mode untouched)⟩

end Server

/-- Whatever call the event repeats, its room stays as it is. -/
def Idempotent (s : Server) (e : Event) : Prop := ∀ r room call,
  s.hub.rooms.lookup r = some room → room.mode = .ptt → Repeats s r room call e →
    Unmoved s (Servers.step hmacSha1 crc32 s e) r room

/-- Whatever call the event repeats, it finds its room in a state to which it adds nothing. -/
def Harmless (s : Server) (e : Event) : Prop := ∀ r room call,
  s.hub.rooms.lookup r = some room → room.mode = .ptt → Repeats s r room call e → Untouched room call

theorem repeated_calls_idempotent_iff (es : List Event) :
    (∀ e r room call,
      (run (Servers.step hmacSha1 crc32) Server.new es).hub.rooms.lookup r = some room →
      room.mode = .ptt → Repeats (run (Servers.step hmacSha1 crc32) Server.new es) r room call e →
      (Unmoved (run (Servers.step hmacSha1 crc32) Server.new es) (Servers.step hmacSha1 crc32
        (run (Servers.step hmacSha1 crc32) Server.new es) e) r room ↔ Untouched room call)) ∧
    (Guarded (Servers.step hmacSha1 crc32) (Idempotent hmacSha1 crc32) Server.new es ↔
      Guarded (Servers.step hmacSha1 crc32) Harmless Server.new es) := by
  have keep := fun s e (poised : EveryPoised s.hub) => step_poised hmacSha1 crc32 s e poised
  have start : EveryPoised Server.new.hub := run_poised hmacSha1 crc32 []
  refine ⟨fun e r room call held mode repeats =>
    call_unmoved_iff hmacSha1 crc32 (run_poised hmacSha1 crc32 es) held mode repeats, ?_, ?_⟩
  · exact @guarded_of_invariant _ _ _ _ (fun s => EveryPoised s.hub) _
      (fun s e poised _ => keep s e poised)
      (fun s e poised all r room call held mode repeats =>
        (call_unmoved_iff hmacSha1 crc32 poised held mode repeats).mp (all r room call held mode repeats))
      _ start es
  · exact @guarded_of_invariant _ _ _ _ (fun s => EveryPoised s.hub) _
      (fun s e poised _ => keep s e poised)
      (fun s e poised all r room call held mode repeats =>
        (call_unmoved_iff hmacSha1 crc32 poised held mode repeats).mpr (all r room call held mode repeats))
      _ start es

end Calls

/-- Asking twice before the first packet does no harm. -/
example : ((run (Servers.step sampleHmac fun _ => 0) Server.new (listenerJoined ++
    [requestFloor 0])).hub.rooms.lookup "room").map (fun room =>
      decide (Opening room.audioRewriter 0 ∧ Opening room.videoRewriter tsGuardGapVideo)) = some true := by
  decide

/-- A is talking and asks for the floor once more. -/
theorem repeated_request_counterexample : ¬ ∀ (hmacSha1 : Bytes → Bytes → Bytes) (crc32 : Bytes → UInt32)
    (es : List Event) (e : Event) (r : RoomId) (room : Room) (call : FloorCall),
    (run (Servers.step hmacSha1 crc32) Server.new es).hub.rooms.lookup r = some room → room.mode = .ptt →
      Repeats (run (Servers.step hmacSha1 crc32) Server.new es) r room call e →
      Unmoved (run (Servers.step hmacSha1 crc32) Server.new es) (Servers.step hmacSha1 crc32
        (run (Servers.step hmacSha1 crc32) Server.new es) e) r room := by
  intro all
  let es := listenerJoined ++ [requestFloor 0, talk 100]
  let s := run (Servers.step sampleHmac fun _ => 0) Server.new es
  have state : (s.hub.rooms.lookup "room").map (fun room => (room.mode, currentSpeaker room.floor,
      room.audioRewriter.state.awaitingFirstPacket)) = some (.ptt, some "a", false) := by decide
  have user : (s.sessions 0).map (·.userId) = some (some "a") := by decide
  obtain ⟨room, held, facts⟩ := Option.map_eq_some_iff.mp state
  obtain ⟨session, here, user⟩ := Option.map_eq_some_iff.mp user
  simp only [Prod.mk.injEq] at facts
  obtain ⟨mode, holds, begun⟩ := facts
  have repeats : Repeats s "room" room .request (requestFloor 0) := .wsRequest here user holds
  have unmoved := all sampleHmac (fun _ => 0) es (requestFloor 0) "room" room .request held mode repeats
  have untouched := (call_unmoved_iff sampleHmac (fun _ => 0) (run_poised sampleHmac (fun _ => 0) es)
    held mode repeats).mp unmoved
  have waits : room.audioRewriter.state.awaitingFirstPacket = true := untouched.1.1
  rw [begun] at waits
  cases waits

end FloorIdempotence
