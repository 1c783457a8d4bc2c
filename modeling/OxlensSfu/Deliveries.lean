import OxlensSfu.SpeakerAgreement

/-
Which packets a handler puts into which egress queues. Beyond that the handlers leave the
core of every participant's state alone: the two sessions, the packet cache and the queue.
RTCP messages are not listed.
-/
namespace Deliveries
open WireBytes SfuConfig RtpPacket FloorControl PttRewriter KeyedMap Participants RoomHubs RoomHub
open Signaling FloorHandlers RoomHandlers TrackHandlers Ingress Servers Membership FloorQueue
open SpeakerAgreement

def core (s : ParticipantState) : SessionState × SessionState × RtpCache × List EgressPacket :=
  (s.publish, s.subscribe, s.rtpCache, s.egress)

section Core
variable {s t : ParticipantState}

theorem core_requestKeyframe (s : ParticipantState) (ssrc : Option UInt32) (delays : List Nat) :
    core (s.requestKeyframe ssrc delays) = core s :=
  view_requestKeyframe (fun _ _ => rfl) s ssrc delays

theorem core_ensure (s : ParticipantState) (draw : NonzeroSsrc) :
    core (s.ensureSimulcastVideoSsrc draw).1 = core s := view_ensure (fun _ _ => rfl) s draw

def queued (s : ParticipantState) (pkt : EgressPacket) : List EgressPacket :=
  if s.subscribe.ready = true ∧ s.egress.length < egressQueueSize then s.egress ++ [pkt]
  else s.egress

/-- What one `try_send` to a ready participant does to the core. -/
theorem core_sendReady (s : ParticipantState) (pkt : EgressPacket) :
    core (if s.isSubscribeReady then s.trySend pkt else s) =
      (s.publish, s.subscribe, s.rtpCache, queued s pkt) := by
  unfold ParticipantState.isSubscribeReady ParticipantState.trySend queued
  by_cases ready : s.subscribe.ready = true
  · by_cases space : s.egress.length < egressQueueSize
    · rw [if_pos ready, if_pos space, if_pos ⟨ready, space⟩]
      rfl
    · rw [if_pos ready, if_neg space, if_neg fun both => space both.2]
      rfl
  · rw [if_neg ready, if_neg fun both => ready both.1]
    rfl

theorem core_sendReady_congr (same : core s = core t) (pkt : EgressPacket) :
    core (if s.isSubscribeReady then s.trySend pkt else s) =
      core (if t.isSubscribeReady then t.trySend pkt else t) := by
  simp only [core, Prod.mk.injEq] at same
  obtain ⟨publish, subscribe, cache, egress⟩ := same
  rw [core_sendReady, core_sendReady, queued, queued, publish, subscribe, cache, egress]

end Core

abbrev SameCores := Shows core

/-- One packet for everybody in the list who is ready. -/
abbrev Delivery := List Ptr × EgressPacket

def deliver (h : Heap) (sends : List Delivery) : Heap :=
  sends.foldl (fun h d => sendToReady h d.1 d.2) h

def mediaOf : Delivery → Option (List Ptr × Bytes)
  | (targets, .rtp out) => some (targets, out)
  | (_, .rtcp _) => none

/-- `h'` is `h` after some deliveries, of which `media` are those of RTP packets. -/
def Delivers (h h' : Heap) (media : List (List Ptr × Bytes)) : Prop :=
  ∃ sends, SameCores (deliver h sends) h' ∧ sends.filterMap mediaOf = media

theorem sendToReady_congr {h g : Heap} (same : SameCores h g) (targets : List Ptr)
    (pkt : EgressPacket) :
    SameCores (sendToReady h targets pkt) (sendToReady g targets pkt) := by
  induction targets generalizing h g with
  | nil => exact same
  | cons t targets ih =>
    apply ih
    intro p
    dsimp only
    by_cases here : p = t
    · subst here
      rw [mutate_self, mutate_self]
      exact core_sendReady_congr (same p) pkt
    · rw [mutate_ne _ here, mutate_ne _ here]
      exact same p

theorem deliver_congr {h g : Heap} (same : SameCores h g) (sends : List Delivery) :
    SameCores (deliver h sends) (deliver g sends) := by
  induction sends generalizing h g with
  | nil => exact same
  | cons d sends ih => exact ih (sendToReady_congr same d.1 d.2)

namespace Delivers
variable {h h' h'' : Heap} {first second : List (List Ptr × Bytes)}

theorem of_same (same : SameCores h h') : Delivers h h' [] := ⟨[], same, rfl⟩

theorem refl (h : Heap) : Delivers h h [] := of_same (.refl core h)

theorem mutate {p : Ptr} {f : ParticipantState → ParticipantState}
    (kept : core (f (h p)) = core (h p)) : Delivers h (Participants.mutate h p f) [] :=
  of_same (.mutate kept)

theorem trans (left : Delivers h h' first) (right : Delivers h' h'' second) :
    Delivers h h'' (first ++ second) := by
  obtain ⟨sends, same, rfl⟩ := left
  obtain ⟨more, later, rfl⟩ := right
  refine ⟨sends ++ more, ?_, List.filterMap_append⟩
  rw [deliver, List.foldl_append]
  exact (deliver_congr same more).trans later

theorem rtcp (h : Heap) (targets : List Ptr) (pkt : Bytes) :
    Delivers h (sendToReady h targets (.rtcp pkt)) [] :=
  ⟨[(targets, .rtcp pkt)], .refl core _, rfl⟩

theorem rtp (h : Heap) (targets : List Ptr) (out : Bytes) :
    Delivers h (sendToReady h targets (.rtp out)) [(targets, out)] :=
  ⟨[(targets, .rtp out)], .refl core _, rfl⟩

/-- A loop whose rounds deliver no media. -/
theorem fold {σ β : Type} (heapOf : σ → Heap) {f : σ → β → σ}
    (each : ∀ s b, Delivers (heapOf s) (heapOf (f s b)) []) (l : List β) (s : σ) :
    Delivers (heapOf s) (heapOf (l.foldl f s)) [] := by
  induction l generalizing s with
  | nil => exact refl (heapOf s)
  | cons b l ih => exact (each s b).trans (ih (f s b))

theorem frames (h : Heap) (targets : List Ptr) (outs : List Bytes) :
    Delivers h (outs.foldl (fun h out => sendToReady h targets (.rtp out)) h)
      (outs.map fun out => (targets, out)) := by
  induction outs generalizing h with
  | nil => exact refl h
  | cons out outs ih => exact (rtp h targets out).trans (ih (sendToReady h targets (.rtp out)))

/-- What no delivery shows in. -/
theorem shows {α : Type} {view : ParticipantState → α}
    (blind : ∀ s t, core s = core t → view s = view t)
    (unsent : ∀ s pkt, view (s.trySend pkt) = view s) (delivers : Delivers h h' first) :
    Shows view h h' := by
  obtain ⟨sends, same, _⟩ := delivers
  have one : ∀ h (d : Delivery), Shows view h (sendToReady h d.1 d.2) :=
    fun h d => Shows.sendToReady unsent h d.1 d.2
  have sent : Shows view h (deliver h sends) := Shows.fold id one sends h
  exact sent.trans fun p => blind _ _ (same p)

end Delivers

/-- The frames of a clear. -/
def silenceOf (r : Rewriter) : List Bytes :=
  if r.requireKeyframe = true ∨ (r.state.lastVirtualSeq = 0 ∧ r.state.lastVirtualTs = 0) then []
  else (List.range silenceFlushCount).map (silenceFrame r)

theorem clearSpeaker_frames (r : Rewriter) (now : Instant) :
    (clearSpeaker r now).2.getD [] = silenceOf r := by
  unfold clearSpeaker silenceOf
  split
  · rename_i video
    rw [if_pos (.inl video)]
    rfl
  · rename_i audio
    split
    · rename_i unused
      rw [if_pos (.inr unused)]
      rfl
    · rename_i used
      rw [if_neg (not_or.mpr ⟨audio, used⟩)]
      rfl

@[simp] theorem silenceOf_switch (r : Rewriter) (u : UserId) (now : Instant) :
    silenceOf (switchSpeaker r u now) = silenceOf r := rfl

/-- The silence frames for the participants of the room. -/
def silence (room : Room) (r : Rewriter) : List (List Ptr × Bytes) :=
  (silenceOf r).map fun frame => (subscribers room, frame)

section Floor
variable (arcs : Ptr → Participant) (room : Room) (clk : Nat → Instant) (run : FloorRun)

theorem onParticipant_delivers (u : UserId) {f : ParticipantState → ParticipantState}
    (kept : ∀ s, core (f s) = core s) : Delivers run.heap (onParticipant room run u f).heap [] := by
  unfold onParticipant
  split
  · exact .mutate (kept _)
  · exact .refl run.heap

theorem cancelOf_delivers (u : UserId) :
    Delivers run.heap (onParticipant room run u (·.cancelPliBurst)).heap [] :=
  onParticipant_delivers room run u fun _ => rfl

theorem burstTo_delivers (u : UserId) : Delivers run.heap (burstTo room run u).heap [] :=
  onParticipant_delivers room run u fun s => core_requestKeyframe s s.firstVideoSsrc floorBurst

theorem sendTo_heap (u : UserId) (event : WsEvent) :
    (sendTo arcs room run u event).heap = run.heap := by
  unfold sendTo
  split <;> rfl

theorem grant_delivers (u : UserId) (announce : Outbox) :
    Delivers run.heap (grant room clk run u announce).heap [] :=
  burstTo_delivers room (switchRewriters clk run u) u

theorem sendMbcpTo_delivers (u : UserId) (pkt : Bytes) :
    Delivers run.heap (sendMbcpTo room run u pkt).heap [] := by
  unfold sendMbcpTo
  split
  · exact .rtcp run.heap _ _
  · exact .refl run.heap

theorem flushPttSilence_delivers : Delivers run.heap (flushPttSilence room clk run).heap
    (silence room run.ptt.audioRewriter) := by
  unfold flushPttSilence silence
  rw [← clearSpeaker_frames run.ptt.audioRewriter (clk run.reads)]
  exact .frames run.heap (subscribers room) _

theorem floorRequestAction_delivers (requester : UserId) (pid : Nat) (state : FloorRun × Reply)
    (action : FloorAction) : Delivers state.1.heap
      (floorRequestAction arcs room clk requester pid state action).1.heap [] := by
  obtain ⟨run, response⟩ := state
  cases action with
  | granted speaker priority durationS => exact grant_delivers room clk run speaker _
  | revoked prevSpeaker cause =>
    simp only [floorRequestAction, sendTo_heap]
    exact cancelOf_delivers room run prevSpeaker
  | _ => exact .refl run.heap

theorem applyFloorAction_delivers (op : UInt16) (pid : Nat) (requester : UserId)
    (state : FloorRun × Reply) (action : FloorAction) : Delivers state.1.heap
      (applyFloorAction arcs room clk op pid requester state action).1.heap [] := by
  obtain ⟨run, response⟩ := state
  cases action with
  | granted speaker priority durationS =>
    simp only [applyFloorAction]
    split
    · rw [sendTo_heap]
      exact grant_delivers room clk run speaker _
    · exact grant_delivers room clk run speaker _
  | revoked prevSpeaker cause =>
    simp only [applyFloorAction, send, sendTo_heap]
    exact cancelOf_delivers room run prevSpeaker
  | _ => exact .refl run.heap

theorem applyFloorActions_delivers (op : UInt16) (pid : Nat) (requester : UserId)
    (actions : List FloorAction) : Delivers run.heap
      (applyFloorActions arcs room clk op pid requester run actions).1.heap [] :=
  Delivers.fold (fun state : FloorRun × Reply => state.1.heap)
    (applyFloorAction_delivers arcs room clk op pid requester) actions (run, _)

theorem applyMbcpFloorAction_delivers (requester : Ptr) (action : FloorAction) :
    Delivers run.heap (applyMbcpFloorAction arcs room clk requester run action).heap [] := by
  cases action with
  | granted speaker priority durationS =>
    exact (burstTo_delivers room (switchRewriters clk run speaker) speaker).trans (.rtcp _ _ _)
  | revoked prevSpeaker cause =>
    exact ((cancelOf_delivers room run prevSpeaker).trans (sendMbcpTo_delivers room _ _ _)).trans
      (.rtcp _ _ _)
  | pingOk => exact .refl run.heap
  | pingDenied => exact .refl run.heap
  | _ => exact .rtcp run.heap _ _

theorem timerAction_delivers (action : FloorAction) :
    Delivers run.heap (timerAction arcs room clk run action).heap [] := by
  cases action with
  | granted speaker priority durationS =>
    simp only [timerAction, send, sendTo_heap]
    exact burstTo_delivers room (switchRewriters clk run speaker) speaker
  | revoked prevSpeaker cause =>
    simp only [timerAction, send, sendTo_heap]
    exact cancelOf_delivers room run prevSpeaker
  | _ => exact .refl run.heap

/-- The release path of MBCP clears the rewriters and drops the frames. -/
theorem flushDropped_delivers (actions : List FloorAction) :
    Delivers run.heap (flushReleased (clearRewriters clk) run actions).heap [] := by
  apply Delivers.fold FloorRun.heap
  intro run action
  cases action <;> exact .refl run.heap

end Floor

/-- A release by `u` is answered with Released: `u` talks, or nobody does. -/
def Released (c : FloorController) (u : UserId) : Prop :=
  c.state = .idle ∨ currentSpeaker c = some u

instance (c : FloorController) (u : UserId) : Decidable (Released c u) :=
  inferInstanceAs (Decidable (_ ∨ _))

section FloorOps
variable (arcs : Ptr → Participant) (room : Room) (heap : Heap) (clk : Nat → Instant)

theorem handleFloorRequest_delivers (u : UserId) (pid : Nat) (priority : Option UInt8)
    (now : Nat) :
    Delivers heap (handleFloorRequest arcs room heap clk u pid priority now).1.heap [] :=
  Delivers.fold (fun state : FloorRun × Reply => state.1.heap)
    (floorRequestAction_delivers arcs room clk u pid) _ _

/-- The actions of an ended burst, and the flush for its one Released. -/
theorem flush_endBurst (c : FloorController) (u : UserId) (grantMs : Nat) (run : FloorRun) :
    flushReleased (flushPttSilence room clk) run (endBurst c u (.released u) grantMs).2 =
      flushPttSilence room clk run := by
  rcases endBurst_cases c u (.released u) grantMs with ⟨_, ended⟩ | ⟨head, rest, _, ended⟩
  · rw [ended]
    rfl
  · rw [ended]
    rfl

/-- A release that is answered with Released flushes the rewriters before its other effects;
    any other one has none. -/
theorem handleFloorRelease_run (u : UserId) (pid : Nat) (grantMs : Nat) : ∃ floor acts,
    (handleFloorRelease arcs room heap clk u pid grantMs).1 =
      if Released room.floor u then (applyFloorActions arcs room clk opFloorRelease pid u
        (flushPttSilence room clk (begin_ { room.toPttState with floor := floor } heap)) acts).1
      else begin_ { room.toPttState with floor := floor } heap := by
  obtain ⟨next, acts, result, can⟩ := floorOp_transition room.toPttState (.release u grantMs)
  refine ⟨next, acts, ?_⟩
  simp only [handleFloorRelease, result]
  cases can with
  | releaseHeld held => rw [if_pos (.inr (currentSpeaker_of_taken held)), flush_endBurst]
  | releaseIdle idle =>
    rw [if_pos (.inl idle)]
    rfl
  | releaseOther held other =>
    have quiet : ¬ Released room.floor u := by simp [Released, currentSpeaker, held, other]
    rw [if_neg quiet]
    rfl

theorem handleFloorRelease_delivers (u : UserId) (pid : Nat) (grantMs : Nat) :
    Delivers heap (handleFloorRelease arcs room heap clk u pid grantMs).1.heap
      (if Released room.floor u then silence room room.audioRewriter else []) := by
  obtain ⟨floor, acts, run⟩ := handleFloorRelease_run arcs room heap clk u pid grantMs
  rw [run]
  split
  · have flushed := flushPttSilence_delivers room clk
      (begin_ { room.toPttState with floor := floor } heap)
    have done := flushed.trans (applyFloorActions_delivers arcs room clk _ opFloorRelease pid u acts)
    rwa [List.append_nil] at done
  · exact .refl heap

theorem handleMbcp_delivers (sender : Ptr) (subtype : UInt8) (now grantMs : Nat) :
    Delivers heap (handleMbcp arcs room heap clk sender subtype now grantMs).heap [] := by
  have applied : ∀ (actions : List FloorAction) (run : FloorRun), Delivers run.heap
      (actions.foldl (applyMbcpFloorAction arcs room clk sender) run).heap [] :=
    fun actions run => Delivers.fold FloorRun.heap
      (fun run action => applyMbcpFloorAction_delivers arcs room clk run sender action) actions run
  simp only [handleMbcp]
  split
  · exact applied _ (begin_ _ heap)
  split
  · exact (flushDropped_delivers clk (begin_ _ heap) _).trans (applied _ _)
  split <;> exact .refl heap

theorem floorTimerTick_delivers (now grantMs : Nat) :
    Delivers heap (floorTimerTick arcs room heap clk now grantMs).heap [] :=
  Delivers.fold FloorRun.heap (timerAction_delivers arcs room clk) _ (begin_ _ heap)

/-- The actions of a departure move no frame number. -/
theorem applyFloorActions_silence (op : UInt16) (pid : Nat) (requester : UserId)
    (acts : List FloorAction) (run : FloorRun) :
    silenceOf (applyFloorActions arcs room clk op pid requester run acts).1.ptt.audioRewriter =
      silenceOf run.ptt.audioRewriter := by
  have one : ∀ (state : FloorRun × Reply) action,
      silenceOf (applyFloorAction arcs room clk op pid requester state action).1.ptt.audioRewriter =
        silenceOf state.1.ptt.audioRewriter := by
    intro result action
    obtain ⟨run, response⟩ := result
    cases action with
    | granted speaker priority durationS =>
      simp only [applyFloorAction]
      split
      · rw [sendTo_ptt, grant_ptt]
        rfl
      · rw [grant_ptt]
        rfl
    | revoked prevSpeaker cause =>
      simp only [applyFloorAction, send_ptt, sendTo_ptt, onParticipant_ptt]
    | _ => rfl
  have all : ∀ (acts : List FloorAction) (state : FloorRun × Reply),
      silenceOf (acts.foldl (applyFloorAction arcs room clk op pid requester) state).1.ptt.audioRewriter
        = silenceOf state.1.ptt.audioRewriter := by
    intro acts
    induction acts with
    | nil => exact fun _ => rfl
    | cons act acts ih => exact fun state => (ih _).trans (one state act)
  exact all acts (run, _)

/-- Only the departure of the holder has effects, and the flush comes last. -/
theorem floorLeave_run (u : UserId) (grantMs : Nat) : ∃ floor acts,
    floorLeave arcs room heap clk u grantMs =
      if currentSpeaker room.floor = some u then flushPttSilence room clk
        (applyFloorActions arcs room clk opFloorRelease 0 u
          (begin_ { room.toPttState with floor := floor } heap) acts).1
      else begin_ { room.toPttState with floor := floor } heap := by
  obtain ⟨next, acts, result, can⟩ := floorOp_transition room.toPttState
    (.onParticipantLeave u grantMs)
  refine ⟨next, acts, ?_⟩
  simp only [floorLeave, result]
  cases can with
  | leaveHeld held =>
    have nonempty : (endBurst (dequeue room.floor u) u (.released u) grantMs).2.isEmpty = false := rfl
    rw [nonempty, if_neg Bool.false_ne_true, if_pos (currentSpeaker_of_taken held)]
  | leaveOther other =>
    rw [if_neg other]
    rfl

theorem floorLeave_delivers (u : UserId) (grantMs : Nat) :
    Delivers heap (floorLeave arcs room heap clk u grantMs).heap
      (if currentSpeaker room.floor = some u then silence room room.audioRewriter else []) := by
  obtain ⟨floor, acts, run⟩ := floorLeave_run arcs room heap clk u grantMs
  rw [run]
  split
  · have told := applyFloorActions_delivers arcs room clk
      (begin_ { room.toPttState with floor := floor } heap) opFloorRelease 0 u acts
    have flushed := flushPttSilence_delivers room clk (applyFloorActions arcs room clk
      opFloorRelease 0 u (begin_ { room.toPttState with floor := floor } heap) acts).1
    rw [silence, applyFloorActions_silence] at flushed
    exact told.trans flushed
  · exact .refl heap

end FloorOps

/-- No participant is built, and the handler delivers the media. -/
structure Serves (hub next : RoomHub) (media : List (List Ptr × Bytes)) : Prop where
  nextPtr : next.nextPtr = hub.nextPtr
  delivers : Delivers hub.heap next.heap media

namespace Serves
variable {hub next last : RoomHub} {first second : List (List Ptr × Bytes)}

theorem refl (hub : RoomHub) : Serves hub hub [] := ⟨rfl, .refl hub.heap⟩

theorem trans (left : Serves hub next first) (right : Serves next last second) :
    Serves hub last (first ++ second) :=
  ⟨right.nextPtr.trans left.nextPtr, left.delivers.trans right.delivers⟩

/-- What comes after delivers nothing. -/
theorem before (left : Serves hub next first) (right : Serves next last []) :
    Serves hub last first := by
  simpa using left.trans right

/-- What came before delivers nothing. -/
theorem after (left : Serves hub next []) (right : Serves next last second) :
    Serves hub last second := left.trans right

end Serves

theorem purgeSubscribeLayers_cores (room : Room) (heap : Heap) (u : UserId) :
    SameCores heap (purgeSubscribeLayers room heap u) := by
  apply Shows.mutateAll
  intro s
  rfl

theorem simulcastReplace_cores (room : Room) (heap : Heap) (draws : Ptr → NonzeroSsrc)
    (tracks : List TrackInfo) :
    SameCores heap (simulcastReplaceVideoSsrc room heap draws tracks).1 := by
  unfold simulcastReplaceVideoSsrc
  split
  · apply Shows.fold (fun state : Heap × List TrackInfo => state.1)
    intro state t
    obtain ⟨h, done⟩ := state
    simp only [replaceVideoSsrc]
    split
    · exact .refl core h
    · split
      · dsimp only
        apply Shows.mutate
        exact core_ensure _ _
      · exact .refl core h
  · exact .refl core heap

section Departure
variable (hub : RoomHub) (r : RoomId) (u : UserId) (o : Oracle)

/-- What the departure of `u` from the room delivers. -/
def departureSilence : List (List Ptr × Bytes) :=
  match hub.rooms.lookup r with
  | some room =>
    if room.mode = .ptt ∧ currentSpeaker room.floor = some u then silence room room.audioRewriter
    else []
  | none => []

theorem departFloor_serves {room : Room} (held : hub.rooms.lookup r = some room) :
    Serves hub (departFloor hub r room u o).1 (departureSilence hub r u) := by
  have left : ∀ heap, Delivers hub.heap heap [] → Serves hub (if room.mode = .ptt then
      (withPtt hub r (floorLeave hub.arcs room heap o.clk u o.grantMs).ptt
          (floorLeave hub.arcs room heap o.clk u o.grantMs).heap,
        (floorLeave hub.arcs room heap o.clk u o.grantMs).sent)
      else ({ hub with heap := heap }, [])).1 (departureSilence hub r u) := by
    intro heap same
    simp only [departureSilence, held]
    split
    · rename_i ptt
      have gone := floorLeave_delivers hub.arcs room heap o.clk u o.grantMs
      simp only [ptt, true_and]
      exact ⟨rfl, same.trans gone⟩
    · rename_i conference
      rw [if_neg fun both => conference both.1]
      exact ⟨rfl, same⟩
  unfold departFloor
  cases room.getParticipant u with
  | none => exact left hub.heap (.refl hub.heap)
  | some p => exact left _ (.mutate rfl)

theorem removeParticipant_serves {next : RoomHub} {p : Ptr}
    (removed : hub.removeParticipant r u = .ok (next, p)) : Serves hub next [] := by
  obtain ⟨_, heap, nextPtr, _⟩ := removeParticipant_fixed removed
  refine ⟨nextPtr, ?_⟩
  rw [heap]
  exact .refl hub.heap

theorem departOrStay_serves :
    Serves hub (departOrStay hub r u o).1 (departureSilence hub r u) := by
  unfold departOrStay
  cases held : hub.rooms.lookup r with
  | some room => exact departFloor_serves hub r u o held
  | none =>
    simp only [departureSilence, held]
    exact .refl hub

theorem handleRoomLeave_serves (session : Session) (pid : Nat) :
    Serves hub (handleRoomLeave hub session pid u (some r) o).hub (departureSilence hub r u) := by
  have departed := departOrStay_serves hub r u o
  simp only [handleRoomLeave]
  split
  · exact departed
  · rename_i removed p result
    refine (departed.before (removeParticipant_serves _ r u result)).before ?_
    unfold announceLeave
    split
    · exact ⟨rfl, .of_same (purgeSubscribeLayers_cores _ removed.heap u)⟩
    · exact .refl removed

theorem cleanup_serves (session : Session) (room : session.currentRoom = some r)
    (user : session.userId = some u) :
    Serves hub (cleanup hub session o).1 (departureSilence hub r u) := by
  have told : Serves hub (cleanupOrStay hub r u o).1 (departureSilence hub r u) := by
    unfold cleanupOrStay
    cases held : hub.rooms.lookup r with
    | some room =>
      exact (departFloor_serves hub r u o held).before
        ⟨rfl, .of_same (purgeSubscribeLayers_cores room _ u)⟩
    | none =>
      simp only [departureSilence, held]
      exact .refl hub
  simp only [cleanup, room, user]
  refine told.before ?_
  unfold removeOrLog
  split
  · rename_i result
    exact removeParticipant_serves _ r u result
  · exact .refl _

end Departure

section Background
variable (hub : RoomHub)

theorem runZombieReaper_serves (nowMs : Nat) : Serves hub (runZombieReaper hub nowMs).1 [] := by
  have announced : ∀ (reaped : List (RoomId × Ptr)) (state : RoomHub × Outbox),
      Serves state.1 (reaped.foldl announceReaped state).1 [] := by
    intro reaped
    induction reaped with
    | nil => exact fun state => .refl state.1
    | cons zombie reaped ih =>
      intro state
      refine Serves.after ?_ (ih (announceReaped state zombie))
      obtain ⟨hub, sent⟩ := state
      obtain ⟨r, p⟩ := zombie
      simp only [announceReaped]
      split <;> exact ⟨rfl, .mutate rfl⟩
  have reaped : Serves hub (hub.reapZombies nowMs zombieTimeoutMs).1 [] :=
    @reapZombies_keeps (fun next => Serves hub next [])
      (fun _ _ _ _ _ serves removed => serves.before (removeParticipant_serves _ _ _ removed))
      hub nowMs zombieTimeoutMs (.refl hub)
  exact reaped.after (announced _ (_, []))

theorem flushMetrics_serves : Serves hub (flushMetrics hub) [] := by
  refine @flushMetrics_related (fun hub next => Serves hub next []) Serves.refl Serves.after
    (fun hub r => ?_) hub
  unfold flushRoom
  split
  · exact .refl hub
  · refine ⟨rfl, .of_same ?_⟩
    apply Shows.mutateAll
    intro s
    rfl

theorem touch_serves (p : Ptr) (ts : Nat) : Serves hub (hub.touch p ts) [] := by
  have touched : Delivers hub.heap (mutate hub.heap p fun s => s.touch ts) [] := .mutate rfl
  exact ⟨rfl, touched⟩

theorem handleMbcpFrom_serves (remote : SocketAddr) (subtype : UInt8) (touchMs : Nat)
    (o : Oracle) : Serves hub (handleMbcpFrom hub remote subtype touchMs o).1 [] := by
  unfold handleMbcpFrom
  split
  · exact .refl hub
  rename_i sender pc r _
  have touched := touch_serves hub sender touchMs
  simp only
  split
  · exact touched
  split
  · exact touched.after ⟨rfl, handleMbcp_delivers _ _ _ _ _ _ _ _⟩
  · exact touched

theorem runFloorTimer_serves (r : RoomId) (o : Oracle) :
    Serves hub (runFloorTimer hub r o).1 [] := by
  unfold runFloorTimer
  split
  · exact .refl hub
  split
  · exact ⟨rfl, floorTimerTick_delivers _ _ _ _ _ _⟩
  · exact .refl hub

end Background

section Requests
variable (hub : RoomHub) (session : Session) (pid : Nat) (u : UserId)

theorem core_publishAll (s : ParticipantState) (req : PublishTracksRequest) :
    core (publishAll s u req).state = core s :=
  view_publishAll (fun _ _ _ => rfl) (fun _ _ => rfl) s req

theorem handlePublishTracks_delivers (d : Option PublishTracksRequest)
    (draws : Ptr → NonzeroSsrc) :
    Delivers hub.heap (handlePublishTracks hub session pid u d draws).heap [] := by
  unfold handlePublishTracks
  split
  · exact .refl hub.heap
  split
  · exact .refl hub.heap
  · rename_i req _ room p _
    have published : Delivers hub.heap
        (mutate hub.heap p fun _ => (publishAll (hub.heap p) u req).state) [] :=
      .mutate (core_publishAll u (hub.heap p) req)
    exact published.trans (.of_same (simulcastReplace_cores room _ draws _))

theorem subscribeTarget_delivers (room : Room) (subscriber : Ptr) (draws : Ptr → NonzeroSsrc)
    (now : Instant) (h : Heap) (target : SubscribeLayerTarget) :
    Delivers h (subscribeTarget room subscriber draws now h target) [] := by
  unfold subscribeTarget
  split
  · exact .refl h
  · rename_i publisher _
    have drawn : Delivers h (mutate h publisher fun _ =>
        ((h publisher).ensureSimulcastVideoSsrc (draws publisher)).1) [] :=
      .mutate (core_ensure _ _)
    simp only
    split
    · exact (drawn.trans (.mutate rfl)).trans (.mutate (core_requestKeyframe _ _ _))
    · exact drawn.trans (.mutate rfl)

theorem handleSubscribeLayer_delivers (targets : Option (List SubscribeLayerTarget))
    (draws : Ptr → NonzeroSsrc) (now : Instant) :
    Delivers hub.heap (handleSubscribeLayer hub session pid u targets draws now).heap [] := by
  apply @handleSubscribeLayer_invariant fun heap => Delivers hub.heap heap []
  · intro r room subscriber heap target _ _ kept
    exact kept.trans (subscribeTarget_delivers room subscriber draws now heap target)
  · exact .refl hub.heap

theorem onFloor_serves {found : Except Reply (RoomId × Room)} {handler : Room → FloorRun × Reply}
    (quiet : ∀ room, Delivers hub.heap (handler room).1.heap []) :
    Serves hub (onFloor hub session found handler).hub [] := by
  unfold onFloor
  split
  · exact .refl hub
  · exact ⟨rfl, quiet _⟩

/-- What a release by `u` delivers. -/
def releaseSilence (roomId : Option RoomId) : List (List Ptr × Bytes) :=
  match roomId.bind hub.rooms.lookup with
  | some room =>
    if room.mode = .ptt ∧ Released room.floor u then silence room room.audioRewriter else []
  | none => []

theorem floorRelease_serves (roomId : Option RoomId) (o : Oracle) :
    Serves hub (onFloor hub session (pttRoom hub opFloorRelease pid roomId) fun room =>
      handleFloorRelease hub.arcs room hub.heap o.clk u pid o.grantMs).hub
      (releaseSilence hub u roomId) := by
  cases roomId with
  | none => exact .refl hub
  | some r =>
    simp only [pttRoom, floorRoom, releaseSilence, Option.bind_some]
    cases held : hub.rooms.lookup r with
    | none => exact .refl hub
    | some room =>
      simp only
      split
      · rename_i ptt
        have released := handleFloorRelease_delivers hub.arcs room hub.heap o.clk u pid o.grantMs
        simp only [ptt, true_and]
        exact ⟨rfl, released⟩
      · rename_i conference
        rw [if_neg fun both => conference both.1]
        exact .refl hub

/-- A new handle with the core of a new state, and nothing else. -/
structure Builds (hub next : RoomHub) : Prop where
  nextPtr : next.nextPtr = hub.nextPtr + 1
  fresh : core (next.heap hub.nextPtr) = core (.new 0)
  others : ∀ p, p ≠ hub.nextPtr → core (next.heap p) = core (hub.heap p)

theorem builds_of_same {joined next : RoomHub} {r : RoomId} {who : Participant} {now : Nat}
    {p : Ptr} (added : hub.addParticipant r who now = .ok (joined, p))
    (nextPtr : next.nextPtr = joined.nextPtr) (same : SameCores joined.heap next.heap) :
    Builds hub next := by
  obtain ⟨room, _, _, _, _, rfl⟩ := addParticipant_ok.mp added
  refine ⟨nextPtr, (same hub.nextPtr).trans ?_, fun p other => (same p).trans ?_⟩
  · simp [register, core, ParticipantState.new]
  · simp [register, other]

theorem handleRoomJoin_builds (roomId : Option RoomId) (o : Oracle) :
    (handleRoomJoin hub session pid u roomId o).hub = hub ∨
      Builds hub (handleRoomJoin hub session pid u roomId o).hub := by
  unfold handleRoomJoin
  split
  · exact .inl rfl
  split
  · exact .inl rfl
  split
  · exact .inl rfl
  rename_i r _ _ _ _ joined p added
  right
  split
  · exact builds_of_same hub added rfl
      ((purgeSubscribeLayers_cores _ joined.heap u).trans (simulcastReplace_cores _ _ _ _))
  · exact builds_of_same hub added rfl (.refl core joined.heap)

/-- The RTP packets that a request delivers. -/
def requestMedia (req : Request) : List (List Ptr × Bytes) :=
  match req, session.userId with
  | .roomLeave (some r), some u => departureSilence hub r u
  | .floorRelease roomId, some u => releaseSilence hub u roomId
  | _, _ => []

theorem dispatch_serves (req : Request) (o : Oracle) :
    Serves hub (dispatch hub session pid req o).hub (requestMedia hub session req) ∨
      (requestMedia hub session req = [] ∧ Builds hub (dispatch hub session pid req o).hub) := by
  have beat : Serves hub (handleHeartbeat hub session o.nowMs) [] := by
    unfold handleHeartbeat
    split
    · exact touch_serves hub _ _
    · exact .refl hub
  cases user : session.userId with
  | none =>
    left
    cases req <;> simp only [dispatch, user, requestMedia]
    case heartbeat => exact beat
    all_goals exact .refl hub
  | some u =>
    cases req <;> simp only [dispatch, user, requestMedia]
    case heartbeat => exact .inl beat
    case identify d => exact .inl (.refl hub)
    case roomCreate d =>
      left
      unfold handleRoomCreate
      split
      · exact .refl hub
      · exact ⟨rfl, .refl hub.heap⟩
    case roomJoin roomId =>
      rcases handleRoomJoin_builds hub session pid u roomId o with same | builds
      · rw [same]
        exact .inl (.refl hub)
      · exact .inr ⟨trivial, builds⟩
    case roomLeave roomId =>
      left
      cases roomId with
      | none => exact .refl hub
      | some r => exact handleRoomLeave_serves hub r u o session pid
    case publishTracks d =>
      exact .inl ⟨rfl, handlePublishTracks_delivers hub session pid u d _⟩
    case floorRequest d =>
      exact .inl (onFloor_serves hub session fun room =>
        handleFloorRequest_delivers _ room _ _ _ _ _ _)
    case floorRelease roomId => exact .inl (floorRelease_serves hub session pid u roomId o)
    case floorPing roomId => exact .inl (onFloor_serves hub session fun room => .refl hub.heap)
    case subscribeLayer targets =>
      exact .inl ⟨rfl, handleSubscribeLayer_delivers hub session pid u targets _ _⟩

end Requests

/-- The RTP packets of a handler other than the relay and the NACK handler. -/
def eventMedia (s : Server) : Event → List (List Ptr × Bytes)
  | .request conn _ req _ =>
    match s.sessions conn with
    | some session => requestMedia s.hub session req
    | none => []
  | .close conn _ =>
    match s.sessions conn with
    | some session =>
      match session.currentRoom, session.userId with
      | some r, some u => departureSilence s.hub r u
      | _, _ => []
    | none => []
  | _ => []

/-- The events whose handlers touch sessions, caches or queues in a way of their own. -/
def OwnWay : Event → Prop
  | .stun .. | .srtpKeys .. | .rtp .. | .nack .. | .egress .. => True
  | _ => False

theorem step_serves (hmacSha1 : Bytes → Bytes → Bytes) (crc32 : Bytes → UInt32) (s : Server)
    (e : Event) (ordinary : ¬ OwnWay e) :
    Serves s.hub (Servers.step hmacSha1 crc32 s e).hub (eventMedia s e) ∨
      (eventMedia s e = [] ∧ Builds s.hub (Servers.step hmacSha1 crc32 s e).hub) := by
  cases e with
  | request conn pid req o =>
    simp only [Servers.step, Servers.request, eventMedia]
    split
    · rename_i absent
      simp only [absent]
      exact .inl (.refl s.hub)
    · rename_i session here
      simp only [here]
      exact dispatch_serves s.hub session pid req o
  | close conn o =>
    left
    simp only [Servers.step, close, eventMedia]
    split
    · rename_i absent
      simp only [absent]
      exact .refl s.hub
    · rename_i session here
      simp only [here]
      split
      · rename_i r u room user
        exact cleanup_serves s.hub r u o session room user
      · rename_i pointless
        have same : (cleanup s.hub session o).1 = s.hub := by
          unfold cleanup
          split
          · rename_i r u room user
            exact absurd user (pointless r u room)
          · rfl
        simp only [push, same]
        exact .refl s.hub
  | defaultRoom name capacity mode simulcast o => exact .inl ⟨rfl, .refl s.hub.heap⟩
  | connect => exact .inl (.refl s.hub)
  | floorTimer r o => exact .inl (runFloorTimer_serves s.hub r o)
  | reaper nowMs => exact .inl (runZombieReaper_serves s.hub nowMs)
  | metricsFlush => exact .inl (flushMetrics_serves s.hub)
  | mbcp remote subtype touchMs o =>
    exact .inl (handleMbcpFrom_serves s.hub remote subtype touchMs o)
  | stun remote buf nowMs dtlsHas => exact absurd trivial ordinary
  | srtpKeys p pc => exact absurd trivial ordinary
  | rtp remote buf o => exact absurd trivial ordinary
  | nack remote block touchMs nowMs visit => exact absurd trivial ordinary
  | egress p => exact absurd trivial ordinary

end Deliveries
