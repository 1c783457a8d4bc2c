import OxlensSfu.RoomSteps
import OxlensSfu.Deliveries

/-
How far the handlers turn the number wheel of the audio rewriter. A switch takes no number, a
clear takes those of its silence frames, and no floor handler clears twice.
-/
namespace RewriterTurns
open WireBytes SfuConfig FloorControl PttRewriter KeyedMap Participants RoomHubs RoomHub
open Signaling FloorHandlers RoomHandlers TrackHandlers Ingress Servers
open FloorQueue Membership SpeakerAgreement MemberFrames Deliveries RoomSteps
open GuardedRun

/-- A speaker whose burst has not begun starts behind the last number. -/
def Primed (r : Rewriter) : Prop :=
  r.state.speaker ≠ none → r.state.awaitingFirstPacket = true →
    r.state.virtualBaseSeq = r.state.lastVirtualSeq + 1

/-- `a` is `b` with `taken` more numbers used up. -/
structure Turned (b a : Rewriter) (taken : Nat) : Prop where
  ssrc : a.virtualSsrc = b.virtualSsrc
  last : a.state.lastVirtualSeq = b.state.lastVirtualSeq + UInt16.ofNat taken
  primed : Primed b → Primed a

namespace Turned
variable {a b c : Rewriter} {m n : Nat}

theorem refl (r : Rewriter) : Turned r r 0 where
  ssrc := rfl
  last := (UInt16.add_zero _).symm
  primed := id

theorem trans (first : Turned a b m) (second : Turned b c n) : Turned a c (m + n) where
  ssrc := second.ssrc.trans first.ssrc
  last := by rw [second.last, first.last, UInt16.ofNat_add, UInt16.add_assoc]
  primed := fun primed => second.primed (first.primed primed)

theorem switch (r : Rewriter) (u : UserId) (now : Instant) : Turned r (switchSpeaker r u now) 0 where
  ssrc := rfl
  last := (UInt16.add_zero _).symm
  primed _ _ _ := rfl

theorem clear (r : Rewriter) (now : Instant) :
    Turned r (clearSpeaker r now).1 (silenceOf r).length := by
  have silent : (clearSpeaker r now).1.state.speaker = none := clearSpeaker_speaker r now
  refine ⟨?_, ?_, fun _ speaks => absurd silent speaks⟩
  · unfold clearSpeaker
    split
    · rfl
    · split <;> rfl
  · unfold clearSpeaker silenceOf
    by_cases video : r.requireKeyframe = true
    · rw [if_pos video, if_pos (.inl video)]
      exact (UInt16.add_zero _).symm
    · rw [if_neg video]
      by_cases unused : r.state.lastVirtualSeq = 0 ∧ r.state.lastVirtualTs = 0
      · rw [if_pos unused, if_pos (.inr unused)]
        exact (UInt16.add_zero _).symm
      · rw [if_neg unused, if_neg (not_or.mpr ⟨video, unused⟩), List.length_map, List.length_range]

end Turned

section Handlers
variable (arcs : Ptr → Participant) (room : Room) (heap : Heap) (clk : Nat → Instant)

theorem fold_turned {σ β : Type} (audio : σ → Rewriter) {f : σ → β → σ}
    (each : ∀ s b, Turned (audio s) (audio (f s b)) 0) (l : List β) (s : σ) :
    Turned (audio s) (audio (l.foldl f s)) 0 := by
  induction l generalizing s with
  | nil => exact .refl (audio s)
  | cons b l ih => exact (each s b).trans (ih (f s b))

theorem applyFloorActions_turned (op : UInt16) (pid : Nat) (u : UserId) (run : FloorRun)
    (acts : List FloorAction) : Turned run.ptt.audioRewriter
      (applyFloorActions arcs room clk op pid u run acts).1.ptt.audioRewriter 0 := by
  refine fold_turned (fun state : FloorRun × Reply => state.1.ptt.audioRewriter)
    (fun state act => ?_) acts (run, _)
  obtain ⟨run, response⟩ := state
  cases act with
  | granted speaker priority durationS =>
    simp only [applyFloorAction]
    split
    · rw [sendTo_ptt, grant_ptt]
      exact .switch run.ptt.audioRewriter speaker _
    · rw [grant_ptt]
      exact .switch run.ptt.audioRewriter speaker _
  | _ =>
    simp only [applyFloorAction, send_ptt, sendTo_ptt, onParticipant_ptt]
    exact .refl run.ptt.audioRewriter

/-- A WS request switches the speaker and clears nothing, even when it preempts. -/
theorem handleFloorRequest_turned (u : UserId) (pid : Nat) (priority : Option UInt8) (now : Nat) :
    Turned room.audioRewriter
      (handleFloorRequest arcs room heap clk u pid priority now).1.ptt.audioRewriter 0 := by
  have each : ∀ (state : FloorRun × Reply) act, Turned state.1.ptt.audioRewriter
      (floorRequestAction arcs room clk u pid state act).1.ptt.audioRewriter 0 := by
    intro state act
    obtain ⟨run, response⟩ := state
    cases act with
    | granted speaker priority durationS =>
      simp only [floorRequestAction, grant_ptt]
      exact .switch run.ptt.audioRewriter speaker _
    | _ =>
      simp only [floorRequestAction, sendTo_ptt, onParticipant_ptt]
      exact .refl run.ptt.audioRewriter
  exact fold_turned (fun state : FloorRun × Reply => state.1.ptt.audioRewriter) each
    (floorOp room.toPttState (.request u (priority.getD floorDefaultPriority) now)).2
    (begin_ (floorOp room.toPttState (.request u (priority.getD floorDefaultPriority) now)).1 heap, _)

theorem handleFloorRelease_turned (u : UserId) (pid : Nat) (grantMs : Nat) :
    Turned room.audioRewriter
      (handleFloorRelease arcs room heap clk u pid grantMs).1.ptt.audioRewriter
      (if Released room.floor u then (silenceOf room.audioRewriter).length else 0) := by
  obtain ⟨floor, acts, run⟩ := handleFloorRelease_run arcs room heap clk u pid grantMs
  rw [run]
  split
  · have flushed : Turned room.audioRewriter (flushPttSilence room clk
        (begin_ { room.toPttState with floor := floor } heap)).ptt.audioRewriter
        (silenceOf room.audioRewriter).length := .clear room.audioRewriter _
    exact flushed.trans (applyFloorActions_turned arcs room clk opFloorRelease pid u _ acts)
  · exact .refl room.audioRewriter

/-- A departing holder: the rewriters are cleared after the next speaker is switched in. -/
theorem floorLeave_turned (u : UserId) (grantMs : Nat) :
    Turned room.audioRewriter (floorLeave arcs room heap clk u grantMs).ptt.audioRewriter
      (if currentSpeaker room.floor = some u then (silenceOf room.audioRewriter).length
        else 0) := by
  obtain ⟨floor, acts, run⟩ := floorLeave_run arcs room heap clk u grantMs
  rw [run]
  split
  · have turned := applyFloorActions_turned arcs room clk opFloorRelease 0 u
      (begin_ { room.toPttState with floor := floor } heap) acts
    let told := (applyFloorActions arcs room clk opFloorRelease 0 u
      (begin_ { room.toPttState with floor := floor } heap) acts).1
    have flushed := turned.trans (Turned.clear told.ptt.audioRewriter (clk told.reads))
    rw [applyFloorActions_silence, Nat.zero_add] at flushed
    exact flushed
  · exact .refl room.audioRewriter

/-- MBCP actions other than Revoked clear nothing. -/
theorem applyMbcpFloorAction_turned (sender : Ptr) (run : FloorRun) {act : FloorAction}
    (mild : ∀ prev cause, act ≠ .revoked prev cause) : Turned run.ptt.audioRewriter
      (applyMbcpFloorAction arcs room clk sender run act).ptt.audioRewriter 0 := by
  cases act with
  | granted speaker priority durationS =>
    simp only [applyMbcpFloorAction, send_ptt, broadcastMbcp_ptt, burstTo_ptt]
    exact .switch run.ptt.audioRewriter speaker _
  | revoked prev cause => exact absurd rfl (mild prev cause)
  | _ => exact .refl run.ptt.audioRewriter

theorem applyMbcp_turned (sender : Ptr) {acts : List FloorAction}
    (mild : ∀ act ∈ acts, ∀ prev cause, act ≠ .revoked prev cause) (run : FloorRun) :
    Turned run.ptt.audioRewriter
      (acts.foldl (applyMbcpFloorAction arcs room clk sender) run).ptt.audioRewriter 0 := by
  induction acts generalizing run with
  | nil => exact .refl run.ptt.audioRewriter
  | cons act acts ih =>
    rw [List.forall_mem_cons] at mild
    exact (applyMbcpFloorAction_turned arcs room clk sender run mild.1).trans (ih mild.2 _)

/-- The default priority preempts nobody, so an MBCP request revokes nothing. -/
theorem request_mild (c : FloorController) (u : UserId) (now : Nat) :
    ∀ act ∈ (FloorControl.request c u floorDefaultPriority now).2, ∀ prev cause,
      act ≠ .revoked prev cause := by
  have move := request_transition c u floorDefaultPriority now
  generalize (FloorControl.request c u floorDefaultPriority now).1 = next at move
  generalize (FloorControl.request c u floorDefaultPriority now).2 = acts at move
  cases move with
  | preempt held other enabled higher => exact absurd higher (by simp [floorDefaultPriority])
  | _ => simp [queuedReply]

/-- MBCP takes the numbers of the silence frames when the release is one of the speaker. -/
theorem handleMbcp_turned (sender : Ptr) (subtype : UInt8) (now grantMs : Nat) :
    Turned room.audioRewriter
      (handleMbcp arcs room heap clk sender subtype now grantMs).ptt.audioRewriter
      (if subtype = mbcpSubtypeFrel ∧ Released room.floor (arcs sender).userId then
        (silenceOf room.audioRewriter).length else 0) := by
  have cleared : ∀ floor, Turned room.audioRewriter (clearRewriters clk
      (begin_ { room.toPttState with floor := floor } heap)).ptt.audioRewriter
      (silenceOf room.audioRewriter).length := fun _ => .clear room.audioRewriter _
  by_cases freq : subtype = mbcpSubtypeFreq
  · rw [if_neg fun both => absurd (freq.symm.trans both.1) (by decide)]
    simp only [handleMbcp, if_pos freq]
    have asked := applyMbcp_turned arcs room clk sender
      (request_mild room.floor (arcs sender).userId now) (begin_ (floorOp room.toPttState
        (.request (arcs sender).userId floorDefaultPriority now)).1 heap)
    exact asked
  by_cases frel : subtype = mbcpSubtypeFrel
  · obtain ⟨next, acts, result, can⟩ := floorOp_transition room.toPttState
      (.release (arcs sender).userId grantMs)
    simp only [handleMbcp, if_neg freq, if_pos frel, result]
    cases can with
    | releaseHeld held =>
      rw [if_pos ⟨frel, .inr (currentSpeaker_of_taken held)⟩]
      rcases endBurst_cases room.floor (arcs sender).userId (.released (arcs sender).userId)
        grantMs with ⟨_, ended⟩ | ⟨head, rest, _, ended⟩
      · rw [ended]
        exact (cleared _).trans (applyMbcp_turned arcs room clk sender (by simp) _)
      · rw [ended]
        exact (cleared _).trans (applyMbcp_turned arcs room clk sender (by simp) _)
    | releaseIdle idle =>
      rw [if_pos ⟨frel, .inl idle⟩]
      exact (cleared _).trans (applyMbcp_turned arcs room clk sender (by simp) _)
    | releaseOther held other =>
      have quiet : ¬ Released room.floor (arcs sender).userId := by
        simp [Released, currentSpeaker, held, other]
      rw [if_neg fun both => quiet both.2]
      exact .refl room.audioRewriter
  · rw [if_neg fun both => frel both.1]
    simp only [handleMbcp, if_neg freq, if_neg frel]
    split <;> exact .refl room.audioRewriter

/-- The speaker has talked too long, or is not heard of any more. -/
def Expired (c : FloorController) (now : Nat) : Prop :=
  match c.state with
  | .taken _ _ start last => c.config.maxBurstMs < now - start ∨ c.config.pingTimeoutMs < now - last
  | .idle => False

instance (c : FloorController) (now : Nat) : Decidable (Expired c now) := by
  unfold Expired
  split <;> infer_instance

theorem checkTimers_cases (c : FloorController) (now grantMs : Nat) :
    (¬ Expired c now ∧ checkTimers c now grantMs = (c, [])) ∨
      (Expired c now ∧ ∃ s cause, checkTimers c now grantMs =
        endBurst c s (.revoked s cause) grantMs) := by
  unfold checkTimers Expired
  cases c.state with
  | idle => exact .inl ⟨fun never => never, rfl⟩
  | taken s sp start last =>
    simp only
    split
    · rename_i long
      exact .inr ⟨.inl long, s, _, rfl⟩
    · rename_i short
      split
      · rename_i silent
        exact .inr ⟨.inr silent, s, _, rfl⟩
      · rename_i heard
        exact .inl ⟨fun expired => expired.elim short heard, rfl⟩

theorem floorTimerTick_turned (now grantMs : Nat) : Turned room.audioRewriter
    (floorTimerTick arcs room heap clk now grantMs).ptt.audioRewriter
    (if Expired room.floor now then (silenceOf room.audioRewriter).length else 0) := by
  have revoked : ∀ floor s cause, Turned room.audioRewriter (timerAction arcs room clk
      (begin_ { room.toPttState with floor := floor } heap) (.revoked s cause)).ptt.audioRewriter
      (silenceOf room.audioRewriter).length := by
    intro floor s cause
    simp only [timerAction, send_ptt, sendTo_ptt, clearRewriters, onParticipant_ptt]
    exact .clear room.audioRewriter _
  rcases checkTimers_cases room.floor now grantMs with ⟨calm, quiet⟩ | ⟨expired, s, cause, ended⟩
  · simp only [floorTimerTick, floorOp, applyOp, quiet, List.foldl_nil, if_neg calm]
    exact .refl room.audioRewriter
  · simp only [floorTimerTick, floorOp, applyOp, ended, if_pos expired]
    rcases endBurst_cases room.floor s (.revoked s cause) grantMs with
      ⟨_, ended⟩ | ⟨head, rest, _, ended⟩
    · rw [ended]
      exact revoked _ s cause
    · rw [ended]
      have granted : ∀ run : FloorRun, ∀ speaker priority durationS, Turned run.ptt.audioRewriter
          (timerAction arcs room clk run (.granted speaker priority durationS)).ptt.audioRewriter
          0 := by
        intro run speaker priority durationS
        simp only [timerAction, send_ptt, sendTo_ptt, burstTo_ptt]
        exact .switch run.ptt.audioRewriter speaker _
      exact (revoked _ s cause).trans (granted _ _ _ _)

end Handlers

theorem rewrite_primed {r : Rewriter} (primed : Primed r) (p : Bytes) (sender : UserId)
    (isKey : Bool) (now : Instant) : Primed (rewrite r p sender isKey now).1 := by
  by_cases admitted : Admits r p sender isKey
  · rw [rewrite_admitted admitted]
    intro _ waits
    simp only [forward, anchorBurst] at waits
    split at waits
    · simp at waits
    · rename_i begun
      exact absurd waits begun
  · obtain ⟨result, _, same⟩ := rewrite_rejected admitted now
    rw [same]
    exact primed

theorem prepareFanoutPayload_primed {ptt : PttState} (primed : Primed ptt.audioRewriter)
    (mode : RoomMode) (sender : UserId) (hdr : RtpPacket.RtpHeader) (p : Bytes) (now : Instant) :
    Primed (prepareFanoutPayload mode ptt sender hdr p now).1.audioRewriter := by
  have rewritten : Primed (rewriteByPt ptt sender hdr p now).1.audioRewriter := by
    unfold rewriteByPt
    split
    · exact rewrite_primed primed p sender false now
    · split <;> exact primed
  unfold prepareFanoutPayload
  split
  · split
    · exact primed
    · split
      all_goals
        rename_i result
        rw [result] at rewritten
        exact rewritten
  · exact primed

/-- Every audio rewriter is primed, and no PTT room does simulcast. -/
structure Furnished (hub : RoomHub) : Prop where
  primed : ∀ {r room}, hub.rooms.lookup r = some room → Primed room.audioRewriter
  plain : ∀ {r room}, hub.rooms.lookup r = some room → room.mode = .ptt →
    room.simulcastEnabled = false

theorem new_furnished : Furnished RoomHub.new where
  primed found := by simp [RoomHub.new] at found
  plain found := by simp [RoomHub.new] at found

theorem work_primed {s : Server} {e : Event} {r : RoomId} {before : Room} {ptt : PttState}
    (work : FloorWork s e r before ptt) (primed : Primed before.audioRewriter) :
    Primed ptt.audioRewriter := by
  cases work with
  | request => exact (handleFloorRequest_turned _ _ _ _ _ _ _ _).primed primed
  | release => exact (handleFloorRelease_turned _ _ _ _ _ _ _).primed primed
  | ping => exact primed
  | leave => exact (floorLeave_turned _ _ _ _ _ _).primed primed
  | close => exact (floorLeave_turned _ _ _ _ _ _).primed primed
  | timer => exact (floorTimerTick_turned _ _ _ _ _ _).primed primed
  | mbcp => exact (handleMbcp_turned _ _ _ _ _ _ _ _).primed primed
  | relay => exact prepareFanoutPayload_primed primed _ _ _ _ _

theorem step_furnished (hmacSha1 : Bytes → Bytes → Bytes) (crc32 : Bytes → UInt32) (s : Server)
    (e : Event) (furnished : Furnished s.hub) :
    Furnished (Servers.step hmacSha1 crc32 s e).hub := by
  rcases step_changes hmacSha1 crc32 s e with changes | creates
  · constructor
    · intro r after found
      obtain ⟨before, held, _, _, same | work, _⟩ := changes r after found
      · rw [same]
        exact furnished.primed held
      · exact work_primed work (furnished.primed held)
    · intro r after found ptt
      obtain ⟨before, held, mode, simulcast, _, _⟩ := changes r after found
      rw [mode] at ptt
      rw [simulcast]
      exact furnished.plain held ptt
  · obtain ⟨id, name, capacity, mode, createdAt, simulcast, a, v, shape⟩ := creates
    rw [shape]
    constructor
    · intro r after found
      rcases create_found found with rfl | ⟨_, held⟩
      · intro speaks
        exact absurd rfl speaks
      · exact furnished.primed held
    · intro r after found ptt
      rcases create_found found with rfl | ⟨_, held⟩
      · exact if_pos ptt
      · exact furnished.plain held ptt

theorem run_furnished (hmacSha1 : Bytes → Bytes → Bytes) (crc32 : Bytes → UInt32)
    (es : List Event) : Furnished (run (Servers.step hmacSha1 crc32) Server.new es).hub :=
  @run_invariant _ _ (Servers.step hmacSha1 crc32) (fun s => Furnished s.hub)
    (step_furnished hmacSha1 crc32) Server.new new_furnished es

end RewriterTurns
