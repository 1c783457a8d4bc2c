import OxlensSfu.RewriterTurns

/-
The two rewriters of a PTT room between handlers: what their flags say, and that they have no
speaker while the floor is idle.
-/
namespace PoisedRewriters
open WireBytes SfuConfig FloorControl PttRewriter KeyedMap Participants RoomHubs RoomHub Signaling
open FloorHandlers RoomHandlers Ingress Servers FloorQueue Membership SpeakerAgreement RoomSteps
open GuardedRun

/-- A rewriter that waits for the first packet of a burst has put nothing out since the change of
    speakers, and the change has used up the last clear. -/
structure Poised (requireKeyframe : Bool) (gap : UInt32) (r : Rewriter) : Prop where
  kind : r.requireKeyframe = requireKeyframe
  gap : r.tsGuardGap = gap
  pending : r.state.pendingKeyframe = (requireKeyframe && r.state.awaitingFirstPacket)
  waiting : r.state.awaitingFirstPacket = true → r.state.speaker ≠ none ∧ r.state.clearedAt = none ∧
    r.state.virtualBaseSeq = r.state.lastVirtualSeq + 1

section Rewriters
variable {requireKeyframe : Bool} {gap : UInt32} {r : Rewriter}

theorem poised_new (virtualSsrc : UInt32) :
    Poised requireKeyframe gap (.new virtualSsrc gap requireKeyframe) :=
  ⟨rfl, rfl, by simp [Rewriter.new], by simp [Rewriter.new]⟩

theorem poised_switch (poised : Poised requireKeyframe gap r) (u : UserId) (now : Instant) :
    Poised requireKeyframe gap (switchSpeaker r u now) :=
  ⟨poised.kind, poised.gap, by simp [switchSpeaker, poised.kind], by simp [switchSpeaker]⟩

theorem poised_clear (poised : Poised requireKeyframe gap r) (now : Instant) :
    Poised requireKeyframe gap (clearSpeaker r now).1 := by
  unfold clearSpeaker
  split
  · exact ⟨poised.kind, poised.gap, by simp, by simp⟩
  · split <;> exact ⟨poised.kind, poised.gap, by simp, by simp⟩

theorem poised_rewrite (poised : Poised requireKeyframe gap r) (p : Bytes) (sender : UserId)
    (isKey : Bool) (now : Instant) : Poised requireKeyframe gap (rewrite r p sender isKey now).1 := by
  by_cases admitted : Admits r p sender isKey
  · rw [rewrite_admitted admitted]
    have begun : (forward r p now).1.state.awaitingFirstPacket = false := by
      cases waits : r.state.awaitingFirstPacket <;> simp [forward, anchorBurst, waits]
    exact ⟨poised.kind, poised.gap, by rw [begun, Bool.and_false]; rfl, by simp [begun]⟩
  · obtain ⟨result, _, same⟩ := rewrite_rejected admitted now
    rw [same]
    exact poised

end Rewriters

/-- What floor handlers keep because each call on the two rewriters keeps it. -/
structure Steady (P : PttState → Prop) : Prop where
  floor : ∀ {ptt} floor, P ptt → P { ptt with floor := floor }
  switch : ∀ {run : FloorRun} (clk : Nat → Instant) u,
    P run.ptt → P (switchRewriters clk run u).ptt
  clear : ∀ {run : FloorRun} (clk : Nat → Instant), P run.ptt → P (clearRewriters clk run).ptt

section Handlers
variable {P : PttState → Prop} (steady : Steady P) (arcs : Ptr → Participant) (room : Room)
  (heap : Heap) (clk : Nat → Instant)

theorem fold_steady {σ β : Type} (of : σ → PttState) {f : σ → β → σ}
    (each : ∀ s b, P (of s) → P (of (f s b))) (l : List β) {s : σ} (held : P (of s)) :
    P (of (l.foldl f s)) := by
  induction l generalizing s with
  | nil => exact held
  | cons b l ih => exact ih (each s b held)

include steady in
theorem floorOp_steady {ptt : PttState} (held : P ptt) (op : FloorOp) :
    P (begin_ (floorOp ptt op).1 heap).ptt := steady.floor _ held

include steady in
theorem floorRequestAction_steady (u : UserId) (pid : Nat) (state : FloorRun × Reply)
    (action : FloorAction) (held : P state.1.ptt) : P (floorRequestAction arcs room clk u pid state action).1.ptt := by
  obtain ⟨run, response⟩ := state
  cases action with
  | granted speaker priority durationS =>
    simp only [floorRequestAction, grant_ptt]
    exact steady.switch clk speaker held
  | revoked prevSpeaker cause =>
    simp only [floorRequestAction, sendTo_ptt, onParticipant_ptt]
    exact held
  | _ => exact held

include steady in
theorem applyFloorAction_steady (op : UInt16) (pid : Nat) (u : UserId) (state : FloorRun × Reply)
    (action : FloorAction) (held : P state.1.ptt) :
    P (applyFloorAction arcs room clk op pid u state action).1.ptt := by
  obtain ⟨run, response⟩ := state
  cases action with
  | granted speaker priority durationS =>
    simp only [applyFloorAction]
    split
    · rw [sendTo_ptt, grant_ptt]
      exact steady.switch clk speaker held
    · rw [grant_ptt]
      exact steady.switch clk speaker held
  | revoked prevSpeaker cause =>
    simp only [applyFloorAction, send_ptt, sendTo_ptt, onParticipant_ptt]
    exact held
  | _ => exact held

include steady in
theorem applyMbcpFloorAction_steady (sender : Ptr) (run : FloorRun) (action : FloorAction)
    (held : P run.ptt) : P (applyMbcpFloorAction arcs room clk sender run action).ptt := by
  cases action with
  | granted speaker priority durationS =>
    simp only [applyMbcpFloorAction, send_ptt, broadcastMbcp_ptt, burstTo_ptt]
    exact steady.switch clk speaker held
  | revoked prevSpeaker cause =>
    simp only [applyMbcpFloorAction, send_ptt, broadcastMbcp_ptt]
    exact steady.clear clk (by simpa using held)
  | _ => exact held

include steady in
theorem timerAction_steady (run : FloorRun) (action : FloorAction) (held : P run.ptt) :
    P (timerAction arcs room clk run action).ptt := by
  cases action with
  | granted speaker priority durationS =>
    simp only [timerAction, send_ptt, sendTo_ptt, burstTo_ptt]
    exact steady.switch clk speaker held
  | revoked prevSpeaker cause =>
    simp only [timerAction, send_ptt, sendTo_ptt]
    exact steady.clear clk (by simpa using held)
  | _ => exact held

theorem flushReleased_steady (flush : FloorRun → FloorRun)
    (each : ∀ run, P run.ptt → P (flush run).ptt) (actions : List FloorAction)
    {run : FloorRun} (held : P run.ptt) :
    P (flushReleased flush run actions).ptt := by
  refine fold_steady FloorRun.ptt (fun run action held => ?_) actions held
  cases action with
  | released prevSpeaker => exact each run held
  | _ => exact held

include steady in
theorem handleFloorRequest_steady (held : P room.toPttState) (u : UserId) (pid : Nat)
    (priority : Option UInt8) (now : Nat) :
    P (handleFloorRequest arcs room heap clk u pid priority now).1.ptt := by
  simp only [handleFloorRequest]
  exact fold_steady (fun state : FloorRun × Reply => state.1.ptt)
    (floorRequestAction_steady steady arcs room clk u pid) _ (floorOp_steady steady heap held _)

include steady in
theorem handleFloorRelease_steady (held : P room.toPttState) (u : UserId) (pid : Nat) (grantMs : Nat) :
    P (handleFloorRelease arcs room heap clk u pid grantMs).1.ptt := by
  simp only [handleFloorRelease, applyFloorActions]
  refine fold_steady (fun state : FloorRun × Reply => state.1.ptt)
    (applyFloorAction_steady steady arcs room clk opFloorRelease pid u) _ ?_
  refine flushReleased_steady (flushPttSilence room clk) (fun run held => ?_) _
    (floorOp_steady steady heap held _)
  rw [flushPttSilence_ptt]
  exact steady.clear clk held

include steady in
theorem floorLeave_steady (held : P room.toPttState) (u : UserId) (grantMs : Nat) :
    P (floorLeave arcs room heap clk u grantMs).ptt := by
  simp only [floorLeave]
  split
  · exact floorOp_steady steady heap held _
  · rw [flushPttSilence_ptt]
    exact steady.clear clk (fold_steady (fun state : FloorRun × Reply => state.1.ptt)
      (applyFloorAction_steady steady arcs room clk opFloorRelease 0 u) _ (floorOp_steady steady heap held _))

include steady in
theorem handleMbcp_steady (held : P room.toPttState) (sender : Ptr) (subtype : UInt8) (now grantMs : Nat) :
    P (handleMbcp arcs room heap clk sender subtype now grantMs).ptt := by
  have applied := fun (actions : List FloorAction) (run : FloorRun) (held : P run.ptt) =>
    fold_steady FloorRun.ptt (applyMbcpFloorAction_steady steady arcs room clk sender) actions held
  simp only [handleMbcp]
  split
  · exact applied _ _ (floorOp_steady steady heap held _)
  split
  · exact applied _ _ (flushReleased_steady (clearRewriters clk) (fun run => steady.clear clk) _
      (floorOp_steady steady heap held _))
  split
  · exact floorOp_steady steady heap held _
  · exact held

include steady in
theorem floorTimerTick_steady (held : P room.toPttState) (now grantMs : Nat) :
    P (floorTimerTick arcs room heap clk now grantMs).ptt := by
  simp only [floorTimerTick]
  exact fold_steady FloorRun.ptt (timerAction_steady steady arcs room clk) _
    (floorOp_steady steady heap held _)

end Handlers

def BothPoised (ptt : PttState) : Prop :=
  Poised false tsGuardGapAudio ptt.audioRewriter ∧ Poised true tsGuardGapVideo ptt.videoRewriter

theorem bothPoised_steady : Steady BothPoised where
  floor _ held := held
  switch _ u held := ⟨poised_switch held.1 u _, poised_switch held.2 u _⟩
  clear _ held := ⟨poised_clear held.1 _, poised_clear held.2 _⟩

theorem prepareFanoutPayload_poised {ptt : PttState} (poised : BothPoised ptt) (mode : RoomMode)
    (sender : UserId) (hdr : RtpPacket.RtpHeader) (p : Bytes) (now : Instant) :
    BothPoised (prepareFanoutPayload mode ptt sender hdr p now).1 := by
  have rewritten : BothPoised (rewriteByPt ptt sender hdr p now).1 := by
    unfold rewriteByPt
    split
    · exact ⟨poised_rewrite poised.1 p sender false now, poised.2⟩
    · split
      · exact ⟨poised.1, poised_rewrite poised.2 p sender _ now⟩
      · exact poised
  unfold prepareFanoutPayload
  split
  · split
    · exact poised
    · split
      all_goals
        rename_i result
        rw [result] at rewritten
        exact rewritten
  · exact poised

/-- An idle floor has no speaker behind it. -/
def Hushed (v : FloorView) : Prop := v.holder = none → v.audio = none ∧ v.video = none

theorem hushed_of_follows {before after : FloorView} (hushed : Hushed before)
    (follows : Follows before after) : Hushed after := by
  rcases follows with same | agrees
  · rwa [same]
  · intro idle
    exact ⟨agrees.1.trans idle, agrees.2.trans idle⟩

theorem floorLeave_hushed {arcs : Ptr → Participant} {room : Room} {heap : Heap} {clk : Nat → Instant}
    (hushed : Hushed (viewOf room.mode room.toPttState)) (u : UserId) (grantMs : Nat) :
    Hushed (viewOf room.mode (floorLeave arcs room heap clk u grantMs).ptt) := by
  rw [floorLeave_view]
  split
  · exact fun _ => ⟨rfl, rfl⟩
  · exact hushed

section Run
variable {s : Server} {e : Event} {r : RoomId} {before : Room} {ptt : PttState}

theorem work_poised (work : FloorWork s e r before ptt) (poised : BothPoised before.toPttState) :
    BothPoised ptt := by
  cases work with
  | request => exact handleFloorRequest_steady bothPoised_steady _ _ _ _ poised _ _ _ _
  | release => exact handleFloorRelease_steady bothPoised_steady _ _ _ _ poised _ _ _
  | ping => exact poised
  | leave heap => exact floorLeave_steady bothPoised_steady _ _ _ _ poised _ _
  | close heap => exact floorLeave_steady bothPoised_steady _ _ _ _ poised _ _
  | timer => exact floorTimerTick_steady bothPoised_steady _ _ _ _ poised _ _
  | mbcp heap => exact handleMbcp_steady bothPoised_steady _ _ _ _ poised _ _ _ _
  | relay => exact prepareFanoutPayload_poised poised _ _ _ _ _

theorem work_hushed (work : FloorWork s e r before ptt)
    (hushed : Hushed (viewOf before.mode before.toPttState)) : Hushed (viewOf before.mode ptt) := by
  cases work with
  | request => exact hushed_of_follows hushed (handleFloorRequest_follows ..)
  | release => exact hushed_of_follows hushed (handleFloorRelease_follows ..)
  | ping => exact hushed_of_follows hushed (handleFloorPing_follows ..)
  | leave heap => exact floorLeave_hushed hushed _ _
  | close heap => exact floorLeave_hushed hushed _ _
  | timer => exact hushed_of_follows hushed (floorTimerTick_follows ..)
  | mbcp heap => exact hushed_of_follows hushed (handleMbcp_follows ..)
  | relay => exact hushed_of_follows hushed (.inl (prepareFanoutPayload_view ..))

def EveryPoised (hub : RoomHub) : Prop := ∀ r room, hub.rooms.lookup r = some room →
  BothPoised room.toPttState ∧ Hushed (viewOf room.mode room.toPttState)

theorem step_poised (hmacSha1 : Bytes → Bytes → Bytes) (crc32 : Bytes → UInt32) (s : Server) (e : Event)
    (poised : EveryPoised s.hub) : EveryPoised (Servers.step hmacSha1 crc32 s e).hub := by
  intro r after found
  rcases step_changes hmacSha1 crc32 s e with changes | creates
  · obtain ⟨before, held, mode, _, same | work, _⟩ := changes r after found
    · rw [same, mode]
      exact poised r before held
    · rw [mode]
      exact ⟨work_poised work (poised r before held).1, work_hushed work (poised r before held).2⟩
  · obtain ⟨id, name, capacity, mode, createdAt, simulcast, a, v, shape⟩ := creates
    rw [shape] at found
    rcases create_found found with rfl | ⟨_, held⟩
    · exact ⟨⟨poised_new a, poised_new v⟩, fun _ => ⟨rfl, rfl⟩⟩
    · exact poised r after held

theorem run_poised (hmacSha1 : Bytes → Bytes → Bytes) (crc32 : Bytes → UInt32) (es : List Event) :
    EveryPoised (run (Servers.step hmacSha1 crc32) Server.new es).hub :=
  @run_invariant _ _ (Servers.step hmacSha1 crc32) (fun s => EveryPoised s.hub)
    (step_poised hmacSha1 crc32) Server.new 
    (fun _ _ found => by simp [Server.new, RoomHub.new] at found) es

end Run

end PoisedRewriters
