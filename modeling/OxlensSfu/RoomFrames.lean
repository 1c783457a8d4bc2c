import OxlensSfu.ParticipantMoves

/-
The participants that the handlers of the media path write: the one behind the datagram, and
participants of its room. All others are left as they are.
-/
namespace RoomFrames
open WireBytes SfuConfig KeyedMap Participants RoomHubs RoomHub Signaling FloorHandlers Ingress Servers
open RtpPacket RoomHandlers SenderReports Membership MediaFrames TrackHandlers ParticipantMoves
open FloorControl (UserId FloorAction)
open PttRewriter (Instant)

/-- Nobody but these is written, and these make moves of their own. -/
def Within (own : Ptr → Prop) (h h' : Heap) : Prop :=
  ∀ q, Evolves (h q) (h' q) ∧ (¬ own q → h' q = h q)

section Rules
variable {own : Ptr → Prop} {h h' h'' start : Heap}

theorem Within.refl (own : Ptr → Prop) (h : Heap) : Within own h h := fun _ => ⟨.refl, fun _ => rfl⟩

theorem Within.trans (first : Within own h h') (second : Within own h' h'') : Within own h h'' :=
  fun q => ⟨(first q).1.trans (second q).1,
    fun outside => ((second q).2 outside).trans ((first q).2 outside)⟩

theorem Within.mutate {p : Ptr} (inside : own p) {f : ParticipantState → ParticipantState}
    (moves : Evolves (h p) (f (h p))) : Within own h (mutate h p f) := by
  intro q
  by_cases here : q = p
  · subst here
    rw [mutate_self]
    exact ⟨moves, fun outside => absurd inside outside⟩
  · rw [mutate_ne f here]
    exact ⟨.refl, fun _ => rfl⟩

theorem Within.move {p : Ptr} (inside : own p) {f : ParticipantState → ParticipantState}
    (move : Move (h p) (f (h p))) : Within own h (Participants.mutate h p f) :=
  .mutate inside (.single move)

/-- A loop whose turns may use what the turns before them did. -/
theorem Within.fold_from {σ β : Type} (heapOf : σ → Heap) {f : σ → β → σ} {l : List β}
    (each : ∀ s, ∀ b ∈ l, Within own start (heapOf s) → Within own (heapOf s) (heapOf (f s b)))
    (s : σ) (before : Within own start (heapOf s)) :
    Within own (heapOf s) (heapOf (l.foldl f s)) := by
  induction l generalizing s with
  | nil => exact .refl own (heapOf s)
  | cons b l ih =>
    have one := each s b List.mem_cons_self before
    exact one.trans (ih (fun s b member => each s b (List.mem_cons_of_mem _ member)) (f s b)
      (before.trans one))

theorem Within.fold {σ β : Type} (heapOf : σ → Heap) {f : σ → β → σ} {l : List β}
    (each : ∀ s, ∀ b ∈ l, Within own (heapOf s) (heapOf (f s b))) (s : σ) :
    Within own (heapOf s) (heapOf (l.foldl f s)) :=
  .fold_from heapOf (fun s b member _ => each s b member) s (.refl own (heapOf s))

theorem Within.ready {q : Ptr} (within : Within own h h') (ready : (h q).isSubscribeReady = true) :
    (h' q).isSubscribeReady = true := (within q).1.ready ready

theorem sendToReady_within {targets : List Ptr} (inside : ∀ t ∈ targets, own t)
    (pkt : EgressPacket) : Within own h (sendToReady h targets pkt) := by
  apply Within.fold id
  intro h t member
  refine .mutate (inside t member) ?_
  split
  · rename_i ready
    exact .single (.queued pkt ready)
  · exact .refl

end Rules

/-- The participants that a handler may write: those of the room. -/
def Seats (room : Room) (p : Ptr) : Prop := ∃ u, room.participants.lookup u = some p

theorem seats_other {room : Room} {u : UserId} {p : Ptr} (member : p ∈ room.otherParticipants u) :
    Seats room p := by
  obtain ⟨v, _, entry⟩ := mem_otherParticipants.mp member
  exact ⟨v, entry⟩

theorem seats_subscribers {room : Room} {p : Ptr} (member : p ∈ subscribers room) :
    Seats room p := mem_values.mp member

section Media
variable {room : Room} {sender : Ptr} (here : Seats room sender)

include here

theorem fanoutTarget_within (senderId : UserId) (vssrc : UInt32) (senderRid : String) (isKey : Bool)
    (p : Bytes) (clk : Nat → Instant) (state : LayerFanout) {target : Ptr}
    (inside : Seats room target) :
    Within (Seats room) state.heap
      (fanoutTarget senderId sender vssrc senderRid isKey p clk state target).heap := by
  unfold fanoutTarget
  split
  · exact .refl _ state.heap
  rename_i ready
  generalize passLayer ((state.heap target).subscribeLayers.lookup senderId) vssrc senderRid isKey p
    (clk state.reads) (clk (state.reads + 1)) = passed
  obtain ⟨entry, out, needPli⟩ := passed
  simp only
  have kept : Within (Seats room) state.heap (mutate state.heap target fun s =>
      { s with subscribeLayers := s.subscribeLayers.insert senderId entry }) :=
    .move inside (.selected _)
  have asked : Within (Seats room) state.heap
      (if (needPli && !state.pliSent) = true then
        mutate (mutate state.heap target fun s =>
          { s with subscribeLayers := s.subscribeLayers.insert senderId entry }) sender
          fun s => s.requestKeyframe (s.layerSsrc "h") simulcastBurst
      else mutate state.heap target fun s =>
        { s with subscribeLayers := s.subscribeLayers.insert senderId entry }) := by
    split
    · exact kept.trans (.move here (.asked _ simulcastBurst (by decide)))
    · exact kept
  cases out with
  | none => exact asked
  | some buf => exact asked.trans (.move inside (.queued _ (asked.ready (by simpa using ready))))

theorem fanout_within (hub : RoomHub) (roomId : RoomId) (senderId : UserId) (hdr : RtpHeader)
    (source out : Bytes) (o : Oracle) :
    Within (Seats room) hub.heap (fanout hub roomId room senderId sender hdr source out o).1.heap := by
  unfold fanout
  split
  · simp only [fanoutSimulcastVideo]
    split
    · exact .refl _ hub.heap
    · rename_i rid _
      have drawn : Within (Seats room) hub.heap (mutate hub.heap sender fun _ =>
          ((hub.heap sender).ensureSimulcastVideoSsrc (o.vssrc sender)).1) := .move here (.drawn _)
      refine drawn.trans ?_
      refine @Within.fold (Seats room) _ _ LayerFanout.heap _ (room.otherParticipants senderId)
        (fun state target member => ?_) ⟨_, 0, false, []⟩
      exact fanoutTarget_within here senderId _ rid _ out _ state (seats_other member)
  · exact sendToReady_within (fun t member => seats_other (List.mem_filter.mp member).1) _

theorem relayRtp_within (hub : RoomHub) (r : RoomId) (buf : Bytes) (o : Oracle) :
    Within (Seats room) hub.heap (relayRtp hub r room sender buf o).hub.heap := by
  simp only [relayRtp]
  generalize normalizePt (hub.heap sender).tracks buf = normalized
  have stored : Within (Seats room) hub.heap (mutate hub.heap sender fun s =>
      detectGap (collectRtpStats s normalized.2 normalized.1) normalized.2) :=
    .move here (.received _ _)
  split
  · exact stored
  · exact stored.trans (fanout_within here (withPtt hub r _ _) r _ _ _ _ o)

end Media

section Nacks
variable (arcs : Ptr → Participant) {room : Room} (visit : List UserId) {subscriber : Ptr}
  (here : Seats room subscriber)

include here

theorem enqueueReply_within (state : Heap × List RtxReply) (reply : RtxReply)
    (ready : (state.1 subscriber).isSubscribeReady = true) :
    Within (Seats room) state.1 (enqueueReply subscriber state reply).1 := by
  unfold enqueueReply
  simp only
  split
  · rename_i spent
    dsimp only
    exact .move here (.withheld spent)
  · rename_i left
    dsimp only
    exact .move here (.resent _ ready (Nat.not_le.mp left))

theorem retransmit_within (h : Heap) (nack : NackItem) (lookupSsrc rtxSsrc : UInt32)
    (reverse : UInt16 → UInt16) {publisher : Ptr} (inside : Seats room publisher) (nowMs : Nat)
    (ready : (h subscriber).isSubscribeReady = true) :
    Within (Seats room) h
      (retransmit subscriber h nack lookupSsrc rtxSsrc reverse publisher nowMs).1 := by
  have built : ∀ lost, Within (Seats room) h
      (List.foldl (buildReply nack.mediaSsrc rtxSsrc reverse publisher) (h, []) lost).1 := by
    intro lost
    refine @Within.fold (Seats room) _ _ (fun state : Heap × List RtxReply => state.1) _ lost
      (fun state lost _ => ?_) (h, [])
    unfold buildReply
    simp only
    split
    · exact .refl _ state.1
    · dsimp only
      exact .move inside .numbered
  have escalated : ∀ (h : Heap) asked found, Within (Seats room) h
      (escalate subscriber h publisher lookupSsrc asked found nowMs) := by
    intro h asked found
    unfold escalate
    split
    · exact Within.trans (.move here (.silenced _)) (.move inside (.asked _ [0] (by decide)))
    · exact .refl _ h
  simp only [retransmit]
  have found := built (expandNack nack.pid nack.blp)
  generalize (expandNack nack.pid nack.blp).foldl
    (buildReply nack.mediaSsrc rtxSsrc reverse publisher) (h, []) = state at found ⊢
  have asked := escalated state.1 (expandNack nack.pid nack.blp).length state.2.length
  have before := found.trans asked
  refine before.trans ?_
  refine @Within.fold_from (Seats room) h _ _ (fun state : Heap × List RtxReply => state.1) _ _
    (fun state reply _ before => enqueueReply_within here state reply (before.ready ready)) (_, [])
    before

theorem handleNackBlock_within (h : Heap) (block : Bytes) (nowMs : Nat)
    (ready : (h subscriber).isSubscribeReady = true) :
    Within (Seats room) h (handleNackBlock arcs room visit subscriber h block nowMs).1 := by
  unfold handleNackBlock
  simp only
  split
  · exact .refl _ h
  refine @Within.fold_from (Seats room) h _ _ (fun state : Heap × List RtxReply => state.1) _ _
    (fun state nack _ before => ?_) (h, []) (.refl _ h)
  unfold handleNackItem
  simp only
  split
  · exact .refl _ state.1
  rename_i publisher found
  split
  · exact .refl _ state.1
  split
  · exact .refl _ state.1
  · have inside := mem_values.mp (findByTrackSsrc_inside room visit found)
    exact retransmit_within here state.1 nack _ _ _ inside nowMs (before.ready ready)

end Nacks

section Reports
variable {room : Room} {sender : Ptr} (here : Seats room sender)

include here

theorem translateBlock_within (draw : NonzeroSsrc) (sent : Ptr → UInt32 → UInt32 × UInt32)
    (target : Ptr) (state : Heap × List RelayedReport) (block : Bytes) :
    Within (Seats room) state.1 (translateBlock room sender draw sent target state block).1 := by
  simp only [translateBlock]
  have moves : Evolves (state.1 sender)
      (buildSrTranslation room (state.1 sender) draw (sent target) block).1 := by
    rcases buildSrTranslation_state room draw (sent target) (state.1 sender) with same | drawn
    · rw [same]
    · rw [drawn]
      exact .single (.drawn draw)
  exact .mutate here moves

theorem relayPublishRtcpTranslated_within (draw : NonzeroSsrc)
    (sent : Ptr → UInt32 → UInt32 × UInt32) (srBlocks relayBlocks : List Bytes) (h : Heap)
    (senderId : UserId) :
    Within (Seats room) h
      (relayPublishRtcpTranslated room sender draw sent srBlocks relayBlocks h senderId).1 := by
  unfold relayPublishRtcpTranslated
  split
  · exact .refl _ h
  refine @Within.fold (Seats room) _ _ (fun state : Heap × List RelayedReport => state.1) _ _
    (fun state target member => ?_) (h, [])
  have translated : Within (Seats room) state.1
      (srBlocks.foldl (translateBlock room sender draw sent target) (state.1, [])).1 :=
    @Within.fold (Seats room) _ _ (fun state : Heap × List RelayedReport => state.1) _ _
      (fun state block _ => translateBlock_within here draw sent target state block) (state.1, [])
  unfold relayToTarget
  split
  · exact .refl _ state.1
  rename_i unready
  have ready : (state.1 target).isSubscribeReady = true := by simpa using unready
  by_cases mode : room.mode = .ptt
  · simp only [if_pos mode]
    split
    · exact .refl _ state.1
    · exact .move (seats_other member) (.queued _ ready)
  · simp only [if_neg mode]
    split
    · exact translated
    · exact translated.trans (.move (seats_other member) (.queued _ (translated.ready ready)))

end Reports

section Floor
variable (arcs : Ptr → Participant) {room : Room} (clk : Nat → Instant)

theorem onParticipant_within (run : FloorRun) (u : UserId)
    {f : ParticipantState → ParticipantState} (moves : ∀ s, Move s (f s)) :
    Within (Seats room) run.heap (onParticipant room run u f).heap := by
  unfold onParticipant
  split
  · rename_i p entry
    exact .move ⟨u, entry⟩ (moves _)
  · exact .refl _ run.heap

theorem cancelled_within (run : FloorRun) (u : UserId) :
    Within (Seats room) run.heap (onParticipant room run u (·.cancelPliBurst)).heap :=
  onParticipant_within run u fun _ => .cancelled

theorem burstTo_within (run : FloorRun) (speaker : UserId) :
    Within (Seats room) run.heap (burstTo room run speaker).heap :=
  onParticipant_within run speaker fun s => .asked s.firstVideoSsrc floorBurst (by decide)

theorem broadcastMbcp_within (run : FloorRun) (pkt : Bytes) :
    Within (Seats room) run.heap (broadcastMbcp room run pkt).heap :=
  sendToReady_within (fun _ member => seats_subscribers member) _

theorem sendMbcp_within (run : FloorRun) {p : Ptr} (inside : Seats room p) (pkt : Bytes) :
    Within (Seats room) run.heap (sendMbcp run p pkt).heap := by
  refine sendToReady_within (fun t member => ?_) _
  rw [List.mem_singleton.mp member]
  exact inside

theorem sendMbcpTo_within (run : FloorRun) (u : UserId) (pkt : Bytes) :
    Within (Seats room) run.heap (sendMbcpTo room run u pkt).heap := by
  unfold sendMbcpTo
  split
  · rename_i p entry
    exact sendMbcp_within run ⟨u, entry⟩ pkt
  · exact .refl _ run.heap

theorem applyMbcpFloorAction_within {requester : Ptr} (here : Seats room requester) (run : FloorRun)
    (action : FloorAction) :
    Within (Seats room) run.heap (applyMbcpFloorAction arcs room clk requester run action).heap := by
  cases action with
  | granted speaker priority durationS =>
    exact (burstTo_within (switchRewriters clk run speaker) speaker).trans
      (broadcastMbcp_within _ _)
  | denied reason speaker => exact sendMbcp_within run here _
  | queued u position priority size => exact sendMbcp_within run here _
  | released prevSpeaker => exact broadcastMbcp_within run _
  | revoked prevSpeaker cause =>
    exact (cancelled_within run prevSpeaker).trans
      ((sendMbcpTo_within _ prevSpeaker _).trans (broadcastMbcp_within (clearRewriters clk _) _))
  | _ => exact .refl _ run.heap

theorem flushReleased_within {flush : FloorRun → FloorRun}
    (one : ∀ run, Within (Seats room) run.heap (flush run).heap) (run : FloorRun)
    (actions : List FloorAction) :
    Within (Seats room) run.heap (flushReleased flush run actions).heap := by
  refine Within.fold FloorRun.heap (fun run action _ => ?_) run
  cases action with
  | released prevSpeaker => exact one run
  | _ => exact .refl _ run.heap

theorem handleMbcp_within {sender : Ptr} (here : Seats room sender) (h : Heap) (subtype : UInt8)
    (now grantMs : Nat) :
    Within (Seats room) h (handleMbcp arcs room h clk sender subtype now grantMs).heap := by
  have acted : ∀ (actions : List FloorAction) (run : FloorRun), Within (Seats room) run.heap
      (actions.foldl (applyMbcpFloorAction arcs room clk sender) run).heap := fun actions run =>
    Within.fold FloorRun.heap
      (fun run action _ => applyMbcpFloorAction_within arcs clk here run action) run
  unfold handleMbcp
  simp only
  split
  · exact acted _ (begin_ _ h)
  split
  · have cleared : ∀ run, Within (Seats room) run.heap (clearRewriters clk run).heap :=
      fun run => .refl _ run.heap
    exact (flushReleased_within cleared (begin_ _ h) _).trans (acted _ _)
  split
  · exact .refl _ h
  · exact .refl _ h

theorem flushPttSilence_within (run : FloorRun) :
    Within (Seats room) run.heap (flushPttSilence room clk run).heap :=
  Within.fold id (fun _ _ _ => sendToReady_within (fun _ member => seats_subscribers member) _)
    run.heap

theorem sendTo_heap (run : FloorRun) (u : UserId) (event : WsEvent) :
    (sendTo arcs room run u event).heap = run.heap := by
  unfold sendTo
  split <;> rfl

theorem grant_within (run : FloorRun) (speaker : UserId) (announce : Outbox) :
    Within (Seats room) run.heap (grant room clk run speaker announce).heap :=
  burstTo_within (switchRewriters clk run speaker) speaker

theorem floorRequestAction_within (requester : UserId) (pid : Nat) (state : FloorRun × Reply)
    (action : FloorAction) : Within (Seats room) state.1.heap
      (floorRequestAction arcs room clk requester pid state action).1.heap := by
  cases action with
  | granted speaker priority durationS => exact grant_within clk state.1 speaker _
  | revoked prevSpeaker cause =>
    simp only [floorRequestAction, sendTo_heap]
    exact cancelled_within state.1 prevSpeaker
  | _ => exact .refl _ state.1.heap

theorem applyFloorAction_within (op : UInt16) (pid : Nat) (requester : UserId)
    (state : FloorRun × Reply) (action : FloorAction) : Within (Seats room) state.1.heap
      (applyFloorAction arcs room clk op pid requester state action).1.heap := by
  cases action with
  | granted speaker priority durationS =>
    simp only [applyFloorAction]
    split
    · rw [sendTo_heap]
      exact grant_within clk state.1 speaker _
    · exact grant_within clk state.1 speaker _
  | revoked prevSpeaker cause =>
    simp only [applyFloorAction, send, sendTo_heap]
    exact cancelled_within state.1 prevSpeaker
  | _ => exact .refl _ state.1.heap

theorem applyFloorActions_within (op : UInt16) (pid : Nat) (requester : UserId) (run : FloorRun)
    (actions : List FloorAction) : Within (Seats room) run.heap
      (applyFloorActions arcs room clk op pid requester run actions).1.heap :=
  Within.fold (fun state : FloorRun × Reply => state.1.heap)
    (fun state action _ => applyFloorAction_within arcs clk op pid requester state action)
    (run, .ok op pid .empty)

theorem handleFloorRequest_within (h : Heap) (u : UserId) (pid : Nat) (priority : Option UInt8)
    (now : Nat) :
    Within (Seats room) h (handleFloorRequest arcs room h clk u pid priority now).1.heap :=
  Within.fold (fun state : FloorRun × Reply => state.1.heap)
    (fun state action _ => floorRequestAction_within arcs clk u pid state action)
    (begin_ _ h, .ok opFloorRequest pid .empty)

theorem handleFloorRelease_within (h : Heap) (u : UserId) (pid grantMs : Nat) :
    Within (Seats room) h (handleFloorRelease arcs room h clk u pid grantMs).1.heap :=
  (flushReleased_within (flushPttSilence_within clk) (begin_ _ h) _).trans
    (applyFloorActions_within arcs clk opFloorRelease pid u _ _)

theorem floorLeave_within (h : Heap) (u : UserId) (grantMs : Nat) :
    Within (Seats room) h (floorLeave arcs room h clk u grantMs).heap := by
  simp only [floorLeave]
  split
  · exact .refl _ h
  · exact Within.trans (applyFloorActions_within arcs clk opFloorRelease 0 u (begin_ _ h) _)
      (flushPttSilence_within clk _)

theorem floorTimerTick_within (h : Heap) (now grantMs : Nat) :
    Within (Seats room) h (floorTimerTick arcs room h clk now grantMs).heap := by
  refine Within.fold FloorRun.heap (fun run action _ => ?_) (begin_ _ h)
  cases action with
  | revoked prevSpeaker cause =>
    simp only [timerAction, send, sendTo_heap]
    exact cancelled_within run prevSpeaker
  | granted speaker priority durationS =>
    simp only [timerAction, send, sendTo_heap]
    exact burstTo_within (switchRewriters clk run speaker) speaker
  | _ => exact .refl _ run.heap

end Floor

section Tracks
variable {room : Room} (draws : Ptr → NonzeroSsrc)

theorem purgeSubscribeLayers_within (h : Heap) (u : UserId) :
    Within (Seats room) h (purgeSubscribeLayers room h u) := by
  refine Within.fold id (fun h p member => ?_) h
  exact .move (seats_other member) (.selected _)

theorem simulcastReplaceVideoSsrc_within (h : Heap) (tracks : List TrackInfo) :
    Within (Seats room) h (simulcastReplaceVideoSsrc room h draws tracks).1 := by
  unfold simulcastReplaceVideoSsrc
  split
  · refine @Within.fold (Seats room) _ _ (fun state : Heap × List TrackInfo => state.1) _ tracks
      (fun state t _ => ?_) (h, [])
    unfold replaceVideoSsrc
    simp only
    split
    · exact .refl _ state.1
    split
    · rename_i p entry
      have seat : Seats room p := ⟨t.userId, entry⟩
      dsimp only
      exact .move seat (.drawn _)
    · exact .refl _ state.1
  · exact .refl _ h

theorem subscribeTarget_within {subscriber : Ptr} (here : Seats room subscriber) (now : Instant)
    (h : Heap) (target : SubscribeLayerTarget) :
    Within (Seats room) h (subscribeTarget room subscriber draws now h target) := by
  unfold subscribeTarget
  split
  · exact .refl _ h
  rename_i publisher entry
  have seat : Seats room publisher := ⟨target.userId, entry⟩
  have drawn : ∀ entry, Within (Seats room) h (mutate (mutate h publisher fun _ =>
      ((h publisher).ensureSimulcastVideoSsrc (draws publisher)).1) subscriber fun s =>
        { s with subscribeLayers := s.subscribeLayers.insert target.userId entry }) := fun _ =>
    Within.trans (.move seat (.drawn _)) (.move here (.selected _))
  simp only
  split
  · exact (drawn _).trans (.move seat (.asked _ simulcastBurst (by decide)))
  · exact drawn _

theorem announcePublished_within (arcs : Ptr → Participant) (h : Heap) (u : UserId)
    (newTracks : List TrackInfo) :
    Within (Seats room) h (announcePublished arcs room h draws u newTracks).1 :=
  simulcastReplaceVideoSsrc_within draws h _

end Tracks
end RoomFrames
