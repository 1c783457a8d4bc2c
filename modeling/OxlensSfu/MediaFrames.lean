import OxlensSfu.NackReplies

/-
What the media path leaves alone in the state of one participant, seen through a view.
A view may show the queue; then the packets that go into it must not be visible.
-/
namespace MediaFrames
open WireBytes RtpPacket RtxPacket FloorControl PttRewriter KeyedMap Participants RoomHubs RoomHub
open RoomHandlers TrackHandlers Ingress NackReplies

variable {α : Type} {view : ParticipantState → α} {q : Ptr}

theorem mutate_at {h : Heap} {p : Ptr} {f : ParticipantState → ParticipantState}
    (kept : q = p → view (f (h p)) = view (h p)) : view (mutate h p f q) = view (h q) := by
  by_cases here : q = p
  · rw [← here, mutate_self]
    rw [← here] at kept
    exact kept rfl
  · rw [mutate_ne f here]

/-- The view does not show what the fan-out changes besides the queue. -/
structure MediaBlind (view : ParticipantState → α) : Prop where
  keyframe : ∀ s ssrc delays, view (s.requestKeyframe ssrc delays) = view s
  drawn : ∀ s draw, view (s.ensureSimulcastVideoSsrc draw).1 = view s
  layers : ∀ s layers, view { s with subscribeLayers := layers } = view s

/-- `q` is not among the targets, or its view does not show the packet. -/
def Unseen (view : ParticipantState → α) (q : Ptr) (targets : List Ptr) (pkt : EgressPacket) :
    Prop :=
  q ∉ targets ∨ ∀ s, view (s.trySend pkt) = view s

theorem Unseen.cons {t : Ptr} {targets : List Ptr} {pkt : EgressPacket}
    (unseen : Unseen view q (t :: targets) pkt) :
    Unseen view q [t] pkt ∧ Unseen view q targets pkt := by
  rcases unseen with outside | hidden
  · rw [List.mem_cons, not_or] at outside
    exact ⟨.inl (by simpa using outside.1), .inl outside.2⟩
  · exact ⟨.inr hidden, .inr hidden⟩

theorem sendToReady_at {targets : List Ptr} {pkt : EgressPacket}
    (unseen : Unseen view q targets pkt) (h : Heap) :
    view (sendToReady h targets pkt q) = view (h q) := by
  induction targets generalizing h with
  | nil => rfl
  | cons t targets ih =>
    refine (ih unseen.cons.2 _).trans (mutate_at fun here => ?_)
    split
    · rcases unseen with outside | blind
      · exact absurd (here ▸ List.mem_cons_self) outside
      · exact blind (h t)
    · rfl

theorem view_detectGap (blind : MediaBlind view)
    (noted : ∀ s seen until_,
      view { s with lastVideoRtpMs := seen, rtpGapSuppressUntilMs := until_ } = view s)
    (s : ParticipantState) (hdr : RtpHeader) : view (detectGap s hdr) = view s := by
  unfold detectGap
  split
  · dsimp only
    split
    · exact (blind.keyframe _ _ _).trans (noted s _ _)
    · exact noted s _ _
  · rfl

theorem view_collectRtpStats (stored : ∀ s cache, view { s with rtpCache := cache } = view s)
    (s : ParticipantState) (hdr : RtpHeader) (p : Bytes) :
    view (collectRtpStats s hdr p) = view s := by
  unfold collectRtpStats
  split
  · exact stored s _
  · rfl

section Relay
variable (hub : RoomHub) (r : RoomId) (room : Room) (sender : Ptr) (buf : Bytes) (o : Oracle)

theorem fanoutTarget_at (blind : MediaBlind view) (senderId : UserId) (vssrc : UInt32)
    (rid : String) (isKey : Bool) (p : Bytes) (clk : Nat → Instant) (state : LayerFanout)
    (target : Ptr) (unseen : ∀ pkt, Unseen view q [target] pkt) :
    view ((fanoutTarget senderId sender vssrc rid isKey p clk state target).heap q) =
      view (state.heap q) := by
  have kept : ∀ entry, view (mutate state.heap target (fun s =>
      { s with subscribeLayers := s.subscribeLayers.insert senderId entry }) q) =
        view (state.heap q) := fun entry => mutate_at fun _ => blind.layers _ _
  have asked : ∀ (h : Heap) (ask : Bool), view ((if ask then
      mutate h sender fun s => s.requestKeyframe (s.layerSsrc "h") simulcastBurst else h) q) =
        view (h q) := by
    intro h ask
    split
    · exact mutate_at fun _ => blind.keyframe _ _ _
    · rfl
  unfold fanoutTarget
  split
  · rfl
  · simp only
    split
    · rename_i out _
      refine (mutate_at fun here => ?_).trans ((asked _ _).trans (kept _))
      rcases unseen (.rtp out) with outside | hidden
      · exact absurd (List.mem_singleton.mpr here) outside
      · exact hidden _
    · exact (asked _ _).trans (kept _)

/-- Either the packet goes to somebody else, or the view does not show it. -/
theorem fanout_at (blind : MediaBlind view) (senderId : UserId) (hdr : RtpHeader)
    (source out : Bytes)
    (unseen : ∀ pkt, Unseen view q (room.otherParticipants senderId) pkt) :
    view ((fanout hub r room senderId sender hdr source out o).1.heap q) = view (hub.heap q) := by
  unfold fanout
  split
  · simp only [fanoutSimulcastVideo]
    split
    · rfl
    · rename_i rid _
      have all : ∀ (targets : List Ptr) (vssrc : UInt32) (isKey : Bool) (clk : Nat → Instant)
          (state : LayerFanout), (∀ pkt, Unseen view q targets pkt) →
          view ((targets.foldl (fanoutTarget senderId sender vssrc rid isKey out clk) state).heap q)
            = view (state.heap q) := by
        intro targets vssrc isKey clk
        induction targets with
        | nil => exact fun _ _ => rfl
        | cons t targets ih =>
          intro state unseen
          exact (ih _ fun pkt => (unseen pkt).cons.2).trans
            (fanoutTarget_at sender blind senderId vssrc rid isKey out clk state t
              fun pkt => (unseen pkt).cons.1)
      have drawn : view (mutate hub.heap sender (fun _ =>
          ((hub.heap sender).ensureSimulcastVideoSsrc (o.vssrc sender)).1) q) = view (hub.heap q) :=
        mutate_at fun _ => blind.drawn _ _
      exact (all _ _ _ _ _ unseen).trans drawn
  · apply sendToReady_at
    exact (unseen (.rtp out)).imp (fun outside inside => outside (List.mem_of_mem_filter inside)) id

/-- A relayed packet shows in the view as the sender's statistics do. -/
theorem relayRtp_at (blind : MediaBlind view)
    (unseen : ∀ pkt, Unseen view q (room.otherParticipants (hub.arcs sender).userId) pkt) :
    view ((relayRtp hub r room sender buf o).hub.heap q) =
      view (mutate hub.heap sender (fun s =>
        detectGap (collectRtpStats s (normalizePt (hub.heap sender).tracks buf).2
          (normalizePt (hub.heap sender).tracks buf).1)
          (normalizePt (hub.heap sender).tracks buf).2) q) := by
  simp only [relayRtp]
  split
  · rfl
  · exact fanout_at (withPtt hub r _ _) r room sender o blind _ _ _ _ unseen

end Relay

section Nack
variable (arcs : Ptr → Participant) (room : Room) (visit : List UserId) (subscriber : Ptr)

/-- The view does not show the counters of retransmission. -/
structure CountersBlind (view : ParticipantState → α) : Prop where
  number : ∀ s n, view { s with rtxSeq := n } = view s
  budget : ∀ s n, view { s with rtxBudgetUsed := n } = view s
  silence : ∀ s n, view { s with nackSuppressUntilMs := n } = view s

/-- Every track in the room has an RTX SSRC of this kind, if it has one. -/
def RtxTracks (room : Room) (good : UInt32 → Prop) (h : Heap) : Prop :=
  ∀ p ∈ values room.participants, ∀ t ∈ (h p).tracks, ∀ ssrc, t.rtxSsrc = some ssrc → good ssrc

theorem RtxTracks.shows {good : UInt32 → Prop} {h h' : Heap} (tracks : RtxTracks room good h)
    (same : Shows media h h') : RtxTracks room good h' := by
  intro p inside t present
  rw [(shows_fields same p).2.1] at present
  exact tracks p inside t present

theorem findByTrackSsrc_inside {h : Heap} {ssrc : UInt32} {p : Ptr}
    (found : room.findByTrackSsrc h visit ssrc = some p) : p ∈ values room.participants := by
  obtain ⟨u, _, here⟩ := List.mem_filterMap.mp (List.mem_of_find?_eq_some found)
  exact mem_values.mpr ⟨u, here⟩

variable {good : UInt32 → Prop}

theorem buildReply_at (counters : CountersBlind view) (mediaSsrc rtxSsrc : UInt32)
    (reverse : UInt16 → UInt16) (publisher : Ptr) (lost : List UInt16)
    (state : Heap × List RtxReply) :
    view ((lost.foldl (buildReply mediaSsrc rtxSsrc reverse publisher) state).1 q) =
      view (state.1 q) := by
  induction lost generalizing state with
  | nil => rfl
  | cons seq lost ih =>
    refine (ih _).trans ?_
    obtain ⟨h, built⟩ := state
    simp only [buildReply]
    split
    · rfl
    · dsimp only
      apply mutate_at
      intro _
      exact counters.number (h publisher) _

theorem enqueueReply_at (counters : CountersBlind view) {built : List RtxReply}
    (unseen : ∀ reply ∈ built, q = subscriber → ∀ s, view (s.trySend (.rtp reply.rtx)) = view s)
    (state : Heap × List RtxReply) :
    view ((built.foldl (enqueueReply subscriber) state).1 q) = view (state.1 q) := by
  induction built generalizing state with
  | nil => rfl
  | cons reply built ih =>
    refine (ih (fun other member => unseen other (List.mem_cons_of_mem _ member)) _).trans ?_
    obtain ⟨h, done⟩ := state
    simp only [enqueueReply]
    have counted := counters.budget (h subscriber) ((h subscriber).rtxBudgetUsed + 1)
    split
    · dsimp only
      apply mutate_at
      intro _
      exact counted
    · dsimp only
      apply mutate_at
      intro here
      exact (unseen reply List.mem_cons_self here _).trans counted

theorem escalate_at (counters : CountersBlind view) (blind : MediaBlind view) (h : Heap)
    (publisher : Ptr) (ssrc : UInt32) (asked found nowMs : Nat) :
    view (escalate subscriber h publisher ssrc asked found nowMs q) = view (h q) := by
  unfold escalate
  split
  · exact (mutate_at fun _ => blind.keyframe _ _ _).trans (mutate_at fun _ => counters.silence _ _)
  · rfl

/-- An item of a NACK block shows in no view that hides the counters and, for the
    subscriber, the packets of the RTX streams. -/
theorem handleNackItem_at (counters : CountersBlind view) (blind : MediaBlind view)
    (unseen : ∀ original ssrc seq, good ssrc → q = subscriber →
      ∀ s, view (s.trySend (.rtp (buildRtxPacket original ssrc seq))) = view s)
    (nowMs : Nat) (state : Heap × List RtxReply) (tracks : RtxTracks room good state.1)
    (nack : NackItem) :
    view ((handleNackItem arcs room visit subscriber nowMs state nack).1 q) = view (state.1 q) := by
  obtain ⟨h, done⟩ := state
  unfold handleNackItem
  simp only
  split
  · rfl
  rename_i publisher leader
  split
  · rfl
  split
  · rfl
  rename_i rtxSsrc leads
  simp only [retransmit]
  have sent : good rtxSsrc := by
    obtain ⟨t, found, ssrc⟩ := Option.bind_eq_some_iff.mp leads
    exact tracks publisher (findByTrackSsrc_inside room visit leader) t
      (List.mem_of_find?_eq_some found) rtxSsrc ssrc
  obtain ⟨_, built⟩ := buildReply_fold nack.mediaSsrc rtxSsrc
    (nackSource arcs room visit subscriber h nack.mediaSsrc).2 publisher
    (expandNack nack.pid nack.blp) h
  refine (enqueueReply_at subscriber counters (fun reply member here s => ?_) _).trans
    ((escalate_at subscriber counters blind _ _ _ _ _ _).trans
      (buildReply_at counters _ _ _ _ _ _))
  obtain ⟨_, _, _, _, rtxSeq, rtx⟩ := built reply member
  rw [rtx]
  exact unseen _ _ _ sent here s

theorem handleNackBlock_at (counters : CountersBlind view) (blind : MediaBlind view)
    (unseen : ∀ original ssrc seq, good ssrc → q = subscriber →
      ∀ s, view (s.trySend (.rtp (buildRtxPacket original ssrc seq))) = view s)
    (h : Heap) (tracks : RtxTracks room good h) (block : Bytes) (nowMs : Nat) :
    view ((handleNackBlock arcs room visit subscriber h block nowMs).1 q) = view (h q) := by
  have all : ∀ (items : List NackItem) (state : Heap × List RtxReply), RtxTracks room good state.1 →
      view ((items.foldl (handleNackItem arcs room visit subscriber nowMs) state).1 q) =
        view (state.1 q) := by
    intro items
    induction items with
    | nil => exact fun _ _ => rfl
    | cons nack items ih =>
      intro state tracks
      have kept := (handleNackItem_answers arcs room visit subscriber nowMs state nack).1
      exact (ih _ (tracks.shows room kept)).trans
        (handleNackItem_at arcs room visit subscriber counters blind unseen nowMs state tracks nack)
  unfold handleNackBlock
  simp only
  split
  · rfl
  · exact all _ (h, []) tracks

end Nack

end MediaFrames
