import OxlensSfu.Catalog
import OxlensSfu.Ingress
import OxlensSfu.LayerNumbering

/-
What layer selection and the simulcast fan-out do to the layer entries, to the virtual
SSRCs and to everything else in the states of the participants.
-/
namespace LayerFrames
open WireBytes RtpPacket KeyedMap Participants RoomHubs RoomHub Membership Signaling
open RoomHandlers TrackHandlers Ingress Catalog
open FloorControl (UserId)
open PttRewriter (Instant)

/-- The view shows neither queue nor keyframe bursts nor layer entries. -/
structure LayerBlind {α : Type} (view : ParticipantState → α) : Prop where
  queue : ∀ s egress, view { s with egress := egress } = view s
  burst : ∀ s pliBurst, view { s with pliBurst := pliBurst } = view s
  layers : ∀ s layers, view { s with subscribeLayers := layers } = view s

section Requests
variable (s : ParticipantState) (ssrc : Option UInt32) (delays : List Nat) (pkt : EgressPacket)

@[simp] theorem requestKeyframe_layers :
    (s.requestKeyframe ssrc delays).subscribeLayers = s.subscribeLayers :=
  view_requestKeyframe (fun _ _ => rfl) s ssrc delays

@[simp] theorem trySend_layers : (s.trySend pkt).subscribeLayers = s.subscribeLayers :=
  view_trySend (fun _ _ => rfl) s pkt

/-- One layer entry is put into the state of one participant. -/
theorem insertLayer_at (h : Heap) (t : Ptr) (k : UserId) (entry : SubscribeLayerEntry) (q : Ptr) :
    (mutate h t (fun s => { s with subscribeLayers := s.subscribeLayers.insert k entry })
        q).subscribeLayers =
      if q = t then (h q).subscribeLayers.insert k entry else (h q).subscribeLayers := by
  by_cases here : q = t
  · subst here
    simp only [mutate_self, if_true]
  · rw [if_neg here]
    exact congrArg (·.subscribeLayers) (mutate_ne _ here)

end Requests

theorem vssrc_blind : LayerBlind (·.simulcastVideoSsrc) := ⟨fun _ _ => rfl, fun _ _ => rfl, fun _ _ => rfl⟩

theorem tracks_blind : LayerBlind (·.tracks) := ⟨fun _ _ => rfl, fun _ _ => rfl, fun _ _ => rfl⟩

section Labels
variable (old : Option SubscribeLayerEntry) (vssrc : UInt32)

/-- A rewriter never changes the SSRC that it writes. -/
theorem rewrite_vssrc (r : SimulcastRewriter) (buf : Bytes) (isKey : Bool) :
    (r.rewrite buf isKey).1.virtualSsrc = r.virtualSsrc := by
  unfold SimulcastRewriter.rewrite
  split
  · rfl
  split
  · rfl
  · simp only [SimulcastRewriter.anchor]
    split
    · rfl
    split <;> rfl

/-- The SSRC of the entry that a publisher's packet or a selection finds, or makes. -/
def entrySsrc : UInt32 := (old.map (·.rewriter.virtualSsrc)).getD vssrc

theorem passLayer_vssrc (rid : String) (isKey : Bool) (p : Bytes) (checked marked : Instant) :
    (passLayer old vssrc rid isKey p checked marked).1.rewriter.virtualSsrc =
      entrySsrc old vssrc := by
  have found : (old.getD ⟨"h", .new vssrc⟩).rewriter.virtualSsrc = entrySsrc old vssrc := by
    cases old <;> rfl
  rw [← found]
  unfold passLayer
  simp only
  split
  · rfl
  · split
    · exact rewrite_vssrc _ p isKey
    · exact rewrite_vssrc _ p isKey

/-- What is passed on is a whole packet under the SSRC of the entry. -/
theorem passLayer_out {old vssrc} {rid : String} {isKey : Bool} {p out : Bytes}
    {checked marked : Instant}
    (passed : (passLayer old vssrc rid isKey p checked marked).2.1 = some out) :
    12 ≤ out.length ∧ u32At out 8 = entrySsrc old vssrc ∧
      12 ≤ p.length ∧ (old.getD ⟨"h", .new vssrc⟩).rid = rid ∧ rid ≠ "pause" := by
  have found : (old.getD ⟨"h", .new vssrc⟩).rewriter.virtualSsrc = entrySsrc old vssrc := by
    cases old <;> rfl
  rw [← found]
  unfold passLayer at passed
  simp only at passed
  generalize old.getD ⟨"h", .new vssrc⟩ = entry at passed ⊢
  split at passed
  · simp at passed
  · rename_i playing
    rw [not_or, Decidable.not_not] at playing
    have selected := playing.2
    by_cases passes : LayerNumbering.Passes entry.rewriter p isKey
    · obtain ⟨out', rewritten, _, _, ssrc⟩ := LayerNumbering.rewrite_passes passes
      have length : out'.length = p.length := by
        have whole := congrArg Prod.snd rewritten
        unfold SimulcastRewriter.rewrite at whole
        split at whole
        · simp at whole
        split at whole
        · simp at whole
        rw [Option.some.injEq] at whole
        rw [← whole]
        exact PttRewriter.length_writeHeader _ _ _ passes.1
      rw [rewritten, Option.some.injEq] at passed
      rw [← passed, length]
      refine ⟨passes.1, ssrc, passes.1, selected.symm, ?_⟩
      rw [selected]
      exact playing.1
    · rw [LayerNumbering.rewrite_drops passes] at passed
      simp at passed

theorem selectLayer_vssrc (rid : String) (now : Instant) :
    (selectLayer old rid vssrc now).1.rewriter.virtualSsrc = entrySsrc old vssrc := by
  have found : (old.getD ⟨rid, .new vssrc⟩).rewriter.virtualSsrc = entrySsrc old vssrc := by
    cases old <;> rfl
  rw [← found]
  -- Neither the switch nor the mark of a request is about the SSRC.
  unfold selectLayer
  simp only
  split <;> split <;> rfl

end Labels

section Draws
variable (heap : Heap) (q p : Ptr) (draw : NonzeroSsrc)

/-- The virtual SSRC of a participant after somebody's was drawn. -/
theorem drawn_vssrc :
    (mutate heap p (fun s => (s.ensureSimulcastVideoSsrc draw).1) q).simulcastVideoSsrc =
      if q = p then ((heap p).ensureSimulcastVideoSsrc draw).2
      else (heap q).simulcastVideoSsrc := by
  by_cases here : q = p
  · subst here
    rw [if_pos rfl, mutate_self, ensure_snd]
  · rw [if_neg here, mutate_ne _ here]

theorem drawn_stays (drawn : (heap q).simulcastVideoSsrc ≠ 0) :
    (mutate heap p (fun s => (s.ensureSimulcastVideoSsrc draw).1) q).simulcastVideoSsrc =
      (heap q).simulcastVideoSsrc := by
  rw [drawn_vssrc]
  split
  · rename_i here
    rw [here] at drawn ⊢
    rw [ensure_of_drawn _ _ drawn]
  · rfl

end Draws

section Fanout
variable (senderId : UserId) (sender : Ptr) (vssrc : UInt32) (rid : String) (isKey : Bool)
  (p : Bytes) (clk : Nat → Instant)

/-- What the entry of `q` makes of the packet in the given state. -/
def passAt (state : LayerFanout) (q : Ptr) : SubscribeLayerEntry × Option Bytes × Bool :=
  passLayer ((state.heap q).subscribeLayers.lookup senderId) vssrc rid isKey p (clk state.reads)
    (clk (state.reads + 1))

theorem fanoutTarget_unready {state : LayerFanout} {target : Ptr}
    (unready : (state.heap target).isSubscribeReady = false) :
    fanoutTarget senderId sender vssrc rid isKey p clk state target = state := by
  simp [fanoutTarget, unready]

theorem fanoutTarget_shows {α : Type} {view : ParticipantState → α} (blind : LayerBlind view)
    (state : LayerFanout) (target : Ptr) :
    Shows view state.heap (fanoutTarget senderId sender vssrc rid isKey p clk state target).heap := by
  have asked : ∀ (h : Heap) (ask : Bool), Shows view h (if ask then
      mutate h sender fun s => s.requestKeyframe (s.layerSsrc "h") simulcastBurst else h) := by
    intro h ask
    split
    · exact .mutate (view_requestKeyframe blind.burst _ _ _)
    · exact .refl view h
  unfold fanoutTarget
  split
  · exact .refl view state.heap
  simp only
  have kept : ∀ entry, Shows view state.heap (mutate state.heap target fun s =>
      { s with subscribeLayers := s.subscribeLayers.insert senderId entry }) := fun entry =>
    .mutate (blind.layers _ _)
  split
  · refine ((kept _).trans (asked _ _)).trans (.mutate ?_)
    exact view_trySend blind.queue _ _
  · exact (kept _).trans (asked _ _)

/-- Of a ready target the entry for the sender is replaced; no other entry changes. -/
theorem fanoutTarget_layers {state : LayerFanout} {target : Ptr}
    (ready : (state.heap target).isSubscribeReady = true) (q : Ptr) :
    ((fanoutTarget senderId sender vssrc rid isKey p clk state target).heap q).subscribeLayers =
      if q = target then (state.heap q).subscribeLayers.insert senderId
        (passAt senderId vssrc rid isKey p clk state q).1 else (state.heap q).subscribeLayers := by
  have kept : ∀ q, (mutate state.heap target (fun s =>
      { s with
        subscribeLayers := s.subscribeLayers.insert senderId
          (passAt senderId vssrc rid isKey p clk state target).1 }) q).subscribeLayers =
      if q = target then (state.heap q).subscribeLayers.insert senderId
        (passAt senderId vssrc rid isKey p clk state q).1 else (state.heap q).subscribeLayers := by
    intro q
    rw [insertLayer_at]
    by_cases here : q = target
    · rw [here]
    · rw [if_neg here, if_neg here]
  have asked : ∀ (h : Heap) (ask : Bool), ((if ask then
      mutate h sender fun s => s.requestKeyframe (s.layerSsrc "h") simulcastBurst else h)
        q).subscribeLayers = (h q).subscribeLayers := by
    intro h ask
    split
    · exact Shows.mutate (requestKeyframe_layers _ _ _) q
    · rfl
  unfold fanoutTarget
  rw [if_neg (by simp [ready])]
  simp only
  split
  · exact (Shows.mutate (trySend_layers _ _) q).trans ((asked _ _).trans (kept q))
  · exact (asked _ _).trans (kept q)

theorem fanoutTarget_passed {state : LayerFanout} {target : Ptr}
    (ready : (state.heap target).isSubscribeReady = true) :
    (fanoutTarget senderId sender vssrc rid isKey p clk state target).passed =
      state.passed ++ (passAt senderId vssrc rid isKey p clk state target).2.1.toList.map
        fun out => (target, out) := by
  unfold fanoutTarget passAt
  rw [if_neg (by simp [ready])]
  simp only
  split
  · rename_i out passed
    simp [passed]
  · rename_i dropped
    simp [dropped]

/-- The loop over distinct targets, as one participant sees it: a ready target has its turn
    once, with the entry that it had before the loop. -/
theorem fanoutAll_spec {targets : List Ptr} (once : targets.Nodup) (state : LayerFanout) (q : Ptr) :
    let done := targets.foldl (fanoutTarget senderId sender vssrc rid isKey p clk) state
    (q ∈ targets ∧ (state.heap q).isSubscribeReady = true → ∃ checked marked,
      let pass := passLayer ((state.heap q).subscribeLayers.lookup senderId) vssrc rid isKey p
        checked marked
      (done.heap q).subscribeLayers = (state.heap q).subscribeLayers.insert senderId pass.1 ∧
        done.passed.filter (·.1 = q) = state.passed.filter (·.1 = q) ++
          pass.2.1.toList.map fun out => (q, out)) ∧
    (¬(q ∈ targets ∧ (state.heap q).isSubscribeReady = true) →
      (done.heap q).subscribeLayers = (state.heap q).subscribeLayers ∧
        done.passed.filter (·.1 = q) = state.passed.filter (·.1 = q)) := by
  induction targets generalizing state with
  | nil => exact ⟨fun turn => absurd turn.1 List.not_mem_nil, fun _ => ⟨rfl, rfl⟩⟩
  | cons t targets ih =>
    obtain ⟨apart, once⟩ := List.nodup_cons.mp once
    rw [List.foldl_cons]
    by_cases ready : (state.heap t).isSubscribeReady = true
    · have layers := fanoutTarget_layers senderId sender vssrc rid isKey p clk ready q
      have passed := fanoutTarget_passed senderId sender vssrc rid isKey p clk ready
      have same : ((fanoutTarget senderId sender vssrc rid isKey p clk state t).heap
          q).isSubscribeReady = (state.heap q).isSubscribeReady :=
        fanoutTarget_shows senderId sender vssrc rid isKey p clk
          ⟨fun _ _ => rfl, fun _ _ => rfl, fun _ _ => rfl⟩ state t q
      obtain ⟨turn, idle⟩ := ih once (fanoutTarget senderId sender vssrc rid isKey p clk state t)
      by_cases here : q = t
      · subst here
        rw [if_pos rfl] at layers
        obtain ⟨still, unsent⟩ := idle fun later => apart later.1
        refine ⟨fun _ => ⟨clk state.reads, clk (state.reads + 1), ?_, ?_⟩, fun other =>
          absurd ⟨List.mem_cons_self, ready⟩ other⟩
        · exact still.trans layers
        · rw [unsent, passed, List.filter_append]
          congr 1
          exact List.filter_eq_self.mpr (by simp)
      · rw [if_neg here] at layers
        have foreign : (fanoutTarget senderId sender vssrc rid isKey p clk state t).passed.filter
            (·.1 = q) = state.passed.filter (·.1 = q) := by
          rw [passed, List.filter_append]
          simp [List.filter_eq_nil_iff, Ne.symm here]
        rw [layers, foreign, same] at turn
        rw [layers, foreign, same] at idle
        have member : q ∈ t :: targets ↔ q ∈ targets := by simp [here]
        rw [member]
        exact ⟨turn, idle⟩
    · rw [Bool.not_eq_true] at ready
      rw [fanoutTarget_unready senderId sender vssrc rid isKey p clk ready]
      obtain ⟨turn, idle⟩ := ih once state
      by_cases here : q = t
      · subst here
        refine ⟨fun both => ?_, fun _ => idle fun later => apart later.1⟩
        rw [ready] at both
        simp at both
      · have member : q ∈ t :: targets ↔ q ∈ targets := by simp [here]
        rw [member]
        exact ⟨turn, idle⟩

theorem fanoutAll_shows {α : Type} {view : ParticipantState → α} (blind : LayerBlind view)
    (targets : List Ptr) (state : LayerFanout) : Shows view state.heap
      (targets.foldl (fanoutTarget senderId sender vssrc rid isKey p clk) state).heap :=
  Shows.fold (·.heap) (fanoutTarget_shows senderId sender vssrc rid isKey p clk blind) targets state

end Fanout

section Simulcast
variable (room : Room) (heap : Heap) (senderId : UserId) (sender : Ptr) (hdr : RtpHeader)
  (p : Bytes) (draw : NonzeroSsrc) (clk : Nat → Instant)

/-- The layer that a source SSRC of the sender belongs to. -/
def sourceRid (s : ParticipantState) (ssrc : UInt32) : Option String :=
  (s.findTrack ssrc).bind (·.rid)

theorem fanoutSimulcast_untagged (untagged : sourceRid (heap sender) hdr.ssrc = none) :
    fanoutSimulcastVideo room heap senderId sender hdr p draw clk = (heap, []) := by
  have none_ : ((heap sender).findTrack hdr.ssrc).bind (·.rid) = none := untagged
  simp only [fanoutSimulcastVideo, none_]

/-- Whatever else the fan-out changes, it draws the sender's virtual SSRC. -/
theorem fanoutSimulcast_shows {α : Type} {view : ParticipantState → α} (blind : LayerBlind view)
    {rid : String} (tagged : sourceRid (heap sender) hdr.ssrc = some rid) :
    Shows view (mutate heap sender fun s => (s.ensureSimulcastVideoSsrc draw).1)
      (fanoutSimulcastVideo room heap senderId sender hdr p draw clk).1 := by
  have some_ : ((heap sender).findTrack hdr.ssrc).bind (·.rid) = some rid := tagged
  simp only [fanoutSimulcastVideo, some_]
  exact fanoutAll_shows senderId sender _ rid (isKeyframe hdr p) p clk blind
    (room.otherParticipants senderId) ⟨_, 0, false, []⟩

theorem fanoutSimulcast_vssrc {rid : String} (tagged : sourceRid (heap sender) hdr.ssrc = some rid)
    (q : Ptr) :
    ((fanoutSimulcastVideo room heap senderId sender hdr p draw clk).1 q).simulcastVideoSsrc =
      (mutate heap sender (fun s => (s.ensureSimulcastVideoSsrc draw).1) q).simulcastVideoSsrc :=
  fanoutSimulcast_shows room heap senderId sender hdr p draw clk vssrc_blind tagged q

/-- A layer packet, as one participant sees it. -/
theorem fanoutSimulcast_spec (once : Injective room.participants) {rid : String}
    (tagged : sourceRid (heap sender) hdr.ssrc = some rid) (q : Ptr) :
    let done := fanoutSimulcastVideo room heap senderId sender hdr p draw clk
    let vssrc := ((heap sender).ensureSimulcastVideoSsrc draw).2
    (q ∈ room.otherParticipants senderId ∧ (heap q).isSubscribeReady = true → ∃ checked marked,
      let pass := passLayer ((heap q).subscribeLayers.lookup senderId) vssrc rid
        (isKeyframe hdr p) p checked marked
      (done.1 q).subscribeLayers = (heap q).subscribeLayers.insert senderId pass.1 ∧
        done.2.filter (·.1 = q) = pass.2.1.toList.map fun out => (q, out)) ∧
    (¬(q ∈ room.otherParticipants senderId ∧ (heap q).isSubscribeReady = true) →
      (done.1 q).subscribeLayers = (heap q).subscribeLayers ∧ done.2.filter (·.1 = q) = []) := by
  have some_ : ((heap sender).findTrack hdr.ssrc).bind (·.rid) = some rid := tagged
  have drawn : ∀ {α : Type} {view : ParticipantState → α},
      (∀ s vssrc, view { s with simulcastVideoSsrc := vssrc } = view s) →
      view (mutate heap sender (fun _ => ((heap sender).ensureSimulcastVideoSsrc draw).1) q) =
        view (heap q) := fun hidden => Shows.mutate (view_ensure hidden _ _) q
  have layers := @drawn _ (·.subscribeLayers) fun _ _ => rfl
  have ready := @drawn _ (·.isSubscribeReady) fun _ _ => rfl
  simp only [fanoutSimulcastVideo, some_]
  have spec := fanoutAll_spec senderId sender ((heap sender).ensureSimulcastVideoSsrc draw).2 rid
    (isKeyframe hdr p) p clk (otherParticipants_nodup once senderId)
    ⟨mutate heap sender fun _ => ((heap sender).ensureSimulcastVideoSsrc draw).1, 0, false, []⟩ q
  simp only [layers, ready, List.filter_nil, List.nil_append] at spec
  exact spec

/-- What the fan-out of a layer packet hands on. -/
theorem fanout_layer {hub : RoomHub} {r : RoomId} {o : Oracle} {source : Bytes} {f : Forward}
    (once : Injective room.participants) (layered : (room.simulcastEnabled && SfuConfig.isVideoPt hdr.pt) = true)
    (handed : f ∈ (fanout hub r room senderId sender hdr source p o).2) :
    ∃ rid t checked marked, sourceRid (hub.heap sender) hdr.ssrc = some rid ∧
      t ∈ room.otherParticipants senderId ∧ (hub.heap t).isSubscribeReady = true ∧
      f = ⟨r, sender, source, f.out, [t]⟩ ∧
      (passLayer ((hub.heap t).subscribeLayers.lookup senderId)
        ((hub.heap sender).ensureSimulcastVideoSsrc (o.vssrc sender)).2 rid (isKeyframe hdr p) p
        checked marked).2.1 = some f.out := by
  simp only [fanout, layered, if_true, List.mem_map] at handed
  obtain ⟨⟨t, buf⟩, passed, rfl⟩ := handed
  cases tagged : sourceRid (hub.heap sender) hdr.ssrc with
  | none =>
    rw [fanoutSimulcast_untagged room hub.heap senderId sender hdr p _ _ tagged] at passed
    simp at passed
  | some rid =>
    obtain ⟨turn, idle⟩ := fanoutSimulcast_spec room hub.heap senderId sender hdr p
      (o.vssrc sender) (fun n => o.clk (n + 1)) once tagged t
    have own : (t, buf) ∈ (fanoutSimulcastVideo room hub.heap senderId sender hdr p
        (o.vssrc sender) fun n => o.clk (n + 1)).2.filter (·.1 = t) :=
      List.mem_filter.mpr ⟨passed, by simp⟩
    by_cases target : t ∈ room.otherParticipants senderId ∧ (hub.heap t).isSubscribeReady = true
    · obtain ⟨checked, marked, _, handed⟩ := turn target
      refine ⟨rid, t, checked, marked, rfl, target.1, target.2, rfl, ?_⟩
      rw [handed, List.mem_map] at own
      obtain ⟨out, there, same⟩ := own
      rw [Prod.mk.injEq] at same
      rw [← same.2]
      exact Option.mem_toList.mp there
    · rw [(idle target).2] at own
      simp at own

end Simulcast

section Selection
variable (room : Room) (subscriber : Ptr) (draws : Ptr → NonzeroSsrc) (now : Instant) (heap : Heap)
  (target : SubscribeLayerTarget)

theorem subscribeTarget_absent (absent : room.getParticipant target.userId = none) :
    subscribeTarget room subscriber draws now heap target = heap := by
  simp only [subscribeTarget, absent]

/-- The entry that a request leaves behind. -/
def chosen (publisher : Ptr) : SubscribeLayerEntry :=
  (selectLayer ((heap subscriber).subscribeLayers.lookup target.userId) target.rid
    ((heap publisher).ensureSimulcastVideoSsrc (draws publisher)).2 now).1

theorem subscribeTarget_shows {α : Type} {view : ParticipantState → α} (blind : LayerBlind view)
    {publisher : Ptr} (found : room.getParticipant target.userId = some publisher) :
    Shows view (mutate heap publisher fun s => (s.ensureSimulcastVideoSsrc (draws publisher)).1)
      (subscribeTarget room subscriber draws now heap target) := by
  simp only [subscribeTarget, found]
  split
  · exact (Shows.mutate (blind.layers _ _)).trans
      (.mutate (view_requestKeyframe blind.burst _ _ _))
  · exact .mutate (blind.layers _ _)

/-- What the draw does not show either, no part of a request shows. -/
theorem subscribeTarget_untouched {α : Type} {view : ParticipantState → α} (blind : LayerBlind view)
    (drawn : ∀ s draw, view (ParticipantState.ensureSimulcastVideoSsrc s draw).1 = view s) :
    Shows view heap (subscribeTarget room subscriber draws now heap target) := by
  cases found : room.getParticipant target.userId with
  | none =>
    rw [subscribeTarget_absent room subscriber draws now heap target found]
    exact .refl view heap
  | some publisher =>
    exact (Shows.mutate (drawn _ _)).trans
      (subscribeTarget_shows room subscriber draws now heap target blind found)

theorem subscribeTarget_vssrc {publisher : Ptr}
    (found : room.getParticipant target.userId = some publisher) (q : Ptr) :
    (subscribeTarget room subscriber draws now heap target q).simulcastVideoSsrc =
      (mutate heap publisher (fun s => (s.ensureSimulcastVideoSsrc (draws publisher)).1)
        q).simulcastVideoSsrc :=
  subscribeTarget_shows room subscriber draws now heap target vssrc_blind found q

theorem subscribeTarget_layers {publisher : Ptr}
    (found : room.getParticipant target.userId = some publisher) (q : Ptr) :
    (subscribeTarget room subscriber draws now heap target q).subscribeLayers =
      if q = subscriber then (heap q).subscribeLayers.insert target.userId
        (chosen subscriber draws now heap target publisher) else (heap q).subscribeLayers := by
  have drawn : ∀ x, (mutate heap publisher (fun _ =>
      ((heap publisher).ensureSimulcastVideoSsrc (draws publisher)).1) x).subscribeLayers =
        (heap x).subscribeLayers := fun x =>
    Shows.mutate (view_ensure (fun _ _ => rfl) _ _) x
  simp only [subscribeTarget, found, chosen]
  rw [← drawn subscriber, ← drawn q]
  split
  · exact (Shows.mutate (requestKeyframe_layers _ _ _) q).trans (insertLayer_at _ _ _ _ q)
  · exact insertLayer_at _ _ _ _ q

end Selection
end LayerFrames
