import OxlensSfu.SenderReports
import Mathlib.Logic.Relation

/-
A participant on its own: what the handlers do to its state, one thing at a time. The egress
task that takes from the queue and the flush of the metrics are left to the server.
-/
namespace ParticipantMoves
open WireBytes SfuConfig RtpPacket Participants Signaling RoomHandlers TrackHandlers Ingress
open MediaFrames
open FloorControl (UserId)
open KeyedMap (Table)

inductive Move (s : ParticipantState) : ParticipantState → Prop
  | touched (ts : Nat) : Move s (s.touch ts)
  | latched (pc : PcType) (addr : SocketAddr) : Move s (s.latchAddress pc addr)
  | keyed (pc : PcType) : Move s (s.installSrtpKeys pc)
  | queued (pkt : EgressPacket) (ready : s.isSubscribeReady = true) : Move s (s.trySend pkt)
  | resent (pkt : EgressPacket) (ready : s.isSubscribeReady = true)
      (within : s.rtxBudgetUsed < rtxBudgetPer3s) :
      Move s ({ s with rtxBudgetUsed := s.rtxBudgetUsed + 1 }.trySend pkt)
  | withheld (spent : rtxBudgetPer3s ≤ s.rtxBudgetUsed) :
      Move s { s with rtxBudgetUsed := s.rtxBudgetUsed + 1 }
  | asked (ssrc : Option UInt32) (delays : List Nat) (few : delays.length ≤ 4) :
      Move s (s.requestKeyframe ssrc delays)
  | cancelled : Move s s.cancelPliBurst
  | received (hdr : RtpHeader) (p : Bytes) : Move s (detectGap (collectRtpStats s hdr p) hdr)
  | drawn (draw : NonzeroSsrc) : Move s (s.ensureSimulcastVideoSsrc draw).1
  | selected (layers : Table UserId SubscribeLayerEntry) : Move s { s with subscribeLayers := layers }
  | numbered : Move s s.nextRtxSeq.1
  | silenced (until_ : Nat) : Move s { s with nackSuppressUntilMs := until_ }
  | published (u : UserId) (req : PublishTracksRequest) : Move s (publishAll s u req).state

/-- Any number of moves. -/
abbrev Evolves : ParticipantState → ParticipantState → Prop := Relation.ReflTransGen Move

section Rules
variable {s t : ParticipantState} {α : Type} {view : ParticipantState → α}

/-- What every move keeps is kept. -/
theorem Evolves.keeps {inv : ParticipantState → Prop} (each : ∀ {s t}, Move s t → inv s → inv t)
    (evolves : Evolves s t) (start : inv s) : inv t := by
  induction evolves with
  | refl => exact start
  | tail _ move ih => exact each move ih

/-- A relation that every move is in, and that is reflexive and transitive. -/
theorem Evolves.within {rel : ParticipantState → ParticipantState → Prop} (refl : ∀ s, rel s s)
    (trans : ∀ {s t u}, rel s t → rel t u → rel s u) (each : ∀ {s t}, Move s t → rel s t)
    (evolves : Evolves s t) : rel s t := by
  induction evolves with
  | refl => exact refl s
  | tail _ move ih => exact trans ih (each move)

/-- What the media path and the registration of tracks do not touch, a move that is none of
    the sessions', the queue's or the budget's does not touch. -/
theorem Move.view_received (stored : ∀ s cache, view { s with rtpCache := cache } = view s)
    (burst : ∀ s burst, view { s with pliBurst := burst } = view s)
    (noted : ∀ s seen until_,
      view { s with lastVideoRtpMs := seen, rtpGapSuppressUntilMs := until_ } = view s)
    (drawn : ∀ s vssrc, view { s with simulcastVideoSsrc := vssrc } = view s)
    (layers : ∀ s layers, view { s with subscribeLayers := layers } = view s)
    (hdr : RtpHeader) (p : Bytes) : view (detectGap (collectRtpStats s hdr p) hdr) = view s := by
  have blind : MediaBlind view := ⟨view_requestKeyframe burst, view_ensure drawn, layers⟩
  exact (view_detectGap blind noted _ hdr).trans (view_collectRtpStats stored s hdr p)

end Rules

/-- The addresses and the keys of the sessions, the queue and the budget. -/
def outlet (s : ParticipantState) : SessionState × List EgressPacket × Nat :=
  (s.subscribe, s.egress, s.rtxBudgetUsed)

section Outlet
variable {s t : ParticipantState}

/-- Of the outlet of a participant a move changes what its name says, and nothing else. -/
inductive OutletMove (s t : ParticipantState) : Prop
  | kept (same : outlet t = outlet s)
  | session (ready : s.isSubscribeReady = true → t.isSubscribeReady = true)
      (egress : t.egress = s.egress) (budget : t.rtxBudgetUsed = s.rtxBudgetUsed)
  | queued (pkt : EgressPacket) (ready : s.isSubscribeReady = true) (same : t = s.trySend pkt)
  | resent (pkt : EgressPacket) (ready : s.isSubscribeReady = true)
      (within : s.rtxBudgetUsed < rtxBudgetPer3s)
      (same : t = { s with rtxBudgetUsed := s.rtxBudgetUsed + 1 }.trySend pkt)
  | withheld (same : t = { s with rtxBudgetUsed := s.rtxBudgetUsed + 1 })

theorem Move.outlet (move : Move s t) : OutletMove s t := by
  cases move with
  | touched ts => exact .kept rfl
  | latched pc addr => cases pc with
    | publish => exact .kept rfl
    | subscribe => exact .session id rfl rfl
  | keyed pc => cases pc with
    | publish => exact .kept rfl
    | subscribe => exact .session (fun _ => rfl) rfl rfl
  | queued pkt ready => exact .queued pkt ready rfl
  | resent pkt ready within => exact .resent pkt ready within rfl
  | withheld spent => exact .withheld rfl
  | asked ssrc delays few => exact .kept (view_requestKeyframe (fun _ _ => rfl) s ssrc delays)
  | cancelled => exact .kept rfl
  | received hdr p =>
    exact .kept (Move.view_received (fun _ _ => rfl) (fun _ _ => rfl) (fun _ _ _ => rfl)
      (fun _ _ => rfl) (fun _ _ => rfl) hdr p)
  | drawn draw => exact .kept (view_ensure (fun _ _ => rfl) s draw)
  | selected layers => exact .kept rfl
  | numbered => exact .kept rfl
  | silenced until_ => exact .kept rfl
  | published u req => exact .kept (view_publishAll (fun _ _ _ => rfl) (fun _ _ => rfl) s req)

theorem Evolves.ready (evolves : Evolves s t) (ready : s.isSubscribeReady = true) :
    t.isSubscribeReady = true := by
  refine @Evolves.keeps s t (fun s => s.isSubscribeReady = true) (fun {s t} move ready => ?_)
    evolves ready
  cases move.outlet with
  | kept same => exact (congrArg (·.1.ready) same).trans ready
  | session still _ _ => exact still ready
  | queued pkt _ same =>
    rw [same]
    exact (view_trySend (fun _ _ => rfl) s pkt).trans ready
  | resent pkt _ _ same =>
    rw [same]
    exact (view_trySend (fun _ _ => rfl) _ pkt).trans ready
  | withheld same =>
    rw [same]
    exact ready

/-- The queue grows at its end, up to its size and for a subscriber that is ready, and the
    budget is never given back. -/
structure Fills (s t : ParticipantState) : Prop where
  appends : s.egress <+: t.egress
  bounded : s.egress.length ≤ egressQueueSize → t.egress.length ≤ egressQueueSize
  ready : (s.egress ≠ [] → s.isSubscribeReady = true) → t.egress ≠ [] → t.isSubscribeReady = true
  spends : s.rtxBudgetUsed ≤ t.rtxBudgetUsed

theorem Fills.refl (s : ParticipantState) : Fills s s :=
  ⟨List.prefix_refl _, id, id, Nat.le_refl _⟩

theorem Fills.trans {u : ParticipantState} (first : Fills s t) (second : Fills t u) : Fills s u where
  appends := first.appends.trans second.appends
  bounded within := second.bounded (first.bounded within)
  ready only := second.ready (first.ready only)
  spends := Nat.le_trans first.spends second.spends

theorem trySend_fills (pkt : EgressPacket) (ready : s.isSubscribeReady = true) :
    Fills s (s.trySend pkt) := by
  have still : (s.trySend pkt).isSubscribeReady = true :=
    (view_trySend (fun _ _ => rfl) s pkt).trans ready
  have spent : (s.trySend pkt).rtxBudgetUsed = s.rtxBudgetUsed :=
    view_trySend (fun _ _ => rfl) s pkt
  refine ⟨?_, fun within => ?_, fun _ _ => still, Nat.le_of_eq spent.symm⟩
  · unfold ParticipantState.trySend
    split
    · exact List.prefix_append _ _
    · exact List.prefix_refl _
  · unfold ParticipantState.trySend
    split
    · rename_i space
      rw [List.length_append]
      exact space
    · exact within

theorem fills_of_egress (egress : t.egress = s.egress)
    (still : s.isSubscribeReady = true → t.isSubscribeReady = true)
    (spends : s.rtxBudgetUsed ≤ t.rtxBudgetUsed) : Fills s t where
  appends := egress ▸ List.prefix_refl _
  bounded within := egress ▸ within
  ready only waits := still (only (egress ▸ waits))
  spends := spends

theorem Move.fills (move : Move s t) : Fills s t := by
  have counted : Fills s { s with rtxBudgetUsed := s.rtxBudgetUsed + 1 } :=
    fills_of_egress rfl id (Nat.le_succ _)
  cases move.outlet with
  | kept same =>
    simp only [ParticipantMoves.outlet, Prod.mk.injEq] at same
    obtain ⟨session, egress, budget⟩ := same
    exact fills_of_egress egress (fun ready => (congrArg SessionState.ready session).trans ready)
      (Nat.le_of_eq budget.symm)
  | session still egress budget => exact fills_of_egress egress still (Nat.le_of_eq budget.symm)
  | queued pkt ready same =>
    rw [same]
    exact trySend_fills pkt ready
  | resent pkt ready _ same =>
    rw [same]
    exact counted.trans (trySend_fills pkt ready)
  | withheld same =>
    rw [same]
    exact counted

theorem Evolves.fills (evolves : Evolves s t) : Fills s t :=
  evolves.within Fills.refl Fills.trans Move.fills

end Outlet
end ParticipantMoves
