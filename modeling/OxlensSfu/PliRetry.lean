import OxlensSfu.LayerGating
import OxlensSfu.TrackLists

/-
Keyframe requests of the simulcast fan-out. Beside the heap runs a note of when a PLI was
last requested on behalf of each subscriber, by a SUBSCRIBE_LAYER or by the fan-out.
-/
namespace PliRetry
open WireBytes RtpPacket KeyedMap Participants RoomHubs RoomHub Signaling
open RoomHandlers TrackHandlers Ingress Servers Membership Catalog LayerFrames LayerNumbering
open TrackLists GuardedRun
open FloorControl (UserId)
open PttRewriter (Instant)

/-- When a PLI was last requested on behalf of each subscriber. -/
abbrev Asked := Ptr → Option Instant

/-- The subscriber selected the layer and gets nothing of it before a keyframe. -/
structure Awaits (e : SubscribeLayerEntry) (rid : String) (isKey : Bool) (p : Bytes) : Prop where
  selected : e.rid = rid
  playing : rid ≠ "pause"
  whole : 12 ≤ p.length
  waiting : e.rewriter.initialized = false ∨ e.rewriter.pendingKeyframe = true
  delta : isKey = false

/-- Two seconds since the last request on its behalf, or none yet. -/
def Overdue (asked : Option Instant) (now : Instant) : Prop :=
  ∀ sent, asked = some sent → 2000000000 ≤ now - sent

/-- The turn of a subscriber with this entry asks the publisher for a keyframe. -/
def Asks (old : Option SubscribeLayerEntry) (rid : String) (isKey : Bool) (p : Bytes)
    (checked : Instant) : Prop :=
  ∀ e, old = some e → e.rid = rid ∧ rid ≠ "pause" ∧ ¬ Passes e.rewriter p isKey ∧
    e.rewriter.needsPliRetry checked = true

section Turn
variable {old : Option SubscribeLayerEntry} {vssrc : UInt32} {rid : String} {isKey : Bool}
  {p : Bytes} {checked marked : Instant}

theorem Awaits.drops {e : SubscribeLayerEntry} (awaits : Awaits e rid isKey p) :
    ¬ Passes e.rewriter p isKey := by
  intro passes
  have key := passes.2 awaits.waiting
  rw [awaits.delta] at key
  cases key

theorem anchor_pliSentAt (r : SimulcastRewriter) (seq : UInt16) (ts : UInt32) :
    (r.anchor seq ts).pliSentAt = r.pliSentAt := by
  unfold SimulcastRewriter.anchor
  split
  · rfl
  · split <;> rfl

theorem rewrite_pliSentAt (r : SimulcastRewriter) :
    (r.rewrite p isKey).1.pliSentAt = r.pliSentAt := by
  by_cases passes : Passes r p isKey
  · obtain ⟨out, written, _⟩ := rewrite_passes passes
    rw [written]
    exact anchor_pliSentAt r _ _
  · rw [rewrite_drops passes]

theorem passLayer_asks :
    (passLayer old vssrc rid isKey p checked marked).2.2 = true ↔ Asks old rid isKey p checked := by
  unfold passLayer Asks
  cases old with
  | none =>
    simp only [Option.getD_none, Option.isNone_none, Bool.true_or, reduceCtorEq, false_implies,
      implies_true, iff_true]
    split <;> rfl
  | some e =>
    simp only [Option.getD_some, Option.isNone_some, Bool.false_or, Option.some.injEq,
      forall_eq']
    by_cases stops : e.rid = "pause" ∨ rid ≠ e.rid
    · rw [if_pos stops]
      simp only [Bool.false_eq_true, false_iff]
      rintro ⟨rfl, playing, _⟩
      rcases stops with paused | other
      · exact playing paused
      · exact other rfl
    · rw [if_neg stops]
      simp only [not_or, not_not] at stops
      obtain ⟨playing, rfl⟩ := stops
      by_cases passes : Passes e.rewriter p isKey
      · obtain ⟨out, written, _⟩ := rewrite_passes passes
        simp [written, passes]
      · simp [rewrite_drops passes, passes, playing]

/-- What the mark of an entry has to do with the note: a request that created the entry
    without a turn of the rewriter is noted but not marked. -/
def Marked : Option SubscribeLayerEntry → Option Instant → Prop
  | none, asked => asked = none
  | some e, asked => e.rewriter.pliSentAt = none ∨ e.rewriter.pliSentAt = asked

theorem Marked.overdue {e : SubscribeLayerEntry} {asked : Option Instant}
    (marks : Marked (some e) asked) (overdue : Overdue asked checked)
    (fresh : e.rewriter.initialized = false) : e.rewriter.needsPliRetry checked = true := by
  unfold SimulcastRewriter.needsPliRetry
  rw [fresh]
  simp only [Bool.false_eq_true, if_false]
  rcases marks with unmarked | same
  · rw [unmarked]
  · cases sent : e.rewriter.pliSentAt with
    | none => rfl
    | some reading =>
      rw [sent] at same
      exact decide_eq_true (overdue reading same.symm)

/-- A turn of the fan-out: an asked-for keyframe is noted with the reading that marks it. -/
theorem passLayer_marked {asked : Option Instant} (marks : Marked old asked) :
    let pass := passLayer old vssrc rid isKey p checked marked
    Marked (some pass.1) (if pass.2.2 then some marked else asked) := by
  intro pass
  cases old with
  | none =>
    have created : pass.2.2 = true := passLayer_asks.mpr fun e none_ => nomatch none_
    rw [if_pos created]
    simp only [pass, passLayer, Option.getD_none, Option.isNone_none, Bool.true_or, if_true]
    split
    · exact .inl rfl
    · exact .inr rfl
  | some e =>
    by_cases stops : e.rid = "pause" ∨ rid ≠ e.rid
    · have idle : pass = (e, none, false) := by
        simp only [pass, passLayer, Option.getD_some, Option.isNone_some, if_pos stops]
      rw [idle]
      exact marks
    · simp only [pass, passLayer, Option.getD_some, if_neg stops]
      split
      · exact .inr rfl
      · change (e.rewriter.rewrite p isKey).1.pliSentAt = none ∨
          (e.rewriter.rewrite p isKey).1.pliSentAt = asked
        rw [rewrite_pliSentAt]
        exact marks

/-- A selection that asks for a keyframe is noted with the reading that marks it. -/
theorem selectLayer_marked {asked : Option Instant} (marks : Marked old asked) (now : Instant) :
    let chosen := selectLayer old rid vssrc now
    Marked (some chosen.1) (if chosen.2 then some now else asked) := by
  intro chosen
  have kept : (old.getD ⟨rid, .new vssrc⟩).rewriter.pliSentAt = none ∨
      (old.getD ⟨rid, .new vssrc⟩).rewriter.pliSentAt = asked := by
    cases old with
    | none => exact .inl rfl
    | some e => exact marks
  simp only [chosen, selectLayer]
  split
  · split
    · exact .inr rfl
    · exact kept
  · split
    · exact .inr rfl
    · exact kept

end Turn

/-- The notes agree with the entries for one publisher. -/
def AllMarked (senderId : UserId) (heap : Heap) (asked : Asked) : Prop :=
  ∀ q, Marked ((heap q).subscribeLayers.lookup senderId) (asked q)

theorem AllMarked.layers {senderId : UserId} {heap next : Heap} {asked : Asked}
    (marks : AllMarked senderId heap asked) (same : Shows (·.subscribeLayers) heap next) :
    AllMarked senderId next asked := by
  intro q
  have layers : (next q).subscribeLayers = (heap q).subscribeLayers := same q
  rw [layers]
  exact marks q

section Fanout
variable (senderId : UserId) (sender : Ptr) (vssrc : UInt32) (rid : String) (isKey : Bool)
  (p : Bytes) (clk : Nat → Instant)

/-- One round of the fan-out with the note beside it. -/
def noteTurn (noted : LayerFanout × Asked) (target : Ptr) : LayerFanout × Asked :=
  (fanoutTarget senderId sender vssrc rid isKey p clk noted.1 target,
    if (noted.1.heap target).isSubscribeReady &&
        (passAt senderId vssrc rid isKey p clk noted.1 target).2.2 then
      Function.update noted.2 target (some (clk (noted.1.reads + 1)))
    else noted.2)

theorem noteTurns_fanout (targets : List Ptr) (noted : LayerFanout × Asked) :
    (targets.foldl (noteTurn senderId sender vssrc rid isKey p clk) noted).1 =
      targets.foldl (fanoutTarget senderId sender vssrc rid isKey p clk) noted.1 := by
  induction targets generalizing noted with
  | nil => rfl
  | cons t targets ih => exact ih (noteTurn senderId sender vssrc rid isKey p clk noted t)

theorem noteTurn_marked (noted : LayerFanout × Asked) (target : Ptr)
    (marks : AllMarked senderId noted.1.heap noted.2) :
    let next := noteTurn senderId sender vssrc rid isKey p clk noted target
    AllMarked senderId next.1.heap next.2 := by
  intro next q
  by_cases ready : (noted.1.heap target).isSubscribeReady = true
  · have layers := fanoutTarget_layers senderId sender vssrc rid isKey p clk ready q
    have turn : Marked (some (passAt senderId vssrc rid isKey p clk noted.1 q).1)
        (if (passAt senderId vssrc rid isKey p clk noted.1 q).2.2 then
          some (clk (noted.1.reads + 1)) else noted.2 q) := passLayer_marked (marks q)
    simp only [next, noteTurn, ready, Bool.true_and]
    rw [layers]
    by_cases here : q = target
    · subst here
      rw [if_pos rfl, AList.lookup_insert]
      split at turn
      · rename_i asks
        rw [if_pos asks, Function.update_self]
        exact turn
      · rename_i silent
        rw [if_neg silent]
        exact turn
    · rw [if_neg here]
      split
      · rw [Function.update_of_ne here]
        exact marks q
      · exact marks q
  · simp only [next, noteTurn, ready, Bool.false_and, Bool.false_eq_true, if_false]
    rw [fanoutTarget_unready senderId sender vssrc rid isKey p clk (by simpa using ready)]
    exact marks q

theorem noteTurns_marked (targets : List Ptr) (noted : LayerFanout × Asked)
    (marks : AllMarked senderId noted.1.heap noted.2) :
    let done := targets.foldl (noteTurn senderId sender vssrc rid isKey p clk) noted
    AllMarked senderId done.1.heap done.2 := by
  induction targets generalizing noted with
  | nil => exact marks
  | cons t targets ih =>
    exact ih _ (noteTurn_marked senderId sender vssrc rid isKey p clk noted t marks)

/-- The publisher can be asked for keyframes of its high layer. -/
structure Askable (s : ParticipantState) (addr : SocketAddr) (high : UInt32) : Prop where
  ready : s.isPublishReady = true
  latched : s.publish.address = some addr
  track : s.layerSsrc "h" = some high

theorem Askable.of_shows {h next : Heap} {addr : SocketAddr} {high : UInt32}
    (askable : Askable (h sender) addr high)
    (same : Shows (fun s => (s.publish, s.tracks)) h next) : Askable (next sender) addr high := by
  have fields := same sender
  simp only [Prod.mk.injEq] at fields
  obtain ⟨publish, tracks⟩ := fields
  refine ⟨?_, ?_, ?_⟩
  · rw [ParticipantState.isPublishReady, publish]
    exact askable.ready
  · rw [publish]
    exact askable.latched
  · rw [ParticipantState.layerSsrc, tracks]
    exact askable.track

theorem Askable.burst {s : ParticipantState} {addr : SocketAddr} {high : UInt32}
    (askable : Askable s addr high) :
    (s.requestKeyframe (s.layerSsrc "h") simulcastBurst).pliBurst =
      some ⟨high, addr, simulcastBurst⟩ := by
  simp only [ParticipantState.requestKeyframe, askable.track, askable.latched, askable.ready, if_true]
  rfl

/-- One round for a ready target. -/
theorem fanoutTarget_burst {state : LayerFanout} {target : Ptr} (apart : target ≠ sender)
    (ready : (state.heap target).isSubscribeReady = true) {addr : SocketAddr} {high : UInt32}
    (askable : Askable (state.heap sender) addr high) :
    let next := fanoutTarget senderId sender vssrc rid isKey p clk state target
    let asks := (passAt senderId vssrc rid isKey p clk state target).2.2
    next.reads = state.reads + 2 ∧ next.pliSent = (state.pliSent || asks) ∧
      (next.heap sender).pliBurst = if asks && !state.pliSent then
        some ⟨high, addr, simulcastBurst⟩ else (state.heap sender).pliBurst := by
  intro next asks
  let kept := mutate state.heap target fun s =>
    { s with
      subscribeLayers := s.subscribeLayers.insert senderId
        (passAt senderId vssrc rid isKey p clk state target).1 }
  have unmoved : kept sender = state.heap sender := mutate_ne _ (Ne.symm apart)
  have burst : ((if asks && !state.pliSent then
      mutate kept sender fun s => s.requestKeyframe (s.layerSsrc "h") simulcastBurst
      else kept) sender).pliBurst = if asks && !state.pliSent then
        some ⟨high, addr, simulcastBurst⟩ else (state.heap sender).pliBurst := by
    split
    · rw [mutate_self, unmoved]
      exact askable.burst
    · rw [unmoved]
  simp only [next, fanoutTarget, ready, Bool.not_true, Bool.false_eq_true, if_false]
  split
  · exact ⟨rfl, rfl,
      (congrArg ParticipantState.pliBurst (mutate_ne _ (Ne.symm apart))).trans burst⟩
  · exact ⟨rfl, rfl, burst⟩

/-- Somebody among the ready targets asks for a keyframe in its turn. -/
def AnyAsks (heap : Heap) (ready : List Ptr) (n : Nat) : Prop :=
  ∃ i q, ready[i]? = some q ∧
    Asks ((heap q).subscribeLayers.lookup senderId) rid isKey p (clk (2 * (n + i)))

theorem anyAsks_cons (heap : Heap) (t : Ptr) (ready : List Ptr) (n : Nat) :
    AnyAsks senderId rid isKey p clk heap (t :: ready) n ↔
      Asks ((heap t).subscribeLayers.lookup senderId) rid isKey p (clk (2 * n)) ∨
        AnyAsks senderId rid isKey p clk heap ready (n + 1) := by
  constructor
  · rintro ⟨i, q, listed, asks⟩
    cases i with
    | zero =>
      obtain rfl : t = q := by simpa using listed
      exact .inl asks
    | succ i =>
      refine .inr ⟨i, q, by simpa using listed, ?_⟩
      rw [show n + 1 + i = n + (i + 1) by omega]
      exact asks
  · rintro (asks | ⟨i, q, listed, asks⟩)
    · exact ⟨0, t, rfl, asks⟩
    · refine ⟨i + 1, q, by simpa using listed, ?_⟩
      rw [show n + (i + 1) = n + 1 + i by omega]
      exact asks

theorem anyAsks_congr {heap next : Heap} {ready : List Ptr} (n : Nat)
    (same : ∀ q ∈ ready, (next q).subscribeLayers = (heap q).subscribeLayers) :
    AnyAsks senderId rid isKey p clk next ready n ↔ AnyAsks senderId rid isKey p clk heap ready n := by
  refine exists_congr fun i => exists_congr fun q => and_congr_right fun listed => ?_
  rw [same q (List.mem_of_getElem? listed)]

/-- Who asks in a later turn does not depend on the turn of somebody else. -/
theorem anyAsks_later {state : LayerFanout} {t : Ptr} {targets : List Ptr} (fresh : t ∉ targets)
    (ready : (state.heap t).isSubscribeReady = true) (n : Nat) :
    let next := fanoutTarget senderId sender vssrc rid isKey p clk state t
    AnyAsks senderId rid isKey p clk next.heap
        (targets.filter fun t => (next.heap t).isSubscribeReady) n ↔
      AnyAsks senderId rid isKey p clk state.heap
        (targets.filter fun t => (state.heap t).isSubscribeReady) n := by
  intro next
  have lines : Shows (·.isSubscribeReady) state.heap next.heap :=
    fanoutTarget_shows senderId sender vssrc rid isKey p clk
      ⟨fun _ _ => rfl, fun _ _ => rfl, fun _ _ => rfl⟩ state t
  have flags : (fun t => (next.heap t).isSubscribeReady) =
      fun t => (state.heap t).isSubscribeReady := funext lines
  rw [flags]
  apply anyAsks_congr
  intro q listed
  have same := fanoutTarget_layers senderId sender vssrc rid isKey p clk ready q
  have elsewhere : q ≠ t := by
    rintro rfl
    exact fresh (List.mem_of_mem_filter listed)
  rwa [if_neg elsewhere] at same

/-- The loop requests one burst, for the high layer, exactly when somebody asks. -/
theorem fanoutAll_burst {targets : List Ptr} (once : targets.Nodup) (apart : sender ∉ targets)
    {state : LayerFanout} {n : Nat} (reads : state.reads = 2 * n) {addr : SocketAddr}
    {high : UInt32} (askable : Askable (state.heap sender) addr high) :
    let done := targets.foldl (fanoutTarget senderId sender vssrc rid isKey p clk) state
    let asked := AnyAsks senderId rid isKey p clk state.heap
      (targets.filter fun t => (state.heap t).isSubscribeReady) n
    (asked → state.pliSent = false →
      (done.heap sender).pliBurst = some ⟨high, addr, simulcastBurst⟩) ∧
    (¬ asked ∨ state.pliSent = true →
      (done.heap sender).pliBurst = (state.heap sender).pliBurst) := by
  induction targets generalizing state n with
  | nil =>
    refine ⟨?_, fun _ => rfl⟩
    rintro ⟨i, q, listed, _⟩
    simp at listed
  | cons t targets ih =>
    obtain ⟨fresh, once⟩ := List.nodup_cons.mp once
    rw [List.mem_cons, not_or] at apart
    obtain ⟨other, apart⟩ := apart
    rw [List.foldl_cons]
    by_cases ready : (state.heap t).isSubscribeReady = true
    · let next := fanoutTarget senderId sender vssrc rid isKey p clk state t
      obtain ⟨nextReads, nextSent, nextBurst⟩ :=
        fanoutTarget_burst senderId sender vssrc rid isKey p clk (Ne.symm other) ready askable
      have shown : Shows (fun s => (s.publish, s.tracks)) state.heap next.heap :=
        fanoutTarget_shows senderId sender vssrc rid isKey p clk
          ⟨fun _ _ => rfl, fun _ _ => rfl, fun _ _ => rfl⟩ state t
      have advanced : next.reads = 2 * (n + 1) := by
        rw [nextReads, reads]
        omega
      obtain ⟨burst, quiet⟩ := ih once apart advanced (askable.of_shows sender shown)
      have later : AnyAsks senderId rid isKey p clk next.heap
          (targets.filter fun t => (next.heap t).isSubscribeReady) (n + 1) ↔ _ :=
        anyAsks_later senderId sender vssrc rid isKey p clk fresh ready (n + 1)
      rw [later, nextSent] at burst quiet
      have turn : (passAt senderId vssrc rid isKey p clk state t).2.2 = true ↔
          Asks ((state.heap t).subscribeLayers.lookup senderId) rid isKey p (clk (2 * n)) := by
        rw [passAt, passLayer_asks, reads]
      have listing : (t :: targets).filter (fun t => (state.heap t).isSubscribeReady) =
          t :: targets.filter fun t => (state.heap t).isSubscribeReady :=
        List.filter_cons_of_pos ready
      simp only [listing, anyAsks_cons, ← turn]
      rw [nextBurst] at quiet
      cases asks : (passAt senderId vssrc rid isKey p clk state t).2.2 with
      | true =>
        simp only [asks, Bool.or_true, Bool.true_and, or_true, forall_true_left] at quiet
        refine ⟨fun _ unsent => ?_, fun settled => ?_⟩
        · rw [unsent] at quiet
          exact quiet
        · obtain sent : state.pliSent = true := by simpa using settled
          rw [sent] at quiet
          exact quiet
      | false =>
        simp only [asks, Bool.or_false, Bool.false_and, Bool.false_eq_true, if_false] at burst quiet
        simp only [Bool.false_eq_true, false_or]
        exact ⟨burst, quiet⟩
    · have listing : (t :: targets).filter (fun t => (state.heap t).isSubscribeReady) =
          targets.filter fun t => (state.heap t).isSubscribeReady := List.filter_cons_of_neg ready
      rw [Bool.not_eq_true] at ready
      rw [fanoutTarget_unready senderId sender vssrc rid isKey p clk ready, listing]
      exact ih once apart reads askable

end Fanout

/-- The hub with the notes on the subscribers of one publisher. -/
structure Stage where
  hub : RoomHub
  asked : Asked

/-- `subscribeLayer` comes from any session, `packet` from the publisher. -/
inductive LayerOp where
  | subscribeLayer (session : Session) (pid : Nat) (userId : UserId)
      (targets : Option (List SubscribeLayerTarget)) (draws : Ptr → NonzeroSsrc) (now : Instant)
  | packet (hdr : RtpHeader) (p : Bytes) (draw : NonzeroSsrc) (clk : Nat → Instant)

section Stage
variable (r : RoomId) (room : Room) (senderId : UserId) (pub : Ptr)

/-- Whether a selection asks the publisher for a keyframe. -/
def selectAsks (subscriber : Ptr) (draws : Ptr → NonzeroSsrc) (now : Instant) (heap : Heap)
    (target : SubscribeLayerTarget) : Bool :=
  match room.getParticipant target.userId with
  | none => false
  | some publisher =>
    (selectLayer ((heap subscriber).subscribeLayers.lookup target.userId) target.rid
      ((heap publisher).ensureSimulcastVideoSsrc (draws publisher)).2 now).2

/-- One target of a message with the note beside it. -/
def noteSelection (subscriber : Ptr) (draws : Ptr → NonzeroSsrc) (now : Instant)
    (noted : Heap × Asked) (target : SubscribeLayerTarget) : Heap × Asked :=
  (subscribeTarget room subscriber draws now noted.1 target,
    if target.userId = senderId ∧ selectAsks room subscriber draws now noted.1 target = true then
      Function.update noted.2 subscriber (some now)
    else noted.2)

/-- The notes after a message, which its handler takes only from a participant of the room. -/
def noteMessage (s : Stage) (userId : UserId) (targets : Option (List SubscribeLayerTarget))
    (draws : Ptr → NonzeroSsrc) (now : Instant) : Asked :=
  match targets, room.getParticipant userId with
  | some targets, some subscriber =>
    (targets.foldl (noteSelection room senderId subscriber draws now) (s.hub.heap, s.asked)).2
  | _, _ => s.asked

def notePacket (s : Stage) (hdr : RtpHeader) (p : Bytes) (draw : NonzeroSsrc)
    (clk : Nat → Instant) : Asked :=
  match sourceRid (s.hub.heap pub) hdr.ssrc with
  | none => s.asked
  | some rid =>
    let (state, vssrc) := (s.hub.heap pub).ensureSimulcastVideoSsrc draw
    ((room.otherParticipants senderId).foldl
      (noteTurn senderId pub vssrc rid (isKeyframe hdr p) p clk)
      (⟨mutate s.hub.heap pub fun _ => state, 0, false, []⟩, s.asked)).2

/-- A session in another room has no business here. -/
def step (s : Stage) : LayerOp → Stage
  | .subscribeLayer session pid userId targets draws now =>
    if session.currentRoom = some r then
      { hub := { s.hub with
          heap := (handleSubscribeLayer s.hub session pid userId targets draws now).heap }
        asked := noteMessage room senderId s userId targets draws now }
    else s
  | .packet hdr p draw clk =>
    { hub := { s.hub with
        heap := (fanoutSimulcastVideo room s.hub.heap senderId pub hdr p draw clk).1 }
      asked := notePacket room senderId pub s hdr p draw clk }

/-- The burst that a call of the fan-out requests, whatever burst was in progress. -/
def requestedBurst (heap : Heap) (hdr : RtpHeader) (p : Bytes) (draw : NonzeroSsrc)
    (clk : Nat → Instant) : Option PliBurst :=
  ((fanoutSimulcastVideo room (mutate heap pub (·.cancelPliBurst)) senderId pub hdr p draw
    clk).1 pub).pliBurst

/-- The entry that the fan-out finds or makes. -/
def entryOf (heap : Heap) (q : Ptr) : SubscribeLayerEntry :=
  ((heap q).subscribeLayers.lookup senderId).getD ⟨"h", .new 0⟩

/-- The `i`-th ready subscriber of the call waits in vain for longer than two seconds. -/
structure Stuck (s : Stage) (hdr : RtpHeader) (p : Bytes) (clk : Nat → Instant) (rid : String)
    (i : Nat) (q : Ptr) : Prop where
  source : sourceRid (s.hub.heap pub) hdr.ssrc = some rid
  ready : (readyOthers room s.hub.heap senderId)[i]? = some q
  awaits : Awaits (entryOf senderId s.hub.heap q) rid (isKeyframe hdr p) p
  overdue : Overdue (s.asked q) (clk (2 * i))

/-- Whoever is stuck is helped: the call requests a burst for the SSRC of its layer. -/
def Healed (s : Stage) (op : LayerOp) : Prop :=
  ∀ hdr p draw clk, op = .packet hdr p draw clk → ∀ rid i q,
    Stuck room senderId pub s hdr p clk rid i q →
      ∃ burst, requestedBurst room senderId pub s.hub.heap hdr p draw clk = some burst ∧
        (s.hub.heap pub).layerSsrc rid = some burst.ssrc

/-- Whoever is stuck waits for the high layer, and has not had its first keyframe or shares
    the call with somebody who is new or whose own first keyframe is due. -/
def OnlyHighFirst (s : Stage) (op : LayerOp) : Prop :=
  ∀ hdr p draw clk, op = .packet hdr p draw clk → ∀ rid i q,
    Stuck room senderId pub s hdr p clk rid i q →
      rid = "h" ∧ ((entryOf senderId s.hub.heap q).rewriter.initialized = false ∨
        AnyAsks senderId rid (isKeyframe hdr p) p clk s.hub.heap
          (readyOthers room s.hub.heap senderId) 0)

/-- A publisher of the two layers, whose keys are installed and whose address is known, in a
    simulcast room. -/
structure OnAir (hub : RoomHub) (addr : SocketAddr) (high low : UInt32) : Prop where
  held : hub.rooms.lookup r = some room
  simulcast : room.simulcastEnabled = true
  publisher : room.participants.lookup senderId = some pub
  askable : Askable (hub.heap pub) addr high
  low : (hub.heap pub).layerSsrc "l" = some low

variable {r room senderId pub}

theorem OnAir.shows {hub : RoomHub} {addr : SocketAddr} {high low : UInt32} {heap : Heap}
    (onAir : OnAir r room senderId pub hub addr high low)
    (same : Shows (fun s => (s.publish, s.tracks)) hub.heap heap) :
    OnAir r room senderId pub { hub with heap := heap } addr high low := by
  have tracks : (heap pub).tracks = (hub.heap pub).tracks := congrArg Prod.snd (same pub)
  refine ⟨onAir.held, onAir.simulcast, onAir.publisher, onAir.askable.of_shows pub same, ?_⟩
  rw [← onAir.low]
  simp only [ParticipantState.layerSsrc, tracks]

theorem sender_apart (once : Injective room.participants)
    (publisher : room.participants.lookup senderId = some pub) :
    pub ∉ room.otherParticipants senderId := by
  intro listed
  obtain ⟨k, other, here⟩ := mem_otherParticipants.mp listed
  exact other (once _ _ _ here publisher)

/-- The track of a layer is told by its SSRC. -/
theorem layerSsrc_rid {s : ParticipantState} (distinct : Distinct s.tracks) {rid other : String}
    {ssrc : UInt32} (one : s.layerSsrc rid = some ssrc) (two : s.layerSsrc other = some ssrc) :
    rid = other := by
  obtain ⟨t, found, named⟩ := Option.map_eq_some_iff.mp one
  obtain ⟨t', found', named'⟩ := Option.map_eq_some_iff.mp two
  have same := distinct.unique (List.mem_of_find?_eq_some found) (List.mem_of_find?_eq_some found')
    (named.trans named'.symm)
  have layer := List.find?_some found
  have layer' := List.find?_some found'
  simp only [Bool.and_eq_true, beq_iff_eq] at layer layer'
  rw [same, layer'.2, Option.some.injEq] at layer
  exact layer.2.symm

section Packet
variable {heap : Heap} {hdr : RtpHeader} {p : Bytes} {draw : NonzeroSsrc} {clk : Nat → Instant}
  {rid : String} {addr : SocketAddr} {high : UInt32}

theorem requestedBurst_spec (once : Injective room.participants)
    (publisher : room.participants.lookup senderId = some pub)
    (askable : Askable (heap pub) addr high)
    (tagged : sourceRid (heap pub) hdr.ssrc = some rid) :
    let asked := AnyAsks senderId rid (isKeyframe hdr p) p clk heap (readyOthers room heap senderId) 0
    (asked → requestedBurst room senderId pub heap hdr p draw clk =
      some ⟨high, addr, simulcastBurst⟩) ∧
    (¬ asked → requestedBurst room senderId pub heap hdr p draw clk = none) := by
  intro asked
  let begun := mutate (mutate heap pub (·.cancelPliBurst)) pub fun s =>
    (s.ensureSimulcastVideoSsrc draw).1
  have shows_ : ∀ {α : Type} {view : ParticipantState → α},
      (∀ s burst, view { s with pliBurst := burst } = view s) →
      (∀ s vssrc, view { s with simulcastVideoSsrc := vssrc } = view s) →
      Shows view heap begun := fun burst vssrc =>
    (Shows.mutate (burst _ _)).trans (.mutate (view_ensure vssrc _ _))
  have layers : ∀ q, (begun q).subscribeLayers = (heap q).subscribeLayers :=
    shows_ (fun _ _ => rfl) fun _ _ => rfl
  have flags : ∀ q, (begun q).isSubscribeReady = (heap q).isSubscribeReady :=
    shows_ (fun _ _ => rfl) fun _ _ => rfl
  let start : LayerFanout := ⟨begun, 0, false, []⟩
  have publishes : Shows (fun s => (s.publish, s.tracks)) heap start.heap :=
    shows_ (fun _ _ => rfl) fun _ _ => rfl
  have unasked : (begun pub).pliBurst = none := by
    simp only [begun, mutate_self]
    exact view_ensure (fun _ _ => rfl) _ _
  have found : (((mutate heap pub (·.cancelPliBurst)) pub).findTrack hdr.ssrc).bind (·.rid) =
      some rid := by
    rw [mutate_self]
    exact tagged
  obtain ⟨burst, quiet⟩ := fanoutAll_burst senderId pub
    (((mutate heap pub (·.cancelPliBurst)) pub).ensureSimulcastVideoSsrc draw).2 rid
    (isKeyframe hdr p) p clk (otherParticipants_nodup once senderId)
    (sender_apart once publisher) (show start.reads = 2 * 0 from rfl)
    (askable.of_shows pub publishes)
  have same : AnyAsks senderId rid (isKeyframe hdr p) p clk start.heap
      ((room.otherParticipants senderId).filter fun t => (start.heap t).isSubscribeReady) 0 ↔
        asked := by
    simp only [start, flags]
    exact anyAsks_congr senderId rid (isKeyframe hdr p) p clk 0 fun q _ => layers q
  rw [same] at burst quiet
  refine ⟨fun yes => ?_, fun no => ?_⟩
  · simp only [requestedBurst, fanoutSimulcastVideo, found]
    exact burst yes rfl
  · simp only [requestedBurst, fanoutSimulcastVideo, found]
    exact (quiet (.inl no)).trans unasked

end Packet

section Message
variable {subscriber : Ptr} {draws : Ptr → NonzeroSsrc} {now : Instant}

theorem noteSelections_heap (targets : List SubscribeLayerTarget) (noted : Heap × Asked) :
    (targets.foldl (noteSelection room senderId subscriber draws now) noted).1 =
      targets.foldl (subscribeTarget room subscriber draws now) noted.1 := by
  induction targets generalizing noted with
  | nil => rfl
  | cons target targets ih =>
    exact ih (noteSelection room senderId subscriber draws now noted target)

theorem noteSelection_marked (noted : Heap × Asked) (target : SubscribeLayerTarget)
    (marks : AllMarked senderId noted.1 noted.2) :
    let next := noteSelection room senderId subscriber draws now noted target
    AllMarked senderId next.1 next.2 := by
  intro next q
  simp only [next, noteSelection]
  cases found : room.getParticipant target.userId with
  | none =>
    have silent : selectAsks room subscriber draws now noted.1 target = false := by
      simp only [selectAsks, found]
    rw [subscribeTarget_absent room subscriber draws now noted.1 target found, silent]
    simpa using marks q
  | some publisher =>
    have layers := subscribeTarget_layers room subscriber draws now noted.1 target found q
    rw [layers]
    by_cases here : q = subscriber
    · subst here
      rw [if_pos rfl]
      by_cases mine : target.userId = senderId
      · subst mine
        have turn : Marked (some (chosen q draws now noted.1 target publisher))
            (if selectAsks room q draws now noted.1 target then some now else noted.2 q) := by
          simp only [selectAsks, found, chosen]
          exact selectLayer_marked (marks q) now
        rw [AList.lookup_insert]
        simp only [true_and]
        split at turn
        · rename_i asks
          rw [if_pos asks, Function.update_self]
          exact turn
        · rename_i silent
          rw [if_neg silent]
          exact turn
      · rw [AList.lookup_insert_ne (Ne.symm mine)]
        simp only [mine, false_and, if_false]
        exact marks q
    · rw [if_neg here]
      split
      · rw [Function.update_of_ne here]
        exact marks q
      · exact marks q

theorem noteSelections_marked (targets : List SubscribeLayerTarget) (noted : Heap × Asked)
    (marks : AllMarked senderId noted.1 noted.2) :
    let done := targets.foldl (noteSelection room senderId subscriber draws now) noted
    AllMarked senderId done.1 done.2 := by
  induction targets generalizing noted with
  | nil => exact marks
  | cons target targets ih => exact ih _ (noteSelection_marked noted target marks)

theorem selections_publish (targets : List SubscribeLayerTarget) (heap : Heap) :
    Shows (fun s => (s.publish, s.tracks)) heap
      (targets.foldl (subscribeTarget room subscriber draws now) heap) := by
  apply Shows.fold id
  intro heap target
  exact subscribeTarget_untouched room subscriber draws now heap target
    ⟨fun _ _ => rfl, fun _ _ => rfl, fun _ _ => rfl⟩
    fun s draw => @view_ensure _ (fun s => (s.publish, s.tracks)) (fun _ _ => rfl) s draw

end Message

/-- What the messages and packets keep. -/
structure Kept (addr : SocketAddr) (high low : UInt32) (s : Stage) : Prop where
  onAir : OnAir r room senderId pub s.hub addr high low
  distinct : Distinct (s.hub.heap pub).tracks
  marks : AllMarked senderId s.hub.heap s.asked

variable {addr : SocketAddr} {high low : UInt32} {s : Stage}

theorem Kept.next (kept : @Kept r room senderId pub addr high low s) {heap : Heap} {asked : Asked}
    (same : Shows (fun s => (s.publish, s.tracks)) s.hub.heap heap)
    (marks : AllMarked senderId heap asked) :
    @Kept r room senderId pub addr high low ⟨{ s.hub with heap := heap }, asked⟩ := by
  refine ⟨kept.onAir.shows same, ?_, marks⟩
  have tracks : (heap pub).tracks = (s.hub.heap pub).tracks := congrArg Prod.snd (same pub)
  change Distinct (heap pub).tracks
  rw [tracks]
  exact kept.distinct

theorem message_kept (kept : @Kept r room senderId pub addr high low s) {session : Session}
    (joined : session.currentRoom = some r) (pid : Nat) (userId : UserId)
    (targets : Option (List SubscribeLayerTarget)) (draws : Ptr → NonzeroSsrc) (now : Instant) :
    @Kept r room senderId pub addr high low
      ⟨{ s.hub with heap := (handleSubscribeLayer s.hub session pid userId targets draws now).heap },
        noteMessage room senderId s userId targets draws now⟩ := by
  have unchanged : @Kept r room senderId pub addr high low
      ⟨{ s.hub with heap := s.hub.heap }, s.asked⟩ := kept.next (.refl _ s.hub.heap) kept.marks
  cases targets with
  | none => exact unchanged
  | some targets =>
    cases found : room.getParticipant userId with
    | none =>
      simpa [handleSubscribeLayer, noteMessage, joined, kept.onAir.held, kept.onAir.simulcast,
        found] using unchanged
    | some subscriber =>
      let done := targets.foldl (noteSelection room senderId subscriber draws now)
        (s.hub.heap, s.asked)
      have heap : done.1 = targets.foldl (subscribeTarget room subscriber draws now) s.hub.heap :=
        noteSelections_heap targets (s.hub.heap, s.asked)
      have marks : AllMarked senderId done.1 done.2 :=
        noteSelections_marked targets (s.hub.heap, s.asked) kept.marks
      rw [heap] at marks
      have handled := kept.next (selections_publish targets s.hub.heap) marks
      simpa [handleSubscribeLayer, noteMessage, joined, kept.onAir.held, kept.onAir.simulcast,
        found] using handled

theorem packet_kept (kept : @Kept r room senderId pub addr high low s) (hdr : RtpHeader)
    (p : Bytes) (draw : NonzeroSsrc) (clk : Nat → Instant) :
    @Kept r room senderId pub addr high low
      ⟨{ s.hub with heap := (fanoutSimulcastVideo room s.hub.heap senderId pub hdr p draw clk).1 },
        notePacket room senderId pub s hdr p draw clk⟩ := by
  cases tagged : sourceRid (s.hub.heap pub) hdr.ssrc with
  | none =>
    have silent : notePacket room senderId pub s hdr p draw clk = s.asked := by
      simp only [notePacket, tagged]
    rw [fanoutSimulcast_untagged room s.hub.heap senderId pub hdr p draw clk tagged, silent]
    exact kept.next (.refl _ s.hub.heap) kept.marks
  | some rid =>
    let vssrc := ((s.hub.heap pub).ensureSimulcastVideoSsrc draw).2
    let begun : LayerFanout := ⟨mutate s.hub.heap pub fun _ =>
      ((s.hub.heap pub).ensureSimulcastVideoSsrc draw).1, 0, false, []⟩
    have found : ((s.hub.heap pub).findTrack hdr.ssrc).bind (·.rid) = some rid := tagged
    have shows_ : ∀ {α : Type} {view : ParticipantState → α},
        (∀ s vssrc, view { s with simulcastVideoSsrc := vssrc } = view s) →
        Shows view s.hub.heap (mutate s.hub.heap pub fun _ =>
          ((s.hub.heap pub).ensureSimulcastVideoSsrc draw).1) := fun vssrc =>
      .mutate (view_ensure vssrc _ _)
    have marks := noteTurns_marked senderId pub vssrc rid (isKeyframe hdr p) p clk
      (room.otherParticipants senderId) (begun, s.asked)
      (kept.marks.layers (shows_ fun _ _ => rfl))
    have publishes : Shows (fun s => (s.publish, s.tracks)) s.hub.heap
        (fanoutSimulcastVideo room s.hub.heap senderId pub hdr p draw clk).1 :=
      (shows_ fun _ _ => rfl).trans (fanoutSimulcast_shows room s.hub.heap senderId pub hdr p draw
        clk ⟨fun _ _ => rfl, fun _ _ => rfl, fun _ _ => rfl⟩ tagged)
    refine kept.next publishes ?_
    simp only [noteTurns_fanout] at marks
    simpa only [notePacket, tagged, fanoutSimulcastVideo, found] using marks

theorem step_kept (kept : @Kept r room senderId pub addr high low s) (op : LayerOp) :
    @Kept r room senderId pub addr high low (step r room senderId pub s op) := by
  cases op with
  | subscribeLayer session pid userId targets draws now =>
    simp only [step]
    split
    · exact message_kept kept ‹_› pid userId targets draws now
    · exact kept
  | packet hdr p draw clk => exact packet_kept kept hdr p draw clk

/-- Whoever is stuck before its first keyframe asks in its own turn. -/
theorem stuck_asks (marks : AllMarked senderId s.hub.heap s.asked) {hdr : RtpHeader} {p : Bytes}
    {clk : Nat → Instant} {rid : String} {i : Nat} {q : Ptr}
    (stuck : Stuck room senderId pub s hdr p clk rid i q)
    (first : (entryOf senderId s.hub.heap q).rewriter.initialized = false) :
    AnyAsks senderId rid (isKeyframe hdr p) p clk s.hub.heap
      (readyOthers room s.hub.heap senderId) 0 := by
  refine ⟨i, q, stuck.ready, fun e found => ?_⟩
  have entry : entryOf senderId s.hub.heap q = e := by rw [entryOf, found, Option.getD_some]
  have awaits := stuck.awaits
  rw [entry] at awaits first
  have marked := marks q
  rw [found] at marked
  rw [Nat.zero_add]
  exact ⟨awaits.selected, awaits.playing, awaits.drops, marked.overdue stuck.overdue first⟩

theorem healed_iff (once : Injective room.participants)
    (kept : @Kept r room senderId pub addr high low s) (op : LayerOp) :
    Healed room senderId pub s op ↔ OnlyHighFirst room senderId pub s op := by
  constructor
  · rintro healed hdr p draw clk rfl rid i q stuck
    obtain ⟨burst, requested, layer⟩ := healed hdr p draw clk rfl rid i q stuck
    obtain ⟨loud, quiet⟩ := requestedBurst_spec once kept.onAir.publisher kept.onAir.askable
      stuck.source
    by_cases asked : AnyAsks senderId rid (isKeyframe hdr p) p clk s.hub.heap
        (readyOthers room s.hub.heap senderId) 0
    · rw [loud asked, Option.some.injEq] at requested
      rw [← requested] at layer
      exact ⟨layerSsrc_rid kept.distinct layer kept.onAir.askable.track, .inr asked⟩
    · rw [quiet asked] at requested
      cases requested
  · rintro onlyHigh hdr p draw clk rfl rid i q stuck
    obtain ⟨rfl, helped⟩ := onlyHigh hdr p draw clk rfl rid i q stuck
    have asked := helped.elim (stuck_asks kept.marks stuck) id
    obtain ⟨loud, _⟩ := requestedBurst_spec once kept.onAir.publisher kept.onAir.askable
      stuck.source
    exact ⟨_, loud asked, kept.onAir.askable.track⟩

/-- Every entry starts with the mark it has. -/
def begin_ (senderId : UserId) (hub : RoomHub) : Stage :=
  ⟨hub, fun q => ((hub.heap q).subscribeLayers.lookup senderId).bind (·.rewriter.pliSentAt)⟩

theorem begin_marked (hub : RoomHub) :
    AllMarked senderId (begin_ senderId hub).hub.heap (begin_ senderId hub).asked := by
  intro q
  simp only [begin_]
  cases (hub.heap q).subscribeLayers.lookup senderId with
  | none => rfl
  | some e => exact .inr rfl

end Stage

/-- In a room of any reachable state: every stuck subscriber is helped all along a run exactly
    when the run lets none get stuck elsewhere than before its first high keyframe. -/
theorem waiting_layers_healed_iff (hmacSha1 : Bytes → Bytes → Bytes) (crc32 : Bytes → UInt32)
    (es : List Event) (r : RoomId) (room : Room) (senderId : UserId) (pub : Ptr)
    (addr : SocketAddr) (high low : UInt32)
    (onAir : OnAir r room senderId pub (run (Servers.step hmacSha1 crc32) Server.new es).hub
      addr high low) (ops : List LayerOp) :
    let start := begin_ senderId (run (Servers.step hmacSha1 crc32) Server.new es).hub
    Guarded (step r room senderId pub) (Healed room senderId pub) start ops ↔
      Guarded (step r room senderId pub) (OnlyHighFirst room senderId pub) start ops := by
  intro start
  have once : Injective room.participants :=
    participants_injective (Seating.run_seated hmacSha1 crc32 es).sound onAir.held
  have kept : @Kept r room senderId pub addr high low start :=
    ⟨onAir, run_distinct hmacSha1 crc32 es pub, begin_marked _⟩
  constructor
  · exact @guarded_of_invariant _ _ _ _ (@Kept r room senderId pub addr high low) _
      (fun s op kept _ => step_kept kept op)
      (fun s op kept healed => (healed_iff once kept op).mp healed) _ kept ops
  · exact @guarded_of_invariant _ _ _ _ (@Kept r room senderId pub addr high low) _
      (fun s op kept _ => step_kept kept op)
      (fun s op kept only => (healed_iff once kept op).mpr only) _ kept ops

/-- A packet that starts no keyframe. -/
def deltaPacket (seq : UInt16) (ts ssrc : UInt32) : Bytes :=
  [0x80, 96] ++ bytes16 seq ++ bytes32 ts ++ bytes32 ssrc ++ [0x10, 0x01, 0]

def packetAt (p : Bytes) (now : Instant) : LayerOp :=
  .packet (parseRtpHeader p) p ((sampleOracle 0).vssrc 0) fun _ => now

def studioHub : RoomHub :=
  (run (Servers.step sampleHmac fun _ => 0) Server.new LayerGating.twoLayers).hub

theorem studio_onAir : OnAir "room" LayerGating.studio "a" 0 studioHub
    (AddressIndex.portAt 5000) 11 12 :=
  ⟨rfl, by decide, by decide, ⟨by decide, by decide, by decide⟩, by decide⟩

/-- The first keyframe of the high layer is long in coming. -/
theorem waiting_layers_healed_first :
    let start := begin_ "a" studioHub
    let ops := [packetAt (deltaPacket 1 9000 11) 0, packetAt (deltaPacket 2 9000 11) 3000000000]
    Guarded (step "room" LayerGating.studio "a" 0) (Healed LayerGating.studio "a" 0) start ops ↔
      Guarded (step "room" LayerGating.studio "a" 0) (OnlyHighFirst LayerGating.studio "a" 0)
        start ops :=
  waiting_layers_healed_iff sampleHmac (fun _ => 0) LayerGating.twoLayers "room" LayerGating.studio
    "a" 0 _ 11 12 studio_onAir _

/-- The subscriber is switched to the low layer, whose keyframe does not come. -/
def switchedRun : List LayerOp :=
  [packetAt (keyframePacket 1 9000 11 0) 0,
    .subscribeLayer LayerGating.viewer 5 "b" (some [⟨"a", "l"⟩]) (sampleOracle 0).vssrc 1000000000]

theorem low_layer_never_retried : ¬ ∀ (hmacSha1 : Bytes → Bytes → Bytes) (crc32 : Bytes → UInt32)
    (es : List Event) (r : RoomId) (room : Room) (senderId : UserId) (pub : Ptr)
    (addr : SocketAddr) (high low : UInt32),
    OnAir r room senderId pub (run (Servers.step hmacSha1 crc32) Server.new es).hub
      addr high low → ∀ ops : List LayerOp,
    Guarded (step r room senderId pub) (Healed room senderId pub)
      (begin_ senderId (run (Servers.step hmacSha1 crc32) Server.new es).hub) ops := by
  intro all
  let s := run (step "room" LayerGating.studio "a" 0) (begin_ "a" studioHub) switchedRun
  let p := deltaPacket 7 50 12
  have healed : Healed LayerGating.studio "a" 0 s (packetAt p 4000000000) :=
    (guarded_append.mp (all sampleHmac (fun _ => 0) LayerGating.twoLayers "room" LayerGating.studio
      "a" 0 _ 11 12 studio_onAir (switchedRun ++ [packetAt p 4000000000]))).2.1
  have once : Injective LayerGating.studio.participants :=
    participants_injective (Seating.run_seated sampleHmac (fun _ => 0) LayerGating.twoLayers).sound
      studio_onAir.held
  have kept : @Kept "room" LayerGating.studio "a" 0 (AddressIndex.portAt 5000) 11 12 s :=
    @run_invariant _ _ _ (@Kept "room" LayerGating.studio "a" 0 (AddressIndex.portAt 5000) 11 12)
      (fun s op kept => step_kept kept op) _ ⟨studio_onAir,
        run_distinct sampleHmac (fun _ => 0) LayerGating.twoLayers 0, begin_marked studioHub⟩
      switchedRun
  have asked : s.asked 1 = some 1000000000 := by decide
  have stuck : Stuck LayerGating.studio "a" 0 s (parseRtpHeader p) p (fun _ => 4000000000) "l" 0 1 := by
    refine ⟨by decide, by decide, ⟨by decide, by decide, by decide, .inr (by decide), by decide⟩, ?_⟩
    intro sent same
    rw [asked, Option.some.injEq] at same
    rw [← same]
    decide
  have only := ((healed_iff once kept _).mp healed _ _ _ _ rfl "l" 0 1 stuck).1
  exact absurd only (by decide)

end PliRetry
