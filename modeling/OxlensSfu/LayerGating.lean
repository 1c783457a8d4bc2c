import Mathlib.Data.List.Chain
import OxlensSfu.LayerFrames
import OxlensSfu.LayerNumbering
import OxlensSfu.Seating

/-
What one subscriber gets of one simulcast publisher while it selects layers. The entry
that the server keeps for the two is followed by a record of the messages and packets:
which layer was asked for last, how often that changed, and what was handed on.
-/
namespace LayerGating
open WireBytes RtpPacket KeyedMap Participants RoomHubs RoomHub Signaling
open RoomHandlers TrackHandlers Ingress Servers Membership Catalog LayerFrames LayerNumbering
open GuardedRun
open FloorControl (UserId)
open PttRewriter (Instant)

/-- A packet handed to the subscriber: the layer selected then, how often the selection had
    changed, and its source with the layer that it is of. -/
structure Passed where
  changes : Nat
  selected : String
  rid : String
  isKey : Bool
  source : Bytes
  out : Bytes

/-- The packets handed on, oldest first. -/
structure Gated (vssrc : UInt32) (log : List Passed) : Prop where
  layer : ∀ f ∈ log, f.rid = f.selected
  ssrc : ∀ f ∈ log, u32At f.out 8 = vssrc
  opening : ∀ f, log.head? = some f → f.isKey = true
  switched : log.IsChain fun a b => a.changes ≠ b.changes → b.isKey = true ∧
    u16At b.out 2 = u16At a.out 2 + 1 ∧ u32At b.out 4 = u32At a.out 4 + 1
  steady : log.Pairwise fun a b => a.changes = b.changes →
    u16At b.out 2 - u16At a.out 2 = u16At b.source 2 - u16At a.source 2 ∧
      u32At b.out 4 - u32At a.out 4 = u32At b.source 4 - u32At a.source 4

/-- The entry of the subscriber for the publisher, with the record beside it. -/
structure Gate where
  entry : Option SubscribeLayerEntry
  selected : String
  changes : Nat
  log : List Passed

/-- A message asks for a layer. -/
def select (g : Gate) (rid : String) (vssrc : UInt32) (now : Instant) : Gate where
  entry := some (selectLayer g.entry rid vssrc now).1
  selected := rid
  changes := if rid = g.selected then g.changes else g.changes + 1
  log := g.log

/-- A packet of a layer comes by. -/
def pass (g : Gate) (vssrc : UInt32) (rid : String) (isKey : Bool) (p : Bytes)
    (checked marked : Instant) : Gate :=
  let (entry, out, _) := passLayer g.entry vssrc rid isKey p checked marked
  { g with
    entry := some entry
    log := g.log ++ out.toList.map fun out => ⟨g.changes, g.selected, rid, isKey, p, out⟩ }

theorem gated_snoc {vssrc : UInt32} {log : List Passed} {f : Passed} (gated : Gated vssrc log)
    (layer : f.rid = f.selected) (ssrc : u32At f.out 8 = vssrc)
    (opening : log = [] → f.isKey = true)
    (switched : ∀ a, log.getLast? = some a → a.changes ≠ f.changes → f.isKey = true ∧
      u16At f.out 2 = u16At a.out 2 + 1 ∧ u32At f.out 4 = u32At a.out 4 + 1)
    (steady : ∀ a ∈ log, a.changes = f.changes →
      u16At f.out 2 - u16At a.out 2 = u16At f.source 2 - u16At a.source 2 ∧
        u32At f.out 4 - u32At a.out 4 = u32At f.source 4 - u32At a.source 4) :
    Gated vssrc (log ++ [f]) := by
  refine ⟨?_, ?_, ?_, ?_, ?_⟩
  · intro a member
    rcases List.mem_append.mp member with before | here
    · exact gated.layer a before
    · rw [List.mem_singleton.mp here]
      exact layer
  · intro a member
    rcases List.mem_append.mp member with before | here
    · exact gated.ssrc a before
    · rw [List.mem_singleton.mp here]
      exact ssrc
  · intro a first
    cases log with
    | nil =>
      obtain rfl : f = a := by simpa using first
      exact opening rfl
    | cons b bs => exact gated.opening a first
  · refine List.isChain_append.mpr ⟨gated.switched, List.isChain_singleton f, ?_⟩
    intro a last b head
    obtain rfl : f = b := by simpa using head
    exact switched a last
  · refine List.pairwise_append.mpr ⟨gated.steady, List.pairwise_singleton _ _, ?_⟩
    intro a before b here
    rw [List.mem_singleton.mp here]
    exact steady a before

/-- What the entry of the subscriber has to do with the record. -/
structure Standing (vssrc : UInt32) (g : Gate) (e : SubscribeLayerEntry) : Prop where
  rid : e.rid = g.selected
  ssrc : e.rewriter.virtualSsrc = vssrc
  fresh : e.rewriter.initialized = false → g.log = []
  last : e.rewriter.initialized = true → ∃ f, g.log.getLast? = some f ∧
    u16At f.out 2 = e.rewriter.lastOutSeq ∧ u32At f.out 4 = e.rewriter.lastOutTs ∧
    (e.rewriter.pendingKeyframe = false → e.rid ≠ "pause" → f.changes = g.changes)
  waiting : e.rewriter.pendingKeyframe = true → ∀ f ∈ g.log, f.changes < g.changes
  running : e.rewriter.pendingKeyframe = false → ∀ f ∈ g.log, f.changes = g.changes →
    u16At f.out 2 = u16At f.source 2 + e.rewriter.seqOffset ∧
      u32At f.out 4 = u32At f.source 4 + e.rewriter.tsOffset

structure Watched (vssrc : UInt32) (g : Gate) : Prop where
  gated : Gated vssrc g.log
  past : ∀ f ∈ g.log, f.changes ≤ g.changes
  absent : g.entry = none → g.selected = "h" ∧ g.log = []
  current : ∀ e, g.entry = some e → Standing vssrc g e

section Gate
variable {vssrc : UInt32} {g : Gate} {e : SubscribeLayerEntry}

/-- When a keyframe was asked for does not matter. -/
theorem Standing.marked (standing : Standing vssrc g e) (now : Instant) :
    Standing vssrc g { e with rewriter := e.rewriter.markPliSent now } :=
  ⟨standing.rid, standing.ssrc, standing.fresh, standing.last, standing.waiting, standing.running⟩

/-- Without an entry the subscriber stands as with a new one for the high layer. -/
theorem Watched.standing (watched : Watched vssrc g) :
    Standing vssrc g (g.entry.getD ⟨"h", .new vssrc⟩) := by
  cases held : g.entry with
  | some e => exact watched.current e held
  | none =>
    obtain ⟨high, empty⟩ := watched.absent held
    refine ⟨high.symm, rfl, fun _ => empty, fun begun => (nomatch begun),
      fun waits => (nomatch waits), fun _ f member => ?_⟩
    rw [empty] at member
    exact absurd member List.not_mem_nil

/-- The selection changes to another layer that is not a pause: the next packet opens it. -/
theorem Standing.switch (standing : Standing vssrc g e) (past : ∀ f ∈ g.log, f.changes ≤ g.changes)
    (rid : String) (entry : Option SubscribeLayerEntry) :
    Standing vssrc ⟨entry, rid, g.changes + 1, g.log⟩ ⟨rid, e.rewriter.switchLayer⟩ where
  rid := rfl
  ssrc := standing.ssrc
  fresh := standing.fresh
  last begun := by
    obtain ⟨f, newest, seq, ts, _⟩ := standing.last begun
    exact ⟨f, newest, seq, ts, fun idle => (nomatch idle)⟩
  waiting _ f member := Nat.lt_succ_of_le (past f member)
  running idle := (nomatch idle)

/-- The stream is paused; the rewriter stays as it is. -/
theorem Standing.pause (standing : Standing vssrc g e) (past : ∀ f ∈ g.log, f.changes ≤ g.changes)
    (entry : Option SubscribeLayerEntry) :
    Standing vssrc ⟨entry, "pause", g.changes + 1, g.log⟩ { e with rid := "pause" } where
  rid := rfl
  ssrc := standing.ssrc
  fresh := standing.fresh
  last begun := by
    obtain ⟨f, newest, seq, ts, _⟩ := standing.last begun
    exact ⟨f, newest, seq, ts, fun _ paused => absurd rfl paused⟩
  waiting _ f member := Nat.lt_succ_of_le (past f member)
  running _ f member same := by
    have before := past f member
    change f.changes = g.changes + 1 at same
    omega

/-- Nothing has been handed on: any entry that has not begun will do. -/
theorem Standing.of_empty (empty : g.log = []) (rid : e.rid = g.selected)
    (ssrc : e.rewriter.virtualSsrc = vssrc) (fresh : e.rewriter.initialized = false) :
    Standing vssrc g e where
  rid := rid
  ssrc := ssrc
  fresh _ := empty
  last begun := by
    rw [fresh] at begun
    simp at begun
  waiting _ f member := by
    rw [empty] at member
    simp at member
  running _ f member := by
    rw [empty] at member
    simp at member

theorem select_watched (watched : Watched vssrc g) (rid : String) (now : Instant) :
    Watched vssrc (select g rid vssrc now) := by
  refine ⟨watched.gated, fun f member => ?_, fun none_ => (nomatch none_), fun e chosen => ?_⟩
  · have before := watched.past f member
    simp only [select]
    split <;> omega
  simp only [select, Option.some.injEq] at chosen
  -- The mark of a keyframe request may be on top.
  have unmarked : ∀ (entry : SubscribeLayerEntry) (pli : Bool),
      Standing vssrc (select g rid vssrc now) entry →
      Standing vssrc (select g rid vssrc now) (if pli then
        { entry with rewriter := entry.rewriter.markPliSent now } else entry) := by
    intro entry pli standing
    split
    · exact standing.marked now
    · exact standing
  rw [← chosen]
  unfold selectLayer
  cases held : g.entry with
  | none =>
    obtain ⟨_, empty⟩ := watched.absent held
    simp only [Option.map_none, reduceCtorEq, if_false, Option.getD_none]
    apply unmarked
    split
    · exact .of_empty empty rfl rfl rfl
    · exact .of_empty empty rfl rfl rfl
  | some old =>
    have standing := watched.current old held
    simp only [Option.map_some, Option.some.injEq, Option.getD_some]
    apply unmarked
    by_cases same : old.rid = rid
    · have selected : rid = g.selected := by rw [← standing.rid, same]
      rw [if_pos same]
      simp only [select, if_pos selected]
      exact ⟨same, standing.ssrc, standing.fresh, standing.last, standing.waiting, standing.running⟩
    · have selected : rid ≠ g.selected := fun other => same (by rw [standing.rid, other])
      rw [if_neg same]
      simp only [select, if_neg selected]
      split
      · exact standing.switch watched.past rid _
      · rename_i paused
        obtain rfl : rid = "pause" := by simpa using paused
        exact standing.pause watched.past _

theorem anchor_settled (r : SimulcastRewriter) (seq : UInt16) (ts : UInt32) :
    (r.anchor seq ts).initialized = true ∧ (r.anchor seq ts).pendingKeyframe = false ∧
      (r.anchor seq ts).virtualSsrc = r.virtualSsrc := by
  unfold SimulcastRewriter.anchor
  split
  · exact ⟨rfl, rfl, rfl⟩
  · rename_i begun
    split
    · exact ⟨by simpa using begun, rfl, rfl⟩
    · rename_i settled
      exact ⟨by simpa using begun, by simpa using settled, rfl⟩

/-- A packet that passes keeps the record in order. -/
theorem pass_gated (gated : Gated vssrc g.log) (standing : Standing vssrc g e)
    (playing : e.rid ≠ "pause") {p out : Bytes} {isKey : Bool} (passes : Passes e.rewriter p isKey)
    (seq : u16At out 2 = u16At p 2 + (e.rewriter.anchor (u16At p 2) (u32At p 4)).seqOffset)
    (ts : u32At out 4 = u32At p 4 + (e.rewriter.anchor (u16At p 2) (u32At p 4)).tsOffset)
    (ssrc : u32At out 8 = e.rewriter.virtualSsrc) :
    Gated vssrc (g.log ++ [⟨g.changes, g.selected, e.rid, isKey, p, out⟩]) := by
  -- A rewriter that has not begun has handed nothing on.
  have begun : g.log ≠ [] → e.rewriter.initialized = true := by
    intro some_
    cases fresh : e.rewriter.initialized with
    | true => rfl
    | false => exact absurd (standing.fresh fresh) some_
  refine gated_snoc gated standing.rid (ssrc.trans standing.ssrc) ?_ ?_ ?_
  · intro empty
    refine passes.2 (.inl ?_)
    cases fresh : e.rewriter.initialized with
    | false => rfl
    | true =>
      obtain ⟨f, newest, _⟩ := standing.last fresh
      rw [empty] at newest
      simp at newest
  · intro a newest changed
    have started := begun (by intro empty; rw [empty] at newest; simp at newest)
    obtain ⟨f, newest', lastSeq, lastTs, current⟩ := standing.last started
    rw [newest, Option.some.injEq] at newest'
    subst newest'
    cases pending : e.rewriter.pendingKeyframe with
    | false => exact absurd (current pending playing) changed
    | true =>
      have opens := anchor_opens ⟨started, pending⟩ (u16At p 2) (u32At p 4)
      refine ⟨passes.2 (.inr pending), ?_, ?_⟩
      · change u16At out 2 = _
        rw [seq, opens, lastSeq]
        grind
      · change u32At out 4 = _
        rw [ts, opens, lastTs]
        grind
  · intro a member same
    have started := begun (List.ne_nil_of_mem member)
    cases pending : e.rewriter.pendingKeyframe with
    | true =>
      have before := standing.waiting pending a member
      rw [same] at before
      exact absurd before (Nat.lt_irrefl _)
    | false =>
      obtain ⟨oldSeq, oldTs⟩ := standing.running pending a member same
      have runs := anchor_running started pending (u16At p 2) (u32At p 4)
      constructor
      · change u16At out 2 - _ = u16At p 2 - _
        rw [seq, runs, oldSeq]
        grind
      · change u32At out 4 - _ = u32At p 4 - _
        rw [ts, runs, oldTs]
        grind

/-- The entry after a packet that passes. -/
theorem pass_standing (standing : Standing vssrc g e) {p out : Bytes} {isKey : Bool}
    (seq : u16At out 2 = u16At p 2 + (e.rewriter.anchor (u16At p 2) (u32At p 4)).seqOffset)
    (ts : u32At out 4 = u32At p 4 + (e.rewriter.anchor (u16At p 2) (u32At p 4)).tsOffset)
    (entry : Option SubscribeLayerEntry) :
    Standing vssrc ⟨entry, g.selected, g.changes,
        g.log ++ [⟨g.changes, g.selected, e.rid, isKey, p, out⟩]⟩
      { e with rewriter := forwarded (e.rewriter.anchor (u16At p 2) (u32At p 4)) p } := by
  obtain ⟨begun, settled, kept⟩ := anchor_settled e.rewriter (u16At p 2) (u32At p 4)
  refine ⟨standing.rid, kept.trans standing.ssrc, fun fresh => ?_, fun _ => ?_, fun waits => ?_, ?_⟩
  · have fresh : (e.rewriter.anchor (u16At p 2) (u32At p 4)).initialized = false := fresh
    rw [begun] at fresh
    simp at fresh
  · exact ⟨_, List.getLast?_concat, seq, ts, fun _ _ => rfl⟩
  · have waits : (e.rewriter.anchor (u16At p 2) (u32At p 4)).pendingKeyframe = true := waits
    rw [settled] at waits
    simp at waits
  · intro _ a member same
    rcases List.mem_append.mp member with before | here
    · -- Of the same selection as a packet from before: the offsets are the old ones.
      have same : a.changes = g.changes := same
      cases fresh : e.rewriter.initialized with
      | false =>
        rw [standing.fresh fresh] at before
        simp at before
      | true =>
        cases pending : e.rewriter.pendingKeyframe with
        | true =>
          have earlier := standing.waiting pending a before
          omega
        | false =>
          rw [anchor_running fresh pending]
          exact standing.running pending a before same
    · rw [List.mem_singleton.mp here]
      exact ⟨seq, ts⟩

theorem pass_watched (watched : Watched vssrc g) (rid : String) (isKey : Bool) (p : Bytes)
    (checked marked : Instant) : Watched vssrc (pass g vssrc rid isKey p checked marked) := by
  have standing := watched.standing
  unfold pass passLayer
  generalize g.entry.getD ⟨"h", .new vssrc⟩ = e at standing
  generalize g.entry.isNone = created
  -- Nothing is handed on, and the entry stands as before.
  have idle : ∀ entry : SubscribeLayerEntry, Standing vssrc g entry →
      Watched vssrc { g with entry := some entry, log := g.log ++ [] } := by
    intro entry held
    rw [List.append_nil]
    refine ⟨watched.gated, watched.past, fun none_ => (nomatch none_), fun e' same => ?_⟩
    obtain rfl : entry = e' := by simpa using same
    exact ⟨held.rid, held.ssrc, held.fresh, held.last, held.waiting, held.running⟩
  by_cases stops : e.rid = "pause" ∨ rid ≠ e.rid
  · simp only [if_pos stops]
    exact idle e standing
  · simp only [if_neg stops]
    simp only [not_or, not_not] at stops
    obtain ⟨playing, rfl⟩ := stops
    by_cases passes : Passes e.rewriter p isKey
    · obtain ⟨out, written, seq, ts, ssrc⟩ := rewrite_passes passes
      simp only [written]
      refine ⟨?_, ?_, fun none_ => (nomatch none_), fun e' same => ?_⟩
      · exact pass_gated watched.gated standing playing passes seq ts ssrc
      · intro f member
        rcases List.mem_append.mp member with before | here
        · exact watched.past f before
        · rw [List.mem_singleton.mp here]
      · rw [← Option.some.inj same]
        split
        · exact (pass_standing standing seq ts _).marked marked
        · exact pass_standing standing seq ts _
    · simp only [rewrite_drops passes]
      apply idle
      split
      · exact standing.marked marked
      · exact standing

end Gate
/-- The hub, with the record of one publisher and one subscriber. -/
structure Stage where
  hub : RoomHub
  selected : String
  changes : Nat
  log : List Passed

inductive GateOp where
  | subscribeLayer (pid : Nat) (targets : Option (List SubscribeLayerTarget))
      (draws : Ptr → NonzeroSsrc) (now : Instant)
  | packet (hdr : RtpHeader) (p : Bytes) (draw : NonzeroSsrc) (clk : Nat → Instant)

/-- The selection after one target of a message. -/
def noteTarget (senderId : UserId) (noted : String × Nat) (target : SubscribeLayerTarget) :
    String × Nat :=
  if target.userId = senderId then
    (target.rid, if target.rid = noted.1 then noted.2 else noted.2 + 1)
  else noted

section Stage
variable (room : Room) (senderId : UserId) (pub : Ptr) (session : Session) (subId : UserId)
  (sub : Ptr)

/-- The subscriber's messages and the publisher's packets, as the server handles them. -/
def step (s : Stage) : GateOp → Stage
  | .subscribeLayer pid targets draws now =>
    let out := handleSubscribeLayer s.hub session pid subId targets draws now
    let noted := (targets.getD []).foldl (noteTarget senderId) (s.selected, s.changes)
    { s with hub := { s.hub with heap := out.heap }, selected := noted.1, changes := noted.2 }
  | .packet hdr p draw clk =>
    let (heap, passed) := fanoutSimulcastVideo room s.hub.heap senderId pub hdr p draw clk
    { s with
      hub := { s.hub with heap := heap }
      log := s.log ++ (passed.filter (·.1 = sub)).map fun (_, out) =>
        ⟨s.changes, s.selected, (sourceRid (s.hub.heap pub) hdr.ssrc).getD "", isKeyframe hdr p, p,
          out⟩ }

/-- The two are in the simulcast room that the session of the subscriber points at. -/
structure Paired (hub : RoomHub) (r : RoomId) : Prop where
  held : hub.rooms.lookup r = some room
  simulcast : room.simulcastEnabled = true
  joined : session.currentRoom = some r
  publisher : room.participants.lookup senderId = some pub
  subscriber : room.participants.lookup subId = some sub

def gateOf (heap : Heap) (noted : String × Nat) (log : List Passed) : Gate :=
  ⟨(heap sub).subscribeLayers.lookup senderId, noted.1, noted.2, log⟩

/-- The record is in order, and an entry goes with a virtual SSRC that is drawn. -/
structure Kept (heap : Heap) (noted : String × Nat) (log : List Passed) : Prop where
  watched : Watched (heap pub).simulcastVideoSsrc (gateOf senderId sub heap noted log)
  drawn : (heap sub).subscribeLayers.lookup senderId ≠ none → (heap pub).simulcastVideoSsrc ≠ 0

variable {room senderId pub session subId sub}

theorem watched_of_absent {g : Gate} {vssrc : UInt32} (absent : g.entry = none)
    (watched : Watched vssrc g) (other : UInt32) : Watched other g := by
  obtain ⟨high, empty⟩ := watched.absent absent
  refine ⟨?_, watched.past, watched.absent, fun e found => ?_⟩
  · rw [empty]
    exact ⟨by simp, by simp, by simp, List.isChain_nil, List.Pairwise.nil⟩
  · rw [absent] at found
    simp at found

/-- The record goes with the virtual SSRC that is in force from now on. -/
theorem Kept.ensured {heap : Heap} {noted : String × Nat} {log : List Passed}
    (kept : Kept senderId pub sub heap noted log) (draw : NonzeroSsrc) :
    Watched ((heap pub).ensureSimulcastVideoSsrc draw).2 (gateOf senderId sub heap noted log) := by
  by_cases drawn : (heap pub).simulcastVideoSsrc = 0
  · refine watched_of_absent ?_ kept.watched _
    by_contra entry
    exact kept.drawn entry drawn
  · rw [ensure_of_drawn _ _ drawn]
    exact kept.watched

/-- A step that leaves the entry alone. -/
theorem Kept.frame {heap next : Heap} {noted : String × Nat} {log : List Passed}
    (kept : Kept senderId pub sub heap noted log)
    (layers : (next sub).subscribeLayers.lookup senderId = (heap sub).subscribeLayers.lookup senderId)
    (vssrc : (heap pub).simulcastVideoSsrc ≠ 0 →
      (next pub).simulcastVideoSsrc = (heap pub).simulcastVideoSsrc) :
    Kept senderId pub sub next noted log := by
  have same : gateOf senderId sub next noted log = gateOf senderId sub heap noted log := by
    simp only [gateOf, layers]
  by_cases drawn : (heap pub).simulcastVideoSsrc = 0
  · have absent : (heap sub).subscribeLayers.lookup senderId = none := by
      by_contra entry
      exact kept.drawn entry drawn
    refine ⟨?_, fun entry => ?_⟩
    · rw [same]
      exact watched_of_absent absent kept.watched _
    · rw [layers] at entry
      exact absurd absent entry
  · refine ⟨?_, fun _ => ?_⟩
    · rw [same, vssrc drawn]
      exact kept.watched
    · rw [vssrc drawn]
      exact drawn

theorem target_kept {heap : Heap} {noted : String × Nat} {log : List Passed}
    (kept : Kept senderId pub sub heap noted log)
    (publisher : room.participants.lookup senderId = some pub) (draws : Ptr → NonzeroSsrc)
    (now : Instant) (target : SubscribeLayerTarget) :
    Kept senderId pub sub (subscribeTarget room sub draws now heap target)
      (noteTarget senderId noted target) log := by
  cases found : room.getParticipant target.userId with
  | none =>
    have other : target.userId ≠ senderId := by
      intro same
      rw [same, Room.getParticipant, publisher] at found
      simp at found
    rw [subscribeTarget_absent _ _ _ _ _ _ found, noteTarget, if_neg other]
    exact kept
  | some publisher' =>
    have layers := subscribeTarget_layers room sub draws now heap target found sub
    rw [if_pos rfl] at layers
    have vssrc := subscribeTarget_vssrc room sub draws now heap target found pub
    by_cases here : target.userId = senderId
    · -- The message selects a layer of this publisher.
      rw [here] at layers found
      obtain rfl : pub = publisher' := by
        rw [Room.getParticipant, publisher] at found
        exact Option.some.inj found
      rw [drawn_vssrc, if_pos rfl] at vssrc
      have asked := select_watched (kept.ensured (draws pub)) target.rid now
      rw [noteTarget, if_pos here]
      refine ⟨?_, fun _ => ?_⟩
      · rw [vssrc]
        simp only [gateOf, layers, AList.lookup_insert]
        simp only [select, gateOf] at asked
        rw [chosen, here]
        exact asked
      · rw [vssrc, ensure_snd]
        exact ensure_nonzero _ _
    · rw [noteTarget, if_neg here]
      refine kept.frame ?_ fun drawn => ?_
      · rw [layers]
        exact AList.lookup_insert_ne (Ne.symm here)
      · rw [vssrc, drawn_stays _ _ _ _ drawn]

theorem targets_kept {heap : Heap} {noted : String × Nat} {log : List Passed}
    (kept : Kept senderId pub sub heap noted log)
    (publisher : room.participants.lookup senderId = some pub) (draws : Ptr → NonzeroSsrc)
    (now : Instant) (targets : List SubscribeLayerTarget) :
    Kept senderId pub sub (targets.foldl (subscribeTarget room sub draws now) heap)
      (targets.foldl (noteTarget senderId) noted) log := by
  induction targets generalizing heap noted with
  | nil => exact kept
  | cons target targets ih => exact ih (target_kept kept publisher draws now target)

theorem packet_kept {heap : Heap} {noted : String × Nat} {log : List Passed}
    (kept : Kept senderId pub sub heap noted log) (once : Injective room.participants)
    (hdr : RtpHeader) (p : Bytes) (draw : NonzeroSsrc) (clk : Nat → Instant) :
    let done := fanoutSimulcastVideo room heap senderId pub hdr p draw clk
    Kept senderId pub sub done.1 noted (log ++ (done.2.filter (·.1 = sub)).map fun (_, out) =>
      ⟨noted.2, noted.1, (sourceRid (heap pub) hdr.ssrc).getD "", isKeyframe hdr p, p, out⟩) := by
  intro done
  cases tagged : sourceRid (heap pub) hdr.ssrc with
  | none =>
    have shape : done = (heap, []) :=
      fanoutSimulcast_untagged room heap senderId pub hdr p draw clk tagged
    rw [shape]
    simpa using kept
  | some rid =>
    have vssrc : (done.1 pub).simulcastVideoSsrc = _ :=
      fanoutSimulcast_vssrc room heap senderId pub hdr p draw clk tagged pub
    rw [drawn_vssrc, if_pos rfl] at vssrc
    obtain ⟨turn, idle⟩ :=
      fanoutSimulcast_spec room heap senderId pub hdr p draw clk once tagged sub
    by_cases ready : sub ∈ room.otherParticipants senderId ∧ (heap sub).isSubscribeReady = true
    · obtain ⟨checked, marked, layers, passed⟩ := turn ready
      have handed := pass_watched (kept.ensured draw) rid (isKeyframe hdr p) p checked marked
      refine ⟨?_, fun _ => ?_⟩
      · rw [vssrc]
        simp only [pass, gateOf] at handed
        simp only [gateOf, done, layers, passed, AList.lookup_insert, List.map_map, Option.getD_some]
        exact handed
      · rw [vssrc, ensure_snd]
        exact ensure_nonzero _ _
    · obtain ⟨layers, passed⟩ := idle ready
      rw [show done.2.filter (·.1 = sub) = [] from passed, List.map_nil, List.append_nil]
      refine kept.frame (congrArg _ layers) fun drawn => ?_
      rw [vssrc, ensure_of_drawn _ _ drawn]

theorem accepted_message {hub : RoomHub} {r : RoomId}
    (paired : Paired room senderId pub session subId sub hub r) (pid : Nat)
    (targets : List SubscribeLayerTarget) (draws : Ptr → NonzeroSsrc) (now : Instant) :
    (handleSubscribeLayer hub session pid subId (some targets) draws now).heap =
      targets.foldl (subscribeTarget room sub draws now) hub.heap := by
  have found : room.getParticipant subId = some sub := paired.subscriber
  simp [handleSubscribeLayer, paired.joined, paired.held, paired.simulcast, found]

/-- One message or packet changes no room and keeps the record in order. -/
theorem step_kept {r : RoomId} (s : Stage) (op : GateOp)
    (paired : Paired room senderId pub session subId sub s.hub r)
    (once : Injective room.participants)
    (kept : Kept senderId pub sub s.hub.heap (s.selected, s.changes) s.log) :
    let next := step room senderId pub session subId sub s op
    Paired room senderId pub session subId sub next.hub r ∧
      Kept senderId pub sub next.hub.heap (next.selected, next.changes) next.log := by
  intro next
  have same : ∀ heap : Heap, Paired room senderId pub session subId sub
      { s.hub with heap := heap } r := fun _ =>
    ⟨paired.held, paired.simulcast, paired.joined, paired.publisher, paired.subscriber⟩
  cases op with
  | subscribeLayer pid targets draws now =>
    refine ⟨same _, ?_⟩
    cases targets with
    | none => exact kept
    | some targets =>
      have handled := targets_kept kept paired.publisher draws now targets
      rw [← accepted_message paired pid] at handled
      exact handled
  | packet hdr p draw clk => exact ⟨same _, packet_kept kept once hdr p draw clk⟩

end Stage

/-- In a room of any reachable state, from the moment at which the subscriber has no entry
    for the publisher: whatever the order of messages and packets, what the subscriber is
    handed is in order. -/
theorem layers_gated (hmacSha1 : Bytes → Bytes → Bytes) (crc32 : Bytes → UInt32)
    (es : List Event) (r : RoomId) (room : Room) (senderId : UserId) (pub : Ptr)
    (session : Session) (subId : UserId) (sub : Ptr)
    (paired : Paired room senderId pub session subId sub
      (run (Servers.step hmacSha1 crc32) Server.new es).hub r)
    (fresh : ((run (Servers.step hmacSha1 crc32) Server.new es).hub.heap
      sub).subscribeLayers.lookup senderId = none) (ops : List GateOp) :
    let s := run (step room senderId pub session subId sub)
      ⟨(run (Servers.step hmacSha1 crc32) Server.new es).hub, "h", 0, []⟩ ops
    Gated (s.hub.heap pub).simulcastVideoSsrc s.log := by
  have once : Injective room.participants :=
    participants_injective (Seating.run_seated hmacSha1 crc32 es).sound paired.held
  generalize (run (Servers.step hmacSha1 crc32) Server.new es).hub = hub at paired fresh
  have start : Kept senderId pub sub hub.heap ("h", 0) [] := by
    refine ⟨⟨?_, by simp [gateOf], fun _ => ⟨rfl, rfl⟩, fun e found => ?_⟩, fun entry => ?_⟩
    · exact ⟨by simp [gateOf], by simp [gateOf], by simp [gateOf], List.isChain_nil, List.Pairwise.nil⟩
    · rw [gateOf, fresh] at found
      simp at found
    · exact absurd fresh entry
  have kept := @run_invariant _ _ (step room senderId pub session subId sub)
    (fun s => Paired room senderId pub session subId sub s.hub r ∧
      Kept senderId pub sub s.hub.heap (s.selected, s.changes) s.log)
    (fun s op held => step_kept s op held.1 once held.2) ⟨hub, "h", 0, []⟩ ⟨paired, start⟩ ops
  exact kept.2.watched.gated

/-- A publisher of two layers and a ready subscriber. -/
def twoLayers : List Event :=
  sampleRoom .conference true :: joinAs 0 "a" 1 ++ joinAs 1 "b" 2 ++
    startMedia 0 1 .publish 5000 ++ startMedia 1 2 .subscribe 5001 ++
    [publishVideo 0 [(11, some "h"), (12, some "l")]]

def viewer : Session := ⟨some "b", some "room", none, none, 1⟩

def packetOf (seq : UInt16) (ts ssrc : UInt32) : GateOp :=
  .packet (parseRtpHeader (keyframePacket seq ts ssrc 0)) (keyframePacket seq ts ssrc 0)
    ((sampleOracle 0).vssrc 0) fun _ => 0

def askLow : GateOp := .subscribeLayer 5 (some [⟨"a", "l"⟩]) (sampleOracle 0).vssrc 0

def studio : Room :=
  ((run (Servers.step sampleHmac fun _ => 0) Server.new twoLayers).hub.rooms.lookup "room").getD
    (.new "room" "sample" none .conference 1000 true 501 502)

def switchRun : Stage :=
  run (step studio "a" 0 viewer "b" 1)
    ⟨(run (Servers.step sampleHmac fun _ => 0) Server.new twoLayers).hub, "h", 0, []⟩
    [packetOf 100 9000 11, askLow, packetOf 7 50 11, packetOf 7 50 12]

theorem layers_gated_switch : Gated (switchRun.hub.heap 0).simulcastVideoSsrc switchRun.log := by
  have held : (run (Servers.step sampleHmac fun _ => 0) Server.new twoLayers).hub.rooms.lookup
      "room" = some studio := rfl
  exact layers_gated sampleHmac (fun _ => 0) twoLayers "room" studio "a" 0 viewer "b" 1
    ⟨held, by decide, rfl, by decide, by decide⟩ (by decide) _

/-- The layer is switched by the keyframe of the low layer; the packet in between is dropped. -/
example : switchRun.log.map (fun f => (f.changes, f.rid, u16At f.out 2, u32At f.out 4)) =
    [(0, "h", 100, 9000), (1, "l", 101, 9001)] := by decide

end LayerGating
