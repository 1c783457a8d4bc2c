import OxlensSfu.Participant
import OxlensSfu.SeqWindow
import OxlensSfu.GuardedRun

/-
Output numbers of one simulcast rewriter over a whole run. Source packets carry
an unbounded number whose low 16 bits stand in the header; a layer lasts from its
keyframe to the keyframe of the next one.
-/
namespace LayerNumbering
open WireBytes PttRewriter Participants GuardedRun SeqWindow

/-- `fed` are the numbers since the last switch, `layer` those forwarded of the current
    layer; the spans of the earlier ones are summed up in `fedClosed` and `closed`. The
    newest output and number come first. -/
structure Ledger where
  rewriter : SimulcastRewriter
  outputs : List UInt16
  fed : List Nat
  fedClosed : Nat
  layer : List Nat
  closed : Nat

inductive LayerOp where
  | switchLayer
  | rewrite (number : Nat) (buf : Bytes) (isKeyframe : Bool)

def start (virtualSsrc : UInt32) : Ledger := ⟨.new virtualSsrc, [], [], 0, [], 0⟩

/-- The next forwarded packet starts the layer that a switch waits for. -/
def Opens (r : SimulcastRewriter) : Prop := r.initialized = true ∧ r.pendingKeyframe = true

instance (r : SimulcastRewriter) : Decidable (Opens r) := inferInstanceAs (Decidable (_ ∧ _))

/-- A buffer without a full header has no number. -/
def feed (l : Ledger) (number : Nat) (buf : Bytes) : List Nat :=
  if 12 ≤ buf.length then number :: l.fed else l.fed

def step (l : Ledger) : LayerOp → Ledger
  | .switchLayer =>
    { l with rewriter := l.rewriter.switchLayer, fed := [], fedClosed := l.fedClosed + span l.fed }
  | .rewrite number buf isKeyframe =>
    match l.rewriter.rewrite buf isKeyframe with
    | (next, none) => { l with rewriter := next, fed := feed l number buf }
    | (next, some out) =>
      if Opens l.rewriter then
        ⟨next, u16At out 2 :: l.outputs, feed l number buf, l.fedClosed, [number],
          l.closed + span l.layer⟩
      else
        ⟨next, u16At out 2 :: l.outputs, feed l number buf, l.fedClosed, number :: l.layer,
          l.closed⟩

/-- The spans of all fed numbers, switch by switch. -/
def total (l : Ledger) : Nat := l.fedClosed + span l.fed

/-- Headers carry their numbers, and none is fed twice between two switches. -/
def Fed (l : Ledger) : LayerOp → Prop
  | .switchLayer => True
  | .rewrite number buf _ =>
    12 ≤ buf.length → u16At buf 2 = UInt16.ofNat number ∧ number ∉ l.fed

/-- The gates of `rewrite`: a full header, and the keyframe that a layer starts with. -/
def Passes (r : SimulcastRewriter) (buf : Bytes) (isKeyframe : Bool) : Prop :=
  12 ≤ buf.length ∧ (r.initialized = false ∨ r.pendingKeyframe = true → isKeyframe = true)

/-- A layer is left at its highest number, and nothing is forwarded below the keyframe
    of a layer that others precede. -/
def InOrder (l : Ledger) : LayerOp → Prop
  | .switchLayer => True
  | .rewrite number buf isKeyframe =>
    Passes l.rewriter buf isKeyframe →
      if Opens l.rewriter then EndsHighest l.layer else l.closed = 0 ∨ first l.layer ≤ number

instance (r : SimulcastRewriter) (buf : Bytes) (isKeyframe : Bool) :
    Decidable (Passes r buf isKeyframe) := inferInstanceAs (Decidable (_ ∧ (_ → _)))

instance (l : Ledger) : ∀ op, Decidable (Fed l op)
  | .switchLayer => isTrue trivial
  | .rewrite .. => inferInstanceAs (Decidable (_ → _ ∧ _))

instance (l : Ledger) : ∀ op, Decidable (InOrder l op)
  | .switchLayer => isTrue trivial
  | .rewrite .. => inferInstanceAs (Decidable (_ → ite _ _ _))

section Rewrite
variable {r : SimulcastRewriter} {buf : Bytes} {isKeyframe : Bool}

theorem rewrite_drops (dropped : ¬ Passes r buf isKeyframe) :
    r.rewrite buf isKeyframe = (r, none) := by
  unfold SimulcastRewriter.rewrite
  split
  · rfl
  · rename_i long
    split
    · rfl
    · rename_i gate
      refine absurd ⟨Nat.le_of_not_lt long, fun waits => ?_⟩ dropped
      rcases waits with fresh | pending
      · simpa [fresh] using gate
      · simpa [pending] using gate

/-- The rewriter after a packet is forwarded under its offsets. -/
def forwarded (anchored : SimulcastRewriter) (buf : Bytes) : SimulcastRewriter :=
  { anchored with
    lastOutSeq := u16At buf 2 + anchored.seqOffset
    lastOutTs := u32At buf 4 + anchored.tsOffset }

theorem rewrite_passes (passes : Passes r buf isKeyframe) :
    ∃ out, r.rewrite buf isKeyframe =
        (forwarded (r.anchor (u16At buf 2) (u32At buf 4)) buf, some out) ∧
      u16At out 2 = u16At buf 2 + (r.anchor (u16At buf 2) (u32At buf 4)).seqOffset ∧
      u32At out 4 = u32At buf 4 + (r.anchor (u16At buf 2) (u32At buf 4)).tsOffset ∧
      u32At out 8 = r.virtualSsrc := by
  let anchored := r.anchor (u16At buf 2) (u32At buf 4)
  have long : ¬ buf.length < 12 := Nat.not_lt.mpr passes.1
  have gate : ¬ ((!r.initialized || r.pendingKeyframe) && !isKeyframe) = true := by
    intro waits
    simp only [Bool.and_eq_true, Bool.or_eq_true, Bool.not_eq_true'] at waits
    simp [passes.2 waits.1] at waits
  refine ⟨writeHeader buf (u16At buf 2 + anchored.seqOffset) (u32At buf 4 + anchored.tsOffset)
    r.virtualSsrc, ?_, writeHeader_seq _ _ _ passes.1, writeHeader_ts _ _ _ passes.1,
    writeHeader_ssrc _ _ _ passes.1⟩
  rw [SimulcastRewriter.rewrite, if_neg long, if_neg gate]
  rfl

theorem anchor_first (fresh : r.initialized = false) (inputSeq : UInt16) (inputTs : UInt32) :
    r.anchor inputSeq inputTs =
      { r with seqOffset := 0, tsOffset := 0, initialized := true, pendingKeyframe := false } := by
  simp [SimulcastRewriter.anchor, fresh]

theorem anchor_opens (opens : Opens r) (inputSeq : UInt16) (inputTs : UInt32) :
    r.anchor inputSeq inputTs =
      { r with
        seqOffset := r.lastOutSeq + 1 - inputSeq
        tsOffset := r.lastOutTs + 1 - inputTs
        pendingKeyframe := false } := by
  simp [SimulcastRewriter.anchor, opens.1, opens.2]

theorem anchor_running (begun : r.initialized = true) (running : r.pendingKeyframe = false)
    (inputSeq : UInt16) (inputTs : UInt32) : r.anchor inputSeq inputTs = r := by
  simp [SimulcastRewriter.anchor, begun, running]

end Rewrite

/-- What a forwarded packet does, by the kind of packet it is. -/
theorem step_passes {l : Ledger} {number : Nat} {buf : Bytes} {isKeyframe : Bool}
    (passes : Passes l.rewriter buf isKeyframe) :
    let next := forwarded (l.rewriter.anchor (u16At buf 2) (u32At buf 4)) buf
    step l (.rewrite number buf isKeyframe) =
      if Opens l.rewriter then
        ⟨next, next.lastOutSeq :: l.outputs, number :: l.fed, l.fedClosed, [number],
          l.closed + span l.layer⟩
      else
        ⟨next, next.lastOutSeq :: l.outputs, number :: l.fed, l.fedClosed, number :: l.layer,
          l.closed⟩ := by
  obtain ⟨out, written, seq, _⟩ := rewrite_passes passes
  simp only [step, written, feed, if_pos passes.1, seq]
  rfl

theorem step_drops {l : Ledger} {number : Nat} {buf : Bytes} {isKeyframe : Bool}
    (dropped : ¬ Passes l.rewriter buf isKeyframe) :
    step l (.rewrite number buf isKeyframe) = { l with fed := feed l number buf } := by
  simp only [step, rewrite_drops dropped]

/-- The forwarded numbers are among the fed ones, switch by switch. -/
structure Counted (l : Ledger) : Prop where
  unopened : l.rewriter.initialized = false → l.layer = []
  waiting : l.rewriter.pendingKeyframe = true → l.closed + span l.layer ≤ l.fedClosed
  running : l.rewriter.pendingKeyframe = false → l.closed ≤ l.fedClosed ∧ l.layer ⊆ l.fed

theorem Counted.bound {l : Ledger} (counted : Counted l) : l.closed + span l.layer ≤ total l := by
  cases pending : l.rewriter.pendingKeyframe with
  | true => exact Nat.le_trans (counted.waiting pending) (Nat.le_add_right _ _)
  | false =>
    obtain ⟨closed, subset⟩ := counted.running pending
    exact Nat.add_le_add closed (span_le_of_subset subset)

theorem fed_subset_feed (l : Ledger) (number : Nat) (buf : Bytes) : l.fed ⊆ feed l number buf := by
  unfold feed
  split
  · exact List.subset_cons_self _ _
  · exact List.Subset.refl _

theorem step_counted {l : Ledger} (op : LayerOp) (counted : Counted l) : Counted (step l op) := by
  have bound := counted.bound
  cases op with
  | switchLayer =>
    exact ⟨counted.unopened, fun _ => bound, fun idle => absurd idle (by simp [step,
      SimulcastRewriter.switchLayer])⟩
  | rewrite number buf isKeyframe =>
    by_cases passes : Passes l.rewriter buf isKeyframe
    · rw [step_passes passes]
      by_cases opens : Opens l.rewriter
      · have after := anchor_opens opens (u16At buf 2) (u32At buf 4)
        rw [if_pos opens, after]
        refine ⟨fun fresh => absurd opens.1 (by simpa [forwarded] using fresh),
          fun pending => absurd pending (by simp [forwarded]), fun _ => ?_⟩
        exact ⟨counted.waiting opens.2, by simp⟩
      · rw [if_neg opens]
        cases begun : l.rewriter.initialized with
        | false =>
          rw [anchor_first begun, counted.unopened begun]
          refine ⟨fun fresh => absurd fresh (by simp [forwarded]),
            fun pending => absurd pending (by simp [forwarded]), fun _ => ⟨?_, by simp⟩⟩
          cases pending : l.rewriter.pendingKeyframe with
          | true => exact Nat.le_trans (Nat.le_add_right _ _) (counted.waiting pending)
          | false => exact (counted.running pending).1
        | true =>
          have pending : l.rewriter.pendingKeyframe = false :=
            Bool.eq_false_iff.mpr fun pending => opens ⟨begun, pending⟩
          obtain ⟨closed, subset⟩ := counted.running pending
          rw [anchor_running begun pending]
          refine ⟨fun fresh => absurd begun (by simpa [forwarded] using fresh),
            fun waits => absurd pending (by simpa [forwarded] using waits), fun _ => ⟨closed, ?_⟩⟩
          exact List.cons_subset_cons _ subset
    · rw [step_drops passes]
      exact ⟨counted.unopened, counted.waiting, fun idle =>
        ⟨(counted.running idle).1,
          List.Subset.trans (counted.running idle).2 (fed_subset_feed l number buf)⟩⟩

theorem total_le_step (l : Ledger) (op : LayerOp) : total l ≤ total (step l op) := by
  have fed : ∀ number buf, span l.fed ≤ span (feed l number buf) := by
    intro number buf
    exact span_le_of_subset (fed_subset_feed l number buf)
  cases op with
  | switchLayer => exact Nat.le_refl _
  | rewrite number buf isKeyframe =>
    by_cases passes : Passes l.rewriter buf isKeyframe
    · have grown := span_le_cons number l.fed
      rw [step_passes passes]
      split
      · exact Nat.add_le_add_left grown _
      · exact Nat.add_le_add_left grown _
    · rw [step_drops passes]
      exact Nat.add_le_add_left (fed number buf) _

/-- The rewriter's state, read back as positions: the layer follows `top`, and its newest
    packet was the last output. -/
structure Placed (l : Ledger) (origin top : Nat) (past : List Nat) : Prop where
  low : 65536 ≤ origin
  spread : Spread origin l.closed top l.layer past
  outputs : l.outputs = (positions top l.layer past).map UInt16.ofNat
  begun : l.rewriter.initialized = true
  nonempty : l.layer ≠ []
  last : l.rewriter.lastOutSeq = UInt16.ofNat (position top l.layer (l.layer.headD 0))
  offset : l.rewriter.seqOffset = UInt16.ofNat (top + 1) - UInt16.ofNat (first l.layer)

/-- Nothing was put out. -/
structure Fresh (l : Ledger) : Prop where
  waits : l.rewriter.initialized = false
  outputs : l.outputs = []
  layer : l.layer = []
  closed : l.closed = 0

def Numbered (l : Ledger) : Prop := Fresh l ∨ ∃ origin top past, Placed l origin top past

theorem numbered_nodup {l : Ledger} (numbered : Numbered l)
    (short : l.closed + span l.layer < 32768) : l.outputs.Nodup := by
  rcases numbered with fresh | ⟨origin, top, past, placed⟩
  · rw [fresh.outputs]
    exact List.nodup_nil
  · rw [placed.outputs]
    exact residues_nodup placed.spread placed.low short

theorem offset_add {base start n : Nat} (enough : start ≤ base + n) :
    UInt16.ofNat n + (UInt16.ofNat base - UInt16.ofNat start) =
      UInt16.ofNat (base + n - start) := by
  apply UInt16.toNat_inj.mp
  simp only [UInt16.toNat_add, UInt16.toNat_sub, UInt16.toNat_ofNat']
  omega

/-- A forwarded packet takes the place that the offset in force gives it. -/
theorem place_forward {anchored : SimulcastRewriter} {outputs : List UInt16}
    {layer past fed : List Nat} {origin closed top number fedClosed : Nat} {buf : Bytes}
    (header : u16At buf 2 = UInt16.ofNat number) (begun : anchored.initialized = true)
    (offset : anchored.seqOffset =
      UInt16.ofNat (top + 1) - UInt16.ofNat (first (number :: layer)))
    (low : 65536 ≤ origin) (spread : Spread origin closed top (number :: layer) past)
    (short : closed + span (number :: layer) < 32768)
    (outs : outputs = (positions top layer past).map UInt16.ofNat) :
    Placed ⟨forwarded anchored buf, (forwarded anchored buf).lastOutSeq :: outputs, fed, fedClosed,
      number :: layer, closed⟩ origin top past := by
  have newest : number ∈ number :: layer := List.mem_cons_self
  have window := lt_add_span (first_mem newest) newest
  have bottom := spread.topRange.1
  have last : (forwarded anchored buf).lastOutSeq =
      UInt16.ofNat (position top (number :: layer) number) := by
    change u16At buf 2 + anchored.seqOffset = _
    rw [header, offset, offset_add (by omega)]
    rfl
  refine ⟨low, spread, ?_, begun, List.cons_ne_nil _ _, last, offset⟩
  rw [positions_cons, List.map_cons, last, outs]

theorem place_first {l : Ledger} {number : Nat} {buf : Bytes} {isKeyframe : Bool}
    (fresh : Fresh l) (passes : Passes l.rewriter buf isKeyframe)
    (header : u16At buf 2 = UInt16.ofNat number) :
    ∃ origin top past, Placed (step l (.rewrite number buf isKeyframe)) origin top past := by
  have opens : ¬ Opens l.rewriter := fun opens => by simp [Opens, fresh.waits] at opens
  have spread : Spread (131071 + number) 0 (131071 + number) [number] [] :=
    (Spread.start _).extend List.not_mem_nil (.inl rfl)
  refine ⟨131071 + number, 131071 + number, [], ?_⟩
  rw [step_passes passes, if_neg opens, anchor_first fresh.waits, fresh.layer, fresh.closed,
    fresh.outputs]
  refine place_forward header rfl ?_ (by omega) spread (by simp [span]) rfl
  -- the first keyframe keeps its number: its offset is 0
  apply UInt16.toNat_inj.mp
  simp only [first, List.getLastD_cons, List.getLastD_nil, UInt16.toNat_sub, UInt16.toNat_ofNat',
    UInt16.toNat_zero]
  omega

theorem place_opens {l : Ledger} {origin top number : Nat} {past : List Nat} {buf : Bytes}
    {isKeyframe : Bool} (placed : Placed l origin top past)
    (passes : Passes l.rewriter buf isKeyframe) (header : u16At buf 2 = UInt16.ofNat number)
    (opens : Opens l.rewriter) (highest : EndsHighest l.layer)
    (short : l.closed + span l.layer + span [number] < 32768) :
    ∃ origin top past, Placed (step l (.rewrite number buf isKeyframe)) origin top past := by
  obtain ⟨n, ns, layer⟩ : ∃ n ns, l.layer = n :: ns := List.exists_cons_of_ne_nil placed.nonempty
  have newest : l.layer.head? = some n := by rw [layer, List.head?_cons]
  have closed := placed.spread.close placed.low (by omega) newest highest
  have last := placed.last
  rw [layer, List.headD_cons, ← layer] at last
  refine ⟨origin, position top l.layer n, positions top l.layer past, ?_⟩
  rw [step_passes passes, if_pos opens, anchor_opens opens]
  refine place_forward header placed.begun ?_ placed.low
    (closed.extend List.not_mem_nil (.inl rfl)) short placed.outputs
  change l.rewriter.lastOutSeq + 1 - u16At buf 2 = _
  rw [last, header, ← ofNat_add]
  rfl

theorem place_next {l : Ledger} {origin top number : Nat} {past : List Nat} {buf : Bytes}
    {isKeyframe : Bool} (placed : Placed l origin top past)
    (passes : Passes l.rewriter buf isKeyframe) (header : u16At buf 2 = UInt16.ofNat number)
    (running : ¬ Opens l.rewriter) (new : number ∉ l.layer)
    (order : l.closed = 0 ∨ first l.layer ≤ number)
    (short : l.closed + span (number :: l.layer) < 32768) :
    ∃ origin top past, Placed (step l (.rewrite number buf isKeyframe)) origin top past := by
  have pending : l.rewriter.pendingKeyframe = false :=
    Bool.eq_false_iff.mpr fun pending => running ⟨placed.begun, pending⟩
  refine ⟨origin, top, past, ?_⟩
  rw [step_passes passes, if_neg running, anchor_running placed.begun pending]
  refine place_forward header placed.begun ?_ placed.low
    (placed.spread.extend new (.inr order)) short placed.outputs
  rw [placed.offset, first_cons placed.nonempty]

/-- What was fed and whether a keyframe is awaited does not matter for the outputs. -/
theorem Numbered.keep {l : Ledger} (numbered : Numbered l) (waits : Bool) (fed : List Nat)
    (fedClosed : Nat) :
    Numbered { l with rewriter := { l.rewriter with pendingKeyframe := waits }, fed, fedClosed } := by
  rcases numbered with fresh | ⟨origin, top, past, placed⟩
  · exact .inl ⟨fresh.waits, fresh.outputs, fresh.layer, fresh.closed⟩
  · exact .inr ⟨origin, top, past, placed.low, placed.spread, placed.outputs, placed.begun,
      placed.nonempty, placed.last, placed.offset⟩

theorem step_numbered {l : Ledger} {op : LayerOp} (fed : Fed l op) (ordered : InOrder l op)
    (counted : Counted l) (short : total (step l op) < 32768) (numbered : Numbered l) :
    Numbered (step l op) := by
  cases op with
  | switchLayer => exact numbered.keep true [] _
  | rewrite number buf isKeyframe =>
    by_cases passes : Passes l.rewriter buf isKeyframe
    · have bound := Nat.lt_of_le_of_lt (step_counted (.rewrite number buf isKeyframe) counted).bound
        short
      obtain ⟨header, new⟩ := fed passes.1
      rcases numbered with fresh | ⟨origin, top, past, placed⟩
      · exact .inr (place_first fresh passes header)
      · by_cases opens : Opens l.rewriter
        · have highest := ordered passes
          rw [if_pos opens] at highest
          rw [step_passes passes, if_pos opens] at bound
          exact .inr (place_opens placed passes header opens highest bound)
        · have order := ordered passes
          rw [if_neg opens] at order
          rw [step_passes passes, if_neg opens] at bound
          have pending : l.rewriter.pendingKeyframe = false :=
            Bool.eq_false_iff.mpr fun pending => opens ⟨placed.begun, pending⟩
          have subset := (counted.running pending).2
          exact .inr (place_next placed passes header opens (fun old => new (subset old)) order bound)
    · rw [step_drops passes]
      exact numbered.keep l.rewriter.pendingKeyframe _ l.fedClosed

theorem start_numbered (virtualSsrc : UInt32) :
    Counted (start virtualSsrc) ∧ Numbered (start virtualSsrc) :=
  ⟨⟨fun _ => rfl, fun waits => (nomatch waits), fun _ => ⟨Nat.le_refl _, List.Subset.refl _⟩⟩,
    .inl ⟨rfl, rfl, rfl, rfl⟩⟩

theorem layer_numbers_distinct (virtualSsrc : UInt32) (ops : List LayerOp)
    (fed : Guarded step Fed (start virtualSsrc) ops)
    (short : total (run step (start virtualSsrc) ops) < 32768)
    (ordered : Guarded step InOrder (start virtualSsrc) ops) :
    (run step (start virtualSsrc) ops).outputs.Nodup := by
  have kept : ∀ l op, (Counted l ∧ (total l < 32768 → Numbered l)) → Fed l op ∧ InOrder l op →
      Counted (step l op) ∧ (total (step l op) < 32768 → Numbered (step l op)) := by
    intro l op ⟨counted, numbered⟩ allowed
    refine ⟨step_counted op counted, fun short => ?_⟩
    have before := Nat.lt_of_le_of_lt (total_le_step l op) short
    exact step_numbered allowed.1 allowed.2 counted short (numbered before)
  obtain ⟨counted, numbered⟩ := guarded_invariant kept
    ⟨(start_numbered virtualSsrc).1, fun _ => (start_numbered virtualSsrc).2⟩ ops
    (guarded_and fed ordered)
  exact numbered_nodup (numbered short) (Nat.lt_of_le_of_lt counted.bound short)

/-- A minimal VP8 packet with the given number. -/
def videoPacket (number : Nat) : Bytes :=
  [0x80, 96] ++ bytes16 (UInt16.ofNat number) ++ [0, 0, 0, 0, 0, 0, 0, 1] ++ [0xAA]

theorem layer_numbers_distinct_two_layers :
    (run step (start 7) [.rewrite 10 (videoPacket 10) true, .rewrite 12 (videoPacket 12) false,
      .rewrite 11 (videoPacket 11) false, .rewrite 13 (videoPacket 13) false, .switchLayer,
      .rewrite 99 (videoPacket 99) false, .rewrite 100 (videoPacket 100) true,
      .rewrite 102 (videoPacket 102) false]).outputs.Nodup :=
  layer_numbers_distinct 7 _ (by decide) (by decide) (by decide)

/-- Two packets of the first layer swap places right before the switch, and the keyframe
    of the next layer takes the number of the later one. -/
theorem swapped_tail_collides : ¬ ∀ (virtualSsrc : UInt32) (ops : List LayerOp),
    Guarded step Fed (start virtualSsrc) ops →
    total (run step (start virtualSsrc) ops) < 32768 →
    (run step (start virtualSsrc) ops).outputs.Nodup := by
  intro distinct
  have collision := distinct 7 [.rewrite 10 (videoPacket 10) true,
    .rewrite 12 (videoPacket 12) false, .rewrite 11 (videoPacket 11) false, .switchLayer,
    .rewrite 100 (videoPacket 100) true] (by decide) (by decide)
  exact absurd collision (by decide)

end LayerNumbering
