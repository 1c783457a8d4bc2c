import OxlensSfu.PttRewriter
import OxlensSfu.SeqWindow
import OxlensSfu.GuardedRun

/-
Virtual numbers of one rewriter over a whole run. Source packets carry an
unbounded number whose low 16 bits stand in the header; every output gets an
unbounded position whose low 16 bits are its virtual sequence number.
-/
namespace BurstNumbering
open WireBytes FloorControl PttRewriter GuardedRun SeqWindow

/-- What one rewriter has put out. The newest output and number come first. -/
structure Ledger where
  rewriter : Rewriter
  outputs : List UInt16
  burst : List Nat
  closed : Nat

inductive RewriterOp where
  | switchSpeaker (userId : UserId) (now : Instant)
  | clearSpeaker (now : Instant)
  | rewrite (number : Nat) (plaintext : Bytes) (sender : UserId) (isKeyframe : Bool)
      (now : Instant)

def start (r : Rewriter) : Ledger := ⟨r, [], [], 0⟩

def seqOf (out : Bytes) : UInt16 := u16At out 2

def step (l : Ledger) : RewriterOp → Ledger
  | .switchSpeaker userId now =>
    ⟨switchSpeaker l.rewriter userId now, l.outputs, [], l.closed + span l.burst⟩
  | .clearSpeaker now =>
    let (next, frames) := clearSpeaker l.rewriter now
    ⟨next, (frames.getD []).reverse.map seqOf ++ l.outputs, [],
      l.closed + span l.burst + (frames.getD []).length⟩
  | .rewrite number plaintext sender isKeyframe now =>
    match rewrite l.rewriter plaintext sender isKeyframe now with
    | (next, .ok, out) => ⟨next, seqOf out :: l.outputs, number :: l.burst, l.closed⟩
    | (next, _, _) => { l with rewriter := next }

/-- The spans of all bursts and the silence frames. -/
def total (l : Ledger) : Nat := l.closed + span l.burst

/-- Headers carry their numbers, and a burst forwards no number twice. -/
def Fed (l : Ledger) : RewriterOp → Prop
  | .rewrite number plaintext sender isKeyframe _ =>
    u16At plaintext 2 = UInt16.ofNat number ∧
      (Admits l.rewriter plaintext sender isKeyframe → number ∉ l.burst)
  | _ => True

/-- The first number of the open burst. -/
def first (burst : List Nat) : Nat := burst.getLastD 0

/-- The newest number of the open burst is its highest. -/
def EndsHighest (burst : List Nat) : Prop := ∀ n ∈ burst, n ≤ burst.headD 0

/-- A burst is closed at its highest number, and nothing is forwarded below the
    first number of a burst that other outputs precede. -/
def InOrder (l : Ledger) : RewriterOp → Prop
  | .rewrite number plaintext sender isKeyframe _ =>
    Admits l.rewriter plaintext sender isKeyframe →
      l.burst = [] ∨ l.closed = 0 ∨ first l.burst ≤ number
  | _ => EndsHighest l.burst

instance (l : Ledger) : ∀ op, Decidable (Fed l op)
  | .rewrite .. => inferInstanceAs (Decidable (_ ∧ (_ → _)))
  | .switchSpeaker .. => isTrue trivial
  | .clearSpeaker .. => isTrue trivial

instance (l : Ledger) : ∀ op, Decidable (InOrder l op)
  | .rewrite .. => inferInstanceAs (Decidable (_ → _ ∨ _ ∨ _))
  | .switchSpeaker .. => inferInstanceAs (Decidable (∀ n ∈ l.burst, n ≤ l.burst.headD 0))
  | .clearSpeaker .. => inferInstanceAs (Decidable (∀ n ∈ l.burst, n ≤ l.burst.headD 0))

theorem silenceFrame_seq (r : Rewriter) (i : Nat) :
    seqOf (silenceFrame r i) = r.state.lastVirtualSeq + UInt16.ofNat (1 + i) := by
  have header : seqOf (silenceFrame r i) =
      be16 (UInt8.ofNat ((r.state.lastVirtualSeq + UInt16.ofNat (1 + i)).toNat / 256))
        (UInt8.ofNat ((r.state.lastVirtualSeq + UInt16.ofNat (1 + i)).toNat % 256)) := rfl
  rw [header, be16_bytes16]

/-- A clear either emits nothing or three frames that follow the last output. -/
theorem clearSpeaker_cases (r : Rewriter) (now : Instant) :
    (clearSpeaker r now).1.state.speaker = none ∧
    (((clearSpeaker r now).2 = none ∧
        (clearSpeaker r now).1.state.lastVirtualSeq = r.state.lastVirtualSeq) ∨
      ((clearSpeaker r now).2 = some ((List.range 3).map (silenceFrame r)) ∧
        (clearSpeaker r now).1.state.lastVirtualSeq = r.state.lastVirtualSeq + 3)) := by
  unfold clearSpeaker
  split
  · exact ⟨rfl, .inl ⟨rfl, rfl⟩⟩
  · split
    · exact ⟨rfl, .inl ⟨rfl, rfl⟩⟩
    · exact ⟨rfl, .inr ⟨rfl, rfl⟩⟩

/-- The position of a number of the open burst, whose base follows `top`. -/
def position (top : Nat) (burst : List Nat) (n : Nat) : Nat := top + 1 + n - first burst

/-- The rewriter's numbering state, read back as positions: between bursts the
    last output is at `top`; inside one, the origin is the first number. -/
def Anchored (l : Ledger) (top : Nat) : Prop :=
  match l.burst with
  | [] => l.rewriter.state.lastVirtualSeq = UInt16.ofNat top ∧
      (l.rewriter.state.speaker ≠ none → l.rewriter.state.awaitingFirstPacket = true ∧
        l.rewriter.state.virtualBaseSeq = UInt16.ofNat (top + 1))
  | n :: ns => l.rewriter.state.lastVirtualSeq = UInt16.ofNat (position top (n :: ns) n) ∧
      l.rewriter.state.awaitingFirstPacket = false ∧
      l.rewriter.state.originBaseSeq = UInt16.ofNat (first (n :: ns)) ∧
      l.rewriter.state.virtualBaseSeq = UInt16.ofNat (top + 1)

/-- Outputs before the burst lie at or below `top`; the burst lies above it, unless
    nothing came before it. -/
structure Placed (l : Ledger) (top : Nat) (past : List Nat) : Prop where
  outputs : l.outputs = (l.burst.map (position top l.burst) ++ past).map UInt16.ofNat
  pastDistinct : past.Nodup
  pastRange : ∀ q ∈ past, 65536 < q + l.closed ∧ q ≤ top
  topRange : 65536 ≤ top ∧ top ≤ 65536 + l.closed
  fresh : l.closed = 0 → past = []
  burstDistinct : l.burst.Nodup
  above : ∀ n ∈ l.burst, l.closed = 0 ∨ first l.burst ≤ n
  anchored : Anchored l top

theorem Placed.spread {l : Ledger} {top : Nat} {past : List Nat} (placed : Placed l top past) :
    Spread 65536 l.closed top l.burst past :=
  ⟨placed.pastDistinct, placed.pastRange, placed.topRange, placed.fresh, placed.burstDistinct,
    placed.above⟩

theorem outputs_nodup {l : Ledger} {top : Nat} {past : List Nat} (placed : Placed l top past)
    (short : total l < 32768) : l.outputs.Nodup := by
  rw [placed.outputs]
  exact residues_nodup placed.spread (Nat.le_refl _) short

/-- All bursts are closed: outputs at or below `top`, the last of them at `top`. -/
structure Settled (outputs : List UInt16) (closed : Nat) (last : UInt16) (top : Nat)
    (past : List Nat) : Prop where
  outputs : outputs = past.map UInt16.ofNat
  distinct : past.Nodup
  range : ∀ q ∈ past, 65536 < q + closed ∧ q ≤ top
  topRange : 65536 ≤ top ∧ top ≤ 65536 + closed
  fresh : closed = 0 → past = []
  last : last = UInt16.ofNat top

/-- A burst that ends at its highest number leaves the last output on top. -/
theorem settle {l : Ledger} {top : Nat} {past : List Nat} (placed : Placed l top past)
    (short : total l < 32768) (highest : EndsHighest l.burst) :
    ∃ top' past', Settled l.outputs (total l) l.rewriter.state.lastVirtualSeq top' past' := by
  cases open_ : l.burst with
  | nil =>
    have closed : total l = l.closed := by simp [total, span, open_]
    have anchored := placed.anchored
    rw [Anchored, open_] at anchored
    refine ⟨top, past, ?_, placed.pastDistinct, ?_, ?_, ?_, anchored.1⟩
    · simpa [open_] using placed.outputs
    · rw [closed]; exact placed.pastRange
    · rw [closed]; exact placed.topRange
    · rw [closed]; exact placed.fresh
  | cons n ns =>
    have newest : l.burst.head? = some n := by rw [open_, List.head?_cons]
    have closed := placed.spread.close (Nat.le_refl _) short newest highest
    have anchored := placed.anchored
    rw [Anchored, open_] at anchored
    refine ⟨_, _, placed.outputs, closed.pastDistinct, closed.pastRange, closed.topRange,
      closed.fresh, ?_⟩
    rw [open_]
    exact anchored.1

theorem place_switch {outputs : List UInt16} {closed top : Nat} {past : List Nat} (r : Rewriter)
    (settled : Settled outputs closed r.state.lastVirtualSeq top past) (userId : UserId)
    (now : Instant) : Placed ⟨switchSpeaker r userId now, outputs, [], closed⟩ top past := by
  obtain ⟨outs, distinct, range, topRange, fresh, last⟩ := settled
  refine ⟨by simpa using outs, distinct, range, topRange, fresh, by simp, by simp, ?_⟩
  refine ⟨last, fun _ => ⟨rfl, ?_⟩⟩
  have base : (switchSpeaker r userId now).state.virtualBaseSeq = r.state.lastVirtualSeq + 1 := rfl
  rw [base, last]
  exact ofNat_add top 1

theorem place_clear {outputs : List UInt16} {closed top : Nat} {past : List Nat} (r : Rewriter)
    (settled : Settled outputs closed r.state.lastVirtualSeq top past) (now : Instant) :
    ∃ top' past', Placed ⟨(clearSpeaker r now).1,
      ((clearSpeaker r now).2.getD []).reverse.map seqOf ++ outputs, [],
      closed + ((clearSpeaker r now).2.getD []).length⟩ top' past' := by
  obtain ⟨outs, distinct, range, topRange, fresh, last⟩ := settled
  obtain ⟨quiet, ⟨none, same⟩ | ⟨frames, moved⟩⟩ := clearSpeaker_cases r now
  · refine ⟨top, past, by simpa [none] using outs, distinct, ?_, ?_, ?_, by simp, by simp, ?_⟩
    · simpa [none] using range
    · simpa [none] using topRange
    · simpa [none] using fresh
    · exact ⟨by rw [same, last], fun speaking => absurd quiet speaking⟩
  · have seqs : ((clearSpeaker r now).2.getD []).reverse.map seqOf =
        [top + 3, top + 2, top + 1].map UInt16.ofNat := by
      simp only [frames, Option.getD_some, List.range_succ, List.range_zero, List.nil_append,
        List.cons_append, List.map_cons, List.map_nil, List.reverse_cons, List.reverse_nil,
        silenceFrame_seq, last, ofNat_add]
    have count : ((clearSpeaker r now).2.getD []).length = 3 := by simp [frames]
    refine ⟨top + 3, [top + 3, top + 2, top + 1] ++ past, ?_, ?_, ?_, ?_, ?_, by simp, by simp, ?_⟩
    · simp only [seqs, outs, List.map_nil, List.nil_append, List.map_append]
    · refine List.Nodup.append (by simp) distinct fun q new old => ?_
      have := (range q old).2
      simp only [List.mem_cons, List.not_mem_nil, or_false] at new
      omega
    · simp only [count]
      intro q member
      rcases List.mem_append.mp member with new | old
      · simp only [List.mem_cons, List.not_mem_nil, or_false] at new
        omega
      · have := range q old
        omega
    · simp only [count]
      omega
    · simp only [count]
      omega
    · refine ⟨?_, fun speaking => absurd quiet speaking⟩
      rw [moved, last]
      exact ofNat_add top 3

/-- The base of the open burst, or of the one that this packet opens. -/
theorem forward_numbers {l : Ledger} {top : Nat} {past : List Nat} (placed : Placed l top past)
    {p : Bytes} {number : Nat} (now : Instant) (long : 12 ≤ p.length)
    (speaks : l.rewriter.state.speaker ≠ none) (header : u16At p 2 = UInt16.ofNat number)
    (near : first (number :: l.burst) ≤ top + 1 + number) :
    seqOf (forward l.rewriter p now).2 = UInt16.ofNat (position top (number :: l.burst) number) ∧
      Anchored ⟨(forward l.rewriter p now).1, [], number :: l.burst, 0⟩ top := by
  let anchor := anchorBurst l.rewriter (u16At p 2) (u32At p 4) now
  have origin : anchor.awaitingFirstPacket = false ∧
      anchor.originBaseSeq = UInt16.ofNat (first (number :: l.burst)) ∧
      anchor.virtualBaseSeq = UInt16.ofNat (top + 1) := by
    have anchored := placed.anchored
    cases open_ : l.burst with
    | nil =>
      rw [Anchored, open_] at anchored
      obtain ⟨awaiting, base⟩ := anchored.2 speaks
      simp only [anchor, anchorBurst, awaiting, if_true]
      exact ⟨trivial, header, base⟩
    | cons n ns =>
      rw [Anchored, open_] at anchored
      obtain ⟨-, begun, origin, base⟩ := anchored
      simp only [anchor, anchorBurst, begun, Bool.false_eq_true, if_false]
      exact ⟨trivial, by rw [origin]; rfl, base⟩
  have seq : virtualSeq anchor (u16At p 2) =
      UInt16.ofNat (position top (number :: l.burst) number) := by
    rw [virtualSeq, header, origin.2.1, origin.2.2, ofNat_offset near]
    rfl
  exact ⟨(forward_spec l.rewriter now long).2.1.trans seq, seq, origin.1, origin.2.1, origin.2.2⟩

theorem total_le_step (l : Ledger) (op : RewriterOp) : total l ≤ total (step l op) := by
  cases op with
  | switchSpeaker => simp [step, total, span]
  | clearSpeaker => simp only [step, total, span]; omega
  | rewrite number p sender isKeyframe now =>
    by_cases admitted : Admits l.rewriter p sender isKeyframe
    · have grown := span_le_cons number l.burst
      simp only [step, rewrite_admitted admitted, total]
      omega
    · obtain ⟨result, rejected, same⟩ := rewrite_rejected admitted now
      cases result with
      | ok => exact absurd rfl rejected
      | pendingKeyframe => simp [step, same, total]
      | skip => simp [step, same, total]

theorem place_rewrite {l : Ledger} {top : Nat} {past : List Nat} (placed : Placed l top past)
    {number : Nat} {p : Bytes} {sender : UserId} {isKeyframe : Bool} (now : Instant)
    (admitted : Admits l.rewriter p sender isKeyframe)
    (header : u16At p 2 = UInt16.ofNat number) (fresh : number ∉ l.burst)
    (order : l.burst = [] ∨ l.closed = 0 ∨ first l.burst ≤ number)
    (short : l.closed + span (number :: l.burst) < 32768) :
    Placed ⟨(forward l.rewriter p now).1, seqOf (forward l.rewriter p now).2 :: l.outputs,
      number :: l.burst, l.closed⟩ top past := by
  have newest : number ∈ number :: l.burst := List.mem_cons_self
  have window : first (number :: l.burst) < number + span (number :: l.burst) :=
    lt_add_span (first_mem newest) newest
  have low := placed.topRange.1
  have speaks : l.rewriter.state.speaker ≠ none := by rw [admitted.2.1]; simp
  obtain ⟨seq, anchored⟩ :=
    forward_numbers placed now admitted.1 speaks header (by omega)
  have grown := placed.spread.extend fresh order
  refine ⟨?_, grown.pastDistinct, grown.pastRange, grown.topRange, grown.fresh,
    grown.burstDistinct, grown.above, anchored⟩
  rw [seq, placed.outputs]
  exact congrArg (List.map UInt16.ofNat) (positions_cons top number l.burst past).symm

theorem step_placed {l : Ledger} {op : RewriterOp} (fed : Fed l op) (ordered : InOrder l op)
    (short : total (step l op) < 32768) (placed : ∃ top past, Placed l top past) :
    ∃ top past, Placed (step l op) top past := by
  obtain ⟨top, past, placed⟩ := placed
  have before := Nat.lt_of_le_of_lt (total_le_step l op) short
  cases op with
  | switchSpeaker userId now =>
    obtain ⟨top', past', settled⟩ := settle placed before ordered
    exact ⟨top', past', place_switch _ settled userId now⟩
  | clearSpeaker now =>
    obtain ⟨top', past', settled⟩ := settle placed before ordered
    exact place_clear _ settled now
  | rewrite number p sender isKeyframe now =>
    by_cases admitted : Admits l.rewriter p sender isKeyframe
    · simp only [step, rewrite_admitted admitted, total] at short ⊢
      exact ⟨top, past, place_rewrite placed now admitted fed.1 (fed.2 admitted)
        (ordered admitted) short⟩
    · obtain ⟨result, rejected, same⟩ := rewrite_rejected admitted now
      have unchanged : step l (.rewrite number p sender isKeyframe now) = l := by
        cases result with
        | ok => exact absurd rfl rejected
        | pendingKeyframe => simp [step, same]
        | skip => simp [step, same]
      rw [unchanged]
      exact ⟨top, past, placed⟩

theorem run_placed {l : Ledger} {ops : List RewriterOp} (fed : Guarded step Fed l ops)
    (ordered : Guarded step InOrder l ops) (short : total (run step l ops) < 32768)
    (placed : ∃ top past, Placed l top past) : ∃ top past, Placed (run step l ops) top past := by
  have kept : ∀ l op, (total l < 32768 → ∃ top past, Placed l top past) →
      Fed l op ∧ InOrder l op →
        total (step l op) < 32768 → ∃ top past, Placed (step l op) top past := by
    intro l op placed allowed short
    have before := Nat.lt_of_le_of_lt (total_le_step l op) short
    exact step_placed allowed.1 allowed.2 short (placed before)
  exact guarded_invariant kept (fun _ => placed) ops (guarded_and fed ordered) short

theorem start_placed (virtualSsrc tsGuardGap : UInt32) (requireKeyframe : Bool) :
    Placed (start (.new virtualSsrc tsGuardGap requireKeyframe)) 65536 [] := by
  refine ⟨rfl, List.nodup_nil, by simp, by simp [start], fun _ => rfl, List.nodup_nil, by simp [start],
    rfl, ?_⟩
  intro speaking
  exact absurd rfl speaking

theorem virtual_numbers_distinct (virtualSsrc tsGuardGap : UInt32) (requireKeyframe : Bool)
    (ops : List RewriterOp)
    (fed : Guarded step Fed (start (.new virtualSsrc tsGuardGap requireKeyframe)) ops)
    (short : total (run step (start (.new virtualSsrc tsGuardGap requireKeyframe)) ops) < 32768)
    (ordered : Guarded step InOrder (start (.new virtualSsrc tsGuardGap requireKeyframe)) ops) :
    (run step (start (.new virtualSsrc tsGuardGap requireKeyframe)) ops).outputs.Nodup := by
  obtain ⟨top, past, placed⟩ := run_placed fed ordered short
    ⟨65536, [], start_placed virtualSsrc tsGuardGap requireKeyframe⟩
  exact outputs_nodup placed short

/-- A minimal Opus packet with the given number. -/
def opusPacket (number : Nat) : Bytes :=
  [0x80, 111] ++ bytes16 (UInt16.ofNat number) ++ [0, 0, 0, 0, 0, 0, 0, 1] ++ [0xAA]

def opusFrom (sender : UserId) (number : Nat) (now : Instant) : RewriterOp :=
  .rewrite number (opusPacket number) sender false now

theorem virtual_numbers_distinct_two_bursts :
    (run step (start (.new 7 960 false)) [.switchSpeaker "a" 0, opusFrom "a" 10 1,
      opusFrom "a" 12 2, opusFrom "a" 11 3, opusFrom "a" 13 4, .clearSpeaker 5,
      .switchSpeaker "b" 6, opusFrom "b" 50 7]).outputs.Nodup :=
  virtual_numbers_distinct 7 960 false _ (by decide) (by decide) (by decide)

/-- Two packets of the first burst swap places right before the switch, and the next
    burst starts on a number that is already used. -/
theorem reordered_tail_collides : ¬ ∀ (virtualSsrc tsGuardGap : UInt32) (requireKeyframe : Bool)
    (ops : List RewriterOp),
    Guarded step Fed (start (.new virtualSsrc tsGuardGap requireKeyframe)) ops →
    total (run step (start (.new virtualSsrc tsGuardGap requireKeyframe)) ops) < 32768 →
    (run step (start (.new virtualSsrc tsGuardGap requireKeyframe)) ops).outputs.Nodup := by
  intro distinct
  have collision := distinct 7 960 false [.switchSpeaker "a" 0, opusFrom "a" 10 1,
    opusFrom "a" 12 2, opusFrom "a" 11 3, .switchSpeaker "b" 4, opusFrom "b" 50 5]
    (by decide) (by decide)
  exact absurd collision (by decide)

end BurstNumbering
