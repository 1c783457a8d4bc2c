import OxlensSfu.BurstClock
import OxlensSfu.SenderReports

/- One map of numbers for each talk burst, and the functions that read it afterwards. -/
namespace BurstMap
open WireBytes FloorControl PttRewriter GuardedRun SenderReports
open BurstNumbering (RewriterOp seqOf opusFrom)
open BurstClock (tsOf)

/-- `holder` is the user of the last speaker change with no clear since. `sent` are the packets
    since that change for which the rewriter returned Ok, each with its output, newest first. -/
structure Turn where
  rewriter : Rewriter
  holder : Option UserId
  sent : List (Bytes × Bytes)

def start (r : Rewriter) : Turn := ⟨r, none, []⟩

def step (t : Turn) : RewriterOp → Turn
  | .switchSpeaker userId now => ⟨switchSpeaker t.rewriter userId now, some userId, []⟩
  | .clearSpeaker now => ⟨(clearSpeaker t.rewriter now).1, none, t.sent⟩
  | .rewrite _ plaintext sender isKeyframe now =>
    match rewrite t.rewriter plaintext sender isKeyframe now with
    | (next, .ok, out) => ⟨next, t.holder, (plaintext, out) :: t.sent⟩
    | (next, _, _) => { t with rewriter := next }

def Switches : RewriterOp → Prop
  | .switchSpeaker .. => True
  | _ => False

def Clears : RewriterOp → Prop
  | .clearSpeaker _ => True
  | _ => False

/-- The output has the numbers that the bases of the burst give. -/
def Mapped (s : RewriteState) (x : Bytes × Bytes) : Prop :=
  seqOf x.2 = virtualSeq s (seqOf x.1) ∧ tsOf x.2 = virtualTs s (tsOf x.1)

/-- The flags say what the turn has done so far. -/
structure Sound (requireKeyframe : Bool) (t : Turn) : Prop where
  kind : t.rewriter.requireKeyframe = requireKeyframe
  speaker : t.rewriter.state.speaker = t.holder
  awaiting : t.rewriter.state.awaitingFirstPacket = true ↔ t.holder ≠ none ∧ t.sent = []
  pending : t.rewriter.state.pendingKeyframe =
    (requireKeyframe && t.rewriter.state.awaitingFirstPacket)
  mapped : ∀ x ∈ t.sent, Mapped t.rewriter.state x

/-- The numbers that the map of a burst is made of. -/
def bases (s : RewriteState) : UInt16 × UInt32 × UInt16 × UInt32 :=
  (s.originBaseSeq, s.originBaseTs, s.virtualBaseSeq, s.virtualBaseTs)

theorem virtual_of_bases {s t : RewriteState} (same : bases s = bases t) :
    virtualSeq s = virtualSeq t ∧ virtualTs s = virtualTs t := by
  simp only [bases, Prod.mk.injEq] at same
  obtain ⟨originSeq, originTs, baseSeq, baseTs⟩ := same
  constructor
  · funext seq
    rw [virtualSeq, virtualSeq, originSeq, baseSeq]
  · funext ts
    rw [virtualTs, virtualTs, originTs, baseTs]

theorem mapped_of_bases {s t : RewriteState} (same : bases s = bases t) {x : Bytes × Bytes}
    (mapped : Mapped s x) : Mapped t x := by
  obtain ⟨seq, ts⟩ := virtual_of_bases same
  exact ⟨by rw [mapped.1, seq], by rw [mapped.2, ts]⟩

theorem clearSpeaker_flags (r : Rewriter) (now : Instant) :
    (clearSpeaker r now).1.requireKeyframe = r.requireKeyframe ∧
      (clearSpeaker r now).1.state.speaker = none ∧
      (clearSpeaker r now).1.state.awaitingFirstPacket = false ∧
      (clearSpeaker r now).1.state.pendingKeyframe = false ∧
      bases (clearSpeaker r now).1.state = bases r.state := by
  unfold clearSpeaker
  split
  · exact ⟨rfl, rfl, rfl, rfl, rfl⟩
  · split <;> exact ⟨rfl, rfl, rfl, rfl, rfl⟩

/-- Past the first packet nothing moves the bases. -/
theorem forward_bases {r : Rewriter} (begun : r.state.awaitingFirstPacket = false) (p : Bytes)
    (now : Instant) : bases (forward r p now).1.state = bases r.state := by
  simp [forward, anchorBurst, begun, bases]

theorem forward_flags (r : Rewriter) (p : Bytes) (now : Instant) :
    (forward r p now).1.requireKeyframe = r.requireKeyframe ∧
      (forward r p now).1.state.speaker = r.state.speaker ∧
      (forward r p now).1.state.awaitingFirstPacket = false ∧
      (forward r p now).1.state.pendingKeyframe = false := by
  cases begun : r.state.awaitingFirstPacket <;> simp [forward, anchorBurst, begun]

theorem forward_mapped (r : Rewriter) {p : Bytes} (now : Instant) (long : 12 ≤ p.length) :
    Mapped (forward r p now).1.state (p, (forward r p now).2) := by
  obtain ⟨_, seq, ts, _⟩ := forward_spec r now long
  exact ⟨seq, ts⟩

section Run
variable {requireKeyframe : Bool}

theorem start_sound (virtualSsrc tsGuardGap : UInt32) :
    Sound requireKeyframe (start (.new virtualSsrc tsGuardGap requireKeyframe)) :=
  ⟨rfl, rfl, by simp [start, Rewriter.new], by simp [start, Rewriter.new], by simp [start]⟩

theorem step_sound {t : Turn} (sound : Sound requireKeyframe t) (op : RewriterOp) :
    Sound requireKeyframe (step t op) := by
  cases op with
  | switchSpeaker userId now =>
    exact ⟨sound.kind, rfl, by simp [step, switchSpeaker],
      by simp [step, switchSpeaker, sound.kind], by simp [step]⟩
  | clearSpeaker now =>
    obtain ⟨kind, speaker, awaiting, pending, same⟩ := clearSpeaker_flags t.rewriter now
    exact ⟨kind.trans sound.kind, speaker, by simp [step, awaiting], by simp [step, awaiting, pending],
      fun x member => mapped_of_bases same.symm (sound.mapped x member)⟩
  | rewrite number plaintext sender isKeyframe now =>
    by_cases admitted : Admits t.rewriter plaintext sender isKeyframe
    · obtain ⟨kind, speaker, awaiting, pending⟩ := forward_flags t.rewriter plaintext now
      simp only [step, rewrite_admitted admitted now]
      refine ⟨kind.trans sound.kind, speaker.trans sound.speaker, by simp [awaiting],
        by simp [awaiting, pending], fun x member => ?_⟩
      rcases List.mem_cons.mp member with rfl | before
      · exact forward_mapped t.rewriter now admitted.1
      · have begun : t.rewriter.state.awaitingFirstPacket = false := by
          rw [← Bool.not_eq_true, sound.awaiting]
          exact fun fresh => absurd before (by simp [fresh.2])
        exact mapped_of_bases (forward_bases begun plaintext now).symm (sound.mapped x before)
    · obtain ⟨result, other, unchanged⟩ := rewrite_rejected admitted now
      have same : step t (.rewrite number plaintext sender isKeyframe now) = t := by
        simp only [step, unchanged]
      rwa [same]

theorem run_sound (virtualSsrc tsGuardGap : UInt32) (ops : List RewriterOp) :
    Sound requireKeyframe
      (run step (start (.new virtualSsrc tsGuardGap requireKeyframe)) ops) :=
  @run_invariant _ _ step (Sound requireKeyframe) (fun _ op sound => step_sound sound op) _
    (start_sound virtualSsrc tsGuardGap) ops

/-- From the first packet of the burst on, every operation inside it keeps the bases. -/
theorem step_bases {t : Turn} (sound : Sound requireKeyframe t) (begun : t.sent ≠ [])
    {op : RewriterOp} (inside : ¬ Switches op) :
    (step t op).sent ≠ [] ∧
      bases (step t op).rewriter.state = bases t.rewriter.state := by
  cases op with
  | switchSpeaker userId now => exact absurd trivial inside
  | clearSpeaker now => exact ⟨begun, (clearSpeaker_flags t.rewriter now).2.2.2.2⟩
  | rewrite number plaintext sender isKeyframe now =>
    by_cases admitted : Admits t.rewriter plaintext sender isKeyframe
    · have anchored : t.rewriter.state.awaitingFirstPacket = false := by
        rw [← Bool.not_eq_true, sound.awaiting]
        exact fun fresh => begun fresh.2
      simp only [step, rewrite_admitted admitted now]
      exact ⟨List.cons_ne_nil _ _, forward_bases anchored plaintext now⟩
    · obtain ⟨result, other, unchanged⟩ := rewrite_rejected admitted now
      simp only [step, unchanged]
      exact ⟨begun, trivial⟩

theorem run_bases {t : Turn} (sound : Sound requireKeyframe t) (begun : t.sent ≠ [])
    {ops : List RewriterOp} (inside : ∀ op ∈ ops, ¬ Switches op) :
    bases (run step t ops).rewriter.state = bases t.rewriter.state := by
  induction ops generalizing t with
  | nil => rfl
  | cons op ops ih =>
    obtain ⟨more, same⟩ := step_bases sound begun (inside op (List.mem_cons_self ..))
    rw [run_cons, ih (step_sound sound op) more fun later member =>
      inside later (List.mem_cons_of_mem _ member), same]

theorem step_holder {t : Turn} {op : RewriterOp} (inside : ¬ Switches op) (held : ¬ Clears op) :
    (step t op).holder = t.holder := by
  cases op with
  | switchSpeaker userId now => exact absurd trivial inside
  | clearSpeaker now => exact absurd trivial held
  | rewrite number plaintext sender isKeyframe now =>
    simp only [step]
    split <;> rfl

theorem run_holder {t : Turn} {ops : List RewriterOp} (inside : ∀ op ∈ ops, ¬ Switches op)
    (held : ∀ op ∈ ops, ¬ Clears op) : (run step t ops).holder = t.holder := by
  induction ops generalizing t with
  | nil => rfl
  | cons op ops ih =>
    rw [run_cons, ih (fun later member => inside later (List.mem_cons_of_mem _ member))
      (fun later member => held later (List.mem_cons_of_mem _ member)),
      step_holder (inside op (List.mem_cons_self ..)) (held op (List.mem_cons_self ..))]

/-- Differences between packets survive the map. -/
def Affine (sent : List (Bytes × Bytes)) : Prop :=
  ∀ x ∈ sent, ∀ y ∈ sent, seqOf x.2 - seqOf y.2 = seqOf x.1 - seqOf y.1 ∧
    tsOf x.2 - tsOf y.2 = tsOf x.1 - tsOf y.1

theorem affine_of_sound {t : Turn} (sound : Sound requireKeyframe t) : Affine t.sent := by
  intro x left y right
  obtain ⟨seqX, tsX⟩ := sound.mapped x left
  obtain ⟨seqY, tsY⟩ := sound.mapped y right
  rw [seqX, seqY, tsX, tsY]
  constructor
  · simp only [virtualSeq]
    grind
  · simp only [virtualTs]
    grind

theorem burst_affine (virtualSsrc tsGuardGap : UInt32) (history before after : List RewriterOp)
    (userId : UserId) (now : Instant) (inside : ∀ op ∈ before ++ after, ¬ Switches op) :
    let opened := step (run step (start (.new virtualSsrc tsGuardGap requireKeyframe)) history)
      (.switchSpeaker userId now)
    let here := run step opened before
    let whole := run step here after
    Affine whole.sent ∧ (here.sent ≠ [] →
      (∀ x ∈ whole.sent, reverseSeq here.rewriter (seqOf x.2) = seqOf x.1) ∧
        ((∀ op ∈ before, ¬ Clears op) →
          ∀ x ∈ whole.sent, translateRtpTs here.rewriter (tsOf x.1) = some (tsOf x.2))) := by
  intro opened here whole
  have sound : Sound requireKeyframe opened := step_sound (run_sound virtualSsrc tsGuardGap history) _
  have soundHere : Sound requireKeyframe here :=
    @run_invariant _ _ step (Sound requireKeyframe) (fun _ op held => step_sound held op) _ sound before
  have soundWhole : Sound requireKeyframe whole :=
    @run_invariant _ _ step (Sound requireKeyframe) (fun _ op held => step_sound held op) _ soundHere after
  refine ⟨affine_of_sound soundWhole, fun begun => ?_⟩
  have same : bases whole.rewriter.state = bases here.rewriter.state :=
    run_bases soundHere begun fun op member => inside op (List.mem_append_right _ member)
  have mapped : ∀ x ∈ whole.sent, Mapped here.rewriter.state x :=
    fun x member => mapped_of_bases same (soundWhole.mapped x member)
  refine ⟨fun x member => ?_, fun held x member => ?_⟩
  · rw [(mapped x member).1, reverseSeq, virtualSeq]
    grind
  · have holder : here.holder = some userId :=
      run_holder (fun op member => inside op (List.mem_append_left _ member)) held
    have speaker := soundHere.speaker.trans holder
    have anchored : here.rewriter.state.awaitingFirstPacket = false := by
      rw [← Bool.not_eq_true, soundHere.awaiting]
      exact fun fresh => begun fresh.2
    rw [translateRtpTs, speaker, anchored, if_neg (by simp), (mapped x member).2]

end Run

/-- The packet that arrives late lies in front of the base of the burst. -/
theorem late_packet_mapped :
    let opened := step (run step (start (.new 7 960 false)) [.switchSpeaker "a" 0, opusFrom "a" 700 1])
      (.switchSpeaker "b" 2)
    let here := run step opened [opusFrom "b" 50 3]
    let whole := run step here [opusFrom "b" 52 4, opusFrom "b" 49 5]
    Affine whole.sent ∧ whole.sent.length = 3 ∧
      (∀ x ∈ whole.sent, reverseSeq here.rewriter (seqOf x.2) = seqOf x.1) ∧
      ∀ x ∈ whole.sent, translateRtpTs here.rewriter (tsOf x.1) = some (tsOf x.2) := by
  intro opened here whole
  have burst := @burst_affine false 7 960 [.switchSpeaker "a" 0, opusFrom "a" 700 1]
    [opusFrom "b" 50 3] [opusFrom "b" 52 4, opusFrom "b" 49 5] "b" 2 (by simp [Switches, opusFrom])
  have read := burst.2 (by decide)
  exact ⟨burst.1, by decide, read.1, read.2 (by simp [Clears, opusFrom])⟩

end BurstMap
