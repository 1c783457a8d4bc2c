import OxlensSfu.Participant
import OxlensSfu.BurstNumbering

/-
Virtual timestamps of one rewriter over a whole run: how far the first packet of a
talk burst stands ahead of the last output before it.
-/
namespace BurstClock
open WireBytes FloorControl PttRewriter Participants GuardedRun
open BurstNumbering (RewriterOp opusFrom opusPacket)

def rewriterOf : TrackKind → UInt32 → Rewriter
  | .audio => newAudio
  | .video => newVideo

/-- Clock ticks of one millisecond. -/
def ticksPerMs : TrackKind → Nat
  | .audio => 48
  | .video => 90

def guardGap : TrackKind → Nat
  | .audio => 960
  | .video => 3000

/-- `lastTs` is the timestamp of the last output item, `newest` the number forwarded last
    in the open burst. `cleared` is the last clear since the last speaker change,
    `changed` that change, and `idle` the time from the clear to it, if there was one. -/
structure Timeline where
  rewriter : Rewriter
  lastTs : Option UInt32
  newest : Option Nat
  cleared : Option Instant
  changed : Instant
  idle : Option Nat

def start (kind : TrackKind) (virtualSsrc : UInt32) : Timeline :=
  ⟨rewriterOf kind virtualSsrc, none, none, none, 0, none⟩

def tsOf (out : Bytes) : UInt32 := u32At out 4

def step (t : Timeline) : RewriterOp → Timeline
  | .switchSpeaker userId now =>
    ⟨switchSpeaker t.rewriter userId now, t.lastTs, none, none, now, t.cleared.map (now - ·)⟩
  | .clearSpeaker now =>
    let (next, frames) := clearSpeaker t.rewriter now
    { t with
      rewriter := next
      lastTs := ((frames.getD []).getLast?.map tsOf).or t.lastTs
      newest := none
      cleared := some now }
  | .rewrite number plaintext sender isKeyframe now =>
    match rewrite t.rewriter plaintext sender isKeyframe now with
    | (next, .ok, out) =>
      { t with rewriter := next, lastTs := some (tsOf out), newest := some number }
    | (next, _, _) => { t with rewriter := next }

def ms (time : Nat) : Nat := time / 1000000

/-- The idle time of the last speaker change, none if it preempted, in whole ms. -/
def idleMs (t : Timeline) : Nat := (t.idle.map ms).getD 0

/-- Audio awaits no keyframe. -/
def keyframeWaitMs (kind : TrackKind) (t : Timeline) (now : Instant) : Nat :=
  match kind with
  | .audio => 0
  | .video => ms (now - t.changed)

/-- Ahead of the last output by the guard gap at least and by less than half the circle. -/
def Ahead (kind : TrackKind) (last ts : UInt32) : Prop :=
  guardGap kind ≤ (ts - last).toNat ∧ (ts - last).toNat < 2147483648

/-- Audio: the floor stayed idle for the three silence frames and one gap more. Video:
    the gap is added to a keyframe wait only while the idle time does not cover it. -/
def OnTime (kind : TrackKind) (t : Timeline) (now : Instant) : Prop :=
  match kind with
  | .audio => 80 ≤ idleMs t
  | .video => 34 ≤ idleMs t ∨ keyframeWaitMs .video t now * 90 + 3000 < 2147483648

/-- A packet that opens a talk burst after something was put out, while the idle time and
    the wait for it stay below half the circle. -/
structure FirstPacket (kind : TrackKind) (t : Timeline) (plaintext : Bytes) (sender : UserId)
    (isKeyframe : Bool) (now : Instant) (last : UInt32) : Prop where
  output : t.lastTs = some last
  first : t.newest = none
  admitted : Admits t.rewriter plaintext sender isKeyframe
  short : (idleMs t + keyframeWaitMs kind t now) * ticksPerMs kind < 2147483648

/-- Packets of a burst come in order. -/
def InOrder (t : Timeline) : RewriterOp → Prop
  | .rewrite number plaintext sender isKeyframe _ =>
    Admits t.rewriter plaintext sender isKeyframe →
      u16At plaintext 2 = UInt16.ofNat number ∧ ∀ n ∈ t.newest, n < number
  | _ => True

instance (kind : TrackKind) (last ts : UInt32) : Decidable (Ahead kind last ts) :=
  inferInstanceAs (Decidable (_ ∧ _))

instance (t : Timeline) : ∀ op, Decidable (InOrder t op)
  | .rewrite .. => inferInstanceAs (Decidable (_ → _ ∧ _))
  | .switchSpeaker .. => isTrue trivial
  | .clearSpeaker .. => isTrue trivial

theorem toNat_max (a b : UInt32) : (max a b).toNat = max a.toNat b.toNat := by
  change (if a ≤ b then b else a).toNat = _
  by_cases order : a ≤ b
  · rw [if_pos order, Nat.max_eq_right (UInt32.le_iff_toNat_le.mp order)]
  · have above : b.toNat ≤ a.toNat :=
      Nat.le_of_not_le fun below => order (UInt32.le_iff_toNat_le.mpr below)
    rw [if_neg order, Nat.max_eq_left above]

theorem saturatingTicks_toNat (elapsed : Nat) {ticks : Nat} (small : ticks < 4294967296) :
    (saturatingMul (UInt32.ofNat elapsed) (UInt32.ofNat ticks)).toNat =
      min (elapsed % 4294967296 * ticks) 4294967295 := by
  have rate : (UInt32.ofNat ticks).toNat = ticks := by
    rw [UInt32.toNat_ofNat', Nat.mod_eq_of_lt small]
  rw [saturatingMul, rate, UInt32.toNat_ofNat', UInt32.toNat_ofNat']
  exact Nat.mod_eq_of_lt (by omega)

/-- Within half the circle the saturating product of elapsed milliseconds is exact. -/
theorem toNat_elapsedTicks {elapsed ticks : Nat} (small : ticks < 4294967296)
    (positive : 0 < ticks) (short : elapsed * ticks < 2147483648) :
    (saturatingMul (UInt32.ofNat elapsed) (UInt32.ofNat ticks)).toNat = elapsed * ticks := by
  have bound : elapsed < 4294967296 := by
    have := Nat.le_mul_of_pos_right elapsed positive
    omega
  rw [saturatingTicks_toNat elapsed small, Nat.mod_eq_of_lt bound, Nat.min_eq_left (by omega)]

def OfKind (kind : TrackKind) (r : Rewriter) : Prop :=
  r.requireKeyframe = (kind == .video) ∧ r.tsGuardGap = UInt32.ofNat (guardGap kind)

theorem dynamicTsGap_toNat {kind : TrackKind} {r : Rewriter} (sort : OfKind kind r)
    (now : Instant) (short : ((r.state.clearedAt.map (now - ·)).map ms).getD 0 * ticksPerMs kind <
      2147483648) :
    (dynamicTsGap r (UInt32.ofNat (ticksPerMs kind)) now).toNat =
      max (((r.state.clearedAt.map (now - ·)).map ms).getD 0 * ticksPerMs kind)
        (guardGap kind) := by
  have guard : r.tsGuardGap.toNat = guardGap kind := by
    rw [sort.2]
    cases kind <;> rfl
  unfold dynamicTsGap
  cases cleared : r.state.clearedAt with
  | none => simp [guard]
  | some since =>
    simp only [cleared, Option.map_some, Option.getD_some] at short ⊢
    rw [toNat_max, guard, elapsedMs]
    congr 1
    exact toNat_elapsedTicks (by cases kind <;> decide) (by cases kind <;> decide) short

/-- What a speaker change takes off for the silence frames of a clear. -/
def silenceTicks : TrackKind → Nat
  | .audio => 2880
  | .video => 0

/-- The clock ticks that a speaker change adds. -/
def changeTicks (kind : TrackKind) (idle : Nat) : Nat :=
  max (idle * ticksPerMs kind) (guardGap kind) - silenceTicks kind

theorem switchTsGap_toNat {kind : TrackKind} {r : Rewriter} (sort : OfKind kind r)
    (now : Instant) (idle : Nat) (known : ((r.state.clearedAt.map (now - ·)).map ms).getD 0 = idle)
    (short : idle * ticksPerMs kind < 2147483648) :
    (switchTsGap r now).toNat = changeTicks kind idle := by
  have gap := dynamicTsGap_toNat sort now (by rw [known]; exact short)
  rw [known] at gap
  unfold switchTsGap
  cases kind with
  | audio =>
    have silence : (tsGuardGapAudio * UInt32.ofNat silenceFlushCount).toNat = 2880 := rfl
    rw [sort.1, if_neg (by decide), saturatingSub, silence]
    have value : (dynamicTsGap r 48 now).toNat = max (idle * 48) 960 := gap
    rw [value, UInt32.toNat_ofNat', Nat.mod_eq_of_lt]
    · rfl
    · simp only [ticksPerMs] at short
      omega
  | video =>
    rw [sort.1, if_pos (by decide)]
    exact gap

/-- The clock ticks that the wait for a keyframe adds. -/
def waitTicks (kind : TrackKind) (wait : Nat) : Nat :=
  match kind with
  | .audio => 0
  | .video => if 50 < wait then wait * 90 else 0

theorem pendingCompensation_toNat {kind : TrackKind} {r : Rewriter} (sort : OfKind kind r)
    {since now : Instant} (switched : r.state.switchedAt = some since)
    (short : ms (now - since) * 90 < 2147483648) :
    (pendingCompensation r now).toNat = waitTicks kind (ms (now - since)) := by
  unfold pendingCompensation waitTicks
  cases kind with
  | audio =>
    rw [sort.1, if_neg (by decide)]
    rfl
  | video =>
    have bound : ms (now - since) < 4294967296 := by omega
    have wait : (elapsedMs now since).toNat = ms (now - since) := by
      rw [elapsedMs, UInt32.toNat_ofNat']
      exact Nat.mod_eq_of_lt bound
    have long : 50 < elapsedMs now since ↔ 50 < ms (now - since) := by
      rw [UInt32.lt_iff_toNat_lt, wait]
      rfl
    rw [sort.1, if_pos (by decide), switched]
    simp only [long]
    split
    · exact toNat_elapsedTicks (by decide) (by decide) short
    · rfl

theorem silenceFrame_ts (r : Rewriter) (i : Nat) :
    tsOf (silenceFrame r i) = r.state.lastVirtualTs + tsGuardGapAudio * UInt32.ofNat (1 + i) := by
  let ts := r.state.lastVirtualTs + tsGuardGapAudio * UInt32.ofNat (1 + i)
  change be32 (UInt8.ofNat (ts.toNat / 16777216)) (UInt8.ofNat (ts.toNat / 65536 % 256))
    (UInt8.ofNat (ts.toNat / 256 % 256)) (UInt8.ofNat (ts.toNat % 256)) = ts
  exact be32_bytes32 ts

/-- A clear leaves the virtual clock at the last silence frame, if it emits any. -/
theorem clearSpeaker_clock (r : Rewriter) (now : Instant) :
    (clearSpeaker r now).1.state.speaker = none ∧
    (clearSpeaker r now).1.state.clearedAt = some now ∧
    (clearSpeaker r now).1.requireKeyframe = r.requireKeyframe ∧
    (clearSpeaker r now).1.tsGuardGap = r.tsGuardGap ∧
    (((clearSpeaker r now).2 = none ∧
        (clearSpeaker r now).1.state.lastVirtualTs = r.state.lastVirtualTs) ∨
      (clearSpeaker r now).2 = some ((List.range 3).map (silenceFrame r)) ∧
        (clearSpeaker r now).1.state.lastVirtualTs = tsOf (silenceFrame r 2)) := by
  rw [silenceFrame_ts]
  unfold clearSpeaker
  split
  · exact ⟨rfl, rfl, rfl, rfl, .inl ⟨rfl, rfl⟩⟩
  · split
    · exact ⟨rfl, rfl, rfl, rfl, .inl ⟨rfl, rfl⟩⟩
    · exact ⟨rfl, rfl, rfl, rfl, .inr ⟨rfl, rfl⟩⟩

/-- The speaker change of the open burst found the rewriter `before`. -/
structure Opened (kind : TrackKind) (t : Timeline) (before : Rewriter) : Prop where
  sort : OfKind kind before
  idle : t.idle = before.state.clearedAt.map (t.changed - ·)
  awaiting : t.rewriter.state.awaitingFirstPacket = true
  switched : t.rewriter.state.switchedAt = some t.changed
  base : t.rewriter.state.virtualBaseTs =
    t.rewriter.state.lastVirtualTs + switchTsGap before t.changed

/-- The rewriter's clock, told by the timeline. -/
structure Tracks (kind : TrackKind) (t : Timeline) : Prop where
  sort : OfKind kind t.rewriter
  last : ∀ ts ∈ t.lastTs, t.rewriter.state.lastVirtualTs = ts
  cleared : t.rewriter.state.clearedAt = t.cleared
  opened : t.rewriter.state.speaker ≠ none → t.newest = none → ∃ before, Opened kind t before

theorem start_tracks (kind : TrackKind) (virtualSsrc : UInt32) :
    Tracks kind (start kind virtualSsrc) := by
  have silent : (rewriterOf kind virtualSsrc).state.speaker = none := by cases kind <;> rfl
  refine ⟨by cases kind <;> exact ⟨rfl, rfl⟩, by simp [start], by cases kind <;> rfl, ?_⟩
  exact fun speaks => absurd silent speaks

theorem step_tracks {kind : TrackKind} {t : Timeline} (op : RewriterOp) (tracks : Tracks kind t) :
    Tracks kind (step t op) := by
  cases op with
  | switchSpeaker userId now =>
    refine ⟨tracks.sort, tracks.last, rfl, fun _ _ => ⟨t.rewriter, tracks.sort, ?_, rfl, rfl, rfl⟩⟩
    change t.cleared.map (now - ·) = t.rewriter.state.clearedAt.map (now - ·)
    rw [tracks.cleared]
  | clearSpeaker now =>
    obtain ⟨silent, cleared, keyframe, guard, emitted⟩ := clearSpeaker_clock t.rewriter now
    refine ⟨⟨keyframe.trans tracks.sort.1, guard.trans tracks.sort.2⟩, ?_, cleared,
      fun speaks => absurd silent speaks⟩
    intro ts known
    rcases emitted with ⟨none, same⟩ | ⟨frames, moved⟩
    · simp only [step, none, Option.getD_none, List.getLast?_nil, Option.map_none,
        Option.none_or] at known
      exact same.trans (tracks.last ts known)
    · have newest : ((List.range 3).map (silenceFrame t.rewriter)).getLast? =
        some (silenceFrame t.rewriter 2) := rfl
      simp only [step, frames, Option.getD_some, newest, Option.map_some, Option.some_or,
        Option.mem_some_iff] at known
      exact moved.trans known
  | rewrite number plaintext sender isKeyframe now =>
    by_cases admitted : Admits t.rewriter plaintext sender isKeyframe
    · have written := (forward_spec t.rewriter now admitted.1).2.2.1
      have kept : (forward t.rewriter plaintext now).1.state.clearedAt =
          t.rewriter.state.clearedAt := by
        simp only [forward, anchorBurst]
        split <;> rfl
      simp only [step, rewrite_admitted admitted]
      refine ⟨tracks.sort, ?_, kept.trans tracks.cleared, fun _ none => by simp at none⟩
      intro ts known
      rw [Option.mem_some_iff] at known
      rw [← known]
      exact written.symm
    · obtain ⟨result, rejected, same⟩ := rewrite_rejected admitted now
      have unchanged : step t (.rewrite number plaintext sender isKeyframe now) = t := by
        cases result with
        | ok => exact absurd rfl rejected
        | pendingKeyframe => simp [step, same]
        | skip => simp [step, same]
      rw [unchanged]
      exact tracks

/-- How far ahead the first packet is: the gap of the speaker change and the compensation
    for the keyframe wait. -/
theorem first_offset {kind : TrackKind} {t : Timeline} {before : Rewriter}
    (opened : Opened kind t before) {plaintext : Bytes} (long : 12 ≤ plaintext.length)
    (now : Instant) :
    tsOf (forward t.rewriter plaintext now).2 - t.rewriter.state.lastVirtualTs =
      switchTsGap before t.changed + pendingCompensation t.rewriter now := by
  have written := (forward_spec t.rewriter now long).2.2.1
  rw [tsOf, written, virtualTs, anchorBurst, if_pos opened.awaiting]
  simp only [opened.base]
  rw [UInt32.sub_self, UInt32.zero_add, UInt32.add_assoc, UInt32.add_comm, UInt32.add_sub_cancel]

theorem video_on_time {idle wait : Nat} (short : (idle + wait) * 90 < 2147483648) :
    (3000 ≤ (max (idle * 90) 3000 + if 50 < wait then wait * 90 else 0) % 4294967296 ∧
      (max (idle * 90) 3000 + if 50 < wait then wait * 90 else 0) % 4294967296 < 2147483648) ↔
    34 ≤ idle ∨ wait * 90 + 3000 < 2147483648 := by
  split
  · rw [Nat.mod_eq_of_lt (by omega)]
    omega
  · rw [Nat.mod_eq_of_lt (by omega)]
    omega

theorem first_packet_ahead_iff (kind : TrackKind) (virtualSsrc : UInt32) (ops : List RewriterOp)
    {plaintext : Bytes} {sender : UserId} {isKeyframe : Bool} {now : Instant} {last : UInt32}
    (packet : FirstPacket kind (run step (start kind virtualSsrc) ops) plaintext sender isKeyframe
      now last) :
    Ahead kind last (tsOf (rewrite (run step (start kind virtualSsrc) ops).rewriter plaintext
      sender isKeyframe now).2.2) ↔ OnTime kind (run step (start kind virtualSsrc) ops) now := by
  have tracks : Tracks kind (run step (start kind virtualSsrc) ops) :=
    guarded_invariant (fun _ op tracks _ => step_tracks op tracks) (start_tracks kind virtualSsrc)
      ops (guarded_of_forall (fun _ _ => trivial) _ ops)
  generalize run step (start kind virtualSsrc) ops = t at packet tracks ⊢
  have speaks : t.rewriter.state.speaker ≠ none := by
    rw [packet.admitted.2.1]
    simp
  obtain ⟨before, opened⟩ := tracks.opened speaks packet.first
  have offset := first_offset opened packet.admitted.1 now
  rw [tracks.last last packet.output] at offset
  rw [rewrite_admitted packet.admitted, Ahead, offset]
  have idle : ((before.state.clearedAt.map (t.changed - ·)).map ms).getD 0 = idleMs t := by
    rw [← opened.idle]
    rfl
  have short := packet.short
  have gap := switchTsGap_toNat opened.sort t.changed (idleMs t) idle (by
    rw [Nat.add_mul] at short
    omega)
  cases kind with
  | audio =>
    have wait : pendingCompensation t.rewriter now = 0 := by
      rw [pendingCompensation, tracks.sort.1, if_neg (by decide)]
    simp only [keyframeWaitMs, ticksPerMs] at short
    simp only [wait, UInt32.add_zero, gap, changeTicks, ticksPerMs, guardGap, silenceTicks, OnTime]
    omega
  | video =>
    simp only [keyframeWaitMs, ticksPerMs] at short
    have wait : (pendingCompensation t.rewriter now).toNat = _ :=
      pendingCompensation_toNat tracks.sort opened.switched (by omega)
    simp only [UInt32.toNat_add, gap, wait, changeTicks, ticksPerMs, guardGap, silenceTicks,
      waitTicks, OnTime, keyframeWaitMs]
    exact video_on_time short

/-- A pause of 100 ms covers the silence frames. -/
theorem first_packet_ahead_after_pause :
    Ahead .audio 2880 (tsOf (rewrite (run step (start .audio 7) [.switchSpeaker "a" 0,
      opusFrom "a" 10 1, .clearSpeaker 2, .switchSpeaker "b" 100000002]).rewriter
      (opusPacket 50) "b" false 100000003).2.2) :=
  (first_packet_ahead_iff .audio 7 _ ⟨by decide, by decide, by decide, by decide⟩).mpr
    (by change 80 ≤ idleMs _; decide)

/-- A preemption emits no silence frames, yet their time is taken off the gap: the new
    burst starts on the timestamp of the old one's last packet. -/
theorem preemption_repeats_timestamp : ¬ ∀ (kind : TrackKind) (virtualSsrc : UInt32)
    (ops : List RewriterOp) (number : Nat) (plaintext : Bytes) (sender : UserId)
    (isKeyframe : Bool) (now : Instant) (last : UInt32),
    Guarded step InOrder (start kind virtualSsrc)
      (ops ++ [.rewrite number plaintext sender isKeyframe now]) →
    FirstPacket kind (run step (start kind virtualSsrc) ops) plaintext sender isKeyframe now last →
    Ahead kind last (tsOf (rewrite (run step (start kind virtualSsrc) ops).rewriter plaintext
      sender isKeyframe now).2.2) := by
  intro ahead
  have gap := ahead .audio 7 [.switchSpeaker "a" 0, opusFrom "a" 10 1, .switchSpeaker "b" 2] 50
    (opusPacket 50) "b" false 3 0 (by decide) ⟨by decide, by decide, by decide, by decide⟩
  exact absurd gap (by decide)

end BurstClock
