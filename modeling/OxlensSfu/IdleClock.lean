import OxlensSfu.BurstClock

/-
The virtual clock across an idle floor: where the next speaker's base stands, against the
time that went by since the clear.
-/
namespace IdleClock
open FloorControl PttRewriter Participants GuardedRun WireBytes BurstClock

/-- A rewriter of the server in any state. -/
def inState (kind : TrackKind) (virtualSsrc : UInt32) (s : RewriteState) : Rewriter :=
  { rewriterOf kind virtualSsrc with state := s }

/-- A packet that comes while nobody has the floor. -/
structure Offer where
  plaintext : Bytes
  sender : UserId
  isKeyframe : Bool
  now : Instant
  deriving DecidableEq, Repr

def offer (r : Rewriter) (o : Offer) : Rewriter := (rewrite r o.plaintext o.sender o.isKeyframe o.now).1

/-- The floor is cleared, stays idle, and is taken. -/
def acrossIdle (r : Rewriter) (cleared : Instant) (offers : List Offer) (userId : UserId) (now : Instant) :
    Rewriter :=
  switchSpeaker (run offer (clearSpeaker r cleared).1 offers) userId now

/-- The base is the last timestamp before the silence and the ticks of the idle time. -/
def ClockKept (kind : TrackKind) (r : Rewriter) (cleared : Instant) (offers : List Offer) (userId : UserId)
    (now : Instant) : Prop :=
  (acrossIdle r cleared offers userId now).state.virtualBaseTs =
    r.state.lastVirtualTs + UInt32.ofNat (ms (now - cleared) * ticksPerMs kind)

/-- The milliseconds left by the cast to 32 bits cover the gap, and their ticks fit 32 bits.
    An audio stream that stands at number and timestamp 0 gets no silence frames, which are
    taken off all the same. -/
def IdleFits (kind : TrackKind) (s : RewriteState) (idle : Nat) : Prop :=
  match kind with
  | .audio =>
    if s.lastVirtualSeq = 0 ∧ s.lastVirtualTs = 0 then idle % 4294967296 = 0
    else 60 ≤ idle % 4294967296 ∧ idle % 4294967296 * 48 < 4294967296
  | .video => 34 ≤ idle % 4294967296 ∧ idle % 4294967296 * 90 < 4294967296

instance (kind : TrackKind) (r : Rewriter) (cleared : Instant) (offers : List Offer) (userId : UserId)
    (now : Instant) : Decidable (ClockKept kind r cleared offers userId now) :=
  inferInstanceAs (Decidable (_ = _))

theorem offers_ignored {r : Rewriter} (idle : r.state.speaker = none) (offers : List Offer) :
    run offer r offers = r := by
  induction offers with
  | nil => rfl
  | cons o offers ih =>
    have skipped : offer r o = r := by
      unfold offer rewrite
      rw [idle]
      split <;> rfl
    rw [run_cons, skipped, ih]

/-- The gap that a speaker change finds after a clear. -/
theorem idleGap_toNat {kind : TrackKind} {r : Rewriter} (sort : OfKind kind r) {cleared : Instant}
    (since : r.state.clearedAt = some cleared) (now : Instant) :
    (dynamicTsGap r (UInt32.ofNat (ticksPerMs kind)) now).toNat =
      max (min (ms (now - cleared) % 4294967296 * ticksPerMs kind) 4294967295) (guardGap kind) := by
  have guard : r.tsGuardGap.toNat = guardGap kind := by
    rw [sort.2]
    cases kind <;> rfl
  rw [dynamicTsGap, since]
  simp only [toNat_max, guard]
  rw [elapsedMs, saturatingTicks_toNat _ (by cases kind <;> decide)]
  rfl

theorem ticks_toNat (kind : TrackKind) (idle : Nat) :
    (UInt32.ofNat (idle * ticksPerMs kind)).toNat = idle * ticksPerMs kind % 4294967296 :=
  UInt32.toNat_ofNat' ..

section Switch
variable (virtualSsrc : UInt32) (s : RewriteState) (cleared : Instant) (offers : List Offer) (userId : UserId)
  (now : Instant)

/-- The silence frames move the clock by what the speaker change takes off. -/
theorem audio_base : (acrossIdle (inState .audio virtualSsrc s) cleared offers userId now).state.virtualBaseTs =
    s.lastVirtualTs + ((if s.lastVirtualSeq = 0 ∧ s.lastVirtualTs = 0 then 0 else 2880) +
      saturatingSub (dynamicTsGap (clearSpeaker (inState .audio virtualSsrc s) cleared).1 48 now) 2880) := by
  have idle := offers_ignored (clearSpeaker_clock (inState .audio virtualSsrc s) cleared).1 offers
  rw [acrossIdle, idle, ← UInt32.add_assoc]
  have audio : ¬ (inState .audio virtualSsrc s).requireKeyframe = true := Bool.false_ne_true
  unfold clearSpeaker
  by_cases fresh : s.lastVirtualSeq = 0 ∧ s.lastVirtualTs = 0
  · have untouched : (inState .audio virtualSsrc s).state.lastVirtualSeq = 0 ∧
        (inState .audio virtualSsrc s).state.lastVirtualTs = 0 := fresh
    rw [if_neg audio, if_pos untouched, if_pos fresh, UInt32.add_zero]
    rfl
  · have touched : ¬ ((inState .audio virtualSsrc s).state.lastVirtualSeq = 0 ∧
        (inState .audio virtualSsrc s).state.lastVirtualTs = 0) := fresh
    rw [if_neg audio, if_neg touched, if_neg fresh]
    rfl

theorem video_base : (acrossIdle (inState .video virtualSsrc s) cleared offers userId now).state.virtualBaseTs =
    s.lastVirtualTs + dynamicTsGap (clearSpeaker (inState .video virtualSsrc s) cleared).1 90 now := by
  have idle := offers_ignored (clearSpeaker_clock (inState .video virtualSsrc s) cleared).1 offers
  rw [acrossIdle, idle]
  rfl

theorem cleared_sort (kind : TrackKind) : OfKind kind (clearSpeaker (inState kind virtualSsrc s) cleared).1 := by
  obtain ⟨_, _, require, guard, _⟩ := clearSpeaker_clock (inState kind virtualSsrc s) cleared
  rw [OfKind, require, guard]
  cases kind <;> exact ⟨rfl, rfl⟩

end Switch

/-- The saturated ticks of the milliseconds left by the cast are exact where they fit 32 bits;
    where they do not, they are odd and the exact ones are even. -/
theorem saturated_cases (idle : Nat) {rate : Nat} (even : rate % 2 = 0) :
    let ticks := idle % 4294967296 * rate
    (ticks < 4294967296 ∧ min ticks 4294967295 = ticks ∧ idle * rate % 4294967296 = ticks) ∨
      (4294967296 ≤ ticks ∧ min ticks 4294967295 = 4294967295 ∧ idle * rate % 4294967296 % 2 = 0) := by
  intro ticks
  have cast : idle * rate % 4294967296 = ticks % 4294967296 := (Nat.mod_mul_mod idle rate _).symm
  rcases Nat.lt_or_ge ticks 4294967296 with small | large
  · exact .inl ⟨small, Nat.min_eq_left (Nat.le_of_lt_succ small), cast.trans (Nat.mod_eq_of_lt small)⟩
  · refine .inr ⟨large, Nat.min_eq_right (by omega), ?_⟩
    rw [Nat.mod_mod_of_dvd _ (by decide : 2 ∣ 4294967296), Nat.mul_mod, even, Nat.mul_zero]

theorem audio_ticks_iff (idle : Nat) :
    (2880 + (max (min (idle % 4294967296 * 48) 4294967295) 960 - 2880)) % 4294967296 =
        idle * 48 % 4294967296 ↔
      60 ≤ idle % 4294967296 ∧ idle % 4294967296 * 48 < 4294967296 := by
  rcases @saturated_cases idle 48 rfl with ⟨small, ticks, exact_⟩ | ⟨large, ticks, even⟩
  · rw [ticks, exact_, Nat.mod_eq_of_lt (by omega)]
    omega
  · rw [ticks]
    omega

theorem audio_silent_ticks_iff (idle : Nat) :
    max (min (idle % 4294967296 * 48) 4294967295) 960 - 2880 = idle * 48 % 4294967296 ↔
      idle % 4294967296 = 0 := by
  rcases @saturated_cases idle 48 rfl with ⟨_, ticks, exact_⟩ | ⟨large, ticks, even⟩
  · rw [ticks, exact_]
    omega
  · rw [ticks]
    omega

theorem video_ticks_iff (idle : Nat) :
    max (min (idle % 4294967296 * 90) 4294967295) 3000 = idle * 90 % 4294967296 ↔
      34 ≤ idle % 4294967296 ∧ idle % 4294967296 * 90 < 4294967296 := by
  rcases @saturated_cases idle 90 rfl with ⟨small, ticks, exact_⟩ | ⟨large, ticks, even⟩
  · rw [ticks, exact_]
    omega
  · rw [ticks]
    omega

/-- The idle time shows exactly in the virtual clock if and only if it fits. -/
theorem idle_clock_iff (kind : TrackKind) (virtualSsrc : UInt32) (s : RewriteState) (cleared : Instant)
    (offers : List Offer) (userId : UserId) (now : Instant) :
    ClockKept kind (inState kind virtualSsrc s) cleared offers userId now ↔
      IdleFits kind s (ms (now - cleared)) := by
  have since := (clearSpeaker_clock (inState kind virtualSsrc s) cleared).2.1
  have gap := idleGap_toNat (cleared_sort virtualSsrc s cleared kind) since now
  have ticks := ticks_toNat kind (ms (now - cleared))
  unfold ClockKept IdleFits
  generalize ms (now - cleared) = idle at gap ticks
  cases kind with
  | audio =>
    simp only [ticksPerMs, guardGap] at gap ticks ⊢
    have taken : (saturatingSub (dynamicTsGap (clearSpeaker (inState .audio virtualSsrc s) cleared).1 48 now)
        2880).toNat = max (min (idle % 4294967296 * 48) 4294967295) 960 - 2880 := by
      rw [saturatingSub, UInt32.toNat_ofNat', show (2880 : UInt32).toNat = 2880 from rfl]
      rw [show (48 : UInt32) = UInt32.ofNat 48 from rfl, gap]
      omega
    rw [audio_base]
    refine (UInt32.add_right_inj _).trans ?_
    by_cases fresh : s.lastVirtualSeq = 0 ∧ s.lastVirtualTs = 0
    · rw [if_pos fresh, if_pos fresh, UInt32.zero_add, ← UInt32.toNat_inj, taken, ticks]
      exact audio_silent_ticks_iff idle
    · rw [if_neg fresh, if_neg fresh, ← UInt32.toNat_inj, UInt32.toNat_add, taken, ticks]
      exact audio_ticks_iff idle
  | video =>
    simp only [ticksPerMs, guardGap] at gap ticks ⊢
    rw [video_base]
    refine (UInt32.add_right_inj _).trans ?_
    rw [← UInt32.toNat_inj, show (90 : UInt32) = UInt32.ofNat 90 from rfl, gap, ticks]
    exact video_ticks_iff idle

/-- Nobody speaks for a day and an hour: the ticks do not fit 32 bits. -/
theorem idle_day_lost : ¬ ClockKept .audio (run BurstClock.step (BurstClock.start .audio 7)
    [.switchSpeaker "a" 0, .rewrite 1 (BurstNumbering.opusPacket 1) "a" false 0]).rewriter 0 [] "b" 90000000000000 := by
  decide

end IdleClock
