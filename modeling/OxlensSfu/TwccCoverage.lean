import OxlensSfu.TwccArrivals

/-
Which numbers the feedback packets of a recorder cover. Beside the recorder runs a
ledger of unbounded positions: where its highest number and its pending base stand, what
was recorded, and what was sent.
-/
namespace TwccCoverage
open WireBytes SfuConfig TransportFeedback GuardedRun SeqPosition TwccRecorder TwccArrivals
open PttRewriter (Instant)

/-- A packet and the position of the first number that it covers. -/
structure Sent where
  start : Int
  packet : Bytes
  deriving DecidableEq, Repr

structure Ledger where
  recorder : Recorder
  /-- The position of the highest number recorded. -/
  top : Int
  /-- The position of the pending base. -/
  base : Int
  /-- Numbers recorded at or after the pending base of their time, newest first. -/
  recorded : List (UInt16 × Int)
  /-- Newest first. -/
  sent : List Sent

def Ledger.new : Ledger := ⟨.new, 0, 0, [], []⟩

/-- The first number fixes the positions; every other one is placed next to the highest. -/
def placeOf (l : Ledger) (twccSeq : UInt16) : Int :=
  if l.recorder.started then l.top + ahead twccSeq l.recorder.maxSeq else twccSeq.toNat

def ledgerStep (l : Ledger) : Op → Ledger
  | .record twccSeq arrival =>
    let p := placeOf l twccSeq
    { l with
      recorder := l.recorder.record twccSeq arrival
      top := if l.recorder.started then max l.top p else p
      base := if l.recorder.started then l.base else p
      recorded := if l.recorder.started ∧ p < l.base then l.recorded else (twccSeq, p) :: l.recorded }
  | .feedback mediaSsrc =>
    match buildTwccFeedback l.recorder mediaSsrc with
    | (next, some packet) =>
      { l with
        recorder := next
        base := l.base + l.recorder.pendingCount.toNat
        sent := ⟨l.base, packet⟩ :: l.sent }
    | (next, none) => { l with recorder := next }

/-- Recorded numbers stay within 8191 of the highest one, and no more than 8192 numbers
    wait for a feedback that is built. -/
def InWindow (l : Ledger) : Op → Prop
  | .record twccSeq _ => l.recorder.started = true →
    (twccSeq - l.recorder.maxSeq).toNat ≤ 8191 ∨ (l.recorder.maxSeq - twccSeq).toNat ≤ 8191
  | .feedback _ => l.top - l.base + 1 ≤ 8192

instance (l : Ledger) : (op : Op) → Decidable (InWindow l op)
  | .record _ _ => inferInstanceAs (Decidable (_ → _))
  | .feedback _ => inferInstanceAs (Decidable (_ ≤ _))

def Covers (s : Sent) (p : Int) : Prop :=
  ∃ fb rest, decode s.packet = some (fb, rest) ∧ s.start ≤ p ∧ p < s.start + fb.statusCount

def ReportsReceived (s : Sent) (p : Int) : Prop :=
  ∃ fb rest, decode s.packet = some (fb, rest) ∧ s.start ≤ p ∧ p < s.start + fb.statusCount ∧
    (fb.deltas.getD (p - s.start).toNat none).isSome

/-- The newer packet starts where the older one ended, and counts on. -/
def Adjacent (newer older : Sent) : Prop :=
  ∃ fb rest before left, decode newer.packet = some (fb, rest) ∧
    decode older.packet = some (before, left) ∧ newer.start = older.start + before.statusCount ∧
    fb.baseSeq = before.baseSeq + UInt16.ofNat before.statusCount ∧
    fb.fbPktCount = before.fbPktCount + 1

/-- The packets cover every position up to `stop` from the start of the oldest on, and the
    next one is to carry the count `next`. -/
def Tiled : List Sent → Int → UInt8 → Prop
  | [], _, _ => True
  | s :: older, stop, next => ∃ fb rest, decode s.packet = some (fb, rest) ∧
    fb.baseSeq = UInt16.ofInt s.start ∧ stop = s.start + fb.statusCount ∧
    next = fb.fbPktCount + 1 ∧ Tiled older s.start fb.fbPktCount

theorem Tiled.covers_lt {sent : List Sent} {stop : Int} {next : UInt8} (tiled : Tiled sent stop next)
    {s : Sent} (member : s ∈ sent) {p : Int} (covers : Covers s p) : p < stop := by
  induction sent generalizing stop next with
  | nil => simp at member
  | cons newest older ih =>
    obtain ⟨fb, rest, read, _, ends, _, before⟩ := tiled
    obtain ⟨fb', rest', read', lower, upper⟩ := covers
    rcases List.mem_cons.mp member with rfl | earlier
    · rw [read] at read'
      obtain ⟨rfl, rfl⟩ := Prod.mk.inj (Option.some.inj read')
      omega
    · have under := ih before earlier
      omega

theorem Tiled.adjacent {sent : List Sent} {stop : Int} {next : UInt8} (tiled : Tiled sent stop next) :
    sent.IsChain Adjacent := by
  induction sent generalizing stop next with
  | nil => exact .nil
  | cons newest older ih =>
    obtain ⟨fb, rest, read, base, _, _, before⟩ := tiled
    cases older with
    | nil => exact .singleton _
    | cons second others =>
      refine .cons_cons ?_ (ih before)
      obtain ⟨fb', rest', read', base', ends, count, _⟩ := before
      refine ⟨fb, rest, fb', rest', read, read', ends, ?_, count⟩
      rw [base, ends, base', UInt16.ofInt_add, ofInt_ofNat]

/-- No position is covered by two packets. -/
theorem Tiled.disjoint {sent : List Sent} {stop : Int} {next : UInt8} (tiled : Tiled sent stop next) :
    sent.Pairwise fun a b => ∀ p, ¬ (Covers a p ∧ Covers b p) := by
  induction sent generalizing stop next with
  | nil => exact .nil
  | cons newest older ih =>
    obtain ⟨fb, rest, read, _, _, _, before⟩ := tiled
    refine .cons (fun s member p both => ?_) (ih before)
    obtain ⟨⟨_, _, _, lower, _⟩, covers⟩ := both
    have under := before.covers_lt member covers
    omega

theorem Tiled.numbered {sent : List Sent} {stop : Int} {next : UInt8} (tiled : Tiled sent stop next) :
    ∀ s ∈ sent, ∃ fb rest, decode s.packet = some (fb, rest) ∧ fb.baseSeq = UInt16.ofInt s.start := by
  induction sent generalizing stop next with
  | nil => simp
  | cons newest older ih =>
    obtain ⟨fb, rest, read, base, _, _, before⟩ := tiled
    intro s member
    rcases List.mem_cons.mp member with rfl | earlier
    · exact ⟨fb, rest, read, base⟩
    · exact ih before s earlier

/-- What holds once the first number was recorded. -/
structure Live (l : Ledger) : Prop where
  based : l.recorder.baseTime.isSome = true
  maxSeq : l.recorder.maxSeq = UInt16.ofInt l.top
  pendingBase : l.recorder.pendingBaseSeq = UInt16.ofInt l.base
  bounded : l.base ≤ l.top + 1
  placed : ∀ q ∈ l.recorded, UInt16.ofInt q.2 = q.1 ∧ q.2 ≤ l.top
  highest : (l.recorder.maxSeq, l.top) ∈ l.recorded
  /-- A slot keeps its entry until the highest number is a whole buffer ahead. -/
  stored : ∀ q ∈ l.recorded, l.top < q.2 + 8192 →
    ∃ t, l.recorder.arrivals (slot q.1) = some ⟨q.1, t⟩
  tiled : Tiled l.sent l.base l.recorder.fbPktCount
  reported : ∀ q ∈ l.recorded, q.2 < l.base → ∃ s ∈ l.sent, ReportsReceived s q.2

structure Sound (l : Ledger) : Prop where
  idle : l.recorder.started = false → l.recorder = .new ∧ l.sent = [] ∧ l.recorded = []
  live : l.recorder.started = true → Live l

theorem new_sound : Sound .new :=
  ⟨fun _ => ⟨rfl, rfl, rfl⟩, fun started => absurd (show false = true from started) (by decide)⟩

theorem slot_ofInt (p : Int) : ((slot (UInt16.ofInt p)).val : Int) = p % 8192 := by
  have value := toNat_ofInt p
  simp only [slot, twccRecorderCapacity]
  omega

/-- Positions less than a buffer apart have slots of their own. -/
theorem slot_inj_close {p q : Int} (low : -8192 < p - q) (high : p - q < 8192)
    (same : slot (UInt16.ofInt p) = slot (UInt16.ofInt q)) : p = q := by
  have left := slot_ofInt p
  have right := slot_ofInt q
  rw [same] at left
  omega

theorem record_started {r : Recorder} (started : r.started = true) (twccSeq : UInt16) (arrival : Instant) :
    (r.record twccSeq arrival).maxSeq = (if 0 < ahead twccSeq r.maxSeq then twccSeq else r.maxSeq) ∧
      (r.record twccSeq arrival).pendingBaseSeq = r.pendingBaseSeq ∧
      (r.record twccSeq arrival).fbPktCount = r.fbPktCount := by
  simp only [Recorder.record, started, Bool.not_true, Bool.false_eq_true, if_false, ahead_pos_iff]
  split
  · exact ⟨rfl, rfl, rfl⟩
  · exact ⟨rfl, rfl, rfl⟩

theorem first_record_live {l : Ledger} (sound : Sound l) (idle : l.recorder.started = false)
    (twccSeq : UInt16) (arrival : Instant) : Live (ledgerStep l (.record twccSeq arrival)) := by
  obtain ⟨fresh, unsent, unrecorded⟩ := sound.idle idle
  have place : placeOf l twccSeq = twccSeq.toNat := by simp [placeOf, idle]
  simp only [ledgerStep, idle, Bool.false_eq_true, if_false, false_and, place]
  rw [fresh, unsent, unrecorded]
  refine ⟨rfl, (ofInt_toNat _).symm, (ofInt_toNat _).symm, by simp only; omega, ?_, ?_, ?_, trivial, ?_⟩
  · intro q member
    rw [List.mem_singleton.mp member]
    exact ⟨ofInt_toNat _, Int.le_refl _⟩
  · exact List.mem_singleton.mpr rfl
  · intro q member _
    rw [List.mem_singleton.mp member]
    exact ⟨arrival, if_pos rfl⟩
  · intro q member below
    rw [List.mem_singleton.mp member] at below
    exact absurd below (Int.lt_irrefl _)

section Record
variable {l : Ledger} (live : Live l) (started : l.recorder.started = true) {twccSeq : UInt16}
  {arrival : Instant}
include started

theorem recorded_grown {q : UInt16 × Int}
    (member : q ∈ (ledgerStep l (.record twccSeq arrival)).recorded) :
    q ∈ l.recorded ∨ q = (twccSeq, placeOf l twccSeq) ∧ l.base ≤ placeOf l twccSeq := by
  simp only [ledgerStep, started, true_and] at member
  split at member
  · exact .inl member
  · rename_i recorded
    exact (List.mem_cons.mp member).elim (fun same => .inr ⟨same, by omega⟩) .inl

theorem record_top :
    (ledgerStep l (.record twccSeq arrival)).top = max l.top (placeOf l twccSeq) := by
  simp only [ledgerStep, started, if_true]

include live

theorem place_residue (twccSeq : UInt16) : UInt16.ofInt (placeOf l twccSeq) = twccSeq := by
  rw [placeOf, if_pos started, live.maxSeq]
  exact ofInt_near l.top twccSeq

/-- The highest number is the one recorded here, or the old one where this one is not ahead. -/
theorem record_highest : ((ledgerStep l (.record twccSeq arrival)).recorder.maxSeq,
    (ledgerStep l (.record twccSeq arrival)).top) ∈
      (ledgerStep l (.record twccSeq arrival)).recorded := by
  have place : placeOf l twccSeq = l.top + ahead twccSeq l.recorder.maxSeq := by simp [placeOf, started]
  have bounded := live.bounded
  simp only [ledgerStep, started, if_true, true_and, (record_started started twccSeq arrival).1]
  by_cases higher : 0 < ahead twccSeq l.recorder.maxSeq
  · rw [if_pos higher, if_neg (by omega), Int.max_eq_right (by omega)]
    exact List.mem_cons_self
  · rw [if_neg higher, Int.max_eq_left (by omega)]
    split
    · exact live.highest
    · exact List.mem_cons_of_mem _ live.highest

theorem record_placed {q : UInt16 × Int}
    (member : q ∈ (ledgerStep l (.record twccSeq arrival)).recorded) :
    UInt16.ofInt q.2 = q.1 ∧ q.2 ≤ (ledgerStep l (.record twccSeq arrival)).top := by
  rw [record_top started]
  rcases recorded_grown started member with old | ⟨rfl, _⟩
  · obtain ⟨number, below⟩ := live.placed q old
    exact ⟨number, by omega⟩
  · exact ⟨place_residue live started twccSeq, by simp only; omega⟩

/-- A number that takes the slot of another one is that number, or a whole buffer away. -/
theorem record_stored (allowed : InWindow l (.record twccSeq arrival)) {q : UInt16 × Int}
    (member : q ∈ (ledgerStep l (.record twccSeq arrival)).recorded)
    (close : (ledgerStep l (.record twccSeq arrival)).top < q.2 + 8192) :
    ∃ t, (ledgerStep l (.record twccSeq arrival)).recorder.arrivals (slot q.1) = some ⟨q.1, t⟩ := by
  have distance := ahead_bound (by decide) (allowed started)
  have place : placeOf l twccSeq = l.top + ahead twccSeq l.recorder.maxSeq := by simp [placeOf, started]
  have residue := place_residue live started twccSeq
  rw [record_top started] at close
  simp only [ledgerStep, (record_fields l.recorder twccSeq arrival).2.2]
  rcases recorded_grown started member with old | ⟨rfl, _⟩
  · split
    · rename_i same
      obtain ⟨number, below⟩ := live.placed q old
      rw [← number, ← residue] at same
      have here : q.2 = placeOf l twccSeq := slot_inj_close (by omega) (by omega) same
      exact ⟨arrival, by rw [← number, here, residue]⟩
    · exact live.stored q old (by omega)
  · exact ⟨arrival, if_pos rfl⟩

theorem later_record_live (allowed : InWindow l (.record twccSeq arrival)) :
    Live (ledgerStep l (.record twccSeq arrival)) := by
  have highest := @record_highest l live started twccSeq arrival
  have placed := fun q => @record_placed l live started twccSeq arrival q
  obtain ⟨_, pendingBase, fbPktCount⟩ := record_started started twccSeq arrival
  have base : (ledgerStep l (.record twccSeq arrival)).base = l.base := by
    simp only [ledgerStep, started, if_true]
  refine ⟨?_, (placed _ highest).1.symm, ?_, ?_, placed, highest,
    fun q => record_stored live started allowed, ?_, ?_⟩
  · simp only [ledgerStep, (record_fields l.recorder twccSeq arrival).2.1, started, if_true, live.based]
  · rw [base, ← live.pendingBase]
    exact pendingBase
  · have := live.bounded
    rw [base, record_top started]
    omega
  · simp only [ledgerStep, fbPktCount, started, if_true]
    exact live.tiled
  · intro q member below
    rw [base] at below
    rcases recorded_grown started member with old | ⟨rfl, above⟩
    · exact live.reported q old below
    · simp only at below
      omega

end Record

theorem get_of_stored {r : Recorder} {twccSeq : UInt16} {t : Instant}
    (stored : r.arrivals (slot twccSeq) = some ⟨twccSeq, t⟩) : r.get twccSeq = some ⟨twccSeq, t⟩ := by
  simp [Recorder.get, stored]

/-- Where a number is pending and one of them is held, a packet is built. -/
theorem build_returns {r : Recorder} (mediaSsrc : UInt32) (started : r.started = true)
    (based : r.baseTime.isSome = true) (pending : r.pendingCount ≠ 0) (few : r.pendingCount.toNat ≤ 8192)
    {i : Nat} (below : i < r.pendingCount.toNat)
    (found : (r.get (r.pendingBaseSeq + UInt16.ofNat i)).isSome = true) :
    ∃ next buf, buildTwccFeedback r mediaSsrc = (next, some buf) := by
  obtain ⟨baseTime, based⟩ := Option.isSome_iff_exists.mp based
  have fits : ¬ UInt16.ofNat twccRecorderCapacity < r.pendingCount :=
    UInt16.not_lt.mpr (UInt16.le_iff_toNat_le.mpr few)
  obtain ⟨entry, got⟩ := Option.isSome_iff_exists.mp found
  have member : some entry.arrival ∈ held r :=
    List.mem_map.mpr ⟨i, List.mem_range.mpr below, by rw [got]; rfl⟩
  have first : ((scan r baseTime).firstArrival).isSome = true := by
    rw [(scan_spec r baseTime).2.2, List.findSome?_isSome_iff]
    exact ⟨_, member, rfl⟩
  obtain ⟨firstArrival, first⟩ := Option.isSome_iff_exists.mp first
  unfold buildTwccFeedback
  simp only [started, pending, based, if_neg fits, first, Bool.not_true, decide_false, Bool.or_self,
    Bool.false_eq_true, if_false]
  exact ⟨_, _, rfl⟩

section Feedback
variable {l : Ledger} (live : Live l) (started : l.recorder.started = true)
include live started

theorem pending_positions (few : l.top - l.base + 1 ≤ 8192) :
    (l.recorder.pendingCount.toNat : Int) = l.top - l.base + 1 := by
  have bounded := live.bounded
  have residue : l.recorder.pendingCount = UInt16.ofInt (l.top - l.base + 1) := by
    simp only [Recorder.pendingCount, started, Bool.not_true, Bool.false_eq_true, if_false,
      live.maxSeq, live.pendingBase, UInt16.ofInt_add, ofInt_sub]
    rfl
  rw [residue, toNat_ofInt]
  omega

/-- A recorded number that is pending is held where the scan looks for it. -/
theorem pending_held (few : l.top - l.base + 1 ≤ 8192) {q : UInt16 × Int} (member : q ∈ l.recorded)
    (pending : l.base ≤ q.2) :
    (q.2 - l.base).toNat < l.recorder.pendingCount.toNat ∧
      (l.recorder.get (l.recorder.pendingBaseSeq + UInt16.ofNat (q.2 - l.base).toNat)).isSome = true := by
  have count := pending_positions live started few
  obtain ⟨number, below⟩ := live.placed q member
  obtain ⟨t, stored⟩ := live.stored q member (by omega)
  have place : l.recorder.pendingBaseSeq + UInt16.ofNat (q.2 - l.base).toNat = q.1 := by
    rw [live.pendingBase, ← ofInt_ofNat, ← UInt16.ofInt_add, ← number]
    congr 1
    omega
  exact ⟨by omega, by rw [place, get_of_stored stored]; rfl⟩

theorem feedback_live (mediaSsrc : UInt32) (few : l.top - l.base + 1 ≤ 8192) :
    Live (ledgerStep l (.feedback mediaSsrc)) ∧
      (ledgerStep l (.feedback mediaSsrc)).recorder.started = true ∧
      (ledgerStep l (.feedback mediaSsrc)).base = l.top + 1 ∧
      (ledgerStep l (.feedback mediaSsrc)).recorded = l.recorded ∧
      (ledgerStep l (.feedback mediaSsrc)).top = l.top := by
  have count := pending_positions live started few
  have bounded := live.bounded
  by_cases none_ : l.recorder.pendingCount = 0
  · have idle : buildTwccFeedback l.recorder mediaSsrc = (l.recorder, none) := by
      simp [buildTwccFeedback, none_]
    have zero : l.recorder.pendingCount.toNat = 0 := by rw [none_]; rfl
    have same : ledgerStep l (.feedback mediaSsrc) = l := by simp only [ledgerStep, idle]
    rw [same]
    exact ⟨live, started, by omega, rfl, rfl⟩
  have some_ : l.recorder.pendingCount.toNat ≠ 0 := fun zero =>
    none_ (UInt16.toNat_inj.mp zero)
  obtain ⟨topBelow, topFound⟩ := pending_held live started few live.highest (by simp only; omega)
  obtain ⟨next, buf, returned⟩ := build_returns mediaSsrc started live.based none_ (by omega) topBelow topFound
  obtain ⟨baseTime, firstArrival, facts⟩ := built_of_some (congrArg Prod.snd returned)
  have after : next = { l.recorder with
      fbPktCount := l.recorder.fbPktCount + 1
      pendingBaseSeq := l.recorder.pendingBaseSeq + l.recorder.pendingCount } := by
    rw [← facts.next, returned]
  have shape : ledgerStep l (.feedback mediaSsrc) = { l with
      recorder := next
      base := l.base + l.recorder.pendingCount.toNat
      sent := ⟨l.base, buf⟩ :: l.sent } := by
    simp only [ledgerStep, returned]
  have end_ : l.base + l.recorder.pendingCount.toNat = l.top + 1 := by omega
  rw [shape, after]
  refine ⟨?_, started, end_, rfl, rfl⟩
  refine ⟨live.based, live.maxSeq, ?_, by simp only; omega, live.placed, live.highest, live.stored, ?_, ?_⟩
  · simp only
    rw [live.pendingBase, UInt16.ofInt_add, ofInt_ofNat, UInt16.ofNat_toNat]
  · exact ⟨_, _, facts.read, live.pendingBase, rfl, rfl, live.tiled⟩
  · intro q member below
    by_cases earlier : q.2 < l.base
    · obtain ⟨s, old, reports⟩ := live.reported q member earlier
      exact ⟨s, List.mem_cons_of_mem _ old, reports⟩
    · obtain ⟨inside, found⟩ := pending_held live started few member (by omega)
      exact ⟨_, List.mem_cons_self, _, _, facts.read, by simp only; omega, below,
        ((facts.reports facts.read).received _ inside).mpr found⟩

end Feedback

theorem step_sound (l : Ledger) (op : Op) (sound : Sound l) (allowed : InWindow l op) :
    Sound (ledgerStep l op) := by
  cases op with
  | record twccSeq arrival =>
    have starts : (ledgerStep l (.record twccSeq arrival)).recorder.started = true :=
      (record_fields l.recorder twccSeq arrival).1
    refine ⟨fun idle => absurd (idle.symm.trans starts) (by decide), fun _ => ?_⟩
    cases started : l.recorder.started
    · exact first_record_live sound started twccSeq arrival
    · exact later_record_live (sound.live started) started allowed
  | feedback mediaSsrc =>
    cases started : l.recorder.started
    · obtain ⟨fresh, unsent, unrecorded⟩ := sound.idle started
      have idle : buildTwccFeedback l.recorder mediaSsrc = (l.recorder, none) := by
        simp [buildTwccFeedback, started]
      have same : ledgerStep l (.feedback mediaSsrc) = l := by simp only [ledgerStep, idle]
      rw [same]
      exact sound
    · obtain ⟨live, starts, _⟩ := feedback_live (sound.live started) started mediaSsrc allowed
      exact ⟨fun idle => absurd (idle.symm.trans starts) (by decide), fun _ => live⟩

theorem run_sound {ops : List Op} (allowed : Guarded ledgerStep InWindow .new ops) :
    Sound (run ledgerStep .new ops) :=
  guarded_invariant step_sound new_sound ops allowed

/-- The ledger runs the recorder as it is. -/
theorem ledger_recorder (l : Ledger) (ops : List Op) :
    (run ledgerStep l ops).recorder = run step l.recorder ops := by
  induction ops generalizing l with
  | nil => rfl
  | cons op ops ih =>
    rw [run_cons, run_cons, ih]
    congr 1
    cases op with
    | record twccSeq arrival => rfl
    | feedback mediaSsrc =>
      simp only [ledgerStep, step]
      split <;> rename_i built <;> rw [built]

/-- One packet reports the position as received, and no other one covers it. -/
def ReportedOnce (sent : List Sent) (p : Int) : Prop :=
  ∃ (i : Nat) (s : Sent), sent[i]? = some s ∧ ReportsReceived s p ∧
    ∀ (j : Nat) (t : Sent), sent[j]? = some t → Covers t p → j = i

theorem ReportsReceived.covers {s : Sent} {p : Int} (reports : ReportsReceived s p) : Covers s p := by
  obtain ⟨fb, rest, read, lower, upper, _⟩ := reports
  exact ⟨fb, rest, read, lower, upper⟩

theorem reportedOnce_of_disjoint {sent : List Sent}
    (disjoint : sent.Pairwise fun a b => ∀ p, ¬ (Covers a p ∧ Covers b p)) {s : Sent}
    (member : s ∈ sent) {p : Int} (reports : ReportsReceived s p) : ReportedOnce sent p := by
  obtain ⟨i, bound, rfl⟩ := List.getElem_of_mem member
  refine ⟨i, sent[i], List.getElem?_eq_getElem bound, reports, fun j t found covers => ?_⟩
  obtain ⟨bound', rfl⟩ := List.getElem?_eq_some_iff.mp found
  have apart := List.pairwise_iff_getElem.mp disjoint
  rcases Nat.lt_trichotomy i j with before | same | after
  · exact absurd ⟨reports.covers, covers⟩ (apart i j bound bound' before p)
  · exact same.symm
  · exact absurd ⟨covers, reports.covers⟩ (apart j i bound' bound after p)

/-- The packets of a run adjoin, no position is covered twice, and every number recorded
    at or after the pending base is reported once: as soon as the base has passed it, and
    by the next packet otherwise. -/
theorem feedback_covers_once (ops : List Op) (allowed : Guarded ledgerStep InWindow .new ops) :
    let l := run ledgerStep .new ops
    l.recorder = run step .new ops ∧
      (∀ s ∈ l.sent, ∃ fb rest, decode s.packet = some (fb, rest) ∧ fb.baseSeq = UInt16.ofInt s.start) ∧
      l.sent.IsChain Adjacent ∧
      (l.sent.Pairwise fun a b => ∀ p, ¬ (Covers a p ∧ Covers b p)) ∧
      (∀ q ∈ l.recorded, UInt16.ofInt q.2 = q.1 ∧
        (q.2 < l.base → ReportedOnce l.sent q.2) ∧ (l.base ≤ q.2 → ∀ s ∈ l.sent, ¬ Covers s q.2)) ∧
      ∀ mediaSsrc, InWindow l (.feedback mediaSsrc) →
        ∀ q ∈ l.recorded, ReportedOnce (ledgerStep l (.feedback mediaSsrc)).sent q.2 := by
  intro l
  have sound : Sound l := run_sound allowed
  refine ⟨ledger_recorder .new ops, ?_⟩
  cases started : l.recorder.started
  · obtain ⟨_, unsent, unrecorded⟩ := sound.idle started
    simp [unsent, unrecorded]
  have live := sound.live started
  refine ⟨live.tiled.numbered, live.tiled.adjacent, live.tiled.disjoint, fun q member => ?_, ?_⟩
  · refine ⟨(live.placed q member).1, fun passed => ?_, fun pending s sent covers => ?_⟩
    · obtain ⟨s, sent, reports⟩ := live.reported q member passed
      exact reportedOnce_of_disjoint live.tiled.disjoint sent reports
    · have under := live.tiled.covers_lt sent covers
      omega
  · intro mediaSsrc few q member
    obtain ⟨next, _, base, recorded, top⟩ := feedback_live live started mediaSsrc few
    have below := (live.placed q member).2
    obtain ⟨s, sent, reports⟩ := next.reported q (recorded ▸ member) (by omega)
    exact reportedOnce_of_disjoint next.tiled.disjoint sent reports

theorem feedback_covers_wrap :
    Guarded ledgerStep InWindow .new
        [.record 65534 0, .record 0 1000, .feedback 1, .record 65535 2000, .record 2 3000, .feedback 1] ∧
      (run ledgerStep .new [.record 65534 0, .record 0 1000, .feedback 1, .record 65535 2000,
        .record 2 3000, .feedback 1]).sent.IsChain Adjacent :=
  ⟨by decide, (feedback_covers_once _ (by decide)).2.2.1⟩

end TwccCoverage
