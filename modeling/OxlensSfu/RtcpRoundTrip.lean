import OxlensSfu.RtcpBuilders
import OxlensSfu.RtcpCompound
import Mathlib.Algebra.BigOperators.Group.List.Basic

/- Splitting gives back the packets that a compound was assembled from. -/
namespace RtcpRoundTrip
open WireBytes SfuConfig FloorHandlers ReceiverStats TwccRecorder RtcpBuilders
open RtcpCompound hiding slice

inductive Purpose where
  | nack | mbcp | senderReport | receiverReport | relay | ignored
  deriving DecidableEq

/-- What the type, the format and the name of a packet select. -/
def purpose (p : Bytes) : Purpose :=
  let fmt := byteAt p 0 &&& 0x1F
  let pt := byteAt p 1
  if pt = rtcpPtNack ∧ fmt = rtcpFmtNack then .nack
  else if pt = rtcpPtApp then
    if 12 ≤ p.length ∧ (p.drop 8).take 4 = mbcpAppName then .mbcp else .ignored
  else if pt = rtcpPtSr then .senderReport
  else if pt = rtcpPtRr then .receiverReport
  else if pt = rtcpPtPsfb ∧ (fmt = rtcpFmtPli ∨ fmt = rtcpFmtRemb) then .relay
  else .ignored

/-- Every packet with the place where it starts. -/
def placed (start : Nat) : List Bytes → List (Nat × Bytes)
  | [] => []
  | p :: rest => (start, p) :: placed (start + p.length) rest

def ofPurpose (kind : Purpose) (blocks : List (Nat × Bytes)) : List (Nat × Bytes) :=
  blocks.filter (fun x => purpose x.2 = kind)

/-- The reference covers the packet, and names the source that the packet itself names. -/
structure Delimits (buf : Bytes) (ref : RtcpBlockRef) (x : Nat × Bytes) : Prop where
  offset : ref.offset = x.1
  length : ref.length = x.2.length
  bytes : RtcpCompound.slice buf ref = x.2
  source : 12 ≤ x.2.length → ref.mediaSsrc = u32At x.2 8

/-- Every packet once, in order, in its class. -/
structure Split (blocks : List Bytes) (buf : Bytes) (parsed : CompoundRtcpParsed) : Prop where
  nacks : parsed.nackBlocks = (ofPurpose .nack (placed 0 blocks)).map (·.2)
  floor : parsed.mbcpBlocks.map some =
    (ofPurpose .mbcp (placed 0 blocks)).map (fun x => parseMbcpApp x.2)
  relays : List.Forall₂ (Delimits buf) parsed.relayBlocks (ofPurpose .relay (placed 0 blocks))
  senderReports :
    List.Forall₂ (Delimits buf) parsed.srBlocks (ofPurpose .senderReport (placed 0 blocks))
  receiverReports :
    List.Forall₂ (Delimits buf) parsed.rrBlocks (ofPurpose .receiverReport (placed 0 blocks))

/-- The front of a packet whose rest is missing. -/
def Truncated (t : Bytes) : Prop := ∃ p, WellFormed p ∧ t <+: p ∧ t ≠ p

def refIn (buf : Bytes) (x : Nat × Bytes) : RtcpBlockRef :=
  ⟨x.1, x.2.length, if x.1 + 12 ≤ buf.length then u32At buf (x.1 + 8) else 0⟩

/-- The walk over packets at known places. -/
def collect (buf : Bytes) (blocks : List (Nat × Bytes)) (parsed : CompoundRtcpParsed) :
    CompoundRtcpParsed where
  nackBlocks := parsed.nackBlocks ++ (ofPurpose .nack blocks).map (·.2)
  relayBlocks := parsed.relayBlocks ++ (ofPurpose .relay blocks).map (refIn buf)
  mbcpBlocks := parsed.mbcpBlocks ++ blocks.filterMap (fun x => parseMbcpApp x.2)
  srBlocks := parsed.srBlocks ++ (ofPurpose .senderReport blocks).map (refIn buf)
  rrBlocks := parsed.rrBlocks ++ (ofPurpose .receiverReport blocks).map (refIn buf)

/-- The packet stands at its place in the buffer. -/
structure Stands (buf : Bytes) (x : Nat × Bytes) : Prop where
  fits : x.1 + x.2.length ≤ buf.length
  bytes : (buf.drop x.1).take x.2.length = x.2

theorem Stands.byteAt {buf : Bytes} {x : Nat × Bytes} (stands : Stands buf x) {k : Nat}
    (inside : k < x.2.length) : byteAt buf (x.1 + k) = byteAt x.2 k := by
  conv_rhs => rw [← stands.bytes]
  rw [byteAt_take inside, byteAt_drop]

theorem four_le_length {p : Bytes} (wellFormed : WellFormed p) : 4 ≤ p.length := by
  have := wellFormed.positive
  have := wellFormed.words
  omega

theorem blockLength_stands {buf : Bytes} {x : Nat × Bytes} (stands : Stands buf x)
    (wellFormed : WellFormed x.2) : blockLength buf x.1 = x.2.length := by
  have long := four_le_length wellFormed
  have field : u16At buf (x.1 + 2) = u16At x.2 2 := by
    rw [u16At, stands.byteAt (by omega), show x.1 + 2 + 1 = x.1 + 3 by omega,
      stands.byteAt (by omega), u16At]
  rw [blockLength, field, wellFormed.lengthField]
  have := wellFormed.words
  omega

theorem parseMbcpApp_isSome_iff {p : Bytes} : (parseMbcpApp p).isSome ↔ byteAt p 1 = rtcpPtApp ∧
    12 ≤ p.length ∧ (p.drop 8).take 4 = mbcpAppName := by
  unfold parseMbcpApp
  split
  · rename_i short
    exact ⟨fun some => absurd some (by simp), fun ⟨_, long, _⟩ => absurd short (by omega)⟩
  split
  · rename_i long other
    exact ⟨fun some => absurd some (by simp), fun ⟨app, _⟩ => absurd app other⟩
  split
  · rename_i other
    exact ⟨fun some => absurd some (by simp), fun ⟨_, _, name⟩ => absurd name other⟩
  · rename_i long app name
    exact ⟨fun _ => ⟨not_not.mp app, by omega, not_not.mp name⟩, fun _ => rfl⟩

theorem purpose_mbcp_iff {p : Bytes} : purpose p = .mbcp ↔ (parseMbcpApp p).isSome := by
  rw [parseMbcpApp_isSome_iff]
  unfold purpose
  simp only
  split
  · rename_i nack
    refine ⟨nofun, fun ⟨app, _⟩ => ?_⟩
    rw [nack.1] at app
    exact absurd app (by decide)
  split
  · rename_i app
    split
    · rename_i named
      exact ⟨fun _ => ⟨app, named⟩, fun _ => rfl⟩
    · rename_i named
      exact ⟨nofun, fun ⟨_, here⟩ => absurd here named⟩
  · rename_i other
    refine ⟨fun kind => ?_, fun ⟨app, _⟩ => absurd app other⟩
    split at kind
    · cases kind
    split at kind
    · cases kind
    split at kind <;> cases kind

theorem no_message {p : Bytes} (other : byteAt p 1 ≠ rtcpPtApp) : parseMbcpApp p = none := by
  rw [← Option.not_isSome_iff_eq_none, parseMbcpApp_isSome_iff]
  exact fun ⟨app, _⟩ => other app

/-- One more packet of the walk. -/
theorem classify_stands {buf : Bytes} {x : Nat × Bytes} (stands : Stands buf x)
    (wellFormed : WellFormed x.2) (parsed : CompoundRtcpParsed) :
    classify buf x.1 parsed = collect buf [x] parsed := by
  have long := four_le_length wellFormed
  have ref : blockRef buf x.1 = refIn buf x := by
    rw [blockRef, blockLength_stands stands wellFormed, refIn]
  have bytes : RtcpCompound.slice buf (refIn buf x) = x.2 := stands.bytes
  have format : byteAt buf x.1 = byteAt x.2 0 := by
    simpa only [Nat.add_zero] using stands.byteAt (show 0 < x.2.length by omega)
  have type : byteAt buf (x.1 + 1) = byteAt x.2 1 := stands.byteAt (by omega)
  simp only [classify, ref, bytes, format, type]
  by_cases nack : byteAt x.2 1 = rtcpPtNack ∧ byteAt x.2 0 &&& 0x1F = rtcpFmtNack
  · have kind : purpose x.2 = .nack := if_pos nack
    have silent := no_message (show byteAt x.2 1 ≠ rtcpPtApp by rw [nack.1]; decide)
    simp [nack, collect, ofPurpose, kind, silent]
  by_cases app : byteAt x.2 1 = rtcpPtApp
  · rw [if_neg nack, if_pos app]
    cases message : parseMbcpApp x.2 with
    | none =>
      have kind : purpose x.2 = .ignored := by
        simp only [purpose, if_neg nack, if_pos app]
        refine if_neg fun named => ?_
        simpa [message] using parseMbcpApp_isSome_iff.mpr ⟨app, named⟩
      simp [collect, ofPurpose, kind, message]
    | some msg =>
      have named := (parseMbcpApp_isSome_iff.mp (by rw [message]; rfl)).2
      have kind : purpose x.2 = .mbcp := by
        simp only [purpose, if_neg nack, if_pos app, if_pos named]
      simp [collect, ofPurpose, kind, message]
  have silent := no_message app
  rw [if_neg nack, if_neg app]
  by_cases sender : byteAt x.2 1 = rtcpPtSr
  · have kind : purpose x.2 = .senderReport := by
      simp only [purpose, if_neg nack, if_neg app, if_pos sender]
    simp [sender, collect, ofPurpose, kind, silent]
  rw [if_neg sender]
  by_cases receiver : byteAt x.2 1 = rtcpPtRr
  · have kind : purpose x.2 = .receiverReport := by
      simp only [purpose, if_neg nack, if_neg app, if_neg sender, if_pos receiver]
    simp [receiver, collect, ofPurpose, kind, silent]
  rw [if_neg receiver]
  by_cases relay : byteAt x.2 1 = rtcpPtPsfb ∧
      (byteAt x.2 0 &&& 0x1F = rtcpFmtPli ∨ byteAt x.2 0 &&& 0x1F = rtcpFmtRemb)
  · have kind : purpose x.2 = .relay := by
      simp only [purpose, if_neg nack, if_neg app, if_neg sender, if_neg receiver, if_pos relay]
    rw [if_pos (and_or_left.mp relay)]
    simp [collect, ofPurpose, kind, silent]
  · have kind : purpose x.2 = .ignored := by
      simp only [purpose, if_neg nack, if_neg app, if_neg sender, if_neg receiver, if_neg relay]
    rw [if_neg fun either => relay (and_or_left.mpr either)]
    simp [collect, ofPurpose, kind, silent]

theorem collect_cons (buf : Bytes) (x : Nat × Bytes) (blocks : List (Nat × Bytes))
    (parsed : CompoundRtcpParsed) :
    collect buf blocks (collect buf [x] parsed) = collect buf (x :: blocks) parsed := by
  have both : x :: blocks = [x] ++ blocks := rfl
  rw [both]
  simp only [collect, ofPurpose, List.filter_append, List.map_append, List.filterMap_append,
    List.append_assoc]

/-- The walk ends where the rest of the buffer holds no whole packet. -/
def Stops (buf : Bytes) (offset : Nat) : Prop :=
  offset + 4 ≤ buf.length → buf.length < offset + blockLength buf offset

theorem splitFrom_stops {buf : Bytes} {offset : Nat} (stops : Stops buf offset) (fuel : Nat)
    (parsed : CompoundRtcpParsed) : splitFrom buf fuel offset parsed = parsed := by
  cases fuel with
  | zero => rfl
  | succ fuel =>
    unfold splitFrom
    split
    · rename_i more
      exact if_pos (stops more)
    · rfl

theorem truncated_stops {t : Bytes} (cut : Truncated t) (front : Bytes) :
    Stops (front ++ t) front.length := by
  obtain ⟨p, wellFormed, ⟨missing, joined⟩, shorter⟩ := cut
  intro more
  rw [List.length_append] at more ⊢
  have total : t.length + missing.length = p.length := by rw [← joined, List.length_append]
  have left : missing.length ≠ 0 := by
    intro none
    rw [List.length_eq_zero_iff.mp none, List.append_nil] at joined
    exact shorter joined
  have field : u16At (front ++ t) (front.length + 2) = u16At p 2 := by
    rw [← joined, u16At_append_right, u16At_append_left (by omega)]
  have words := wellFormed.words
  rw [blockLength, field, wellFormed.lengthField]
  omega

theorem stands_middle (front p back : Bytes) : Stands (front ++ p ++ back) (front.length, p) := by
  refine ⟨by simp only [List.length_append]; omega, ?_⟩
  simp

/-- The whole walk, by induction on the packets left. -/
theorem splitFrom_placed {buf t : Bytes} (cut : Truncated t) (blocks : List Bytes) :
    (∀ p ∈ blocks, WellFormed p) → ∀ front fuel parsed, buf = front ++ blocks.flatten ++ t →
      blocks.length ≤ fuel →
      splitFrom buf fuel front.length parsed = collect buf (placed front.length blocks) parsed := by
  induction blocks with
  | nil =>
    rintro - front fuel parsed rfl -
    rw [List.flatten_nil, List.append_nil, splitFrom_stops (truncated_stops cut front)]
    simp [collect, placed, ofPurpose]
  | cons p rest ih =>
    intro wellFormed front fuel parsed whole enough
    have here := wellFormed p (List.mem_cons_self ..)
    have stands : Stands buf (front.length, p) := by
      rw [whole, List.flatten_cons]
      simpa only [List.append_assoc] using stands_middle front p (rest.flatten ++ t)
    have length := blockLength_stands stands here
    have long := four_le_length here
    have fits := stands.fits
    obtain ⟨fuel, rfl⟩ : ∃ n, fuel = n + 1 := ⟨fuel - 1, by simp only [List.length_cons] at enough; omega⟩
    have next := ih (fun q member => wellFormed q (List.mem_cons_of_mem _ member)) (front ++ p) fuel
      (collect buf [(front.length, p)] parsed) (by rw [whole]; simp)
      (by simp only [List.length_cons] at enough; omega)
    rw [List.length_append] at next
    simp only at length fits
    rw [splitFrom, if_pos (by omega), if_neg (by omega), classify_stands stands here, length, next,
      collect_cons, placed]

theorem assemble_split {blocks : List Bytes} {t : Bytes} (wellFormed : ∀ p ∈ blocks, WellFormed p)
    (cut : Truncated t) : splitCompoundRtcp (assembleCompound blocks ++ t) =
      collect (assembleCompound blocks ++ t) (placed 0 blocks) ⟨[], [], [], [], []⟩ := by
  have few : blocks.length ≤ (assembleCompound blocks).length := by
    rw [assembleCompound, List.length_flatten]
    simpa using List.length_le_sum_of_one_le (blocks.map List.length) (by
      intro size member
      obtain ⟨p, inside, rfl⟩ := List.mem_map.mp member
      exact (wellFormed p inside).positive)
  exact splitFrom_placed cut blocks wellFormed [] _ _ rfl (by rw [List.length_append]; omega)

theorem placed_stands {blocks : List Bytes} : ∀ {front back : Bytes} {x : Nat × Bytes},
    x ∈ placed front.length blocks → Stands (front ++ blocks.flatten ++ back) x ∧
      x.1 + x.2.length ≤ front.length + blocks.flatten.length ∧ x.2 ∈ blocks := by
  induction blocks with
  | nil => exact fun member => absurd member (List.not_mem_nil)
  | cons p rest ih =>
    intro front back x member
    rw [List.flatten_cons, List.length_append]
    rcases List.mem_cons.mp member with rfl | later
    · exact ⟨by simpa only [List.append_assoc] using stands_middle front p (rest.flatten ++ back),
        by simp only; omega, List.mem_cons_self ..⟩
    · have shifted := @ih (front ++ p) back x (by rw [List.length_append]; exact later)
      rw [List.length_append] at shifted
      exact ⟨by simpa only [List.append_assoc] using shifted.1, by omega,
        List.mem_cons_of_mem _ shifted.2.2⟩

theorem empty_truncated : Truncated [] :=
  ⟨buildPli 0, buildPli_wellFormed 0, List.nil_prefix, fun empty => nomatch empty⟩

theorem u32At_stands {buf : Bytes} {x : Nat × Bytes} (stands : Stands buf x)
    (long : 12 ≤ x.2.length) : u32At buf (x.1 + 8) = u32At x.2 8 := by
  rw [u32At, u32At, Nat.add_assoc, Nat.add_assoc, Nat.add_assoc, stands.byteAt (by omega),
    stands.byteAt (by omega), stands.byteAt (by omega), stands.byteAt (by omega)]

theorem refIn_delimits {buf : Bytes} {x : Nat × Bytes} (stands : Stands buf x) :
    Delimits buf (refIn buf x) x := by
  refine ⟨rfl, rfl, stands.bytes, fun long => ?_⟩
  have := stands.fits
  rw [refIn, if_pos (by omega), u32At_stands stands long]

theorem messages (blocks : List (Nat × Bytes)) :
    (blocks.filterMap fun x => parseMbcpApp x.2).map some =
      (ofPurpose .mbcp blocks).map (fun x => parseMbcpApp x.2) := by
  induction blocks with
  | nil => rfl
  | cons x rest ih =>
    rw [ofPurpose] at ih ⊢
    cases message : parseMbcpApp x.2 with
    | none =>
      have other : ¬ purpose x.2 = .mbcp := by
        rw [purpose_mbcp_iff, message]
        exact Bool.false_ne_true
      simp only [List.filterMap_cons, message]
      rw [List.filter_cons_of_neg (by simpa using other), ih]
    | some msg =>
      have floor : purpose x.2 = .mbcp := by rw [purpose_mbcp_iff, message]; rfl
      simp only [List.filterMap_cons, message]
      rw [List.filter_cons_of_pos (by simpa using floor), List.map_cons, List.map_cons, ih, message]

theorem collect_split {blocks : List Bytes} (wellFormed : ∀ p ∈ blocks, WellFormed p) :
    Split blocks (assembleCompound blocks) (splitCompoundRtcp (assembleCompound blocks)) := by
  have whole := assemble_split wellFormed empty_truncated
  rw [List.append_nil] at whole
  have refs : ∀ kind, List.Forall₂ (Delimits (assembleCompound blocks))
      ((ofPurpose kind (placed 0 blocks)).map (refIn (assembleCompound blocks)))
      (ofPurpose kind (placed 0 blocks)) := by
    intro kind
    rw [List.forall₂_map_left_iff, List.forall₂_same]
    intro x member
    have stands := (@placed_stands blocks [] [] x (List.mem_of_mem_filter member)).1
    rw [List.nil_append, List.append_nil] at stands
    exact refIn_delimits stands
  rw [whole]
  exact ⟨rfl, messages _, refs .relay, refs .senderReport, refs .receiverReport⟩

/-- The bytes past a short packet, where its reference would read a source, are all in front of
    the cut or zero. -/
def Undisturbed (blocks : List Bytes) (t : Bytes) : Prop :=
  ∀ x ∈ placed 0 blocks, purpose x.2 ∈ [Purpose.relay, .senderReport, .receiverReport] →
    (assembleCompound blocks).length < x.1 + 12 →
    x.1 + 12 ≤ (assembleCompound blocks).length + t.length →
    u32At (assembleCompound blocks ++ t) (x.1 + 8) = 0

instance (blocks : List Bytes) (t : Bytes) : Decidable (Undisturbed blocks t) :=
  inferInstanceAs (Decidable (∀ x ∈ placed 0 blocks, _ ∈ _ → _ < _ → _ ≤ _ → _ = _))

theorem refIn_append_iff (buf t : Bytes) (x : Nat × Bytes) : refIn (buf ++ t) x = refIn buf x ↔
    (buf.length < x.1 + 12 → x.1 + 12 ≤ buf.length + t.length → u32At (buf ++ t) (x.1 + 8) = 0) := by
  simp only [refIn, RtcpBlockRef.mk.injEq, true_and, List.length_append]
  by_cases inside : x.1 + 12 ≤ buf.length
  · have same : u32At (buf ++ t) (x.1 + 8) = u32At buf (x.1 + 8) := u32At_append_left (by omega)
    rw [if_pos inside, if_pos (by omega)]
    exact ⟨fun _ past => absurd past (by omega), fun _ => same⟩
  · rw [if_neg inside]
    by_cases reaches : x.1 + 12 ≤ buf.length + t.length
    · rw [if_pos reaches]
      exact ⟨fun zero _ _ => zero, fun zero => zero (by omega) reaches⟩
    · rw [if_neg reaches]
      exact ⟨fun _ _ within => absurd within reaches, fun _ => rfl⟩

theorem split_append_iff {blocks : List Bytes} {t : Bytes} (wellFormed : ∀ p ∈ blocks, WellFormed p)
    (cut : Truncated t) : splitCompoundRtcp (assembleCompound blocks ++ t) =
      splitCompoundRtcp (assembleCompound blocks) ↔ Undisturbed blocks t := by
  have whole := assemble_split wellFormed empty_truncated
  rw [List.append_nil] at whole
  rw [assemble_split wellFormed cut, whole]
  simp only [collect, CompoundRtcpParsed.mk.injEq, true_and, List.nil_append, List.map_inj_left,
    ofPurpose, List.mem_filter, decide_eq_true_eq, refIn_append_iff]
  constructor
  · rintro ⟨relays, senders, receivers⟩ x member kind
    rcases List.mem_cons.mp kind with relay | report
    · exact relays x ⟨member, relay⟩
    rcases List.mem_cons.mp report with sender | receiver
    · exact senders x ⟨member, sender⟩
    · exact receivers x ⟨member, List.mem_singleton.mp receiver⟩
  · intro undisturbed
    exact ⟨fun x ⟨member, kind⟩ => undisturbed x member (by simp [kind]),
      fun x ⟨member, kind⟩ => undisturbed x member (by simp [kind]),
      fun x ⟨member, kind⟩ => undisturbed x member (by simp [kind])⟩

/-- What the server builds is well formed, and of the class it is built for. -/
structure BuildersFit : Prop where
  pli : ∀ mediaSsrc, WellFormed (buildPli mediaSsrc) ∧ purpose (buildPli mediaSsrc) = .relay
  remb : ∀ bitrateBps mediaSsrc, WellFormed (buildRemb bitrateBps mediaSsrc) ∧
    purpose (buildRemb bitrateBps mediaSsrc) = .relay
  report : ∀ senderSsrc blocks, WellFormed (buildReceiverReport senderSsrc blocks) ∧
    purpose (buildReceiverReport senderSsrc blocks) = .receiverReport
  floor : ∀ subtype ssrc data,
    (WellFormed (buildMbcpApp subtype ssrc data) ↔ mbcpTextLength data ≤ 262132) ∧
      purpose (buildMbcpApp subtype ssrc data) = .mbcp
  feedback : ∀ r mediaSsrc buf, (buildTwccFeedback r mediaSsrc).2 = some buf →
    WellFormed buf ∧ purpose buf = .ignored

/-- Behind two header bytes only the name and the length of a packet matter. -/
theorem purpose_header (a b : UInt8) (rest : Bytes) (floor : b ≠ rtcpPtApp) :
    purpose ([a, b] ++ rest) = purpose [a, b] := by
  simp only [purpose, byteAt, List.cons_append, List.getD_cons_zero, List.getD_cons_succ, if_neg floor]

theorem report_purpose (senderSsrc : UInt32) (blocks : List RrReportBlock) :
    purpose (buildReceiverReport senderSsrc blocks) = .receiverReport := by
  simp only [buildReceiverReport, List.append_assoc]
  rw [purpose_header _ _ _ (by decide), purpose]
  refine (if_neg fun nack => ?_).trans ((if_neg ?_).trans ((if_neg ?_).trans (if_pos rfl)))
  · exact absurd nack.1 (by simp only [byteAt, List.getD_cons_succ, List.getD_cons_zero]; decide)
  all_goals
    simp only [byteAt, List.getD_cons_succ, List.getD_cons_zero]
    decide

theorem mbcp_purpose (subtype : UInt8) (ssrc : UInt32) (data : Option String) :
    purpose (buildMbcpApp subtype ssrc data) = .mbcp := by
  rw [purpose_mbcp_iff, parseMbcpApp_isSome_iff]
  simp only [buildMbcpApp, bytes16, bytes32, mbcpName]
  refine ⟨rfl, ?_, rfl⟩
  simp only [List.length_append, List.length_cons, List.length_nil]
  omega

/-- Transport feedback has the type of a Generic NACK and another format. -/
theorem feedback_purpose {r : Recorder} {mediaSsrc : UInt32} {buf : Bytes}
    (built : (buildTwccFeedback r mediaSsrc).2 = some buf) : purpose buf = .ignored := by
  obtain ⟨baseTime, firstArrival, facts⟩ := built_of_some built
  rw [facts.bytes, packetOf, assemble_eq, packetHeader]
  simp only [List.append_assoc]
  rw [purpose_header _ _ _ (by decide)]
  split <;> decide

theorem builders_fit : BuildersFit where
  pli mediaSsrc := by
    refine ⟨buildPli_wellFormed mediaSsrc, ?_⟩
    simp only [buildPli, List.append_assoc]
    rw [purpose_header _ _ _ (by decide)]
    decide
  remb bitrateBps mediaSsrc := by
    refine ⟨buildRemb_wellFormed bitrateBps mediaSsrc, ?_⟩
    simp only [buildRemb, List.append_assoc]
    rw [purpose_header _ _ _ (by decide)]
    decide
  report senderSsrc blocks :=
    ⟨buildReceiverReport_wellFormed senderSsrc blocks, report_purpose senderSsrc blocks⟩
  floor subtype ssrc data :=
    ⟨buildMbcpApp_wellFormed_iff subtype ssrc data, mbcp_purpose subtype ssrc data⟩
  feedback _ _ _ built := ⟨buildTwccFeedback_wellFormed built, feedback_purpose built⟩

/-- A reference of a packet of eight bytes names what follows it. -/
theorem compound_round_trip_iff {blocks : List Bytes} {t : Bytes}
    (wellFormed : ∀ p ∈ blocks, WellFormed p) (cut : Truncated t) :
    BuildersFit ∧ (Split blocks (assembleCompound blocks) (splitCompoundRtcp (assembleCompound blocks)) ∧
      splitCompoundRtcp (assembleCompound blocks ++ t) = splitCompoundRtcp (assembleCompound blocks) ↔
        Undisturbed blocks t) :=
  ⟨builders_fit, fun ⟨_, unchanged⟩ => (split_append_iff wellFormed cut).mp unchanged,
    fun undisturbed => ⟨collect_split wellFormed, (split_append_iff wellFormed cut).mpr undisturbed⟩⟩

theorem pli_behind_report : splitCompoundRtcp
    (assembleCompound [buildReceiverReport 1 [], buildMbcpApp 4 9 none] ++ (buildPli 7).take 8) =
      splitCompoundRtcp (assembleCompound [buildReceiverReport 1 [], buildMbcpApp 4 9 none]) :=
  ((compound_round_trip_iff (by
      intro p member
      rcases List.mem_cons.mp member with rfl | last
      · exact buildReceiverReport_wellFormed ..
      · obtain rfl := List.mem_singleton.mp last
        exact (buildMbcpApp_wellFormed_iff ..).mpr (by decide))
    ⟨buildPli 7, buildPli_wellFormed 7, List.take_prefix .., by decide⟩).2.mpr (by decide)).2

theorem empty_report_counterexample : ¬ ∀ (blocks : List Bytes) (t : Bytes),
    (∀ p ∈ blocks, WellFormed p) → Truncated t →
      Split blocks (assembleCompound blocks) (splitCompoundRtcp (assembleCompound blocks)) ∧
        splitCompoundRtcp (assembleCompound blocks ++ t) =
          splitCompoundRtcp (assembleCompound blocks) := by
  intro all
  have wellFormed : ∀ p ∈ [buildReceiverReport 1 []], WellFormed p := by
    intro p member
    obtain rfl := List.mem_singleton.mp member
    exact buildReceiverReport_wellFormed ..
  have cut : Truncated ((buildPli 7).take 8) :=
    ⟨buildPli 7, buildPli_wellFormed 7, List.take_prefix .., by decide⟩
  have unchanged := (all [buildReceiverReport 1 []] ((buildPli 7).take 8) wellFormed cut).2
  have undisturbed := (split_append_iff wellFormed cut).mp unchanged
  have read := undisturbed (0, buildReceiverReport 1 []) (List.mem_singleton.mpr rfl) (by decide)
    (by decide) (by decide)
  revert read
  decide

end RtcpRoundTrip
