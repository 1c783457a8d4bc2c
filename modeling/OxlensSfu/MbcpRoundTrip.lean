import Mathlib.Data.List.TakeWhile
import OxlensSfu.RtcpRoundTrip
import OxlensSfu.Utf8Text

/- A floor message with a user id survives its packet. -/
namespace MbcpRoundTrip
open WireBytes SfuConfig FloorHandlers RtcpBuilders RtcpRoundTrip RoomHandlers Utf8Text
open StunMessages (validUtf8)
open RtcpCompound hiding slice

/-- A user id that IDENTIFY accepts or generates. -/
def Identified (id : String) : Prop := ∃ requested draw, chosenUserId requested draw = id

def textBytes (data : Option String) : Option Bytes := data.map fun s => s.toUTF8.toList

/-- The message comes back, alone and between any other packets of a compound. -/
structure RoundTrips (subtype : UInt8) (ssrc : UInt32) (data : Option String) : Prop where
  message : parseMbcpApp (buildMbcpApp subtype ssrc data) = some ⟨subtype, ssrc, textBytes data⟩
  words : (buildMbcpApp subtype ssrc data).length % 4 = 0
  lengthField : (u16At (buildMbcpApp subtype ssrc data) 2).toNat =
    (buildMbcpApp subtype ssrc data).length / 4 - 1
  delimited : ∀ before after, (∀ p ∈ before, WellFormed p) → (∀ p ∈ after, WellFormed p) →
    (splitCompoundRtcp (assembleCompound (before ++ buildMbcpApp subtype ssrc data :: after))).mbcpBlocks =
      before.filterMap parseMbcpApp ++ ⟨subtype, ssrc, textBytes data⟩ :: after.filterMap parseMbcpApp

theorem generatedUserId_ne_empty (draw : UInt16) : generatedUserId draw ≠ "" := by
  intro empty
  have size := congrArg String.length empty
  simp [generatedUserId] at size

theorem identified_ne_empty {id : String} (identified : Identified id) : id ≠ "" := by
  obtain ⟨requested, draw, rfl⟩ := identified
  unfold chosenUserId
  split
  · split
    · exact generatedUserId_ne_empty draw
    · rename_i visible
      rintro rfl
      simp at visible
  · exact generatedUserId_ne_empty draw

/-- The text and its padding. -/
def mbcpBody (data : Option String) : Bytes :=
  (textBytes data).getD [] ++
    List.replicate ((mbcpTextLength data + 3) / 4 * 4 - mbcpTextLength data) 0

theorem buildMbcpApp_eq (subtype : UInt8) (ssrc : UInt32) (data : Option String) :
    buildMbcpApp subtype ssrc data =
      [0x80 ||| (subtype &&& 0x1F), rtcpPtApp] ++
        bytes16 (UInt16.ofNat ((12 + (mbcpTextLength data + 3) / 4 * 4) / 4 - 1)) ++
        bytes32 ssrc ++ mbcpName ++ mbcpBody data := by
  cases data <;> simp [buildMbcpApp, mbcpBody, textBytes, mbcpTextLength]

theorem buildMbcpApp_length (subtype : UInt8) (ssrc : UInt32) (data : Option String) :
    (buildMbcpApp subtype ssrc data).length = 12 + (mbcpBody data).length := by
  rw [buildMbcpApp_eq]
  simp [mbcpName]
  omega

theorem subtype_read {subtype : UInt8} (low : subtype < 32) :
    (0x80 ||| (subtype &&& 0x1F)) &&& 0x1F = subtype := by
  have kept : subtype &&& 0x1F = subtype := by
    apply UInt8.toNat_inj.mp
    rw [UInt8.toNat_and]
    exact (Nat.and_two_pow_sub_one_eq_mod _ 5).trans (Nat.mod_eq_of_lt low)
  rw [or_masked, kept, kept]
  exact UInt8.zero_or

/-- Header and name are read back whatever the text. -/
theorem parse_build {subtype : UInt8} (low : subtype < 32) (ssrc : UInt32) (data : Option String) :
    parseMbcpApp (buildMbcpApp subtype ssrc data) =
      some ⟨subtype, ssrc, if mbcpBody data = [] then none else mbcpText (mbcpBody data)⟩ := by
  rw [buildMbcpApp_eq]
  cases mbcpBody data with
  | nil => simp [parseMbcpApp, byteAt, u32At, bytes16, bytes32, mbcpName, mbcpAppName, subtype_read low]
  | cons b rest =>
    simp [parseMbcpApp, byteAt, u32At, bytes16, bytes32, mbcpName, mbcpAppName, subtype_read low]

/-- Padding is cut off; so would be anything behind a zero in the text. -/
theorem mbcpText_padded {text : Bytes} (filled : text ≠ []) (valid : validUtf8 text = true)
    (visible : 0 ∉ text) (k : Nat) : mbcpText (text ++ List.replicate k 0) = some text := by
  have kept : ∀ b ∈ text, decide (b ≠ 0) = true := by
    intro b member
    exact decide_eq_true fun zero => visible (zero ▸ member)
  have padding : (List.replicate k (0 : UInt8)).takeWhile (fun b => decide (b ≠ 0)) = [] := by
    cases k <;> simp [List.replicate_succ]
  simp only [mbcpText, List.takeWhile_append_of_pos kept, padding, List.append_nil, if_neg filled, valid,
    if_true]

theorem mbcpText_visible {raw text : Bytes} (read : mbcpText raw = some text) : 0 ∉ text := by
  unfold mbcpText at read
  simp only at read
  split at read
  · simp at read
  split at read
  · rw [← Option.some.inj read]
    intro zero
    simpa using List.mem_takeWhile_imp zero
  · simp at read

theorem body_filled {id : String} (filled : id ≠ "") : mbcpBody (some id) ≠ [] :=
  List.append_ne_nil_of_left_ne_nil (toUTF8_ne_nil filled) _

/-- The message is read back exactly when the text holds no zero byte. -/
theorem message_iff {subtype : UInt8} (low : subtype < 32) (ssrc : UInt32) {data : Option String}
    (filled : ∀ id ∈ data, id ≠ "") :
    parseMbcpApp (buildMbcpApp subtype ssrc data) = some ⟨subtype, ssrc, textBytes data⟩ ↔
      ∀ id ∈ data, Char.ofNat 0 ∉ id.toList := by
  rw [parse_build low]
  cases data with
  | none => simp [mbcpBody, textBytes, mbcpTextLength]
  | some id =>
    have here := filled id rfl
    rw [if_neg (body_filled here)]
    simp only [Option.some.injEq, RtcpCompound.MbcpMessage.mk.injEq, true_and, Option.mem_def, forall_eq',
      ← zero_mem_toUTF8]
    constructor
    · exact mbcpText_visible
    · intro visible
      exact mbcpText_padded (toUTF8_ne_nil here) (toUTF8_valid id) visible _

theorem placed_messages (blocks : List Bytes) (start : Nat) :
    (placed start blocks).filterMap (fun x => parseMbcpApp x.2) = blocks.filterMap parseMbcpApp := by
  induction blocks generalizing start with
  | nil => rfl
  | cons p rest ih => simp only [placed, List.filterMap_cons, ih]

/-- The messages of a compound are those of its packets. -/
theorem compound_messages {blocks : List Bytes} (wellFormed : ∀ p ∈ blocks, WellFormed p) :
    (splitCompoundRtcp (assembleCompound blocks)).mbcpBlocks = blocks.filterMap parseMbcpApp := by
  have whole := assemble_split wellFormed empty_truncated
  rw [List.append_nil] at whole
  rw [whole]
  exact placed_messages blocks 0

/-- A floor message with an identified user, or none, round-trips exactly when the id has
    no NUL and fits the length field. -/
theorem mbcp_round_trip_iff (subtype : UInt8) (low : subtype < 32) (ssrc : UInt32)
    (data : Option String) (identified : ∀ id ∈ data, Identified id) :
    RoundTrips subtype ssrc data ↔
      ∀ id ∈ data, Char.ofNat 0 ∉ id.toList ∧ id.utf8ByteSize ≤ 262132 := by
  have filled : ∀ id ∈ data, id ≠ "" := fun id member => identified_ne_empty (identified id member)
  have size : mbcpTextLength data ≤ 262132 ↔ ∀ id ∈ data, id.utf8ByteSize ≤ 262132 := by
    cases data with
    | none => simp [mbcpTextLength]
    | some id => rw [mbcpTextLength, toUTF8_length]; simp
  have counted := buildMbcpApp_wellFormed_iff subtype ssrc data
  constructor
  · intro returns
    have positive : 0 < (buildMbcpApp subtype ssrc data).length := by
      rw [buildMbcpApp_length]
      omega
    have short := size.mp (counted.mp ⟨positive, returns.words, returns.lengthField⟩)
    have visible := (message_iff low ssrc filled).mp returns.message
    exact fun id member => ⟨visible id member, short id member⟩
  · intro both
    have wellFormed := counted.mpr (size.mpr fun id member => (both id member).2)
    have message := (message_iff low ssrc filled).mpr fun id member => (both id member).1
    refine ⟨message, wellFormed.words, wellFormed.lengthField, fun before after front back => ?_⟩
    have all : ∀ p ∈ before ++ buildMbcpApp subtype ssrc data :: after, WellFormed p := by
      simp only [List.forall_mem_append, List.forall_mem_cons]
      exact ⟨front, wellFormed, back⟩
    rw [compound_messages all, List.filterMap_append, List.filterMap_cons, message]

theorem alice_returns : RoundTrips 2 7 (some "alice") := by
  refine (mbcp_round_trip_iff 2 (by decide) 7 (some "alice") ?_).mpr ?_
  · rintro id ⟨⟩
    exact ⟨some "alice", 0, by decide +kernel⟩
  · rintro id ⟨⟩
    exact ⟨by decide, by decide⟩

/-- IDENTIFY lets a NUL through, the message ends there. -/
theorem nul_id_cut : ¬ ∀ (subtype : UInt8), subtype < 32 → ∀ (ssrc : UInt32) (data : Option String),
    (∀ id ∈ data, Identified id) → RoundTrips subtype ssrc data := by
  intro holds
  let id := String.ofList ['a', Char.ofNat 0, 'b']
  have accepted : Identified id := ⟨some id, 0, by decide +kernel⟩
  have returns := holds 2 (by decide) 7 (some id) (by rintro other ⟨⟩; exact accepted)
  have visible := (message_iff (by decide) 7 (by rintro other ⟨⟩; decide)).mp returns.message id rfl
  exact visible (by decide)

end MbcpRoundTrip
