import OxlensSfu.FloorHandlers
import OxlensSfu.ReceiverStats
import OxlensSfu.TwccRecorder

/- The RTCP packets that the server builds, each of whole words that its length field counts. -/
namespace RtcpBuilders
open WireBytes SfuConfig FloorHandlers ReceiverStats TwccRecorder

def buildPli (mediaSsrc : UInt32) : Bytes :=
  [0x81, 206] ++ bytes16 2 ++ bytes32 0 ++ bytes32 mediaSsrc

/-- The loop shifts the bitrate down to 18 bits; 64 rounds are enough for any of them. -/
def encodeRembFrom : Nat → UInt8 → UInt64 → UInt8 × UInt32
  | 0, exp, mantissa => (exp, mantissa.toUInt32)
  | fuel + 1, exp, mantissa =>
    if 0x3FFFF < mantissa then encodeRembFrom fuel (exp + 1) (mantissa >>> 1)
    else (exp, mantissa.toUInt32)

def encodeRembBitrate (bps : UInt64) : UInt8 × UInt32 := encodeRembFrom 64 0 bps

def buildRemb (bitrateBps : UInt64) (mediaSsrc : UInt32) : Bytes :=
  let (exp, mantissa) := encodeRembBitrate bitrateBps
  ([0x8F, 206] : Bytes) ++ bytes16 5 ++ bytes32 0 ++ bytes32 0 ++ ([0x52, 0x45, 0x4D, 0x42] : Bytes) ++
    ([1, exp <<< 2 ||| (mantissa >>> 16).toUInt8 &&& 0x03, (mantissa >>> 8).toUInt8,
      mantissa.toUInt8] : Bytes) ++
    bytes32 mediaSsrc

/-- A report block of 24 bytes. -/
def reportBlock (block : RrReportBlock) : Bytes :=
  let cum := block.cumulativeLost &&& 0x00FFFFFF
  bytes32 block.ssrc ++
    [block.fractionLost, (cum >>> 16 &&& 0xFF).toUInt8, (cum >>> 8 &&& 0xFF).toUInt8,
      (cum &&& 0xFF).toUInt8] ++
    bytes32 block.extendedHighestSeq ++ bytes32 block.jitter ++ bytes32 block.lastSr ++
    bytes32 block.delaySinceLastSr

/-- Blocks past the thirty-first do not fit the count of the header. -/
def buildReceiverReport (senderSsrc : UInt32) (blocks : List RrReportBlock) : Bytes :=
  let rc := min blocks.length 31
  let totalLen := 8 + 24 * rc
  [0x80 ||| UInt8.ofNat rc, rtcpPtRr] ++ bytes16 (UInt16.ofNat (totalLen / 4 - 1)) ++
    bytes32 senderSsrc ++ (blocks.take rc).flatMap reportBlock

/-- Whole words, counted by the length field. -/
structure WellFormed (p : Bytes) : Prop where
  positive : 0 < p.length
  words : p.length % 4 = 0
  lengthField : (u16At p 2).toNat = p.length / 4 - 1

instance (p : Bytes) : Decidable (WellFormed p) :=
  decidable_of_iff (0 < p.length ∧ p.length % 4 = 0 ∧ (u16At p 2).toNat = p.length / 4 - 1)
    ⟨fun ⟨positive, words, lengthField⟩ => ⟨positive, words, lengthField⟩,
      fun wellFormed => ⟨wellFormed.positive, wellFormed.words, wellFormed.lengthField⟩⟩

/-- A packet with its length field behind the first two bytes. -/
theorem u16At_header (a b : UInt8) (words : UInt16) (rest : Bytes) :
    u16At ([a, b] ++ bytes16 words ++ rest) 2 = words := by
  simp [u16At, byteAt, bytes16]

theorem buildPli_wellFormed (mediaSsrc : UInt32) : WellFormed (buildPli mediaSsrc) := by
  have length : (buildPli mediaSsrc).length = 12 := rfl
  have field : u16At (buildPli mediaSsrc) 2 = 2 := by
    rw [buildPli, List.append_assoc]
    exact u16At_header ..
  exact ⟨by omega, by omega, by rw [field, length]; rfl⟩

theorem buildRemb_wellFormed (bitrateBps : UInt64) (mediaSsrc : UInt32) :
    WellFormed (buildRemb bitrateBps mediaSsrc) := by
  have length : (buildRemb bitrateBps mediaSsrc).length = 24 := rfl
  have field : u16At (buildRemb bitrateBps mediaSsrc) 2 = 5 := by
    simp only [buildRemb, List.append_assoc]
    rw [← List.append_assoc]
    exact u16At_header ..
  exact ⟨by omega, by omega, by rw [field, length]; rfl⟩

theorem reports_length (blocks : List RrReportBlock) :
    (blocks.flatMap reportBlock).length = 24 * blocks.length := by
  induction blocks with
  | nil => rfl
  | cons block blocks ih =>
    have one : (reportBlock block).length = 24 := rfl
    rw [List.flatMap_cons, List.length_append, ih, one, List.length_cons]
    omega

theorem buildReceiverReport_wellFormed (senderSsrc : UInt32) (blocks : List RrReportBlock) :
    WellFormed (buildReceiverReport senderSsrc blocks) := by
  have length : (buildReceiverReport senderSsrc blocks).length = 8 + 24 * min blocks.length 31 := by
    simp only [buildReceiverReport, List.length_append, reports_length, List.length_take, length_bytes16,
      length_bytes32, List.length_cons, List.length_nil]
    omega
  have field : u16At (buildReceiverReport senderSsrc blocks) 2 =
      UInt16.ofNat ((8 + 24 * min blocks.length 31) / 4 - 1) := by
    rw [buildReceiverReport, List.append_assoc]
    exact u16At_header ..
  refine ⟨by omega, by omega, ?_⟩
  rw [field, length, UInt16.toNat_ofNat']
  omega

def mbcpTextLength (data : Option String) : Nat :=
  match data with
  | some s => s.toUTF8.toList.length
  | none => 0

/-- The length field of 16 bits counts a text of up to 262132 bytes. -/
theorem buildMbcpApp_wellFormed_iff (subtype : UInt8) (ssrc : UInt32) (data : Option String) :
    WellFormed (buildMbcpApp subtype ssrc data) ↔ mbcpTextLength data ≤ 262132 := by
  have length : (buildMbcpApp subtype ssrc data).length = 12 + (mbcpTextLength data + 3) / 4 * 4 := by
    simp only [buildMbcpApp, mbcpName, List.length_append, length_bytes16, length_bytes32,
      List.length_cons, List.length_nil, List.length_replicate]
    cases data with
    | none => rfl
    | some s =>
      simp only [mbcpTextLength]
      omega
  have field : u16At (buildMbcpApp subtype ssrc data) 2 =
      UInt16.ofNat ((12 + (mbcpTextLength data + 3) / 4 * 4) / 4 - 1) := by
    unfold buildMbcpApp
    simp only [List.append_assoc]
    rw [← List.append_assoc]
    cases data <;> exact u16At_header ..
  have value : (u16At (buildMbcpApp subtype ssrc data) 2).toNat =
      ((12 + (mbcpTextLength data + 3) / 4 * 4) / 4 - 1) % 65536 := by
    rw [field, UInt16.toNat_ofNat']
  constructor
  · intro wellFormed
    have counts := wellFormed.lengthField
    omega
  · intro short
    exact ⟨by omega, by omega, by omega⟩

theorem buildTwccFeedback_wellFormed {r : Recorder} {mediaSsrc : UInt32} {buf : Bytes}
    (built : (buildTwccFeedback r mediaSsrc).2 = some buf) : WellFormed buf := by
  obtain ⟨baseTime, firstArrival, facts⟩ := built_of_some built
  have few : (deltasOf baseTime none (held r)).length ≤ 8192 := by
    rw [deltasOf_length, held_length]
    exact facts.few
  obtain ⟨words, lengthField⟩ := packetOf_frame r mediaSsrc (referenceTime24 baseTime firstArrival) _ few
  rw [facts.bytes]
  refine ⟨?_, words, lengthField⟩
  rw [packetOf, assemble_eq, List.length_append, packetHeader_length]
  omega

end RtcpBuilders
