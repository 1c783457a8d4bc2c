import OxlensSfu.KeyedMap
import OxlensSfu.ReceiverReports
import OxlensSfu.RtcpBuilders
import OxlensSfu.RtpPacket
import OxlensSfu.StunMessage

/-
The sources of a publisher and the receiver reports of the timer. Every source takes the
snapshot of its counters when its block is built; only the first 31 blocks go into the report.
-/
namespace ReportTicks
open WireBytes SfuConfig KeyedMap GuardedRun RtpPacket ReceiverStats RtcpBuilders Participants
open PttRewriter (Instant)

/-- The counters of a publisher's sources, each under its own SSRC. -/
structure Sources where
  table : Table UInt32 RecvStats
  keyed : ∀ ssrc s, table.lookup ssrc = some s → s.ssrc = ssrc

namespace Sources

def empty : Sources := ⟨∅, fun _ _ found => by simp at found⟩

def insert (m : Sources) (ssrc : UInt32) (s : RecvStats) (own : s.ssrc = ssrc) : Sources where
  table := m.table.insert ssrc s
  keyed := by
    intro j v found
    rw [lookup_insert] at found
    split at found
    · rename_i here
      rw [here, ← own, Option.some.inj found]
    · exact m.keyed j v found

def modify (m : Sources) (ssrc : UInt32) (f : RecvStats → RecvStats)
    (keeps : ∀ s, (f s).ssrc = s.ssrc) : Sources where
  table := KeyedMap.modify m.table ssrc f
  keyed := by
    intro j v found
    rw [lookup_modify] at found
    split at found
    · obtain ⟨s, held, rfl⟩ := Option.map_eq_some_iff.mp found
      rw [keeps, m.keyed j s held]
    · exact m.keyed j v found

def mapValues (m : Sources) (f : RecvStats → RecvStats) (keeps : ∀ s, (f s).ssrc = s.ssrc) : Sources where
  table := KeyedMap.mapValues m.table f
  keyed := by
    intro j v found
    rw [lookup_mapValues] at found
    obtain ⟨s, held, rfl⟩ := Option.map_eq_some_iff.mp found
    rw [keeps, m.keyed j s held]

/-- Retransmissions are not counted. -/
def collectRtpStats (m : Sources) (hdr : RtpHeader) (arrivalMs : UInt64) : Sources :=
  if isRtxPt hdr.pt then m
  else
    let clockRate := if isAudioPt hdr.pt then clockRateAudio else clockRateVideo
    match m.table.lookup hdr.ssrc with
    | some _ => m.modify hdr.ssrc (fun s => s.update hdr.seq hdr.timestamp arrivalMs)
        fun s => s.ssrc_update ..
    | none => m.insert hdr.ssrc ((RecvStats.new hdr.ssrc clockRate).update hdr.seq hdr.timestamp arrivalMs)
        (RecvStats.ssrc_update ..)

end Sources

/-- The SSRC of a sender report and the two words of its NTP time. -/
def parseSrNtp (srBlock : Bytes) : Option (UInt32 × UInt32 × UInt32) :=
  if srBlock.length < 28 then none
  else if byteAt srBlock 1 ≠ rtcpPtSr then none
  else some (u32At srBlock 4, u32At srBlock 8, u32At srBlock 12)

namespace Sources

def consumeSr (m : Sources) (srBlock : Bytes) (now : Instant) : Sources :=
  match parseSrNtp srBlock with
  | some (ssrc, ntpHi, ntpLo) => m.modify ssrc (fun s => s.onSrReceived ntpHi ntpLo now) fun _ => rfl
  | none => m

/-- The map visits this source first from now on. Repeated, this reaches every order. -/
def visitFirst (m : Sources) (ssrc : UInt32) : Sources :=
  match found : m.table.lookup ssrc with
  | some s => m.insert ssrc s (m.keyed ssrc s found)
  | none => m

end Sources

def serverSsrc : UInt32 := 0x00000001

/-- The turn of one publisher: its sources afterwards, and the report built. -/
def sendRtcpReports (m : Sources) (publishReady : Bool) (address : Option SocketAddr) (now : Instant) :
    Sources × Option Bytes :=
  if !publishReady || address.isNone then (m, none)
  else
    let rrBlocks := (values m.table).map fun s => (s.buildRrBlock now).2
    let next := m.mapValues (fun s => (s.buildRrBlock now).1) fun _ => rfl
    if rrBlocks.isEmpty then (next, none)
    else (next, some (buildReceiverReport serverSsrc rrBlocks))

/-- One report block of 24 bytes. -/
def parseReportBlock (p : Bytes) : RrReportBlock where
  ssrc := u32At p 0
  fractionLost := byteAt p 4
  cumulativeLost := be32 0 (byteAt p 5) (byteAt p 6) (byteAt p 7)
  extendedHighestSeq := u32At p 8
  jitter := u32At p 12
  lastSr := u32At p 16
  delaySinceLastSr := u32At p 20

def parseReportBlocks : Nat → Bytes → List RrReportBlock
  | 0, _ => []
  | n + 1, p => parseReportBlock p :: parseReportBlocks n (p.drop 24)

/-- What a publisher reads in a receiver report: the header's count says how many blocks
    there are, the length field how many words, and the two agree. -/
def parseReceiverReport (p : Bytes) : Option (UInt32 × List RrReportBlock) :=
  let rc := (byteAt p 0 &&& 0x1F).toNat
  if byteAt p 0 &&& 0xE0 = 0x80 ∧ byteAt p 1 = rtcpPtRr ∧ p.length = ((u16At p 2).toNat + 1) * 4 ∧
      p.length = 8 + 24 * rc then
    some (u32At p 4, parseReportBlocks rc (p.drop 8))
  else none

theorem three_bytes {n : UInt32} (short : n ≤ 0xFFFFFF) :
    be32 0 (n >>> 16 &&& 0xFF).toUInt8 (n >>> 8 &&& 0xFF).toUInt8 (n &&& 0xFF).toUInt8 = n := by
  apply UInt32.toNat_inj.mp
  have bound : n.toNat ≤ 16777215 := UInt32.le_iff_toNat_le.mp short
  have low : ∀ k : Nat, k &&& 255 = k % 256 := fun k => Nat.and_two_pow_sub_one_eq_mod k 8
  simp only [be32, UInt32.toNat_ofNat', UInt32.toNat_toUInt8, UInt32.toNat_and, UInt32.toNat_shiftRight,
    UInt32.reduceToNat, low, Nat.shiftRight_eq_div_pow]
  simp
  omega

theorem three_bytes_masked {n : UInt32} (short : n ≤ 0xFFFFFF) : n &&& 0x00FFFFFF = n := by
  apply UInt32.toNat_inj.mp
  have bound : n.toNat ≤ 16777215 := UInt32.le_iff_toNat_le.mp short
  rw [UInt32.toNat_and]
  exact (Nat.and_two_pow_sub_one_eq_mod n.toNat 24).trans (Nat.mod_eq_of_lt (by omega))

theorem parseReportBlock_reportBlock {block : RrReportBlock} (short : block.cumulativeLost ≤ 0xFFFFFF)
    (rest : Bytes) : parseReportBlock (reportBlock block ++ rest) = block := by
  have lost := three_bytes short
  obtain ⟨ssrc, fractionLost, cumulativeLost, extendedHighestSeq, jitter, lastSr, delaySinceLastSr⟩ := block
  simp only [parseReportBlock, reportBlock, three_bytes_masked short] at lost ⊢
  simpa [u32At, byteAt, bytes32] using lost

theorem parseReportBlocks_reports {blocks : List RrReportBlock}
    (short : ∀ block ∈ blocks, block.cumulativeLost ≤ 0xFFFFFF) :
    parseReportBlocks blocks.length (blocks.flatMap reportBlock) = blocks := by
  induction blocks with
  | nil => rfl
  | cons block blocks ih =>
    have first := parseReportBlock_reportBlock (short block List.mem_cons_self) (blocks.flatMap reportBlock)
    have rest : ((reportBlock block ++ blocks.flatMap reportBlock).drop 24) = blocks.flatMap reportBlock := rfl
    rw [List.length_cons, List.flatMap_cons, parseReportBlocks, first, rest,
      ih fun b member => short b (List.mem_cons_of_mem _ member)]

theorem count_header {rc : Nat} (few : rc ≤ 31) : (0x80 ||| UInt8.ofNat rc) &&& 0xE0 = 0x80 ∧
    ((0x80 ||| UInt8.ofNat rc) &&& 0x1F).toNat = rc := by
  have all : ∀ n : Fin 32, (0x80 ||| UInt8.ofNat n) &&& 0xE0 = 0x80 ∧
      ((0x80 ||| UInt8.ofNat n) &&& 0x1F).toNat = n := by decide
  exact all ⟨rc, by omega⟩

/-- A receiver report says of its first 31 blocks what they say. -/
theorem parse_buildReceiverReport (senderSsrc : UInt32) {blocks : List RrReportBlock}
    (short : ∀ block ∈ blocks, block.cumulativeLost ≤ 0xFFFFFF) :
    parseReceiverReport (buildReceiverReport senderSsrc blocks) = some (senderSsrc, blocks.take 31) := by
  obtain ⟨version, count⟩ := count_header (Nat.min_le_right blocks.length 31)
  have wellFormed := buildReceiverReport_wellFormed senderSsrc blocks
  have length : (buildReceiverReport senderSsrc blocks).length = 8 + 24 * min blocks.length 31 := by
    simp only [buildReceiverReport, List.length_append, reports_length, List.length_take, length_bytes16,
      length_bytes32, List.length_cons, List.length_nil]
    omega
  have words : (buildReceiverReport senderSsrc blocks).length =
      ((u16At (buildReceiverReport senderSsrc blocks) 2).toNat + 1) * 4 := by
    have field := wellFormed.lengthField
    omega
  have first : byteAt (buildReceiverReport senderSsrc blocks) 0 = 0x80 ||| UInt8.ofNat (min blocks.length 31) := rfl
  have type : byteAt (buildReceiverReport senderSsrc blocks) 1 = rtcpPtRr := rfl
  have sender : u32At (buildReceiverReport senderSsrc blocks) 4 = senderSsrc := be32_bytes32 senderSsrc
  have body : (buildReceiverReport senderSsrc blocks).drop 8 = (blocks.take 31).flatMap reportBlock := by
    change (blocks.take (min blocks.length 31)).flatMap reportBlock = _
    rw [List.take_eq_take_iff.mpr (by omega : min (min blocks.length 31) blocks.length = min 31 blocks.length)]
  have inside : parseReportBlocks (blocks.take 31).length ((blocks.take 31).flatMap reportBlock) =
      blocks.take 31 :=
    parseReportBlocks_reports fun block member => short block (List.mem_of_mem_take member)
  rw [List.length_take, Nat.min_comm] at inside
  rw [parseReceiverReport, first, count, if_pos ⟨version, type, words, length⟩, sender, body, inside]

/-- What the last report counted. -/
def snapshot (s : RecvStats) : UInt32 × UInt32 := (s.expectedPrior, s.receivedPrior)

/-- What a report would count now. -/
def counted (s : RecvStats) : UInt32 × UInt32 := (s.extendedMax - s.baseSeq + 1, s.received)

/-- Every source whose snapshot advances is in the report, and the report parses to one
    block of each source in it, whose snapshot is then what the block counted. -/
structure Accounted (m : Sources) (now : Instant) (next : Sources) (report : Option Bytes) : Prop where
  advanced : ∀ ssrc s s', m.table.lookup ssrc = some s → next.table.lookup ssrc = some s' →
    snapshot s' ≠ snapshot s → ∃ blocks, report.bind parseReceiverReport = some (serverSsrc, blocks) ∧
      (s.buildRrBlock now).2 ∈ blocks
  parsed : ∀ packet, report = some packet → ∃ blocks,
    parseReceiverReport packet = some (serverSsrc, blocks) ∧ (blocks.map fun block => block.ssrc).Nodup ∧
      ∀ block ∈ blocks, ∃ s s', m.table.lookup block.ssrc = some s ∧ (s.buildRrBlock now).2 = block ∧
        next.table.lookup block.ssrc = some s' ∧ snapshot s' = counted s

/-- No source past the thirty-first of a visit has anything new. -/
def NewsFits (m : Sources) : Prop := ∀ s ∈ (values m.table).drop 31, snapshot s = counted s

theorem Sources.lookup_of_mem (m : Sources) {s : RecvStats} (member : s ∈ values m.table) :
    m.table.lookup s.ssrc = some s := by
  obtain ⟨ssrc, held⟩ := mem_values.mp member
  rw [m.keyed ssrc s held, held]

theorem Sources.ssrcs_nodup (m : Sources) : ((values m.table).map fun s => s.ssrc).Nodup := by
  have keys : (values m.table).map (fun s => s.ssrc) = m.table.keys := by
    rw [values, List.map_map]
    refine List.map_congr_left fun e member => ?_
    exact m.keyed e.1 e.2 (AList.mem_lookup_iff.mpr member)
  rw [keys]
  exact m.table.nodupKeys

theorem buildRrBlock_lost (s : RecvStats) (now : Instant) :
    (s.buildRrBlock now).2.cumulativeLost ≤ 0xFFFFFF := by
  change min (lostOf (s.extendedMax - s.baseSeq + 1) s.received) 0x7FFFFF ≤ 0xFFFFFF
  rw [UInt32.le_iff_toNat_le, ReceiverReports.toNat_min]
  exact Nat.le_trans (Nat.min_le_right _ _) (by decide)

section Tick
variable (m : Sources) (now : Instant)

/-- The blocks of all sources, as they are visited. -/
def blocksOf : List RrReportBlock := (values m.table).map fun s => (s.buildRrBlock now).2

def takeSnapshots : Sources := m.mapValues (fun s => (s.buildRrBlock now).1) fun _ => rfl

theorem parse_report : parseReceiverReport (buildReceiverReport serverSsrc (blocksOf m now)) =
    some (serverSsrc, (blocksOf m now).take 31) := by
  refine parse_buildReceiverReport serverSsrc fun block member => ?_
  obtain ⟨s, _, rfl⟩ := List.mem_map.mp member
  exact buildRrBlock_lost s now

theorem takeSnapshots_lookup {ssrc : UInt32} {s : RecvStats} (held : m.table.lookup ssrc = some s) :
    (takeSnapshots m now).table.lookup ssrc = some (s.buildRrBlock now).1 := by
  simp [takeSnapshots, Sources.mapValues, held]

theorem reported_iff {s : RecvStats} (member : s ∈ values m.table) :
    (s.buildRrBlock now).2 ∈ (blocksOf m now).take 31 ↔ s ∈ (values m.table).take 31 := by
  rw [blocksOf, ← List.map_take]
  constructor
  · intro reported
    obtain ⟨other, taken, same⟩ := List.mem_map.mp reported
    have ssrc : other.ssrc = s.ssrc := congrArg RrReportBlock.ssrc same
    have left := m.lookup_of_mem (List.mem_of_mem_take taken)
    rw [ssrc, m.lookup_of_mem member] at left
    rw [Option.some.inj left]
    exact taken
  · exact fun taken => List.mem_map_of_mem taken

theorem built_parsed : ∃ blocks,
    parseReceiverReport (buildReceiverReport serverSsrc (blocksOf m now)) = some (serverSsrc, blocks) ∧
      (blocks.map fun block => block.ssrc).Nodup ∧
      ∀ block ∈ blocks, ∃ s s', m.table.lookup block.ssrc = some s ∧ (s.buildRrBlock now).2 = block ∧
        (takeSnapshots m now).table.lookup block.ssrc = some s' ∧ snapshot s' = counted s := by
  refine ⟨(blocksOf m now).take 31, parse_report m now, ?_, ?_⟩
  · have ssrcs : (blocksOf m now).map (fun block => block.ssrc) = (values m.table).map fun s => s.ssrc := by
      rw [blocksOf, List.map_map]
      rfl
    have whole := m.ssrcs_nodup
    rw [← ssrcs] at whole
    exact whole.sublist ((List.take_sublist 31 _).map _)
  · intro block taken
    obtain ⟨s, member, rfl⟩ := List.mem_map.mp (List.mem_of_mem_take taken)
    have held := m.lookup_of_mem member
    exact ⟨s, (s.buildRrBlock now).1, held, rfl, takeSnapshots_lookup m now held, rfl⟩

/-- A report accounts for every source exactly when the news fit into it. -/
theorem built_accounted_iff : Accounted m now (takeSnapshots m now)
    (some (buildReceiverReport serverSsrc (blocksOf m now))) ↔ NewsFits m := by
  have split := List.take_append_drop 31 (values m.table)
  have once : ((values m.table).take 31 ++ (values m.table).drop 31).Nodup := by
    rw [split]
    exact m.ssrcs_nodup.of_map
  constructor
  · intro accounted s late
    by_contra news
    have member := List.mem_of_mem_drop late
    have held := m.lookup_of_mem member
    obtain ⟨blocks, parsed, reported⟩ := accounted.advanced s.ssrc s (s.buildRrBlock now).1 held
      (takeSnapshots_lookup m now held) fun same => news same.symm
    rw [Option.bind_some, parse_report m now, Option.some.injEq, Prod.mk.injEq] at parsed
    rw [← parsed.2, reported_iff m now member] at reported
    exact List.disjoint_of_nodup_append once reported late
  · intro fits
    refine ⟨fun ssrc s s' held held' moved => ?_, fun packet built => ?_⟩
    · have member : s ∈ values m.table := mem_values.mpr ⟨ssrc, held⟩
      rw [takeSnapshots_lookup m now held, Option.some.injEq] at held'
      subst held'
      refine ⟨(blocksOf m now).take 31, parse_report m now, (reported_iff m now member).mpr ?_⟩
      rw [← split, List.mem_append] at member
      exact member.resolve_right fun late => moved (fits s late).symm
    · obtain rfl := Option.some.inj built
      exact built_parsed m now

end Tick

inductive Event where
  | packet (hdr : RtpHeader) (arrivalMs : UInt64)
  | senderReport (srBlock : Bytes) (now : Instant)
  | visitFirst (ssrc : UInt32)
  | tick (publishReady : Bool) (address : Option SocketAddr) (now : Instant)
  deriving DecidableEq, Repr

def step (m : Sources) : Event → Sources
  | .packet hdr arrivalMs => m.collectRtpStats hdr arrivalMs
  | .senderReport srBlock now => m.consumeSr srBlock now
  | .visitFirst ssrc => m.visitFirst ssrc
  | .tick publishReady address now => (sendRtcpReports m publishReady address now).1

/-- The report of a tick accounts for every source. -/
def Reported (m : Sources) : Event → Prop
  | .tick publishReady address now =>
    Accounted m now (sendRtcpReports m publishReady address now).1
      (sendRtcpReports m publishReady address now).2
  | _ => True

/-- A tick that builds a report finds no news past the thirty-first source. -/
def Fits (m : Sources) : Event → Prop
  | .tick publishReady address _ => publishReady = true → address.isSome = true → NewsFits m
  | _ => True

/-- Nothing is reported, and no snapshot advances. -/
theorem unreported_accounted {m next : Sources} {now : Instant}
    (same : ∀ ssrc s s', m.table.lookup ssrc = some s → next.table.lookup ssrc = some s' → s' = s) :
    Accounted m now next none := by
  refine ⟨fun ssrc s s' held held' moved => ?_, fun packet built => nomatch built⟩
  exact absurd (by rw [same ssrc s s' held held']) moved

theorem tick_accounted_iff (m : Sources) (publishReady : Bool) (address : Option SocketAddr) (now : Instant) :
    Accounted m now (sendRtcpReports m publishReady address now).1
        (sendRtcpReports m publishReady address now).2 ↔
      (publishReady = true → address.isSome = true → NewsFits m) := by
  cases publishReady with
  | false =>
    refine iff_of_true (unreported_accounted fun ssrc s s' held held' => ?_) fun ready => nomatch ready
    exact Option.some.inj (held'.symm.trans held)
  | true =>
    cases address with
    | none =>
      refine iff_of_true (unreported_accounted fun ssrc s s' held held' => ?_) fun _ latched => nomatch latched
      exact Option.some.inj (held'.symm.trans held)
    | some addr =>
      cases sources : values m.table with
      | nil =>
        have nothing : sendRtcpReports m true (some addr) now = (takeSnapshots m now, none) := by
          simp [sendRtcpReports, takeSnapshots, sources]
        rw [nothing]
        refine iff_of_true (unreported_accounted fun ssrc s s' held _ => ?_) fun _ _ s late => ?_
        · have member : s ∈ values m.table := mem_values.mpr ⟨ssrc, held⟩
          rw [sources] at member
          exact nomatch member
        · rw [sources] at late
          exact nomatch late
      | cons s rest =>
        have built : sendRtcpReports m true (some addr) now =
            (takeSnapshots m now, some (buildReceiverReport serverSsrc (blocksOf m now))) := by
          simp [sendRtcpReports, takeSnapshots, blocksOf, sources]
        rw [built, built_accounted_iff]
        exact ⟨fun fits _ _ => fits, fun fits => fits rfl rfl⟩

/-- In a run each tick accounts for every source exactly when, at each, the news fit. -/
theorem every_tick_accounts_iff (m : Sources) (es : List Event) :
    Guarded step Reported m es ↔ Guarded step Fits m es := by
  refine guarded_congr (fun m e => ?_) m es
  cases e with
  | tick publishReady address now => exact tick_accounted_iff m publishReady address now
  | packet hdr arrivalMs => exact Iff.rfl
  | senderReport srBlock now => exact Iff.rfl
  | visitFirst ssrc => exact Iff.rfl

/-- One packet on each of `n` SSRCs. -/
def crowd (n : Nat) : List Event :=
  (List.range n).map fun k => .packet ⟨opusPayloadType, false, 1, 0, UInt32.ofNat k, 12⟩ 0

/-- Of 32 sources one is left out of the first report, with its counters taken as reported. -/
theorem crowd_unreported :
    ¬ Guarded step Reported Sources.empty (crowd 32 ++ [.tick true (some (.v4 #v[192, 0, 2, 1] 9)) 0]) := by
  rw [guarded_append]
  rintro ⟨_, reported, _⟩
  have fits := (tick_accounted_iff _ true _ 0).mp reported rfl rfl
  have late : ((values (run step Sources.empty (crowd 32)).table).drop 31).map
      (fun s => decide (snapshot s = counted s)) = [false] := by decide +kernel
  obtain ⟨s, rest, head, news, _⟩ := List.map_eq_cons_iff.mp late
  have same := fits s (by rw [head]; exact List.mem_cons_self)
  exact absurd same (of_decide_eq_false news)

end ReportTicks
