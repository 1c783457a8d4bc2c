import OxlensSfu.BurstContinuity
import OxlensSfu.ReceiverStats
import OxlensSfu.SenderReports

/-
The counts of what a subscriber was sent on each SSRC. Its egress task keeps them, and the
relay of sender reports puts them into the reports. Beside them stand the packets that they
count, in the order in which the task took them from the queue.
-/
namespace SendCounts
open WireBytes SfuConfig RtpPacket KeyedMap Participants RoomHubs RoomHub RoomHandlers Servers
open GuardedRun SenderReports Ingress BurstContinuity
open PttRewriter (Instant)

structure SendStats where
  ssrc : UInt32
  packetsSent : UInt32
  bytesSent : UInt32
  lastRtpTs : UInt32
  lastSendTime : Option Instant
  clockRate : UInt32
  deriving DecidableEq, Repr

namespace SendStats

def new (ssrc clockRate : UInt32) : SendStats := ⟨ssrc, 0, 0, 0, none, clockRate⟩

/-- A release build wraps in the two additions, a checked one panics. -/
def onRtpSent (s : SendStats) (rtpTs : UInt32) (payloadLen : Nat) (now : Instant) : SendStats :=
  { s with
    packetsSent := s.packetsSent + 1
    bytesSent := s.bytesSent + UInt32.ofNat payloadLen
    lastRtpTs := rtpTs
    lastSendTime := some now }

/-- One of the two additions passes 32 bits. -/
def Overflows (s : SendStats) (payloadLen : Nat) : Prop :=
  4294967296 ≤ s.packetsSent.toNat + 1 ∨
    4294967296 ≤ s.bytesSent.toNat + (UInt32.ofNat payloadLen).toNat

end SendStats

/-- The bytes behind the header, its sources and its extension. -/
def payloadLen (p : Bytes) : Nat :=
  let fixed := 12 + csrcCount p * 4
  if hasExtension p && decide (fixed + 4 ≤ p.length) then
    p.length - (fixed + 4 + (u16At p (fixed + 2)).toNat * 4)
  else p.length - fixed

/-- Where an announced extension is there, this is the payload that a rewriter finds. -/
theorem payloadLen_eq {p : Bytes} (long : 12 ≤ p.length)
    (whole : hasExtension p = true → 12 + csrcCount p * 4 + 4 ≤ p.length) :
    payloadLen p = match rtpPayloadOffset p with
      | some offset => p.length - offset
      | none => 0 := by
  unfold payloadLen rtpPayloadOffset
  rw [if_neg (Nat.not_lt.mpr long)]
  cases extended : hasExtension p
  · simp only [Bool.false_and, Bool.false_eq_true, if_false]
    split <;> simp_all
  · have there := whole extended
    simp only [Bool.true_and, decide_eq_true there, if_true, if_neg (Nat.not_lt.mpr there)]
    split <;> simp_all

/-- RTX packets are left out. -/
def isCounted (p : Bytes) : Bool := decide (12 ≤ p.length) && !isRtxPt (byteAt p 1 &&& 0x7F)

def entryFor (stats : Table UInt32 SendStats) (p : Bytes) : SendStats :=
  (stats.lookup (u32At p 8)).getD
    (.new (u32At p 8) (if isAudioPt (byteAt p 1 &&& 0x7F) then clockRateAudio else clockRateVideo))

def countRtp (stats : Table UInt32 SendStats) (p : Bytes) (now : Instant) : Table UInt32 SendStats :=
  if isCounted p then
    stats.insert (u32At p 8) ((entryFor stats p).onRtpSent (u32At p 4) (payloadLen p) now)
  else stats

/-- The server, the counts of each egress task, and what it took with an address latched. -/
structure Counted where
  server : Server
  sendStats : Ptr → Table UInt32 SendStats
  taken : Ptr → List Bytes

def start : Counted := ⟨.new, fun _ => ∅, fun _ => []⟩

/-- The RTP packet that the egress task takes next, if an address is latched. -/
def takes (s : Server) (q : Ptr) : Option Bytes :=
  match (s.hub.heap q).subscribe.address, (s.hub.heap q).egress with
  | some _, .rtp plaintext :: _ => some plaintext
  | _, _ => none

def runEgressTask (c : Counted) (q : Ptr) (now : Instant) : Counted :=
  match takes c.server q with
  | some plaintext =>
    { c with
      sendStats := Function.update c.sendStats q (countRtp (c.sendStats q) plaintext now)
      taken := Function.update c.taken q (c.taken q ++ [plaintext]) }
  | none => c

/-- What the relay reads of the counts of a subscriber. -/
def sentIn (stats : Table UInt32 SendStats) (ssrc : UInt32) : UInt32 × UInt32 :=
  match stats.lookup ssrc with
  | some s => (s.packetsSent, s.bytesSent)
  | none => (0, 0)

def sentBy (c : Counted) (q : Ptr) : UInt32 → UInt32 × UInt32 := sentIn (c.sendStats q)

/-- The events of the server, at the time that an egress task reads, and compound packets
    of publishers. -/
inductive Event where
  | server (e : Servers.Event) (now : Instant)
  | publishRtcp (remote : SocketAddr) (buf : Bytes) (touchMs : Nat) (draw : NonzeroSsrc)

/-- The packets of an SSRC that are to be counted. -/
def onSsrc (ssrc : UInt32) (p : Bytes) : Bool := isCounted p && u32At p 8 == ssrc

def packetCount (ssrc : UInt32) (pkts : List Bytes) : Nat := pkts.countP (onSsrc ssrc)

def octetCount (ssrc : UInt32) (pkts : List Bytes) : Nat := ((pkts.filter (onSsrc ssrc)).map payloadLen).sum

/-- The lengths as their 32 bits, into which that of a datagram fits. -/
def octetCount32 (ssrc : UInt32) (pkts : List Bytes) : Nat :=
  ((pkts.filter (onSsrc ssrc)).map fun p => payloadLen p % 4294967296).sum

section Step
variable (hmacSha1 : Bytes → Bytes → Bytes) (crc32 : Bytes → UInt32)

def step (c : Counted) : Event → Counted
  | .server e now =>
    let counted := match e with
      | .egress q => runEgressTask c q now
      | _ => c
    { counted with server := Servers.step hmacSha1 crc32 c.server e }
  | .publishRtcp remote buf touchMs draw =>
    let report := .publishRtcp remote buf touchMs draw (sentBy c)
    { c with server := SenderReports.step hmacSha1 crc32 c.server report }

end Step

/-- A whole report is handed on with the true counts of its SSRC, modulo 2^32. -/
def ReportsCounts (c : Counted) (report : RelayedReport) : Prop :=
  28 ≤ report.block.length →
    u32At report.out 20 = UInt32.ofNat (packetCount (u32At report.out 4) (c.taken report.target)) ∧
      u32At report.out 24 = UInt32.ofNat (octetCount (u32At report.out 4) (c.taken report.target))

/-- Reports carry the counts, and no addition overflows. -/
def CountsAgree (c : Counted) : Event → Prop
  | .server (.egress q) _ => ∀ p, takes c.server q = some p → isCounted p = true →
    ¬ (entryFor (c.sendStats q) p).Overflows (payloadLen p)
  | .server _ _ => True
  | .publishRtcp remote buf touchMs draw =>
    ∀ report ∈ (processPublishRtcp c.server.hub remote buf touchMs draw (sentBy c)).2, ReportsCounts c report

/-- Every subscriber's packets and bytes on each SSRC stay below 2^32. -/
def Bounded (c : Counted) : Prop :=
  ∀ q ssrc, packetCount ssrc (c.taken q) < 4294967296 ∧ octetCount32 ssrc (c.taken q) < 4294967296

/-- The counts kept are residues of the true ones. -/
def Synced (c : Counted) : Prop :=
  ∀ q ssrc, sentBy c q ssrc =
    (UInt32.ofNat (packetCount ssrc (c.taken q)), UInt32.ofNat (octetCount ssrc (c.taken q)))

theorem entryFor_sent (stats : Table UInt32 SendStats) (p : Bytes) :
    ((entryFor stats p).packetsSent, (entryFor stats p).bytesSent) = sentIn stats (u32At p 8) := by
  unfold entryFor sentIn
  cases stats.lookup (u32At p 8) <;> rfl

theorem sentIn_countRtp (stats : Table UInt32 SendStats) (p : Bytes) (now : Instant) (ssrc : UInt32) :
    sentIn (countRtp stats p now) ssrc = if onSsrc ssrc p
      then ((sentIn stats ssrc).1 + 1, (sentIn stats ssrc).2 + UInt32.ofNat (payloadLen p))
      else sentIn stats ssrc := by
  unfold countRtp onSsrc
  cases isCounted p
  · rfl
  simp only [if_true, Bool.true_and, beq_iff_eq]
  split
  · rename_i same
    subst same
    rw [← entryFor_sent stats p, sentIn, AList.lookup_insert]
    rfl
  · rename_i other
    rw [sentIn, AList.lookup_insert_ne (Ne.symm other), ← sentIn]

section Totals
variable (ssrc : UInt32) (pkts : List Bytes) (p : Bytes)

theorem packetCount_append :
    packetCount ssrc (pkts ++ [p]) = packetCount ssrc pkts + if onSsrc ssrc p then 1 else 0 := by
  rw [packetCount, List.countP_append, List.countP_singleton, packetCount]

theorem octetCount_append :
    octetCount ssrc (pkts ++ [p]) = octetCount ssrc pkts + if onSsrc ssrc p then payloadLen p else 0 := by
  unfold octetCount
  cases here : onSsrc ssrc p <;> simp [List.filter_append, here]

theorem octetCount32_append : octetCount32 ssrc (pkts ++ [p]) =
    octetCount32 ssrc pkts + if onSsrc ssrc p then payloadLen p % 4294967296 else 0 := by
  unfold octetCount32
  cases here : onSsrc ssrc p <;> simp [List.filter_append, here]

theorem octetCount_residue : octetCount ssrc pkts % 4294967296 = octetCount32 ssrc pkts % 4294967296 := by
  unfold octetCount octetCount32
  induction pkts.filter (onSsrc ssrc) with
  | nil => rfl
  | cons p rest ih =>
    simp only [List.map_cons, List.sum_cons]
    omega

end Totals

theorem start_synced : Synced start := fun _ _ => rfl

theorem start_bounded : Bounded start := fun _ _ =>
  have room : 0 < 4294967296 := by decide
  ⟨room, room⟩

theorem runEgressTask_none {c : Counted} {q : Ptr} (idle : takes c.server q = none) (now : Instant) :
    runEgressTask c q now = c := by
  rw [runEgressTask, idle]

theorem runEgressTask_synced {c : Counted} (synced : Synced c) (q : Ptr) (now : Instant) :
    Synced (runEgressTask c q now) := by
  cases taken : takes c.server q with
  | none =>
    rw [runEgressTask_none taken]
    exact synced
  | some p =>
    intro t ssrc
    simp only [runEgressTask, taken, sentBy]
    by_cases here : t = q
    · subst here
      have before := synced t ssrc
      rw [sentBy] at before
      rw [Function.update_self, Function.update_self, sentIn_countRtp, packetCount_append, octetCount_append,
        before]
      split
      · rw [UInt32.ofNat_add, UInt32.ofNat_add]
        rfl
      · rfl
    · rw [Function.update_of_ne here, Function.update_of_ne here]
      exact synced t ssrc

/-- The counts that a translation puts into a report are those of the SSRC that it puts there. -/
theorem buildSrTranslation_counts (room : Room) (s : ParticipantState) (draw : NonzeroSsrc)
    (sent : UInt32 → UInt32 × UInt32) (srBlock : Bytes) :
    let tr := (buildSrTranslation room s draw sent srBlock).2
    (tr.packetCount, tr.octetCount) = sent (tr.ssrc.getD (pubSsrcOf srBlock)) := by
  unfold buildSrTranslation
  simp only
  split
  · rfl
  split
  · rfl
  · rfl

theorem translated_counts {c : Counted} (synced : Synced c) {room : Room} {heap : Heap} {sender : Ptr}
    {draw : NonzeroSsrc} {report : RelayedReport} (kind : byteAt report.block 1 = rtcpPtSr)
    (translated : Translated room heap sender draw (sentBy c) report) : ReportsCounts c report := by
  intro long
  let tr := (buildSrTranslation room (heap sender) draw (sentBy c report.target) report.block).2
  obtain ⟨out, rewritten, source, _, packets, octets⟩ := @translateSr_fields report.block tr long kind
  have counts := buildSrTranslation_counts room (heap sender) draw (sentBy c report.target) report.block
  have published : pubSsrcOf report.block = u32At report.block 4 := if_pos (by omega)
  simp only [published] at counts
  have handed : report.out = out := by
    rw [translated.out]
    exact congrArg (fun result => Option.getD result report.block) rewritten
  rw [handed, source, packets, octets]
  have own := synced report.target (tr.ssrc.getD (u32At report.block 4))
  rw [← counts, Prod.mk.injEq] at own
  exact own

section Run
variable (hmacSha1 : Bytes → Bytes → Bytes) (crc32 : Bytes → UInt32)

/-- The counts and the packets do not see the rest of the server. -/
theorem step_synced (c : Counted) (e : Event) (synced : Synced c) : Synced (step hmacSha1 crc32 c e) := by
  cases e with
  | publishRtcp remote buf touchMs draw => exact synced
  | server e now =>
    cases e with
    | egress q => exact runEgressTask_synced synced q now
    | _ => exact synced

theorem reports_agree {c : Counted} (synced : Synced c) (remote : SocketAddr) (buf : Bytes) (touchMs : Nat)
    (draw : NonzeroSsrc) : CountsAgree c (.publishRtcp remote buf touchMs draw) := by
  intro report member
  rcases @processPublishRtcp_spec c.server.hub remote buf touchMs draw (sentBy c) with
    same | ⟨sender, pc, r, _, heap, _, _, explained⟩
  · rw [same] at member
    exact nomatch member
  · obtain ⟨room, _, _, kind, translated⟩ := explained report member
    exact translated_counts synced kind translated

theorem runEgressTask_totals {c : Counted} {q : Ptr} {p : Bytes} (taken : takes c.server q = some p)
    (now : Instant) (t : Ptr) (ssrc : UInt32) :
    packetCount ssrc ((runEgressTask c q now).taken t) =
        packetCount ssrc (c.taken t) + (if t = q ∧ onSsrc ssrc p then 1 else 0) ∧
      octetCount32 ssrc ((runEgressTask c q now).taken t) =
        octetCount32 ssrc (c.taken t) + if t = q ∧ onSsrc ssrc p then payloadLen p % 4294967296 else 0 := by
  simp only [runEgressTask, taken]
  by_cases here : t = q
  · subst here
    rw [Function.update_self, packetCount_append, octetCount32_append]
    simp only [true_and, and_self]
  · rw [Function.update_of_ne here]
    simp only [here, false_and, if_false, Nat.add_zero, and_self]

/-- A counted packet overflows the counts exactly when it takes a true total to 2^32. -/
theorem taken_bounded_iff {c : Counted} (synced : Synced c) (bounded : Bounded c) {q : Ptr} {p : Bytes}
    (taken : takes c.server q = some p) (now : Instant) :
    Bounded (runEgressTask c q now) ↔
      (isCounted p = true → ¬ (entryFor (c.sendStats q) p).Overflows (payloadLen p)) := by
  have totals := runEgressTask_totals taken now
  have room := bounded q (u32At p 8)
  have residue := octetCount_residue (u32At p 8) (c.taken q)
  have entry := (entryFor_sent (c.sendStats q) p).trans (synced q (u32At p 8))
  rw [Prod.mk.injEq] at entry
  have packets := congrArg UInt32.toNat entry.1
  have octets := congrArg UInt32.toNat entry.2
  rw [UInt32.toNat_ofNat'] at packets octets
  have length : (UInt32.ofNat (payloadLen p)).toNat = payloadLen p % 4294967296 := UInt32.toNat_ofNat' ..
  constructor
  · intro next counted
    have own := next q (u32At p 8)
    have here : q = q ∧ onSsrc (u32At p 8) p = true := ⟨rfl, by simp [onSsrc, counted]⟩
    rw [(totals q (u32At p 8)).1, (totals q (u32At p 8)).2, if_pos here, if_pos here] at own
    rintro (full | full) <;> omega
  · intro fits t ssrc
    rw [(totals t ssrc).1, (totals t ssrc).2]
    split
    · rename_i here
      obtain ⟨rfl, own⟩ := here
      simp only [onSsrc, Bool.and_eq_true, beq_iff_eq] at own
      obtain ⟨counted, rfl⟩ := own
      have free := fits counted
      simp only [SendStats.Overflows, not_or, Nat.not_le] at free
      omega
    · exact bounded t ssrc

theorem step_bounded_iff (c : Counted) (e : Event) (synced : Synced c) (bounded : Bounded c) :
    Bounded (step hmacSha1 crc32 c e) ↔ CountsAgree c e := by
  cases e with
  | publishRtcp remote buf touchMs draw => exact iff_of_true bounded (reports_agree synced remote buf touchMs draw)
  | server e now =>
    cases e with
    | egress q =>
      cases taken : takes c.server q with
      | none =>
        refine iff_of_true ?_ fun p taken' => absurd (taken.symm.trans taken') (Option.some_ne_none p).symm
        have still : Bounded (runEgressTask c q now) := by
          rw [runEgressTask_none taken]
          exact bounded
        exact still
      | some p =>
        refine (taken_bounded_iff synced bounded taken now).trans ?_
        simp only [CountsAgree, taken, Option.some.injEq, forall_eq']
    | _ => exact iff_of_true bounded trivial

theorem bounded_back (c : Counted) (e : Event) (bounded : Bounded (step hmacSha1 crc32 c e)) : Bounded c := by
  cases e with
  | publishRtcp remote buf touchMs draw => exact bounded
  | server e now =>
    cases e with
    | egress q =>
      have next : Bounded (runEgressTask c q now) := bounded
      cases taken : takes c.server q with
      | none =>
        rw [runEgressTask_none taken] at next
        exact next
      | some p =>
        intro t ssrc
        have totals := runEgressTask_totals taken now t ssrc
        have more := next t ssrc
        omega
    | _ => exact bounded

/-- Along a run, the reports carry the true counts and no addition overflows, exactly when at
    its end no subscriber's packets or bytes on an SSRC have reached 2^32. -/
theorem send_counts_iff (es : List Event) :
    Guarded (step hmacSha1 crc32) CountsAgree start es ↔ Bounded (run (step hmacSha1 crc32) start es) := by
  rw [← always_iff_last (bounded_back hmacSha1 crc32)]
  exact (always_iff_guarded (step_synced hmacSha1 crc32) (step_bounded_iff hmacSha1 crc32) start_synced
    start_bounded es).symm

end Run

section Samples

/-- A publishes without announced tracks, and B is ready. -/
def peers : List Servers.Event :=
  sampleRoom .conference false :: joinAs 0 "a" 1 ++ joinAs 1 "b" 2 ++
    startMedia 0 1 .publish 5000 ++ startMedia 1 2 .subscribe 5001

def audioPacket : Bytes := [0x80, 111, 0, 1] ++ bytes32 0 ++ bytes32 11 ++ List.replicate 16 0

/-- A sends a packet to the idle B. -/
structure Listening (hub : RoomHub) : Prop where
  lands : hub.findByAddr (AddressIndex.portAt 5000) = some (0, .publish, "room")
  room : ∃ room, hub.rooms.lookup "room" = some room ∧ room.mode = .conference ∧
    room.simulcastEnabled = false ∧ room.otherParticipants (hub.arcs 0).userId = [1]
  publishReady : (hub.heap 0).isPublishReady = true
  seen : (hub.heap 0).lastSeen = (sampleOracle 0).nowMs
  unlisted : (hub.heap 0).tracks = []
  subscribeReady : (hub.heap 1).isSubscribeReady = true
  idle : (hub.heap 1).egress = []
  latched : (hub.heap 1).subscribe.address.isSome = true

theorem mutate_unchanged {h : Heap} {p : Ptr} {f : ParticipantState → ParticipantState}
    (same : f (h p) = h p) : mutate h p f = h := by
  rw [mutate, same, Function.update_eq_self]

theorem relayed_hub {hub : RoomHub} (listening : Listening hub) :
    (handleSrtp hub (AddressIndex.portAt 5000) audioPacket (sampleOracle 0)).hub =
      { hub with heap := mutate hub.heap 1 fun s => { s with egress := [.rtp audioPacket] } } := by
  obtain ⟨room, held, conference, plain, others⟩ := listening.room
  have touched : hub.touch 0 (sampleOracle 0).nowMs = hub := by
    have still : mutate hub.heap 0 (fun s => s.touch (sampleOracle 0).nowMs) = hub.heap :=
      mutate_unchanged (by rw [← listening.seen]; rfl)
    rw [RoomHub.touch, still]
  have media : isRtcp audioPacket = false := by decide
  have relayed : handleSrtp hub (AddressIndex.portAt 5000) audioPacket (sampleOracle 0) =
      relayRtp hub "room" room 0 audioPacket (sampleOracle 0) := by
    simp only [handleSrtp, listening.lands, held, listening.publishReady, media, touched, and_self,
      Bool.not_false, if_true]
  have normal : normalizePt (hub.heap 0).tracks audioPacket = (audioPacket, parseRtpHeader audioPacket) := by
    rw [listening.unlisted]
    rfl
  have quiet : isVideoPt (parseRtpHeader audioPacket).pt = false := by decide
  have passed : prepareFanoutPayload room.mode room.toPttState (hub.arcs 0).userId (parseRtpHeader audioPacket)
      audioPacket ((sampleOracle 0).clk 0) = (room.toPttState, some audioPacket) :=
    if_neg (by simp [conference])
  have noted : mutate hub.heap 0 (fun s => detectGap (collectRtpStats s (parseRtpHeader audioPacket)
      audioPacket) (parseRtpHeader audioPacket)) = hub.heap :=
    mutate_unchanged (by simp [detectGap, collectRtpStats, quiet])
  have ready : readyOthers room hub.heap (hub.arcs 0).userId = [1] := by
    simp [readyOthers, others, listening.subscribeReady]
  have heap := @relayRtp_plain hub "room" room 0 audioPacket (sampleOracle 0) plain
  simp only [normal, noted, passed, ready] at heap
  have same : modify hub.rooms "room" (fun room' => { room' with toPttState := room.toPttState }) =
      hub.rooms := by
    refine modify_unchanged fun room' here => ?_
    obtain rfl := Option.some.inj (held.symm.trans here)
    rfl
  rw [relayed, relayRtp_hub, normal, passed, heap, withPtt, same]
  have sent : sendToReady hub.heap [1] (.rtp audioPacket) =
      mutate hub.heap 1 fun s => { s with egress := [.rtp audioPacket] } := by
    simp [sendToReady, mutate, listening.subscribeReady, ParticipantState.trySend, listening.idle, egressQueueSize]
  rw [sent]

/-- A sends the packet, and the task of B takes it. -/
def oneRound : List Event :=
  [.server (.rtp (AddressIndex.portAt 5000) audioPacket (sampleOracle 0)) 0, .server (.egress 1) 0]

def rounds (n : Nat) : List Event := (List.replicate n oneRound).flatten

theorem oneRound_counts {c : Counted} (listening : Listening c.server.hub) :
    (run (step sampleHmac fun _ => 0) c oneRound).server = c.server ∧
      (run (step sampleHmac fun _ => 0) c oneRound).taken 1 = c.taken 1 ++ [audioPacket] := by
  let sent : Server := { c.server with
    hub := { c.server.hub with
      heap := mutate c.server.hub.heap 1 fun s => { s with egress := [.rtp audioPacket] } } }
  have first : Servers.step sampleHmac (fun _ => 0) c.server
      (.rtp (AddressIndex.portAt 5000) audioPacket (sampleOracle 0)) = sent := by
    rw [Servers.step, relayed_hub listening]
  have queued : takes sent 1 = some audioPacket := by
    obtain ⟨addr, latched⟩ := Option.isSome_iff_exists.mp listening.latched
    simp [takes, sent, latched]
  have emptied : mutate sent.hub.heap 1 (fun s => { s with egress := s.egress.tail }) =
      c.server.hub.heap := by
    funext q
    by_cases here : q = 1
    · subst here
      simp only [sent, mutate_self, List.tail_cons]
      rw [← listening.idle]
    · simp only [sent]
      rw [mutate_ne _ here, mutate_ne _ here]
  have server : Servers.step sampleHmac (fun _ => 0) sent (.egress 1) = c.server := by
    rw [Servers.step, emptied]
  have after : (step sampleHmac (fun _ => 0) c
      (.server (.rtp (AddressIndex.portAt 5000) audioPacket (sampleOracle 0)) 0)) =
        { c with server := sent } := by
    rw [← first]
    rfl
  rw [oneRound, run_cons, run_cons, run_nil, after]
  refine ⟨server, ?_⟩
  simp only [step, runEgressTask, queued, Function.update_self]

theorem rounds_counts (n : Nat) : ∀ {c : Counted}, Listening c.server.hub →
    (run (step sampleHmac fun _ => 0) c (rounds n)).taken 1 =
      c.taken 1 ++ List.replicate n audioPacket := by
  induction n with
  | zero => exact fun _ => (List.append_nil _).symm
  | succ n ih =>
    intro c listening
    obtain ⟨server, taken⟩ := oneRound_counts listening
    rw [rounds, List.replicate_succ, List.flatten_cons, ← rounds, run, List.foldl_append, ← run, ← run,
      ih (server ▸ listening), taken, List.append_assoc, List.replicate_succ, List.singleton_append]

theorem octetCount32_rounds (n : Nat) : octetCount32 11 (List.replicate n audioPacket) = n * 16 := by
  have counted : onSsrc 11 audioPacket = true := by decide
  have length : payloadLen audioPacket % 4294967296 = 16 := by decide
  rw [octetCount32, List.filter_replicate, if_pos counted, List.map_replicate, List.sum_replicate_nat,
    length]

theorem peers_listening : Listening
    (run (step sampleHmac fun _ => 0) start (peers.map fun e => .server e 0)).server.hub where
  lands := by decide
  room := ⟨_, rfl, by decide, by decide, by decide⟩
  publishReady := by decide
  seen := by decide
  unlisted := by decide
  subscribeReady := by decide
  idle := by decide
  latched := by decide

/-- Packets of 16 bytes, 2^28 of them. -/
theorem octets_overflow :
    ¬ ∀ (hmacSha1 : Bytes → Bytes → Bytes) (crc32 : Bytes → UInt32) (es : List Event),
      Guarded (step hmacSha1 crc32) CountsAgree start es := by
  intro holds
  obtain ⟨n, full⟩ : ∃ n, 4294967296 ≤ n * 16 := ⟨268435456, by decide⟩
  let es : List Event := peers.map (fun e => .server e 0) ++ rounds n
  have kept := (always_iff_guarded (step_synced sampleHmac fun _ => 0) (step_bounded_iff sampleHmac fun _ => 0)
    start_synced start_bounded es).mpr (holds sampleHmac (fun _ => 0) es)
  have bound := (always_last kept 1 11).2
  have idle : (run (step sampleHmac fun _ => 0) start (peers.map fun e => .server e 0)).taken 1 = [] := by
    decide
  rw [run, List.foldl_append, ← run, ← run, rounds_counts _ peers_listening, idle, List.nil_append,
    octetCount32_rounds] at bound
  omega

end Samples

end SendCounts
