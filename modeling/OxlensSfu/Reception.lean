import OxlensSfu.HandshakeTasks
import OxlensSfu.ReportTicks
import OxlensSfu.TwccExtension
import OxlensSfu.TwccRecorder

/-
What the server notes of the media that it receives, and what its timers send back: receiver
reports, and transport feedback or a bandwidth hint. Every publisher has counters of its own.
-/
namespace Reception
open WireBytes SfuConfig KeyedMap GuardedRun StepRefinement Participants RoomHubs RoomHub Ingress
open RtpPacket RtcpCompound RtcpBuilders ReceiverStats ReportTicks TwccExtension TwccRecorder DtlsTransport
open Membership Seating HandshakeTasks
open PttRewriter (Instant)

def twccExtmapDefault : UInt8 := 6

inductive BweMode where
  | twcc
  | remb
  deriving DecidableEq, Repr

/-- The counters of a publisher's sources, and the arrivals of its numbered packets. -/
structure Monitor where
  recvStats : Sources
  twccRecorder : Recorder

def Monitor.new : Monitor := ⟨.empty, .new⟩

/-- The clocks that a datagram is read at: one for the counters, one for the recorder, and one
    for each sender report in it. -/
structure Clocks where
  arrivalMs : UInt64
  arrival : Instant
  srNow : Nat → Instant

/-- The transport, and beside it the monitors and what the timers sent. -/
structure Monitored where
  transport : Transport
  monitors : Ptr → Monitor
  feedback : List (Ptr × SocketAddr × Bytes)

def Monitored.new : Monitored := ⟨.new, fun _ => .new, []⟩

def Monitored.hub (m : Monitored) : RoomHub := m.transport.hub

/-- The client chooses the id of the extension; zero leaves it to the server. -/
def twccId (s : ParticipantState) : UInt8 :=
  if s.twccExtmapId ≠ 0 then s.twccExtmapId else twccExtmapDefault

/-- The counters and the recorder in `collect_rtp_stats`. -/
def collectRtpStats (s : ParticipantState) (m : Monitor) (plaintext : Bytes) (hdr : RtpHeader)
    (clk : Clocks) : Monitor where
  recvStats := m.recvStats.collectRtpStats hdr clk.arrivalMs
  twccRecorder := match parseTwccSeq plaintext (twccId s) with
    | some twccSeq => m.twccRecorder.record twccSeq clk.arrival
    | none => m.twccRecorder

/-- The sender reports of a compound packet, in order. -/
def consumeSrBlocks (m : Monitor) (plaintext : Bytes) (clk : Clocks) : Monitor :=
  let srData := (splitCompoundRtcp plaintext).srBlocks.map (RtcpCompound.slice plaintext)
  { m with
    recvStats := srData.zipIdx.foldl (fun m (sr, i) => m.consumeSr sr (clk.srNow i)) m.recvStats }

/-- The publisher behind a packet, and the packet, once it is decrypted. -/
def received (shard : SocketAddr → WorkerId) (s : Transport) (remote : SocketAddr) (buf : Bytes)
    (o : Readings buf) : Option (Ptr × Bytes) :=
  if (s.workers (shard remote)).waiting.isSome ∨ DtlsTransport.classify buf ≠ .srtp then none
  else
    match s.hub.findByAddr remote, o.plain with
    | some (sender, .publish, _), some plain =>
      if (s.hub.heap sender).isPublishReady then some (sender, plain) else none
    | _, _ => none

def observe (s : ParticipantState) (m : Monitor) (plain : Bytes) (clk : Clocks) : Monitor :=
  if isRtcp plain then consumeSrBlocks m plain clk
  else
    let (plaintext, hdr) := normalizePt s.tracks plain
    collectRtpStats s m plaintext hdr clk

def publishersIn (hub : RoomHub) (r : RoomId) : List Ptr :=
  match hub.rooms.lookup r with
  | some room => values room.participants
  | none => []

/-- All participants, room by room. -/
def publishers (hub : RoomHub) : List Ptr := hub.rooms.keys.flatMap (publishersIn hub)

/-- The turn of one publisher in a round. Who is not ready, or has no address, is passed over. -/
def takeTurn (hub : RoomHub) (work : ParticipantState → Monitor → Monitor × Option Bytes)
    (m : Monitored) (p : Ptr) : Monitored :=
  if !(hub.heap p).isPublishReady then m
  else
    match (hub.heap p).publish.address with
    | none => m
    | some addr =>
      let (next, packet) := work (hub.heap p) (m.monitors p)
      { m with
        monitors := Function.update m.monitors p next
        feedback := m.feedback ++ (packet.map fun bytes => (p, addr, bytes)).toList }

/-- The round of a timer of the first worker, unless the worker waits. -/
def round (m : Monitored) (work : Ptr → ParticipantState → Monitor → Monitor × Option Bytes) :
    Monitored :=
  if (m.transport.workers 0).waiting.isSome then m
  else (publishers m.hub).foldl (fun next p => takeTurn m.hub (work p) next p) m

/-- Transport feedback on the video of a publisher. -/
def sendTwcc (s : ParticipantState) (m : Monitor) : Monitor × Option Bytes :=
  match s.firstVideoSsrc with
  | none => (m, none)
  | some ssrc =>
    let (recorder, feedback) := buildTwccFeedback m.twccRecorder ssrc
    ({ m with twccRecorder := recorder }, feedback)

def sendRemb (rembBitrate : UInt64) (s : ParticipantState) (m : Monitor) : Monitor × Option Bytes :=
  (m, s.firstVideoSsrc.map (buildRemb rembBitrate))

def sendReport (now : Instant) (s : ParticipantState) (m : Monitor) : Monitor × Option Bytes :=
  let (stats, report) := sendRtcpReports m.recvStats s.isPublishReady s.publish.address now
  ({ m with recvStats := stats }, report)

inductive Event where
  | transport (e : DtlsTransport.Event) (clk : Clocks)
  | bweTimer
  | reportTimer (now : Ptr → Instant)
  /-- The counters of a publisher visit this source first from now on. -/
  | visitFirst (p : Ptr) (ssrc : UInt32)

section Step
variable (hmacSha1 : Bytes → Bytes → Bytes) (crc32 : Bytes → UInt32) (shard : SocketAddr → WorkerId)
  (mode : BweMode) (rembBitrate : UInt64)

def bweWork (s : ParticipantState) (m : Monitor) : Monitor × Option Bytes :=
  match mode with
  | .twcc => sendTwcc s m
  | .remb => sendRemb rembBitrate s m

def step (m : Monitored) : Event → Monitored
  | .transport e clk =>
    { m with
      transport := DtlsTransport.step hmacSha1 crc32 shard m.transport e
      monitors := match e with
        | .datagram remote buf o =>
          match received shard m.transport remote buf o with
          | some (p, plain) =>
            Function.update m.monitors p (observe (m.hub.heap p) (m.monitors p) plain clk)
          | none => m.monitors
        | _ => m.monitors }
  | .bweTimer => round m fun _ => bweWork mode rembBitrate
  | .reportTimer now => round m fun p => sendReport (now p)
  | .visitFirst p ssrc =>
    let visited := { m.monitors p with recvStats := (m.monitors p).recvStats.visitFirst ssrc }
    { m with monitors := Function.update m.monitors p visited }

end Step

/-- What a monitor is told. -/
inductive Note where
  | source (e : ReportTicks.Event)
  | record (op : TwccRecorder.Op)
  | hint (rembBitrate : UInt64) (mediaSsrc : UInt32)

/-- One monitor on its own, and what is sent of it. -/
structure Solo where
  monitor : Monitor
  sent : List Bytes

def Solo.new : Solo := ⟨.new, []⟩

def Monitor.next (m : Monitor) : Note → Monitor
  | .source e => { m with recvStats := ReportTicks.step m.recvStats e }
  | .record op => { m with twccRecorder := TwccRecorder.step m.twccRecorder op }
  | .hint .. => m

def emitted (m : Monitor) : Note → Option Bytes
  | .source (.tick ready address now) => (sendRtcpReports m.recvStats ready address now).2
  | .record (.feedback mediaSsrc) => (buildTwccFeedback m.twccRecorder mediaSsrc).2
  | .hint rembBitrate mediaSsrc => some (buildRemb rembBitrate mediaSsrc)
  | .source _ | .record _ => none

def soloStep (s : Solo) (n : Note) : Solo := ⟨s.monitor.next n, s.sent ++ (emitted s.monitor n).toList⟩

/-- The monitor of one participant, and what it was sent. -/
def view (p : Ptr) (m : Monitored) : Solo :=
  ⟨m.monitors p, (m.feedback.filter (·.1 = p)).map (·.2.2)⟩

/-- What a packet of a publisher tells its monitor. -/
def observed (s : ParticipantState) (plain : Bytes) (clk : Clocks) : List Note :=
  if isRtcp plain then
    ((splitCompoundRtcp plain).srBlocks.map (RtcpCompound.slice plain)).zipIdx.map fun (sr, i) =>
      .source (.senderReport sr (clk.srNow i))
  else
    let (plaintext, hdr) := normalizePt s.tracks plain
    .source (.packet hdr clk.arrivalMs) ::
      ((parseTwccSeq plaintext (twccId s)).map fun twccSeq =>
        .record (.record twccSeq clk.arrival)).toList

section Telling
variable (shard : SocketAddr → WorkerId) (mode : BweMode) (rembBitrate : UInt64)

def bweNotes (s : ParticipantState) : List Note :=
  (s.firstVideoSsrc.map fun ssrc => match mode with
    | .twcc => .record (.feedback ssrc)
    | .remb => .hint rembBitrate ssrc).toList

def reportNotes (now : Instant) (s : ParticipantState) : List Note :=
  [.source (.tick s.isPublishReady s.publish.address now)]

def turnTold (hub : RoomHub) (notes : ParticipantState → List Note) (p : Ptr) : List Note :=
  if (hub.heap p).isPublishReady ∧ (hub.heap p).publish.address.isSome then notes (hub.heap p) else []

def roundTold (m : Monitored) (notes : Ptr → ParticipantState → List Note) (p : Ptr) : List Note :=
  if (m.transport.workers 0).waiting.isSome then []
  else (publishers m.hub).flatMap fun q => if q = p then turnTold m.hub (notes q) q else []

/-- What an event tells the monitor of one participant. -/
def told (p : Ptr) (m : Monitored) : Event → List Note
  | .transport (.datagram remote buf o) clk =>
    match received shard m.transport remote buf o with
    | some (q, plain) => if q = p then observed (m.hub.heap q) plain clk else []
    | none => []
  | .transport _ _ => []
  | .bweTimer => roundTold m (fun _ => bweNotes mode rembBitrate) p
  | .reportTimer now => roundTold m (fun q => reportNotes (now q)) p
  | .visitFirst q ssrc => if q = p then [.source (.visitFirst ssrc)] else []

end Telling

section Solos
variable {m : Monitor} {sent : List Bytes}

/-- The work of a turn is what the notes of the turn make of the monitor, and sends what they
    send. -/
def Does (work : ParticipantState → Monitor → Monitor × Option Bytes)
    (notes : ParticipantState → List Note) : Prop :=
  ∀ s m sent, run soloStep ⟨m, sent⟩ (notes s) = ⟨(work s m).1, sent ++ (work s m).2.toList⟩

theorem bweWork_does (mode : BweMode) (rembBitrate : UInt64) :
    Does (bweWork mode rembBitrate) (bweNotes mode rembBitrate) := by
  intro s m sent
  cases mode with
  | twcc =>
    simp only [bweWork, sendTwcc, bweNotes]
    cases s.firstVideoSsrc with
    | none => simp
    | some ssrc => simp [soloStep, Monitor.next, emitted, TwccRecorder.step]
  | remb =>
    simp only [bweWork, sendRemb, bweNotes]
    cases s.firstVideoSsrc with
    | none => simp
    | some ssrc => simp [soloStep, Monitor.next, emitted]

theorem sendReport_does (now : Instant) : Does (sendReport now) (reportNotes now) :=
  fun _ _ _ => rfl

theorem senderReports_run (srData : List (Bytes × Nat)) (clk : Clocks) :
    run soloStep ⟨m, sent⟩ (srData.map fun (sr, i) => .source (.senderReport sr (clk.srNow i))) =
      ⟨{ m with recvStats := srData.foldl (fun m (sr, i) => m.consumeSr sr (clk.srNow i)) m.recvStats },
        sent⟩ := by
  induction srData generalizing m with
  | nil => rfl
  | cons sr srData ih =>
    rw [List.map_cons, run_cons, List.foldl_cons]
    have one : soloStep ⟨m, sent⟩ (.source (.senderReport sr.1 (clk.srNow sr.2))) =
        ⟨{ m with recvStats := m.recvStats.consumeSr sr.1 (clk.srNow sr.2) }, sent⟩ := by
      simp [soloStep, Monitor.next, emitted, ReportTicks.step]
    rw [one, ih]

/-- A packet sends nothing back. -/
theorem observed_run (s : ParticipantState) (plain : Bytes) (clk : Clocks) :
    run soloStep ⟨m, sent⟩ (observed s plain clk) = ⟨observe s m plain clk, sent⟩ := by
  unfold observed observe
  split
  · exact senderReports_run _ clk
  · generalize normalizePt s.tracks plain = normalized
    obtain ⟨plaintext, hdr⟩ := normalized
    simp only [collectRtpStats]
    cases parseTwccSeq plaintext (twccId s) with
    | none => simp [soloStep, Monitor.next, emitted, ReportTicks.step]
    | some twccSeq =>
      simp [soloStep, Monitor.next, emitted, ReportTicks.step, TwccRecorder.step]

end Solos

section Views
variable {hub : RoomHub} {p q : Ptr}

theorem view_update (m : Monitored) (next : Monitor) :
    view p { m with monitors := Function.update m.monitors q next } =
      if q = p then ⟨next, (view p m).sent⟩ else view p m := by
  unfold view
  by_cases here : q = p
  · subst here
    simp
  · rw [if_neg here]
    simp only [Function.update_of_ne (Ne.symm here)]

theorem takeTurn_view {work : ParticipantState → Monitor → Monitor × Option Bytes}
    {notes : ParticipantState → List Note} (does : Does work notes) (m : Monitored) :
    view p (takeTurn hub work m q) =
      run soloStep (view p m) (if q = p then turnTold hub notes q else []) := by
  unfold takeTurn turnTold
  cases ready : (hub.heap q).isPublishReady with
  | false => simp
  | true =>
    cases (hub.heap q).publish.address with
    | none => simp
    | some addr =>
      by_cases here : q = p
      · subst here
        have done := does (hub.heap q) (m.monitors q) (view q m).sent
        simp only [Option.isSome_some, and_self, if_true]
        refine Eq.trans ?_ done.symm
        simp only [view, Bool.not_true, Bool.false_eq_true, if_false, Function.update_self,
          List.filter_append, List.map_append]
        cases (work (hub.heap q) (m.monitors q)).2 <;> simp
      · rw [if_neg here, run_nil]
        simp only [view, Bool.not_true, Bool.false_eq_true, if_false,
          Function.update_of_ne (Ne.symm here), List.filter_append, List.map_append]
        cases (work (hub.heap q) (m.monitors q)).2 <;> simp [here]

theorem takeTurn_transport (work : ParticipantState → Monitor → Monitor × Option Bytes)
    (m : Monitored) : (takeTurn hub work m q).transport = m.transport := by
  unfold takeTurn
  split
  · rfl
  · split <;> rfl

theorem round_view {work : Ptr → ParticipantState → Monitor → Monitor × Option Bytes}
    {notes : Ptr → ParticipantState → List Note} (does : ∀ q, Does (work q) (notes q)) (m : Monitored) :
    view p (round m work) = run soloStep (view p m) (roundTold m notes p) := by
  unfold round roundTold
  split
  · rfl
  rename_i quiet
  clear quiet
  generalize m.hub = hub
  generalize publishers hub = qs
  induction qs generalizing m with
  | nil => rfl
  | cons q qs ih =>
    rw [List.foldl_cons, List.flatMap_cons, run_append, ih, takeTurn_view (does q)]

end Views

section Runs
variable (hmacSha1 : Bytes → Bytes → Bytes) (crc32 : Bytes → UInt32) (shard : SocketAddr → WorkerId)
  (mode : BweMode) (rembBitrate : UInt64)

/-- Every event does to the monitor of a participant what it tells it, whatever the others do. -/
theorem monitor_tells (p : Ptr) :
    Tells (step hmacSha1 crc32 shard mode rembBitrate) soloStep (view p)
      (told shard mode rembBitrate p) := by
  intro m e
  cases e with
  | transport e clk =>
    cases e with
    | datagram remote buf o =>
      simp only [step, told]
      cases received shard m.transport remote buf o with
      | none => rfl
      | some heard =>
        obtain ⟨q, plain⟩ := heard
        simp only
        refine (view_update { m with transport := _ } _).trans ?_
        by_cases here : q = p
        · subst here
          rw [if_pos rfl, if_pos rfl]
          exact (observed_run (m.hub.heap q) plain clk).symm
        · rw [if_neg here, if_neg here]
          rfl
    | _ => rfl
  | bweTimer => exact round_view (fun _ => bweWork_does mode rembBitrate) m
  | reportTimer now => exact round_view (fun q => sendReport_does (now q)) m
  | visitFirst q ssrc =>
    simp only [step, told]
    refine (view_update m _).trans ?_
    by_cases here : q = p
    · subst here
      rw [if_pos rfl, if_pos rfl]
      simp [soloStep, Monitor.next, emitted, ReportTicks.step, view]
    · rw [if_neg here, if_neg here]
      rfl

/-- What becomes of the monitor of a participant, and what the timers send it, is the work of a
    monitor on its own that is told the packets of this participant and its turns. -/
theorem monitors_run_apart (p : Ptr) (es : List Event) :
    view p (run (step hmacSha1 crc32 shard mode rembBitrate) Monitored.new es) =
      run soloStep Solo.new
        (story (step hmacSha1 crc32 shard mode rembBitrate) (told shard mode rembBitrate p)
          Monitored.new es) :=
  run_refines (monitor_tells hmacSha1 crc32 shard mode rembBitrate p) Monitored.new es

end Runs

section Sources
variable {past : List Note} {ssrc : UInt32}

/-- A packet came in on this source that was no retransmission. -/
def CameIn (past : List Note) (ssrc : UInt32) : Prop :=
  ∃ hdr arrivalMs, .source (.packet hdr arrivalMs) ∈ past ∧ hdr.ssrc = ssrc ∧ isRtxPt hdr.pt = false

theorem CameIn.later (came : CameIn past ssrc) (more : List Note) : CameIn (past ++ more) ssrc := by
  obtain ⟨hdr, arrivalMs, member, same, media⟩ := came
  exact ⟨hdr, arrivalMs, List.mem_append_left more member, same, media⟩

theorem modify_isSome {table : Table UInt32 RecvStats} {k : UInt32} {f : RecvStats → RecvStats}
    (held : ((KeyedMap.modify table k f).lookup ssrc).isSome) : (table.lookup ssrc).isSome := by
  rw [lookup_modify] at held
  split at held
  · rwa [Option.isSome_map] at held
  · exact held

theorem insert_isSome {m : Sources} {k : UInt32} {v : RecvStats} {own : v.ssrc = k}
    (held : ((m.insert k v own).table.lookup ssrc).isSome) :
    ssrc = k ∨ (m.table.lookup ssrc).isSome := by
  by_cases here : ssrc = k
  · exact .inl here
  · change ((m.table.insert k v).lookup ssrc).isSome at held
    rw [lookup_insert, if_neg here] at held
    exact .inr held

theorem consumeSr_isSome {m : Sources} {srBlock : Bytes} {now : Instant}
    (held : ((m.consumeSr srBlock now).table.lookup ssrc).isSome) : (m.table.lookup ssrc).isSome := by
  cases parsed : parseSrNtp srBlock with
  | none =>
    have same : m.consumeSr srBlock now = m := by simp only [Sources.consumeSr, parsed]
    rwa [same] at held
  | some words =>
    obtain ⟨source, ntpHi, ntpLo⟩ := words
    have table : (m.consumeSr srBlock now).table =
        KeyedMap.modify m.table source fun s => s.onSrReceived ntpHi ntpLo now := by
      simp only [Sources.consumeSr, parsed, Sources.modify]
    rw [table] at held
    exact modify_isSome held

theorem visitFirst_isSome {m : Sources} {first : UInt32}
    (held : ((m.visitFirst first).table.lookup ssrc).isSome) : (m.table.lookup ssrc).isSome := by
  unfold Sources.visitFirst at held
  split at held
  · rename_i there
    rcases insert_isSome held with rfl | before
    · rw [there]
      rfl
    · exact before
  · exact held

theorem collectRtpStats_isSome {m : Sources} {hdr : RtpHeader} {arrivalMs : UInt64}
    (held : ((m.collectRtpStats hdr arrivalMs).table.lookup ssrc).isSome) :
    (m.table.lookup ssrc).isSome ∨ hdr.ssrc = ssrc ∧ isRtxPt hdr.pt = false := by
  unfold Sources.collectRtpStats at held
  cases rtx : isRtxPt hdr.pt with
  | true =>
    rw [if_pos rtx] at held
    exact .inl held
  | false =>
    rw [if_neg (by rw [rtx]; decide)] at held
    simp only at held
    split at held
    · simp only [Sources.modify] at held
      exact .inl (modify_isSome held)
    · rcases insert_isSome held with rfl | before
      · exact .inr ⟨rfl, rfl⟩
      · exact .inl before

theorem tick_isSome {m : Sources} {ready : Bool} {address : Option SocketAddr} {now : Instant}
    (held : ((sendRtcpReports m ready address now).1.table.lookup ssrc).isSome) :
    (m.table.lookup ssrc).isSome := by
  have snapshots : ((takeSnapshots m now).table.lookup ssrc).isSome = (m.table.lookup ssrc).isSome := by
    simp [takeSnapshots, Sources.mapValues]
  unfold sendRtcpReports at held
  split at held
  · exact held
  · rw [← snapshots]
    simp only at held
    split at held <;> exact held

/-- Only a packet opens a source. -/
theorem step_sources (m : Sources) (e : ReportTicks.Event)
    (held : ((ReportTicks.step m e).table.lookup ssrc).isSome) :
    (m.table.lookup ssrc).isSome ∨
      ∃ hdr arrivalMs, e = .packet hdr arrivalMs ∧ hdr.ssrc = ssrc ∧ isRtxPt hdr.pt = false := by
  cases e with
  | packet hdr arrivalMs =>
    rcases collectRtpStats_isSome held with before | ⟨here, media⟩
    · exact .inl before
    · exact .inr ⟨hdr, arrivalMs, rfl, here, media⟩
  | senderReport srBlock now =>
    exact .inl (consumeSr_isSome held)
  | visitFirst first => exact .inl (visitFirst_isSome held)
  | tick ready address now => exact .inl (tick_isSome held)

theorem sendRtcpReports_some {m : Sources} {ready : Bool} {address : Option SocketAddr} {now : Instant}
    {bytes : Bytes} (sent : (sendRtcpReports m ready address now).2 = some bytes) :
    bytes = buildReceiverReport serverSsrc (blocksOf m now) := by
  unfold sendRtcpReports at sent
  split at sent
  · simp at sent
  · simp only at sent
    split at sent
    · simp at sent
    · exact (Option.some.inj sent).symm

/-- Neither feedback nor a hint reads as a receiver report. -/
theorem parsed_type {bytes : Bytes} {report : UInt32 × List RrReportBlock}
    (parsed : parseReceiverReport bytes = some report) : byteAt bytes 1 = rtcpPtRr := by
  unfold parseReceiverReport at parsed
  simp only at parsed
  split at parsed
  · rename_i header
    exact header.2.1
  · simp at parsed

theorem feedback_type {r : Recorder} {mediaSsrc : UInt32} {bytes : Bytes}
    (built : (buildTwccFeedback r mediaSsrc).2 = some bytes) : byteAt bytes 1 = rtcpPtRtpfb := by
  obtain ⟨baseTime, firstArrival, facts⟩ := built_of_some built
  rw [facts.bytes, packetOf, assemble_eq]
  exact (packet_fields ..).2.1

/-- A report names sources of the monitor, each once. -/
theorem emitted_report {m : Monitor} {n : Note} {bytes : Bytes} {sender : UInt32}
    {blocks : List RrReportBlock} (sent : emitted m n = some bytes)
    (parsed : parseReceiverReport bytes = some (sender, blocks)) :
    sender = serverSsrc ∧ (blocks.map fun block => block.ssrc).Nodup ∧
      ∀ block ∈ blocks, (m.recvStats.table.lookup block.ssrc).isSome := by
  cases n with
  | source e =>
    cases e with
    | tick ready address now =>
      obtain ⟨taken, reads, once, own⟩ := built_parsed m.recvStats now
      rw [← sendRtcpReports_some sent, parsed, Option.some.injEq, Prod.mk.injEq] at reads
      obtain ⟨rfl, rfl⟩ := reads
      refine ⟨rfl, once, fun block member => ?_⟩
      obtain ⟨s, _, held, _⟩ := own block member
      rw [held]
      rfl
    | _ => simp [emitted] at sent
  | record op =>
    cases op with
    | feedback mediaSsrc =>
      have type := feedback_type sent
      rw [parsed_type parsed] at type
      exact absurd type (by decide)
    | record twccSeq arrival => simp [emitted] at sent
  | hint rembBitrate mediaSsrc =>
    obtain rfl := Option.some.inj sent
    have type : byteAt (buildRemb rembBitrate mediaSsrc) 1 = rtcpPtPsfb := rfl
    rw [parsed_type parsed] at type
    exact absurd type (by decide)

/-- What was sent, each packet with what it may name. -/
structure Sourced (past : List Note) (s : Solo) : Prop where
  opened : ∀ ssrc, (s.monitor.recvStats.table.lookup ssrc).isSome → CameIn past ssrc
  reported : ∀ bytes ∈ s.sent, ∀ sender blocks, parseReceiverReport bytes = some (sender, blocks) →
    sender = serverSsrc ∧ (blocks.map fun block => block.ssrc).Nodup ∧
      ∀ block ∈ blocks, CameIn past block.ssrc

theorem new_sourced : Sourced [] Solo.new where
  opened ssrc held := by simp [Solo.new, Monitor.new, Sources.empty] at held
  reported bytes member := by simp [Solo.new] at member

theorem soloStep_sourced {s : Solo} (sourced : Sourced past s) (n : Note) :
    Sourced (past ++ [n]) (soloStep s n) where
  opened ssrc held := by
    cases n with
    | source e =>
      rcases step_sources s.monitor.recvStats e held with before | ⟨hdr, arrivalMs, rfl, same, media⟩
      · exact (sourced.opened ssrc before).later _
      · exact ⟨hdr, arrivalMs, List.mem_append_right past List.mem_cons_self, same, media⟩
    | _ => exact (sourced.opened ssrc held).later _
  reported bytes member sender blocks parsed := by
    rcases List.mem_append.mp member with before | now
    · obtain ⟨server, once, own⟩ := sourced.reported bytes before sender blocks parsed
      exact ⟨server, once, fun block inside => (own block inside).later _⟩
    · obtain ⟨server, once, own⟩ := emitted_report (Option.mem_toList.mp now) parsed
      exact ⟨server, once, fun block inside => (sourced.opened _ (own block inside)).later _⟩

theorem run_sourced (notes : List Note) {s : Solo} (sourced : Sourced past s) :
    Sourced (past ++ notes) (run soloStep s notes) := by
  induction notes generalizing past s with
  | nil => rwa [List.append_nil]
  | cons n notes ih =>
    rw [run_cons, List.append_cons]
    exact ih (soloStep_sourced sourced n)

end Sources

section Reports
variable (hmacSha1 : Bytes → Bytes → Bytes) (crc32 : Bytes → UInt32) (shard : SocketAddr → WorkerId)
  (mode : BweMode) (rembBitrate : UInt64)

theorem sent_to {m : Monitored} {p : Ptr} {addr : SocketAddr} {bytes : Bytes}
    (sent : (p, addr, bytes) ∈ m.feedback) : bytes ∈ (view p m).sent :=
  List.mem_map.mpr ⟨(p, addr, bytes), List.mem_filter.mpr ⟨sent, decide_eq_true rfl⟩, rfl⟩

/-- Whatever a participant is sent that reads as a receiver report comes from the server and
    names, each once, sources that it published on itself before, none of them for
    retransmissions. -/
theorem reports_own_sources (es : List Event) :
    ∀ p addr bytes, (p, addr, bytes) ∈ (run (step hmacSha1 crc32 shard mode rembBitrate)
        Monitored.new es).feedback → ∀ sender blocks,
      parseReceiverReport bytes = some (sender, blocks) →
      sender = serverSsrc ∧ (blocks.map fun block => block.ssrc).Nodup ∧ ∀ block ∈ blocks,
        CameIn (story (step hmacSha1 crc32 shard mode rembBitrate) (told shard mode rembBitrate p)
          Monitored.new es) block.ssrc := by
  intro p addr bytes sent sender blocks parsed
  have told := run_refines (monitor_tells hmacSha1 crc32 shard mode rembBitrate p) Monitored.new es
  have inside := sent_to sent
  rw [told] at inside
  exact (run_sourced _ new_sourced).reported bytes inside sender blocks parsed

end Reports

section Rounds
variable {hub : RoomHub} {p : Ptr}

theorem mem_publishersIn {r : RoomId} : p ∈ publishersIn hub r ↔ ∃ u, Member hub r u p := by
  unfold publishersIn Member
  cases held : hub.rooms.lookup r with
  | none => simp
  | some room => simp [mem_values]

theorem mem_publishers : p ∈ publishers hub ↔ ∃ r u, Member hub r u p := by
  simp only [publishers, List.mem_flatMap, mem_publishersIn]
  constructor
  · rintro ⟨r, _, u, here⟩
    exact ⟨r, u, here⟩
  · rintro ⟨r, u, here⟩
    obtain ⟨room, held, _⟩ := id here
    exact ⟨r, AList.mem_keys.mp (AList.lookup_isSome.mp (by rw [held]; rfl)), u, here⟩

/-- Nobody is visited twice in a round. -/
theorem publishers_nodup (sound : WellFormed hub) : (publishers hub).Nodup := by
  rw [publishers, List.nodup_flatMap]
  constructor
  · intro r _
    unfold publishersIn
    cases held : hub.rooms.lookup r with
    | none => exact List.nodup_nil
    | some room =>
      simp only [values_eq]
      exact toList_nodup (participants_injective sound held)
  · refine hub.rooms.keys_nodup.imp fun {r r'} apart p here there => ?_
    obtain ⟨u, here⟩ := mem_publishersIn.mp here
    obtain ⟨u', there⟩ := mem_publishersIn.mp there
    exact apart (sound.once here there).1

/-- Notes for one participant only, out of a list that visits nobody twice. -/
theorem flatMap_own {qs : List Ptr} (once : qs.Nodup) (notes : Ptr → List Note) :
    (qs.flatMap fun q => if q = p then notes q else []) = if p ∈ qs then notes p else [] := by
  induction qs with
  | nil => simp
  | cons q qs ih =>
    rw [List.nodup_cons] at once
    rw [List.flatMap_cons, ih once.2]
    by_cases here : q = p
    · subst here
      simp [once.1]
    · simp [here, Ne.symm here]

/-- Worker 0 is free, and the participant is in a room, with keys and an address to publish
    from. -/
structure Due (m : Monitored) (p : Ptr) : Prop where
  free : (m.transport.workers 0).waiting = none
  member : ∃ r u, Member m.hub r u p
  ready : (m.hub.heap p).isPublishReady = true
  latched : (m.hub.heap p).publish.address.isSome = true

theorem roundTold_due {m : Monitored} (sound : WellFormed m.hub) (due : Due m p)
    (notes : Ptr → ParticipantState → List Note) : roundTold m notes p = notes p (m.hub.heap p) := by
  have free : ¬ (m.transport.workers 0).waiting.isSome = true := by
    rw [due.free]
    decide
  have turn : turnTold m.hub (notes p) p = notes p (m.hub.heap p) := if_pos ⟨due.ready, due.latched⟩
  rw [roundTold, if_neg free, flatMap_own (publishers_nodup sound) fun q => turnTold m.hub (notes q) q,
    if_pos (mem_publishers.mpr due.member), turn]

theorem roundTold_idle {m : Monitored} (idle : ¬ Due m p)
    (notes : Ptr → ParticipantState → List Note) : roundTold m notes p = [] := by
  unfold roundTold
  cases waiting : (m.transport.workers 0).waiting with
  | some held => rfl
  | none =>
    simp only [Option.isSome_none, Bool.false_eq_true, if_false]
    refine List.flatMap_eq_nil_iff.mpr fun q visited => ?_
    split
    · rename_i here
      subst here
      refine if_neg fun both => idle ⟨waiting, mem_publishers.mp visited, both.1, both.2⟩
    · rfl

end Rounds

section Turns
variable (hmacSha1 : Bytes → Bytes → Bytes) (crc32 : Bytes → UInt32) (shard : SocketAddr → WorkerId)
  (mode : BweMode) (rembBitrate : UInt64)

theorem round_transport (m : Monitored)
    (work : Ptr → ParticipantState → Monitor → Monitor × Option Bytes) :
    (round m work).transport = m.transport := by
  unfold round
  split
  · rfl
  · rename_i quiet
    clear quiet
    generalize publishers m.hub = qs
    generalize m.hub = hub
    induction qs generalizing m with
    | nil => rfl
    | cons q qs ih => rw [List.foldl_cons, ih, takeTurn_transport]

theorem step_hub_seated (m : Monitored) (e : Event) (seated : Seated m.hub) :
    Seated (step hmacSha1 crc32 shard mode rembBitrate m e).hub := by
  cases e with
  | transport e clk =>
    exact @lift_invariant _ _ _ _ _ _ Transport.counted _
      (TransportStory.transport_tells hmacSha1 crc32 shard) (fun c => Seated c.server.hub)
      (counted_seated hmacSha1 crc32) m.transport e seated
  | bweTimer =>
    rw [step, Monitored.hub, round_transport]
    exact seated
  | reportTimer now =>
    rw [step, Monitored.hub, round_transport]
    exact seated
  | visitFirst p ssrc => exact seated

theorem run_hub_seated (es : List Event) :
    Seated (run (step hmacSha1 crc32 shard mode rembBitrate) Monitored.new es).hub :=
  @run_invariant _ _ (step hmacSha1 crc32 shard mode rembBitrate) (fun m => Seated m.hub)
    (step_hub_seated hmacSha1 crc32 shard mode rembBitrate) Monitored.new new_seated es

/-- A round of either timer serves everyone who is due exactly once, and nobody else. -/
theorem rounds_serve_once (es : List Event) (p : Ptr) :
    let m := run (step hmacSha1 crc32 shard mode rembBitrate) Monitored.new es
    let after := fun e => view p (step hmacSha1 crc32 shard mode rembBitrate m e)
    (Due m p → after .bweTimer = run soloStep (view p m) (bweNotes mode rembBitrate (m.hub.heap p)) ∧
      ∀ now, after (.reportTimer now) =
        soloStep (view p m) (.source (.tick true (m.hub.heap p).publish.address (now p)))) ∧
      (¬ Due m p → after .bweTimer = view p m ∧ ∀ now, after (.reportTimer now) = view p m) := by
  intro m after
  have sound := (run_hub_seated hmacSha1 crc32 shard mode rembBitrate es).sound
  have tells := fun e => monitor_tells hmacSha1 crc32 shard mode rembBitrate p m e
  constructor
  · intro due
    refine ⟨(tells .bweTimer).trans ?_, fun now => (tells (.reportTimer now)).trans ?_⟩
    · rw [told, roundTold_due sound due]
    · rw [told, roundTold_due sound due, reportNotes, due.ready]
      rfl
  · intro idle
    refine ⟨(tells .bweTimer).trans ?_, fun now => (tells (.reportTimer now)).trans ?_⟩
    · rw [told, roundTold_idle idle, run_nil]
    · rw [told, roundTold_idle idle, run_nil]

end Turns

section Samples
open Servers (sampleHmac sampleOracle keyframePacket)

def clocks : Clocks := ⟨1000, 0, fun _ => 0⟩

/-- A packet of the publisher, in the clear. -/
def heardOn (ssrc : UInt32) : Event :=
  .transport (.datagram (AddressIndex.portAt 5000) (keyframePacket 5 0 ssrc 0)
    { sampleReadings (keyframePacket 5 0 ssrc 0) with
      plain := some (keyframePacket 5 0 ssrc 0)
      header := fun _ same => by rw [← Option.some.inj same] }) clocks

/-- The handshake ends, and a packet comes in. -/
def publishing : List Event :=
  shakingHands.map (.transport · clocks) ++
    [.transport (.established 0 (some sampleMaterial)) clocks, heardOn 11]

def monitored (es : List Event) : Monitored :=
  run (step sampleHmac (fun _ => 0) (fun _ => 0) .twcc 0) .new es

/-- Whom each message goes to, and the sources it reports on. -/
def namedIn (feedback : List (Ptr × SocketAddr × Bytes)) : List (Ptr × Option (List UInt32)) :=
  feedback.map fun f => (f.1, (parseReceiverReport f.2.2).map fun r => r.2.map (·.ssrc))

theorem reads_report {feedback : List (Ptr × SocketAddr × Bytes)} {p : Ptr} {named : List UInt32}
    {rest : List (Ptr × Option (List UInt32))} (reads : namedIn feedback = (p, some named) :: rest) :
    ∃ addr bytes sender blocks, (p, addr, bytes) ∈ feedback ∧
      parseReceiverReport bytes = some (sender, blocks) ∧ blocks.map (·.ssrc) = named := by
  obtain ⟨⟨q, addr, bytes⟩, others, rfl, first, _⟩ := List.map_eq_cons_iff.mp reads
  simp only [Prod.mk.injEq, Option.map_eq_some_iff] at first
  obtain ⟨rfl, ⟨sender, blocks⟩, parsed, same⟩ := first
  exact ⟨addr, bytes, sender, blocks, List.mem_cons_self, parsed, same⟩

theorem named_reported :
    namedIn (monitored (publishing ++ [.reportTimer fun _ => 0])).feedback = [(0, some [11])] := by
  decide +kernel

theorem ann_reported : ∃ addr bytes blocks,
    (0, addr, bytes) ∈ (monitored (publishing ++ [.reportTimer fun _ => 0])).feedback ∧
    parseReceiverReport bytes = some (serverSsrc, blocks) ∧ blocks.map (·.ssrc) = [11] ∧
    ∀ block ∈ blocks, CameIn (story (step sampleHmac (fun _ => 0) (fun _ => 0) .twcc 0)
      (told (fun _ => 0) .twcc 0 0) Monitored.new (publishing ++ [.reportTimer fun _ => 0])) block.ssrc := by
  obtain ⟨addr, bytes, sender, blocks, sent, parsed, named⟩ := reads_report named_reported
  have sources := reports_own_sources sampleHmac (fun _ => 0) (fun _ => 0) .twcc 0
    (publishing ++ [.reportTimer fun _ => 0])
  generalize publishing ++ [.reportTimer fun _ => 0] = es at sources sent ⊢
  unfold monitored at sent
  obtain ⟨same, _, own⟩ := sources 0 addr bytes sent sender blocks parsed
  exact ⟨addr, bytes, blocks, sent, same ▸ parsed, named, own⟩

theorem ann_due : Due (monitored publishing) 0 where
  free := by decide +kernel
  member := ⟨"room", "ann", Option.bind_eq_some_iff.mp
    (show ((monitored publishing).hub.rooms.lookup "room").bind (·.participants.lookup "ann") = some 0 by
      decide +kernel)⟩
  ready := by decide +kernel
  latched := by decide +kernel

theorem ann_served : (view 0 (monitored (publishing ++ [.reportTimer fun _ => 0]))).sent.length = 1 ∧
    view 0 (monitored (publishing ++ [.reportTimer fun _ => 0])) = soloStep (view 0 (monitored publishing))
      (.source (.tick true ((monitored publishing).hub.heap 0).publish.address 0)) := by
  refine ⟨by decide +kernel, ?_⟩
  have served := ((rounds_serve_once sampleHmac (fun _ => 0) (fun _ => 0) .twcc 0 publishing 0).1
    ann_due).2 fun _ => 0
  rw [monitored, StepRefinement.run_append]
  exact served

end Samples
end Reception
