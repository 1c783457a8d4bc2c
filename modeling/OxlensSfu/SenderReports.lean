import OxlensSfu.RtcpCompound
import OxlensSfu.VirtualSsrcs

/-
Sender reports on their way from a publisher to its subscribers. A report is translated by
what its publisher's state says; the media that it is about passes the rewriters of the
subscribers, each with an offset of its own.
-/
namespace SenderReports
open WireBytes SfuConfig RtpPacket PttRewriter KeyedMap Participants RoomHubs RoomHub Signaling
open RoomHandlers TrackHandlers Ingress Servers RtcpCompound Membership Seating GuardedRun
open Catalog LayerFrames CatalogFrames VirtualSsrcs
open FloorControl (UserId currentSpeaker)

/-- What replaces the fields of a report; `none` keeps a field. -/
structure SrTranslation where
  ssrc : Option UInt32
  rtpTs : Option UInt32
  packetCount : UInt32
  octetCount : UInt32
  deriving DecidableEq, Repr

def translateSr (srBlock : Bytes) (tr : SrTranslation) : Option Bytes :=
  if srBlock.length < 28 then none
  else if byteAt srBlock 1 ≠ rtcpPtSr then none
  else
    let labelled := match tr.ssrc with
      | some ssrc => overwrite srBlock 4 (bytes32 ssrc)
      | none => srBlock
    let timed := match tr.rtpTs with
      | some rtpTs => overwrite labelled 16 (bytes32 rtpTs)
      | none => labelled
    some (overwrite (overwrite timed 20 (bytes32 tr.packetCount)) 24 (bytes32 tr.octetCount))

def translateRtpTs (r : Rewriter) (originalRtpTs : UInt32) : Option UInt32 :=
  if r.state.speaker.isNone || r.state.awaitingFirstPacket then none
  else some (virtualTs r.state originalRtpTs)

/-- Some track of the participant has the SSRC and is of this kind. -/
def hasTrack (s : ParticipantState) (ssrc : UInt32) (kind : TrackKind) : Bool :=
  s.tracks.any fun t => t.ssrc == ssrc && t.kind == kind

def pubSsrcOf (srBlock : Bytes) : UInt32 := if 8 ≤ srBlock.length then u32At srBlock 4 else 0

def originalRtpTsOf (srBlock : Bytes) : UInt32 :=
  if 20 ≤ srBlock.length then u32At srBlock 16 else 0

/-- `sent` is the target's count of the packets and bytes sent on an SSRC. -/
def buildSrTranslation (room : Room) (s : ParticipantState) (draw : NonzeroSsrc)
    (sent : UInt32 → UInt32 × UInt32) (srBlock : Bytes) : ParticipantState × SrTranslation :=
  let pubSsrc := pubSsrcOf srBlock
  if room.mode = .ptt then
    let rewriter := if hasTrack s pubSsrc .audio then room.audioRewriter else room.videoRewriter
    (s, ⟨some rewriter.virtualSsrc, translateRtpTs rewriter (originalRtpTsOf srBlock),
      (sent rewriter.virtualSsrc).1, (sent rewriter.virtualSsrc).2⟩)
  else if room.simulcastEnabled && hasTrack s pubSsrc .video then
    let (drawn, vssrc) := s.ensureSimulcastVideoSsrc draw
    (drawn, ⟨some vssrc, none, (sent vssrc).1, (sent vssrc).2⟩)
  else (s, ⟨none, none, (sent pubSsrc).1, (sent pubSsrc).2⟩)

/-- A report of the publisher, and what is handed to the target's queue for it. -/
structure RelayedReport where
  target : Ptr
  block : Bytes
  out : Bytes
  deriving DecidableEq, Repr

section Relay
variable (room : Room) (sender : Ptr) (draw : NonzeroSsrc) (sent : Ptr → UInt32 → UInt32 × UInt32)
  (srBlocks relayBlocks : List Bytes)

def translateBlock (target : Ptr) (state : Heap × List RelayedReport) (srBlock : Bytes) :
    Heap × List RelayedReport :=
  let (s, tr) := buildSrTranslation room (state.1 sender) draw (sent target) srBlock
  (mutate state.1 sender fun _ => s,
    state.2 ++ [⟨target, srBlock, (translateSr srBlock tr).getD srBlock⟩])

/-- One turn of the loop over the room. No reports are relayed in a push-to-talk room. -/
def relayToTarget (state : Heap × List RelayedReport) (target : Ptr) : Heap × List RelayedReport :=
  if !(state.1 target).isSubscribeReady then state
  else
    let (heap, reports) := if room.mode = .ptt then (state.1, [])
      else srBlocks.foldl (translateBlock room sender draw sent target) (state.1, [])
    let slices := reports.map (·.out) ++ relayBlocks
    if slices.isEmpty then (heap, state.2 ++ reports)
    else (mutate heap target fun s => s.trySend (.rtcp (assembleCompound slices)),
      state.2 ++ reports)

def relayPublishRtcpTranslated (heap : Heap) (senderId : UserId) : Heap × List RelayedReport :=
  if room.mode = .ptt ∧ currentSpeaker room.floor ≠ some senderId then (heap, [])
  else (room.otherParticipants senderId).foldl
    (relayToTarget room sender draw sent srBlocks relayBlocks) (heap, [])

end Relay

/-- The reports and the feedback of a publisher's compound packet; its MBCP messages are
    events of their own, which come before. -/
def processPublishRtcp (hub : RoomHub) (remote : SocketAddr) (buf : Bytes) (touchMs : Nat)
    (draw : NonzeroSsrc) (sent : Ptr → UInt32 → UInt32 × UInt32) : RoomHub × List RelayedReport :=
  match hub.findByAddr remote with
  | none => (hub, [])
  | some (sender, pc, roomId) =>
    let touched := hub.touch sender touchMs
    match hub.rooms.lookup roomId with
    | none => (touched, [])
    | some room =>
      if pc = .publish ∧ (hub.heap sender).isPublishReady ∧ isRtcp buf then
        let parsed := splitCompoundRtcp buf
        let srData := parsed.srBlocks.map (RtcpCompound.slice buf)
        let relayData := parsed.relayBlocks.map (RtcpCompound.slice buf)
        if !srData.isEmpty || !relayData.isEmpty then
          let (heap, reports) := relayPublishRtcpTranslated room sender draw sent srData relayData
            touched.heap (hub.arcs sender).userId
          ({ touched with heap := heap }, reports)
        else (touched, [])
      else (touched, [])

/-- The events of the server, and compound packets of publishers. -/
inductive ReportEvent where
  | server (e : Servers.Event)
  | publishRtcp (remote : SocketAddr) (buf : Bytes) (touchMs : Nat) (draw : NonzeroSsrc)
      (sent : Ptr → UInt32 → UInt32 × UInt32)

def step (hmacSha1 : Bytes → Bytes → Bytes) (crc32 : Bytes → UInt32) (s : Server) :
    ReportEvent → Server
  | .server e => Servers.step hmacSha1 crc32 s e
  | .publishRtcp remote buf touchMs draw sent =>
    { s with hub := (processPublishRtcp s.hub remote buf touchMs draw sent).1 }

/-- A packet of the source that is no keyframe, so that a rewriter which forwards it does so
    with the offsets it has. In a simulcast room a video source sends video packets. -/
structure MediaOf (room : Room) (s : ParticipantState) (ssrc ts : UInt32) (p : Bytes) : Prop where
  whole : rtpHeaderMinSize ≤ p.length
  source : u32At p 8 = ssrc
  stamp : u32At p 4 = ts
  delta : isKeyframe (parseRtpHeader p) p = false
  kind : room.simulcastEnabled = true →
    isVideoPt (parseRtpHeader p).pt = hasTrack s ssrc .video

/-- A packet that its source sends at the time of the report is forwarded to the target
    under the SSRC and the timestamp that the report was given. -/
def AgreesWithMedia (hub : RoomHub) (r : RoomId) (room : Room) (sender : Ptr)
    (report : RelayedReport) : Prop :=
  ∀ p o, MediaOf room (hub.heap sender) (u32At report.block 4) (u32At report.block 16) p →
    ∃ f ∈ (fanout hub r room (hub.arcs sender).userId sender (parseRtpHeader p) p p o).2,
      report.target ∈ f.targets ∧ u32At f.out 8 = u32At report.out 4 ∧
        u32At f.out 4 = u32At report.out 16

/-- The entry forwards the layer of the source, and as yet with its own timestamps. -/
def Unshifted (s : ParticipantState) (ssrc : UInt32) (entry : Option SubscribeLayerEntry) : Prop :=
  ∃ e, entry = some e ∧ sourceRid s ssrc = some e.rid ∧ e.rid ≠ "pause" ∧
    e.rewriter.initialized = true ∧ e.rewriter.pendingKeyframe = false ∧ e.rewriter.tsOffset = 0

section Translation
variable {srBlock : Bytes} {tr : SrTranslation}

/-- The two fields that tie a report to a stream, and its counts. -/
theorem translateSr_fields (long : 28 ≤ srBlock.length) (report : byteAt srBlock 1 = rtcpPtSr) :
    ∃ out, translateSr srBlock tr = some out ∧
      u32At out 4 = tr.ssrc.getD (u32At srBlock 4) ∧
      u32At out 16 = tr.rtpTs.getD (u32At srBlock 16) ∧
      u32At out 20 = tr.packetCount ∧ u32At out 24 = tr.octetCount := by
  rw [translateSr, if_neg (Nat.not_lt.mpr long), if_neg (not_not.mpr report)]
  obtain ⟨labelled, marked, same, ssrc, ts⟩ : ∃ labelled, labelled = (match tr.ssrc with
      | some ssrc => overwrite srBlock 4 (bytes32 ssrc)
      | none => srBlock) ∧ labelled.length = srBlock.length ∧
        u32At labelled 4 = tr.ssrc.getD (u32At srBlock 4) ∧
        u32At labelled 16 = u32At srBlock 16 := by
    refine ⟨_, rfl, ?_⟩
    cases tr.ssrc with
    | none => exact ⟨rfl, rfl, rfl⟩
    | some ssrc =>
      have fits : 4 + (bytes32 ssrc).length ≤ srBlock.length := by
        rw [length_bytes32]
        omega
      exact ⟨length_overwrite fits, u32At_overwrite ssrc (by omega),
        u32At_overwrite_outside fits (.inr (by simp))⟩
  obtain ⟨timed, clocked, length, source, stamp⟩ : ∃ timed, timed = (match tr.rtpTs with
      | some rtpTs => overwrite labelled 16 (bytes32 rtpTs)
      | none => labelled) ∧ timed.length = srBlock.length ∧ u32At timed 4 = u32At labelled 4 ∧
        u32At timed 16 = tr.rtpTs.getD (u32At srBlock 16) := by
    refine ⟨_, rfl, ?_⟩
    cases tr.rtpTs with
    | none => exact ⟨same, rfl, ts⟩
    | some rtpTs =>
      have fits : 16 + (bytes32 rtpTs).length ≤ labelled.length := by
        rw [length_bytes32]
        omega
      exact ⟨(length_overwrite fits).trans same, u32At_overwrite_outside fits (.inl (by omega)),
        u32At_overwrite rtpTs (by omega)⟩
  simp only [← marked, ← clocked]
  have counted : 20 + (bytes32 tr.packetCount).length ≤ timed.length := by
    rw [length_bytes32]
    omega
  have closed : 24 + (bytes32 tr.octetCount).length ≤
      (overwrite timed 20 (bytes32 tr.packetCount)).length := by
    rw [length_overwrite counted, length_bytes32]
    omega
  have total : (overwrite timed 20 (bytes32 tr.packetCount)).length = timed.length := length_overwrite counted
  refine ⟨_, rfl, ?_, ?_, ?_, ?_⟩
  · rw [u32At_overwrite_outside closed (.inl (by omega)),
      u32At_overwrite_outside counted (.inl (by omega)), source, ssrc]
  · rw [u32At_overwrite_outside closed (.inl (by omega)),
      u32At_overwrite_outside counted (.inl (by omega)), stamp]
  · rw [u32At_overwrite_outside closed (.inl (by omega)), u32At_overwrite _ (by omega)]
  · rw [u32At_overwrite _ (by omega)]

variable (room : Room) (draw : NonzeroSsrc) (sent : UInt32 → UInt32 × UInt32)

theorem buildSrTranslation_state (s : ParticipantState) :
    (buildSrTranslation room s draw sent srBlock).1 = s ∨
      (buildSrTranslation room s draw sent srBlock).1 = (s.ensureSimulcastVideoSsrc draw).1 := by
  unfold buildSrTranslation
  simp only
  split
  · exact .inl rfl
  split
  · exact .inr rfl
  · exact .inl rfl

/-- A translation reads the tracks and the virtual SSRC of the publisher. -/
theorem buildSrTranslation_congr {s t : ParticipantState} (tracks : s.tracks = t.tracks)
    (vssrc : (s.ensureSimulcastVideoSsrc draw).2 = (t.ensureSimulcastVideoSsrc draw).2) :
    (buildSrTranslation room s draw sent srBlock).2 =
      (buildSrTranslation room t draw sent srBlock).2 := by
  have same : ∀ kind, hasTrack s (pubSsrcOf srBlock) kind = hasTrack t (pubSsrcOf srBlock) kind := by
    intro kind
    simp only [hasTrack, tracks]
  simp only [buildSrTranslation, same, vssrc]
  by_cases mode : room.mode = .ptt
  · simp only [if_pos mode]
  · simp only [if_neg mode]
    by_cases layered : (room.simulcastEnabled && hasTrack t (pubSsrcOf srBlock) .video) = true
    · simp only [if_pos layered]
    · simp only [if_neg layered]

/-- Outside push-to-talk no timestamp is replaced, and the SSRC only for a layer. -/
theorem buildSrTranslation_conference {s : ParticipantState} (notPtt : room.mode ≠ .ptt) :
    (buildSrTranslation room s draw sent srBlock).2.rtpTs = none ∧
      (buildSrTranslation room s draw sent srBlock).2.ssrc =
        if room.simulcastEnabled && hasTrack s (pubSsrcOf srBlock) .video then
          some (s.ensureSimulcastVideoSsrc draw).2
        else none := by
  simp only [buildSrTranslation, if_neg notPtt]
  split
  · exact ⟨rfl, rfl⟩
  · exact ⟨rfl, rfl⟩

end Translation

/-- What a relayed report leaves alone. -/
def audience (s : ParticipantState) :
    List Track × Table UserId SubscribeLayerEntry × Bool × (PcType → Option SocketAddr) :=
  (s.tracks, s.subscribeLayers, s.isSubscribeReady, addresses s)

/-- The heap inside the relay loop: at most, the publisher's virtual SSRC has been drawn. -/
structure Relaying (heap : Heap) (sender : Ptr) (draw : NonzeroSsrc) (h : Heap) : Prop where
  shown : Shows audience heap h
  others : ∀ q, q ≠ sender → (h q).simulcastVideoSsrc = (heap q).simulcastVideoSsrc
  own : (h sender).simulcastVideoSsrc = (heap sender).simulcastVideoSsrc ∨
    (h sender).simulcastVideoSsrc = ((heap sender).ensureSimulcastVideoSsrc draw).2

namespace Relaying
variable {heap h : Heap} {sender : Ptr} {draw : NonzeroSsrc}

theorem start (heap : Heap) (sender : Ptr) (draw : NonzeroSsrc) : Relaying heap sender draw heap :=
  ⟨.refl audience heap, fun _ _ => rfl, .inl rfl⟩

theorem fields (relaying : Relaying heap sender draw h) (q : Ptr) :
    (h q).tracks = (heap q).tracks ∧ (h q).subscribeLayers = (heap q).subscribeLayers ∧
      (h q).isSubscribeReady = (heap q).isSubscribeReady ∧ addresses (h q) = addresses (heap q) := by
  have same := relaying.shown q
  simp only [audience, Prod.mk.injEq] at same
  exact same

theorem value (relaying : Relaying heap sender draw h) :
    ((h sender).ensureSimulcastVideoSsrc draw).2 = ((heap sender).ensureSimulcastVideoSsrc draw).2 := by
  rcases relaying.own with same | drawn
  · rw [ensure_value, ensure_value, same]
  · have some_ : (h sender).simulcastVideoSsrc ≠ 0 := by
      rw [drawn, ensure_snd]
      exact ensure_nonzero _ _
    rw [ensure_value, if_pos some_, drawn]

theorem drawn (relaying : Relaying heap sender draw h) (q : Ptr)
    (before : (heap q).simulcastVideoSsrc ≠ 0) :
    (h q).simulcastVideoSsrc = (heap q).simulcastVideoSsrc := by
  by_cases here : q = sender
  · subst here
    rcases relaying.own with same | drawn
    · exact same
    · rw [drawn, ensure_value, if_pos before]
  · exact relaying.others q here

theorem publisher (relaying : Relaying heap sender draw h) {s : ParticipantState}
    (next : s = h sender ∨ s = ((h sender).ensureSimulcastVideoSsrc draw).1) :
    Relaying heap sender draw (mutate h sender fun _ => s) := by
  rcases next with same | drawn
  · subst same
    have still : mutate h sender (fun _ => h sender) = h := by
      funext q
      by_cases here : q = sender
      · subst here
        exact mutate_self _ _ _
      · exact mutate_ne _ here
    rw [still]
    exact relaying
  · subst drawn
    refine ⟨relaying.shown.trans (.mutate (view_ensure (fun _ _ => rfl) _ _)), ?_, ?_⟩
    · intro q other
      rw [mutate_ne _ other]
      exact relaying.others q other
    · rw [mutate_self, ← ensure_snd, relaying.value]
      exact .inr rfl

theorem queued (relaying : Relaying heap sender draw h) (target : Ptr) (pkt : EgressPacket) :
    Relaying heap sender draw (mutate h target fun s => s.trySend pkt) := by
  have hidden : Shows (·.simulcastVideoSsrc) h (mutate h target fun s => s.trySend pkt) :=
    .mutate (view_trySend (fun _ _ => rfl) _ pkt)
  have vssrc : ∀ q, (mutate h target (fun s => s.trySend pkt) q).simulcastVideoSsrc =
      (h q).simulcastVideoSsrc := hidden
  refine ⟨relaying.shown.trans (.mutate (view_trySend (fun _ _ => rfl) _ pkt)), ?_, ?_⟩
  · intro q other
    rw [vssrc q]
    exact relaying.others q other
  · rw [vssrc sender]
    exact relaying.own

end Relaying

section Relay
variable {room : Room} {heap : Heap} {sender : Ptr} {draw : NonzeroSsrc}
  {sent : Ptr → UInt32 → UInt32 × UInt32}

/-- A report that is handed on is the translation of a block for its target. -/
structure Translated (room : Room) (heap : Heap) (sender : Ptr) (draw : NonzeroSsrc)
    (sent : Ptr → UInt32 → UInt32 × UInt32) (report : RelayedReport) : Prop where
  mode : room.mode ≠ .ptt
  ready : (heap report.target).isSubscribeReady = true
  out : report.out = (translateSr report.block (buildSrTranslation room (heap sender) draw
    (sent report.target) report.block).2).getD report.block

theorem translateBlocks_spec (target : Ptr) (srBlocks : List Bytes)
    (state : Heap × List RelayedReport) (relaying : Relaying heap sender draw state.1) :
    let done := srBlocks.foldl (translateBlock room sender draw sent target) state
    Relaying heap sender draw done.1 ∧ ∀ report ∈ done.2, report ∈ state.2 ∨
      (report.target = target ∧ report.block ∈ srBlocks ∧
        report.out = (translateSr report.block (buildSrTranslation room (heap sender) draw
          (sent target) report.block).2).getD report.block) := by
  induction srBlocks generalizing state with
  | nil => exact ⟨relaying, fun _ member => .inl member⟩
  | cons block srBlocks ih =>
    have next : Relaying heap sender draw
        (translateBlock room sender draw sent target state block).1 :=
      relaying.publisher (buildSrTranslation_state room draw (sent target) _)
    obtain ⟨done, explained⟩ := ih _ next
    refine ⟨done, ?_⟩
    intro report member
    rcases explained report member with before | ⟨own, inside, out⟩
    · rcases List.mem_append.mp before with old | new
      · exact .inl old
      · have same := @buildSrTranslation_congr block room draw (sent target) _ _ (relaying.fields sender).1
          relaying.value
        obtain rfl := List.mem_singleton.mp new
        exact .inr ⟨rfl, List.mem_cons_self,
          congrArg (fun tr => (translateSr block tr).getD block) same⟩
    · exact .inr ⟨own, List.mem_cons_of_mem _ inside, out⟩

theorem relayToTarget_spec (srBlocks relayBlocks : List Bytes)
    (state : Heap × List RelayedReport) (target : Ptr)
    (relaying : Relaying heap sender draw state.1) :
    let done := relayToTarget room sender draw sent srBlocks relayBlocks state target
    Relaying heap sender draw done.1 ∧ ∀ report ∈ done.2, report ∈ state.2 ∨
      (report.target = target ∧ report.block ∈ srBlocks ∧
        Translated room heap sender draw sent report) := by
  unfold relayToTarget
  split
  · exact ⟨relaying, fun _ member => .inl member⟩
  rename_i ready
  rw [Bool.not_eq_true', Bool.not_eq_false] at ready
  have there : (heap target).isSubscribeReady = true := by
    rw [← (relaying.fields target).2.2.1]
    exact ready
  obtain ⟨translated, translated_, done, explained⟩ : ∃ translated, translated = (if room.mode = .ptt then
      (state.1, []) else srBlocks.foldl (translateBlock room sender draw sent target)
        (state.1, [])) ∧ Relaying heap sender draw translated.1 ∧ ∀ report ∈ translated.2,
      report.target = target ∧ report.block ∈ srBlocks ∧
        Translated room heap sender draw sent report := by
    refine ⟨_, rfl, ?_⟩
    split
    · exact ⟨relaying, fun _ none_ => by simp at none_⟩
    · rename_i mode
      obtain ⟨done, explained⟩ := @translateBlocks_spec room heap sender draw sent target srBlocks
        (state.1, []) relaying
      refine ⟨done, fun report member => ?_⟩
      rcases explained report member with none_ | ⟨own, inside, out⟩
      · simp at none_
      · exact ⟨own, inside, mode, by rw [own]; exact there, by rw [own]; exact out⟩
  have all : ∀ report ∈ state.2 ++ translated.2, report ∈ state.2 ∨ (report.target = target ∧
      report.block ∈ srBlocks ∧ Translated room heap sender draw sent report) := by
    intro report member
    rcases List.mem_append.mp member with old | new
    · exact .inl old
    · exact .inr (explained report new)
  simp only [← translated_]
  split
  · exact ⟨done, all⟩
  · exact ⟨done.queued target _, all⟩

/-- The loop over the room draws at most the publisher's virtual SSRC. -/
theorem relayed_spec (srBlocks relayBlocks : List Bytes) (heap : Heap) (senderId : UserId) :
    let done := relayPublishRtcpTranslated room sender draw sent srBlocks relayBlocks heap senderId
    Relaying heap sender draw done.1 ∧ ∀ report ∈ done.2,
      report.target ∈ room.otherParticipants senderId ∧ report.block ∈ srBlocks ∧
        Translated room heap sender draw sent report := by
  have all : ∀ (targets : List Ptr) (state : Heap × List RelayedReport),
      Relaying heap sender draw state.1 →
      let done := targets.foldl (relayToTarget room sender draw sent srBlocks relayBlocks) state
      Relaying heap sender draw done.1 ∧ ∀ report ∈ done.2, report ∈ state.2 ∨
        (report.target ∈ targets ∧ report.block ∈ srBlocks ∧
          Translated room heap sender draw sent report) := by
    intro targets
    induction targets with
    | nil => exact fun _ relaying => ⟨relaying, fun _ member => .inl member⟩
    | cons t targets ih =>
      intro state relaying
      obtain ⟨next, here⟩ := relayToTarget_spec srBlocks relayBlocks state t relaying
      obtain ⟨done, explained⟩ := ih _ next
      refine ⟨done, ?_⟩
      intro report member
      rcases explained report member with before | ⟨later, inside, translated⟩
      · rcases here report before with old | ⟨own, inside, translated⟩
        · exact .inl old
        · exact .inr ⟨by rw [own]; exact List.mem_cons_self, inside, translated⟩
      · exact .inr ⟨List.mem_cons_of_mem _ later, inside, translated⟩
  unfold relayPublishRtcpTranslated
  split
  · exact ⟨.start heap sender draw, fun _ none_ => by simp at none_⟩
  · obtain ⟨done, explained⟩ := all (room.otherParticipants senderId) (heap, [])
      (.start heap sender draw)
    refine ⟨done, fun report member => ?_⟩
    rcases explained report member with none_ | found
    · simp at none_
    · exact found

end Relay

section Handler
variable {hub : RoomHub} {remote : SocketAddr} {buf : Bytes} {touchMs : Nat} {draw : NonzeroSsrc}
  {sent : Ptr → UInt32 → UInt32 × UInt32}

/-- A compound packet of a publisher changes the heap, and there only as the relay does. -/
theorem processPublishRtcp_spec :
    (processPublishRtcp hub remote buf touchMs draw sent = (hub, [])) ∨
    ∃ sender pc r, hub.findByAddr remote = some (sender, pc, r) ∧
      ∃ heap, Relaying (hub.touch sender touchMs).heap sender draw heap ∧
        (processPublishRtcp hub remote buf touchMs draw sent).1 = { hub with heap := heap } ∧
        ∀ report ∈ (processPublishRtcp hub remote buf touchMs draw sent).2,
          ∃ room, hub.rooms.lookup r = some room ∧
            report.target ∈ room.otherParticipants (hub.arcs sender).userId ∧
            byteAt report.block 1 = rtcpPtSr ∧
            Translated room (hub.touch sender touchMs).heap sender draw sent report := by
  unfold processPublishRtcp
  cases found : hub.findByAddr remote with
  | none => exact .inl rfl
  | some sought =>
    obtain ⟨sender, pc, r⟩ := sought
    refine .inr ⟨sender, pc, r, rfl, ?_⟩
    simp only
    have touched := Relaying.start (hub.touch sender touchMs).heap sender draw
    cases held : hub.rooms.lookup r with
    | none => exact ⟨_, touched, rfl, fun _ none_ => by simp at none_⟩
    | some room =>
      simp only
      split
      · split
        · obtain ⟨relaying, explained⟩ := @relayed_spec room sender draw sent
            ((splitCompoundRtcp buf).srBlocks.map (RtcpCompound.slice buf))
            ((splitCompoundRtcp buf).relayBlocks.map (RtcpCompound.slice buf))
            (hub.touch sender touchMs).heap (hub.arcs sender).userId
          refine ⟨_, relaying, rfl, fun report member => ⟨room, rfl, ?_⟩⟩
          obtain ⟨target, inside, translated⟩ := explained report member
          obtain ⟨ref, classified, sliced⟩ := List.mem_map.mp inside
          obtain ⟨bounds, kind⟩ := (split_typed buf).senderReports ref classified
          refine ⟨target, ?_, translated⟩
          rw [← sliced, byteAt_slice (Nat.lt_of_lt_of_le (by omega) bounds.header)]
          exact kind
        · exact ⟨_, touched, rfl, fun _ none_ => by simp at none_⟩
      · exact ⟨_, touched, rfl, fun _ none_ => by simp at none_⟩

variable (hub remote buf touchMs draw sent)

theorem processPublishRtcp_seated (seated : Seated hub) :
    Seated (processPublishRtcp hub remote buf touchMs draw sent).1 := by
  rcases @processPublishRtcp_spec hub remote buf touchMs draw sent with
    same | ⟨sender, pc, r, _, heap, relaying, next, _⟩
  · rw [same]
    exact seated
  · rw [next]
    have touched : Seated (hub.touch sender touchMs) :=
      seated.of_heap (addresses_touch hub sender touchMs)
    exact touched.of_heap fun q => (relaying.fields q).2.2.2

theorem processPublishRtcp_aligned (aligned : Aligned hub) :
    Aligned (processPublishRtcp hub remote buf touchMs draw sent).1 := by
  rcases @processPublishRtcp_spec hub remote buf touchMs draw sent with
    same | ⟨sender, pc, r, _, heap, relaying, next, _⟩
  · rw [same]
    exact aligned
  · rw [next]
    have touched : Aligned (hub.touch sender touchMs) :=
      aligned.faded id (touch_faded hub sender touchMs)
    apply touched.of_heap relaying.drawn
    · intro r u p t here inside video
      rw [visible, (relaying.fields p).1] at inside
      exact .inl inside
    · intro r u v p q entry here there found
      rw [(relaying.fields p).2.1] at found
      exact .inl ⟨entry, found, rfl⟩

theorem run_reported (hmacSha1 : Bytes → Bytes → Bytes) (crc32 : Bytes → UInt32)
    (es : List ReportEvent) :
    Seated (run (step hmacSha1 crc32) Server.new es).hub ∧
      Aligned (run (step hmacSha1 crc32) Server.new es).hub := by
  refine @run_invariant _ _ (step hmacSha1 crc32) (fun s => Seated s.hub ∧ Aligned s.hub) ?_
    Server.new ⟨new_seated, new_aligned⟩ es
  intro s e good
  cases e with
  | server e =>
    exact ⟨step_seated hmacSha1 crc32 s e good.1, step_aligned hmacSha1 crc32 s e good.1 good.2⟩
  | publishRtcp remote buf touchMs draw sent =>
    exact ⟨processPublishRtcp_seated s.hub remote buf touchMs draw sent good.1,
      processPublishRtcp_aligned s.hub remote buf touchMs draw sent good.2⟩

end Handler

section Media
variable {old : Option SubscribeLayerEntry} {vssrc : UInt32} {rid : String} {p out : Bytes}
  {checked marked : Instant}

/-- A packet that is no keyframe is passed on by an entry that is up and running, with the
    entry's offsets. -/
theorem passLayer_delta (whole : 12 ≤ p.length) :
    (∀ out, (passLayer old vssrc rid false p checked marked).2.1 = some out →
      ∃ e, old = some e ∧ e.rid = rid ∧ rid ≠ "pause" ∧ e.rewriter.initialized = true ∧
        e.rewriter.pendingKeyframe = false ∧ u32At out 4 = u32At p 4 + e.rewriter.tsOffset) ∧
    (∀ e, old = some e → e.rid = rid → rid ≠ "pause" → e.rewriter.initialized = true →
      e.rewriter.pendingKeyframe = false →
      ∃ out, (passLayer old vssrc rid false p checked marked).2.1 = some out ∧
        u32At out 8 = e.rewriter.virtualSsrc ∧
        u32At out 4 = u32At p 4 + e.rewriter.tsOffset) := by
  constructor
  · intro out passed
    obtain ⟨_, _, _, selected, playing⟩ := passLayer_out passed
    unfold passLayer at passed
    simp only at passed
    split at passed
    · simp at passed
    by_cases passes : LayerNumbering.Passes (old.getD ⟨"h", .new vssrc⟩).rewriter p false
    · obtain ⟨out', rewritten, _, stamp, _⟩ := LayerNumbering.rewrite_passes passes
      rw [rewritten, Option.some.injEq] at passed
      have running : ¬((old.getD ⟨"h", .new vssrc⟩).rewriter.initialized = false ∨
          (old.getD ⟨"h", .new vssrc⟩).rewriter.pendingKeyframe = true) :=
        fun waits => Bool.false_ne_true (passes.2 waits)
      rw [not_or, Bool.not_eq_false, Bool.not_eq_true] at running
      rw [passed, LayerNumbering.anchor_running running.1 running.2] at stamp
      cases old with
      | none => simp [SimulcastRewriter.new] at running
      | some e => exact ⟨e, rfl, selected, playing, running.1, running.2, stamp⟩
    · rw [LayerNumbering.rewrite_drops passes] at passed
      simp at passed
  · intro e found selected playing begun running
    subst found
    have passes : LayerNumbering.Passes e.rewriter p false := by
      refine ⟨whole, fun waits => ?_⟩
      rw [begun, running] at waits
      simp at waits
    obtain ⟨out, rewritten, _, stamp, ssrc⟩ := LayerNumbering.rewrite_passes passes
    rw [LayerNumbering.anchor_running begun running] at stamp
    refine ⟨out, ?_, ssrc, stamp⟩
    have forwards : ¬(e.rid = "pause" ∨ rid ≠ e.rid) := by
      rw [not_or, not_not, selected]
      exact ⟨playing, rfl⟩
    simp only [passLayer, Option.getD_some, if_neg forwards, rewritten]

end Media

/-- The header of a video packet and no payload. -/
def bareHeader (ts ssrc : UInt32) : Bytes := [0x80, 96, 0, 0] ++ bytes32 ts ++ bytes32 ssrc

theorem bareHeader_pt (ts ssrc : UInt32) : (parseRtpHeader (bareHeader ts ssrc)).pt = 96 := by
  have whole : 12 ≤ (bareHeader ts ssrc).length := by simp [bareHeader]
  have octet : (96 : UInt8) &&& 0x7F = 96 := by decide
  exact (parse_long whole).1.trans octet

theorem bareHeader_media {room : Room} {s : ParticipantState} {ts ssrc : UInt32}
    (video : hasTrack s ssrc .video = true) : MediaOf room s ssrc ts (bareHeader ts ssrc) where
  whole := by simp [bareHeader, rtpHeaderMinSize]
  source := by simp [u32At, byteAt, bareHeader, bytes32]
  stamp := by simp [u32At, byteAt, bareHeader, bytes32]
  delta := by
    -- There is no payload that could start a frame.
    have empty : rtpPayloadOffset (bareHeader ts ssrc) = none := by
      have plain : hasExtension (bareHeader ts ssrc) = false := by
        show ((0x80 : UInt8) &&& 0x10 != 0) = false
        decide
      have sources : csrcCount (bareHeader ts ssrc) = 0 := by
        show ((0x80 : UInt8) &&& 0x0F).toNat = 0
        decide
      have length : (bareHeader ts ssrc).length = 12 := by simp [bareHeader]
      simp [rtpPayloadOffset, plain, sources, length]
    rw [isKeyframe, bareHeader_pt, if_neg (by decide), isVp8Keyframe, empty]
  kind := by
    intro _
    rw [bareHeader_pt, video]
    decide

section Agreement
variable {hub : RoomHub} {r : RoomId} {room : Room} {sender : Ptr} {report : RelayedReport}

/-- A plain source is forwarded as it is sent. -/
theorem agrees_plain (member : report.target ∈ room.otherParticipants (hub.arcs sender).userId)
    (ready : (hub.heap report.target).isSubscribeReady = true)
    (plain : ¬(room.simulcastEnabled && hasTrack (hub.heap sender) (u32At report.block 4) .video) =
      true)
    (source : u32At report.out 4 = u32At report.block 4)
    (stamp : u32At report.out 16 = u32At report.block 16) :
    AgreesWithMedia hub r room sender report := by
  intro p o media
  have unlayered : ¬(room.simulcastEnabled && isVideoPt (parseRtpHeader p).pt) = true := by
    intro layered
    rw [Bool.and_eq_true] at layered
    rw [Bool.and_eq_true, not_and] at plain
    exact plain layered.1 (by rw [← media.kind layered.1]; exact layered.2)
  simp only [fanout, if_neg unlayered, List.mem_singleton, exists_eq_left]
  refine ⟨List.mem_filter.mpr ⟨member, ready⟩, ?_, ?_⟩
  · rw [media.source, source]
  · rw [media.stamp, stamp]

/-- A layer is forwarded by the entry of the target, with the offset of the entry. -/
theorem agrees_layered (once : Injective room.participants)
    (member : report.target ∈ room.otherParticipants (hub.arcs sender).userId)
    (ready : (hub.heap report.target).isSubscribeReady = true)
    (simulcast : room.simulcastEnabled = true)
    (video : hasTrack (hub.heap sender) (u32At report.block 4) .video = true)
    (labelled : ∀ e, (hub.heap report.target).subscribeLayers.lookup (hub.arcs sender).userId =
      some e → u32At report.out 4 = e.rewriter.virtualSsrc)
    (stamp : u32At report.out 16 = u32At report.block 16) :
    AgreesWithMedia hub r room sender report ↔
      Unshifted (hub.heap sender) (u32At report.block 4)
        ((hub.heap report.target).subscribeLayers.lookup (hub.arcs sender).userId) := by
  constructor
  · intro agrees
    let o : Oracle := sampleOracle 0
    have media := @bareHeader_media room (hub.heap sender) (u32At report.block 16)
      (u32At report.block 4) video
    obtain ⟨f, handed, target, _, same⟩ := agrees _ o media
    obtain ⟨rid, t, checked, marked, tagged, _, _, shape, passed⟩ := fanout_layer room
      (hub.arcs sender).userId sender _ _ once (by rw [simulcast, bareHeader_pt]; rfl) handed
    rw [shape, List.mem_singleton] at target
    subst target
    rw [media.delta] at passed
    obtain ⟨e, found, selected, playing, begun, running, out⟩ := (passLayer_delta media.whole).1 _
      passed
    have source : (parseRtpHeader (bareHeader (u32At report.block 16) (u32At report.block 4))).ssrc =
        u32At report.block 4 := media.source
    rw [source, ← selected] at tagged
    refine ⟨e, found, tagged, by rw [selected]; exact playing, begun, running, ?_⟩
    rw [same, stamp, media.stamp] at out
    exact UInt32.left_eq_add.mp out
  · intro unshifted p o media
    obtain ⟨e, found, tagged, playing, begun, running, offset⟩ := unshifted
    have pt : isVideoPt (parseRtpHeader p).pt = true := by rw [media.kind simulcast, video]
    have header : (parseRtpHeader p).ssrc = u32At report.block 4 :=
      (parse_long media.whole).2.trans media.source
    rw [← header] at tagged
    obtain ⟨checked, marked, _, handed⟩ := (fanoutSimulcast_spec room hub.heap
      (hub.arcs sender).userId sender (parseRtpHeader p) p (o.vssrc sender) (fun n => o.clk (n + 1))
      once tagged report.target).1 ⟨member, ready⟩
    rw [media.delta] at handed
    obtain ⟨out, passed, ssrc, ts⟩ := (passLayer_delta media.whole).2 e found rfl playing begun
      running
    rw [passed] at handed
    have passed_ : (report.target, out) ∈ (fanoutSimulcastVideo room hub.heap
        (hub.arcs sender).userId sender (parseRtpHeader p) p (o.vssrc sender)
        fun n => o.clk (n + 1)).2 := by
      refine List.mem_of_mem_filter (?_ : _ ∈ List.filter (·.1 = report.target) _)
      rw [handed]
      simp
    refine ⟨⟨r, sender, p, out, [report.target]⟩, ?_, List.mem_singleton_self _, ?_, ?_⟩
    · simp only [fanout, simulcast, pt, Bool.and_self, if_true]
      exact List.mem_map.mpr ⟨_, passed_, rfl⟩
    · rw [ssrc, labelled e found]
    · rw [ts, offset, media.stamp, stamp]
      exact UInt32.add_zero _

end Agreement

/-- A report agrees with the media of its source unless that is a layer which the entry of
    the target holds back or forwards with shifted timestamps. -/
theorem processPublishRtcp_agrees_iff {hub : RoomHub} (seated : Seated hub) (aligned : Aligned hub)
    {remote : SocketAddr} {buf : Bytes} {touchMs : Nat} {draw : NonzeroSsrc}
    {sent : Ptr → UInt32 → UInt32 × UInt32} {sender : Ptr} {r : RoomId} {room : Room}
    (found : hub.findByAddr remote = some (sender, .publish, r))
    (held : hub.rooms.lookup r = some room) {report : RelayedReport}
    (relayed : report ∈ (processPublishRtcp hub remote buf touchMs draw sent).2)
    (long : 28 ≤ report.block.length) :
    AgreesWithMedia hub r room sender report ↔
      (room.simulcastEnabled = true →
        hasTrack (hub.heap sender) (u32At report.block 4) .video = true →
          Unshifted (hub.heap sender) (u32At report.block 4)
            ((hub.heap report.target).subscribeLayers.lookup (hub.arcs sender).userId)) := by
  rcases @processPublishRtcp_spec hub remote buf touchMs draw sent with
    none_ | ⟨sender', pc, r', found', _, _, _, explained⟩
  · rw [none_] at relayed
    simp at relayed
  rw [found, Option.some.injEq, Prod.mk.injEq, Prod.mk.injEq] at found'
  obtain ⟨same, _, there⟩ := found'
  subst same
  subst there
  obtain ⟨room', held', member, kind, translated⟩ := explained report relayed
  rw [held, Option.some.injEq] at held'
  subst held'
  have touched := touch_faded hub sender touchMs
  have still : Shows (fun s => (s.isSubscribeReady, s.tracks)) hub.heap
      (mutate hub.heap sender fun s => s.touch touchMs) := .mutate rfl
  have fields : ∀ q, ((hub.touch sender touchMs).heap q).isSubscribeReady =
      (hub.heap q).isSubscribeReady ∧ ((hub.touch sender touchMs).heap q).tracks =
        (hub.heap q).tracks := fun q => Prod.mk.injEq _ _ _ _ ▸ still q
  have ready : (hub.heap report.target).isSubscribeReady = true :=
    (fields report.target).1.symm.trans translated.ready
  have video : hasTrack ((hub.touch sender touchMs).heap sender) (pubSsrcOf report.block) .video =
      hasTrack (hub.heap sender) (u32At report.block 4) .video := by
    rw [hasTrack, (fields sender).2, pubSsrcOf, if_pos (by omega), hasTrack]
  obtain ⟨out, rewritten, source, stamp, _⟩ := @translateSr_fields report.block
    (buildSrTranslation room ((hub.touch sender touchMs).heap sender) draw (sent report.target)
      report.block).2 long kind
  have result : report.out = out := by
    rw [translated.out, rewritten]
    rfl
  obtain ⟨timeless, label⟩ := @buildSrTranslation_conference report.block room draw
    (sent report.target) ((hub.touch sender touchMs).heap sender) translated.mode
  rw [timeless, Option.getD_none, ← result] at stamp
  rw [label, video, ← result] at source
  have once := participants_injective seated.sound held
  by_cases layered : (room.simulcastEnabled && hasTrack (hub.heap sender) (u32At report.block 4)
      .video) = true
  · rw [if_pos layered, Option.getD_some] at source
    rw [Bool.and_eq_true] at layered
    have shifted := @agrees_layered hub r room sender report once member ready layered.1 layered.2
      (fun e entry => ?_) stamp
    · rw [shifted]
      exact ⟨fun unshifted _ _ => unshifted, fun always => always layered.1 layered.2⟩
    · obtain ⟨k, _, seat⟩ := mem_otherParticipants.mp member
      obtain ⟨ssrc, drawn⟩ := aligned.entries ⟨room, held, seat⟩ (seated.sender found) entry
      rw [source, ensure_value, (touched sender).vssrc, if_pos drawn, ssrc]
  · rw [if_neg layered, Option.getD_none] at source
    have agrees := @agrees_plain hub r room sender report member ready layered source stamp
    refine ⟨fun _ simulcast video => absurd ?_ layered, fun _ => agrees⟩
    rw [simulcast, video]
    rfl

/-- In every run, the reports of a conference room agree with the media of their sources
    exactly where no layer is held back or shifted for the subscriber. -/
theorem reports_agree_iff (hmacSha1 : Bytes → Bytes → Bytes) (crc32 : Bytes → UInt32)
    (es : List ReportEvent) (remote : SocketAddr) (buf : Bytes) (touchMs : Nat) (draw : NonzeroSsrc)
    (sent : Ptr → UInt32 → UInt32 × UInt32) (sender : Ptr) (r : RoomId) (room : Room) :
    let hub := (run (step hmacSha1 crc32) Server.new es).hub
    hub.findByAddr remote = some (sender, .publish, r) → hub.rooms.lookup r = some room →
      room.mode = .conference →
      ∀ report ∈ (processPublishRtcp hub remote buf touchMs draw sent).2, 28 ≤ report.block.length →
        (AgreesWithMedia hub r room sender report ↔
          (room.simulcastEnabled = true →
            hasTrack (hub.heap sender) (u32At report.block 4) .video = true →
              Unshifted (hub.heap sender) (u32At report.block 4)
                ((hub.heap report.target).subscribeLayers.lookup (hub.arcs sender).userId))) := by
  intro hub found held conference report relayed long
  obtain ⟨seated, aligned⟩ := run_reported hmacSha1 crc32 es
  exact processPublishRtcp_agrees_iff seated aligned found held relayed long

/-- A report with its NTP time left blank. -/
def senderReport (ssrc rtpTs : UInt32) : Bytes :=
  [0x80, 200, 0, 6] ++ bytes32 ssrc ++ List.replicate 8 0 ++ bytes32 rtpTs ++ List.replicate 8 0

/-- B watches the high layer of A, and has been sent one packet of it. -/
def watching : List ReportEvent :=
  (sampleRoom .conference true :: joinAs 0 "a" 1 ++ joinAs 1 "b" 2 ++
    startMedia 0 1 .publish 5000 ++ startMedia 1 2 .subscribe 5001 ++
    [publishVideo 0 [(11, some "h"), (12, some "l")],
      .rtp (AddressIndex.portAt 5000) (keyframePacket 7 50 11 0) (sampleOracle 0)]).map .server

/-- B has changed to the low layer, whose clock is at 9000. -/
def switched : List ReportEvent :=
  watching ++ [.server (.request 1 5 (.subscribeLayer (some [⟨"a", "l"⟩])) (sampleOracle 0)),
    .server (.rtp (AddressIndex.portAt 5000) (keyframePacket 3 9000 12 0) (sampleOracle 0))]

/-- What B is handed for a report. -/
def handed (ssrc rtpTs : UInt32) : RelayedReport :=
  ⟨1, senderReport ssrc rtpTs,
    [0x80, 200, 0, 6] ++ bytes32 503 ++ List.replicate 8 0 ++ bytes32 rtpTs ++ bytes32 1 ++
      bytes32 15⟩

theorem first_layer_report_agrees :
    let hub := (run (step sampleHmac fun _ => 0) Server.new watching).hub
    ∃ room, hub.rooms.lookup "room" = some room ∧
      handed 11 60 ∈ (processPublishRtcp hub (AddressIndex.portAt 5000) (senderReport 11 60) 1000
        ((sampleOracle 0).vssrc 0) fun _ _ => (1, 15)).2 ∧
      AgreesWithMedia hub "room" room 0 (handed 11 60) := by
  intro hub
  obtain ⟨room, held⟩ : ∃ room, hub.rooms.lookup "room" = some room := ⟨_, rfl⟩
  have conference : ∀ room, hub.rooms.lookup "room" = some room → room.mode = .conference := by
    intro room held
    obtain rfl := Option.some.inj held
    decide
  have relayed : handed 11 60 ∈ (processPublishRtcp hub (AddressIndex.portAt 5000)
      (senderReport 11 60) 1000 ((sampleOracle 0).vssrc 0) fun _ _ => (1, 15)).2 := by decide
  have result := reports_agree_iff sampleHmac (fun _ => 0) watching (AddressIndex.portAt 5000)
    (senderReport 11 60) 1000 ((sampleOracle 0).vssrc 0) (fun _ _ => (1, 15)) 0 "room" room
    (by decide) held (conference room held) (handed 11 60) relayed (by decide)
  refine ⟨room, held, relayed, result.mpr fun _ _ => ?_⟩
  exact ⟨⟨"h", ⟨503, 0, 0, 7, 50, false, true, some 0⟩⟩, by decide, by decide, by decide, by decide,
    by decide, by decide⟩

/-- The report of the low layer is relayed with the time of the publisher, while the packets
    of that layer carry on where the high layer was left. -/
theorem switched_layer_report_disagrees :
    ¬ ∀ (hmacSha1 : Bytes → Bytes → Bytes) (crc32 : Bytes → UInt32) (es : List ReportEvent)
        (remote : SocketAddr) (buf : Bytes) (touchMs : Nat) (draw : NonzeroSsrc)
        (sent : Ptr → UInt32 → UInt32 × UInt32) (sender : Ptr) (r : RoomId) (room : Room),
      let hub := (run (step hmacSha1 crc32) Server.new es).hub
      hub.findByAddr remote = some (sender, .publish, r) → hub.rooms.lookup r = some room →
        room.mode = .conference →
        ∀ report ∈ (processPublishRtcp hub remote buf touchMs draw sent).2,
          28 ≤ report.block.length → AgreesWithMedia hub r room sender report := by
  intro holds
  let hub := (run (step sampleHmac fun _ => 0) Server.new switched).hub
  obtain ⟨room, held⟩ : ∃ room, hub.rooms.lookup "room" = some room := ⟨_, rfl⟩
  have facts : ∀ room, hub.rooms.lookup "room" = some room → room.mode = .conference ∧
      MediaOf room (hub.heap 0) 12 9000 (bareHeader 9000 12) ∧
      ((fanout hub "room" room "a" 0 (parseRtpHeader (bareHeader 9000 12)) (bareHeader 9000 12)
        (bareHeader 9000 12) (sampleOracle 0)).2.all fun f => u32At f.out 4 != 9000) = true := by
    intro room held
    obtain rfl := Option.some.inj held
    exact ⟨by decide, bareHeader_media (by decide), by decide⟩
  obtain ⟨conference, media, late⟩ := facts room held
  have relayed : handed 12 9000 ∈ (processPublishRtcp hub (AddressIndex.portAt 5000)
      (senderReport 12 9000) 1000 ((sampleOracle 0).vssrc 0) fun _ _ => (1, 15)).2 := by decide
  obtain ⟨f, sent, _, _, stamp⟩ := holds sampleHmac (fun _ => 0) switched (AddressIndex.portAt 5000)
    (senderReport 12 9000) 1000 ((sampleOracle 0).vssrc 0) (fun _ _ => (1, 15)) 0 "room" room
    (by decide) held conference (handed 12 9000) relayed (by decide) (bareHeader 9000 12)
    (sampleOracle 0) media
  have other := List.all_eq_true.mp late f sent
  rw [bne_iff_ne] at other
  exact other (stamp.trans (by decide))

end SenderReports
