import OxlensSfu.CompoundEvents
import OxlensSfu.DtlsTransport

/-
What the workers do to the server, told as its own events. A compound packet is told as one
event for each of its blocks, and what a worker keeps for itself is not told at all.
-/
namespace TransportStory
open WireBytes KeyedMap Participants RoomHubs RoomHub Signaling RoomHandlers Ingress Servers
open GuardedRun RtcpCompound PliRelay SendCounts CompoundEvents DtlsTransport StepRefinement

/-- Events of the server that no egress task takes part in. -/
def plainly (es : List Servers.Event) : List SendCounts.Event := es.map fun e => .server e 0

/-- A subscriber's packet that is accepted is told block by block. -/
def consumeTold (hub : RoomHub) (remote : SocketAddr) (plain : Bytes) (o : RelayOracle) :
    List Servers.Event :=
  match acceptRtcp hub remote plain with
  | none => [noticed remote o.touchMs]
  | some _ =>
    let blocks := splitCompoundRtcp plain
    noticed remote o.touchMs :: (nackEvents remote o blocks.nackBlocks ++
      mbcpEvents remote o.touchMs o.mbcp blocks.mbcpBlocks.zipIdx)

def srtpTold (hub : RoomHub) (remote : SocketAddr) (buf : Bytes) (o : Readings buf) :
    List SendCounts.Event :=
  match hub.findByAddr remote, o.plain with
  | none, _ => []
  | some _, none => plainly [noticed remote o.nowMs]
  | some (_, .subscribe, _), some plain =>
    plainly (consumeTold hub remote plain { o.feedback with touchMs := o.nowMs })
  | some (sender, .publish, _), some plain =>
    if !(hub.heap sender).isPublishReady then plainly [noticed remote o.nowMs]
    else if isRtcp buf then
      plainly (noticed remote o.nowMs ::
        mbcpEvents remote o.nowMs o.mbcp (splitCompoundRtcp plain).mbcpBlocks.zipIdx) ++
        [.publishRtcp remote plain o.nowMs o.draw]
    else plainly [.rtp remote plain { o.media with nowMs := o.nowMs }]

def datagramTold (s : Transport) (w : WorkerId) (remote : SocketAddr) (buf : Bytes)
    (o : Readings buf) : List SendCounts.Event :=
  if (s.workers w).waiting.isSome then []
  else
    match DtlsTransport.classify buf with
    | .stun => plainly [.stun remote buf o.nowMs (decide (remote ∈ (s.workers w).dtlsMap))]
    | .srtp => srtpTold s.hub remote buf o
    | .dtls | .unknown => []

/-- The keys make the session ready, when its inbound context is there. -/
def establishedTold (s : Transport) (t : TaskId) (material : Option Material) :
    List SendCounts.Event :=
  let p := (s.tasks t).participant
  let pc := (s.tasks t).pc
  match material with
  | some m =>
    if t < s.nextTask ∧ (s.tasks t).phase = .handshaking ∧
        ((s.srtp p pc).installSrtpKeys (exportSrtpKeys m)).isMediaReady = true then
      plainly [.srtpKeys p pc]
    else []
  | none => []

def told (shard : SocketAddr → WorkerId) (s : Transport) : DtlsTransport.Event → List SendCounts.Event
  | .local_ e => plainly [e.val]
  | .datagram remote buf o => datagramTold s (shard remote) remote buf o
  | .established t material => establishedTold s t material
  | .egress p now => if p ∈ s.egressTasks then [.server (.egress p) now] else []
  | .resume _ | .recv .. | .ended _ => []

section Kept
variable (s : Transport)

/-- What a worker keeps for itself. -/
@[simp] theorem onWorker_counted (w : WorkerId) (f : Worker → Worker) :
    (onWorker s w f).counted = s.counted := rfl

@[simp] theorem onTask_counted (t : TaskId) (f : Handshake → Handshake) :
    (onTask s t f).counted = s.counted := rfl

@[simp] theorem countPacket_counted (w : WorkerId) : (countPacket s w).counted = s.counted := rfl

@[simp] theorem enqueue_counted (t : TaskId) (data : Bytes) :
    (enqueue s t data).counted = s.counted := rfl

@[simp] theorem startDtlsHandshake_counted (w : WorkerId) (remote : SocketAddr) (p : Ptr)
    (pc : PcType) : (startDtlsHandshake s w remote p pc).counted = s.counted := rfl

@[simp] theorem withCounted_counted (counted : Counted) : (withCounted s counted).counted = counted := rfl

theorem connected_counted (t : TaskId) (keys : Option SrtpKeyMaterial) :
    (connected s t keys).counted = s.counted := rfl

theorem connected_srtp (t : TaskId) (keys : Option SrtpKeyMaterial) :
    (connected s t keys).srtp = s.srtp := rfl

theorem handleDtls_counted (w : WorkerId) (data : Bytes) (remote : SocketAddr) :
    (handleDtls s w data remote).counted = s.counted := by
  unfold handleDtls
  cases injection s w remote with
  | handed t => rfl
  | full => rfl
  | refused =>
    simp only
    cases s.hub.findByAddr remote with
    | none => rfl
    | some found => rfl

theorem resume_counted (w : WorkerId) : (resume s w).counted = s.counted := by
  unfold resume
  cases (s.workers w).waiting with
  | none => rfl
  | some entry => exact handleDtls_counted _ _ _ _

theorem recv_counted (t : TaskId) (bufLen : Nat) : (recv s t bufLen).counted = s.counted := by
  unfold recv
  split
  · rfl
  · cases (s.tasks t).queue with
    | nil => rfl
    | cons data rest => rfl

theorem subscribeReady_counted (p : Ptr) : (subscribeReady s p).counted = s.counted := by
  unfold subscribeReady spawnEgressTask
  simp only
  split <;> rfl

end Kept

section Steps
variable (hmacSha1 : Bytes → Bytes → Bytes) (crc32 : Bytes → UInt32)

/-- Without an egress task the counts stay, and the server takes its steps. -/
theorem plainly_run (es : List Servers.Event) (plain : ∀ e ∈ es, ∀ q, e ≠ .egress q) (c : Counted) :
    run (SendCounts.step hmacSha1 crc32) c (plainly es) =
      { c with server := run (Servers.step hmacSha1 crc32) c.server es } := by
  induction es generalizing c with
  | nil => rfl
  | cons e es ih =>
    have here : SendCounts.step hmacSha1 crc32 c (.server e 0) =
        { c with server := Servers.step hmacSha1 crc32 c.server e } := by
      cases e with
      | egress q => exact absurd rfl (plain _ List.mem_cons_self q)
      | _ => rfl
    rw [plainly, List.map_cons, run_cons, here, run_cons, ← plainly,
      ih fun e member => plain e (List.mem_cons_of_mem _ member)]

theorem blocks_plain (remote : SocketAddr) (o : RelayOracle) (nacks : List Bytes)
    (touchMs : Nat) (readings : Nat → Oracle) (messages : List (MbcpMessage × Nat)) :
    ∀ e ∈ noticed remote touchMs :: (nackEvents remote o nacks ++
      mbcpEvents remote touchMs readings messages), ∀ q, e ≠ Servers.Event.egress q := by
  intro e member q
  simp only [List.mem_cons, List.mem_append, nackEvents, mbcpEvents, List.mem_map] at member
  rcases member with rfl | ⟨block, _, rfl⟩ | ⟨⟨msg, i⟩, _, rfl⟩ <;> simp [noticed]

theorem acceptRtcp_some {hub : RoomHub} {remote : SocketAddr} {plain : Bytes} {p : Ptr}
    {r : RoomId} {room : Room} (accepted : acceptRtcp hub remote plain = some (p, r, room)) :
    hub.findByAddr remote = some (p, .subscribe, r) ∧ hub.rooms.lookup r = some room ∧
      (hub.heap p).isSubscribeReady = true := by
  unfold acceptRtcp at accepted
  split at accepted
  · simp at accepted
  rename_i subscriber pc roomId found
  split at accepted
  · simp at accepted
  rename_i held_room held
  split at accepted
  · rename_i ready
    simp only [Option.some.injEq, Prod.mk.injEq] at accepted
    obtain ⟨rfl, rfl, rfl⟩ := accepted
    obtain ⟨rfl, ready, _⟩ := ready
    exact ⟨found, held, ready⟩
  · simp at accepted

theorem answerNacks_standing (hub : RoomHub) (room : Room) (p : Ptr) (plain : Bytes)
    (o : RelayOracle) : Shows standing hub.heap (answerNacks hub room p plain o) := by
  have all : ∀ (blocks : List Bytes) (heap : Heap),
      Shows standing heap (blocks.foldl (fun heap block =>
        (handleNackBlock hub.arcs room o.visit p heap block o.nackMs).1) heap) := by
    intro blocks
    induction blocks with
    | nil => exact fun heap => .refl _ heap
    | cons block blocks ih =>
      intro heap
      exact (handleNackBlock_standing hub.arcs room o.visit p heap block o.nackMs).trans (ih _)
  exact all _ _

/-- Who was found by its address stands, once it is touched. -/
theorem touched_stands {hub : RoomHub} {remote : SocketAddr} {p : Ptr} {pc : PcType} {r : RoomId}
    (found : hub.findByAddr remote = some (p, pc, r)) (ready : mediaReady (hub.heap p) pc = true)
    (reading : Nat) : Stands (hub.touch p reading) remote p pc r reading where
  found := found
  seen := touched_seen hub p reading
  ready := (touched_ready hub p reading pc).trans ready

/-- The blocks of a subscriber's packet, one event each. -/
theorem consume_run (s : Server) (remote : SocketAddr) (plain : Bytes) (o : RelayOracle) :
    run (Servers.step hmacSha1 crc32) s (consumeTold s.hub remote plain o) =
      push s (consumeRtcp s.hub remote plain o) := by
  unfold consumeTold consumeRtcp
  cases accepted : acceptRtcp s.hub remote plain with
  | none =>
    simp only [run_cons, noticed_runs]
    cases s.hub.findByAddr remote with
    | none => simp [push, run]
    | some found =>
      obtain ⟨p, pc, r⟩ := found
      simp [push, run]
  | some accept =>
    obtain ⟨p, r, room⟩ := accept
    obtain ⟨found, held, ready⟩ := acceptRtcp_some accepted
    have stands := touched_stands found ready o.touchMs
    simp only [run_cons, noticed_runs, found, StepRefinement.run_append]
    rw [nackBlocks_run hmacSha1 crc32 { s with hub := s.hub.touch p o.touchMs } o stands held]
    have shown := answerNacks_standing (s.hub.touch p o.touchMs) room p plain o
    exact mbcpBlocks_run hmacSha1 crc32
      { s with hub :=
          { s.hub.touch p o.touchMs with heap := answerNacks (s.hub.touch p o.touchMs) room p plain o } }
      o.mbcp (stands.of_shows shown rfl) _ (List.append_nil _).symm

/-- The messages of a publisher's packet, one event each. -/
theorem publish_run (s : Server) {remote : SocketAddr} {p : Ptr} {r : RoomId}
    (found : s.hub.findByAddr remote = some (p, .publish, r))
    (ready : (s.hub.heap p).isPublishReady = true) (plain : Bytes) (nowMs : Nat)
    (mbcp : Nat → Oracle) :
    run (Servers.step hmacSha1 crc32) s (noticed remote nowMs ::
        mbcpEvents remote nowMs mbcp (splitCompoundRtcp plain).mbcpBlocks.zipIdx) =
      push s (handleMbcpBlocks (s.hub.touch p nowMs) r p (splitCompoundRtcp plain).mbcpBlocks mbcp) := by
  have stands := touched_stands found ready nowMs
  simp only [run_cons, noticed_runs, found]
  rw [mbcpBlocks_run hmacSha1 crc32 { s with hub := s.hub.touch p nowMs } mbcp stands _
    (List.append_nil _).symm]
  rfl

theorem consumeTold_plain (hub : RoomHub) (remote : SocketAddr) (plain : Bytes) (o : RelayOracle) :
    ∀ e ∈ consumeTold hub remote plain o, ∀ q, e ≠ Servers.Event.egress q := by
  unfold consumeTold
  cases acceptRtcp hub remote plain with
  | none =>
    intro e member q
    obtain rfl := List.mem_singleton.mp member
    simp [noticed]
  | some _ => exact blocks_plain remote o _ o.touchMs o.mbcp _

/-- One event that no egress task takes part in. -/
theorem plainly_one (e : Servers.Event) (plain : ∀ q, e ≠ .egress q) (c : Counted) :
    run (SendCounts.step hmacSha1 crc32) c (plainly [e]) =
      { c with server := Servers.step hmacSha1 crc32 c.server e } := by
  rw [plainly_run hmacSha1 crc32 [e] fun e' member q => by
    rw [List.mem_singleton.mp member]
    exact plain q]
  rfl

theorem noticed_one (remote : SocketAddr) (nowMs : Nat) (c : Counted) {p : Ptr} {pc : PcType}
    {r : RoomId} (found : c.server.hub.findByAddr remote = some (p, pc, r)) :
    run (SendCounts.step hmacSha1 crc32) c (plainly [noticed remote nowMs]) =
      { c with server := push c.server (c.server.hub.touch p nowMs, []) } := by
  rw [plainly_one hmacSha1 crc32 _ (by simp [noticed]), noticed_runs, found, push, List.append_nil]

theorem handleSrtp_told (s : Transport) (buf : Bytes) (remote : SocketAddr) (o : Readings buf) :
    (DtlsTransport.handleSrtp hmacSha1 crc32 s buf remote o).counted =
      run (SendCounts.step hmacSha1 crc32) s.counted (srtpTold s.hub remote buf o) := by
  unfold DtlsTransport.handleSrtp srtpTold
  cases found : s.hub.findByAddr remote with
  | none => rfl
  | some owner =>
    obtain ⟨sender, pc, roomId⟩ := owner
    cases decrypted : o.plain with
    | none => exact (noticed_one hmacSha1 crc32 remote o.nowMs s.counted found).symm
    | some plain =>
      cases pc with
      | subscribe =>
        simp only
        rw [plainly_run hmacSha1 crc32 _ (consumeTold_plain _ _ _ _)]
        exact congrArg (fun server => { s.counted with server := server })
          (consume_run hmacSha1 crc32 s.counted.server remote plain _).symm
      | publish =>
        simp only
        cases ready : (s.hub.heap sender).isPublishReady with
        | false => exact (noticed_one hmacSha1 crc32 remote o.nowMs s.counted found).symm
        | true =>
          simp only [Bool.not_true, Bool.false_eq_true, if_false]
          split
          · have spoken := blocks_plain remote o.feedback [] o.nowMs o.mbcp
              (splitCompoundRtcp plain).mbcpBlocks.zipIdx
            simp only [nackEvents, List.map_nil, List.nil_append] at spoken
            rw [StepRefinement.run_append, plainly_run hmacSha1 crc32 _ spoken,
              publish_run hmacSha1 crc32 s.counted.server found ready]
            rfl
          · rw [plainly_one hmacSha1 crc32 _ (by simp)]
            simp only [withHub, withCounted, push, List.append_nil, Servers.step]
            rfl

theorem installSrtpKeys_counted (s : Transport) (p : Ptr) (pc : PcType) (keys : SrtpKeyMaterial) :
    (installSrtpKeys hmacSha1 crc32 s p pc keys).counted =
      if ((s.srtp p pc).installSrtpKeys keys).isMediaReady then
        SendCounts.step hmacSha1 crc32 s.counted (.server (.srtpKeys p pc) 0)
      else s.counted := by
  unfold installSrtpKeys
  simp only
  split <;> rfl

theorem established_told (s : Transport) (t : TaskId) (material : Option Material) :
    (established hmacSha1 crc32 s t material).counted =
      run (SendCounts.step hmacSha1 crc32) s.counted (establishedTold s t material) := by
  unfold established establishedTold
  by_cases live : t < s.nextTask ∧ (s.tasks t).phase = .handshaking
  · rw [if_pos live]
    cases material with
    | none => rfl
    | some m =>
      have installed := installSrtpKeys_counted hmacSha1 crc32
        (connected s t (some (exportSrtpKeys m))) (s.tasks t).participant (s.tasks t).pc
        (exportSrtpKeys m)
      simp only [Option.map_some, live, true_and]
      have ready : ∀ next : Transport, next.counted = (installSrtpKeys hmacSha1 crc32
          (connected s t (some (exportSrtpKeys m))) (s.tasks t).participant (s.tasks t).pc
          (exportSrtpKeys m)).counted → next.counted = run (SendCounts.step hmacSha1 crc32) s.counted
            (if ((s.srtp (s.tasks t).participant (s.tasks t).pc).installSrtpKeys
              (exportSrtpKeys m)).isMediaReady = true then
              plainly [.srtpKeys (s.tasks t).participant (s.tasks t).pc] else []) := by
        intro next same
        rw [same, installed, connected_srtp, connected_counted]
        split <;> rfl
      split
      · exact ready _ (subscribeReady_counted _ _)
      · exact ready _ rfl
  · rw [if_neg live]
    cases material with
    | none => rfl
    | some m =>
      have never : ¬ (t < s.nextTask ∧ (s.tasks t).phase = .handshaking ∧
          ((s.srtp (s.tasks t).participant (s.tasks t).pc).installSrtpKeys
            (exportSrtpKeys m)).isMediaReady = true) :=
        fun both => live ⟨both.1, both.2.1⟩
      simp only [if_neg never]
      rfl

theorem receive_told (shard : SocketAddr → WorkerId) (s : Transport) (remote : SocketAddr)
    (buf : Bytes) (o : Readings buf) :
    (receive hmacSha1 crc32 shard s remote buf o).counted =
      run (SendCounts.step hmacSha1 crc32) s.counted
        (datagramTold s (shard remote) remote buf o) := by
  unfold receive datagramTold
  simp only
  split
  · rfl
  · cases DtlsTransport.classify buf with
    | stun =>
      simp only [countPacket_counted, DtlsTransport.handleStun]
      split <;> rfl
    | dtls => exact handleDtls_counted s _ buf remote
    | srtp =>
      simp only [countPacket_counted]
      exact handleSrtp_told hmacSha1 crc32 s buf remote o
    | unknown => rfl

/-- Every step of the workers is the run of the events that it is told as. -/
theorem transport_tells (shard : SocketAddr → WorkerId) :
    Tells (DtlsTransport.step hmacSha1 crc32 shard) (SendCounts.step hmacSha1 crc32)
      Transport.counted (told shard) := by
  intro s e
  cases e with
  | local_ e => rfl
  | datagram remote buf o => exact receive_told hmacSha1 crc32 shard s remote buf o
  | resume w => exact resume_counted s w
  | recv t bufLen => exact recv_counted s t bufLen
  | established t material => exact established_told hmacSha1 crc32 s t material
  | ended t => rfl
  | egress p now =>
    simp only [DtlsTransport.step, told]
    split <;> rfl

/-- A run of the workers leaves the server as the server's own run of the told events does:
    handshakes, full channels and compound packets leave no other trace on it. -/
theorem transport_refines (shard : SocketAddr → WorkerId) (es : List DtlsTransport.Event) :
    (run (DtlsTransport.step hmacSha1 crc32 shard) Transport.new es).counted =
      run (SendCounts.step hmacSha1 crc32) start
        (story (DtlsTransport.step hmacSha1 crc32 shard) (told shard) Transport.new es) :=
  run_refines (transport_tells hmacSha1 crc32 shard) Transport.new es

end Steps
end TransportStory
