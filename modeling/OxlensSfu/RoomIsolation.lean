import OxlensSfu.HandshakeTasks
import OxlensSfu.RoomEvents

/-
Rooms on one server do not touch each other. What comes from an address that is latched in one
room, and what is done for the participants of one room, leaves every other room as it is.
-/
namespace RoomIsolation
open WireBytes SfuConfig GuardedRun StepRefinement KeyedMap Participants RoomHubs RoomHub Signaling
open RoomHandlers Ingress Servers Membership Seating SendCounts DtlsTransport TransportStory
open SessionSteps HandshakeTasks RoomEvents CompoundEvents SenderReports
open FloorControl (UserId)
open PttRewriter (Instant)

/-- The room and the participants in it are as they were. -/
structure Untouched (r : RoomId) (hub next : RoomHub) : Prop where
  room : next.rooms.lookup r = hub.rooms.lookup r
  states : ∀ u p, Member hub r u p → next.heap p = hub.heap p

section Rules
variable {r : RoomId} {hub next last : RoomHub}

theorem Untouched.refl (r : RoomId) (hub : RoomHub) : Untouched r hub hub :=
  ⟨rfl, fun _ _ _ => rfl⟩

theorem Untouched.member (same : Untouched r hub next) {u : UserId} {p : Ptr} :
    Member next r u p ↔ Member hub r u p := by
  unfold Member
  rw [same.room]

theorem Untouched.trans (first : Untouched r hub next) (second : Untouched r next last) :
    Untouched r hub last :=
  ⟨second.room.trans first.room, fun u p here =>
    (second.states u p (first.member.mpr here)).trans (first.states u p here)⟩

/-- Whoever sits in this room does not sit in the other one. -/
theorem Untouched.of_confined (seated : Seated hub) {r' : RoomId} (apart : r' ≠ r)
    (confined : Confined r' hub next) : Untouched r hub next := by
  refine ⟨confined.rooms r (Ne.symm apart), fun u p here => ?_⟩
  exact confined.alone p (.inl (seated.sound.allocated here)) fun v there =>
    apart (seated.sound.once there here).1

/-- Nor is it a participant that is written alone. -/
theorem Untouched.of_one {p : Ptr} (stranger : ∀ u, ¬ Member hub r u p)
    (others : ∀ q, q ≠ p → next.heap q = hub.heap q)
    (kept : next.rooms.lookup r = hub.rooms.lookup r) : Untouched r hub next :=
  ⟨kept, fun u q here => others q fun same => stranger u (same ▸ here)⟩

end Rules

section Server
variable {r : RoomId} (hmacSha1 : Bytes → Bytes → Bytes) (crc32 : Bytes → UInt32)

/-- An event about other rooms. -/
theorem step_elsewhere {s : Server} (seated : Seated s.hub) (e : Servers.Event)
    (elsewhere : ¬ About r s e) : Untouched r s.hub (Servers.step hmacSha1 crc32 s e).hub := by
  by_cases roams : Roams e
  · cases e with
    | reaper nowMs => exact absurd trivial elsewhere
    | metricsFlush => exact absurd trivial elsewhere
    | srtpKeys p pc =>
      exact .of_one (fun u here => elsewhere ⟨u, here⟩)
        (fun q other => mutate_ne (fun st => st.installSrtpKeys pc) other) rfl
    | egress p =>
      exact .of_one (fun u here => elsewhere ⟨u, here⟩)
        (fun q other => mutate_ne (fun st => { st with egress := st.egress.tail }) other) rfl
    | _ => exact roams.elim
  · rcases step_confined hmacSha1 crc32 seated e roams with same | ⟨r', about, confined⟩
    · rw [same]
      exact .refl r s.hub
    · exact .of_confined seated (fun here => elsewhere (here ▸ about)) confined

end Server

/-- The sender of what comes from this address sits in another room. -/
structure Away (r : RoomId) (remote : SocketAddr) (hub : RoomHub) : Prop where
  seated : Seated hub
  apart : ∀ p pc r', hub.findByAddr remote = some (p, pc, r') → r' ≠ r

section Datagrams
variable {r : RoomId} {remote : SocketAddr}

theorem handleSrtp_latches (hub : RoomHub) (buf : Bytes) (o : Oracle) (a : SocketAddr) :
    (Ingress.handleSrtp hub remote buf o).hub.findByAddr a = hub.findByAddr a := by
  rcases handleSrtp_cases hub remote buf o with
    dropped | ⟨sender, touched⟩ | ⟨sender, r', room, _, _, _, relayed⟩
  · rw [dropped]
  · rw [touched]
    rfl
  · rw [relayed, relayRtp_hub, findByAddr_withPtt]
    rfl

theorem handleSubscribeNack_latches (hub : RoomHub) (block : Bytes) (touchMs nowMs : Nat)
    (visit : List UserId) (a : SocketAddr) :
    (handleSubscribeNack hub remote block touchMs nowMs visit).1.findByAddr a = hub.findByAddr a := by
  rcases handleSubscribeNack_cases hub remote block touchMs nowMs visit with
    dropped | ⟨sender, touched⟩ | ⟨sender, r', room, _, _, answered⟩
  · rw [dropped]
  · rw [touched]
    rfl
  · rw [answered]
    rfl

theorem handleMbcpFrom_latches (hub : RoomHub) (subtype : UInt8) (touchMs : Nat) (o : Oracle)
    (a : SocketAddr) :
    (handleMbcpFrom hub remote subtype touchMs o).1.findByAddr a = hub.findByAddr a := by
  unfold handleMbcpFrom
  split
  · rfl
  simp only
  split
  · rfl
  split
  · exact findByAddr_withPtt _ _ _ _ a
  · rfl

variable (hmacSha1 : Bytes → Bytes → Bytes) (crc32 : Bytes → UInt32)

/-- Media latches no address. -/
theorem media_latches (c : Counted) (e : SendCounts.Event) (media : FromMedia e) (a : SocketAddr) :
    (SendCounts.step hmacSha1 crc32 c e).server.hub.findByAddr a = c.server.hub.findByAddr a := by
  cases e with
  | publishRtcp from_ buf touchMs draw =>
    rcases @processPublishRtcp_spec c.server.hub from_ buf touchMs draw (sentBy c) with
      same | ⟨_, _, _, _, heap, _, next, _⟩
    · simp only [SendCounts.step, SenderReports.step, same]
    · simp only [SendCounts.step, SenderReports.step, next]
      rfl
  | server e now =>
    cases e with
    | rtp from_ buf o => exact handleSrtp_latches c.server.hub buf o a
    | nack from_ block touchMs nowMs visit =>
      exact handleSubscribeNack_latches c.server.hub block touchMs nowMs visit a
    | mbcp from_ subtype touchMs o => exact handleMbcpFrom_latches c.server.hub subtype touchMs o a
    | _ => exact media.elim

/-- What one datagram is told as stays in the room of its sender. -/
theorem from_elsewhere (c : Counted) (e : SendCounts.Event) (source : From remote e)
    (away : Away r remote c.server.hub) :
    Away r remote (SendCounts.step hmacSha1 crc32 c e).server.hub ∧
      Untouched r c.server.hub (SendCounts.step hmacSha1 crc32 c e).server.hub := by
  have outside : ¬ ∃ p pc, c.server.hub.findByAddr remote = some (p, pc, r) :=
    fun ⟨p, pc, found⟩ => away.apart p pc r found rfl
  refine ⟨⟨counted_seated hmacSha1 crc32 c e away.seated, fun p pc r' found => ?_⟩, ?_⟩
  · rw [media_latches hmacSha1 crc32 c e source.media remote] at found
    exact away.apart p pc r' found
  cases e with
  | publishRtcp from_ buf touchMs draw =>
    obtain rfl : from_ = remote := source
    cases found : c.server.hub.findByAddr from_ with
    | none =>
      simp only [SendCounts.step, SenderReports.step, SenderReports.processPublishRtcp, found]
      exact .refl r _
    | some owner =>
      exact .of_confined away.seated (away.apart _ _ _ found)
        (processPublishRtcp_confined away.seated found buf touchMs draw (sentBy c))
  | server e now =>
    cases e with
    | rtp from_ buf o =>
      obtain rfl : from_ = remote := source
      exact step_elsewhere hmacSha1 crc32 away.seated (.rtp from_ buf o) outside
    | nack from_ block touchMs nowMs visit =>
      obtain rfl : from_ = remote := source
      exact step_elsewhere hmacSha1 crc32 away.seated (.nack from_ block touchMs nowMs visit) outside
    | mbcp from_ subtype touchMs o =>
      obtain rfl : from_ = remote := source
      exact step_elsewhere hmacSha1 crc32 away.seated (.mbcp from_ subtype touchMs o) outside
    | _ => exact source.elim

theorem datagram_elsewhere (c : Counted) (es : List SendCounts.Event)
    (source : ∀ e ∈ es, From remote e) (away : Away r remote c.server.hub) :
    Untouched r c.server.hub (run (SendCounts.step hmacSha1 crc32) c es).server.hub := by
  induction es generalizing c with
  | nil => exact .refl r c.server.hub
  | cons e es ih =>
    obtain ⟨still, one⟩ := from_elsewhere hmacSha1 crc32 c e (source e List.mem_cons_self) away
    exact one.trans (ih _ (fun e member => source e (List.mem_cons_of_mem _ member)) still)

end Datagrams

/-- The event of the transport is about this room, or about all rooms. -/
def Concerns (r : RoomId) (s : Transport) : DtlsTransport.Event → Prop
  | .local_ e => About r s.counted.server e.val
  | .datagram remote buf _ =>
    match DtlsTransport.classify buf with
    | .stun => ∃ msg p pc, StunLatch.namedSession s.hub buf = some (msg, p, pc, r)
    | .srtp => ∃ p pc, s.hub.findByAddr remote = some (p, pc, r)
    | .dtls | .unknown => False
  | .established t _ => ∃ u, Member s.hub r u (s.tasks t).participant
  | .egress p _ => ∃ u, Member s.hub r u p
  | .resume _ | .recv .. | .ended _ => False

section Transport
variable (hmacSha1 : Bytes → Bytes → Bytes) (crc32 : Bytes → UInt32) (shard : SocketAddr → WorkerId)
  {r : RoomId}

theorem transport_elsewhere {s : Transport} (seated : Seated s.hub) (e : DtlsTransport.Event)
    (elsewhere : ¬ Concerns r s e) :
    Untouched r s.hub (DtlsTransport.step hmacSha1 crc32 shard s e).hub := by
  have one : ∀ (e : Servers.Event) (now : Instant), ¬ About r s.counted.server e →
      Untouched r s.hub (SendCounts.step hmacSha1 crc32 s.counted (.server e now)).server.hub :=
    fun e _ outside => step_elsewhere hmacSha1 crc32 seated e outside
  have tells := transport_tells hmacSha1 crc32 shard s e
  unfold Transport.hub at *
  rw [tells]
  cases e with
  | local_ e => exact one e.val 0 elsewhere
  | datagram remote buf o =>
    simp only [told, datagramTold]
    split
    · exact .refl r _
    simp only [Concerns] at elsewhere
    split
    · rename_i stun
      rw [stun] at elsewhere
      exact one _ 0 elsewhere
    · rename_i srtp
      rw [srtp] at elsewhere
      exact datagram_elsewhere hmacSha1 crc32 s.counted _ (srtpTold_from s.hub remote buf o)
        ⟨seated, fun p pc r' found same => elsewhere ⟨p, pc, same ▸ found⟩⟩
    · exact .refl r _
    · exact .refl r _
  | resume w => exact .refl r _
  | recv t bufLen => exact .refl r _
  | established t material =>
    simp only [told, establishedTold]
    split
    · split
      · exact one _ 0 elsewhere
      · exact .refl r _
    · exact .refl r _
  | ended t => exact .refl r _
  | egress p now =>
    simp only [told]
    split
    · exact one _ now elsewhere
    · exact .refl r _

theorem transport_seated (s : Transport) (e : DtlsTransport.Event) (seated : Seated s.hub) :
    Seated (DtlsTransport.step hmacSha1 crc32 shard s e).hub :=
  @lift_invariant _ _ _ _ _ _ Transport.counted _ (transport_tells hmacSha1 crc32 shard)
    (fun c => Seated c.server.hub) (counted_seated hmacSha1 crc32) s e seated

/-- Whatever happens in the other rooms of a server, a room and the participants in it stay as
    they are. -/
theorem other_rooms_isolated (es fs : List DtlsTransport.Event) (r : RoomId)
    (elsewhere : Guarded (DtlsTransport.step hmacSha1 crc32 shard) (fun s e => ¬ Concerns r s e)
      (run (DtlsTransport.step hmacSha1 crc32 shard) Transport.new es) fs) :
    Untouched r (run (DtlsTransport.step hmacSha1 crc32 shard) Transport.new es).hub
      (run (DtlsTransport.step hmacSha1 crc32 shard) Transport.new (es ++ fs)).hub := by
  have seated := (run_tended hmacSha1 crc32 shard es).seated
  rw [StepRefinement.run_append]
  generalize run (DtlsTransport.step hmacSha1 crc32 shard) Transport.new es = s at seated elsewhere ⊢
  have both := @guarded_invariant _ _ (DtlsTransport.step hmacSha1 crc32 shard)
    (fun s e => ¬ Concerns r s e) (fun next => Seated next.hub ∧ Untouched r s.hub next.hub)
    (fun next e kept outside => ⟨transport_seated hmacSha1 crc32 shard next e kept.1,
      kept.2.trans (transport_elsewhere hmacSha1 crc32 shard kept.1 e outside)⟩)
    s ⟨seated, .refl r s.hub⟩ fs elsewhere
  exact both.2

end Transport
section Samples

/-- The room "b" is made, joined and spoken in by connection 1, while 0 sits in "room". -/
def elsewhereOracle (n : UInt8) : Oracle := { sampleOracle n with uuid := "b" }

def talkElsewhere : List DtlsTransport.Event :=
  signals [.defaultRoom "b" none .ptt false (elsewhereOracle 0),
    .connect,
    .request 1 1 (.identify (some ⟨"", some "bob"⟩)) (elsewhereOracle 2),
    .request 1 2 (.roomJoin (some "b")) (elsewhereOracle 2),
    .request 1 3 (.floorRequest (some ⟨"b", none⟩)) (elsewhereOracle 2),
    .floorTimer "b" (elsewhereOracle 2),
    .request 1 4 (.roomLeave (some "b")) (elsewhereOracle 2)]

def sitInRoom : List DtlsTransport.Event :=
  signals [sampleRoom .ptt false, .connect, identifyAs 0 "ann",
    .request 0 2 (.roomJoin (some "room")) (sampleOracle 1)]

theorem talk_elsewhere_unheard :
    Untouched "room" (run (DtlsTransport.step sampleHmac (fun _ => 0) fun _ => 0) .new sitInRoom).hub
      (run (DtlsTransport.step sampleHmac (fun _ => 0) fun _ => 0) .new
        (sitInRoom ++ talkElsewhere)).hub := by
  refine other_rooms_isolated sampleHmac (fun _ => 0) (fun _ => 0) sitInRoom talkElsewhere "room" ?_
  have apart : ("b" : RoomId) ≠ "room" := by decide
  refine ⟨apart, id, ?_, ?_, ?_, apart, ?_, trivial⟩
  · rintro ⟨session, _, asks⟩
    exact asks
  · rintro ⟨session, _, asks⟩
    exact apart (Option.some.inj asks)
  · rintro ⟨session, _, asks⟩
    exact apart (Option.some.inj asks)
  · rintro ⟨session, _, asks⟩
    exact apart (Option.some.inj asks)

end Samples
end RoomIsolation
