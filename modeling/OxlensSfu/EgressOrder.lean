import OxlensSfu.RoomEvents
import OxlensSfu.SessionKeys

/-
The egress queue of a subscriber, from the handlers that fill it to the task that empties it.
What is in it reaches the wire in order, whatever else happens in the meantime.
-/
namespace EgressOrder
open WireBytes SfuConfig GuardedRun StepRefinement KeyedMap Participants RoomHubs RoomHub Signaling
open RoomHandlers Servers Membership CatalogFrames Deliveries Seating SendCounts DtlsTransport
open TransportStory SessionSteps HandshakeTasks SessionKeys ParticipantMoves RoomEvents SenderReports
open FloorControl (UserId)

/-- Queues keep to their size and to subscribers that are ready, and whoever is yet to come in
    has been sent nothing. -/
structure Outlets (hub : RoomHub) : Prop where
  bounded : ∀ p, (hub.heap p).egress.length ≤ egressQueueSize
  ready : ∀ p, (hub.heap p).egress ≠ [] → (hub.heap p).isSubscribeReady = true
  unborn : ∀ p, hub.nextPtr ≤ p → (hub.heap p).egress = [] ∧ (hub.heap p).rtxBudgetUsed = 0

theorem new_outlets : Outlets RoomHub.new where
  bounded _ := Nat.zero_le _
  ready _ waits := absurd rfl waits
  unborn _ _ := ⟨rfl, rfl⟩

section Sweeps
variable (hub : RoomHub)

/-- The reaper cancels bursts. -/
theorem runZombieReaper_outlet (nowMs : Nat) :
    Shows outlet hub.heap (runZombieReaper hub nowMs).1.heap := by
  have reaped : (hub.reapZombies nowMs zombieTimeoutMs).1.heap = hub.heap :=
    @reapZombies_keeps (fun next => next.heap = hub.heap)
      (fun _ _ _ _ _ same removed => (removeParticipant_fixed removed).2.1.trans same) hub nowMs
      zombieTimeoutMs rfl
  have announced : Shows outlet (hub.reapZombies nowMs zombieTimeoutMs).1.heap
      (runZombieReaper hub nowMs).1.heap := by
    refine Shows.fold (fun state : RoomHub × Outbox => state.1.heap) (fun state zombie => ?_) _ (_, [])
    simp only [announceReaped]
    split <;> exact .mutate rfl
  rw [reaped] at announced
  exact announced

/-- The flush gives the budgets back, and takes nothing from a queue. -/
theorem flushMetrics_outlet (p : Ptr) :
    ((flushMetrics hub).heap p).subscribe = (hub.heap p).subscribe ∧
      ((flushMetrics hub).heap p).egress = (hub.heap p).egress ∧
      ((hub.heap p).rtxBudgetUsed = 0 → ((flushMetrics hub).heap p).rtxBudgetUsed = 0) := by
  refine @flushMetrics_related (fun hub next => (next.heap p).subscribe = (hub.heap p).subscribe ∧
    (next.heap p).egress = (hub.heap p).egress ∧
      ((hub.heap p).rtxBudgetUsed = 0 → (next.heap p).rtxBudgetUsed = 0))
    (fun _ => ⟨rfl, rfl, id⟩) (fun first second => ⟨second.1.trans first.1,
      second.2.1.trans first.2.1, fun zero => second.2.2 (first.2.2 zero)⟩) (fun hub r => ?_) hub
  unfold flushRoom
  split
  · exact ⟨rfl, rfl, id⟩
  · rename_i room _
    dsimp only
    generalize values room.participants = listed
    generalize hub.heap = heap
    induction listed generalizing heap with
    | nil => exact ⟨rfl, rfl, id⟩
    | cons q listed ih =>
      obtain ⟨subscribe, egress, budget⟩ := ih (mutate heap q fun s => { s with rtxBudgetUsed := 0 })
      rw [List.foldl_cons]
      by_cases here : p = q
      · subst here
        rw [mutate_self] at subscribe egress budget
        exact ⟨subscribe, egress, fun _ => budget rfl⟩
      · rw [mutate_ne _ here] at subscribe egress budget
        exact ⟨subscribe, egress, budget⟩

end Sweeps

section Steps
variable (hmacSha1 : Bytes → Bytes → Bytes) (crc32 : Bytes → UInt32)

/-- Whoever is new has an empty queue, as the state that it takes the place of had. -/
theorem step_fills {s : Server} (seated : Seated s.hub) (outlets : Outlets s.hub)
    (e : Servers.Event) (flush : e ≠ .metricsFlush) (takes : ∀ p, e ≠ .egress p) (p : Ptr) :
    Fills (s.hub.heap p) ((Servers.step hmacSha1 crc32 s e).hub.heap p) := by
  rcases (step_moved hmacSha1 crc32 seated e flush takes).moves p with went | ⟨fresh, _, t, went⟩
  · exact went.fills
  · obtain ⟨empty, unspent⟩ := outlets.unborn p fresh
    obtain ⟨_, bounded, ready, _⟩ := went.fills
    refine ⟨?_, fun _ => bounded (Nat.zero_le _), fun _ => ready fun waits => absurd rfl waits, ?_⟩
    · rw [empty]
      exact List.nil_prefix
    · rw [unspent]
      exact Nat.zero_le _

theorem step_unborn {s : Server} (seated : Seated s.hub) (outlets : Outlets s.hub)
    (e : Servers.Event) (p : Ptr) (unborn : (Servers.step hmacSha1 crc32 s e).hub.nextPtr ≤ p) :
    ((Servers.step hmacSha1 crc32 s e).hub.heap p).egress = [] ∧
      ((Servers.step hmacSha1 crc32 s e).hub.heap p).rtxBudgetUsed = 0 := by
  have before : s.hub.nextPtr ≤ p → (s.hub.heap p).egress = [] ∧ (s.hub.heap p).rtxBudgetUsed = 0 :=
    outlets.unborn p
  by_cases roams : Roams e
  · cases e with
    | reaper nowMs =>
      have same := runZombieReaper_outlet s.hub nowMs p
      simp only [outlet, Prod.mk.injEq] at same
      have known := (runZombieReaper_serves s.hub nowMs).nextPtr
      simp only [Servers.step, push] at unborn ⊢
      rw [known] at unborn
      rw [same.2.1, same.2.2]
      exact before unborn
    | metricsFlush =>
      have known := (step_fixed hmacSha1 crc32 (s := s) (e := .metricsFlush) id).2
      rw [known] at unborn
      obtain ⟨_, egress, budget⟩ := flushMetrics_outlet s.hub p
      obtain ⟨empty, unspent⟩ := before unborn
      exact ⟨egress.trans empty, budget unspent⟩
    | srtpKeys q pc =>
      have same : Shows (fun s => (s.egress, s.rtxBudgetUsed)) s.hub.heap
          (Servers.step hmacSha1 crc32 s (.srtpKeys q pc)).hub.heap :=
        Shows.mutate (p := q) (f := fun st => st.installSrtpKeys pc) (by cases pc <;> rfl)
      obtain ⟨empty, unspent⟩ := before unborn
      have both := same p
      simp only [Prod.mk.injEq] at both
      exact ⟨both.1.trans empty, both.2.trans unspent⟩
    | egress q =>
      obtain ⟨empty, unspent⟩ := before unborn
      simp only [Servers.step]
      by_cases here : p = q
      · subst here
        rw [mutate_self]
        exact ⟨by rw [empty]; rfl, unspent⟩
      · rw [mutate_ne _ here]
        exact ⟨empty, unspent⟩
    | _ => exact roams.elim
  · rcases step_confined hmacSha1 crc32 seated e roams with same | ⟨r, _, confined⟩
    · rw [same] at unborn ⊢
      exact before unborn
    · have earlier := Nat.le_trans confined.grows unborn
      rw [confined.alone p (.inr unborn) fun u here =>
        absurd (seated.sound.allocated here) (Nat.not_lt.mpr earlier)]
      exact before earlier

theorem step_outlets {s : Server} (seated : Seated s.hub) (outlets : Outlets s.hub)
    (e : Servers.Event) : Outlets (Servers.step hmacSha1 crc32 s e).hub := by
  suffices only : ∀ p, ((Servers.step hmacSha1 crc32 s e).hub.heap p).egress.length ≤
      egressQueueSize ∧ (((Servers.step hmacSha1 crc32 s e).hub.heap p).egress ≠ [] →
        ((Servers.step hmacSha1 crc32 s e).hub.heap p).isSubscribeReady = true) by
    exact ⟨fun p => (only p).1, fun p => (only p).2,
      step_unborn hmacSha1 crc32 seated outlets e⟩
  intro p
  have bounded := outlets.bounded p
  have ready := outlets.ready p
  by_cases takes : ∃ q, e = .egress q
  · obtain ⟨q, rfl⟩ := takes
    simp only [Servers.step]
    by_cases here : p = q
    · subst here
      rw [mutate_self]
      refine ⟨Nat.le_trans ?_ bounded, fun waits => ready fun empty => waits ?_⟩
      · simp only [List.length_tail]
        omega
      · simp only [empty, List.tail_nil]
    · rw [mutate_ne _ here]
      exact ⟨bounded, ready⟩
  by_cases flush : e = .metricsFlush
  · subst flush
    obtain ⟨subscribe, egress, _⟩ := flushMetrics_outlet s.hub p
    simp only [Servers.step, egress]
    exact ⟨bounded, fun waits => (congrArg SessionState.ready subscribe).trans (ready waits)⟩
  · have fills := step_fills hmacSha1 crc32 seated outlets e flush (fun q same => takes ⟨q, same⟩) p
    exact ⟨fills.bounded bounded, fills.ready ready⟩

/-- The same for the events that a datagram is told as. -/
theorem counted_outlets {c : Counted} (seated : Seated c.server.hub) (outlets : Outlets c.server.hub)
    (e : SendCounts.Event) : Outlets (SendCounts.step hmacSha1 crc32 c e).server.hub ∧
      ((∀ p now, e ≠ .server (.egress p) now) → ∀ p, (c.server.hub.heap p).egress <+:
        ((SendCounts.step hmacSha1 crc32 c e).server.hub.heap p).egress) := by
  cases e with
  | server e now =>
    refine ⟨step_outlets hmacSha1 crc32 seated outlets e, fun takes p => ?_⟩
    by_cases flush : e = .metricsFlush
    · subst flush
      exact (flushMetrics_outlet c.server.hub p).2.1 ▸ List.prefix_refl _
    · exact (step_fills hmacSha1 crc32 seated outlets e flush
        (fun q same => takes q now (same ▸ rfl)) p).appends
  | publishRtcp remote buf touchMs draw =>
    simp only [SendCounts.step, SenderReports.step]
    cases found : c.server.hub.findByAddr remote with
    | none =>
      simp only [SenderReports.processPublishRtcp, found]
      exact ⟨outlets, fun _ p => List.prefix_refl _⟩
    | some owner =>
      have confined := processPublishRtcp_confined seated found buf touchMs draw (sentBy c)
      have known : (SenderReports.processPublishRtcp c.server.hub remote buf touchMs draw
          (sentBy c)).1.nextPtr = c.server.hub.nextPtr := by
        rcases @processPublishRtcp_spec c.server.hub remote buf touchMs draw (sentBy c) with
          same | ⟨_, _, _, _, heap, _, next, _⟩
        · rw [same]
        · rw [next]
      have fills : ∀ p, Fills (c.server.hub.heap p) ((SenderReports.processPublishRtcp c.server.hub
          remote buf touchMs draw (sentBy c)).1.heap p) := by
        intro p
        rcases confined.moves p with went | ⟨fresh, born, _⟩
        · exact went.fills
        · rw [known] at born
          exact absurd born (Nat.not_lt.mpr fresh)
      refine ⟨⟨fun p => (fills p).bounded (outlets.bounded p), fun p => (fills p).ready (outlets.ready p),
        fun p unborn => ?_⟩, fun _ p => (fills p).appends⟩
      have earlier := known ▸ unborn
      rw [confined.alone p (.inr unborn) fun u here =>
        absurd (seated.sound.allocated here) (Nat.not_lt.mpr earlier)]
      exact outlets.unborn p earlier

end Steps

/-- What an egress task hands over to the wire, and where it goes. -/
def handedOver (s : Transport) : DtlsTransport.Event → List (Ptr × SocketAddr × EgressPacket)
  | .egress p _ =>
    match (s.hub.heap p).subscribe.address, (s.hub.heap p).egress with
    | some addr, pkt :: _ => if p ∈ s.egressTasks then [(p, addr, pkt)] else []
    | _, _ => []
  | _ => []

def packetsFor (p : Ptr) (log : List (Ptr × SocketAddr × EgressPacket)) : List EgressPacket :=
  (log.filter (·.1 = p)).map (·.2.2)

theorem packetsFor_append (p : Ptr) (log more : List (Ptr × SocketAddr × EgressPacket)) :
    packetsFor p (log ++ more) = packetsFor p log ++ packetsFor p more := by
  simp only [packetsFor, List.filter_append, List.map_append]

section Transport
variable (hmacSha1 : Bytes → Bytes → Bytes) (crc32 : Bytes → UInt32) (shard : SocketAddr → WorkerId)

structure Flowing (s : Transport) : Prop where
  tended : Tended shard s
  keyed : Keyed s
  spawned : Spawned s
  outlets : Outlets s.hub

/-- A step that no egress task takes is told as events that none takes. -/
theorem told_quiet (s : Transport) (e : DtlsTransport.Event) (takes : ∀ p now, e ≠ .egress p now) :
    ∀ t ∈ told shard s e, ∀ p now, t ≠ SendCounts.Event.server (.egress p) now := by
  have one : ∀ e : Servers.Event, (∀ p, e ≠ .egress p) → ∀ t ∈ plainly [e], ∀ p now,
      t ≠ SendCounts.Event.server (.egress p) now := by
    intro e plain t member p now
    obtain rfl := List.mem_singleton.mp member
    simp only [ne_eq, SendCounts.Event.server.injEq, not_and]
    exact fun same => absurd same (plain p)
  cases e with
  | local_ e =>
    obtain ⟨e, here⟩ := e
    refine one e fun p same => ?_
    rw [same] at here
    simp [isLocal] at here
  | datagram remote buf o =>
    simp only [told, datagramTold]
    split
    · exact fun t none_ => by simp at none_
    split
    · exact one _ fun p => by simp
    · intro t member p now same
      have media := (srtpTold_from s.hub remote buf o t member).media
      rw [same] at media
      exact media
    · exact fun t none_ => by simp at none_
    · exact fun t none_ => by simp at none_
  | established t material =>
    simp only [told, establishedTold]
    split
    · split
      · exact one _ fun p => by simp
      · exact fun t none_ => by simp at none_
    · exact fun t none_ => by simp at none_
  | egress p now => exact absurd rfl (takes p now)
  | _ => exact fun t none_ => by simp [told] at none_

/-- A step that no egress task takes. -/
theorem quiet_feeds {s : Transport} (seated : Seated s.hub) (outlets : Outlets s.hub)
    (e : DtlsTransport.Event) (takes : ∀ p now, e ≠ .egress p now) :
    Outlets (DtlsTransport.step hmacSha1 crc32 shard s e).hub ∧ ∀ p, (s.hub.heap p).egress <+:
      ((DtlsTransport.step hmacSha1 crc32 shard s e).hub.heap p).egress := by
  have both := @lift_relation _ _ _ _ _ _ Transport.counted _
    (transport_tells hmacSha1 crc32 shard)
    (fun a b => Seated a.server.hub ∧ Outlets a.server.hub → (Seated b.server.hub ∧
      Outlets b.server.hub) ∧ ∀ p, (a.server.hub.heap p).egress <+: (b.server.hub.heap p).egress)
    (fun _ held => ⟨held, fun _ => List.prefix_refl _⟩)
    (fun first second held => ⟨(second (first held).1).1, fun p =>
      ((first held).2 p).trans ((second (first held).1).2 p)⟩) s e
    fun t member a held => by
      obtain ⟨outlets, feeds⟩ := counted_outlets hmacSha1 crc32 held.1 held.2 t
      exact ⟨⟨counted_seated hmacSha1 crc32 a t held.1, outlets⟩,
        feeds (told_quiet shard s e takes t member)⟩
  obtain ⟨kept, feeds⟩ := both ⟨seated, outlets⟩
  exact ⟨kept.2, feeds⟩

/-- The task of a subscriber takes the first packet, and hands it over. -/
theorem egress_feeds {s : Transport} (flowing : Flowing shard s) (q : Ptr) (now : PttRewriter.Instant) :
    Outlets (DtlsTransport.step hmacSha1 crc32 shard s (.egress q now)).hub ∧
      ∀ p, (s.hub.heap p).egress = packetsFor p (handedOver s (.egress q now)) ++
        ((DtlsTransport.step hmacSha1 crc32 shard s (.egress q now)).hub.heap p).egress := by
  by_cases running : q ∈ s.egressTasks
  · have ready := (flowing.spawned.ready q).mp running
    obtain ⟨addr, latched⟩ := Option.isSome_iff_exists.mp
      (flowing.keyed.address (flowing.keyed.keyedBy ready))
    have latched : (s.hub.heap q).subscribe.address = some addr := latched
    simp only [DtlsTransport.step, if_pos running]
    refine ⟨(counted_outlets hmacSha1 crc32 flowing.tended.seated flowing.outlets _).1, fun p => ?_⟩
    show (s.hub.heap p).egress = packetsFor p (handedOver s (.egress q now)) ++
      (mutate s.hub.heap q (fun st => { st with egress := st.egress.tail }) p).egress
    cases queued : (s.hub.heap q).egress with
    | nil =>
      by_cases here : p = q
      · subst here
        simp [handedOver, latched, queued, packetsFor]
      · rw [mutate_ne _ here]
        simp [handedOver, latched, queued, packetsFor]
    | cons pkt rest =>
      simp only [handedOver, latched, queued, if_pos running, packetsFor]
      by_cases here : p = q
      · subst here
        rw [mutate_self, queued]
        simp
      · rw [mutate_ne _ here]
        simp [Ne.symm here]
  · simp only [DtlsTransport.step, if_neg running]
    refine ⟨flowing.outlets, fun p => ?_⟩
    have nothing : handedOver s (.egress q now) = [] := by
      simp only [handedOver, if_neg running]
      split <;> rfl
    rw [nothing]
    rfl

theorem step_flowing {s : Transport} (flowing : Flowing shard s) (e : DtlsTransport.Event) :
    Flowing shard (DtlsTransport.step hmacSha1 crc32 shard s e) ∧ ∀ p, (s.hub.heap p).egress <+:
      packetsFor p (handedOver s e) ++
        ((DtlsTransport.step hmacSha1 crc32 shard s e).hub.heap p).egress := by
  obtain ⟨keyed, spawned⟩ := step_keyed hmacSha1 crc32 shard s e flowing.tended
    ⟨flowing.keyed, flowing.spawned⟩
  have tended := step_tended hmacSha1 crc32 shard s e flowing.tended
  by_cases takes : ∃ q now, e = .egress q now
  · obtain ⟨q, now, rfl⟩ := takes
    obtain ⟨outlets, feeds⟩ := egress_feeds hmacSha1 crc32 shard flowing q now
    exact ⟨⟨tended, keyed, spawned, outlets⟩, fun p => feeds p ▸ List.prefix_refl _⟩
  · have quiet : ∀ q now, e ≠ .egress q now := fun q now same => takes ⟨q, now, same⟩
    obtain ⟨outlets, feeds⟩ := quiet_feeds hmacSha1 crc32 shard flowing.tended.seated
      flowing.outlets e quiet
    refine ⟨⟨tended, keyed, spawned, outlets⟩, fun p => ?_⟩
    have nothing : handedOver s e = [] := by
      cases e with
      | egress q now => exact absurd rfl (quiet q now)
      | _ => rfl
    rw [nothing]
    exact feeds p

theorem run_flowing (es : List DtlsTransport.Event) :
    Flowing shard (run (DtlsTransport.step hmacSha1 crc32 shard) Transport.new es) := by
  have start : Flowing shard Transport.new :=
    ⟨new_tended shard, new_keyed.1, new_keyed.2, new_outlets⟩
  exact @run_invariant _ _ (DtlsTransport.step hmacSha1 crc32 shard) (Flowing shard)
    (fun s e flowing => (step_flowing hmacSha1 crc32 shard flowing e).1) Transport.new start es

/-- What is queued for a subscriber is handed over to the wire in order, and nothing of it is lost
    or sent twice, whatever else happens in the meantime. A queue keeps to its size, and none
    is left without a task that empties it. -/
theorem egress_in_order (es fs : List DtlsTransport.Event) (p : Ptr) :
    let s := run (DtlsTransport.step hmacSha1 crc32 shard) Transport.new es
    let t := run (DtlsTransport.step hmacSha1 crc32 shard) s fs
    (s.hub.heap p).egress <+: packetsFor p (story (DtlsTransport.step hmacSha1 crc32 shard)
        handedOver s fs) ++ (t.hub.heap p).egress ∧
      (t.hub.heap p).egress.length ≤ egressQueueSize ∧
      ((t.hub.heap p).egress ≠ [] → p ∈ t.egressTasks) := by
  intro s t
  have flowing : Flowing shard s := run_flowing hmacSha1 crc32 shard es
  have kept := @story_invariant _ _ _ (DtlsTransport.step hmacSha1 crc32 shard) handedOver
    (fun c log => Flowing shard c ∧
      (s.hub.heap p).egress <+: packetsFor p log ++ (c.hub.heap p).egress)
    (fun c e log held => by
      obtain ⟨flowing, feeds⟩ := step_flowing hmacSha1 crc32 shard held.1 e
      refine ⟨flowing, held.2.trans ?_⟩
      rw [packetsFor_append, List.append_assoc]
      exact (List.prefix_append_right_inj _).mpr (feeds p))
    s [] ⟨flowing, List.prefix_refl _⟩ fs
  obtain ⟨after, feeds⟩ := kept
  exact ⟨feeds, after.outlets.bounded p, fun waits =>
    (after.spawned.ready p).mpr (after.outlets.ready p waits)⟩

end Transport
end EgressOrder
