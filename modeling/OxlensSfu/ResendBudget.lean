import OxlensSfu.EgressOrder

/-
The RTX budget of a subscriber. Between two flushes of the metrics no more packets are resent
to it than the budget allows, whatever it asks for.
-/
namespace ResendBudget
open WireBytes SfuConfig GuardedRun StepRefinement KeyedMap Participants RoomHubs RoomHub Signaling
open RoomHandlers Ingress Servers Membership Seating RoomFrames ParticipantMoves RoomEvents
open EgressOrder
open FloorControl (UserId)

/-- The packets that went into the queue. -/
def resends (replies : List RtxReply) : Nat := replies.countP (·.enqueued)

def spent (h : Heap) (p : Ptr) : Nat := min (h p).rtxBudgetUsed rtxBudgetPer3s

section Replies
variable (subscriber : Ptr)

theorem buildReply_budget (mediaSsrc rtxSsrc : UInt32) (reverse : UInt16 → UInt16) (publisher : Ptr)
    (state : Heap × List RtxReply) (lost : UInt16) : Shows (·.rtxBudgetUsed) state.1
      (buildReply mediaSsrc rtxSsrc reverse publisher state lost).1 := by
  unfold buildReply
  simp only
  split
  · exact .refl _ state.1
  · dsimp only
    exact .mutate rfl

theorem buildReply_unsent (mediaSsrc rtxSsrc : UInt32) (reverse : UInt16 → UInt16) (publisher : Ptr)
    (state : Heap × List RtxReply) (lost : UInt16) (unsent : ∀ r ∈ state.2, r.enqueued = false) :
    ∀ r ∈ (buildReply mediaSsrc rtxSsrc reverse publisher state lost).2, r.enqueued = false := by
  unfold buildReply
  simp only
  split
  · exact unsent
  · intro r member
    rcases List.mem_append.mp member with before | last
    · exact unsent r before
    · rw [List.mem_singleton.mp last]

theorem escalate_budget (h : Heap) (publisher : Ptr) (lookupSsrc : UInt32) (asked found nowMs : Nat) :
    Shows (·.rtxBudgetUsed) h (escalate subscriber h publisher lookupSsrc asked found nowMs) := by
  unfold escalate
  split
  · exact (Shows.mutate rfl).trans (.mutate (view_requestKeyframe (fun _ _ => rfl) _ _ _))
  · exact .refl _ h

/-- Every packet that goes into the queue takes one of what is left. -/
theorem enqueueReply_spends (state : Heap × List RtxReply) (reply : RtxReply)
    (unsent : reply.enqueued = false) :
    resends (enqueueReply subscriber state reply).2 + spent state.1 subscriber ≤
      resends state.2 + spent (enqueueReply subscriber state reply).1 subscriber := by
  unfold enqueueReply
  simp only
  split
  · simp only [resends, spent, List.countP_append, List.countP_singleton, unsent, mutate_self,
      Bool.false_eq_true, if_false]
    omega
  · rename_i left
    have one : ∀ pkt, ({ state.1 subscriber with
        rtxBudgetUsed := (state.1 subscriber).rtxBudgetUsed + 1 }.trySend pkt).rtxBudgetUsed =
          (state.1 subscriber).rtxBudgetUsed + 1 := fun pkt => view_trySend (fun _ _ => rfl) _ pkt
    simp only [resends, spent, List.countP_append, List.countP_singleton, mutate_self, one]
    split <;> omega

theorem enqueueReplies_spend (replies : List RtxReply) (unsent : ∀ r ∈ replies, r.enqueued = false)
    (state : Heap × List RtxReply) :
    resends (replies.foldl (enqueueReply subscriber) state).2 + spent state.1 subscriber ≤
      resends state.2 + spent (replies.foldl (enqueueReply subscriber) state).1 subscriber := by
  induction replies generalizing state with
  | nil => exact Nat.le_refl _
  | cons reply replies ih =>
    have one := enqueueReply_spends subscriber state reply (unsent reply List.mem_cons_self)
    have rest := ih (fun r member => unsent r (List.mem_cons_of_mem _ member))
      (enqueueReply subscriber state reply)
    rw [List.foldl_cons]
    omega

theorem retransmit_spends (h : Heap) (nack : NackItem) (lookupSsrc rtxSsrc : UInt32)
    (reverse : UInt16 → UInt16) (publisher : Ptr) (nowMs : Nat) :
    resends (retransmit subscriber h nack lookupSsrc rtxSsrc reverse publisher nowMs).2 +
        spent h subscriber ≤
      spent (retransmit subscriber h nack lookupSsrc rtxSsrc reverse publisher nowMs).1 subscriber := by
  have built : ∀ (lost : List UInt16) (state : Heap × List RtxReply),
      (∀ r ∈ state.2, r.enqueued = false) →
        (∀ r ∈ (lost.foldl (buildReply nack.mediaSsrc rtxSsrc reverse publisher) state).2,
          r.enqueued = false) ∧
        Shows (·.rtxBudgetUsed) state.1
          (lost.foldl (buildReply nack.mediaSsrc rtxSsrc reverse publisher) state).1 := by
    intro lost
    induction lost with
    | nil => exact fun state unsent => ⟨unsent, .refl _ state.1⟩
    | cons l lost ih =>
      intro state unsent
      obtain ⟨rest, same⟩ := ih _ (buildReply_unsent nack.mediaSsrc rtxSsrc reverse publisher state l
        unsent)
      exact ⟨rest, (buildReply_budget nack.mediaSsrc rtxSsrc reverse publisher state l).trans same⟩
  simp only [retransmit]
  obtain ⟨unsent, same⟩ := built (expandNack nack.pid nack.blp) (h, []) (by simp)
  generalize (expandNack nack.pid nack.blp).foldl
    (buildReply nack.mediaSsrc rtxSsrc reverse publisher) (h, []) = state at unsent same ⊢
  have asked := escalate_budget subscriber state.1 publisher lookupSsrc
    (expandNack nack.pid nack.blp).length state.2.length nowMs
  have spends := enqueueReplies_spend subscriber state.2 unsent (escalate subscriber state.1 publisher
    lookupSsrc (expandNack nack.pid nack.blp).length state.2.length nowMs, [])
  have unchanged : spent (escalate subscriber state.1 publisher lookupSsrc
      (expandNack nack.pid nack.blp).length state.2.length nowMs) subscriber = spent h subscriber :=
    congrArg (min · rtxBudgetPer3s) ((asked subscriber).trans (same subscriber))
  rw [unchanged] at spends
  simpa only [resends, List.countP_nil, Nat.zero_add] using spends

variable (arcs : Ptr → Participant) (room : Room) (visit : List UserId)

theorem handleNackBlock_spends (h : Heap) (block : Bytes) (nowMs : Nat) :
    resends (handleNackBlock arcs room visit subscriber h block nowMs).2 + spent h subscriber ≤
      spent (handleNackBlock arcs room visit subscriber h block nowMs).1 subscriber := by
  have item : ∀ (state : Heap × List RtxReply) (nack : NackItem),
      resends (handleNackItem arcs room visit subscriber nowMs state nack).2 +
          spent state.1 subscriber ≤
        resends state.2 +
          spent (handleNackItem arcs room visit subscriber nowMs state nack).1 subscriber := by
    intro state nack
    unfold handleNackItem
    simp only
    split
    · exact Nat.le_refl _
    split
    · exact Nat.le_refl _
    split
    · exact Nat.le_refl _
    · have spends := retransmit_spends subscriber state.1 nack
        (nackSource arcs room visit subscriber state.1 nack.mediaSsrc).1 ‹_›
        (nackSource arcs room visit subscriber state.1 nack.mediaSsrc).2 ‹_› nowMs
      simp only [resends, List.countP_append] at spends ⊢
      omega
  have items : ∀ (nacks : List NackItem) (state : Heap × List RtxReply),
      resends (nacks.foldl (handleNackItem arcs room visit subscriber nowMs) state).2 +
          spent state.1 subscriber ≤
        resends state.2 +
          spent (nacks.foldl (handleNackItem arcs room visit subscriber nowMs) state).1 subscriber := by
    intro nacks
    induction nacks with
    | nil => exact fun state => Nat.le_refl _
    | cons nack nacks ih =>
      intro state
      have one := item state nack
      have rest := ih (handleNackItem arcs room visit subscriber nowMs state nack)
      rw [List.foldl_cons]
      omega
  unfold handleNackBlock
  simp only
  split
  · simp [resends]
  · simpa [resends] using items (parseRtcpNack block) (h, [])

end Replies

/-- What an event resends to a subscriber. -/
def resentTo (p : Ptr) (s : Server) : Event → List RtxReply
  | .nack remote block touchMs nowMs visit =>
    match s.hub.findByAddr remote with
    | some (q, _, _) =>
      if q = p then
        (handleSubscribeNack s.hub remote block touchMs nowMs visit).2.filter (·.enqueued)
      else []
    | none => []
  | _ => []

section Steps
variable (hmacSha1 : Bytes → Bytes → Bytes) (crc32 : Bytes → UInt32)

theorem handleSubscribeNack_spends (hub : RoomHub) {remote : SocketAddr} {p : Ptr} {pc : PcType}
    {r : RoomId} (found : hub.findByAddr remote = some (p, pc, r)) (block : Bytes)
    (touchMs nowMs : Nat) (visit : List UserId) :
    resends (handleSubscribeNack hub remote block touchMs nowMs visit).2 + spent hub.heap p ≤
      spent (handleSubscribeNack hub remote block touchMs nowMs visit).1.heap p := by
  have touched : spent (hub.touch p touchMs).heap p = spent hub.heap p := by
    simp only [spent, touch, mutate_self, ParticipantState.touch]
  simp only [handleSubscribeNack, found]
  split
  · simp [resends, touched]
  split
  · rw [← touched]
    exact handleNackBlock_spends p hub.arcs _ visit _ block nowMs
  · simp [resends, touched]

theorem step_spends {s : Server} (seated : Seated s.hub) (outlets : Outlets s.hub) (e : Event)
    (flush : e ≠ .metricsFlush) (p : Ptr) :
    (resentTo p s e).length + spent s.hub.heap p ≤
      spent (Servers.step hmacSha1 crc32 s e).hub.heap p := by
  have grows : spent s.hub.heap p ≤ spent (Servers.step hmacSha1 crc32 s e).hub.heap p := by
    by_cases takes : ∃ q, e = .egress q
    · obtain ⟨q, rfl⟩ := takes
      have same : Shows (·.rtxBudgetUsed) s.hub.heap
          (Servers.step hmacSha1 crc32 s (.egress q)).hub.heap :=
        Shows.mutate (p := q) (f := fun st => { st with egress := st.egress.tail }) rfl
      exact Nat.le_of_eq (congrArg (min · rtxBudgetPer3s) (same p)).symm
    · have spends := (step_fills hmacSha1 crc32 seated outlets e flush
        (fun q same => takes ⟨q, same⟩) p).spends
      simp only [spent]
      omega
  have nothing : resentTo p s e = [] → (resentTo p s e).length + spent s.hub.heap p ≤
      spent (Servers.step hmacSha1 crc32 s e).hub.heap p := by
    intro none_
    rw [none_]
    simpa using grows
  cases e with
  | nack remote block touchMs nowMs visit =>
    cases found : s.hub.findByAddr remote with
    | none => exact nothing (by simp only [resentTo, found])
    | some owner =>
      obtain ⟨q, pc, r⟩ := owner
      by_cases own : q = p
      · subst own
        have spends := handleSubscribeNack_spends s.hub found block touchMs nowMs visit
        rw [resends, List.countP_eq_length_filter] at spends
        simp only [resentTo, found, if_pos]
        exact spends
      · exact nothing (by simp only [resentTo, found, if_neg own])
  | _ => exact nothing rfl

theorem run_outlets (es : List Event) :
    Seated (run (Servers.step hmacSha1 crc32) Server.new es).hub ∧
      Outlets (run (Servers.step hmacSha1 crc32) Server.new es).hub :=
  @run_invariant _ _ (Servers.step hmacSha1 crc32) (fun s => Seated s.hub ∧ Outlets s.hub)
    (fun s e held => ⟨Seating.step_seated hmacSha1 crc32 s e held.1,
      step_outlets hmacSha1 crc32 held.1 held.2 e⟩) Server.new ⟨new_seated, new_outlets⟩ es

/-- Between two flushes a subscriber is resent no more packets than its budget allows, however
    many NACKs it sends. -/
theorem resends_within_budget (es fs : List Event) (unflushed : .metricsFlush ∉ fs) (p : Ptr) :
    (story (Servers.step hmacSha1 crc32) (resentTo p)
      (run (Servers.step hmacSha1 crc32) Server.new es) fs).length ≤ rtxBudgetPer3s := by
  obtain ⟨seated, outlets⟩ := run_outlets hmacSha1 crc32 es
  generalize run (Servers.step hmacSha1 crc32) Server.new es = s at seated outlets
  have kept := @story_guarded _ _ _ (Servers.step hmacSha1 crc32) (resentTo p)
    (· ≠ .metricsFlush) (fun c log => (Seated c.hub ∧ Outlets c.hub) ∧
      log.length ≤ spent c.hub.heap p)
    (fun c e log flush held => by
      obtain ⟨⟨seated, outlets⟩, within⟩ := held
      have spends := step_spends hmacSha1 crc32 seated outlets e flush p
      refine ⟨⟨Seating.step_seated hmacSha1 crc32 c e seated,
        step_outlets hmacSha1 crc32 seated outlets e⟩, ?_⟩
      rw [List.length_append]
      omega)
    s [] ⟨⟨seated, outlets⟩, Nat.zero_le _⟩ fs fun e member same => unflushed (same ▸ member)
  rw [List.nil_append] at kept
  exact Nat.le_trans kept.2 (Nat.min_le_right _ _)

end Steps
section Samples

/-- One of two subscribers loses a packet, and asks for it twice. -/
def lossyRoom : List Event :=
  sampleRoom .conference false :: joinAs 0 "a" 1 ++ joinAs 1 "b" 2 ++
    startMedia 0 1 .publish 5000 ++ startMedia 1 2 .subscribe 5001 ++
    [publishVideo 0 [(11, none)], .rtp (AddressIndex.portAt 5000) (keyframePacket 5 0 11 0)
      (sampleOracle 0)]

def askTwice : List Event :=
  [.nack (AddressIndex.portAt 5001) (nackBlock 11 5) 1000 1000 ["a", "b"],
    .nack (AddressIndex.portAt 5001) (nackBlock 11 5) 1001 1001 ["a", "b"]]

theorem twice_within_budget :
    (story (Servers.step sampleHmac fun _ => 0) (resentTo 1)
      (run (Servers.step sampleHmac fun _ => 0) .new lossyRoom) askTwice).length = 2 ∧
    (story (Servers.step sampleHmac fun _ => 0) (resentTo 1)
      (run (Servers.step sampleHmac fun _ => 0) .new lossyRoom) askTwice).length ≤ rtxBudgetPer3s :=
  ⟨by decide +kernel, resends_within_budget sampleHmac (fun _ => 0) lossyRoom askTwice
    (by simp [askTwice]) 1⟩

end Samples
end ResendBudget
