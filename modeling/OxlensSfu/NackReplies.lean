import OxlensSfu.Ingress

/-
What stands behind every retransmission. The heap changes while a NACK block is worked
off, but not in what the lookups read, so each reply is explained by the heap before it.
-/
namespace NackReplies
open WireBytes SfuConfig RtpPacket RtxPacket FloorControl PttRewriter KeyedMap Participants
open RoomHubs Ingress

/-- The part of a participant's state that the lookups read. -/
def media (s : ParticipantState) :
    RtpCache × List Track × UInt32 × Table UserId SubscribeLayerEntry :=
  (s.rtpCache, s.tracks, s.simulcastVideoSsrc, s.subscribeLayers)

theorem media_trySend (s : ParticipantState) (pkt : EgressPacket) :
    media (s.trySend pkt) = media s := view_trySend (fun _ _ => rfl) s pkt

theorem media_requestKeyframe (s : ParticipantState) (ssrc : Option UInt32) (delays : List Nat) :
    media (s.requestKeyframe ssrc delays) = media s :=
  view_requestKeyframe (fun _ _ => rfl) s ssrc delays

section Lookups
variable (arcs : Ptr → Participant) (room : Room) (visit : List UserId) (subscriber : Ptr)
  {h h' : Heap}

theorem shows_fields (same : Shows media h h') (p : Ptr) :
    (h' p).rtpCache = (h p).rtpCache ∧ (h' p).tracks = (h p).tracks ∧
      (h' p).simulcastVideoSsrc = (h p).simulcastVideoSsrc ∧
      (h' p).subscribeLayers = (h p).subscribeLayers := by
  have fields := same p
  simp only [media, Prod.mk.injEq] at fields
  exact fields

/-- The same of all states at once, as the lookups read them. -/
theorem shows_reads (same : Shows media h h') :
    (∀ p, (h' p).tracks = (h p).tracks) ∧
      (∀ p, (h' p).simulcastVideoSsrc = (h p).simulcastVideoSsrc) ∧
      ∀ p, (h' p).subscribeLayers = (h p).subscribeLayers :=
  ⟨fun p => (shows_fields same p).2.1, fun p => (shows_fields same p).2.2.1,
    fun p => (shows_fields same p).2.2.2⟩

theorem findByTrackSsrc_shows (same : Shows media h h') (ssrc : UInt32) :
    room.findByTrackSsrc h' visit ssrc = room.findByTrackSsrc h visit ssrc := by
  simp only [Room.findByTrackSsrc, (shows_reads same).1]

theorem nackSource_shows (same : Shows media h h') (mediaSsrc : UInt32) :
    nackSource arcs room visit subscriber h' mediaSsrc =
      nackSource arcs room visit subscriber h mediaSsrc := by
  obtain ⟨tracks, vssrc, layers⟩ := shows_reads same
  simp only [nackSource, Room.findPublisherByVssrc, ParticipantState.layerSsrc,
    ParticipantState.firstVideoSsrc, tracks, vssrc, layers]

theorem nackPublisher_shows (same : Shows media h h') (mediaSsrc : UInt32) :
    nackPublisher arcs room visit subscriber h' mediaSsrc =
      nackPublisher arcs room visit subscriber h mediaSsrc := by
  rw [nackPublisher, nackPublisher, nackSource_shows arcs room visit subscriber same,
    findByTrackSsrc_shows room visit same]

end Lookups

/-- The packet asked for is looked up in the cache of the publisher that the SSRC leads
    to, and the reply is built from what is found there. -/
structure Answers (arcs : Ptr → Participant) (room : Room) (visit : List UserId) (subscriber : Ptr)
    (h : Heap) (nack : NackItem) (reply : RtxReply) : Prop where
  ssrc : reply.mediaSsrc = nack.mediaSsrc
  requested : reply.requested ∈ expandNack nack.pid nack.blp
  publisher : nackPublisher arcs room visit subscriber h nack.mediaSsrc = some reply.publisher
  original : (h reply.publisher).rtpCache.get
    ((nackSource arcs room visit subscriber h nack.mediaSsrc).2 reply.requested) =
      some reply.original
  built : ∃ rtxSsrc rtxSeq, reply.rtx = buildRtxPacket reply.original rtxSsrc rtxSeq

section Block
variable (arcs : Ptr → Participant) (room : Room) (visit : List UserId) (subscriber : Ptr)

theorem Answers.shows {arcs room visit subscriber} {h h' : Heap} {nack : NackItem}
    {reply : RtxReply} (answers : Answers arcs room visit subscriber h' nack reply)
    (same : Shows media h h') : Answers arcs room visit subscriber h nack reply where
  ssrc := answers.ssrc
  requested := answers.requested
  publisher := by
    rw [← nackPublisher_shows arcs room visit subscriber same]
    exact answers.publisher
  original := by
    rw [← nackSource_shows arcs room visit subscriber same, ← (shows_fields same _).1]
    exact answers.original
  built := answers.built

/-- The replies built for the lost numbers of one item. -/
theorem buildReply_fold (mediaSsrc rtxSsrc : UInt32) (reverse : UInt16 → UInt16)
    (publisher : Ptr) (lost : List UInt16) (h : Heap) :
    let done := lost.foldl (buildReply mediaSsrc rtxSsrc reverse publisher) (h, [])
    Shows media h done.1 ∧ ∀ reply ∈ done.2, reply.mediaSsrc = mediaSsrc ∧
      reply.requested ∈ lost ∧ reply.publisher = publisher ∧
      (h publisher).rtpCache.get (reverse reply.requested) = some reply.original ∧
      ∃ rtxSeq, reply.rtx = buildRtxPacket reply.original rtxSsrc rtxSeq := by
  have all : ∀ (rest : List UInt16) (state : Heap × List RtxReply), Shows media h state.1 →
      let done := rest.foldl (buildReply mediaSsrc rtxSsrc reverse publisher) state
      Shows media h done.1 ∧ ∀ reply ∈ done.2, reply ∈ state.2 ∨ (reply.mediaSsrc = mediaSsrc ∧
        reply.requested ∈ rest ∧ reply.publisher = publisher ∧
        (h publisher).rtpCache.get (reverse reply.requested) = some reply.original ∧
        ∃ rtxSeq, reply.rtx = buildRtxPacket reply.original rtxSsrc rtxSeq) := by
    intro rest
    induction rest with
    | nil => exact fun state same => ⟨same, fun reply member => .inl member⟩
    | cons seq rest ih =>
      intro state same
      obtain ⟨g, built⟩ := state
      simp only [List.foldl_cons, buildReply]
      cases found : (g publisher).rtpCache.get (reverse seq) with
      | none =>
        obtain ⟨kept, replies⟩ := ih (g, built) same
        refine ⟨kept, fun reply member => ?_⟩
        rcases replies reply member with old | ⟨ssrc, asked, rest⟩
        · exact .inl old
        · exact .inr ⟨ssrc, List.mem_cons_of_mem _ asked, rest⟩
      | some original =>
        have next : Shows media h (mutate g publisher fun _ => (g publisher).nextRtxSeq.1) :=
          same.trans (.mutate rfl)
        obtain ⟨kept, replies⟩ := ih (_, built ++ [⟨mediaSsrc, seq, publisher, original,
          buildRtxPacket original rtxSsrc (g publisher).nextRtxSeq.2, false⟩]) next
        refine ⟨kept, fun reply member => ?_⟩
        rcases replies reply member with old | ⟨ssrc, asked, rest⟩
        · rcases List.mem_append.mp old with old | new
          · exact .inl old
          · rw [List.mem_singleton] at new
            subst new
            rw [(shows_fields same publisher).1] at found
            exact .inr ⟨rfl, List.mem_cons_self, rfl, found, _, rfl⟩
        · exact .inr ⟨ssrc, List.mem_cons_of_mem _ asked, rest⟩
  intro done
  obtain ⟨kept, replies⟩ := all lost (h, []) (.refl media h)
  exact ⟨kept, fun reply member => (replies reply member).resolve_left (by simp)⟩

/-- Queueing a reply marks it and touches the subscriber's queue only. -/
theorem enqueueReply_fold (built : List RtxReply) (h : Heap) :
    let done := built.foldl (enqueueReply subscriber) (h, [])
    Shows media h done.1 ∧ ∀ reply ∈ done.2, ∃ before ∈ built,
      reply = { before with enqueued := reply.enqueued } := by
  have all : ∀ (rest : List RtxReply) (state : Heap × List RtxReply),
      let done := rest.foldl (enqueueReply subscriber) state
      Shows media state.1 done.1 ∧ ∀ reply ∈ done.2, reply ∈ state.2 ∨ ∃ before ∈ rest,
        reply = { before with enqueued := reply.enqueued } := by
    intro rest
    induction rest with
    | nil => exact fun state => ⟨.refl media state.1, fun reply member => .inl member⟩
    | cons first rest ih =>
      intro state
      obtain ⟨kept, replies⟩ := ih (enqueueReply subscriber state first)
      have one : Shows media state.1 (enqueueReply subscriber state first).1 ∧
          ∃ mark, (enqueueReply subscriber state first).2 =
            state.2 ++ [{ first with enqueued := mark }] := by
        obtain ⟨g, done⟩ := state
        simp only [enqueueReply]
        split
        · refine ⟨?_, first.enqueued, rfl⟩
          dsimp only
          apply Shows.mutate
          rfl
        · refine ⟨?_, _, rfl⟩
          dsimp only
          apply Shows.mutate
          exact media_trySend _ _
      obtain ⟨keptOne, mark, grown⟩ := one
      refine ⟨keptOne.trans kept, fun reply member => ?_⟩
      rcases replies reply member with old | ⟨before, present, same⟩
      · rw [grown, List.mem_append, List.mem_singleton] at old
        rcases old with old | new
        · exact .inl old
        · exact .inr ⟨first, List.mem_cons_self, by rw [new]⟩
      · exact .inr ⟨before, List.mem_cons_of_mem _ present, same⟩
  intro done
  obtain ⟨kept, replies⟩ := all built (h, [])
  exact ⟨kept, fun reply member => (replies reply member).resolve_left (by simp)⟩

theorem escalate_shows (h : Heap) (publisher : Ptr) (ssrc : UInt32) (asked found nowMs : Nat) :
    Shows media h (escalate subscriber h publisher ssrc asked found nowMs) := by
  unfold escalate
  split
  · exact (Shows.mutate rfl).trans (.mutate (media_requestKeyframe _ _ _))
  · exact .refl media h

theorem handleNackItem_answers (nowMs : Nat) (state : Heap × List RtxReply) (nack : NackItem) :
    Shows media state.1 (handleNackItem arcs room visit subscriber nowMs state nack).1 ∧
      ∀ reply ∈ (handleNackItem arcs room visit subscriber nowMs state nack).2,
        reply ∈ state.2 ∨ Answers arcs room visit subscriber state.1 nack reply := by
  obtain ⟨h, done⟩ := state
  have stay : Shows media h h ∧ ∀ reply ∈ done, reply ∈ done ∨
      Answers arcs room visit subscriber h nack reply :=
    ⟨.refl media h, fun reply member => .inl member⟩
  unfold handleNackItem
  simp only
  split
  · exact stay
  rename_i publisher leads
  split
  · exact stay
  split
  · exact stay
  rename_i rtxSsrc _
  simp only [retransmit]
  obtain ⟨keptBuilt, built⟩ := buildReply_fold nack.mediaSsrc rtxSsrc
    (nackSource arcs room visit subscriber h nack.mediaSsrc).2 publisher
    (expandNack nack.pid nack.blp) h
  obtain ⟨keptQueued, queued⟩ := enqueueReply_fold subscriber
    ((expandNack nack.pid nack.blp).foldl (buildReply nack.mediaSsrc rtxSsrc
      (nackSource arcs room visit subscriber h nack.mediaSsrc).2 publisher) (h, [])).2
    (escalate subscriber _ publisher (nackSource arcs room visit subscriber h nack.mediaSsrc).1
      (expandNack nack.pid nack.blp).length _ nowMs)
  refine ⟨(keptBuilt.trans (escalate_shows subscriber _ _ _ _ _ _)).trans keptQueued, ?_⟩
  intro reply member
  rcases List.mem_append.mp member with old | new
  · exact .inl old
  right
  obtain ⟨before, present, same⟩ := queued reply new
  obtain ⟨ssrc, asked, owner, found, rtxSeq, rtx⟩ := built before present
  rw [same]
  exact ⟨ssrc, asked, by rw [owner]; exact leads, by rw [owner]; exact found, rtxSsrc, rtxSeq, rtx⟩

theorem handleNackBlock_shows (h : Heap) (block : Bytes) (nowMs : Nat) :
    Shows media h (handleNackBlock arcs room visit subscriber h block nowMs).1 := by
  unfold handleNackBlock
  simp only
  split
  · exact .refl media h
  · exact Shows.fold (fun state : Heap × List RtxReply => state.1)
      (fun state nack => (handleNackItem_answers arcs room visit subscriber nowMs state nack).1)
      (parseRtcpNack block) (h, [])

/-- What every reply to one item has, on what the lookups read, every reply to a block has, as
    the heap before the block has it. -/
theorem handleNackBlock_replies {P : Heap → NackItem → RtxReply → Prop}
    (moves : ∀ {h h' nack reply}, Shows media h h' → P h' nack reply → P h nack reply)
    {nowMs : Nat}
    (item : ∀ state nack, ∀ reply ∈ (handleNackItem arcs room visit subscriber nowMs state nack).2,
      reply ∈ state.2 ∨ P state.1 nack reply) (h : Heap) (block : Bytes) :
    ∀ reply ∈ (handleNackBlock arcs room visit subscriber h block nowMs).2,
      ∃ nack ∈ parseRtcpNack block, P h nack reply := by
  have all : ∀ (items : List NackItem) (state : Heap × List RtxReply), Shows media h state.1 →
      ∀ reply ∈ (items.foldl (handleNackItem arcs room visit subscriber nowMs) state).2,
        reply ∈ state.2 ∨ ∃ nack ∈ items, P h nack reply := by
    intro items
    induction items with
    | nil => exact fun state same reply member => .inl member
    | cons nack items ih =>
      intro state same reply member
      have kept := (handleNackItem_answers arcs room visit subscriber nowMs state nack).1
      rcases ih (handleNackItem arcs room visit subscriber nowMs state nack) (same.trans kept)
        reply member with old | ⟨later, present, holds⟩
      · rcases item state nack reply old with old | holds
        · exact .inl old
        · exact .inr ⟨nack, List.mem_cons_self, moves same holds⟩
      · exact .inr ⟨later, List.mem_cons_of_mem _ present, holds⟩
  intro reply member
  unfold handleNackBlock at member
  simp only at member
  split at member
  · simp at member
  · exact (all (parseRtcpNack block) (h, []) (.refl media h) reply member).resolve_left (by simp)

/-- Every reply to a block answers one of its items, as the heap before the block has it. -/
theorem handleNackBlock_answers (h : Heap) (block : Bytes) (nowMs : Nat) :
    Shows media h (handleNackBlock arcs room visit subscriber h block nowMs).1 ∧
      ∀ reply ∈ (handleNackBlock arcs room visit subscriber h block nowMs).2,
        ∃ nack ∈ parseRtcpNack block, Answers arcs room visit subscriber h nack reply := by
  refine ⟨handleNackBlock_shows arcs room visit subscriber h block nowMs, ?_⟩
  apply handleNackBlock_replies arcs room visit subscriber
  · intro h h' nack reply same answers
    exact answers.shows same
  · exact fun state nack =>
      (handleNackItem_answers arcs room visit subscriber nowMs state nack).2

end Block
/-- The replies to a NACK, each with the heap it found. -/
theorem nack_answered {hub : RoomHub} {remote : SocketAddr} {block : Bytes} {touchMs nowMs : Nat}
    {visit : List UserId} {reply : RtxReply}
    (member : reply ∈ (handleSubscribeNack hub remote block touchMs nowMs visit).2) :
    ∃ subscriber r room, hub.findByAddr remote = some (subscriber, .subscribe, r) ∧
      hub.rooms.lookup r = some room ∧ ∃ nack ∈ parseRtcpNack block,
        Answers hub.arcs room visit subscriber hub.heap nack reply := by
  rcases handleSubscribeNack_cases hub remote block touchMs nowMs visit with
    dropped | ⟨subscriber, touched⟩ | ⟨subscriber, r, room, found, held, answered⟩
  · simp [dropped] at member
  · simp [touched] at member
  · rw [answered] at member
    obtain ⟨nack, present, answers⟩ := (handleNackBlock_answers hub.arcs room visit subscriber
      (hub.touch subscriber touchMs).heap block nowMs).2 reply member
    have touched : Shows media hub.heap (mutate hub.heap subscriber fun s => s.touch touchMs) :=
      .mutate rfl
    exact ⟨subscriber, r, room, found, held, nack, present, answers.shows touched⟩

end NackReplies
