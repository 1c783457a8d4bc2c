import OxlensSfu.CacheFrames

/-
Which packets retransmissions are made of. The trace records, newest first, who was built
and which video packets came in; it determines the content of every cache. All tracks of
a publisher share one cache, indexed by sequence number alone.
-/
namespace RetransmissionSource
open WireBytes SfuConfig RtpPacket RtxPacket FloorControl KeyedMap Participants RoomHubs RoomHub
open Signaling RoomHandlers TrackHandlers Ingress Servers NackReplies MediaFrames CacheFrames
open GuardedRun

inductive Fact where
  | built (p : Ptr)
  | received (p : Ptr) (pkt : Bytes)
  deriving DecidableEq, Repr

/-- The latest packet of a participant with a number for the slot, since it was built. -/
def cachedBy : List Fact → Ptr → Nat → Option Bytes
  | [], _, _ => none
  | .built q :: trace, p, i => if q = p then none else cachedBy trace p i
  | .received q pkt :: trace, p, i =>
    if q = p ∧ RtpCache.index (u16At pkt 2) = i then some pkt else cachedBy trace p i

theorem received_of_cachedBy {trace : List Fact} {p : Ptr} {i : Nat} {pkt : Bytes}
    (cached : cachedBy trace p i = some pkt) : Fact.received p pkt ∈ trace := by
  induction trace with
  | nil => simp [cachedBy] at cached
  | cons fact trace ih =>
    cases fact with
    | built q =>
      rw [cachedBy] at cached
      split at cached
      · simp at cached
      · exact List.mem_cons_of_mem _ (ih cached)
    | received q first =>
      rw [cachedBy] at cached
      split at cached
      · rename_i here
        rw [Option.some.injEq] at cached
        rw [← here.1, ← cached]
        exact List.mem_cons_self
      · exact List.mem_cons_of_mem _ (ih cached)

structure Traced where
  server : Server
  trace : List Fact

def Traced.new : Traced := ⟨.new, []⟩

section Trace
variable (hmacSha1 : Bytes → Bytes → Bytes) (crc32 : Bytes → UInt32)

def factsOf (s : Server) (e : Event) : List Fact :=
  match e with
  | .rtp remote buf o =>
    match (handleSrtp s.hub remote buf o).cached with
    | some (p, pkt) => [.received p pkt]
    | none => []
  | e =>
    if s.hub.nextPtr < (step hmacSha1 crc32 s e).hub.nextPtr then [.built s.hub.nextPtr] else []

def tracedStep (t : Traced) (e : Event) : Traced :=
  ⟨step hmacSha1 crc32 t.server e, factsOf hmacSha1 crc32 t.server e ++ t.trace⟩

end Trace

/-- The caches are what the trace says. -/
def CachesTraced (t : Traced) : Prop :=
  ∀ p i, (t.server.hub.heap p).rtpCache.slots i = cachedBy t.trace p i

theorem new_cachesTraced : CachesTraced Traced.new := fun _ _ => rfl

section Relay
variable (hub : RoomHub) (r : RoomId) (room : Room) (sender : Ptr) (buf : Bytes) (o : Oracle)

theorem cacheOf_detectGap (s : ParticipantState) (hdr : RtpHeader) :
    cacheOf (detectGap s hdr) = cacheOf s :=
  view_detectGap cacheOf_blind (fun _ _ _ => rfl) s hdr

theorem relayRtp_caches :
    SameCaches (mutate hub.heap sender fun s =>
        detectGap (collectRtpStats s (normalizePt (hub.heap sender).tracks buf).2
          (normalizePt (hub.heap sender).tracks buf).1)
          (normalizePt (hub.heap sender).tracks buf).2)
      (relayRtp hub r room sender buf o).hub.heap :=
  fun _ => relayRtp_at hub r room sender buf o cacheOf_blind fun _ => .inr fun s => cacheOf_trySend s _

theorem relayRtp_cached :
    (relayRtp hub r room sender buf o).cached =
      if isVideoPt (normalizePt (hub.heap sender).tracks buf).2.pt then
        some (sender, (normalizePt (hub.heap sender).tracks buf).1) else none := by
  simp only [relayRtp]
  split <;> rfl

theorem seq_of_video {p : Bytes} (video : isVideoPt (parseRtpHeader p).pt = true) :
    12 ≤ p.length ∧ (parseRtpHeader p).seq = u16At p 2 := by
  by_cases short : p.length < rtpHeaderMinSize
  · rw [parseRtpHeader, if_pos short] at video
    exact absurd video (by decide)
  · refine ⟨Nat.le_of_not_lt short, ?_⟩
    rw [parseRtpHeader, if_neg short]

/-- The packet that a relay puts into the cache is the one that the trace records. -/
theorem relayRtp_traced {trace : List Fact}
    (traced : ∀ p i, (hub.heap p).rtpCache.slots i = cachedBy trace p i) (p : Ptr) (i : Nat) :
    ((relayRtp hub r room sender buf o).hub.heap p).rtpCache.slots i =
      cachedBy ((match (relayRtp hub r room sender buf o).cached with
        | some (p, pkt) => [.received p pkt]
        | none => []) ++ trace) p i := by
  have kept := congrArg (fun c : RtpCache => c.slots i) (relayRtp_caches hub r room sender buf o p)
  simp only [cacheOf] at kept
  rw [kept, relayRtp_cached]
  let packet := (normalizePt (hub.heap sender).tracks buf).1
  have header : (normalizePt (hub.heap sender).tracks buf).2 = parseRtpHeader packet :=
    normalizePt_header _ _
  rw [header]
  by_cases own : p = sender
  · subst own
    have gap : ∀ s, (detectGap s (parseRtpHeader packet)).rtpCache = s.rtpCache := fun s =>
      cacheOf_detectGap s _
    rw [mutate_self, gap]
    cases video : isVideoPt (parseRtpHeader packet).pt with
    | true =>
      obtain ⟨_, seq⟩ := seq_of_video video
      simp only [collectRtpStats, video, if_true, RtpCache.store, Function.update_apply, seq,
        List.singleton_append, cachedBy, true_and]
      by_cases slot : i = RtpCache.index (u16At packet 2)
      · rw [if_pos slot, if_pos slot.symm]
      · rw [if_neg slot, if_neg (Ne.symm slot)]
        exact traced p i
    | false =>
      simp only [collectRtpStats, video, Bool.false_eq_true, if_false, List.nil_append]
      exact traced p i
  · rw [mutate_ne _ own, traced p i]
    split
    · rename_i q pkt received
      split at received
      · simp only [Option.some.injEq, Prod.mk.injEq] at received
        rw [List.singleton_append, cachedBy, if_neg]
        rintro ⟨same, _⟩
        exact own (same.symm.trans received.1.symm)
      · simp at received
    · rfl

end Relay

section Runs
variable (hmacSha1 : Bytes → Bytes → Bytes) (crc32 : Bytes → UInt32)

theorem traced_of_caches {h h' : Heap} {trace : List Fact} (same : SameCaches h h')
    (traced : ∀ p i, (h p).rtpCache.slots i = cachedBy trace p i) (p : Ptr) (i : Nat) :
    (h' p).rtpCache.slots i = cachedBy trace p i := by
  have kept := congrArg (fun c : RtpCache => c.slots i) (same p)
  exact kept.trans (traced p i)

theorem step_cachesTraced (t : Traced) (e : Event) (traced : CachesTraced t) :
    CachesTraced (tracedStep hmacSha1 crc32 t e) := by
  have other : (∀ remote buf o, e ≠ .rtp remote buf o) →
      CachesTraced (tracedStep hmacSha1 crc32 t e) := by
    intro notRtp
    have facts : factsOf hmacSha1 crc32 t.server e =
        if t.server.hub.nextPtr < (step hmacSha1 crc32 t.server e).hub.nextPtr then
          [.built t.server.hub.nextPtr] else [] := by
      cases e with
      | rtp remote buf o => exact absurd rfl (notRtp remote buf o)
      | _ => rfl
    intro p i
    simp only [tracedStep, facts]
    rcases step_built hmacSha1 crc32 t.server e notRtp with quiet | built
    · rw [quiet.nextPtr, if_neg (Nat.lt_irrefl _)]
      exact traced_of_caches quiet.caches traced p i
    · rw [built.nextPtr, if_pos (Nat.lt_succ_self _), List.singleton_append, cachedBy]
      split
      · rename_i here
        rw [← here]
        exact congrArg (fun c : RtpCache => c.slots i) built.fresh
      · rename_i elsewhere
        have kept := congrArg (fun c : RtpCache => c.slots i) (built.others p (Ne.symm elsewhere))
        exact kept.trans (traced p i)
  cases e with
  | rtp remote buf o =>
    intro p i
    simp only [tracedStep, Servers.step, factsOf]
    rcases handleSrtp_cases t.server.hub remote buf o with
      dropped | ⟨sender, touched⟩ | ⟨sender, r, room, _, _, _, relayed⟩
    · rw [dropped]
      exact traced p i
    · rw [touched]
      exact traced_of_caches (touch_quiet t.server.hub sender o.nowMs).caches traced p i
    · rw [relayed]
      exact relayRtp_traced _ r room sender buf o
        (traced_of_caches (touch_quiet t.server.hub sender o.nowMs).caches traced) p i
  | _ => exact other (by simp)

end Runs

/-- The NACK comes from a subscriber in a conference room without simulcast. -/
def PlainConference (hub : RoomHub) (remote : SocketAddr) (room : Room) : Prop :=
  ∃ subscriber r, hub.findByAddr remote = some (subscriber, .subscribe, r) ∧
    hub.rooms.lookup r = some room ∧ room.mode = .conference ∧ room.simulcastEnabled = false

/-- For every number asked for on an SSRC: the latest packet that the publisher of the
    SSRC sent for the same cache slot, if it has that number, came on that SSRC. -/
def OwnPacketsLatest (t : Traced) : Event → Prop
  | .nack remote block _ _ visit => ∀ room, PlainConference t.server.hub remote room →
      ∀ nack ∈ parseRtcpNack block, ∀ seq ∈ expandNack nack.pid nack.blp, ∀ publisher,
        room.findByTrackSsrc t.server.hub.heap visit nack.mediaSsrc = some publisher →
          ∀ pkt, cachedBy t.trace publisher (RtpCache.index seq) = some pkt →
            u16At pkt 2 = seq → u32At pkt 8 = nack.mediaSsrc
  | _ => True

/-- The packet was received, on the SSRC and with the number that were asked for. -/
structure FromOwnTrack (trace : List Fact) (reply : RtxReply) : Prop where
  received : Fact.received reply.publisher reply.original ∈ trace
  ssrc : u32At reply.original 8 = reply.mediaSsrc
  seq : u16At reply.original 2 = reply.requested
  built : ∃ rtxSsrc rtxSeq, reply.rtx = buildRtxPacket reply.original rtxSsrc rtxSeq

def RepliesFromOwnTrack (t : Traced) : Event → Prop
  | .nack remote block touchMs nowMs visit => ∀ room, PlainConference t.server.hub remote room →
      ∀ reply ∈ (handleSubscribeNack t.server.hub remote block touchMs nowMs visit).2,
        reply.enqueued = true → FromOwnTrack t.trace reply
  | _ => True

theorem own_replies {t : Traced} (traced : CachesTraced t) (e : Event)
    (own : OwnPacketsLatest t e) : RepliesFromOwnTrack t e := by
  cases e with
  | nack remote block touchMs nowMs visit =>
    intro room plain reply member _
    obtain ⟨subscriber, r, room', found, held, nack, present, answers⟩ := nack_answered member
    obtain ⟨subscriber', r', found', held', conference, single⟩ := plain
    rw [found, Option.some.injEq, Prod.mk.injEq, Prod.mk.injEq] at found'
    obtain ⟨rfl, _, rfl⟩ := found'
    rw [held, Option.some.injEq] at held'
    subst held'
    have source : nackSource t.server.hub.arcs room' visit subscriber t.server.hub.heap
        nack.mediaSsrc = (nack.mediaSsrc, id) := by
      simp [nackSource, conference, single]
    have publisher := answers.publisher
    have original := answers.original
    rw [nackPublisher, source] at publisher
    rw [source] at original
    obtain ⟨slot, _, number⟩ := RtpCache.found original
    rw [traced] at slot
    have ssrc := own room' ⟨subscriber, r, found, held, conference, single⟩ nack present
      reply.requested answers.requested reply.publisher publisher reply.original slot number
    exact ⟨received_of_cachedBy slot, ssrc.trans answers.ssrc.symm, number, answers.built⟩
  | _ => trivial

theorem retransmissions_from_own_track (hmacSha1 : Bytes → Bytes → Bytes) (crc32 : Bytes → UInt32)
    (es : List Event)
    (own : Guarded (tracedStep hmacSha1 crc32) OwnPacketsLatest Traced.new es) :
    Guarded (tracedStep hmacSha1 crc32) RepliesFromOwnTrack Traced.new es := by
  have kept : ∀ t e, CachesTraced t → OwnPacketsLatest t e →
      CachesTraced (tracedStep hmacSha1 crc32 t e) :=
    fun t e traced _ => step_cachesTraced hmacSha1 crc32 t e traced
  exact guarded_of_invariant kept (fun t e traced latest => own_replies traced e latest)
    new_cachesTraced own

/-- A publishes two video tracks, and B subscribes. -/
def twoTracks : List Event :=
  sampleRoom .conference false :: joinAs 0 "a" 1 ++ joinAs 1 "b" 2 ++
    startMedia 0 1 .publish 5000 ++ startMedia 1 2 .subscribe 5001 ++
    [publishVideo 0 [(11, none), (22, none)]]

def packetOn (ssrc : UInt32) : Event :=
  .rtp (AddressIndex.portAt 5000) (keyframePacket 5 0 ssrc 0) (sampleOracle 0)

/-- B lost packet 5 of the first track. -/
def askAgain : Event := .nack (AddressIndex.portAt 5001) (nackBlock 11 5) 1000 1000 ["a", "b"]

theorem own_packet_resent :
    Guarded (tracedStep sampleHmac fun _ => 0) RepliesFromOwnTrack Traced.new
      (twoTracks ++ [packetOn 11, askAgain]) := by
  refine retransmissions_from_own_track _ _ _ ?_
  rw [guarded_append]
  refine ⟨guarded_of_all _ ?_, trivial, ?_, trivial⟩
  · simp [twoTracks, sampleRoom, joinAs, identifyAs, startMedia, publishVideo, OwnPacketsLatest]
  · intro room _ nack asked seq _ publisher _ pkt cached _
    have items : parseRtcpNack (nackBlock 11 5) = [⟨11, 5, 0⟩] := by decide
    have trace : (tracedStep sampleHmac (fun _ => 0)
        (run (tracedStep sampleHmac fun _ => 0) Traced.new twoTracks) (packetOn 11)).trace =
          [.received 0 (keyframePacket 5 0 11 0), .built 1, .built 0] := by
      decide
    rw [items, List.mem_singleton] at asked
    have received := received_of_cachedBy cached
    rw [trace] at received
    simp only [List.mem_cons, Fact.received.injEq, reduceCtorEq, List.not_mem_nil, or_false]
      at received
    rw [asked, received.2]
    decide

/-- Both tracks have a packet 5; the second one's is resent for the first one's. -/
theorem other_track_resent :
    ¬ ∀ (hmacSha1 : Bytes → Bytes → Bytes) (crc32 : Bytes → UInt32) (es : List Event),
      Guarded (tracedStep hmacSha1 crc32) RepliesFromOwnTrack Traced.new es := by
  intro own
  have replies := own sampleHmac (fun _ => 0)
    (twoTracks ++ [packetOn 11, packetOn 22] ++ [askAgain])
  rw [guarded_append] at replies
  let t := run (tracedStep sampleHmac fun _ => 0) Traced.new
    (twoTracks ++ [packetOn 11, packetOn 22])
  let room := (t.server.hub.rooms.lookup "room").get (by decide)
  have plain : PlainConference t.server.hub (AddressIndex.portAt 5001) room :=
    ⟨1, "room", by decide, (Option.some_get _).symm, by decide, by decide⟩
  have resent : (⟨11, 5, 0, keyframePacket 5 0 22 0,
      buildRtxPacket (keyframePacket 5 0 22 0) 1011 0, true⟩ : RtxReply) ∈
        (handleSubscribeNack t.server.hub (AddressIndex.portAt 5001) (nackBlock 11 5) 1000 1000
          ["a", "b"]).2 := by
    decide
  have foreign := (replies.2.1 room plain _ resent rfl).ssrc
  exact absurd foreign (by decide)

end RetransmissionSource
