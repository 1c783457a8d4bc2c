import OxlensSfu.AnnouncedSsrcs
import OxlensSfu.LayerGating
import OxlensSfu.TrackLists

/-
The sources behind the SSRCs of a simulcast publisher. An announcement goes by track and
gives all video tracks the one virtual SSRC of their publisher; the fan-out goes by
publisher, and picks the packets by the rid of the track that they are from.
-/
namespace AnnouncedSources
open WireBytes SfuConfig RtpPacket KeyedMap Participants RoomHubs RoomHub Signaling RoomHandlers
open TrackHandlers Ingress Servers Membership Seating GuardedRun
open Catalog LayerFrames CatalogFrames VirtualSsrcs AnnouncedSsrcs TrackLists
open FloorControl (UserId)
open PttRewriter (Instant)

/-- One track, or the two layers of one pair. -/
def SameSource (t t' : Track) : Prop :=
  t = t' ∨ (t.simulcastGroup ≠ none ∧ t.simulcastGroup = t'.simulcastGroup ∧
    ((t.rid = some "h" ∧ t'.rid = some "l") ∨ (t.rid = some "l" ∧ t'.rid = some "h")))

/-- A packet of the track, under the payload types that the server uses inside. -/
structure PacketOf (t : Track) (p : Bytes) : Prop where
  whole : rtpHeaderMinSize ≤ p.length
  source : u32At p 8 = t.ssrc
  kind : isVideoPt (parseRtpHeader p).pt = decide (t.kind = .video)

/-- A publisher and a subscriber in a room, and the SSRCs that the generator would draw. -/
structure Link where
  roomId : RoomId
  room : Room
  pubId : UserId
  pub : Ptr
  session : Session
  subId : UserId
  sub : Ptr
  draws : Ptr → NonzeroSsrc

inductive MediaOp where
  | subscribeLayer (pid : Nat) (targets : Option (List SubscribeLayerTarget)) (now : Instant)
  | packet (p : Bytes) (o : Oracle)

namespace Link

/-- The two are in a simulcast room, and the subscriber can be sent media. -/
structure Stands (c : Link) (hub : RoomHub) : Prop where
  paired : LayerGating.Paired c.room c.pubId c.pub c.session c.subId c.sub hub c.roomId
  apart : c.subId ≠ c.pubId
  ready : (hub.heap c.sub).isSubscribeReady = true

variable (c : Link) (hub : RoomHub)

/-- The fan-out of a packet of the publisher. -/
def media (p : Bytes) (o : Oracle) : RoomHub × List Forward :=
  fanout hub c.roomId c.room c.pubId c.pub (parseRtpHeader p) p p { o with vssrc := c.draws }

/-- The subscriber's messages and the publisher's packets. -/
def step : MediaOp → RoomHub
  | .subscribeLayer pid targets now =>
    { hub with
      heap := (handleSubscribeLayer hub c.session pid c.subId targets c.draws now).heap }
  | .packet p o => (c.media hub p o).1

/-- The subscriber is handed the packet under the SSRC. -/
def Handed (p : Bytes) (o : Oracle) (ssrc : UInt32) : Prop :=
  ∃ f ∈ (c.media hub p o).2, c.sub ∈ f.targets ∧ u32At f.out 8 = ssrc

instance (p : Bytes) (o : Oracle) (ssrc : UInt32) : Decidable (c.Handed hub p o ssrc) :=
  inferInstanceAs (Decidable (∃ f ∈ (c.media hub p o).2, c.sub ∈ f.targets ∧ u32At f.out 8 = ssrc))

/-- In some run the subscriber is handed a packet of the track under the SSRC. -/
def Reaches (t : Track) (ssrc : UInt32) : Prop :=
  ∃ ops p o, PacketOf t p ∧ c.Handed (run c.step hub ops) p o ssrc

/-- The message that selects the layer of a track. -/
def selectOf (t : Track) (pid : Nat) (now : Instant) : List MediaOp :=
  (t.rid.map fun rid => .subscribeLayer pid (some [⟨c.pubId, rid⟩]) now).toList

/-- Whatever came before: once its layer is selected, a packet of the track, of video a
    keyframe, is handed to the subscriber under the SSRC. -/
def Delivered (t : Track) (ssrc : UInt32) : Prop :=
  ∀ ops pid now p o, PacketOf t p →
    (t.kind = .video → isKeyframe (parseRtpHeader p) p = true) →
      c.Handed (run c.step hub (ops ++ c.selectOf t pid now)) p o ssrc

/-- The publisher's virtual SSRC, drawn or to be drawn. -/
def label : UInt32 := ((hub.heap c.pub).ensureSimulcastVideoSsrc (c.draws c.pub)).2

/-- The SSRC under which the subscriber is told about a track. -/
def announcedSsrc (t : Track) : UInt32 :=
  shownSsrc true
    ((collectSubscribeTracks hub.arcs c.room hub.heap c.draws c.subId).1 c.pub).simulcastVideoSsrc t

end Link

/-- The layer of the track can be selected. -/
def Selectable (t : Track) : Prop := ∃ rid, t.rid = some rid ∧ rid ≠ "pause"

/-- What the fan-out can make of packets of the track. -/
def CarriedAs (label : UInt32) (t : Track) (ssrc : UInt32) : Prop :=
  (t.kind = .video ∧ Selectable t ∧ ssrc = label) ∨ (t.kind ≠ .video ∧ ssrc = t.ssrc)

/-- All announced video has a layer to select, and if the virtual SSRC is announced, all
    that can be forwarded under it is one source. -/
structure Composed (label : UInt32) (s : ParticipantState) : Prop where
  selectable : ∀ t ∈ visible true s, t.kind = .video → Selectable t
  single : label ∈ offeredSsrcs true s → ∀ t ∈ s.tracks, ∀ t' ∈ s.tracks,
    CarriedAs label t label → CarriedAs label t' label → SameSource t t'

/-- Tracks and readiness stay, and whose virtual SSRC is not drawn will draw the same. -/
structure Steady (draws : Ptr → NonzeroSsrc) (h h' : Heap) : Prop where
  shown : Shows (fun s => (s.tracks, s.isSubscribeReady)) h h'
  label : ∀ q, ((h' q).ensureSimulcastVideoSsrc (draws q)).2 =
    ((h q).ensureSimulcastVideoSsrc (draws q)).2

namespace Steady
variable {draws : Ptr → NonzeroSsrc} {h h' h'' : Heap}

theorem refl (h : Heap) : Steady draws h h := ⟨.refl _ h, fun _ => rfl⟩

theorem trans (first : Steady draws h h') (second : Steady draws h' h'') : Steady draws h h'' :=
  ⟨first.shown.trans second.shown, fun q => (second.label q).trans (first.label q)⟩

theorem tracks (steady : Steady draws h h') (q : Ptr) : (h' q).tracks = (h q).tracks := by
  have same := steady.shown q
  simp only [Prod.mk.injEq] at same
  exact same.1

theorem ready (steady : Steady draws h h') (q : Ptr) :
    (h' q).isSubscribeReady = (h q).isSubscribeReady := by
  have same := steady.shown q
  simp only [Prod.mk.injEq] at same
  exact same.2

theorem blind : LayerBlind fun s => (s.tracks, s.isSubscribeReady) :=
  ⟨fun _ _ => rfl, fun _ _ => rfl, fun _ _ => rfl⟩

/-- A participant's virtual SSRC is drawn, and then at most things that do not matter here
    change. -/
theorem of_drawn (p : Ptr)
    (shown : Shows (fun s => (s.tracks, s.isSubscribeReady))
      (mutate h p fun s => (s.ensureSimulcastVideoSsrc (draws p)).1) h')
    (vssrc : ∀ q, (h' q).simulcastVideoSsrc =
      (mutate h p (fun s => (s.ensureSimulcastVideoSsrc (draws p)).1) q).simulcastVideoSsrc) :
    Steady draws h h' := by
  constructor
  · have drawn : Shows (fun s => (s.tracks, s.isSubscribeReady)) h
        (mutate h p fun s => (s.ensureSimulcastVideoSsrc (draws p)).1) :=
      .mutate (@view_ensure _ (fun s => (s.tracks, s.isSubscribeReady)) (fun _ _ => rfl) _ _)
    exact drawn.trans shown
  · intro q
    rw [ensure_value, vssrc, drawn_vssrc]
    by_cases here : q = p
    · subst here
      rw [if_pos rfl, if_pos]
      rw [ensure_snd]
      exact ensure_nonzero _ _
    · rw [if_neg here, ensure_value]

end Steady

section Steps
variable (draws : Ptr → NonzeroSsrc)

theorem subscribeTarget_steady (room : Room) (subscriber : Ptr) (now : Instant) (heap : Heap)
    (target : SubscribeLayerTarget) :
    Steady draws heap (subscribeTarget room subscriber draws now heap target) := by
  cases found : room.getParticipant target.userId with
  | none =>
    rw [subscribeTarget_absent _ _ _ _ _ _ found]
    exact .refl heap
  | some publisher =>
    exact .of_drawn publisher (subscribeTarget_shows _ _ _ _ _ _ Steady.blind found)
      (subscribeTarget_vssrc _ _ _ _ _ _ found)

theorem handleSubscribeLayer_steady (hub : RoomHub) (session : Session) (pid : Nat) (u : UserId)
    (targets : Option (List SubscribeLayerTarget)) (now : Instant) :
    Steady draws hub.heap (handleSubscribeLayer hub session pid u targets draws now).heap := by
  apply handleSubscribeLayer_invariant
  · intro r room subscriber heap target _ _ kept
    exact kept.trans (subscribeTarget_steady draws room subscriber now heap target)
  · exact .refl hub.heap

theorem fanout_steady (hub : RoomHub) (r : RoomId) (room : Room) (senderId : UserId) (sender : Ptr)
    (hdr : RtpHeader) (source out : Bytes) (o : Oracle) :
    Steady o.vssrc hub.heap (fanout hub r room senderId sender hdr source out o).1.heap := by
  unfold fanout
  split
  · cases tagged : sourceRid (hub.heap sender) hdr.ssrc with
    | none =>
      simp only [fanoutSimulcast_untagged _ _ _ _ _ _ _ _ tagged]
      exact .refl hub.heap
    | some rid =>
      exact .of_drawn sender (fanoutSimulcast_shows _ _ _ _ _ _ _ _ Steady.blind tagged)
        (fanoutSimulcast_vssrc _ _ _ _ _ _ _ _ tagged)
  · have queued : ∀ {α : Type} {view : ParticipantState → α},
        (∀ s egress, view { s with egress := egress } = view s) →
        Shows view hub.heap
          (sendToReady hub.heap (readyOthers room hub.heap senderId) (.rtp out)) := fun hidden =>
      Shows.sendToReady (view_trySend hidden) hub.heap _ _
    refine ⟨queued fun _ _ => rfl, fun q => ?_⟩
    have vssrc : Shows (·.simulcastVideoSsrc) hub.heap
        (sendToReady hub.heap (readyOthers room hub.heap senderId) (.rtp out)) :=
      queued fun _ _ => rfl
    have same := vssrc q
    dsimp only at same ⊢
    rw [ensure_value, ensure_value, same]

end Steps

section Runs
variable {c : Link} {hub : RoomHub}

/-- What holds between the messages and packets of a run that started in `hub`. -/
structure Holds (c : Link) (hub : RoomHub) (h : Heap) : Prop where
  steady : Steady c.draws hub.heap h
  aligned : Aligned { hub with heap := h }

theorem step_holds (stands : c.Stands hub) (sound : WellFormed hub) {h : Heap}
    (holds : Holds c hub h) (op : MediaOp) :
    ∃ h', c.step { hub with heap := h } op = { hub with heap := h' } ∧ Holds c hub h' := by
  have here : WellFormed { hub with heap := h } := ⟨sound.allocated, sound.once, sound.ufrags⟩
  cases op with
  | subscribeLayer pid targets now =>
    refine ⟨_, rfl, holds.steady.trans ?_, ?_⟩
    · exact handleSubscribeLayer_steady c.draws { hub with heap := h } c.session pid c.subId
        targets now
    · exact handleSubscribeLayer_aligned holds.aligned here c.session pid c.subId targets c.draws now
  | packet p o =>
    refine ⟨_, fanout_hub _ _ _ _ _ _ _ _ _, holds.steady.trans ?_, ?_⟩
    · exact fanout_steady { hub with heap := h } c.roomId c.room c.pubId c.pub (parseRtpHeader p) p
        p { o with vssrc := c.draws }
    · simp only [fanout]
      split
      · exact fanoutSimulcast_aligned holds.aligned here stands.paired.held
          ⟨c.room, stands.paired.held, stands.paired.publisher⟩ _ _ _ _
      · have sent := sent_shows catalog_floor h (readyOthers c.room h c.pubId) (.rtp p)
        exact holds.aligned.faded id (.of_shows sent)

theorem run_holds (stands : c.Stands hub) (sound : WellFormed hub) (aligned : Aligned hub)
    (ops : List MediaOp) :
    ∃ h, run c.step hub ops = { hub with heap := h } ∧ Holds c hub h := by
  refine @run_invariant _ _ c.step (fun next => ∃ h, next = { hub with heap := h } ∧ Holds c hub h)
    ?_ hub ⟨hub.heap, rfl, .refl hub.heap, aligned⟩ ops
  intro next op held
  obtain ⟨h, rfl, holds⟩ := held
  exact step_holds stands sound holds op

end Runs

section Packets
variable {c : Link} {hub : RoomHub} {h : Heap} {t : Track} {p : Bytes} {o : Oracle} {ssrc : UInt32}

/-- The run does not change who publishes and who is sent. -/
theorem Link.Stands.member (stands : c.Stands hub) : c.sub ∈ c.room.otherParticipants c.pubId :=
  mem_otherParticipants.mpr ⟨c.subId, stands.apart, stands.paired.subscriber⟩

theorem packet_rid (distinct : Distinct (hub.heap c.pub).tracks) (inside : t ∈ (hub.heap c.pub).tracks)
    (holds : Holds c hub h) (packet : PacketOf t p) :
    sourceRid (h c.pub) (parseRtpHeader p).ssrc = t.rid := by
  have header : (parseRtpHeader p).ssrc = t.ssrc := (parse_long packet.whole).2.trans packet.source
  have tracks := holds.steady.tracks c.pub
  rw [← tracks] at distinct inside
  rw [sourceRid, header, distinct.findTrack inside]
  rfl

/-- Under which SSRC a packet can leave. -/
theorem handed_carried (stands : c.Stands hub) (once : Injective c.room.participants)
    (distinct : Distinct (hub.heap c.pub).tracks) (inside : t ∈ (hub.heap c.pub).tracks)
    (holds : Holds c hub h) (packet : PacketOf t p)
    (handed : c.Handed { hub with heap := h } p o ssrc) : CarriedAs (c.label hub) t ssrc := by
  obtain ⟨f, there, target, same⟩ := handed
  by_cases video : t.kind = .video
  · have layered : (c.room.simulcastEnabled && isVideoPt (parseRtpHeader p).pt) = true := by
      rw [stands.paired.simulcast, packet.kind]
      simp [video]
    obtain ⟨rid, q, checked, marked, tagged, _, _, shape, passed⟩ :=
      fanout_layer c.room c.pubId c.pub _ p once layered there
    rw [shape, List.mem_singleton] at target
    subst target
    obtain ⟨_, labelled, _, _, playing⟩ := passLayer_out passed
    rw [packet_rid distinct inside holds packet] at tagged
    have aligned := entrySsrc_aligned holds.aligned
      ⟨c.room, stands.paired.held, stands.paired.subscriber⟩
      ⟨c.room, stands.paired.held, stands.paired.publisher⟩ (c.draws c.pub)
    refine .inl ⟨video, ⟨rid, tagged, playing⟩, ?_⟩
    rw [← same, labelled, Link.label, ← holds.steady.label c.pub]
    exact aligned
  · have plain : ¬(c.room.simulcastEnabled && isVideoPt (parseRtpHeader p).pt) = true := by
      rw [packet.kind]
      simp [video]
    simp only [Link.media, fanout, if_neg plain, List.mem_singleton] at there
    subst there
    exact .inr ⟨video, same.symm.trans packet.source⟩

/-- A keyframe is passed on by the entry that has its layer selected. -/
theorem passLayer_keyframe {old : Option SubscribeLayerEntry} {vssrc : UInt32} {rid : String}
    {checked marked : Instant} {e : SubscribeLayerEntry} (found : old = some e) (selected : e.rid = rid)
    (playing : rid ≠ "pause") (whole : 12 ≤ p.length) :
    ∃ out, (passLayer old vssrc rid true p checked marked).2.1 = some out ∧
      u32At out 8 = e.rewriter.virtualSsrc := by
  subst found
  have passes : LayerNumbering.Passes e.rewriter p true := ⟨whole, fun _ => rfl⟩
  obtain ⟨out, rewritten, _, _, ssrc⟩ := LayerNumbering.rewrite_passes passes
  refine ⟨out, ?_, ssrc⟩
  have forwards : ¬(e.rid = "pause" ∨ rid ≠ e.rid) := by
    rw [not_or, not_not, selected]
    exact ⟨playing, rfl⟩
  simp only [passLayer, Option.getD_some, if_neg forwards, rewritten]

theorem selectLayer_rid (old : Option SubscribeLayerEntry) (rid : String) (vssrc : UInt32)
    (now : Instant) : (selectLayer old rid vssrc now).1.rid = rid := by
  unfold selectLayer
  cases old with
  | none =>
    simp only [Option.map_none, reduceCtorEq, if_false]
    split <;> split <;> rfl
  | some e =>
    by_cases same : e.rid = rid
    · simp only [Option.map_some, Option.getD_some, same, if_true]
      split
      · rfl
      · exact same
    · simp only [Option.map_some, Option.some.injEq, same, if_false]
      split <;> split <;> rfl

/-- The subscriber's entry after it has asked for a layer of the publisher. -/
theorem select_entry (stands : c.Stands hub) (rid : String) (pid : Nat) (now : Instant) (h : Heap) :
    ∃ e, (((c.step { hub with heap := h } (.subscribeLayer pid (some [⟨c.pubId, rid⟩]) now)).heap
        c.sub).subscribeLayers.lookup c.pubId = some e) ∧ e.rid = rid := by
  have paired : LayerGating.Paired c.room c.pubId c.pub c.session c.subId c.sub
      { hub with heap := h } c.roomId :=
    ⟨stands.paired.held, stands.paired.simulcast, stands.paired.joined, stands.paired.publisher,
      stands.paired.subscriber⟩
  have message := LayerGating.accepted_message paired pid [⟨c.pubId, rid⟩] c.draws now
  have found : c.room.getParticipant c.pubId = some c.pub := stands.paired.publisher
  have layers := subscribeTarget_layers c.room c.sub c.draws now h ⟨c.pubId, rid⟩ found c.sub
  refine ⟨chosen c.sub c.draws now h ⟨c.pubId, rid⟩ c.pub, ?_, selectLayer_rid _ _ _ _⟩
  simp only [Link.step, message, List.foldl_cons, List.foldl_nil, layers, if_true,
    AList.lookup_insert]

/-- What the fan-out can make of a track it makes of each packet that comes in time. -/
theorem carried_delivered (stands : c.Stands hub) (sound : WellFormed hub) (aligned : Aligned hub)
    (once : Injective c.room.participants) (distinct : Distinct (hub.heap c.pub).tracks)
    (inside : t ∈ (hub.heap c.pub).tracks) (carried : CarriedAs (c.label hub) t ssrc) :
    c.Delivered hub t ssrc := by
  intro ops pid now p o packet key
  rcases carried with ⟨video, ⟨rid, tagged, playing⟩, same⟩ | ⟨other, same⟩
  · obtain ⟨h, before, holds⟩ := run_holds stands sound aligned ops
    obtain ⟨e, entry, selected⟩ := select_entry stands rid pid now h
    obtain ⟨h', after, later⟩ := step_holds stands sound holds
      (.subscribeLayer pid (some [⟨c.pubId, rid⟩]) now)
    have reached : run c.step hub (ops ++ c.selectOf t pid now) = { hub with heap := h' } := by
      rw [← after, ← before, Link.selectOf, tagged]
      exact List.foldl_append
    rw [after] at entry
    rw [reached]
    have header := packet_rid distinct inside later packet
    rw [tagged] at header
    have ready : (h' c.sub).isSubscribeReady = true := by
      rw [later.steady.ready]
      exact stands.ready
    obtain ⟨checked, marked, _, handed⟩ := (fanoutSimulcast_spec c.room h' c.pubId c.pub
      (parseRtpHeader p) p (c.draws c.pub) (fun n => o.clk (n + 1)) once header c.sub).1
      ⟨stands.member, ready⟩
    rw [key video] at handed
    obtain ⟨out, passed, labelled⟩ := passLayer_keyframe entry selected playing packet.whole
    rw [passed] at handed
    have passed_ : (c.sub, out) ∈ (fanoutSimulcastVideo c.room h' c.pubId c.pub (parseRtpHeader p) p
        (c.draws c.pub) fun n => o.clk (n + 1)).2 := by
      refine List.mem_of_mem_filter (?_ : _ ∈ List.filter (·.1 = c.sub) _)
      rw [handed]
      simp
    refine ⟨⟨c.roomId, c.pub, p, out, [c.sub]⟩, ?_, List.mem_singleton_self _, ?_⟩
    · have pt : isVideoPt (parseRtpHeader p).pt = true := by
        rw [packet.kind]
        simp [video]
      simp only [Link.media, fanout, stands.paired.simulcast, pt, Bool.and_self, if_true]
      exact List.mem_map.mpr ⟨_, passed_, rfl⟩
    · obtain ⟨ssrc_, drawn⟩ := later.aligned.entries
        ⟨c.room, stands.paired.held, stands.paired.subscriber⟩
        ⟨c.room, stands.paired.held, stands.paired.publisher⟩ entry
      dsimp only at ssrc_ drawn
      rw [labelled, ssrc_, same, Link.label, ← later.steady.label, ensure_value, if_pos drawn]
  · obtain ⟨h, reached, holds⟩ := run_holds stands sound aligned (ops ++ c.selectOf t pid now)
    have plain : ¬(c.room.simulcastEnabled && isVideoPt (parseRtpHeader p).pt) = true := by
      rw [packet.kind]
      simp [other]
    rw [reached]
    simp only [Link.Handed, Link.media, fanout, if_neg plain, List.mem_singleton, exists_eq_left]
    refine ⟨List.mem_filter.mpr ⟨stands.member, ?_⟩, by rw [packet.source, same]⟩
    rw [holds.steady.ready]
    exact stands.ready

/-- The first packet of a frame of the track. -/
def samplePacket (t : Track) : Bytes :=
  match t.kind with
  | .video => keyframePacket 0 0 t.ssrc 0
  | .audio => [0x80, 111, 0, 0, 0, 0, 0, 0] ++ bytes32 t.ssrc

theorem keyframePacket_pt (ssrc : UInt32) :
    (parseRtpHeader (keyframePacket 0 0 ssrc 0)).pt = 96 := by
  have whole : 12 ≤ (keyframePacket 0 0 ssrc 0).length := by simp [keyframePacket]
  have octet : (96 : UInt8) &&& 0x7F = 96 := by decide
  exact (parse_long whole).1.trans octet

theorem keyframePacket_key (ssrc : UInt32) :
    isKeyframe (parseRtpHeader (keyframePacket 0 0 ssrc 0)) (keyframePacket 0 0 ssrc 0) = true := by
  have length : (keyframePacket 0 0 ssrc 0).length = 15 := by simp [keyframePacket]
  have payload : rtpPayloadOffset (keyframePacket 0 0 ssrc 0) = some 12 := by
    have first : byteAt (keyframePacket 0 0 ssrc 0) 0 = 0x80 := rfl
    have plain : (0x80 : UInt8) &&& 0x10 = 0 := by decide
    simp [rtpPayloadOffset, hasExtension, csrcCount, first, length, plain]
  -- The descriptor is one octet long, and starts a frame.
  have descriptor : byteAt (keyframePacket 0 0 ssrc 0) 12 = 0x10 := rfl
  have frame : byteAt (keyframePacket 0 0 ssrc 0) 13 = 0x00 := rfl
  have short : (0x10 : UInt8) &&& 0x80 = 0 := by decide
  rw [isKeyframe, keyframePacket_pt, if_neg (by decide), isVp8Keyframe, payload]
  simp [vp8DescriptorEnd, descriptor, frame, short, length]

theorem samplePacket_of (t : Track) : PacketOf t (samplePacket t) ∧
    (t.kind = .video → isKeyframe (parseRtpHeader (samplePacket t)) (samplePacket t) = true) := by
  unfold samplePacket
  cases kind : t.kind with
  | video =>
    refine ⟨⟨?_, ?_, ?_⟩, fun _ => keyframePacket_key t.ssrc⟩
    · simp [keyframePacket, rtpHeaderMinSize]
    · simp [u32At, byteAt, keyframePacket, bytes16, bytes32]
    · rw [keyframePacket_pt, kind]
      decide
  | audio =>
    have pt : (parseRtpHeader ([0x80, 111, 0, 0, 0, 0, 0, 0] ++ bytes32 t.ssrc)).pt = 111 := by
      have whole : 12 ≤ ([0x80, 111, 0, 0, 0, 0, 0, 0] ++ bytes32 t.ssrc).length := by simp
      have octet : (111 : UInt8) &&& 0x7F = 111 := by decide
      exact (parse_long whole).1.trans octet
    refine ⟨⟨?_, ?_, ?_⟩, fun video => absurd video (by decide)⟩
    · simp [rtpHeaderMinSize]
    · simp [u32At, byteAt, bytes32]
    · dsimp only
      rw [pt, kind]
      decide

end Packets

section Tracks
variable {c : Link} {hub : RoomHub} (stands : c.Stands hub) (sound : WellFormed hub)
  (aligned : Aligned hub) (once : Injective c.room.participants)
  (distinct : Distinct (hub.heap c.pub).tracks) {t : Track} (inside : t ∈ (hub.heap c.pub).tracks)
  {ssrc : UInt32}
include stands sound aligned once distinct inside

theorem reaches_iff : c.Reaches hub t ssrc ↔ CarriedAs (c.label hub) t ssrc := by
  constructor
  · intro reaches
    obtain ⟨ops, p, o, packet, handed⟩ := reaches
    obtain ⟨h, reached, holds⟩ := run_holds stands sound aligned ops
    rw [reached] at handed
    exact handed_carried stands once distinct inside holds packet handed
  · intro carried
    obtain ⟨packet, key⟩ := samplePacket_of t
    have delivered := carried_delivered stands sound aligned once distinct inside carried
    exact ⟨_, _, _, packet, delivered [] 0 0 _ (sampleOracle 0) packet key⟩

theorem delivered_iff : c.Delivered hub t ssrc ↔ CarriedAs (c.label hub) t ssrc := by
  constructor
  · intro delivered
    obtain ⟨packet, key⟩ := samplePacket_of t
    have reaches : c.Reaches hub t ssrc :=
      ⟨_, _, _, packet, delivered [] 0 0 _ (sampleOracle 0) packet key⟩
    exact (reaches_iff stands sound aligned once distinct inside).mp reaches
  · exact carried_delivered stands sound aligned once distinct inside

end Tracks

section Announcement
variable {c : Link} {hub : RoomHub}

/-- A track that can be forwarded at all is forwarded under the SSRC it is announced with. -/
theorem announced_carried_iff (stands : c.Stands hub) (seated : Seated hub) {t : Track}
    (shown : t ∈ visible true (hub.heap c.pub)) :
    CarriedAs (c.label hub) t (c.announcedSsrc hub t) ↔ (t.kind = .video → Selectable t) := by
  have named := seated_named seated stands.paired.held
  constructor
  · intro carried video
    rcases carried with ⟨_, selectable, _⟩ | ⟨other, _⟩
    · exact selectable
    · exact absurd video other
  · intro selectable
    by_cases video : t.kind = .video
    · have member : c.pub ∈ c.room.otherParticipants c.subId :=
        mem_otherParticipants.mpr ⟨c.pubId, stands.apart.symm, stands.paired.publisher⟩
      rw [← stands.paired.simulcast] at shown
      refine .inl ⟨video, selectable video, ?_⟩
      rw [Link.announcedSsrc, shownSsrc, if_pos ⟨rfl, video⟩,
        collect_drawn hub.heap c.draws named stands.paired.simulcast member shown video, ← ensure_snd,
        Link.label]
    · refine .inr ⟨video, ?_⟩
      rw [Link.announcedSsrc, shownSsrc, if_neg fun both => video both.2]

theorem announcement_iff (stands : c.Stands hub) (seated : Seated hub) (aligned : Aligned hub)
    (distinct : Distinct (hub.heap c.pub).tracks) :
    ((∀ ssrc, ListedFor hub c.room c.draws c.subId c.pubId ssrc →
        ∀ t ∈ (hub.heap c.pub).tracks, ∀ t' ∈ (hub.heap c.pub).tracks,
          c.Reaches hub t ssrc → c.Reaches hub t' ssrc → SameSource t t') ∧
      ∀ t ∈ visible true (hub.heap c.pub), c.Delivered hub t (c.announcedSsrc hub t)) ↔
      Composed (c.label hub) (hub.heap c.pub) := by
  have once := participants_injective seated.sound stands.paired.held
  have named := seated_named seated stands.paired.held
  have drawn : c.room.simulcastEnabled = true → ShowsVideo true (hub.heap c.pub) →
      (hub.heap c.pub).simulcastVideoSsrc ≠ 0 := by
    intro simulcast shows
    obtain ⟨t, inside, video⟩ := shows
    exact aligned.drawn ⟨c.room, stands.paired.held, simulcast, stands.paired.publisher⟩ inside video
  have listed : ∀ ssrc, ListedFor hub c.room c.draws c.subId c.pubId ssrc ↔
      ssrc ∈ offeredSsrcs true (hub.heap c.pub) := by
    intro ssrc
    rw [listedFor_iff named stands.paired.publisher stands.apart.symm drawn, stands.paired.simulcast]
  have reaches : ∀ {t ssrc}, t ∈ (hub.heap c.pub).tracks →
      (c.Reaches hub t ssrc ↔ CarriedAs (c.label hub) t ssrc) := fun inside =>
    reaches_iff stands seated.sound aligned once distinct inside
  have delivered : ∀ {t}, t ∈ visible true (hub.heap c.pub) →
      (c.Delivered hub t (c.announcedSsrc hub t) ↔ (t.kind = .video → Selectable t)) := by
    intro t shown
    rw [delivered_iff stands seated.sound aligned once distinct (List.mem_of_mem_filter shown)]
    exact announced_carried_iff stands seated shown
  constructor
  · intro both
    refine ⟨fun t shown video => (delivered shown).mp (both.2 t shown) video, ?_⟩
    intro announced t inside t' inside' carried carried'
    exact both.1 _ ((listed _).mpr announced) t inside t' inside' ((reaches inside).mpr carried)
      ((reaches inside').mpr carried')
  · intro composed
    refine ⟨?_, fun t shown => (delivered shown).mpr (composed.selectable t shown)⟩
    intro ssrc announced t inside t' inside' reached reached'
    have carried := (reaches inside).mp reached
    have carried' := (reaches inside').mp reached'
    by_cases virtual : ssrc = c.label hub
    · subst virtual
      exact composed.single ((listed _).mp announced) t inside t' inside' carried carried'
    · -- Nothing but the one track with this SSRC is forwarded under it.
      rcases carried with ⟨_, _, same⟩ | ⟨_, own⟩
      · exact absurd same virtual
      rcases carried' with ⟨_, _, same⟩ | ⟨_, own'⟩
      · exact absurd same virtual
      exact .inl (distinct.unique inside inside' (own.symm.trans own'))

end Announcement

/-- In a simulcast room, whatever was published: under each announced SSRC one source is
    forwarded, and each announced track is forwarded once its layer is selected, exactly
    when the tracks are composed in the way that the fan-out is made for. -/
theorem announced_forwarded_iff (hmacSha1 : Bytes → Bytes → Bytes) (crc32 : Bytes → UInt32)
    (es : List Event) (c : Link)
    (stands : c.Stands (run (Servers.step hmacSha1 crc32) Server.new es).hub) :
    let hub := (run (Servers.step hmacSha1 crc32) Server.new es).hub
    ((∀ ssrc, ListedFor hub c.room c.draws c.subId c.pubId ssrc →
        ∀ t ∈ (hub.heap c.pub).tracks, ∀ t' ∈ (hub.heap c.pub).tracks,
          c.Reaches hub t ssrc → c.Reaches hub t' ssrc → SameSource t t') ∧
      ∀ t ∈ visible true (hub.heap c.pub), c.Delivered hub t (c.announcedSsrc hub t)) ↔
      Composed (c.label hub) (hub.heap c.pub) :=
  announcement_iff stands (run_seated hmacSha1 crc32 es) (run_aligned hmacSha1 crc32 es)
    (run_distinct hmacSha1 crc32 es c.pub)

/-- A publishes the given video; B is ready to receive. -/
def withVideo (ssrcs : List (UInt32 × Option String)) : List Event :=
  sampleRoom .conference true :: joinAs 0 "a" 1 ++ joinAs 1 "b" 2 ++
    startMedia 0 1 .publish 5000 ++ startMedia 1 2 .subscribe 5001 ++ [publishVideo 0 ssrcs]

def published (ssrcs : List (UInt32 × Option String)) : RoomHub :=
  (run (Servers.step sampleHmac fun _ => 0) Server.new (withVideo ssrcs)).hub

/-- B watches A. -/
def watches (ssrcs : List (UInt32 × Option String)) : Link where
  roomId := "room"
  room := ((published ssrcs).rooms.lookup "room").getD
    (.new "room" "sample" none .conference 1000 true 501 502)
  pubId := "a"
  pub := 0
  session := ⟨some "b", some "room", none, none, 1⟩
  subId := "b"
  sub := 1
  draws := (sampleOracle 0).vssrc

/-- One camera. -/
def onePair : List (UInt32 × Option String) := [(11, some "h"), (12, some "l")]

/-- Two cameras. -/
def twoPairs : List (UInt32 × Option String) :=
  [(11, some "h"), (12, some "l"), (13, some "h"), (14, some "l")]

def layerOf (ssrc : UInt32) (id rid : String) (group rtx : UInt32) : Track :=
  ⟨ssrc, .video, id, some rtx, false, some rid, some group, .vp8, 0, 0⟩

theorem one_pair_forwarded :
    (∀ ssrc, ListedFor (published onePair) (watches onePair).room (watches onePair).draws "b" "a"
        ssrc → ∀ t ∈ ((published onePair).heap 0).tracks, ∀ t' ∈ ((published onePair).heap 0).tracks,
        (watches onePair).Reaches (published onePair) t ssrc →
          (watches onePair).Reaches (published onePair) t' ssrc → SameSource t t') ∧
      ∀ t ∈ visible true ((published onePair).heap 0), (watches onePair).Delivered (published onePair)
        t ((watches onePair).announcedSsrc (published onePair) t) := by
  have stands : (watches onePair).Stands (published onePair) :=
    ⟨⟨rfl, by decide, rfl, by decide, by decide⟩, by decide, by decide⟩
  have tracks : ((published onePair).heap 0).tracks =
      [layerOf 11 "a_0" "h" 0 1011, layerOf 12 "a_1" "l" 0 1013] := by decide
  refine (announced_forwarded_iff sampleHmac (fun _ => 0) (withVideo onePair) (watches onePair)
    stands).mpr ⟨?_, ?_⟩
  · intro t shown _
    have high : visible true ((published onePair).heap 0) = [layerOf 11 "a_0" "h" 0 1011] := by
      decide
    have same : t ∈ visible true ((published onePair).heap 0) := shown
    rw [high, List.mem_singleton] at same
    exact ⟨"h", by rw [same]; rfl, by decide⟩
  · intro _ t inside t' inside' _ _
    have here : t ∈ ((published onePair).heap 0).tracks := inside
    have there : t' ∈ ((published onePair).heap 0).tracks := inside'
    rw [tracks] at here there
    simp only [List.mem_cons, List.not_mem_nil, or_false] at here there
    rcases here with rfl | rfl <;> rcases there with rfl | rfl <;>
      simp [SameSource, layerOf]

/-- The high layers of two cameras are forwarded under one SSRC. -/
theorem two_cameras_mixed :
    ¬ ∀ (hmacSha1 : Bytes → Bytes → Bytes) (crc32 : Bytes → UInt32) (es : List Event) (c : Link),
      c.Stands (run (Servers.step hmacSha1 crc32) Server.new es).hub →
      let hub := (run (Servers.step hmacSha1 crc32) Server.new es).hub
      (∀ ssrc, ListedFor hub c.room c.draws c.subId c.pubId ssrc →
          ∀ t ∈ (hub.heap c.pub).tracks, ∀ t' ∈ (hub.heap c.pub).tracks,
            c.Reaches hub t ssrc → c.Reaches hub t' ssrc → SameSource t t') ∧
        ∀ t ∈ visible true (hub.heap c.pub), c.Delivered hub t (c.announcedSsrc hub t) := by
  intro holds
  have stands : (watches twoPairs).Stands (published twoPairs) :=
    ⟨⟨rfl, by decide, rfl, by decide, by decide⟩, by decide, by decide⟩
  have mixed := (holds sampleHmac (fun _ => 0) (withVideo twoPairs) (watches twoPairs) stands).1 503
    (by decide) (layerOf 11 "a_0" "h" 0 1011) (by decide) (layerOf 13 "a_2" "h" 1 1015) (by decide)
    ⟨[], keyframePacket 0 0 11 0, sampleOracle 0, ⟨by decide, by decide, by decide⟩, by decide⟩
    ⟨[], keyframePacket 0 0 13 0, sampleOracle 0, ⟨by decide, by decide, by decide⟩, by decide⟩
  simp [SameSource, layerOf] at mixed

end AnnouncedSources
