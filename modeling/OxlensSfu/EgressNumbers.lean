import OxlensSfu.MediaFrames
import OxlensSfu.RewriterTurns
import OxlensSfu.BurstNumbering
import OxlensSfu.Counting

/-
The numbers that the egress queue of a participant gets on one SSRC. A bounded queue keeps
the first packets that fit, so a queue that is not full in the end has got them all.
-/
namespace EgressNumbers
open WireBytes SfuConfig RtpPacket RtxPacket FloorControl PttRewriter KeyedMap Participants RoomHubs RoomHub
open Signaling FloorHandlers RoomHandlers TrackHandlers Ingress Servers
open Membership MediaFrames Deliveries RewriterTurns Counting

theorem take_append_take {α : Type} (l m : List α) (n : Nat) :
    (l.take n ++ m).take n = (l ++ m).take n := by
  by_cases short : l.length ≤ n
  · rw [List.take_of_length_le short]
  · have long : n ≤ l.length := by omega
    rw [List.take_append_of_le_length long,
      List.take_append_of_le_length (by rw [List.length_take]; omega), List.take_take, Nat.min_self]

section Queue
variable {q : Ptr}

theorem trySend_egress (s : ParticipantState) (pkt : EgressPacket)
    (fits : s.egress.length ≤ egressQueueSize) :
    (s.trySend pkt).egress = (s.egress ++ [pkt]).take egressQueueSize := by
  unfold ParticipantState.trySend
  split
  · rename_i space
    rw [List.take_of_length_le (by rw [List.length_append, List.length_singleton]; omega)]
  · rename_i full
    have last : s.egress.length = egressQueueSize := by omega
    rw [List.take_append_of_le_length (by omega), List.take_of_length_le fits]

theorem trySend_ready (s : ParticipantState) (pkt : EgressPacket) :
    (s.trySend pkt).subscribe = s.subscribe := by
  unfold ParticipantState.trySend
  split <;> rfl

/-- A queue that takes packets. -/
structure Open (s : ParticipantState) : Prop where
  ready : s.subscribe.ready = true
  fits : s.egress.length ≤ egressQueueSize

theorem sendToReady_egress (targets : List Ptr) (pkt : EgressPacket) {h : Heap}
    (taking : Open (h q)) : Open (sendToReady h targets pkt q) ∧
      (sendToReady h targets pkt q).egress =
        ((h q).egress ++ List.replicate (targets.count q) pkt).take egressQueueSize := by
  induction targets generalizing h with
  | nil =>
    refine ⟨taking, ?_⟩
    simp only [sendToReady, List.foldl_nil, List.count_nil, List.replicate_zero, List.append_nil]
    rw [List.take_of_length_le taking.fits]
  | cons t targets ih =>
    by_cases here : t = q
    · subst here
      have sent : mutate h t (fun s => if s.isSubscribeReady then s.trySend pkt else s) t =
          (h t).trySend pkt := by
        rw [mutate_self, ParticipantState.isSubscribeReady, if_pos taking.ready]
      have egress := trySend_egress (h t) pkt taking.fits
      have later : Open (mutate h t (fun s => if s.isSubscribeReady then s.trySend pkt else s) t) := by
        rw [sent]
        constructor
        · rw [trySend_ready]
          exact taking.ready
        · rw [egress, List.length_take]
          omega
      obtain ⟨stays, rest⟩ := ih later
      refine ⟨stays, rest.trans ?_⟩
      rw [sent, egress, take_append_take, List.count_cons_self, List.replicate_succ,
        List.append_assoc, List.singleton_append]
    · have kept : mutate h t (fun s => if s.isSubscribeReady then s.trySend pkt else s) q = h q :=
        mutate_ne _ (Ne.symm here)
      have rest := ih (h := mutate h t fun s => if s.isSubscribeReady then s.trySend pkt else s)
      rw [kept] at rest
      rw [List.count_cons_of_ne here]
      exact rest taking

/-- What the deliveries hold for one participant. -/
def received (q : Ptr) (sends : List Delivery) : List EgressPacket :=
  sends.flatMap fun d => List.replicate (d.1.count q) d.2

theorem deliver_egress (sends : List Delivery) {h : Heap} (taking : Open (h q)) :
    (deliver h sends q).egress =
      ((h q).egress ++ received q sends).take egressQueueSize := by
  induction sends generalizing h with
  | nil =>
    simp only [deliver, List.foldl_nil, received, List.flatMap_nil, List.append_nil]
    rw [List.take_of_length_le taking.fits]
  | cons d sends ih =>
    obtain ⟨later, egress⟩ := sendToReady_egress d.1 d.2 taking
    refine (ih later).trans ?_
    rw [egress, take_append_take, received, received, List.flatMap_cons, List.append_assoc]

end Queue

/-- An RTP packet of the SSRC, with a whole header. -/
def Carries (ssrc : UInt32) (p : Bytes) : Prop := rtpHeaderMinSize ≤ p.length ∧ u32At p 8 = ssrc

instance (ssrc : UInt32) (p : Bytes) : Decidable (Carries ssrc p) :=
  inferInstanceAs (Decidable (_ ∧ _))

/-- The number that a packet of the queue has on an SSRC. -/
def numberOn (ssrc : UInt32) : EgressPacket → Option UInt16
  | .rtp p => if Carries ssrc p then some (u16At p 2) else none
  | .rtcp _ => none

def numbersOn (ssrc : UInt32) (pkts : List EgressPacket) : List UInt16 :=
  pkts.filterMap (numberOn ssrc)

/-- The numbers on an SSRC among the media for one participant. -/
def mediaNumbers (ssrc : UInt32) (q : Ptr) (media : List (List Ptr × Bytes)) : List UInt16 :=
  media.flatMap fun m =>
    if Carries ssrc m.2 then List.replicate (m.1.count q) (u16At m.2 2) else []

section Numbers
variable {ssrc : UInt32} {q : Ptr}

theorem numbersOn_append (l m : List EgressPacket) :
    numbersOn ssrc (l ++ m) = numbersOn ssrc l ++ numbersOn ssrc m := List.filterMap_append

/-- A packet of another SSRC adds no number. -/
theorem trySend_numbers (s : ParticipantState) {p : Bytes} (foreign : ¬ Carries ssrc p) :
    numbersOn ssrc (s.trySend (.rtp p)).egress = numbersOn ssrc s.egress := by
  unfold ParticipantState.trySend
  split
  · have unseen : numbersOn ssrc [.rtp p] = [] := by simp [numbersOn, numberOn, foreign]
    dsimp only
    rw [numbersOn_append, unseen, List.append_nil]
  · rfl

/-- An RTX packet is on the RTX SSRC, or empty. -/
theorem rtx_carries {original : Bytes} {rtxSsrc : UInt32} {seq : UInt16}
    (carried : Carries ssrc (buildRtxPacket original rtxSsrc seq)) : rtxSsrc = ssrc := by
  by_cases complete : headerEnd original ≤ original.length
  · rw [← rtx_ssrc rtxSsrc seq complete]
    exact carried.2
  · have empty : buildRtxPacket original rtxSsrc seq = [] := by
      unfold buildRtxPacket
      split
      · rfl
      · rw [if_pos (Nat.lt_of_not_le complete)]
    rw [empty] at carried
    exact absurd carried.1 (by decide)

theorem received_numbers (sends : List Delivery) :
    numbersOn ssrc (received q sends) = mediaNumbers ssrc q (sends.filterMap mediaOf) := by
  induction sends with
  | nil => rfl
  | cons d sends ih =>
    obtain ⟨targets, pkt⟩ := d
    have first : received q ((targets, pkt) :: sends) =
        List.replicate (targets.count q) pkt ++ received q sends := rfl
    rw [first, numbersOn_append, ih]
    cases pkt with
    | rtp out =>
      have media : ((targets, EgressPacket.rtp out) :: sends).filterMap mediaOf =
          (targets, out) :: sends.filterMap mediaOf := rfl
      rw [media, mediaNumbers, mediaNumbers, List.flatMap_cons, numbersOn, List.filterMap_replicate]
      by_cases own : Carries ssrc out
      · simp only [numberOn, if_pos own]
      · simp only [numberOn, if_neg own]
    | rtcp out =>
      have media : ((targets, EgressPacket.rtcp out) :: sends).filterMap mediaOf =
          sends.filterMap mediaOf := rfl
      rw [media, numbersOn, List.filterMap_replicate]
      rfl

/-- A ready participant whose queue is not full in the end has got every number. -/
theorem delivers_numbers {h h' : Heap} {media : List (List Ptr × Bytes)}
    (delivers : Delivers h h' media) (taking : Open (h q))
    (space : (h' q).egress.length < egressQueueSize) :
    numbersOn ssrc (h' q).egress = numbersOn ssrc (h q).egress ++ mediaNumbers ssrc q media := by
  obtain ⟨sends, same, media⟩ := delivers
  have cores := same q
  simp only [core, Prod.mk.injEq] at cores
  have egress := deliver_egress sends taking
  rw [cores.2.2.2, egress, List.length_take] at space
  rw [cores.2.2.2, egress, List.take_of_length_le (by omega), numbersOn_append, received_numbers,
    media]

end Numbers

section Members
variable {hub : RoomHub} {r : RoomId} {room : Room} {q : Ptr}

theorem mem_subscribers (held : hub.rooms.lookup r = some room) :
    q ∈ subscribers room ↔ ∃ u, Member hub r u q := by
  rw [subscribers, mem_values]
  constructor
  · intro ⟨u, here⟩
    exact ⟨u, room, held, here⟩
  · intro ⟨u, here⟩
    exact ⟨u, here.lookup held⟩

/-- A broadcast reaches a participant of the room once. -/
theorem count_subscribers (sound : WellFormed hub) (held : hub.rooms.lookup r = some room)
    (inside : q ∈ subscribers room) : (subscribers room).count q = 1 := by
  have once : (subscribers room).Nodup := by
    rw [subscribers, values_eq]
    exact toList_nodup (participants_injective sound held)
  exact List.count_eq_one_of_mem once inside

/-- Whoever is in one room is not in another. -/
theorem not_mem_subscribers {r' : RoomId} {room' : Room} (sound : WellFormed hub)
    (held : hub.rooms.lookup r = some room) (inside : q ∈ subscribers room)
    (held' : hub.rooms.lookup r' = some room') (other : r' ≠ r) : q ∉ subscribers room' := by
  intro there
  obtain ⟨_, here⟩ := (mem_subscribers held).mp inside
  obtain ⟨_, there⟩ := (mem_subscribers held').mp there
  exact other (sound.once there here).1

/-- The fan-out of a packet reaches a ready participant once, unless it is the sender. -/
theorem count_readyOthers {u senderId : UserId} {h : Heap} (sound : WellFormed hub)
    (held : hub.rooms.lookup r = some room) (here : Member hub r u q)
    (ready : (h q).isSubscribeReady = true) :
    (readyOthers room h senderId).count q = if u = senderId then 0 else 1 := by
  have once := otherParticipants_nodup (participants_injective sound held) senderId
  split
  · rename_i own
    apply List.count_eq_zero_of_not_mem
    intro member
    obtain ⟨k, other, there⟩ := mem_otherParticipants.mp (List.mem_of_mem_filter member)
    have same : k = u := (sound.once ⟨room, held, there⟩ here).2
    exact other (same.trans own)
  · rename_i other
    have there := here.lookup held
    apply List.count_eq_one_of_mem (once.filter _)
    exact List.mem_filter.mpr ⟨mem_otherParticipants.mpr ⟨u, other, there⟩, ready⟩

end Members

section Silence
variable {room : Room} {q : Ptr} (r : Rewriter)

theorem silenceFrame_carries (i : Nat) : Carries r.virtualSsrc (silenceFrame r i) := by
  constructor
  · simp [silenceFrame, opusSilence, rtpHeaderMinSize, length_bytes16, length_bytes32]
  · let ssrc := r.virtualSsrc
    change be32 (UInt8.ofNat (ssrc.toNat / 16777216)) (UInt8.ofNat (ssrc.toNat / 65536 % 256))
      (UInt8.ofNat (ssrc.toNat / 256 % 256)) (UInt8.ofNat (ssrc.toNat % 256)) = ssrc
    exact be32_bytes32 ssrc

/-- The numbers of the silence frames. -/
def silenceNumbers : List UInt16 := (silenceOf r).map fun frame => u16At frame 2

theorem silence_numbers (once : (subscribers room).count q = 1) :
    mediaNumbers r.virtualSsrc q (silence room r) = silenceNumbers r := by
  have all : ∀ frames : List Bytes, (∀ frame ∈ frames, Carries r.virtualSsrc frame) →
      mediaNumbers r.virtualSsrc q (frames.map fun frame => (subscribers room, frame)) =
        frames.map fun frame => u16At frame 2 := by
    intro frames carried
    induction frames with
    | nil => rfl
    | cons frame frames ih =>
      rw [List.forall_mem_cons] at carried
      rw [List.map_cons, mediaNumbers, List.flatMap_cons, if_pos carried.1, once, List.map_cons]
      exact congrArg (u16At frame 2 :: ·) (ih carried.2)
  apply all
  intro frame member
  unfold silenceOf at member
  split at member
  · simp at member
  · obtain ⟨i, _, rfl⟩ := List.mem_map.mp member
    exact silenceFrame_carries r i

theorem silence_numbers_outside {ssrc : UInt32} (outside : q ∉ subscribers room) :
    mediaNumbers ssrc q (silence room r) = [] := by
  simp [mediaNumbers, silence, List.count_eq_zero_of_not_mem outside]

/-- The wheel of a rewriter: its number is one more than the last. -/
abbrev nextNumber (n : UInt16) : UInt16 := n + 1

theorem counts_range (a : UInt16) (n : Nat) : Counts nextNumber a
    ((List.range n).map fun i => a + UInt16.ofNat (1 + i)) (a + UInt16.ofNat n) := by
  induction n with
  | zero =>
    have stay : a + UInt16.ofNat 0 = a := UInt16.add_zero a
    rw [stay]
    exact .nil a
  | succ n ih =>
    have step : a + UInt16.ofNat (n + 1) = nextNumber (a + UInt16.ofNat n) := by
      rw [UInt16.ofNat_add, ← UInt16.add_assoc]
      rfl
    rw [List.range_succ, List.map_append, List.map_singleton, Nat.add_comm 1 n, step]
    exact ih.append (.one _)

/-- The numbers of the silence frames are those that a clear takes. -/
theorem silence_counts : Counts nextNumber r.state.lastVirtualSeq (silenceNumbers r)
    (r.state.lastVirtualSeq + UInt16.ofNat (silenceOf r).length) := by
  unfold silenceNumbers silenceOf
  split
  · exact counts_range r.state.lastVirtualSeq 0
  · have numbers : ((List.range silenceFlushCount).map (silenceFrame r)).map (fun frame =>
        u16At frame 2) = (List.range silenceFlushCount).map fun i =>
          r.state.lastVirtualSeq + UInt16.ofNat (1 + i) := by
      rw [List.map_map]
      exact List.map_congr_left fun i _ => BurstNumbering.silenceFrame_seq r i
    rw [numbers, List.length_map, List.length_range]
    exact counts_range _ _

end Silence

end EgressNumbers
