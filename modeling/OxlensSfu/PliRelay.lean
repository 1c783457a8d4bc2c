import Mathlib.Data.List.Dedup
import OxlensSfu.RtcpCompound
import OxlensSfu.Server

/-
Keyframe requests of subscribers. The feedback of a compound packet is gathered by the
media SSRC that it is about and handed on to the publisher, at most once in three
seconds. The time of the last request is kept beside the rest of the server.
-/
namespace PliRelay
open WireBytes SfuConfig FloorControl PttRewriter KeyedMap Participants RoomHubs RoomHub
open Signaling FloorHandlers RoomHandlers Ingress Servers RtcpCompound GuardedRun

/-- The blocks about one SSRC, and how many of them count as a PLI. -/
structure RtcpGroup where
  blocks : List Bytes
  pliCount : Nat
  deriving DecidableEq, Repr

/-- What became of one group: `packet` is handed to the encryption, if anything is, and
    `delivered` tells whether encryption and socket took it. -/
structure Relayed where
  publisher : Ptr
  atMs : Nat
  blocks : List Bytes
  throttled : Bool
  packet : Option (List Bytes)
  delivered : Bool
  deriving DecidableEq, Repr

structure RelayState where
  lastPliRelayMs : Ptr → Nat
  log : List Relayed

/-- Readings of one handler run: the visiting order of the participants and of the groups,
    the clock when a group is checked, and whether its packet gets out. -/
structure RelayOracle where
  touchMs : Nat
  nackMs : Nat
  visit : List UserId
  order : List UInt32
  clock : UInt32 → Nat
  sends : UInt32 → Bool
  mbcp : Nat → Oracle

/-- The source SSRC that feedback on an announced SSRC is about. -/
def effectiveSsrc (arcs : Ptr → Participant) (room : Room) (heap : Heap) (visit : List UserId)
    (subscriber : Ptr) (mediaSsrc : UInt32) : UInt32 :=
  if room.simulcastEnabled then
    match room.findPublisherByVssrc heap visit mediaSsrc with
    | none => mediaSsrc
    | some publisher =>
      (((heap subscriber).subscribeLayers.lookup (arcs publisher).userId).bind fun entry =>
        (heap publisher).layerSsrc entry.rid).getD mediaSsrc
  else if room.mode = .ptt ∧ (room.audioRewriter.virtualSsrc = mediaSsrc ∨
      room.videoRewriter.virtualSsrc = mediaSsrc) then
    let kind : TrackKind := if room.videoRewriter.virtualSsrc = mediaSsrc then .video else .audio
    let speaker := (currentSpeaker room.floor).orElse fun _ => lastSpeaker room.floor
    ((speaker.bind room.getParticipant).bind fun p =>
      ((heap p).tracks.find? (·.kind == kind)).map (·.ssrc)).getD mediaSsrc
  else mediaSsrc

def addBlock (groups : Table UInt32 RtcpGroup) (ssrc : UInt32) (block : Bytes) (pli : Bool) :
    Table UInt32 RtcpGroup :=
  let old := (groups.lookup ssrc).getD ⟨[], 0⟩
  groups.insert ssrc ⟨old.blocks ++ [block], if pli then old.pliCount + 1 else old.pliCount⟩

def groupBlocks (buf : Bytes) (effective : UInt32 → UInt32) (refs : List RtcpBlockRef) :
    Table UInt32 RtcpGroup :=
  refs.foldl (fun groups ref =>
    if ref.mediaSsrc = 0 then groups
    else addBlock groups (effective ref.mediaSsrc) (slice buf ref)
      (byteAt buf (ref.offset + 1) == rtcpPtPsfb)) ∅

/-- Every group once: first the listed ones, then the others. -/
def visited (order : List UInt32) (groups : Table UInt32 RtcpGroup) : List (UInt32 × RtcpGroup) :=
  ((order.filter (· ∈ groups.keys)).dedup ++ groups.keys.filter (· ∉ order)).filterMap fun k =>
    (groups.lookup k).map fun group => (k, group)

/-- Three seconds have not passed since the last request that was let through. -/
def throttles (group : RtcpGroup) (nowMs lastMs : Nat) : Bool :=
  decide (0 < group.pliCount) && decide (nowMs - lastMs < 3000)

/-- The blocks that a throttled request is left with. -/
def withoutPsfb (blocks : List Bytes) : List Bytes :=
  blocks.filter fun b => byteAt b 1 &&& 0x7F != rtcpPtPsfb

section Relay
variable (room : Room) (heap : Heap) (o : RelayOracle)

/-- The publisher that a group goes to, if it can be reached. -/
def relayTarget (ssrc : UInt32) : Option Ptr :=
  match room.findByTrackSsrc heap o.visit ssrc with
  | none => none
  | some publisher =>
    if (heap publisher).isPublishReady && (heap publisher).publish.address.isSome then
      some publisher
    else none

def relayGroup (state : RelayState) (entry : UInt32 × RtcpGroup) : RelayState :=
  let (ssrc, group) := entry
  match relayTarget room heap o ssrc with
  | none => state
  | some publisher =>
    let nowMs := o.clock ssrc
    let throttled := throttles group nowMs (state.lastPliRelayMs publisher)
    let last := if decide (0 < group.pliCount) && !throttled then
      Function.update state.lastPliRelayMs publisher nowMs else state.lastPliRelayMs
    let sendBlocks := if throttled then withoutPsfb group.blocks else group.blocks
    let packet := if throttled && sendBlocks.isEmpty then none else some sendBlocks
    ⟨last, state.log ++ [⟨publisher, nowMs, group.blocks, throttled, packet, o.sends ssrc⟩]⟩

def relaySubscribeRtcpBlocks (groups : List (UInt32 × RtcpGroup)) (state : RelayState) :
    RelayState :=
  groups.foldl (relayGroup room heap o) state

end Relay

/-- A subscriber's RTCP that is decrypted, with the subscriber and its room. -/
def acceptRtcp (hub : RoomHub) (remote : SocketAddr) (buf : Bytes) : Option (Ptr × RoomId × Room) :=
  match hub.findByAddr remote with
  | none => none
  | some (subscriber, pc, roomId) =>
    match hub.rooms.lookup roomId with
    | none => none
    | some room =>
      if pc = .subscribe ∧ (hub.heap subscriber).isSubscribeReady ∧ isRtcp buf then
        some (subscriber, roomId, room)
      else none

/-- The NACK blocks are answered before anything is relayed. -/
def answerNacks (hub : RoomHub) (room : Room) (subscriber : Ptr) (buf : Bytes) (o : RelayOracle) :
    Heap :=
  (splitCompoundRtcp buf).nackBlocks.foldl (fun heap block =>
    (handleNackBlock hub.arcs room o.visit subscriber heap block o.nackMs).1) hub.heap

/-- MBCP messages of a packet, each on the floor that the one before left behind. -/
def handleMbcpBlocks (hub : RoomHub) (roomId : RoomId) (sender : Ptr) (blocks : List MbcpMessage)
    (readings : Nat → Oracle) : RoomHub × Outbox :=
  blocks.zipIdx.foldl (fun (hub, sent) (msg, i) =>
    match hub.rooms.lookup roomId with
    | none => (hub, sent)
    | some room =>
      if room.mode = .ptt then
        let done := handleMbcp hub.arcs room hub.heap (readings i).clk sender msg.subtype
          (readings i).nowMs (readings i).grantMs
        (withPtt hub roomId done.ptt done.heap, sent ++ done.sent)
      else (hub, sent)) (hub, [])

/-- The groups of a packet in the order in which they are relayed, with the room and the
    states at that moment. -/
def relayJob (hub : RoomHub) (remote : SocketAddr) (buf : Bytes) (o : RelayOracle) :
    Option (Room × Heap × List (UInt32 × RtcpGroup)) :=
  match acceptRtcp hub remote buf with
  | none => none
  | some (subscriber, _, room) =>
    let heap := answerNacks (hub.touch subscriber o.touchMs) room subscriber buf o
    some (room, heap, visited o.order (groupBlocks buf
      (effectiveSsrc hub.arcs room heap o.visit subscriber) (splitCompoundRtcp buf).relayBlocks))

/-- What a subscriber's compound packet does to the hub. -/
def consumeRtcp (hub : RoomHub) (remote : SocketAddr) (buf : Bytes) (o : RelayOracle) :
    RoomHub × Outbox :=
  match acceptRtcp hub remote buf with
  | none =>
    match hub.findByAddr remote with
    | none => (hub, [])
    | some (sender, _, _) => (hub.touch sender o.touchMs, [])
  | some (subscriber, roomId, room) =>
    let touched := hub.touch subscriber o.touchMs
    let answered := { touched with heap := answerNacks touched room subscriber buf o }
    handleMbcpBlocks answered roomId subscriber (splitCompoundRtcp buf).mbcpBlocks o.mbcp

structure RelayServer where
  server : Server
  relay : RelayState

def RelayServer.new : RelayServer := ⟨.new, ⟨fun _ => 0, []⟩⟩

/-- The events of the server, and compound packets of subscribers. -/
inductive RelayEvent where
  | server (e : Servers.Event)
  | subscribeRtcp (remote : SocketAddr) (buf : Bytes) (o : RelayOracle)

section Run
variable (hmacSha1 : Bytes → Bytes → Bytes) (crc32 : Bytes → UInt32)

def step (s : RelayServer) : RelayEvent → RelayServer
  | .server e => { s with server := Servers.step hmacSha1 crc32 s.server e }
  | .subscribeRtcp remote buf o =>
    { server := push s.server (consumeRtcp s.server.hub remote buf o)
      relay := match relayJob s.server.hub remote buf o with
        | none => s.relay
        | some (room, heap, groups) => relaySubscribeRtcpBlocks room heap o groups s.relay }

end Run

/-- The packet that went out. -/
def Relayed.sent (r : Relayed) : Option Bytes :=
  if r.delivered then r.packet.map assembleCompound else none

/-- A packet with a PLI, as the receiver takes it apart. -/
def Relayed.asksKeyframe (r : Relayed) : Prop :=
  ∃ packet, r.sent = some packet ∧ (splitCompoundRtcp packet).relayBlocks ≠ []

/-- Any two keyframe requests to one publisher are three seconds apart. -/
def Spaced (log : List Relayed) : Prop :=
  log.Pairwise fun a b => a.publisher = b.publisher → a.asksKeyframe → b.asksKeyframe →
    a.atMs + 3000 ≤ b.atMs

/-- Of a throttled group everything but the PSFB blocks is handed on. -/
def RestHandedOn (log : List Relayed) : Prop :=
  ∀ r ∈ log, r.throttled = true → ∀ b ∈ r.blocks, byteAt b 1 ≠ rtcpPtPsfb →
    ∃ blocks, r.packet = some blocks ∧ b ∈ blocks

/-- The group is not one that the throttle holds back. -/
def LetThrough (room : Room) (heap : Heap) (o : RelayOracle) (state : RelayState)
    (entry : UInt32 × RtcpGroup) : Prop :=
  match relayTarget room heap o entry.1 with
  | none => True
  | some publisher =>
    throttles entry.2 (o.clock entry.1) (state.lastPliRelayMs publisher) = false

instance (room : Room) (heap : Heap) (o : RelayOracle) (state : RelayState)
    (entry : UInt32 × RtcpGroup) : Decidable (LetThrough room heap o state entry) := by
  unfold LetThrough
  split <;> infer_instance

/-- No group of the packet meets the throttle in the state that it finds. -/
def Unthrottled (s : RelayServer) : RelayEvent → Prop
  | .server _ => True
  | .subscribeRtcp remote buf o =>
    match relayJob s.server.hub remote buf o with
    | none => True
    | some (room, heap, groups) =>
      Guarded (relayGroup room heap o) (LetThrough room heap o) s.relay groups

instance (s : RelayServer) : ∀ e, Decidable (Unthrottled s e)
  | .server _ => isTrue trivial
  | .subscribeRtcp remote buf o =>
    match job : relayJob s.server.hub remote buf o with
    | none => isTrue (by simp [Unthrottled, job])
    | some (room, heap, groups) =>
      decidable_of_iff (Guarded (relayGroup room heap o) (LetThrough room heap o) s.relay groups)
        (by simp [Unthrottled, job])

/-- The mask leaves seven bits, so that the comparison with 206 never removes a block. -/
theorem withoutPsfb_all (blocks : List Bytes) : withoutPsfb blocks = blocks := by
  refine List.filter_eq_self.mpr fun b _ => ?_
  have masked : (byteAt b 1 &&& 0x7F).toNat ≤ 0x7F := by
    rw [UInt8.toNat_and]
    exact Nat.and_le_right
  rw [bne_iff_ne]
  intro same
  rw [same] at masked
  simp [rtcpPtPsfb] at masked

section Groups
variable {buf : Bytes} {effective : UInt32 → UInt32}

/-- Every gathered group holds a request, since nothing else is gathered. -/
theorem groupBlocks_counted {refs : List RtcpBlockRef}
    (feedback : ∀ ref ∈ refs, byteAt buf (ref.offset + 1) = rtcpPtPsfb) {ssrc : UInt32}
    {group : RtcpGroup} (found : (groupBlocks buf effective refs).lookup ssrc = some group) :
    0 < group.pliCount := by
  have all : ∀ (refs : List RtcpBlockRef) (groups : Table UInt32 RtcpGroup),
      (∀ ref ∈ refs, byteAt buf (ref.offset + 1) = rtcpPtPsfb) →
      (∀ k g, groups.lookup k = some g → 0 < g.pliCount) →
      ∀ k g, (refs.foldl (fun groups ref =>
        if ref.mediaSsrc = 0 then groups
        else addBlock groups (effective ref.mediaSsrc) (slice buf ref)
          (byteAt buf (ref.offset + 1) == rtcpPtPsfb)) groups).lookup k = some g →
        0 < g.pliCount := by
    intro refs
    induction refs with
    | nil => exact fun _ _ counted => counted
    | cons ref refs ih =>
      intro groups feedback counted
      rw [List.foldl_cons]
      refine ih _ (fun later member => feedback later (List.mem_cons_of_mem _ member)) ?_
      intro k g found
      split at found
      · exact counted k g found
      · rw [addBlock, lookup_insert] at found
        split at found
        · rw [Option.some.injEq] at found
          rw [← found, feedback ref List.mem_cons_self]
          simp
        · exact counted k g found
  refine all refs ∅ feedback (fun k g empty => ?_) ssrc group found
  simp at empty

theorem visited_lookup {order : List UInt32} {groups : Table UInt32 RtcpGroup}
    {entry : UInt32 × RtcpGroup} (member : entry ∈ visited order groups) :
    groups.lookup entry.1 = some entry.2 := by
  obtain ⟨k, _, found⟩ := List.mem_filterMap.mp member
  obtain ⟨group, held, rfl⟩ := Option.map_eq_some_iff.mp found
  exact held

/-- The groups of a packet all count as requests. -/
theorem relayJob_counted {hub : RoomHub} {remote : SocketAddr} {o : RelayOracle} {room : Room}
    {heap : Heap} {groups : List (UInt32 × RtcpGroup)}
    (job : relayJob hub remote buf o = some (room, heap, groups)) :
    ∀ entry ∈ groups, 0 < entry.2.pliCount := by
  intro entry member
  unfold relayJob at job
  split at job
  · simp at job
  · simp only [Option.some.injEq, Prod.mk.injEq] at job
    rw [← job.2.2] at member
    exact groupBlocks_counted (fun ref inside => ((split_typed buf).relay ref inside).2)
      (visited_lookup member)

end Groups

section Steps
variable {room : Room} {heap : Heap} {o : RelayOracle} {state : RelayState}
  {entry : UInt32 × RtcpGroup}

/-- A throttled group is handed on whole: nothing is taken out of it. -/
theorem relayGroup_rest (rest : RestHandedOn state.log) :
    RestHandedOn (relayGroup room heap o state entry).log := by
  obtain ⟨ssrc, group⟩ := entry
  cases target : relayTarget room heap o ssrc with
  | none => simpa only [relayGroup, target] using rest
  | some publisher =>
    simp only [relayGroup, target]
    intro r member held b inside other
    rcases List.mem_append.mp member with earlier | here
    · exact rest r earlier held b inside other
    · obtain rfl := List.mem_singleton.mp here
      have whole : b ∈ group.blocks := inside
      have some_ : group.blocks.isEmpty = false :=
        List.isEmpty_eq_false_iff_exists_mem.mpr ⟨b, whole⟩
      refine ⟨group.blocks, ?_, whole⟩
      simp only [withoutPsfb_all, some_, ite_self, Bool.and_false]
      rfl

/-- A group that is let through is noted and handed on as it is. -/
theorem relayGroup_letThrough (counted : 0 < entry.2.pliCount)
    (through : LetThrough room heap o state entry) :
    relayGroup room heap o state entry = state ∨
      ∃ publisher, state.lastPliRelayMs publisher + 3000 ≤ o.clock entry.1 ∧
        relayGroup room heap o state entry =
          ⟨Function.update state.lastPliRelayMs publisher (o.clock entry.1),
            state.log ++ [⟨publisher, o.clock entry.1, entry.2.blocks, false, some entry.2.blocks,
              o.sends entry.1⟩]⟩ := by
  obtain ⟨ssrc, group⟩ := entry
  cases target : relayTarget room heap o ssrc with
  | none =>
    left
    simp only [relayGroup, target]
  | some publisher =>
    right
    simp only [LetThrough, target] at through
    refine ⟨publisher, ?_, ?_⟩
    · have counted : 0 < group.pliCount := counted
      simp only [throttles, counted, decide_true, Bool.true_and, decide_eq_false_iff_not] at through
      change _ ≤ o.clock ssrc
      omega
    · have counted : 0 < group.pliCount := counted
      simp [relayGroup, target, through, counted]

/-- The requests are spaced, and none is later than what is noted for its publisher. -/
structure Paced (state : RelayState) : Prop where
  spaced : Spaced state.log
  noted : ∀ r ∈ state.log, r.atMs ≤ state.lastPliRelayMs r.publisher

theorem relayGroup_paced (paced : Paced state) (counted : 0 < entry.2.pliCount)
    (through : LetThrough room heap o state entry) :
    Paced (relayGroup room heap o state entry) := by
  rcases relayGroup_letThrough counted through with same | ⟨publisher, late, shape⟩
  · rw [same]
    exact paced
  · rw [shape]
    constructor
    · refine List.pairwise_append.mpr ⟨paced.spaced, List.pairwise_singleton _ _, ?_⟩
      intro a earlier b here same _ _
      obtain rfl := List.mem_singleton.mp here
      have before := paced.noted a earlier
      have publisher_ : a.publisher = publisher := same
      rw [publisher_] at before
      exact Nat.le_trans (Nat.add_le_add_right before 3000) late
    · intro r member
      simp only [Function.update_apply]
      rcases List.mem_append.mp member with earlier | here
      · have before := paced.noted r earlier
        split
        · rename_i same
          rw [same] at before
          omega
        · exact before
      · obtain rfl := List.mem_singleton.mp here
        simp

end Steps

section Runs
variable (hmacSha1 : Bytes → Bytes → Bytes) (crc32 : Bytes → UInt32)

theorem step_paced (s : RelayServer) (e : RelayEvent) (paced : Paced s.relay)
    (allowed : Unthrottled s e) : Paced (step hmacSha1 crc32 s e).relay := by
  cases e with
  | server e => exact paced
  | subscribeRtcp remote buf o =>
    simp only [step, Unthrottled] at allowed ⊢
    cases job : relayJob s.server.hub remote buf o with
    | none => exact paced
    | some found =>
      obtain ⟨room, heap, groups⟩ := found
      rw [job] at allowed
      have counted : Guarded (relayGroup room heap o) (fun _ entry => 0 < entry.2.pliCount)
          s.relay groups :=
        guarded_of_all s.relay fun entry member _ => relayJob_counted job entry member
      exact @guarded_invariant _ _ (relayGroup room heap o) _ Paced
        (fun _ _ held both => relayGroup_paced held both.2 both.1) s.relay paced groups
        (guarded_and allowed counted)

theorem step_rest (s : RelayServer) (e : RelayEvent) (rest : RestHandedOn s.relay.log) :
    RestHandedOn (step hmacSha1 crc32 s e).relay.log := by
  cases e with
  | server e => exact rest
  | subscribeRtcp remote buf o =>
    simp only [step]
    split
    · exact rest
    · exact @run_invariant _ _ (relayGroup _ _ o) (fun state => RestHandedOn state.log)
        (fun _ _ => relayGroup_rest) s.relay rest _

/-- As long as no request meets the throttle, the requests that a publisher gets are three
    seconds apart, and of a throttled group the rest is handed on. -/
theorem unthrottled_requests_spaced (es : List RelayEvent)
    (allowed : Guarded (step hmacSha1 crc32) Unthrottled RelayServer.new es) :
    Always (step hmacSha1 crc32) (fun s => Spaced s.relay.log ∧ RestHandedOn s.relay.log)
      RelayServer.new es := by
  have keep : ∀ s e, Paced s.relay ∧ RestHandedOn s.relay.log → Unthrottled s e →
      Paced (step hmacSha1 crc32 s e).relay ∧ RestHandedOn (step hmacSha1 crc32 s e).relay.log :=
    fun s e held allowed => ⟨step_paced hmacSha1 crc32 s e held.1 allowed,
      step_rest hmacSha1 crc32 s e held.2⟩
  have start : Paced RelayServer.new.relay ∧ RestHandedOn RelayServer.new.relay.log :=
    ⟨⟨List.Pairwise.nil, by simp [RelayServer.new]⟩, by simp [RestHandedOn, RelayServer.new]⟩
  exact always_mono (fun _ held => ⟨held.1.spaced, held.2⟩) (always_invariant keep start allowed)

end Runs

section Samples

/-- A subscriber that watches the video of one publisher, both connected. -/
def watching : List RelayEvent :=
  (sampleRoom .conference false :: joinAs 0 "a" 1 ++ joinAs 1 "b" 2 ++
    startMedia 0 1 .publish 5000 ++ startMedia 1 2 .subscribe 5001 ++
    [publishVideo 0 [(11, none)]]).map .server

def pliBlock : Bytes := [0x81, 206, 0, 2, 0, 0, 0, 1, 0, 0, 0, 11]

def askKeyframe (nowMs : Nat) : RelayEvent :=
  .subscribeRtcp (AddressIndex.portAt 5001) pliBlock
    ⟨nowMs, nowMs, ["a", "b"], [], fun _ => nowMs, fun _ => true, fun _ => sampleOracle 0⟩

theorem two_requests_spaced :
    Always (step sampleHmac fun _ => 0) (fun s => Spaced s.relay.log ∧ RestHandedOn s.relay.log)
      RelayServer.new (watching ++ [askKeyframe 10000, askKeyframe 13000]) :=
  unthrottled_requests_spaced sampleHmac (fun _ => 0) _ (by decide)

/-- One second after a request the throttle applies, and the request goes out again. -/
theorem throttled_request_sent : ¬ ∀ (hmacSha1 : Bytes → Bytes → Bytes) (crc32 : Bytes → UInt32)
    (es : List RelayEvent), Spaced (run (step hmacSha1 crc32) RelayServer.new es).relay.log := by
  intro holds
  have spaced := holds sampleHmac (fun _ => 0) (watching ++ [askKeyframe 10000, askKeyframe 11000])
  have log : (run (step sampleHmac fun _ => 0) RelayServer.new
      (watching ++ [askKeyframe 10000, askKeyframe 11000])).relay.log =
      [⟨0, 10000, [pliBlock], false, some [pliBlock], true⟩,
        ⟨0, 11000, [pliBlock], true, some [pliBlock], true⟩] := by decide
  rw [log] at spaced
  have asks : (splitCompoundRtcp pliBlock).relayBlocks ≠ [] := by decide
  have apart := (List.pairwise_cons.mp spaced).1 _ List.mem_cons_self rfl ⟨pliBlock, rfl, asks⟩
    ⟨pliBlock, rfl, asks⟩
  simp at apart

end Samples
end PliRelay
