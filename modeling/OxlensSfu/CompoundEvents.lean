import OxlensSfu.LastSeen
import OxlensSfu.PliRelay

/-
A compound packet as single events. What a handler does with the blocks of a packet is what
the server does with them one event after the other: the sign of life is noted again with
the reading that it has, and the room and the session stay what they were.
-/
namespace CompoundEvents
open WireBytes KeyedMap Participants RoomHubs RoomHub Signaling FloorHandlers RoomHandlers
open Ingress Servers GuardedRun RtcpCompound PliRelay Membership MediaFrames CatalogFrames
open FloorControl (UserId)

/-- What the handling of a block relies on. -/
def standing (s : ParticipantState) : Nat × Bool × Bool :=
  (s.lastSeen, s.publish.ready, s.subscribe.ready)

theorem standing_floor : FloorBlind standing := ⟨fun _ _ => rfl, fun _ _ => rfl⟩

theorem standing_media : MediaBlind standing where
  keyframe := view_requestKeyframe fun _ _ => rfl
  drawn := view_ensure fun _ _ => rfl
  layers _ _ := rfl

theorem standing_counters : CountersBlind standing := ⟨fun _ _ => rfl, fun _ _ => rfl, fun _ _ => rfl⟩

theorem standing_trySend (s : ParticipantState) (pkt : EgressPacket) :
    standing (s.trySend pkt) = standing s :=
  @view_trySend _ standing (fun _ _ => rfl) s pkt

/-- The sender of the blocks, where it was found, and its standing when the packet came. -/
structure Stands (hub : RoomHub) (remote : SocketAddr) (p : Ptr) (pc : PcType) (r : RoomId)
    (reading : Nat) : Prop where
  found : hub.findByAddr remote = some (p, pc, r)
  seen : (hub.heap p).lastSeen = reading
  ready : mediaReady (hub.heap p) pc = true

section Blocks
variable {hub : RoomHub} {remote : SocketAddr} {p : Ptr} {pc : PcType} {r : RoomId} {reading : Nat}

theorem touch_again (seen : (hub.heap p).lastSeen = reading) : hub.touch p reading = hub := by
  have same : (hub.heap p).touch reading = hub.heap p := by
    rw [ParticipantState.touch, ← seen]
  rw [touch, mutate, same, Function.update_eq_self]

theorem touched_seen (hub : RoomHub) (p : Ptr) (reading : Nat) :
    ((hub.touch p reading).heap p).lastSeen = reading := by
  simp only [touch, mutate_self]
  rfl

theorem mediaReady_standing {s t : ParticipantState} (same : standing s = standing t) (pc : PcType) :
    mediaReady s pc = mediaReady t pc := by
  simp only [standing, Prod.mk.injEq] at same
  cases pc with
  | publish => exact same.2.1
  | subscribe => exact same.2.2

theorem touched_ready (hub : RoomHub) (p : Ptr) (reading : Nat) (pc : PcType) :
    mediaReady ((hub.touch p reading).heap p) pc = mediaReady (hub.heap p) pc := by
  simp only [touch, mutate_self]
  cases pc <;> rfl

/-- Blocks that show in no standing leave the sender where it stands. -/
theorem Stands.of_shows (stands : Stands hub remote p pc r reading) {next : RoomHub}
    (same : Shows standing hub.heap next.heap) (rooms : next.findByAddr remote = hub.findByAddr remote) :
    Stands next remote p pc r reading where
  found := rooms.trans stands.found
  seen := (congrArg Prod.fst (same p)).trans stands.seen
  ready := (mediaReady_standing (same p) pc).trans stands.ready

theorem handleNackBlock_standing (arcs : Ptr → Participant) (room : Room) (visit : List UserId)
    (subscriber : Ptr) (h : Heap) (block : Bytes) (nowMs : Nat) :
    Shows standing h (handleNackBlock arcs room visit subscriber h block nowMs).1 := by
  intro q
  have anything : RtxTracks room (fun _ => True) h := fun _ _ _ _ _ _ => trivial
  exact handleNackBlock_at arcs room visit subscriber standing_counters standing_media
    (fun _ _ _ _ _ s => standing_trySend s _) h anything block nowMs

theorem findByAddr_withPtt (hub : RoomHub) (r : RoomId) (ptt : PttState) (heap : Heap)
    (addr : SocketAddr) : (withPtt hub r ptt heap).findByAddr addr = hub.findByAddr addr := by
  simp only [findByAddr, withPtt, lookup_modify]
  cases hub.addrIndex addr with
  | none => rfl
  | some roomId =>
    simp only [Option.bind_eq_bind, Option.bind_some]
    by_cases here : roomId = r
    · rw [if_pos here]
      cases hub.rooms.lookup roomId <;> rfl
    · rw [if_neg here]

theorem handleNackBlock_empty (arcs : Ptr → Participant) (room : Room) (visit : List UserId)
    (subscriber : Ptr) (h : Heap) (nowMs : Nat) :
    handleNackBlock arcs room visit subscriber h [] nowMs = (h, []) := by
  unfold handleNackBlock
  simp only
  split <;> rfl

/-- A NACK block without an entry is but a sign of life. -/
theorem handleSubscribeNack_empty (hub : RoomHub) (remote : SocketAddr) (touchMs nowMs : Nat)
    (visit : List UserId) :
    (handleSubscribeNack hub remote [] touchMs nowMs visit).1 =
      match hub.findByAddr remote with
      | none => hub
      | some (p, _, _) => hub.touch p touchMs := by
  unfold handleSubscribeNack
  cases hub.findByAddr remote with
  | none => rfl
  | some found =>
    obtain ⟨p, pc, r⟩ := found
    simp only [handleNackBlock_empty]
    cases hub.rooms.lookup r with
    | none => rfl
    | some room =>
      simp only
      split <;> rfl

/-- A NACK block from a subscriber that stands. -/
theorem Stands.nack (stands : Stands hub remote p .subscribe r reading) {room : Room}
    (held : hub.rooms.lookup r = some room) (block : Bytes) (nowMs : Nat) (visit : List UserId) :
    (handleSubscribeNack hub remote block reading nowMs visit).1 =
      { hub with heap := (handleNackBlock hub.arcs room visit p hub.heap block nowMs).1 } := by
  have ready : (hub.heap p).isSubscribeReady = true := stands.ready
  simp only [handleSubscribeNack, stands.found, held, ready, and_self, if_true,
    touch_again stands.seen]

theorem Stands.nacked (stands : Stands hub remote p .subscribe r reading) {room : Room}
    (held : hub.rooms.lookup r = some room) (block : Bytes) (nowMs : Nat) (visit : List UserId) :
    Stands (handleSubscribeNack hub remote block reading nowMs visit).1 remote p .subscribe r
      reading := by
  rw [stands.nack held]
  exact stands.of_shows (handleNackBlock_standing hub.arcs room visit p hub.heap block nowMs) rfl

/-- An MBCP message from a participant that stands. -/
theorem Stands.mbcp (stands : Stands hub remote p pc r reading) (subtype : UInt8) (o : Oracle) :
    handleMbcpFrom hub remote subtype reading o =
      match hub.rooms.lookup r with
      | none => (hub, [])
      | some room =>
        if room.mode = .ptt then
          let done := handleMbcp hub.arcs room hub.heap o.clk p subtype o.nowMs o.grantMs
          (withPtt hub r done.ptt done.heap, done.sent)
        else (hub, []) := by
  unfold handleMbcpFrom
  simp only [stands.found, touch_again stands.seen]
  cases hub.rooms.lookup r with
  | none => rfl
  | some room =>
    by_cases ptt : room.mode = .ptt
    · simp only [if_pos ptt, if_pos (And.intro stands.ready ptt)]
    · simp only [if_neg ptt, if_neg fun both => ptt (And.right both)]

theorem Stands.spoken (stands : Stands hub remote p pc r reading) (subtype : UInt8) (o : Oracle) :
    Stands (handleMbcpFrom hub remote subtype reading o).1 remote p pc r reading := by
  rw [stands.mbcp]
  cases hub.rooms.lookup r with
  | none => exact stands
  | some room =>
    simp only
    split
    · exact stands.of_shows (handleMbcp_shows standing_floor _ _ _ _ _ _ _ _)
        (findByAddr_withPtt hub r _ _ remote)
    · exact stands

end Blocks

/-- A sign of life as an event of its own. -/
def noticed (remote : SocketAddr) (touchMs : Nat) : Servers.Event := .nack remote [] touchMs 0 []

def nackEvents (remote : SocketAddr) (o : RelayOracle) (blocks : List Bytes) : List Servers.Event :=
  blocks.map fun block => .nack remote block o.touchMs o.nackMs o.visit

def mbcpEvents (remote : SocketAddr) (touchMs : Nat) (readings : Nat → Oracle)
    (blocks : List (MbcpMessage × Nat)) : List Servers.Event :=
  blocks.map fun (msg, i) => .mbcp remote msg.subtype touchMs (readings i)

/-- One MBCP message of a packet. -/
def mbcpBlock (roomId : RoomId) (sender : Ptr) (readings : Nat → Oracle) :
    RoomHub × Outbox → MbcpMessage × Nat → RoomHub × Outbox
  | (hub, sent), (msg, i) =>
    match hub.rooms.lookup roomId with
    | none => (hub, sent)
    | some room =>
      if room.mode = .ptt then
        let done := handleMbcp hub.arcs room hub.heap (readings i).clk sender msg.subtype
          (readings i).nowMs (readings i).grantMs
        (withPtt hub roomId done.ptt done.heap, sent ++ done.sent)
      else (hub, sent)

section Runs
variable (hmacSha1 : Bytes → Bytes → Bytes) (crc32 : Bytes → UInt32)
variable {remote : SocketAddr} {p : Ptr} {pc : PcType} {r : RoomId} {reading : Nat}

theorem noticed_runs (s : Server) (touchMs : Nat) :
    Servers.step hmacSha1 crc32 s (noticed remote touchMs) =
      { s with hub := match s.hub.findByAddr remote with
          | none => s.hub
          | some (p, _, _) => s.hub.touch p touchMs } := by
  simp only [noticed, Servers.step, handleSubscribeNack_empty]

/-- The NACK blocks of a packet, one after the other. -/
theorem nackBlocks_run (s : Server) (o : RelayOracle)
    (stands : Stands s.hub remote p .subscribe r o.touchMs) {room : Room}
    (held : s.hub.rooms.lookup r = some room) (blocks : List Bytes) :
    run (Servers.step hmacSha1 crc32) s (nackEvents remote o blocks) =
      { s with hub := { s.hub with heap := blocks.foldl (fun heap block =>
          (handleNackBlock s.hub.arcs room o.visit p heap block o.nackMs).1) s.hub.heap } } := by
  induction blocks generalizing s with
  | nil => rfl
  | cons block blocks ih =>
    have here := stands.nack held block o.nackMs o.visit
    have next := stands.nacked held block o.nackMs o.visit
    rw [here] at next
    simp only [nackEvents, List.map_cons, run_cons, Servers.step, here, List.foldl_cons]
    exact ih { s with hub := _ } next held

/-- The MBCP messages of a packet, one after the other. -/
theorem mbcpBlocks_run (s : Server) (readings : Nat → Oracle)
    (stands : Stands s.hub remote p pc r reading) (blocks : List (MbcpMessage × Nat))
    {before sent : Outbox} (told : s.sent = before ++ sent) :
    run (Servers.step hmacSha1 crc32) s (mbcpEvents remote reading readings blocks) =
      { s with
        hub := (blocks.foldl (mbcpBlock r p readings) (s.hub, sent)).1
        sent := before ++ (blocks.foldl (mbcpBlock r p readings) (s.hub, sent)).2 } := by
  induction blocks generalizing s sent with
  | nil =>
    simp only [mbcpEvents, List.map_nil, List.foldl_nil, ← told]
    rfl
  | cons block blocks ih =>
    obtain ⟨msg, i⟩ := block
    have next := stands.spoken msg.subtype (readings i)
    have same : mbcpBlock r p readings (s.hub, sent) (msg, i) =
        ((handleMbcpFrom s.hub remote msg.subtype reading (readings i)).1,
          sent ++ (handleMbcpFrom s.hub remote msg.subtype reading (readings i)).2) := by
      rw [stands.mbcp, mbcpBlock]
      cases s.hub.rooms.lookup r with
      | none => simp
      | some room =>
        simp only
        split <;> simp
    simp only [mbcpEvents, List.map_cons, run_cons, Servers.step, List.foldl_cons, same]
    rw [← mbcpEvents, ih (push s (handleMbcpFrom s.hub remote msg.subtype reading (readings i)))
      next (by rw [push, told, List.append_assoc])]
    rfl

end Runs
end CompoundEvents
