import OxlensSfu.LastSeen
import OxlensSfu.FloorMembership

/-
The two checks on a participant's life: the heartbeat timer of its connection, which any
frame keeps quiet, and the reaper, which looks at last_seen. The ledger notes the traffic
beside the server.
-/
namespace Liveness
open WireBytes SfuConfig GuardedRun KeyedMap Participants RoomHubs RoomHub Signaling
open RoomHandlers Servers Membership LastSeen FloorMembership
open FloorControl (UserId)

/-- `refreshed` is the reading of the last join, HEARTBEAT or datagram of a participant. -/
structure Ledger where
  server : Server
  lastActivity : ConnId → Nat
  lastText : ConnId → Option Nat
  refreshed : Ptr → Nat

/-- `otherText` is a text packet that no handler of `Request` takes: a response, an invalid
    packet, an unknown opcode, or one of the opcodes that list, mute, acknowledge or relay.
    Of a participant it may change all but last_seen; it moves no session and no member. -/
inductive Traffic where
  | server (nowMs : Nat) (e : Event)
  | otherText (conn : ConnId) (nowMs : Nat) (after : Heap)
  | frame (conn : ConnId) (nowMs : Nat)
  | heartbeatTimer (conn : ConnId) (nowMs : Nat) (o : Oracle)

def opened : Ledger := ⟨.new, fun _ => 0, fun _ => none, seenOf Server.new.hub.heap⟩

def active (l : Ledger) (conn : ConnId) (nowMs : Nat) : Ledger :=
  { l with lastActivity := Function.update l.lastActivity conn nowMs }

def texted (l : Ledger) (conn : ConnId) (nowMs : Nat) : Ledger :=
  { active l conn nowMs with lastText := Function.update l.lastText conn (some nowMs) }

def keepSeen (before after : Heap) : Heap := fun p =>
  { after p with lastSeen := (before p).lastSeen }

section Run
variable (hmacSha1 : Bytes → Bytes → Bytes) (crc32 : Bytes → UInt32)

def perform (l : Ledger) (e : Event) : Ledger :=
  { l with
    server := Servers.step hmacSha1 crc32 l.server e
    refreshed := mark (refreshes l.server e) l.refreshed }

def advance (l : Ledger) : Traffic → Ledger
  | .server nowMs e =>
    let done := perform hmacSha1 crc32 l e
    match e with
    | .request conn .. => texted done conn nowMs
    | .connect => active done l.server.nextConn nowMs
    | _ => done
  | .otherText conn nowMs after =>
    let hub := { l.server.hub with heap := keepSeen l.server.hub.heap after }
    texted { l with server := { l.server with hub := hub } } conn nowMs
  | .frame conn nowMs => active l conn nowMs
  | .heartbeatTimer conn nowMs o =>
    if heartbeatTimeoutMs < nowMs - l.lastActivity conn then perform hmacSha1 crc32 l (.close conn o)
    else l

/-- A session that stands for `p` sent a text packet within the heartbeat timeout. -/
def Heard (l : Ledger) (now : Nat) (p : Ptr) : Prop :=
  ∃ conn session reading, l.server.sessions conn = some session ∧
    pointsAt l.server.hub session = some p ∧ l.lastText conn = some reading ∧
    now - reading ≤ heartbeatTimeoutMs

/-- A tick of the reaper removes nobody who was heard. -/
def Spared (l : Ledger) (t : Traffic) : Prop :=
  ∀ nowMs now, t = .server nowMs (.reaper now) → ∀ p, Heard l now p → ∀ r u,
    Member l.server.hub r u p → Member (advance hmacSha1 crc32 l t).server.hub r u p

/-- Whoever was heard was also refreshed within the zombie timeout. The reading zero is
    taken for none. -/
def Refreshed (l : Ledger) (t : Traffic) : Prop :=
  ∀ nowMs now, t = .server nowMs (.reaper now) → ∀ p, Heard l now p →
    l.refreshed p = 0 ∨ now - l.refreshed p ≤ zombieTimeoutMs

theorem advance_refreshed (l : Ledger) (t : Traffic)
    (noted : seenOf l.server.hub.heap = l.refreshed) :
    seenOf (advance hmacSha1 crc32 l t).server.hub.heap = (advance hmacSha1 crc32 l t).refreshed := by
  have performed : ∀ e, seenOf (perform hmacSha1 crc32 l e).server.hub.heap =
      (perform hmacSha1 crc32 l e).refreshed := by
    intro e
    simp only [perform]
    rw [step_seen, noted]
  cases t with
  | server nowMs e =>
    cases e with
    | request conn pid req o => exact performed (.request conn pid req o)
    | connect => exact performed .connect
    | _ => exact performed _
  | otherText conn nowMs after => exact noted
  | frame conn nowMs => exact noted
  | heartbeatTimer conn nowMs o =>
    simp only [advance]
    split
    · exact performed (.close conn o)
    · exact noted

end Run

theorem runZombieReaper_member (hub : RoomHub) (now : Nat) (r : RoomId) (u : UserId) (p : Ptr) :
    Member (runZombieReaper hub now).1 r u p ↔
      Member hub r u p ∧ ¬ Stale hub now zombieTimeoutMs p := by
  rw [← reapZombies_member, runZombieReaper, announceReaped_hub]
  exact Iff.rfl

theorem member_of_pointsAt {hub : RoomHub} {session : Session} {p : Ptr}
    (points : pointsAt hub session = some p) : ∃ r u, Member hub r u p := by
  unfold pointsAt at points
  obtain ⟨r, _, points⟩ := Option.bind_eq_some_iff.mp points
  obtain ⟨u, _, points⟩ := Option.bind_eq_some_iff.mp points
  obtain ⟨room, held, here⟩ := Option.bind_eq_some_iff.mp points
  exact ⟨r, u, room, held, here⟩

section Agreement
variable (hmacSha1 : Bytes → Bytes → Bytes) (crc32 : Bytes → UInt32)

theorem spared_iff_refreshed (l : Ledger) (t : Traffic)
    (noted : seenOf l.server.hub.heap = l.refreshed) :
    Spared hmacSha1 crc32 l t ↔ Refreshed l t := by
  have stale : ∀ now p, ¬ Stale l.server.hub now zombieTimeoutMs p ↔
      l.refreshed p = 0 ∨ now - l.refreshed p ≤ zombieTimeoutMs := by
    intro now p
    rw [← noted, Stale, seenOf]
    omega
  constructor
  · rintro spared nowMs now rfl p heard
    obtain ⟨conn, session, reading, _, points, _, _⟩ := id heard
    obtain ⟨r, u, member⟩ := member_of_pointsAt points
    have left := spared nowMs now rfl p heard r u member
    exact (stale now p).mp ((runZombieReaper_member l.server.hub now r u p).mp left).2
  · rintro refreshed nowMs now rfl p heard r u member
    have fresh := (stale now p).mpr (refreshed nowMs now rfl p heard)
    exact (runZombieReaper_member l.server.hub now r u p).mpr ⟨member, fresh⟩

theorem liveness_checks_agree_iff (ts : List Traffic) :
    Guarded (advance hmacSha1 crc32) (Spared hmacSha1 crc32) opened ts ↔
      Guarded (advance hmacSha1 crc32) Refreshed opened ts := by
  have keep := fun l t (noted : seenOf l.server.hub.heap = l.refreshed) =>
    advance_refreshed hmacSha1 crc32 l t noted
  constructor
  · exact guarded_of_invariant (fun l t noted _ => keep l t noted)
      (fun l t noted spared => (spared_iff_refreshed hmacSha1 crc32 l t noted).mp spared) rfl
  · exact guarded_of_invariant (fun l t noted _ => keep l t noted)
      (fun l t noted fresh => (spared_iff_refreshed hmacSha1 crc32 l t noted).mpr fresh) rfl

end Agreement

/-- A joins at 1000 and from then on only pings the floor; its connection stays open. -/
def pingingRun : List Traffic :=
  [.server 0 (sampleRoom .ptt false)] ++ (joinAs 0 "A" 1).map (.server 1000) ++
    [pings 60000, .heartbeatTimer 0 90001 (sampleOracle 0), pings 110000,
      .heartbeatTimer 0 121000 (sampleOracle 0)]
where
  pings (nowMs : Nat) : Traffic :=
    .server nowMs (.request 0 5 (.floorPing (some "room")) { sampleOracle 0 with nowMs := nowMs })

theorem pinging_member_reaped : ¬ ∀ (hmacSha1 : Bytes → Bytes → Bytes) (crc32 : Bytes → UInt32)
    (ts : List Traffic), Guarded (advance hmacSha1 crc32) (Spared hmacSha1 crc32) opened ts := by
  intro all
  let l := run (advance sampleHmac fun _ => 0) opened pingingRun
  have kept := (guarded_append.mp (all sampleHmac (fun _ => 0)
    (pingingRun ++ [.server 121001 (.reaper 121001)]))).2.1
  have noted : seenOf l.server.hub.heap = l.refreshed :=
    run_invariant (fun l t noted => advance_refreshed sampleHmac (fun _ => 0) l t noted) rfl pingingRun
  have refreshed := (spared_iff_refreshed sampleHmac (fun _ => 0) l _ noted).mp kept 121001 121001 rfl 0
  have heard : Heard l 121001 0 := by
    have standing : (l.server.sessions 0).bind (pointsAt l.server.hub) = some 0 := by decide
    obtain ⟨session, here, points⟩ := Option.bind_eq_some_iff.mp standing
    exact ⟨0, session, 110000, here, points, by decide, by decide⟩
  have last : l.refreshed 0 = 1000 := by decide
  rw [last] at refreshed
  exact absurd (refreshed heard) (by decide)

end Liveness
