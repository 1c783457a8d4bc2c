import OxlensSfu.MediaFrames
import OxlensSfu.Deliveries

/-
Which handlers touch a packet cache. Only an RTP packet does; every other handler leaves
the caches of all participants alone, and only a join builds a new participant.
-/
namespace CacheFrames
open WireBytes SfuConfig RtpPacket FloorControl PttRewriter KeyedMap Participants RoomHubs RoomHub
open Signaling FloorHandlers RoomHandlers TrackHandlers Ingress Servers
open Membership NackReplies MediaFrames Deliveries GuardedRun

def cacheOf (s : ParticipantState) : RtpCache := s.rtpCache

theorem cacheOf_trySend (s : ParticipantState) (pkt : EgressPacket) :
    cacheOf (s.trySend pkt) = cacheOf s := view_trySend (fun _ _ => rfl) s pkt

theorem cacheOf_blind : MediaBlind cacheOf where
  keyframe := view_requestKeyframe fun _ _ => rfl
  drawn := view_ensure fun _ _ => rfl
  layers _ _ := rfl

theorem cacheOf_latch (s : ParticipantState) (pc : PcType) (addr : SocketAddr) :
    cacheOf (s.latchAddress pc addr) = cacheOf s := by
  cases pc <;> rfl

theorem cacheOf_keys (s : ParticipantState) (pc : PcType) :
    cacheOf (s.installSrtpKeys pc) = cacheOf s := by
  cases pc <;> rfl

abbrev SameCaches := Shows cacheOf

theorem delivers_caches {h h' : Heap} {sent : List (List Ptr × Bytes)}
    (delivers : Delivers h h' sent) : SameCaches h h' := by
  refine delivers.shows (fun s t same => ?_) cacheOf_trySend
  simp only [core, Prod.mk.injEq] at same
  exact same.2.2.1

/-- No participant is built, and no cache changes. -/
structure Quiet (hub next : RoomHub) : Prop where
  nextPtr : next.nextPtr = hub.nextPtr
  caches : SameCaches hub.heap next.heap

namespace Quiet
variable {hub next last : RoomHub}

theorem refl (hub : RoomHub) : Quiet hub hub := ⟨rfl, .refl cacheOf hub.heap⟩

theorem trans (first : Quiet hub next) (second : Quiet next last) : Quiet hub last :=
  ⟨second.nextPtr.trans first.nextPtr, first.caches.trans second.caches⟩

theorem of_serves {sent : List (List Ptr × Bytes)} (serves : Serves hub next sent) :
    Quiet hub next :=
  ⟨serves.nextPtr, delivers_caches serves.delivers⟩

end Quiet

section Traffic
variable (hub : RoomHub)

theorem touch_quiet (p : Ptr) (ts : Nat) : Quiet hub (hub.touch p ts) :=
  .of_serves (touch_serves hub p ts)

theorem handleStun_quiet (hmacSha1 : Bytes → Bytes → Bytes) (crc32 : Bytes → UInt32)
    (buf : Bytes) (remote : SocketAddr) (now : Nat) (dtlsHas : Bool) :
    Quiet hub (StunLatch.handleStun hmacSha1 crc32 hub buf remote now dtlsHas).1 := by
  rw [StunLatch.handleStun_hub]
  split
  · exact .refl hub
  · rename_i p pc r _
    have latched : SameCaches hub.heap (mutate hub.heap p fun s => s.latchAddress pc remote) :=
      .mutate (cacheOf_latch _ pc remote)
    have quiet : Quiet hub (hub.latchSession p pc r remote) := ⟨rfl, latched⟩
    exact quiet.trans (touch_quiet _ p now)

theorem handleSubscribeNack_quiet (remote : SocketAddr) (block : Bytes) (touchMs nowMs : Nat)
    (visit : List UserId) :
    Quiet hub (handleSubscribeNack hub remote block touchMs nowMs visit).1 := by
  rcases handleSubscribeNack_cases hub remote block touchMs nowMs visit with
    dropped | ⟨subscriber, touched⟩ | ⟨subscriber, r, room, _, _, answered⟩
  · rw [dropped]
    exact .refl hub
  · rw [touched]
    exact touch_quiet hub subscriber touchMs
  · rw [answered]
    refine (touch_quiet hub subscriber touchMs).trans ⟨rfl, fun p => ?_⟩
    exact (shows_fields (handleNackBlock_answers hub.arcs room visit subscriber
      (hub.touch subscriber touchMs).heap block nowMs).1 p).1

end Traffic

/-- A new handle with an empty cache, and nothing else. -/
structure Built (hub next : RoomHub) : Prop where
  nextPtr : next.nextPtr = hub.nextPtr + 1
  fresh : cacheOf (next.heap hub.nextPtr) = .new
  others : ∀ p, p ≠ hub.nextPtr → cacheOf (next.heap p) = cacheOf (hub.heap p)

theorem Built.of_builds {hub next : RoomHub} (builds : Builds hub next) : Built hub next := by
  have cache : ∀ {s t : ParticipantState}, core s = core t → cacheOf s = cacheOf t :=
    fun same => (Prod.mk.inj (Prod.mk.inj (Prod.mk.inj same).2).2).1
  exact ⟨builds.nextPtr, cache builds.fresh, fun p other => cache (builds.others p other)⟩

/-- Apart from RTP, an event changes no cache, or builds one participant. -/
theorem step_built (hmacSha1 : Bytes → Bytes → Bytes) (crc32 : Bytes → UInt32) (s : Server)
    (e : Event) (notRtp : ∀ remote buf o, e ≠ .rtp remote buf o) :
    Quiet s.hub (Servers.step hmacSha1 crc32 s e).hub ∨
      Built s.hub (Servers.step hmacSha1 crc32 s e).hub := by
  by_cases own : OwnWay e
  · left
    cases e with
    | rtp remote buf o => exact absurd rfl (notRtp remote buf o)
    | stun remote buf nowMs dtlsHas =>
      exact handleStun_quiet s.hub hmacSha1 crc32 buf remote nowMs dtlsHas
    | srtpKeys p pc =>
      have keyed : SameCaches s.hub.heap (mutate s.hub.heap p fun st => st.installSrtpKeys pc) :=
        .mutate (cacheOf_keys _ pc)
      exact ⟨rfl, keyed⟩
    | nack remote block touchMs nowMs visit =>
      exact handleSubscribeNack_quiet s.hub remote block touchMs nowMs visit
    | egress p =>
      have popped : SameCaches s.hub.heap
          (mutate s.hub.heap p fun st => { st with egress := st.egress.tail }) := .mutate rfl
      exact ⟨rfl, popped⟩
    | _ => exact own.elim
  · exact (step_serves hmacSha1 crc32 s e own).imp .of_serves fun builds => .of_builds builds.2

end CacheFrames
