import OxlensSfu.CompoundEvents
import OxlensSfu.TransportStory

/-
The two sessions of a participant, its addresses and whether its keys are installed. They
are made by a join, moved by a STUN binding and made ready by the keys. Media, signaling
and timers leave them alone.
-/
namespace SessionSteps
open WireBytes SfuConfig KeyedMap Participants RoomHubs RoomHub Signaling RoomHandlers Ingress
open Servers GuardedRun Membership MediaFrames CatalogFrames Deliveries Seating RoomSteps
open SenderReports SendCounts CompoundEvents TransportStory
open FloorControl (UserId)

def sessions (s : ParticipantState) : SessionState × SessionState := (s.publish, s.subscribe)

theorem sessions_media : MediaBlind sessions where
  keyframe := view_requestKeyframe fun _ _ => rfl
  drawn := view_ensure fun _ _ => rfl
  layers _ _ := rfl

theorem sessions_counters : CountersBlind sessions := ⟨fun _ _ => rfl, fun _ _ => rfl, fun _ _ => rfl⟩

theorem sessions_trySend (s : ParticipantState) (pkt : EgressPacket) :
    sessions (s.trySend pkt) = sessions s := view_trySend (fun _ _ => rfl) s pkt

theorem sessions_of_core {s t : ParticipantState} (same : core s = core t) : sessions s = sessions t := by
  simp only [core, Prod.mk.injEq] at same
  exact Prod.ext same.1 same.2.1

theorem sessions_delivers {h h' : Heap} {media : List (List Ptr × Bytes)}
    (delivers : Delivers h h' media) : Shows sessions h h' :=
  delivers.shows (fun _ _ => sessions_of_core) sessions_trySend

theorem mediaReady_sessions {s t : ParticipantState} (same : sessions s = sessions t) (pc : PcType) :
    mediaReady s pc = mediaReady t pc := by
  simp only [sessions, Prod.mk.injEq] at same
  cases pc with
  | publish => exact congrArg SessionState.ready same.1
  | subscribe => exact congrArg SessionState.ready same.2

theorem address_sessions {s t : ParticipantState} (same : sessions s = sessions t) (pc : PcType) :
    s.address pc = t.address pc := by
  simp only [sessions, Prod.mk.injEq] at same
  cases pc with
  | publish => exact congrArg SessionState.address same.1
  | subscribe => exact congrArg SessionState.address same.2

theorem mediaReady_latch (s : ParticipantState) (moved pc : PcType) (addr : SocketAddr) :
    mediaReady (s.latchAddress moved addr) pc = mediaReady s pc := by
  cases moved <;> cases pc <;> rfl

theorem mediaReady_install (s : ParticipantState) (keyed pc : PcType) :
    mediaReady (s.installSrtpKeys keyed) pc = (mediaReady s pc || decide (pc = keyed)) := by
  cases keyed <;> cases pc <;> simp [mediaReady, ParticipantState.installSrtpKeys,
    ParticipantState.isPublishReady, ParticipantState.isSubscribeReady]

theorem address_install (s : ParticipantState) (keyed pc : PcType) :
    (s.installSrtpKeys keyed).address pc = s.address pc := by
  cases keyed <;> cases pc <;> rfl

structure SameSessions (hub next : RoomHub) : Prop where
  nextPtr : next.nextPtr = hub.nextPtr
  shown : Shows sessions hub.heap next.heap

theorem SameSessions.refl (hub : RoomHub) : SameSessions hub hub := ⟨rfl, .refl sessions hub.heap⟩

theorem SameSessions.trans {hub next last : RoomHub} (left : SameSessions hub next)
    (right : SameSessions next last) : SameSessions hub last :=
  ⟨right.nextPtr.trans left.nextPtr, left.shown.trans right.shown⟩

/-- What an event does to the sessions when it installs no keys. -/
inductive SessionStep (hub next : RoomHub) : Prop
  | kept (same : SameSessions hub next)
  | latched (r : RoomId) (u : UserId) (p : Ptr) (pc : PcType) (addr : SocketAddr)
      (here : Member hub r u p) (nextPtr : next.nextPtr = hub.nextPtr)
      (shown : Shows sessions (mutate hub.heap p fun s => s.latchAddress pc addr) next.heap)
  | built (nextPtr : next.nextPtr = hub.nextPtr + 1)
      (shown : Shows sessions (Function.update hub.heap hub.nextPtr (.new 0)) next.heap)

section Handlers
variable (hub : RoomHub)

theorem touch_sessions (p : Ptr) (ts : Nat) : SameSessions hub (hub.touch p ts) :=
  ⟨rfl, sessions_delivers (touch_serves hub p ts).delivers⟩

theorem handleSrtp_sessions (remote : SocketAddr) (buf : Bytes) (o : Oracle) :
    SameSessions hub (Ingress.handleSrtp hub remote buf o).hub := by
  rcases handleSrtp_cases hub remote buf o with
    dropped | ⟨sender, touched⟩ | ⟨sender, r, room, _, _, _, relayed⟩
  · rw [dropped]
    exact .refl hub
  · rw [touched]
    exact touch_sessions hub sender o.nowMs
  · rw [relayed]
    refine (touch_sessions hub sender o.nowMs).trans ⟨?_, fun q => ?_⟩
    · rw [relayRtp_hub]
      rfl
    refine (relayRtp_at (hub.touch sender o.nowMs) r room sender buf o sessions_media
      fun pkt => .inr fun s => sessions_trySend s pkt).trans (mutate_at fun _ => ?_)
    exact (view_detectGap sessions_media (fun _ _ _ => rfl) _ _).trans
      (view_collectRtpStats (fun _ _ => rfl) _ _ _)

theorem handleSubscribeNack_sessions (remote : SocketAddr) (block : Bytes) (touchMs nowMs : Nat)
    (visit : List UserId) :
    SameSessions hub (handleSubscribeNack hub remote block touchMs nowMs visit).1 := by
  rcases handleSubscribeNack_cases hub remote block touchMs nowMs visit with
    dropped | ⟨subscriber, touched⟩ | ⟨subscriber, r, room, _, _, answered⟩
  · rw [dropped]
    exact .refl hub
  · rw [touched]
    exact touch_sessions hub subscriber touchMs
  · rw [answered]
    refine (touch_sessions hub subscriber touchMs).trans ⟨rfl, fun q => ?_⟩
    have anything : RtxTracks room (fun _ => True) (hub.touch subscriber touchMs).heap :=
      fun _ _ _ _ _ _ => trivial
    exact handleNackBlock_at hub.arcs room visit subscriber sessions_counters sessions_media
      (fun _ _ _ _ _ s => sessions_trySend s _) _ anything block nowMs

theorem relayToTarget_sessions (room : Room) (sender : Ptr) (draw : NonzeroSsrc)
    (sent : Ptr → UInt32 → UInt32 × UInt32) (srBlocks relayBlocks : List Bytes)
    (state : Heap × List RelayedReport) (target : Ptr) :
    Shows sessions state.1 (relayToTarget room sender draw sent srBlocks relayBlocks state target).1 := by
  have blocks : Shows sessions state.1
      (srBlocks.foldl (translateBlock room sender draw sent target) (state.1, [])).1 := by
    apply Shows.fold (fun state : Heap × List RelayedReport => state.1)
    intro state block
    simp only [translateBlock]
    apply Shows.mutate
    rcases buildSrTranslation_state room draw (sent target) (state.1 sender) with same | drawn
    · exact congrArg sessions same
    · exact (congrArg sessions drawn).trans (sessions_media.drawn _ draw)
  unfold relayToTarget
  split
  · exact .refl sessions state.1
  · by_cases mode : room.mode = .ptt
    · simp only [if_pos mode]
      split
      · exact .refl sessions state.1
      · exact .mutate (sessions_trySend _ _)
    · simp only [if_neg mode]
      split
      · exact blocks
      · exact blocks.trans (.mutate (sessions_trySend _ _))

theorem processPublishRtcp_sessions (remote : SocketAddr) (buf : Bytes) (touchMs : Nat)
    (draw : NonzeroSsrc) (sent : Ptr → UInt32 → UInt32 × UInt32) :
    SameSessions hub (SenderReports.processPublishRtcp hub remote buf touchMs draw sent).1 := by
  unfold SenderReports.processPublishRtcp
  cases hub.findByAddr remote with
  | none => exact .refl hub
  | some found =>
    obtain ⟨sender, pc, r⟩ := found
    have touched := touch_sessions hub sender touchMs
    simp only
    cases hub.rooms.lookup r with
    | none => exact touched
    | some room =>
      simp only
      split
      · split
        · refine touched.trans ⟨rfl, ?_⟩
          simp only [relayPublishRtcpTranslated]
          split
          · exact .refl sessions _
          · exact Shows.fold (fun state : Heap × List RelayedReport => state.1)
              (relayToTarget_sessions room sender draw sent _ _) _ _
        · exact touched
      · exact touched

end Handlers

/-- What a datagram is told as when it comes from a latched address. -/
def FromMedia : SendCounts.Event → Prop
  | .server (.rtp ..) _ | .server (.nack ..) _ | .server (.mbcp ..) _ | .publishRtcp .. => True
  | _ => False

/-- The same, for one address. -/
def From (remote : SocketAddr) : SendCounts.Event → Prop
  | .server (.rtp source ..) _ | .server (.nack source ..) _ | .server (.mbcp source ..) _
  | .publishRtcp source .. => source = remote
  | _ => False

theorem From.media {remote : SocketAddr} {e : SendCounts.Event} (source : From remote e) :
    FromMedia e := by
  cases e with
  | publishRtcp => trivial
  | server e now => cases e <;> trivial

theorem srtpTold_from (hub : RoomHub) (remote : SocketAddr) (buf : Bytes)
    (o : DtlsTransport.Readings buf) : ∀ e ∈ srtpTold hub remote buf o, From remote e := by
  have plain : ∀ es : List Servers.Event, (∀ e ∈ es, From remote (.server e 0)) →
      ∀ e ∈ plainly es, From remote e := by
    intro es source e member
    obtain ⟨told, inside, rfl⟩ := List.mem_map.mp member
    exact source told inside
  have noticed_from : ∀ touchMs, ∀ e ∈ [noticed remote touchMs], From remote (.server e 0) := by
    intro touchMs e member
    rw [List.mem_singleton.mp member]
    rfl
  have nacks_from : ∀ o blocks, ∀ e ∈ nackEvents remote o blocks, From remote (.server e 0) := by
    intro o blocks e member
    obtain ⟨block, _, rfl⟩ := List.mem_map.mp member
    rfl
  have mbcp_from : ∀ touchMs readings blocks, ∀ e ∈ mbcpEvents remote touchMs readings blocks,
      From remote (.server e 0) := by
    intro touchMs readings blocks e member
    obtain ⟨block, _, rfl⟩ := List.mem_map.mp member
    rfl
  unfold srtpTold
  split
  · exact fun _ none_ => by simp at none_
  · exact plain _ (noticed_from _)
  · apply plain
    unfold consumeTold
    split
    · exact noticed_from _
    · intro e member
      rcases List.mem_cons.mp member with rfl | member
      · rfl
      rcases List.mem_append.mp member with nack | mbcp
      · exact nacks_from _ _ e nack
      · exact mbcp_from _ _ _ e mbcp
  · split
    · exact plain _ (noticed_from _)
    split
    · intro e member
      rcases List.mem_append.mp member with told | report
      · refine plain _ (fun e member => ?_) e told
        rcases List.mem_cons.mp member with rfl | member
        · rfl
        · exact mbcp_from _ _ _ e member
      · rw [List.mem_singleton.mp report]
        rfl
    · refine plain _ fun e member => ?_
      rw [List.mem_singleton.mp member]
      rfl

section Steps
variable (hmacSha1 : Bytes → Bytes → Bytes) (crc32 : Bytes → UInt32)

theorem step_sessions (s : Server) (e : Servers.Event) (seated : Seated s.hub)
    (unkeyed : ∀ p pc, e ≠ .srtpKeys p pc) :
    SessionStep s.hub (Servers.step hmacSha1 crc32 s e).hub := by
  by_cases own : OwnWay e
  · cases e with
    | stun remote buf nowMs dtlsHas =>
      simp only [Servers.step, StunLatch.handleStun_hub]
      split
      · exact .kept (.refl s.hub)
      · rename_i p pc r named
        obtain ⟨f, found⟩ := StunLatch.namedSession_ufrag named
        obtain ⟨u, here⟩ := findByUfrag_member seated.sound found
        exact .latched r u p pc remote here rfl (touch_sessions _ p nowMs).shown
    | srtpKeys p pc => exact absurd rfl (unkeyed p pc)
    | rtp remote buf o => exact .kept (handleSrtp_sessions s.hub remote buf o)
    | nack remote block touchMs nowMs visit =>
      exact .kept (handleSubscribeNack_sessions s.hub remote block touchMs nowMs visit)
    | egress p =>
      have popped : Shows sessions s.hub.heap
          (mutate s.hub.heap p fun st => { st with egress := st.egress.tail }) := .mutate rfl
      exact .kept ⟨rfl, popped⟩
    | _ => exact own.elim
  · rcases step_serves hmacSha1 crc32 s e own with serves | ⟨_, builds⟩
    · exact .kept ⟨serves.nextPtr, sessions_delivers serves.delivers⟩
    · refine .built builds.nextPtr fun p => ?_
      by_cases fresh : p = s.hub.nextPtr
      · subst fresh
        rw [Function.update_self]
        exact sessions_of_core builds.fresh
      · rw [Function.update_of_ne fresh]
        exact sessions_of_core (builds.others p fresh)

theorem media_sessions (c : Counted) (e : SendCounts.Event) (media : FromMedia e) :
    SameSessions c.server.hub (SendCounts.step hmacSha1 crc32 c e).server.hub := by
  cases e with
  | publishRtcp remote buf touchMs draw =>
    exact processPublishRtcp_sessions c.server.hub remote buf touchMs draw (sentBy c)
  | server e now =>
    cases e with
    | rtp remote buf o => exact handleSrtp_sessions c.server.hub remote buf o
    | nack remote block touchMs nowMs visit =>
      exact handleSubscribeNack_sessions c.server.hub remote block touchMs nowMs visit
    | mbcp remote subtype touchMs o =>
      have serves := handleMbcpFrom_serves c.server.hub remote subtype touchMs o
      exact ⟨serves.nextPtr, sessions_delivers serves.delivers⟩
    | _ => exact media.elim

end Steps
end SessionSteps
