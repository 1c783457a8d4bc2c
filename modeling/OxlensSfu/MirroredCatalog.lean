import OxlensSfu.SessionOwnership
import OxlensSfu.TrackMirror

/-
A client that starts from the track list of its join and applies what it is sent, over any
run of the server in which it stays in its room.
-/
namespace MirroredCatalog
open WireBytes SfuConfig KeyedMap KeyedReplica Participants RoomHubs RoomHub Membership Signaling
open FloorHandlers RoomHandlers TrackHandlers Ingress Servers MemberFrames RoomSteps Seating
open Catalog CatalogFrames VirtualSsrcs AnnouncedSsrcs TrackLists TrackUpdates TrackMirror
open FloorMembership SessionOwnership GuardedRun
open FloorControl (UserId)

/-- The tracks of a client: the list that it got, and the packets after it. -/
def mirror (tracks : List TrackInfo) (updates : List (Update TrackInfo)) :
    Table (UserId × UInt32) String :=
  replay trackKey (·.trackId) ∅ (.add tracks :: updates)

section Events
variable {c : Follower} {s : Server}

/-- The event moves nobody and registers nothing. -/
def Still (e : Event) : Prop :=
  ¬ Moves e ∧ ∀ conn pid d o, e ≠ .request conn pid (.publishTracks d) o

variable (hmacSha1 : Bytes → Bytes → Bytes) (crc32 : Bytes → UInt32) {e : Event}

/-- Without a move a room that is not new has the same participants. -/
theorem unmoved_members (unmoved : ¬ Moves e) {r : RoomId} {k : UserId} {p : Ptr}
    (was : Member s.hub r k p) (stays : Member (Servers.step hmacSha1 crc32 s e).hub r k p)
    (u : UserId) (q : Ptr) :
    Member (Servers.step hmacSha1 crc32 s e).hub r u q ↔ Member s.hub r u q := by
  obtain ⟨before, held, _⟩ := was
  obtain ⟨after, found, entry⟩ := stays
  have same : after.participants = before.participants := by
    rcases step_changes hmacSha1 crc32 s e with changes | creates
    · obtain ⟨room, held', _, _, _, moved | seated⟩ := changes r after found
      · exact absurd moved unmoved
      · rw [held, Option.some.injEq] at held'
        rw [held']
        exact congrArg Prod.fst seated
    · obtain ⟨id, name, capacity, mode, createdAt, simulcast, a, v, made⟩ := creates
      rw [made] at found
      rcases create_found found with rfl | ⟨_, same⟩
      · simp [Room.new] at entry
      · rw [held, Option.some.injEq] at same
        rw [same]
  constructor
  · intro there
    have entry := there.lookup found
    rw [same] at entry
    exact ⟨before, held, entry⟩
  · intro there
    have entry := there.lookup held
    rw [← same] at entry
    exact ⟨after, found, entry⟩

theorem still_settled (still : Still e) :
    Settled s.hub.heap (Servers.step hmacSha1 crc32 s e).hub.heap := by
  by_cases tells : Tells e
  · cases e with
    | request conn pid req o =>
      simp only [Servers.step, Servers.request]
      split
      · exact .refl s.hub.heap
      rename_i session _
      cases req with
      | roomJoin roomId => exact absurd trivial still.1
      | publishTracks d => exact absurd rfl (still.2 conn pid d o)
      | subscribeLayer targets =>
        cases user : session.userId with
        | none =>
          simp only [dispatch, user]
          exact .refl s.hub.heap
        | some u =>
          simp only [dispatch, user]
          exact handleSubscribeLayer_settled session pid u targets o.vssrc _
      | _ => exact tells.elim
    | rtp remote buf o => exact handleSrtp_settled remote buf o
    | _ => exact tells.elim
  · exact .of_faded (step_faded hmacSha1 crc32 s e tells)

theorem onFloor_untold (hub : RoomHub) (session : Session) {found : Except Reply (RoomId × Room)}
    {handler : Room → FloorRun × Reply} (quiet : ∀ room, Untold (handler room).1.sent) :
    Untold (onFloor hub session found handler).sent := by
  unfold onFloor
  split
  · exact untold_nil
  · exact quiet _

theorem handleRoomJoin_untold (hub : RoomHub) (session : Session) (pid : Nat) (u : UserId)
    (roomId : Option RoomId) (o : Oracle) :
    Untold (handleRoomJoin hub session pid u roomId o).sent := by
  unfold handleRoomJoin
  split
  · exact untold_nil
  split
  · exact untold_nil
  split
  · exact untold_nil
  split
  · exact untold_others u rfl
  · exact untold_nil

/-- Only a leave and a publication tell of tracks. -/
theorem dispatch_untold (hub : RoomHub) (session : Session) (pid : Nat) {req : Request} (o : Oracle)
    (stays : ∀ roomId, req ≠ .roomLeave roomId) (unpublished : ∀ d, req ≠ .publishTracks d) :
    Untold (dispatch hub session pid req o).sent := by
  cases user : session.userId with
  | none => cases req <;> simp only [dispatch, user] <;> exact untold_nil
  | some u =>
    cases req with
    | roomJoin roomId =>
      simp only [dispatch, user]
      exact handleRoomJoin_untold hub session pid u roomId o
    | roomLeave roomId => exact absurd rfl (stays roomId)
    | publishTracks d => exact absurd rfl (unpublished d)
    | floorRequest d =>
      simp only [dispatch, user]
      exact onFloor_untold hub session fun room => handleFloorRequest_untold _ room _ _ _ _ _ _
    | floorRelease roomId =>
      simp only [dispatch, user]
      exact onFloor_untold hub session fun room => handleFloorRelease_untold _ room _ _ _ _ _
    | floorPing roomId =>
      simp only [dispatch, user]
      exact onFloor_untold hub session fun room => untold_nil
    | subscribeLayer targets =>
      simp only [dispatch, user, ofTracks]
      unfold handleSubscribeLayer
      repeat' split
      all_goals exact untold_nil
    | _ =>
      simp only [dispatch, user]
      exact untold_nil

theorem still_untold (still : Still e) :
    ∃ out, (Servers.step hmacSha1 crc32 s e).sent = s.sent ++ out ∧ Untold out := by
  have silent : (Servers.step hmacSha1 crc32 s e).sent = s.sent →
      ∃ out, (Servers.step hmacSha1 crc32 s e).sent = s.sent ++ out ∧ Untold out := fun same =>
    ⟨[], by rw [same, List.append_nil], untold_nil⟩
  cases e with
  | request conn pid req o =>
    cases found : s.sessions conn with
    | none =>
      apply silent
      simp only [Servers.step, Servers.request, found]
    | some session =>
      refine ⟨(dispatch s.hub session pid req o).sent, ?_, dispatch_untold s.hub session pid o ?_ ?_⟩
      · simp only [Servers.step, Servers.request, found]
      · intro roomId same
        subst same
        exact still.1 trivial
      · intro d same
        subst same
        exact still.2 conn pid d o rfl
  | close conn o => exact absurd trivial still.1
  | reaper nowMs => exact absurd trivial still.1
  | stun remote buf nowMs dtlsHas => exact absurd trivial still.1
  | floorTimer r o =>
    refine ⟨(runFloorTimer s.hub r o).2, rfl, ?_⟩
    unfold runFloorTimer
    split
    · exact untold_nil
    split
    · exact floorTimerTick_untold _ _ _ _ _ _
    · exact untold_nil
  | mbcp remote subtype touchMs o =>
    refine ⟨(handleMbcpFrom s.hub remote subtype touchMs o).2, rfl, ?_⟩
    unfold handleMbcpFrom
    split
    · exact untold_nil
    simp only
    split
    · exact untold_nil
    split
    · exact handleMbcp_untold _ _ _ _ _ _ _ _
    · exact untold_nil
  | _ => exact silent rfl

theorem still_mirrors (still : Still e) (aligned : Aligned s.hub) (here : c.Here s.hub)
    (stays : Member (Servers.step hmacSha1 crc32 s e).hub c.room c.user c.ptr) :
    ∃ out, (Servers.step hmacSha1 crc32 s e).sent = s.sent ++ out ∧
      c.Mirrors s.hub (Servers.step hmacSha1 crc32 s e).hub out := by
  obtain ⟨out, sent, quiet⟩ := still_untold hmacSha1 crc32 still (s := s)
  have calm : Calm c s.hub (Servers.step hmacSha1 crc32 s e).hub :=
    .of_settled (unmoved_members hmacSha1 crc32 still.1 here.member stays)
      (still_settled hmacSha1 crc32 still)
  exact ⟨out, sent, calm.mirrors aligned here (updatesFor_untold quiet)⟩

theorem stun_mirrors (aligned : Aligned s.hub) (here : c.Here s.hub) (remote : SocketAddr)
    (buf : Bytes) (nowMs : Nat) (dtlsHas : Bool) :
    c.Mirrors s.hub (StunLatch.handleStun hmacSha1 crc32 s.hub buf remote nowMs dtlsHas).1 [] := by
  have same : SameMembers s.hub
      (StunLatch.handleStun hmacSha1 crc32 s.hub buf remote nowMs dtlsHas).1 := by
    rw [StunLatch.handleStun_hub]
    split
    · exact .of_rooms rfl rfl rfl
    · exact (latchSession_same s.hub _ _ _ _).trans (touch_same _ _ _)
  have calm := @Calm.of_settled c s.hub _ (fun u q => same.member_iff c.room u q)
    (.of_faded (handleStun_faded s.hub hmacSha1 crc32 buf remote nowMs dtlsHas))
  exact calm.mirrors aligned here rfl

/-- Whoever comes in has no tracks yet, and the others are told of the participant only. -/
theorem join_mirrors {hub : RoomHub} (seated : Seated hub) (aligned : Aligned hub)
    (here : c.Here hub) (session : Session) (pid : Nat) (u : UserId) (roomId : Option RoomId)
    (o : Oracle) :
    c.Mirrors hub (handleRoomJoin hub session pid u roomId o).hub
      (handleRoomJoin hub session pid u roomId o).sent := by
  have calm : Calm c hub (handleRoomJoin hub session pid u roomId o).hub := by
    rcases handleRoomJoin_joins seated session pid u roomId o with same | ⟨r, named, joins⟩
    · rw [same]
      exact .of_settled (fun _ _ => Iff.rfl) (.refl hub.heap)
    · have old : ∀ {v q}, Member hub c.room v q → q ≠ hub.nextPtr := fun there =>
        Nat.ne_of_lt (seated.sound.allocated there)
      constructor
      · intro v q there
        rw [named]
        rcases @handleRoomJoin_cases hub session pid u r o with
          ⟨_, same, _⟩ | ⟨_, registers, _⟩
        · rw [same]
          exact there
        · exact (registers.member c.room v q).mpr (.inl there)
      · intro v q there
        rcases joins.member there with before | ⟨_, _, new⟩
        · exact .inl before
        · rw [new]
          exact .inr joins.empty.1
      · intro v q _ there
        exact joins.tracks (old there)
      · intro v q _ there drawn
        exact joins.vssrc (old there) drawn
  exact calm.mirrors aligned here
    (updatesFor_untold (handleRoomJoin_untold hub session pid u roomId o))

/-- A publication of somebody else in the room names fresh SSRCs; and in a simulcast room the
    reaper finds nobody with a visible video track. -/
def Spared (c : Follower) (s : Server) : Event → Prop
  | .request conn _ (.publishTracks (some req)) _ => ∀ session u q,
      s.sessions conn = some session → session.userId = some u →
      session.currentRoom = some c.room → u ≠ c.user → Member s.hub c.room u q →
        NamesFresh c.simulcast ((s.hub.heap q).tracks.map (·.ssrc)) req.tracks
  | .reaper nowMs => c.simulcast = true → ∀ u q, Member s.hub c.room u q →
      Stale s.hub nowMs zombieTimeoutMs q → ¬ ShowsVideo true (s.hub.heap q)
  | _ => True

/-- One event: what arrives at the follower does to its tracks what the event does to the
    catalog of its room. -/
theorem step_mirrors (seated : Seated s.hub) (aligned : Aligned s.hub) (here : c.Here s.hub)
    (alone : c.Alone s.hub) (stays : c.Here (Servers.step hmacSha1 crc32 s e).hub)
    (keyed : c.Keyed (Servers.step hmacSha1 crc32 s e).hub) (spared : Spared c s e) :
    ∃ out, (Servers.step hmacSha1 crc32 s e).sent = s.sent ++ out ∧
      c.Mirrors s.hub (Servers.step hmacSha1 crc32 s e).hub out := by
  have listens : c.Listens s.hub := ⟨seated.sound, here.member, here.channel, alone⟩
  by_cases still : Still e
  · exact still_mirrors hmacSha1 crc32 still aligned here stays.member
  cases e with
  | request conn pid req o =>
    revert stays keyed
    simp only [Servers.step, Servers.request]
    cases found : s.sessions conn with
    | none => exact fun _ _ => ⟨[], (List.append_nil _).symm, mirrors_refl c s.hub⟩
    | some session =>
      intro stays keyed
      refine ⟨_, rfl, ?_⟩
      revert stays keyed
      cases user : session.userId with
      | none =>
        cases req with
        | heartbeat => exact absurd ⟨id, by simp⟩ still
        | _ =>
          simp only [dispatch, user]
          exact fun _ _ => mirrors_refl c s.hub
      | some u =>
        cases req with
        | roomJoin roomId =>
          simp only [dispatch, user]
          exact fun _ _ => join_mirrors seated aligned here session pid u roomId o
        | roomLeave roomId =>
          simp only [dispatch, user]
          exact fun stays _ => leave_mirrors listens aligned here session pid roomId o stays
        | publishTracks d =>
          simp only [dispatch, user, ofTracks]
          intro _ keyed
          refine publish_mirrors o.vssrc listens aligned here session pid d keyed ?_
          intro req q some_ at_ other member
          subst some_
          exact spared session u q found user at_ other member
        | _ => exact absurd ⟨id, by simp⟩ still
  | close conn o =>
    revert stays
    simp only [Servers.step, Servers.close]
    cases found : s.sessions conn with
    | none => exact fun _ => ⟨[], (List.append_nil _).symm, mirrors_refl c s.hub⟩
    | some session =>
      intro stays
      exact ⟨_, rfl, cleanup_mirrors listens aligned here session o stays.member⟩
  | reaper nowMs =>
    exact ⟨_, rfl, reaper_mirrors seated listens aligned here nowMs stays spared⟩
  | stun remote buf nowMs dtlsHas =>
    exact ⟨[], (List.append_nil _).symm,
      stun_mirrors hmacSha1 crc32 aligned here remote buf nowMs dtlsHas⟩
  | _ => exact absurd ⟨id, by simp⟩ still

end Events
section Joining
variable {hub : RoomHub} {session : Session} {pid : Nat} {u : UserId} {r : RoomId} {o : Oracle}

/-- The track list in the reply to a join is the listing of the room that it leaves behind. -/
theorem handleRoomJoin_listing {r' : RoomId} {mode : RoomMode} {users : List UserId}
    {publish subscribe : IceCredentials} {tracks : List TrackInfo} {simulcast : Bool}
    {virtual : Option (UInt32 × UInt32)}
    {floor : Option (Option UserId × List (UserId × UInt8 × UInt8))} {next : RoomHub}
    (after : (handleRoomJoin hub session pid u (some r) o).hub = next) (seated : Seated next)
    (reply : (handleRoomJoin hub session pid u (some r) o).reply = .ok opRoomJoin pid
      (.joined r' mode users publish subscribe tracks simulcast virtual floor)) :
    Joinable hub r u ∧ ∃ room, next.rooms.lookup r = some room ∧
      room.simulcastEnabled = simulcast ∧ tracks = listing next.arcs room next.heap u := by
  revert after reply
  simp only [handleRoomJoin]
  split
  · intro _ reply
    simp at reply
  split
  · intro _ reply
    simp [Reply.ofError] at reply
  rename_i joined _ added
  obtain ⟨before, there, space, absent, _⟩ := addParticipant_ok.mp added
  split
  · rename_i room held
    intro after reply
    have place : next.rooms.lookup r = some room := by
      rw [← after]
      exact held
    have named := seated_named seated place
    simp only [announceJoin, Reply.ok.injEq, ReplyBody.joined.injEq, true_and] at reply
    obtain ⟨_, _, _, _, _, told, kind, _⟩ := reply
    refine ⟨⟨before, there, space, absent⟩, room, place, kind, ?_⟩
    rw [← told]
    subst after
    exact collect_listing _ o.vssrc named
  · intro _ reply
    simp at reply

end Joining

section Run
variable (hmacSha1 : Bytes → Bytes → Bytes) (crc32 : Bytes → UInt32)

/-- A handle leads to the same participant as long as it is used. -/
theorem step_arcs (s : Server) (e : Event) (sound : WellFormed s.hub) {r : RoomId} {u : UserId}
    {p : Ptr} (member : Member s.hub r u p) :
    (Servers.step hmacSha1 crc32 s e).hub.arcs p = s.hub.arcs p := by
  cases step_kind hmacSha1 crc32 s e with
  | request conn pid req o =>
    simp only [Servers.step, Servers.request]
    split
    · rfl
    rename_i session _
    rcases (dispatch_outcome s.hub session pid o req).members with keeps | ⟨_, _, registers⟩
    · rw [keeps.arcs]
    · rw [registers.arcs, Function.update_of_ne (Nat.ne_of_lt (sound.allocated member))]
  | close conn o => exact congrFun (close_closes conn o).1.arcs p
  | connect => rfl
  | quiet keeps _ _ => rw [keeps.arcs]

variable {c : Follower}

theorem step_here {s : Server} {e : Event} (sound : WellFormed s.hub) (here : c.Here s.hub)
    (stays : Member (Servers.step hmacSha1 crc32 s e).hub c.room c.user c.ptr) :
    c.Here (Servers.step hmacSha1 crc32 s e).hub := by
  constructor
  · obtain ⟨room, held, entry⟩ := stays
    have before := @step_resident hmacSha1 crc32 s e c.room room.simulcastEnabled c.user c.ptr
      ⟨room, held, rfl, entry⟩ here.member
    obtain ⟨room', held', kind, _⟩ := before
    exact ⟨room, held, kind.symm.trans (here.kind held'), entry⟩
  · rw [step_arcs hmacSha1 crc32 s e sound here.member]
    exact here.channel

/-- The client has the catalog of its room, from its list and what it was sent since then. -/
structure Follows (c : Follower) (tracks : List TrackInfo) (since : Outbox) (s : Server) : Prop where
  seated : Seated s.hub
  aligned : Aligned s.hub
  here : c.Here s.hub
  mirrored : ∃ out, s.sent = since ++ out ∧
    Represents (mirror tracks (updatesFor c.conn out)) (c.Offered s.hub)

theorem step_follows {tracks : List TrackInfo} {since : Outbox} {s : Server} {e : Event}
    (follows : Follows c tracks since s) (alone : c.Alone s.hub)
    (stays : Member (Servers.step hmacSha1 crc32 s e).hub c.room c.user c.ptr)
    (keyed : c.Keyed (Servers.step hmacSha1 crc32 s e).hub) (spared : Spared c s e) :
    Follows c tracks since (Servers.step hmacSha1 crc32 s e) := by
  obtain ⟨seated, aligned, here, out, sent, rep⟩ := follows
  have next := step_here hmacSha1 crc32 seated.sound here stays
  obtain ⟨more, told, mirrors⟩ := step_mirrors hmacSha1 crc32 seated aligned here alone next keyed
    spared
  refine ⟨step_seated hmacSha1 crc32 s e seated, step_aligned hmacSha1 crc32 s e seated aligned,
    next, out ++ more, by rw [told, sent, List.append_assoc], ?_⟩
  have applied := mirrors _ rep
  rw [mirror, ← replay_append, List.cons_append, ← updatesFor_append] at applied
  exact applied

/-- Right after its join a participant has what the reply lists. -/
theorem joined_follows {s : Server} {conn : ConnId} {pid : Nat} {r : RoomId} {o : Oracle}
    {session : Session} {k : UserId} {p : Ptr} {mode : RoomMode} {users : List UserId}
    {publish subscribe : IceCredentials} {tracks : List TrackInfo} {simulcast : Bool}
    {virtual : Option (UInt32 × UInt32)}
    {floor : Option (Option UserId × List (UserId × UInt8 × UInt8))}
    (seated : Seated s.hub) (aligned : Aligned s.hub) (grounded : Grounded s) {joined : Server}
    (joins : Servers.step hmacSha1 crc32 s (.request conn pid (.roomJoin (some r)) o) = joined)
    (found : s.sessions conn = some session) (user : session.userId = some k)
    (reply : joined.replies.getLast? = some (conn, .ok opRoomJoin pid
      (.joined r mode users publish subscribe tracks simulcast virtual floor)))
    (member : Member joined.hub r k p)
    (keyed : (⟨conn, r, simulcast, k, p⟩ : Follower).Keyed joined.hub) :
    Follows ⟨conn, r, simulcast, k, p⟩ tracks joined.sent joined := by
  have good : Seated joined.hub := by
    rw [← joins]
    exact step_seated hmacSha1 crc32 s _ seated
  have shape : joined.hub = (handleRoomJoin s.hub session pid k (some r) o).hub ∧
      joined.replies = s.replies ++
        [(conn, (handleRoomJoin s.hub session pid k (some r) o).reply)] := by
    rw [← joins]
    simp only [Servers.step, Servers.request, found, dispatch, user, and_self]
  obtain ⟨hub, replies⟩ := shape
  rw [replies, List.getLast?_concat, Option.some.injEq, Prod.mk.injEq] at reply
  obtain ⟨fits, room, held, kind, listed⟩ := handleRoomJoin_listing hub.symm good reply.2
  have channel : (joined.hub.arcs p).wsTx = conn := by
    rcases @handleRoomJoin_cases s.hub session pid k r o with ⟨refused, _⟩ | ⟨_, registers, _⟩
    · exact absurd fits refused
    · rw [← hub] at registers
      rcases (registers.member r k p).mp member with before | ⟨_, _, new⟩
      · exact absurd before (registers.absent p)
      · rw [new, registers.channel]
        exact (grounded.opened found).1
  have here : (⟨conn, r, simulcast, k, p⟩ : Follower).Here joined.hub :=
    ⟨⟨room, held, kind, member.lookup held⟩, channel⟩
  refine ⟨good, ?_, here, [], (List.append_nil _).symm, ?_⟩
  · rw [← joins]
    exact step_aligned hmacSha1 crc32 s _ seated aligned
  · have offered := enlists_listing held (here.kind held) (seated_named good held)
    rw [← listed] at offered
    refine (represents_listed tracks ?_).congr fun key id => (offered key id).symm
    intro key id id' left right
    exact keyed.oneValue key id id' ((offered key id).mp left) ((offered key id').mp right)

/-- A participant that joins and stays, alone on its channel, keeps the catalog of its room by
    what it is sent, as long as nobody else there has two announced tracks under one SSRC,
    announced publications name fresh SSRCs, and in a simulcast room nobody with a visible
    video track is reaped. -/
theorem mirror_follows_catalog (es : List Event) (conn : ConnId) (pid : Nat) (r : RoomId)
    (o : Oracle) (session : Session) (k : UserId) (p : Ptr) (mode : RoomMode)
    (users : List UserId) (publish subscribe : IceCredentials) (tracks : List TrackInfo)
    (simulcast : Bool) (virtual : Option (UInt32 × UInt32))
    (floor : Option (Option UserId × List (UserId × UInt8 × UInt8))) (fs : List Event) :
    let s := run (Servers.step hmacSha1 crc32) Server.new es
    let joined := Servers.step hmacSha1 crc32 s (.request conn pid (.roomJoin (some r)) o)
    let last := run (Servers.step hmacSha1 crc32) joined fs
    let c : Follower := ⟨conn, r, simulcast, k, p⟩
    s.sessions conn = some session → session.userId = some k →
    joined.replies.getLast? = some (conn, .ok opRoomJoin pid
      (.joined r mode users publish subscribe tracks simulcast virtual floor)) →
    Always (Servers.step hmacSha1 crc32) (fun t => Member t.hub r k p) joined fs →
    Always (Servers.step hmacSha1 crc32) (fun t => c.Alone t.hub ∧ c.Keyed t.hub) joined fs →
    Guarded (Servers.step hmacSha1 crc32) (Spared c) joined fs →
      ∀ room, last.hub.rooms.lookup r = some room → ∀ draws key id,
        (mirror tracks (updatesFor conn (last.sent.drop joined.sent.length))).lookup key = some id ↔
          ∃ t ∈ (collectSubscribeTracks last.hub.arcs room last.hub.heap draws k).2,
            trackKey t = key ∧ t.trackId = id := by
  intro s joined last c found user reply stays lone spared room held draws key id
  have seated : Seated s.hub := run_seated hmacSha1 crc32 es
  have aligned : Aligned s.hub := run_aligned hmacSha1 crc32 es
  have grounded : Grounded s := run_invariant (step_grounded hmacSha1 crc32) new_grounded es
  have present := always_here stays
  have first := always_here lone
  have start : Follows c tracks joined.sent joined := joined_follows hmacSha1 crc32 seated aligned
    grounded rfl found user reply present first.2
  have all := @always_of_guarded _ _ (Servers.step hmacSha1 crc32) (Spared c)
    (Follows c tracks joined.sent)
    (fun t => Member t.hub r k p ∧ c.Alone t.hub ∧ c.Keyed t.hub)
    (fun t e follows here next guard =>
      step_follows hmacSha1 crc32 follows here.2.1 next.1 next.2.2 guard)
    joined start fs (always_and stays lone) spared
  obtain ⟨good, aligned', here, out, sent, rep⟩ := always_last all
  have arrived : last.sent.drop joined.sent.length = out := by
    have same : last.sent = joined.sent ++ out := sent
    rw [same, List.drop_left]
  rw [arrived, rep key id, ← enlists_collect aligned' good here held draws key id]
  rfl

end Run
section Samples

/-- A publisher with one video source is in the room, and a second user has identified. -/
def beforeViewer : List Event :=
  sampleRoom .conference true :: joinAs 0 "a" 1 ++
    [publishVideo 0 [(11, some "h")], .connect, identifyAs 1 "b"]

/-- Long after the publisher was last seen. -/
def joinLate : Event :=
  .request 1 2 (.roomJoin (some "room")) { sampleOracle 2 with nowMs := 200000 }

def joinedLate : Server :=
  Servers.step sampleHmac (fun _ => 0)
    (run (Servers.step sampleHmac fun _ => 0) Server.new beforeViewer) joinLate

def firstTracks : List TrackInfo := [⟨"a", .video, 503, "a_0", some 1011, none⟩]

/-- The publisher adds a microphone and the low layer of its video. -/
def publishMore : Event :=
  .request 0 4 (.publishTracks (some ⟨[⟨"audio", 13, none, none, none, none⟩,
    ⟨"video", 12, some "l", none, none, none⟩], none⟩)) (sampleOracle 0)

theorem joined_reply : joinedLate.replies.getLast? = some (1, .ok opRoomJoin 2
    (.joined "room" .conference ["b", "a"] ⟨[2, 1], [2]⟩ ⟨[2, 2], [2]⟩ firstTracks true none
      none)) := by decide

theorem viewer_follows_publication :
    let last := run (Servers.step sampleHmac fun _ => 0) joinedLate [publishMore]
    ∃ room, last.hub.rooms.lookup "room" = some room ∧ ∀ key id,
      ((mirror firstTracks (updatesFor 1 (last.sent.drop joinedLate.sent.length))).lookup key =
        some id ↔ ∃ t ∈ (collectSubscribeTracks last.hub.arcs room last.hub.heap
          (sampleOracle 0).vssrc "b").2, trackKey t = key ∧ t.trackId = id) := by
  intro last
  obtain ⟨room, held⟩ : ∃ room, last.hub.rooms.lookup "room" = some room := ⟨_, rfl⟩
  refine ⟨room, held, ?_⟩
  have before : Member joinedLate.hub "room" "b" 1 := ⟨_, rfl, by decide⟩
  have after : Member last.hub "room" "b" 1 := ⟨_, rfl, by decide⟩
  have fresh : Spared ⟨1, "room", true, "b", 1⟩ joinedLate publishMore := by
    have all := (@forall_member_iff joinedLate.hub fun r u q => r = "room" → u ≠ "b" →
      NamesFresh true ((joinedLate.hub.heap q).tracks.map (·.ssrc))
        [⟨"audio", 13, none, none, none, none⟩, ⟨"video", 12, some "l", none, none, none⟩]).mpr
      (by decide)
    intro session u q _ _ _ other member
    exact all "room" u q member rfl other
  exact mirror_follows_catalog sampleHmac (fun _ => 0) beforeViewer 1 2 "room" _ _ "b" 1 .conference
    ["b", "a"] ⟨[2, 1], [2]⟩ ⟨[2, 2], [2]⟩ firstTracks true none none [publishMore] rfl rfl
    joined_reply ⟨before, after⟩ ⟨by decide, by decide⟩ ⟨fresh, trivial⟩ room held
    (sampleOracle 0).vssrc

/-- The reaper names the real SSRC of a video track that the viewer has under the virtual one. -/
theorem reaped_video_stays_mirrored :
    ¬ ∀ (hmacSha1 : Bytes → Bytes → Bytes) (crc32 : Bytes → UInt32) (es : List Event)
        (conn : ConnId) (pid : Nat) (r : RoomId) (o : Oracle) (session : Session) (k : UserId)
        (p : Ptr) (users : List UserId) (publish subscribe : IceCredentials)
        (tracks : List TrackInfo) (simulcast : Bool) (virtual : Option (UInt32 × UInt32))
        (floor : Option (Option UserId × List (UserId × UInt8 × UInt8))) (fs : List Event),
      let s := run (Servers.step hmacSha1 crc32) Server.new es
      let joined := Servers.step hmacSha1 crc32 s (.request conn pid (.roomJoin (some r)) o)
      let last := run (Servers.step hmacSha1 crc32) joined fs
      s.sessions conn = some session → session.userId = some k →
      joined.replies.getLast? = some (conn, .ok opRoomJoin pid
        (.joined r .conference users publish subscribe tracks simulcast virtual floor)) →
      Always (Servers.step hmacSha1 crc32) (fun t => Member t.hub r k p) joined fs →
        ∀ room, last.hub.rooms.lookup r = some room → ∀ draws key id,
          ((mirror tracks (updatesFor conn (last.sent.drop joined.sent.length))).lookup key =
              some id ↔
            ∃ t ∈ (collectSubscribeTracks last.hub.arcs room last.hub.heap draws k).2,
              trackKey t = key ∧ t.trackId = id) := by
  intro holds
  let last := run (Servers.step sampleHmac fun _ => 0) joinedLate [.reaper 200000]
  obtain ⟨room, held⟩ : ∃ room, last.hub.rooms.lookup "room" = some room := ⟨_, rfl⟩
  have alone : ∀ room, last.hub.rooms.lookup "room" = some room →
      (collectSubscribeTracks last.hub.arcs room last.hub.heap (sampleOracle 0).vssrc "b").2 = [] := by
    intro room held
    obtain rfl := Option.some.inj held
    decide
  have before : Member joinedLate.hub "room" "b" 1 := ⟨_, rfl, by decide⟩
  have after : Member last.hub "room" "b" 1 := ⟨_, rfl, by decide⟩
  have kept : (mirror firstTracks
      (updatesFor 1 (last.sent.drop joinedLate.sent.length))).lookup ("a", 503) = some "a_0" := by
    decide
  have claimed := holds sampleHmac (fun _ => 0) beforeViewer 1 2 "room" _ _ "b" 1 ["b", "a"]
    ⟨[2, 1], [2]⟩ ⟨[2, 2], [2]⟩ firstTracks true none none [.reaper 200000] rfl rfl joined_reply
    ⟨before, after⟩ room held (sampleOracle 0).vssrc ("a", 503) "a_0"
  obtain ⟨t, listed, _⟩ := claimed.mp kept
  exact List.ne_nil_of_mem listed (alone room held)

end Samples
end MirroredCatalog
