import OxlensSfu.MemberFrames
import OxlensSfu.GuardedRun

/-
Which participants a closing WS session takes with it. A participant keeps the channel of
the connection that registered it; a session remembers one room and one user id.
-/
namespace SessionOwnership
open WireBytes FloorControl Participants RoomHubs RoomHub Membership MemberFrames Signaling
open RoomHandlers Servers GuardedRun

/-- The participants that a connection registered are the one that its session points at. -/
def Owns (hub : RoomHub) (conn : ConnId) (session : Session) : Prop :=
  ∀ r u p, Member hub r u p →
    ((hub.arcs p).wsTx = conn ↔ session.currentRoom = some r ∧ session.userId = some u)

/-- The cleanup of a session removes the participants that its connection registered, and
    no others. -/
def CleanupExact (hub : RoomHub) (conn : ConnId) (session : Session) : Prop :=
  ∀ o r u p, Member hub r u p →
    (Member (cleanup hub session o).1 r u p ↔ (hub.arcs p).wsTx ≠ conn)

theorem cleanupExact_iff_owns (hub : RoomHub) (conn : ConnId) (session : Session) :
    CleanupExact hub conn session ↔ Owns hub conn session := by
  constructor
  · intro sharp r u p here
    have removed := sharp (sampleOracle 0) r u p here
    rw [member_cleanup, and_iff_right here, not_iff_not] at removed
    exact removed.symm
  · intro owns o r u p here
    rw [member_cleanup, and_iff_right here, not_iff_not]
    exact (owns r u p here).symm

theorem pointsAt_eq_some {hub : RoomHub} {session : Session} {p : Ptr} :
    pointsAt hub session = some p ↔
      ∃ r u, session.currentRoom = some r ∧ session.userId = some u ∧ Member hub r u p := by
  simp only [pointsAt, Option.bind_eq_bind, Option.bind_eq_some_iff, Room.getParticipant, Member]
  constructor
  · rintro ⟨r, room, u, user, held, found, here⟩
    exact ⟨r, u, room, user, held, found, here⟩
  · rintro ⟨r, u, room, user, held, found, here⟩
    exact ⟨r, room, u, user, held, found, here⟩

theorem pointsAt_eq_none {hub : RoomHub} {session : Session} :
    pointsAt hub session = none ↔
      ∀ r u p, session.currentRoom = some r → session.userId = some u → ¬ Member hub r u p := by
  rw [Option.eq_none_iff_forall_ne_some]
  simp only [ne_eq, pointsAt_eq_some, not_exists, not_and]
  exact ⟨fun none r u p => none p r u, fun none p r u => none r u p⟩

section Moves
variable {hub next : RoomHub} {conn : ConnId} {session : Session}

theorem Owns.keeps (owns : Owns hub conn session) (keeps : Keeps hub next) :
    Owns next conn session := by
  intro r u p here
  rw [keeps.arcs]
  exact owns r u p (keeps.member here)

theorem owns_rename_iff (owns : Owns hub conn session) (u : UserId) :
    Owns hub conn { session with userId := some u } ↔ session.userId = some u ∨
      (pointsAt hub session = none ∧ pointsAt hub { session with userId := some u } = none) := by
  simp only [pointsAt_eq_none]
  constructor
  · intro renamed
    by_cases same : session.userId = some u
    · exact .inl same
    · refine .inr ⟨?_, ?_⟩
      · intro r u' p room user here
        have mine := (owns r u' p here).mpr ⟨room, user⟩
        have named := ((renamed r u' p here).mp mine).2
        exact same (user.trans named.symm)
      · intro r u' p room user here
        have mine := (renamed r u' p here).mpr ⟨room, user⟩
        have named := ((owns r u' p here).mp mine).2
        exact same (named.trans user.symm)
  · rintro (same | ⟨nobody, nobodyNew⟩)
    · intro r u' p here
      rw [owns r u' p here, same]
    · intro r u' p here
      rw [owns r u' p here]
      exact iff_of_false (fun at_ => nobody r u' p at_.1 at_.2 here)
        fun at_ => nobodyNew r u' p at_.1 at_.2 here

theorem owns_enter_iff {entered : Session} {r : RoomId} {u : UserId}
    (allocated : ∀ {r u p}, Member hub r u p → p < hub.nextPtr) (owns : Owns hub conn session)
    (registers : Registers hub next r u conn) (room : entered.currentRoom = some r)
    (user : entered.userId = some u) : Owns next conn entered ↔ pointsAt hub session = none := by
  have kept : ∀ {r' u' p}, Member hub r' u' p → (next.arcs p).wsTx = (hub.arcs p).wsTx := by
    intro r' u' p here
    rw [registers.arcs, Function.update_of_ne (Nat.ne_of_lt (allocated here))]
  rw [pointsAt_eq_none]
  constructor
  · intro owned r' u' p room' user' here
    have mine := (owns r' u' p here).mpr ⟨room', user'⟩
    rw [← kept here] at mine
    have at_ := (owned r' u' p ((registers.member r' u' p).mpr (.inl here))).mp mine
    rw [room, user, Option.some.injEq, Option.some.injEq] at at_
    obtain ⟨rfl, rfl⟩ := at_
    exact registers.absent p here
  · intro nobody r' u' p here
    rw [room, user, Option.some.injEq, Option.some.injEq]
    rcases (registers.member r' u' p).mp here with before | ⟨rfl, rfl, rfl⟩
    · rw [kept before, owns r' u' p before]
      refine iff_of_false (fun at_ => nobody r' u' p at_.1 at_.2 before) ?_
      rintro ⟨rfl, rfl⟩
      exact registers.absent p before
    · exact iff_of_true registers.channel ⟨rfl, rfl⟩

theorem owns_other_iff {other : ConnId} {r : RoomId} {u : UserId} (apart : other ≠ conn)
    (allocated : ∀ {r u p}, Member hub r u p → p < hub.nextPtr) (owns : Owns hub other session)
    (registers : Registers hub next r u conn) :
    Owns next other session ↔ ¬(session.currentRoom = some r ∧ session.userId = some u) := by
  constructor
  · intro owned at_
    have entered := (registers.member r u hub.nextPtr).mpr (.inr ⟨rfl, rfl, rfl⟩)
    have foreign := (owned r u hub.nextPtr entered).mpr at_
    exact apart (foreign.symm.trans registers.channel)
  · intro elsewhere r' u' p here
    rcases (registers.member r' u' p).mp here with before | ⟨rfl, rfl, rfl⟩
    · rw [registers.arcs, Function.update_of_ne (Nat.ne_of_lt (allocated before))]
      exact owns r' u' p before
    · rw [registers.channel]
      exact iff_of_false (fun same => apart same.symm) elsewhere

theorem owns_exit_iff {gone : Session} {r : RoomId} {u : UserId} (owns : Owns hub conn session)
    (removes : Removes hub next r u) (user : session.userId = some u)
    (nowhere : gone.currentRoom = none) :
    Owns next conn gone ↔ session.currentRoom = some r ∨ pointsAt hub session = none := by
  rw [pointsAt_eq_none]
  constructor
  · intro owned
    by_cases here : session.currentRoom = some r
    · exact .inl here
    · right
      intro r' u' p room user' member
      have stays : Member next r' u' p := (removes.member r' u' p).mpr
        ⟨member, fun both => here (both.1 ▸ room)⟩
      have mine := (owns r' u' p member).mpr ⟨room, user'⟩
      rw [← removes.arcs] at mine
      have at_ := (owned r' u' p stays).mp mine
      rw [nowhere] at at_
      exact absurd at_.1 (by simp)
  · intro only r' u' p stays
    obtain ⟨member, other⟩ := (removes.member r' u' p).mp stays
    rw [removes.arcs, owns r' u' p member, nowhere]
    refine iff_of_false (fun at_ => ?_) (by simp)
    rcases only with here | nobody
    · rw [here, user, Option.some.injEq, Option.some.injEq] at at_
      exact other ⟨at_.1.symm, at_.2.symm⟩
    · exact nobody r' u' p at_.1 at_.2 member

end Moves

/-- Every open session owns what its connection registered. -/
def Owned (s : Server) : Prop :=
  ∀ conn session, s.sessions conn = some session → Owns s.hub conn session

/-- Handles and connections are numbered as they are made, and a session knows its own. -/
structure Grounded (s : Server) : Prop where
  allocated : ∀ {r u p}, Member s.hub r u p → p < s.hub.nextPtr
  registered : ∀ {r u p}, Member s.hub r u p → (s.hub.arcs p).wsTx < s.nextConn
  opened : ∀ {conn session}, s.sessions conn = some session →
    session.wsTx = conn ∧ conn < s.nextConn

/-- A session changes its user id only while it points at nobody under the old id or the
    new; it joins only while it points at nobody and no other session points at the place;
    and it leaves another room than its current one only while it points at nobody. -/
def KeepsOwnership (s : Server) : Event → Prop
  | .request conn _ (.identify (some d)) o => ∀ session, s.sessions conn = some session →
      let u := chosenUserId d.userId o.userNumber
      session.userId = some u ∨ (pointsAt s.hub session = none ∧
        pointsAt s.hub { session with userId := some u } = none)
  | .request conn _ (.roomJoin (some r)) _ => ∀ session u, s.sessions conn = some session →
      session.userId = some u → Joinable s.hub r u → pointsAt s.hub session = none ∧
        ∀ other session', other ≠ conn → s.sessions other = some session' →
          ¬(session'.currentRoom = some r ∧ session'.userId = some u)
  | .request conn _ (.roomLeave (some r)) _ => ∀ session u, s.sessions conn = some session →
      session.userId = some u → (∃ p, Member s.hub r u p) →
        session.currentRoom = some r ∨ pointsAt s.hub session = none
  | _ => True

section Requests
variable {s : Server} {conn : ConnId} {session : Session}

/-- After a request the session of the connection and all others are judged apart. -/
theorem owned_request_iff (found : s.sessions conn = some session) (pid : Nat) (req : Request)
    (o : Oracle) :
    Owned (Servers.request s conn pid req o) ↔
      Owns (dispatch s.hub session pid req o).hub conn (dispatch s.hub session pid req o).session ∧
        ∀ other session', other ≠ conn → s.sessions other = some session' →
          Owns (dispatch s.hub session pid req o).hub other session' := by
  simp only [Owned, Servers.request, found, Function.update_apply]
  constructor
  · intro owned
    refine ⟨owned conn _ (if_pos rfl), fun other session' apart held => ?_⟩
    exact owned other session' ((if_neg apart).trans held)
  · rintro ⟨mine, others⟩ other session' held
    split at held
    · rename_i same
      rw [Option.some.injEq] at held
      rw [same, ← held]
      exact mine
    · rename_i apart
      exact others other session' apart held

theorem request_owned_iff (grounded : Grounded s) (owned : Owned s) (conn : ConnId) (pid : Nat)
    (req : Request) (o : Oracle) :
    Owned (Servers.request s conn pid req o) ↔ KeepsOwnership s (.request conn pid req o) := by
  cases found : s.sessions conn with
  | none =>
    have shape : Servers.request s conn pid req o = s := by
      simp only [Servers.request, found]
    rw [shape]
    refine iff_of_true owned ?_
    unfold KeepsOwnership
    split <;> simp_all
  | some session =>
    rw [owned_request_iff found]
    have mine := owned conn session found
    have outcome := dispatch_outcome s.hub session pid o req
    revert outcome
    generalize (dispatch s.hub session pid req o).hub = next
    generalize (dispatch s.hub session pid req o).session = moved
    intro outcome
    cases outcome with
    | stays keeps named refused absent =>
      refine iff_of_true ⟨mine.keeps keeps,
        fun other session' _ held => (owned other session' held).keeps keeps⟩ ?_
      unfold KeepsOwnership
      split <;> simp_all
    | renamed d =>
      simp only [KeepsOwnership, found, Option.some.injEq, forall_eq']
      rw [← owns_rename_iff mine]
      exact ⟨And.left, fun renamed => ⟨renamed, fun other session' _ held =>
        owned other session' held⟩⟩
    | @joined r u next user fits registers =>
      rw [(grounded.opened found).1] at registers
      have others : (∀ other session', other ≠ conn → s.sessions other = some session' →
          Owns next other session') ↔ ∀ other session', other ≠ conn →
            s.sessions other = some session' →
              ¬(session'.currentRoom = some r ∧ session'.userId = some u) := by
        refine forall₄_congr fun other session' apart held => ?_
        exact owns_other_iff apart grounded.allocated (owned other session' held) registers
      refine (and_congr (owns_enter_iff grounded.allocated mine registers ?_ ?_) others).trans
        ⟨?_, ?_⟩
      · rfl
      · exact user
      · intro free session' u' held named _
        rw [found, Option.some.injEq] at held
        subst held
        rw [user, Option.some.injEq] at named
        subst named
        exact free
      · intro free
        exact free session u found user fits
    | @left r u next user present removes =>
      rw [owns_exit_iff mine removes user rfl]
      constructor
      · rintro ⟨free, _⟩ session' u' held _ _
        rw [found, Option.some.injEq] at held
        subst held
        exact free
      · intro free
        exact ⟨free session u found user present,
          fun other session' _ held => (owned other session' held).keeps removes.keeps⟩

end Requests

section Runs
variable (hmacSha1 : Bytes → Bytes → Bytes)
  (crc32 : Bytes → UInt32)

theorem Grounded.keeps {s next : Server} (grounded : Grounded s) (keeps : Keeps s.hub next.hub)
    (later : s.nextConn ≤ next.nextConn)
    (opened : ∀ {conn session}, next.sessions conn = some session →
      session.wsTx = conn ∧ conn < next.nextConn) : Grounded next where
  allocated here := by
    rw [keeps.nextPtr]
    exact grounded.allocated (keeps.member here)
  registered here := by
    rw [keeps.arcs]
    exact Nat.lt_of_lt_of_le (grounded.registered (keeps.member here)) later
  opened := opened

theorem request_grounded {s : Server} (grounded : Grounded s) (conn : ConnId) (pid : Nat)
    (req : Request) (o : Oracle) : Grounded (Servers.request s conn pid req o) := by
  cases found : s.sessions conn with
  | none =>
    have shape : Servers.request s conn pid req o = s := by
      simp only [Servers.request, found]
    rw [shape]
    exact grounded
  | some session =>
    obtain ⟨own, below⟩ := grounded.opened found
    have outcome := dispatch_outcome s.hub session pid o req
    have opened : ∀ {other session'}, (Servers.request s conn pid req o).sessions other =
        some session' → session'.wsTx = other ∧ other < s.nextConn := by
      intro other session' held
      simp only [Servers.request, found, Function.update_apply] at held
      split at held
      · rename_i same
        rw [Option.some.injEq] at held
        rw [same, ← held, outcome.wsTx]
        exact ⟨own, below⟩
      · exact grounded.opened held
    have hub : (Servers.request s conn pid req o).hub = (dispatch s.hub session pid req o).hub := by
      simp only [Servers.request, found]
    have nextConn : (Servers.request s conn pid req o).nextConn = s.nextConn := by
      simp only [Servers.request, found]
    rcases outcome.members with keeps | ⟨r, u, registers⟩
    · rw [← hub] at keeps
      exact grounded.keeps keeps (Nat.le_of_eq nextConn.symm) (by rw [nextConn]; exact opened)
    · rw [← hub] at registers
      refine ⟨fun {r' u' p} here => ?_, fun {r' u' p} here => ?_, by rw [nextConn]; exact opened⟩
      · rw [registers.nextPtr]
        rcases (registers.member r' u' p).mp here with before | ⟨_, _, rfl⟩
        · exact Nat.lt_succ_of_lt (grounded.allocated before)
        · exact Nat.lt_succ_self _
      · rw [nextConn]
        rcases (registers.member r' u' p).mp here with before | ⟨_, _, rfl⟩
        · rw [registers.arcs, Function.update_of_ne (Nat.ne_of_lt (grounded.allocated before))]
          exact grounded.registered before
        · rw [registers.channel, own]
          exact below

theorem close_closes {s : Server} (conn : ConnId) (o : Oracle) :
    Keeps s.hub (Servers.close s conn o).hub ∧ (Servers.close s conn o).nextConn = s.nextConn ∧
      ∀ {other session}, (Servers.close s conn o).sessions other = some session →
        s.sessions other = some session := by
  cases found : s.sessions conn with
  | none =>
    simp only [Servers.close, found]
    exact ⟨.refl s.hub, trivial, id⟩
  | some session =>
    simp only [Servers.close, found]
    refine ⟨cleanup_keeps session o, rfl, ?_⟩
    intro other session' held
    rw [Function.update_apply] at held
    split at held
    · simp at held
    · exact held

theorem step_grounded (s : Server) (e : Event) (grounded : Grounded s) :
    Grounded (Servers.step hmacSha1 crc32 s e) := by
  cases step_kind hmacSha1 crc32 s e with
  | request conn pid req o => exact request_grounded grounded conn pid req o
  | close conn o =>
    obtain ⟨keeps, nextConn, sessions⟩ := close_closes (s := s) conn o
    refine grounded.keeps keeps (Nat.le_of_eq nextConn.symm) fun held => ?_
    rw [show (Servers.step hmacSha1 crc32 s (.close conn o)).nextConn = s.nextConn from nextConn]
    exact grounded.opened (sessions held)
  | connect =>
    refine grounded.keeps (.refl s.hub) (Nat.le_succ _) fun {conn session} held => ?_
    simp only [Servers.step, Function.update_apply] at held ⊢
    split at held
    · rename_i same
      rw [Option.some.injEq] at held
      rw [same, ← held]
      exact ⟨rfl, Nat.lt_succ_self _⟩
    · obtain ⟨own, below⟩ := grounded.opened held
      exact ⟨own, Nat.lt_succ_of_lt below⟩
  | quiet keeps sessions nextConn =>
    refine grounded.keeps keeps (Nat.le_of_eq nextConn.symm) ?_
    rw [sessions, nextConn]
    exact grounded.opened

theorem step_owned_iff (s : Server) (e : Event) (grounded : Grounded s) (owned : Owned s) :
    Owned (Servers.step hmacSha1 crc32 s e) ↔ KeepsOwnership s e := by
  have kind := step_kind hmacSha1 crc32 s e
  cases e with
  | request conn pid req o => exact request_owned_iff grounded owned conn pid req o
  | close conn o =>
    obtain ⟨keeps, _, sessions⟩ := close_closes (s := s) conn o
    exact iff_of_true (fun other session held => (owned other session (sessions held)).keeps keeps)
      trivial
  | connect =>
    refine iff_of_true (fun conn session held => ?_) trivial
    simp only [Servers.step, Function.update_apply] at held
    split at held
    · rename_i same
      rw [Option.some.injEq] at held
      intro r u p here
      have older := grounded.registered here
      rw [same, ← held]
      refine iff_of_false (Nat.ne_of_lt older) fun at_ => ?_
      simp [Session.new] at at_
    · exact owned conn session held
  | _ =>
    cases kind with
    | quiet keeps sessions _ =>
      refine iff_of_true (fun conn session held => ?_) trivial
      rw [sessions] at held
      exact (owned conn session held).keeps keeps

theorem new_grounded : Grounded Server.new where
  allocated here := absurd here (not_member_new _ _ _)
  registered here := absurd here (not_member_new _ _ _)
  opened held := by simp [Server.new] at held

/-- If a session were closed now, exactly what its connection registered would go. -/
def ClosesExactly (s : Server) : Prop :=
  ∀ conn session, s.sessions conn = some session → CleanupExact s.hub conn session

theorem cleanup_exact_iff_keepsOwnership (es : List Event) :
    Always (Servers.step hmacSha1 crc32) ClosesExactly Server.new es ↔
      Guarded (Servers.step hmacSha1 crc32) KeepsOwnership Server.new es := by
  have owned : ClosesExactly = Owned := by
    funext s
    simp only [ClosesExactly, Owned, cleanupExact_iff_owns]
  rw [owned]
  exact always_iff_guarded (step_grounded hmacSha1 crc32) (step_owned_iff hmacSha1 crc32)
    new_grounded (fun conn session held => by simp [Server.new] at held) es

/-- One session joins two rooms and does not leave the first. -/
def joinTwoRooms : List Event :=
  [sampleRoom .conference false,
    .defaultRoom "hall" none .conference false { sampleOracle 0 with uuid := "hall" }] ++
    joinAs 0 "a" 1 ++ [.request 0 3 (.roomJoin (some "hall")) (sampleOracle 2)]

theorem first_membership_stays :
    ¬ ∀ (hmacSha1 : Bytes → Bytes → Bytes)
      (crc32 : Bytes → UInt32) (es : List Event),
      ClosesExactly (run (Servers.step hmacSha1 crc32) Server.new es) := by
  intro sharp
  let s := run (Servers.step (fun _ _ => []) fun _ => 0) Server.new joinTwoRooms
  have here : Member s.hub "room" "a" 0 :=
    ⟨(s.hub.rooms.lookup "room").get (by decide), (Option.some_get _).symm, by decide⟩
  have removed := sharp (fun _ _ => []) (fun _ => 0) joinTwoRooms 0
    ⟨some "a", some "hall", some [2, 1], some [2, 2], 0⟩ (by decide) (sampleOracle 0) "room" "a" 0
    here
  rw [member_cleanup] at removed
  exact absurd (removed.mp ⟨here, by decide⟩) (by decide)

end Runs
end SessionOwnership
