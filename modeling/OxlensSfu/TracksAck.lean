import Mathlib.Data.Finset.Insert
import Mathlib.Data.Finset.Dedup
import OxlensSfu.CatalogFrames

/-
A client acknowledges the SSRCs that it knows. The server compares them with the set
that it expects, and on a difference sends the whole list anew.
-/
namespace TracksAck
open WireBytes SfuConfig FloorControl PttRewriter KeyedMap Participants RoomHubs RoomHub
open Signaling RoomHandlers TrackHandlers Servers Membership Catalog CatalogFrames GuardedRun

def opTracksAck : UInt16 := 16
def opTracksResync : UInt16 := 106

/-- The body is `synced: true`, or `synced: false` with `resync_sent`. -/
inductive AckReply where
  | synced (op : UInt16) (pid : Nat)
  | resyncSent (op : UInt16) (pid : Nat)
  | err (op : UInt16) (pid : Nat) (code : UInt16) (msg : String)
  deriving DecidableEq, Repr

/-- `resync`: the packet pushed into the channel of the session, as opcode and tracks. -/
structure AckOut where
  heap : Heap
  reply : AckReply
  resync : Option (UInt16 × List TrackInfo)

/-- The SSRCs of one publisher; in a simulcast room its virtual SSRC is drawn first. -/
def expectOne (room : Room) (draws : Ptr → NonzeroSsrc) (state : Heap × List UInt32) (p : Ptr) :
    Heap × List UInt32 :=
  let (heap, done) := state
  let (next, vssrc) :=
    if room.simulcastEnabled then (heap p).ensureSimulcastVideoSsrc (draws p) else (heap p, 0)
  (mutate heap p fun _ => next,
    done ++ (next.tracks.filter fun t => !(room.simulcastEnabled && t.rid == some "l")).map fun t =>
      if room.simulcastEnabled && t.kind == .video then vssrc else t.ssrc)

def expectedSsrcs (room : Room) (heap : Heap) (draws : Ptr → NonzeroSsrc) (userId : UserId) :
    Heap × Finset UInt32 :=
  if room.mode = .ptt then
    (heap, {room.audioRewriter.virtualSsrc, room.videoRewriter.virtualSsrc})
  else
    let (next, all) := (room.otherParticipants userId).foldl (expectOne room draws) (heap, [])
    (next, all.toFinset)

def virtualTracks (room : Room) : List TrackInfo :=
  [⟨"__virtual__", .audio, room.audioRewriter.virtualSsrc, "virtual_audio", none, none⟩,
    ⟨"__virtual__", .video, room.videoRewriter.virtualSsrc, "virtual_video", none, none⟩]

def resyncTracks (arcs : Ptr → Participant) (room : Room) (heap : Heap)
    (draws : Ptr → NonzeroSsrc) (userId : UserId) : Heap × List TrackInfo :=
  if room.mode = .ptt then (heap, virtualTracks room)
  else collectSubscribeTracks arcs room heap draws userId

def handleTracksAck (hub : RoomHub) (session : Session) (pid : Nat) (userId : UserId)
    (ssrcs : Option (List UInt32)) (draws : Ptr → NonzeroSsrc) : AckOut :=
  match ssrcs with
  | none => ⟨hub.heap, .err opTracksAck pid 3002 "invalid payload", none⟩
  | some ssrcs =>
    match session.currentRoom with
    | none => ⟨hub.heap, .err opTracksAck pid 2004 "not in room", none⟩
    | some roomId =>
      match hub.rooms.lookup roomId with
      | none => ⟨hub.heap, .err opTracksAck pid 2001 "room not found", none⟩
      | some room =>
        let (drawn, expected) := expectedSsrcs room hub.heap draws userId
        if ssrcs.toFinset = expected then ⟨drawn, .synced opTracksAck pid, none⟩
        else
          let (next, tracks) := resyncTracks hub.arcs room drawn draws userId
          ⟨next, .resyncSent opTracksAck pid, some (opTracksResync, tracks)⟩

section Expected
variable (room : Room) (draws : Ptr → NonzeroSsrc)

/-- A state in which the virtual SSRC is drawn if the room needs one. -/
def drawnFor (s : ParticipantState) (draw : NonzeroSsrc) : ParticipantState :=
  if room.simulcastEnabled then (s.ensureSimulcastVideoSsrc draw).1 else s

theorem drawnFor_again (s : ParticipantState) (draw draw' : NonzeroSsrc) :
    drawnFor room (drawnFor room s draw) draw' = drawnFor room s draw := by
  unfold drawnFor
  split
  · exact ensure_again s draw draw'
  · rfl

theorem drawnFor_tracks (s : ParticipantState) (draw : NonzeroSsrc) :
    (drawnFor room s draw).tracks = s.tracks := by
  unfold drawnFor
  split
  · exact ensure_tracks s draw
  · rfl

theorem expectOne_eq (state : Heap × List UInt32) (p : Ptr) :
    expectOne room draws state p =
      (mutate state.1 p fun s => drawnFor room s (draws p),
        state.2 ++ offeredSsrcs room.simulcastEnabled (drawnFor room (state.1 p) (draws p))) := by
  obtain ⟨heap, done⟩ := state
  have filtered : ∀ s : ParticipantState,
      s.tracks.filter (fun t => !(room.simulcastEnabled && t.rid == some "l")) =
        visible room.simulcastEnabled s := fun _ => rfl
  simp only [expectOne, filtered, offeredSsrcs, drawnFor]
  split
  · rename_i simulcast
    rw [ensure_snd]
    refine congrArg _ (congrArg _ (List.map_congr_left fun t _ => ?_))
    simp [shownSsrc, simulcast]
  · rename_i plain
    refine congrArg _ (congrArg _ (List.map_congr_left fun t _ => ?_))
    simp [shownSsrc, plain]

/-- The loop over the other participants: all of them are drawn, and the SSRCs are those
    that the resulting states offer. -/
theorem expectAll_spec (others : List Ptr) (state : Heap × List UInt32) :
    let next := others.foldl (expectOne room draws) state
    next.2 = state.2 ++ (others.flatMap fun p => offeredSsrcs room.simulcastEnabled (next.1 p)) ∧
      ∀ p, (p ∈ others → next.1 p = drawnFor room (state.1 p) (draws p)) ∧
        (p ∉ others → next.1 p = state.1 p) := by
  induction others generalizing state with
  | nil => simp
  | cons q others ih =>
    rw [List.foldl_cons, expectOne_eq]
    generalize held : mutate state.1 q (fun s => drawnFor room s (draws q)) = heap
    obtain ⟨rest, later⟩ := ih (heap, state.2 ++ offeredSsrcs room.simulcastEnabled
      (drawnFor room (state.1 q) (draws q)))
    have here : heap q = drawnFor room (state.1 q) (draws q) := by
      rw [← held]
      exact mutate_self _ _ _
    have there : ∀ p, p ≠ q → heap p = state.1 p := by
      intro p other
      rw [← held]
      exact mutate_ne _ other
    intro next
    have states : ∀ p, (p ∈ q :: others → next.1 p = drawnFor room (state.1 p) (draws p)) ∧
        (p ∉ q :: others → next.1 p = state.1 p) := by
      intro p
      by_cases same : p = q
      · subst same
        refine ⟨fun _ => ?_, fun apart => absurd List.mem_cons_self apart⟩
        by_cases again : p ∈ others
        · exact ((later p).1 again).trans (by simp only [here, drawnFor_again])
        · exact ((later p).2 again).trans here
      · constructor
        · intro member
          have tail : p ∈ others := (List.mem_cons.mp member).resolve_left same
          exact ((later p).1 tail).trans (by simp only [there p same])
        · intro apart
          have tail : p ∉ others := fun inside => apart (List.mem_cons_of_mem _ inside)
          exact ((later p).2 tail).trans (there p same)
    refine ⟨?_, states⟩
    rw [List.flatMap_cons, (states q).1 List.mem_cons_self, ← List.append_assoc]
    exact rest

end Expected

/-- The SSRCs that a participant should know. -/
def catalogSsrcs (arcs : Ptr → Participant) (room : Room) (heap : Heap)
    (draws : Ptr → NonzeroSsrc) (u : UserId) : List UInt32 :=
  if room.mode = .ptt then [room.audioRewriter.virtualSsrc, room.videoRewriter.virtualSsrc]
  else (collectSubscribeTracks arcs room heap draws u).2.map (·.ssrc)

section Acknowledged
variable {arcs : Ptr → Participant} {room : Room} {u : UserId} (heap : Heap)
  (draws draws' : Ptr → NonzeroSsrc)

/-- After the comparison every virtual SSRC that the room needs is drawn. -/
theorem expected_heap (conference : room.mode ≠ .ptt) : ∀ p ∈ room.otherParticipants u,
    (expectedSsrcs room heap draws u).1 p = drawnFor room (heap p) (draws p) := by
  intro p member
  rw [expectedSsrcs, if_neg conference]
  exact ((expectAll_spec room draws (room.otherParticipants u) (heap, [])).2 p).1 member

/-- The announcement shows the same tracks from every state with the virtual SSRCs drawn. -/
theorem collect_of_drawn (named : Named arcs room) {heap' : Heap}
    (states : ∀ p ∈ room.otherParticipants u, heap' p = drawnFor room (heap p) (draws p)) :
    (collectSubscribeTracks arcs room heap draws u).2 = listing arcs room heap' u := by
  rw [collect_listing heap draws named]
  refine listing_congr fun p member => ?_
  rw [states p member]
  refine offers_congr ?_ fun simulcast t inside video => ?_
  · rw [drawnFor_tracks, collect_tracks heap draws named]
  · rw [visible, collect_tracks heap draws named] at inside
    rw [collect_drawn heap draws named simulcast member inside video, drawnFor, if_pos simulcast]

/-- Another announcement finds all of them drawn. -/
theorem collect_keeps (named : Named arcs room) {heap' : Heap}
    (states : ∀ p ∈ room.otherParticipants u, heap' p = drawnFor room (heap p) (draws p)) :
    ∀ p ∈ room.otherParticipants u,
      (collectSubscribeTracks arcs room heap' draws' u).1 p = drawnFor room (heap p) (draws p) := by
  intro p member
  rcases collect_heap heap' draws' named p with same | ⟨simulcast, _, drawn⟩
  · rw [same, states p member]
  · rw [drawn, states p member, drawnFor, if_pos simulcast, ensure_again]

/-- The expected set, computed apart, is the set that the announcement shows. -/
theorem mem_expectedSsrcs (named : Named arcs room) (x : UInt32) :
    x ∈ (expectedSsrcs room heap draws u).2 ↔ x ∈ catalogSsrcs arcs room heap draws u := by
  unfold expectedSsrcs catalogSsrcs
  split
  · simp
  · obtain ⟨all, states⟩ := expectAll_spec room draws (room.otherParticipants u) (heap, [])
    simp only [List.mem_toFinset]
    rw [all, List.nil_append, ← listing_ssrcs arcs,
      collect_of_drawn heap draws named fun p member => (states p).1 member]

/-- The list sent anew shows the SSRCs that were expected. -/
theorem resyncTracks_ssrcs (named : Named arcs room) :
    (resyncTracks arcs room (expectedSsrcs room heap draws u).1 draws u).2.map (·.ssrc) =
      catalogSsrcs arcs room heap draws u := by
  unfold resyncTracks catalogSsrcs
  split
  · rfl
  · rename_i conference
    have states := @expected_heap room u heap draws conference
    rw [collect_listing _ draws named, collect_of_drawn heap draws named
      (collect_keeps heap draws draws named states)]

/-- The next comparison, on the state that the resync leaves behind, expects the same. -/
theorem catalog_after_resync (named : Named arcs room) :
    catalogSsrcs arcs room
        (resyncTracks arcs room (expectedSsrcs room heap draws u).1 draws u).1 draws' u =
      catalogSsrcs arcs room heap draws u := by
  unfold resyncTracks catalogSsrcs
  split
  · rfl
  · rename_i conference
    have states := @expected_heap room u heap draws conference
    have again := collect_keeps heap draws draws named states
    rw [collect_listing _ draws' named, collect_of_drawn heap draws named
      (collect_keeps heap draws draws' named again)]

end Acknowledged

section Server
variable (hmacSha1 : Bytes → Bytes → Bytes) (crc32 : Bytes → UInt32)

/-- The events of the server and the acknowledgements. -/
inductive AckEvent where
  | server (e : Servers.Event)
  | tracksAck (conn : ConnId) (pid : Nat) (ssrcs : Option (List UInt32))
      (draws : Ptr → NonzeroSsrc)

def step (s : Server) : AckEvent → Server
  | .server e => Servers.step hmacSha1 crc32 s e
  | .tracksAck conn pid ssrcs draws =>
    match s.sessions conn with
    | none => s
    | some session =>
      match session.userId with
      | none => s
      | some userId =>
        let out := handleTracksAck s.hub session pid userId ssrcs draws
        { s with hub := { s.hub with heap := out.heap } }

/-- An acknowledgement draws virtual SSRCs and changes nothing else. -/
theorem handleTracksAck_shows {α : Type} {view : ParticipantState → α}
    (hidden : ∀ s vssrc, view { s with simulcastVideoSsrc := vssrc } = view s) (hub : RoomHub)
    (session : Session) (pid : Nat) (u : UserId) (ssrcs : Option (List UInt32))
    (draws : Ptr → NonzeroSsrc) :
    Shows view hub.heap (handleTracksAck hub session pid u ssrcs draws).heap := by
  have expected : ∀ room, Shows view hub.heap (expectedSsrcs room hub.heap draws u).1 := by
    intro room
    unfold expectedSsrcs
    split
    · exact .refl view hub.heap
    · apply Shows.fold (fun state : Heap × List UInt32 => state.1)
      intro state p
      rw [expectOne_eq]
      apply Shows.mutate
      split
      · exact view_ensure hidden _ _
      · rfl
  have resynced : ∀ room heap, Shows view heap (resyncTracks hub.arcs room heap draws u).1 := by
    intro room heap
    unfold resyncTracks
    split
    · exact .refl view heap
    · exact simulcastReplace_shows room draws hidden heap _
  unfold handleTracksAck
  split
  · exact .refl view hub.heap
  split
  · exact .refl view hub.heap
  split
  · exact .refl view hub.heap
  rename_i room _
  simp only
  split
  · exact expected room
  · exact (expected room).trans (resynced room _)

theorem run_seated (es : List AckEvent) :
    Seating.Seated (run (step hmacSha1 crc32) Server.new es).hub := by
  refine @run_invariant _ _ (step hmacSha1 crc32) (fun s => Seating.Seated s.hub) ?_ Server.new
    Seating.new_seated es
  intro s e seated
  cases e with
  | server e => exact Seating.step_seated hmacSha1 crc32 s e seated
  | tracksAck conn pid ssrcs draws =>
    simp only [step]
    split
    · exact seated
    split
    · exact seated
    · exact seated.of_heap (handleTracksAck_shows (fun _ _ => rfl) s.hub _ pid _ ssrcs draws)

/-- The two outcomes of an acknowledgement in a room that exists. -/
theorem handleTracksAck_cases {hub : RoomHub} {session : Session} {r : RoomId} {room : Room}
    (there : session.currentRoom = some r) (held : hub.rooms.lookup r = some room)
    (named : Named hub.arcs room) (pid : Nat) (u : UserId) (ssrcs : List UInt32)
    (draws : Ptr → NonzeroSsrc) :
    let out := handleTracksAck hub session pid u (some ssrcs) draws
    let same := ∀ x, x ∈ ssrcs ↔ x ∈ catalogSsrcs hub.arcs room hub.heap draws u
    (same ∧ out.reply = .synced opTracksAck pid ∧ out.resync = none) ∨
      (¬ same ∧ out.reply = .resyncSent opTracksAck pid ∧
        ∃ tracks, out.resync = some (opTracksResync, tracks) ∧
          tracks.map (·.ssrc) = catalogSsrcs hub.arcs room hub.heap draws u ∧
          ∀ draws', catalogSsrcs hub.arcs room out.heap draws' u =
            catalogSsrcs hub.arcs room hub.heap draws u) := by
  intro out same
  have agree : ssrcs.toFinset = (expectedSsrcs room hub.heap draws u).2 ↔ same := by
    rw [Finset.ext_iff]
    exact forall_congr' fun x => by rw [List.mem_toFinset, mem_expectedSsrcs hub.heap draws named]
  by_cases match_ : ssrcs.toFinset = (expectedSsrcs room hub.heap draws u).2
  · left
    have shape : out = ⟨(expectedSsrcs room hub.heap draws u).1, .synced opTracksAck pid, none⟩ := by
      simp only [out, handleTracksAck, there, held, match_, if_true]
    rw [shape]
    exact ⟨agree.mp match_, rfl, rfl⟩
  · right
    have shape : out = ⟨(resyncTracks hub.arcs room (expectedSsrcs room hub.heap draws u).1 draws
          u).1, .resyncSent opTracksAck pid, some (opTracksResync, (resyncTracks hub.arcs room
          (expectedSsrcs room hub.heap draws u).1 draws u).2)⟩ := by
      simp only [out, handleTracksAck, there, held, match_, if_false]
    rw [shape]
    exact ⟨fun held => match_ (agree.mpr held), rfl, _, rfl,
      resyncTracks_ssrcs hub.heap draws named,
      fun draws' => catalog_after_resync hub.heap draws draws' named⟩

/-- In every reachable state an acknowledgement is in sync exactly when it names the
    SSRCs of the catalogue, and whoever then acknowledges a resync is in sync. -/
theorem acknowledged_resync_is_synced (es : List AckEvent) (session : Session) (r : RoomId)
    (room : Room) (there : session.currentRoom = some r)
    (held : (run (step hmacSha1 crc32) Server.new es).hub.rooms.lookup r = some room)
    (pid : Nat) (u : UserId) (ssrcs : List UInt32) (draws : Ptr → NonzeroSsrc) :
    let hub := (run (step hmacSha1 crc32) Server.new es).hub
    let out := handleTracksAck hub session pid u (some ssrcs) draws
    (out.reply = .synced opTracksAck pid ↔
        ∀ x, x ∈ ssrcs ↔ x ∈ catalogSsrcs hub.arcs room hub.heap draws u) ∧
      (out.resync = none ↔ out.reply = .synced opTracksAck pid) ∧
      ∀ op tracks, out.resync = some (op, tracks) → ∀ pid' known draws',
        (∀ x, x ∈ known ↔ x ∈ tracks.map (·.ssrc)) →
        let again := handleTracksAck { hub with heap := out.heap } session pid' u (some known) draws'
        again.reply = .synced opTracksAck pid' ∧ again.resync = none := by
  intro hub out
  have named : Named hub.arcs room := seated_named (run_seated hmacSha1 crc32 es) held
  rcases handleTracksAck_cases there held named pid u ssrcs draws with
    ⟨same, reply, quiet⟩ | ⟨other, reply, tracks, sent, listed, later⟩
  · refine ⟨iff_of_true reply same, iff_of_true quiet reply, ?_⟩
    intro op tracks sent
    rw [quiet] at sent
    simp at sent
  · have refused : out.reply ≠ .synced opTracksAck pid := by
      intro synced
      rw [reply] at synced
      simp at synced
    refine ⟨iff_of_false refused other, iff_of_false (by rw [sent]; simp) refused, ?_⟩
    intro op tracks' sent' pid' known draws' answered
    rw [sent, Option.some.injEq, Prod.mk.injEq] at sent'
    obtain ⟨rfl, rfl⟩ := sent'
    have next := @handleTracksAck_cases { hub with heap := out.heap } session r room there held named
      pid' u known draws'
    rcases next with ⟨_, reply', quiet'⟩ | ⟨differs, _⟩
    · exact ⟨reply', quiet'⟩
    · refine absurd (fun x => ?_) differs
      rw [answered, listed, ← later draws']

end Server

/-- A simulcast room in which the first participant has published both layers. -/
def simulcastPair : List AckEvent :=
  (sampleRoom .conference true :: joinAs 0 "a" 1 ++ joinAs 1 "b" 2 ++
    [publishVideo 0 [(11, some "h"), (12, some "l")]]).map .server

def watcher : Session := ⟨some "b", some "room", none, none, 1⟩

theorem empty_acknowledgement_resynced :
    let hub := (run (step sampleHmac fun _ => 0) Server.new simulcastPair).hub
    let out := handleTracksAck hub watcher 7 "b" (some []) (sampleOracle 0).vssrc
    out.resync = some (opTracksResync, [⟨"a", .video, 503, "a_0", some 1011, none⟩]) ∧
      (handleTracksAck { hub with heap := out.heap } watcher 8 "b" (some [503])
        (sampleOracle 0).vssrc).reply = .synced opTracksAck 8 := by
  intro hub out
  have sent : out.resync =
      some (opTracksResync, [⟨"a", .video, 503, "a_0", some 1011, none⟩]) := by decide
  refine ⟨sent, ?_⟩
  obtain ⟨room, held⟩ : ∃ room, hub.rooms.lookup "room" = some room := ⟨_, rfl⟩
  have result := acknowledged_resync_is_synced sampleHmac (fun _ => 0) simulcastPair watcher
    "room" room rfl held 7 "b" [] (sampleOracle 0).vssrc
  exact (result.2.2 _ _ sent 8 [503] (sampleOracle 0).vssrc (by simp)).1

end TracksAck
