import OxlensSfu.PacketOrder
import OxlensSfu.TrackMirror

/-
TRACK_STATE against the mute flags of a publisher. The track list of a join carries no flag,
so that a client knows of them what it is sent, from a state on in which it is right.
-/
namespace MuteMirror
open WireBytes SfuConfig GuardedRun StepRefinement KeyedMap Participants RoomHubs RoomHub Membership
open Signaling RoomHandlers TrackHandlers Seating Catalog LastSeen TrackMirror PacketDispatch
open PacketSteps PacketOrder
open FloorControl (UserId)
open Servers (sampleHmac)

/-- The mute flag of the track with the SSRC; unset if there is none. -/
def flagOf (tracks : List Track) (ssrc : UInt32) : Bool :=
  ((tracks.find? (·.ssrc == ssrc)).map (·.muted)).getD false

/-- What a packet does to the flags that a client keeps of one publisher. -/
def note (publisher : UserId) (flags : UInt32 → Bool) (packet : Packet) : UInt32 → Bool :=
  match packet.d with
  | .trackState u ssrc _ muted => if u = publisher then Function.update flags ssrc muted else flags
  | _ => flags

section Tracks

theorem flagOf_cons (t : Track) (tracks : List Track) (ssrc : UInt32) :
    flagOf (t :: tracks) ssrc = if t.ssrc = ssrc then t.muted else flagOf tracks ssrc := by
  by_cases here : t.ssrc = ssrc
  · simp [flagOf, here]
  · simp [flagOf, here]

theorem flagOf_push (tracks : List Track) {t : Track} (unmuted : t.muted = false) :
    flagOf (tracks ++ [t]) = flagOf tracks := by
  funext ssrc
  induction tracks with
  | nil =>
    rw [List.nil_append, flagOf_cons, unmuted]
    split
    · rfl
    · rfl
  | cons first tracks ih => rw [List.cons_append, flagOf_cons, flagOf_cons, ih]

theorem setTrackMuted_flags {ssrc : UInt32} {muted : Bool} {tracks : List Track} {kind : TrackKind}
    (found : (setTrackMuted ssrc muted tracks).2 = some kind) :
    flagOf (setTrackMuted ssrc muted tracks).1 = Function.update (flagOf tracks) ssrc muted := by
  induction tracks with
  | nil => simp [setTrackMuted] at found
  | cons t tracks ih =>
    funext x
    by_cases here : t.ssrc = ssrc
    · simp only [setTrackMuted, here, if_true, flagOf_cons]
      by_cases same : ssrc = x
      · simp [same]
      · rw [if_neg same, Function.update_of_ne (Ne.symm same), flagOf_cons, here, if_neg same]
    · simp only [setTrackMuted, here, if_false, flagOf_cons] at found ⊢
      rw [ih found]
      by_cases told : x = ssrc
      · rw [told, if_neg here, Function.update_self, Function.update_self]
      · rw [Function.update_of_ne told, Function.update_of_ne told, flagOf_cons]

theorem addTrackFull_flags (s : ParticipantState) (ssrc : UInt32) (kind : TrackKind)
    (trackId : String) (rid : Option String) (group : Option UInt32) (codec : VideoCodec)
    (pt rtxPt : UInt8) :
    flagOf (s.addTrackFull ssrc kind trackId rid group codec pt rtxPt).tracks =
      flagOf s.tracks := by
  by_cases known : s.tracks.any (·.ssrc == ssrc) = true
  · rw [addTrackFull_known known]
  · rw [addTrackFull_fresh known]
    exact flagOf_push s.tracks rfl

/-- Whatever is published anew is unmuted. -/
theorem publishAll_flags (s : ParticipantState) (u : UserId) (req : PublishTracksRequest) :
    flagOf (publishAll s u req).state.tracks = flagOf s.tracks := by
  apply @publishAll_invariant fun pub => flagOf pub.state.tracks = flagOf s.tracks
  · intro pub t same
    unfold publishTrack
    split
    · exact same
    · exact (addTrackFull_flags _ _ _ _ _ _ _ _ _).trans same
  · rfl
  · exact fun id => rfl

end Tracks

/-- No event of the server beneath mutes or unmutes a participant that is there. -/
theorem server_flags (hmacSha1 : Bytes → Bytes → Bytes) (crc32 : Bytes → UInt32)
    {s : Servers.Server} (sound : WellFormed s.hub) {r : RoomId} {u : UserId} {q : Ptr}
    (member : Member s.hub r u q) (e : Servers.Event) :
    flagOf ((Servers.step hmacSha1 crc32 s e).hub.heap q).tracks =
      flagOf (s.hub.heap q).tracks := by
  have tracks : ∀ {h h' : Heap}, Shows account h h' → (h' q).tracks = (h q).tracks := fun same =>
    congrArg (fun a => a.2.1) (same q)
  cases step_accounted hmacSha1 crc32 s e with
  | refreshed same =>
    rw [tracks same]
    cases refreshes s e with
    | none => rfl
    | some refresh =>
      have kept : Shows (·.tracks) s.hub.heap
          (mutate s.hub.heap refresh.1 fun s => s.touch refresh.2) := .mutate rfl
      exact congrArg flagOf (kept q)
  | joined reading here same =>
    have old : q ≠ s.hub.nextPtr := Nat.ne_of_lt (sound.allocated member)
    rw [tracks same, Function.update_of_ne old]
  | published r' u' room p req _ _ _ same =>
    rw [tracks same]
    by_cases here : q = p
    · rw [here, mutate_self]
      exact publishAll_flags _ u' req
    · rw [mutate_ne _ here]

section Pushes
variable {conn : ConnId} {arcs : Ptr → Participant}

theorem pushedTo_append (pushes more : Pushes) :
    pushedTo (pushes ++ more) conn = pushedTo pushes conn ++ pushedTo more conn :=
  List.filterMap_append

/-- A packet for all of them arrives once at the one that has the channel. -/
theorem pushedTo_map {p : Ptr} {ps : List Ptr} (once : ps.Nodup)
    (alone : ∀ q ∈ ps, (arcs q).wsTx = conn ↔ q = p) (packet : Packet) :
    pushedTo (ps.map fun q => ((arcs q).wsTx, packet)) conn = if p ∈ ps then [packet] else [] := by
  induction ps with
  | nil => simp [pushedTo]
  | cons q ps ih =>
    obtain ⟨fresh, rest⟩ := List.nodup_cons.mp once
    have tail := ih rest fun q' member => alone q' (List.mem_cons_of_mem q member)
    rw [pushedTo] at tail
    rw [pushedTo, List.map_cons, List.filterMap_cons]
    by_cases here : q = p
    · subst here
      rw [if_neg fresh] at tail
      simp only [(alone q List.mem_cons_self).mpr rfl, if_true, tail, List.mem_cons_self]
    · have other : (arcs q).wsTx ≠ conn := fun same =>
        here ((alone q List.mem_cons_self).mp same)
      simp only [other, if_false, tail, List.mem_cons, Ne.symm here, false_or]

/-- Nothing in the pushes tells of a mute flag. -/
def Mum (pushes : Pushes) : Prop := ∀ m ∈ pushes, ∀ u flags, note u flags m.2 = flags

theorem mum_nil : Mum [] := fun _ member => absurd member List.not_mem_nil

theorem mum_toOthers (room : Room) (u : UserId) {packet : Packet}
    (mum : ∀ v flags, note v flags packet = flags) : Mum (toOthers arcs room u packet) := by
  intro m member
  obtain ⟨q, _, rfl⟩ := List.mem_map.mp member
  exact mum

theorem mum_outbox (sent : Outbox) : Mum (ofOutbox sent) := by
  intro m member
  obtain ⟨⟨target, event⟩, _, rfl⟩ := List.mem_map.mp member
  cases event <;> exact fun _ _ => rfl

theorem Mum.note {pushes : Pushes} (mum : Mum pushes) (u : UserId) (flags : UInt32 → Bool) :
    (pushedTo pushes conn).foldl (note u) flags = flags := by
  have each : ∀ packet ∈ pushedTo pushes conn, ∀ flags, MuteMirror.note u flags packet = flags := by
    intro packet member
    obtain ⟨m, inside, same⟩ := List.mem_filterMap.mp member
    simp only [Option.ite_none_right_eq_some, Option.some.injEq] at same
    exact same.2 ▸ mum m inside u
  generalize pushedTo pushes conn = packets at each
  induction packets with
  | nil => rfl
  | cons packet packets ih =>
    rw [List.foldl_cons, each packet List.mem_cons_self]
    exact ih fun other member => each other (List.mem_cons_of_mem _ member)

end Pushes

/-- The follower and the publisher are in one room, and nobody else has the channel of the
    follower. -/
structure Watched (c : Follower) (u : UserId) (q : Ptr) (s : WsServer) : Prop where
  member : Member s.hub c.room c.user c.ptr
  channel : (s.hub.arcs c.ptr).wsTx = c.conn
  alone : c.Alone s.hub
  opened : (s.sessions c.conn).isSome
  publisher : Member s.hub c.room u q
  other : u ≠ c.user

section Mirror
variable {c : Follower} {u : UserId} {q : Ptr} {s : WsServer}

/-- A packet for the others of a room arrives where the follower is one of them. -/
theorem Watched.arrives (watched : Watched c u q s) (sound : WellFormed s.hub) {r : RoomId}
    {room : Room} (held : s.hub.rooms.lookup r = some room) (v : UserId) (packet : Packet) :
    pushedTo (toOthers s.hub.arcs room v packet) c.conn =
      if r = c.room ∧ v ≠ c.user then [packet] else [] := by
  have listens : c.Listens s.hub := ⟨sound, watched.member, watched.channel, watched.alone⟩
  have once := otherParticipants_nodup (participants_injective sound held) v
  rw [toOthers, pushedTo_map once fun q member => ?_]
  · congr 1
    rw [eq_iff_iff, mem_otherParticipants]
    constructor
    · intro found
      obtain ⟨w, apart, entry⟩ := found
      obtain ⟨same, user⟩ := sound.once ⟨room, held, entry⟩ watched.member
      rw [user] at apart
      exact ⟨same, apart.symm⟩
    · intro own
      rw [own.1] at held
      exact ⟨c.user, own.2.symm, watched.member.lookup held⟩
  · obtain ⟨w, _, entry⟩ := mem_otherParticipants.mp member
    exact channel_iff listens ⟨room, held, entry⟩

/-- MUTE_UPDATE: the flag is written and told, and whoever else writes one is not the
    publisher. -/
theorem handleMuteUpdate_mirrors (watched : Watched c u q s) (sound : WellFormed s.hub)
    (session : Session) (pid : Nat) (v : UserId) (d : Option MuteUpdateRequest) :
    let out := handleMuteUpdate s.hub session pid v d
    (pushedTo out.pushes c.conn).foldl (note u) (flagOf (s.hub.heap q).tracks) =
      flagOf (out.hub.heap q).tracks := by
  intro out
  simp only [out, handleMuteUpdate]
  split
  · rfl
  rename_i req r room p found
  have held := seat_ok found
  split
  · rfl
  rename_i tracks kind muted
  dsimp only
  have written := @setTrackMuted_flags req.ssrc req.muted (s.hub.heap p).tracks kind (by rw [muted])
  rw [muted] at written
  have suspended : Mum (if req.muted = true ∧ kind = .video then toOthers s.hub.arcs room v
      (.new opVideoSuspended 0 (.videoSuspended v r)) else []) := by
    split
    · exact mum_toOthers room v fun _ _ => rfl
    · exact mum_nil
  rw [pushedTo_append, List.foldl_append, watched.arrives sound held.1, suspended.note]
  by_cases here : p = q
  · -- The publisher itself: it is in one room under one name.
    subst here
    obtain ⟨same, user⟩ := sound.once ⟨room, held.1, held.2⟩ watched.publisher
    subst user
    rw [if_pos ⟨same, watched.other⟩, mutate_self, written]
    simp [note, Packet.new]
  · rw [mutate_ne _ (Ne.symm here)]
    split
    · rename_i own
      have apart : v ≠ u := by
        intro user
        rw [own.1] at held
        have entry := watched.publisher.lookup held.1
        rw [← user, held.2] at entry
        exact here (Option.some.inj entry)
      simp [note, Packet.new, apart]
    · rfl

end Mirror

section Run
variable (hmacSha1 : Bytes → Bytes → Bytes) (crc32 : Bytes → UInt32) {c : Follower} {u : UserId}
  {q : Ptr} {s : WsServer}

/-- What the other packets push tells of no flag, and none is written. -/
theorem dispatch_mirrors (watched : Watched c u q s) (sound : WellFormed s.hub) (session : Session)
    (pid : Nat) {body : Body} (other : ¬ Plain body) (o : Oracle) :
    let out := dispatch s.hub session pid body o
    (pushedTo out.pushes c.conn).foldl (note u) (flagOf (s.hub.heap q).tracks) =
      flagOf (out.hub.heap q).tracks := by
  have quiet : ∀ {out : Handled}, Mum out.pushes → Writes (·.tracks) s.hub session out →
      (pushedTo out.pushes c.conn).foldl (note u) (flagOf (s.hub.heap q).tracks) =
        flagOf (out.hub.heap q).tracks := by
    intro out mum writes
    rw [mum.note]
    exact (congrArg flagOf (writes.hidden q)).symm
  intro out
  cases user : session.userId with
  | none =>
    cases body with
    | plain req => exact absurd ⟨req, rfl⟩ other
    | _ =>
      simp only [out, dispatch, user]
      exact quiet mum_nil (answered_writes s.hub session _)
  | some v =>
    cases body with
    | plain req => exact absurd ⟨req, rfl⟩ other
    | muteUpdate d =>
      simp only [out, dispatch, user]
      exact handleMuteUpdate_mirrors watched sound session pid v d
    | tracksAck ssrcs =>
      simp only [out, dispatch, user]
      refine quiet (fun m member => ?_)
        (handleAck_writes s.hub session pid v (fun _ _ => rfl) ssrcs o.vssrc)
      obtain ⟨_, _, rfl⟩ := List.mem_map.mp member
      exact fun _ _ => rfl
    | cameraReady d =>
      simp only [out, dispatch, user]
      refine quiet ?_ (handleCameraReady_writes s.hub session pid v (fun _ _ => rfl) d)
      unfold handleCameraReady
      split
      · exact mum_nil
      simp only
      split
      · exact mum_nil
      · exact mum_toOthers _ v fun _ _ => rfl
    | message d =>
      simp only [out, dispatch, user]
      refine quiet ?_ (handleMessage_writes s.hub session pid v d o.uuid)
      unfold handleMessage
      split
      · exact mum_nil
      simp only
      split
      · exact mum_toOthers _ v fun _ _ => rfl
      · exact mum_nil
    | roomSync =>
      simp only [out, dispatch, user]
      refine quiet ?_ (handleRoomSync_writes s.hub session pid v (fun _ _ => rfl) o.vssrc)
      unfold handleRoomSync
      split
      · exact mum_nil
      · exact mum_nil
    | telemetry data =>
      simp only [out, dispatch, user]
      exact quiet mum_nil ⟨rfl, rfl, .refl _ s.hub.heap⟩
    | _ =>
      simp only [out, dispatch, user]
      exact quiet mum_nil (answered_writes s.hub session _)

theorem step_mirrors (watched : Watched c u q s) (sound : WellFormed s.hub) (e : Event)
    (stays : Watched c u q (PacketDispatch.step hmacSha1 crc32 s e)) :
    (arrivals hmacSha1 crc32 c.conn s e).foldl (note u) (flagOf (s.hub.heap q).tracks) =
      flagOf ((PacketDispatch.step hmacSha1 crc32 s e).hub.heap q).tracks := by
  rw [arrivals, if_pos stays.opened]
  have beneath : ∀ e' : Servers.Event,
      flagOf ((Servers.step hmacSha1 crc32 s.server e').hub.heap q).tracks =
        flagOf (s.hub.heap q).tracks :=
    server_flags hmacSha1 crc32 (s := s.server) sound watched.publisher
  cases e with
  | background e =>
    exact ((mum_outbox _).note u _).trans (beneath e).symm
  | connect nowMs => exact (beneath .connect).symm
  | text conn nowMs frame =>
    cases opened : s.sessions conn with
    | none => cases frame <;> simp only [pushesOf, PacketDispatch.step, opened] <;> rfl
    | some session =>
      cases frame with
      | request pid body o =>
        simp only [pushesOf, PacketDispatch.step, opened]
        by_cases plain : Plain body
        · obtain ⟨req, rfl⟩ := plain
          have same := beneath (.request conn pid req o)
          simp only [Servers.step, Servers.request, WsServer.server, opened] at same
          exact ((mum_outbox _).note u _).trans same.symm
        · exact dispatch_mirrors watched sound session pid plain o
      | garbage =>
        simp only [pushesOf, PacketDispatch.step, opened]
        rfl
      | response =>
        simp only [pushesOf, PacketDispatch.step, opened]
        rfl
  | other conn nowMs =>
    simp only [pushesOf, PacketDispatch.step]
    split
    · rfl
    · rfl
  | drain conn =>
    simp only [pushesOf, PacketDispatch.step]
    split
    · rfl
    · rfl
  | heartbeatTimer conn nowMs o =>
    simp only [pushesOf, PacketDispatch.step]
    split
    · exact ((mum_outbox _).note u _).trans (beneath (.close conn o)).symm
    · rfl
  | close conn o =>
    simp only [pushesOf, PacketDispatch.step]
    split
    · exact ((mum_outbox _).note u _).trans (beneath (.close conn o)).symm
    · rfl

end Run

section Samples

def viewer : Follower := ⟨1, "room", false, "b", 1⟩

def served (fs : List Event) : WsServer :=
  run (PacketDispatch.step sampleHmac fun _ => 0) .new (published ++ fs)

end Samples
end MuteMirror
