import OxlensSfu.VirtualSsrcs

/-
The track list of a participant over the events of the server: it starts out empty, and
only the participant's own publications add to it. Its virtual SSRC is drawn once.
-/
namespace TrackLists
open WireBytes KeyedMap Participants RoomHubs RoomHub Membership Signaling RoomHandlers TrackHandlers
open Ingress Servers Seating GuardedRun Catalog LayerFrames CatalogFrames VirtualSsrcs
open FloorControl (UserId)

/-- No two tracks of a participant have one SSRC. -/
def Distinct (tracks : List Track) : Prop := (tracks.map (·.ssrc)).Nodup

theorem Distinct.unique {tracks : List Track} (distinct : Distinct tracks) {t t' : Track}
    (here : t ∈ tracks) (there : t' ∈ tracks) (same : t.ssrc = t'.ssrc) : t = t' :=
  List.inj_on_of_nodup_map distinct here there same

/-- The lookup by SSRC finds the one track that has it. -/
theorem Distinct.findTrack {s : ParticipantState} (distinct : Distinct s.tracks) {t : Track}
    (here : t ∈ s.tracks) : s.findTrack t.ssrc = some t := by
  cases found : s.findTrack t.ssrc with
  | none =>
    have absent := List.find?_eq_none.mp found t here
    simp at absent
  | some t' =>
    have same : t'.ssrc = t.ssrc := by simpa using List.find?_some found
    rw [distinct.unique (List.mem_of_find?_eq_some found) here same]

theorem publishTrack_distinct (u : UserId) {pub : Publishing} (distinct : Distinct pub.state.tracks)
    (t : PublishTrackItem) : Distinct (publishTrack u pub t).state.tracks := by
  rcases publishTrack_cases u pub t with
    ⟨_, same⟩ | ⟨_, state, _⟩ | ⟨unknown, track, added, ssrc, _⟩
  · rw [same]
    exact distinct
  · rw [state]
    exact distinct
  · rw [added, Distinct, List.map_append, List.map_singleton]
    refine distinct.append (List.nodup_singleton _) ?_
    intro x old new
    obtain ⟨other, member, same⟩ := List.mem_map.mp old
    rw [List.mem_singleton, ssrc] at new
    have known : pub.state.tracks.any (·.ssrc == t.ssrc) = true :=
      List.any_eq_true.mpr ⟨other, member, by simp [same, new]⟩
    rw [unknown] at known
    simp at known

theorem publishAll_distinct (u : UserId) {s : ParticipantState} (distinct : Distinct s.tracks)
    (req : PublishTracksRequest) : Distinct (publishAll s u req).state.tracks := by
  apply @publishAll_invariant fun pub => Distinct pub.state.tracks
  · exact fun pub t kept => publishTrack_distinct u kept t
  · exact distinct
  · exact fun id => distinct

/-- The tracks are the same, and a virtual SSRC that was drawn is too. -/
structure Settled (h h' : Heap) : Prop where
  tracks : ∀ q, (h' q).tracks = (h q).tracks
  vssrc : ∀ q, (h q).simulcastVideoSsrc ≠ 0 → (h' q).simulcastVideoSsrc = (h q).simulcastVideoSsrc

namespace Settled
variable {h h' h'' : Heap}

theorem refl (h : Heap) : Settled h h := ⟨fun _ => rfl, fun _ _ => rfl⟩

theorem trans (first : Settled h h') (second : Settled h' h'') : Settled h h'' := by
  constructor
  · intro q
    exact (second.tracks q).trans (first.tracks q)
  · intro q drawn
    have kept := first.vssrc q drawn
    exact (second.vssrc q (by rw [kept]; exact drawn)).trans kept

theorem of_faded (faded : AllFaded h h') : Settled h h' :=
  ⟨fun q => (faded q).tracks, fun q _ => (faded q).vssrc⟩

/-- A draw, and then what shows neither tracks nor virtual SSRCs. -/
theorem drawing {p : Ptr} (draw : NonzeroSsrc)
    (tracks : Shows (·.tracks) (mutate h p fun s => (s.ensureSimulcastVideoSsrc draw).1) h')
    (vssrc : ∀ q, (h' q).simulcastVideoSsrc =
      (mutate h p (fun s => (s.ensureSimulcastVideoSsrc draw).1) q).simulcastVideoSsrc) :
    Settled h h' := by
  constructor
  · intro q
    exact (tracks q).trans (Shows.mutate (ensure_tracks _ _) q)
  · intro q drawn
    exact (vssrc q).trans (drawn_stays h q p draw drawn)

end Settled

section Steps
variable {hub : RoomHub}

theorem handleSrtp_settled (remote : SocketAddr) (buf : Bytes) (o : Oracle) :
    Settled hub.heap (handleSrtp hub remote buf o).hub.heap := by
  rcases handleSrtp_cases hub remote buf o with
    dropped | ⟨sender, touched⟩ | ⟨sender, r, room, _, _, _, relayed⟩
  · rw [dropped]
    exact .refl hub.heap
  · rw [touched]
    exact .of_faded (touch_faded hub sender o.nowMs)
  · rw [relayed]
    refine (Settled.of_faded (touch_faded hub sender o.nowMs)).trans ?_
    rcases relayRtp_catalog (hub.touch sender o.nowMs) r room sender buf o with
      quiet | ⟨h, hdr, out, draw, clk, noted, _, fanned⟩
    · exact .of_faded (.of_shows quiet)
    · rw [fanned]
      refine (Settled.of_faded (.of_shows noted)).trans ?_
      cases tagged : sourceRid (h sender) hdr.ssrc with
      | none =>
        rw [fanoutSimulcast_untagged _ _ _ _ _ _ _ _ tagged]
        exact .refl h
      | some rid =>
        exact .drawing draw (fanoutSimulcast_shows _ _ _ _ _ _ _ _ tracks_blind tagged)
          (fanoutSimulcast_vssrc _ _ _ _ _ _ _ _ tagged)

theorem subscribeTarget_settled (room : Room) (subscriber : Ptr) (draws : Ptr → NonzeroSsrc)
    (now : PttRewriter.Instant) (heap : Heap) (target : SubscribeLayerTarget) :
    Settled heap (subscribeTarget room subscriber draws now heap target) := by
  cases found : room.getParticipant target.userId with
  | none =>
    rw [subscribeTarget_absent _ _ _ _ _ _ found]
    exact .refl heap
  | some publisher =>
    exact .drawing (draws publisher) (subscribeTarget_shows _ _ _ _ _ _ tracks_blind found)
      (subscribeTarget_vssrc _ _ _ _ _ _ found)

theorem handleSubscribeLayer_settled (session : Session) (pid : Nat) (u : UserId)
    (targets : Option (List SubscribeLayerTarget)) (draws : Ptr → NonzeroSsrc)
    (now : PttRewriter.Instant) :
    Settled hub.heap (handleSubscribeLayer hub session pid u targets draws now).heap := by
  apply handleSubscribeLayer_invariant
  · intro r room subscriber heap target _ _ kept
    exact kept.trans (subscribeTarget_settled room subscriber draws now heap target)
  · exact .refl hub.heap

variable (hmacSha1 : Bytes → Bytes → Bytes) (crc32 : Bytes → UInt32)

/-- What an event does to the track list of a participant. -/
theorem step_tracks (s : Server) (e : Event) (seated : Seated s.hub) (q : Ptr) :
    ((Servers.step hmacSha1 crc32 s e).hub.heap q).tracks = (s.hub.heap q).tracks ∨
      ((Servers.step hmacSha1 crc32 s e).hub.heap q).tracks = [] ∨
      ∃ u req, ((Servers.step hmacSha1 crc32 s e).hub.heap q).tracks =
        (publishAll (s.hub.heap q) u req).state.tracks := by
  by_cases tells : Tells e
  · cases e with
    | request conn pid req o =>
      simp only [Servers.step, Servers.request]
      split
      · exact .inl rfl
      rename_i session _
      cases user : session.userId with
      | none => cases req <;> first | exact tells.elim | exact .inl (by simp only [dispatch, user])
      | some u =>
        cases req with
        | roomJoin roomId =>
          simp only [dispatch, user]
          rcases handleRoomJoin_joins seated session pid u roomId o with same | ⟨_, _, joins⟩
          · rw [same]
            exact .inl rfl
          · by_cases new : q = s.hub.nextPtr
            · rw [new]
              exact .inr (.inl joins.empty.1)
            · exact .inl (joins.tracks new)
        | publishTracks d =>
          simp only [dispatch, user]
          unfold handlePublishTracks
          split
          · exact .inl rfl
          split
          · exact .inl rfl
          · rename_i req _ room p placed
            obtain ⟨r, _, held, seat⟩ := inRoom_ok placed
            by_cases own : q = p
            · subst own
              exact .inr (.inr ⟨u, req, published_tracks req o.vssrc⟩)
            · exact .inl (congrArg _ (publishedHeap_other req o.vssrc seat own))
        | subscribeLayer targets =>
          simp only [dispatch, user]
          exact .inl ((handleSubscribeLayer_settled session pid u targets o.vssrc _).tracks q)
        | _ => exact tells.elim
    | rtp remote buf o => exact .inl ((handleSrtp_settled remote buf o).tracks q)
    | _ => exact tells.elim
  · exact .inl (step_faded hmacSha1 crc32 s e tells q).tracks

theorem run_distinct (es : List Event) (p : Ptr) :
    Distinct ((run (Servers.step hmacSha1 crc32) Server.new es).hub.heap p).tracks := by
  have both := @run_invariant _ _ (Servers.step hmacSha1 crc32)
    (fun s => Seated s.hub ∧ ∀ p, Distinct (s.hub.heap p).tracks) ?_ Server.new
    ⟨new_seated, fun p => ?_⟩ es
  · exact both.2 p
  · intro s e good
    refine ⟨step_seated hmacSha1 crc32 s e good.1, fun q => ?_⟩
    rcases step_tracks hmacSha1 crc32 s e good.1 q with same | empty | ⟨u, req, published⟩
    · rw [same]
      exact good.2 q
    · rw [empty]
      exact List.nodup_nil
    · rw [published]
      exact publishAll_distinct u (good.2 q) req
  · exact List.nodup_nil

end Steps
end TrackLists
