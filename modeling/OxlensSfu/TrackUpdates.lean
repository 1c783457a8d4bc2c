import OxlensSfu.KeyedReplica
import OxlensSfu.TrackLists

/-
TRACKS_UPDATE on the channel of one participant. Publications and departures send it; floor
messages go over the same channels, but tell nothing of tracks.
-/
namespace TrackUpdates
open WireBytes SfuConfig KeyedMap KeyedReplica Participants RoomHubs RoomHub Membership Signaling
open FloorHandlers RoomHandlers TrackHandlers Ingress Servers RoomSteps CatalogFrames
open FloorControl (UserId FloorAction)
open PttRewriter (Instant)

/-- A client keeps its tracks by user and SSRC. -/
def trackKey (t : TrackInfo) : UserId × UInt32 := (t.userId, t.ssrc)

/-- What a pushed packet does to the tracks of a client. -/
def updateOf : WsEvent → Option (Update TrackInfo)
  | .tracksUpdate action tracks =>
    if action = "add" then some (.add tracks)
    else if action = "remove" then some (.remove tracks) else none
  | _ => none

/-- The TRACKS_UPDATE packets among the messages to one channel, in order. -/
def updatesFor (conn : ConnId) (out : Outbox) : List (Update TrackInfo) :=
  out.filterMap fun m => if m.1 = conn then updateOf m.2 else none

/-- Nothing is told of tracks, on any channel. -/
def Untold (out : Outbox) : Prop := ∀ m ∈ out, updateOf m.2 = none

section Channels
variable {conn : ConnId} {arcs : Ptr → Participant} {room : Room} {event : WsEvent}

theorem untold_nil : Untold [] := by simp [Untold]

theorem Untold.append {out more : Outbox} (first : Untold out) (second : Untold more) :
    Untold (out ++ more) := by
  intro m member
  rcases List.mem_append.mp member with before | after
  · exact first m before
  · exact second m after

theorem updatesFor_append (out more : Outbox) :
    updatesFor conn (out ++ more) = updatesFor conn out ++ updatesFor conn more :=
  List.filterMap_append

theorem updatesFor_untold {out : Outbox} (quiet : Untold out) : updatesFor conn out = [] := by
  rw [updatesFor, List.filterMap_eq_nil_iff]
  intro m member
  rw [quiet m member, ite_self]

theorem untold_map (ps : List Ptr) (other : updateOf event = none) :
    Untold (ps.map fun q => ((arcs q).wsTx, event)) := by
  intro m member
  obtain ⟨q, _, rfl⟩ := List.mem_map.mp member
  exact other

theorem untold_room (other : updateOf event = none) : Untold (broadcastToRoom arcs room event) :=
  untold_map _ other

theorem untold_others (u : UserId) (other : updateOf event = none) :
    Untold (broadcastToOthers arcs room u event) := untold_map _ other

/-- A broadcast arrives once at the one receiver that has the channel. -/
theorem updatesFor_map {p : Ptr} {ps : List Ptr} (once : ps.Nodup)
    (alone : ∀ q ∈ ps, (arcs q).wsTx = conn ↔ q = p) (event : WsEvent) :
    updatesFor conn (ps.map fun q => ((arcs q).wsTx, event)) =
      if p ∈ ps then (updateOf event).toList else [] := by
  induction ps with
  | nil => simp [updatesFor]
  | cons q ps ih =>
    obtain ⟨fresh, rest⟩ := List.nodup_cons.mp once
    have tail := ih rest fun q' member => alone q' (List.mem_cons_of_mem q member)
    rw [updatesFor, List.map_cons, List.filterMap_cons]
    by_cases here : q = p
    · subst here
      rw [if_neg fresh] at tail
      rw [if_pos ((alone q List.mem_cons_self).mpr rfl), if_pos List.mem_cons_self]
      rw [updatesFor] at tail
      cases updateOf event with
      | none => exact tail
      | some news => exact congrArg (news :: ·) tail
    · rw [if_neg fun same => here ((alone q List.mem_cons_self).mp same)]
      rw [updatesFor] at tail
      simp only [tail, List.mem_cons, Ne.symm here, false_or]

end Channels

section Floor
variable (arcs : Ptr → Participant) (room : Room) (heap : Heap) (clk : Nat → Instant)
  {run : FloorRun}

theorem fold_untold {S A : Type} (sent : S → Outbox) {f : S → A → S}
    (one : ∀ s a, Untold (sent s) → Untold (sent (f s a))) (as : List A) {s : S}
    (quiet : Untold (sent s)) : Untold (sent (as.foldl f s)) := by
  induction as generalizing s with
  | nil => exact quiet
  | cons a as ih => exact ih (one s a quiet)

theorem sendTo_untold (quiet : Untold run.sent) (u : UserId) {event : WsEvent}
    (other : updateOf event = none) : Untold (sendTo arcs room run u event).sent := by
  unfold sendTo
  split
  · apply quiet.append
    intro m member
    rw [List.mem_singleton.mp member]
    exact other
  · exact quiet

@[simp] theorem onParticipant_sent (u : UserId) (f : ParticipantState → ParticipantState) :
    (onParticipant room run u f).sent = run.sent := by
  unfold onParticipant
  split <;> rfl

@[simp] theorem burstTo_sent (u : UserId) : (burstTo room run u).sent = run.sent :=
  onParticipant_sent room u _

@[simp] theorem sendMbcpTo_sent (u : UserId) (pkt : Bytes) :
    (sendMbcpTo room run u pkt).sent = run.sent := by
  unfold sendMbcpTo
  split <;> rfl

theorem grant_untold (quiet : Untold run.sent) (u : UserId) {announce : Outbox}
    (other : Untold announce) : Untold (grant room clk run u announce).sent := by
  have switched : (burstTo room (switchRewriters clk run u) u).sent = run.sent :=
    burstTo_sent room u
  rw [grant, send, switched]
  exact quiet.append other

theorem floorRequestAction_untold (requester : UserId) (pid : Nat) (state : FloorRun × Reply)
    (action : FloorAction) (quiet : Untold state.1.sent) :
    Untold (floorRequestAction arcs room clk requester pid state action).1.sent := by
  obtain ⟨run, response⟩ := state
  cases action with
  | granted speaker priority durationS =>
    exact grant_untold room clk quiet speaker (untold_others requester rfl)
  | revoked prevSpeaker cause =>
    apply sendTo_untold arcs room _ prevSpeaker rfl
    rw [onParticipant_sent]
    exact quiet
  | _ => exact quiet

theorem applyFloorAction_untold (op : UInt16) (pid : Nat) (requester : UserId)
    (state : FloorRun × Reply) (action : FloorAction) (quiet : Untold state.1.sent) :
    Untold (applyFloorAction arcs room clk op pid requester state action).1.sent := by
  obtain ⟨run, response⟩ := state
  cases action with
  | granted speaker priority durationS =>
    have taken : Untold (grant room clk run speaker
        (broadcastToRoom arcs room (.floorTaken room.id speaker priority))).sent :=
      grant_untold room clk quiet speaker (untold_room rfl)
    simp only [applyFloorAction]
    split
    · exact sendTo_untold arcs room taken speaker rfl
    · exact taken
  | released prevSpeaker => exact quiet.append (untold_room rfl)
  | revoked prevSpeaker cause =>
    refine Untold.append ?_ (untold_room rfl)
    apply sendTo_untold arcs room _ prevSpeaker rfl
    rw [onParticipant_sent]
    exact quiet
  | _ => exact quiet

theorem applyFloorActions_untold (op : UInt16) (pid : Nat) (requester : UserId)
    (actions : List FloorAction) (quiet : Untold run.sent) :
    Untold (applyFloorActions arcs room clk op pid requester run actions).1.sent :=
  fold_untold (fun state : FloorRun × Reply => state.1.sent)
    (applyFloorAction_untold arcs room clk op pid requester) actions quiet

theorem applyMbcpFloorAction_untold (requester : Ptr) (run : FloorRun) (action : FloorAction)
    (quiet : Untold run.sent) :
    Untold (applyMbcpFloorAction arcs room clk requester run action).sent := by
  cases action with
  | granted speaker priority durationS =>
    have switched : (burstTo room (switchRewriters clk run speaker) speaker).sent = run.sent :=
      burstTo_sent room speaker
    simp only [applyMbcpFloorAction, send, broadcastMbcp, switched]
    exact quiet.append (untold_room rfl)
  | released prevSpeaker => exact quiet.append (untold_room rfl)
  | revoked prevSpeaker cause =>
    simp only [applyMbcpFloorAction, send, broadcastMbcp, clearRewriters, sendMbcpTo_sent,
      onParticipant_sent]
    exact quiet.append (untold_room rfl)
  | _ => exact quiet

theorem timerAction_untold (run : FloorRun) (action : FloorAction) (quiet : Untold run.sent) :
    Untold (timerAction arcs room clk run action).sent := by
  cases action with
  | granted speaker priority durationS =>
    refine Untold.append ?_ (untold_room rfl)
    apply sendTo_untold arcs room _ speaker rfl
    rw [burstTo_sent]
    exact quiet
  | revoked prevSpeaker cause =>
    refine Untold.append ?_ (untold_room rfl)
    apply sendTo_untold arcs room _ prevSpeaker rfl
    simp only [clearRewriters, onParticipant_sent]
    exact quiet
  | _ => exact quiet

/-- A flush sends no message on the channels. -/
theorem flushReleased_sent {flush : FloorRun → FloorRun} (one : ∀ run, (flush run).sent = run.sent)
    (actions : List FloorAction) : (flushReleased flush run actions).sent = run.sent := by
  induction actions generalizing run with
  | nil => rfl
  | cons action actions ih =>
    rw [flushReleased, List.foldl_cons]
    refine ih.trans ?_
    cases action with
    | released prevSpeaker => exact one run
    | _ => rfl

theorem handleFloorRequest_untold (u : UserId) (pid : Nat) (priority : Option UInt8) (now : Nat) :
    Untold (handleFloorRequest arcs room heap clk u pid priority now).1.sent :=
  fold_untold (fun state : FloorRun × Reply => state.1.sent)
    (floorRequestAction_untold arcs room clk u pid) _ untold_nil

theorem handleFloorRelease_untold (u : UserId) (pid : Nat) (grantMs : Nat) :
    Untold (handleFloorRelease arcs room heap clk u pid grantMs).1.sent := by
  apply applyFloorActions_untold
  rw [@flushReleased_sent _ (flushPttSilence room clk) fun _ => rfl]
  exact untold_nil

theorem handleMbcp_untold (sender : Ptr) (subtype : UInt8) (now grantMs : Nat) :
    Untold (handleMbcp arcs room heap clk sender subtype now grantMs).sent := by
  simp only [handleMbcp]
  split
  · exact fold_untold FloorRun.sent (applyMbcpFloorAction_untold arcs room clk sender) _ untold_nil
  split
  · apply fold_untold FloorRun.sent (applyMbcpFloorAction_untold arcs room clk sender)
    rw [@flushReleased_sent _ (clearRewriters clk) fun _ => rfl]
    exact untold_nil
  split <;> exact untold_nil

theorem floorTimerTick_untold (now grantMs : Nat) :
    Untold (floorTimerTick arcs room heap clk now grantMs).sent :=
  fold_untold FloorRun.sent (timerAction_untold arcs room clk) _ untold_nil

theorem floorLeave_untold (u : UserId) (grantMs : Nat) :
    Untold (floorLeave arcs room heap clk u grantMs).sent := by
  simp only [floorLeave]
  split
  · exact untold_nil
  · exact applyFloorActions_untold arcs room clk _ _ _ _ untold_nil

end Floor
end TrackUpdates
