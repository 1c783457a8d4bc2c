import OxlensSfu.Seating
import OxlensSfu.EgressNumbers

/-
The audio numbers that one subscriber of a PTT room gets, over the ways a burst can end.
A clear takes three numbers for silence frames; the handlers on the WS side send them, the
floor timer and the MBCP release do not.
-/
namespace BurstContinuity
open WireBytes SfuConfig RtpPacket RtxPacket FloorControl PttRewriter KeyedMap Participants
open RoomHubs RoomHub Signaling FloorHandlers RoomHandlers TrackHandlers Ingress Servers
open Membership SpeakerAgreement MediaFrames Deliveries RoomSteps Seating RewriterTurns
open EgressNumbers Counting GuardedRun

/-- From `b` to `a` the wheel turns by the numbers. -/
structure Advances (b a : Rewriter) (numbers : List UInt16) : Prop where
  ssrc : a.virtualSsrc = b.virtualSsrc
  counts : Counts nextNumber b.state.lastVirtualSeq numbers a.state.lastVirtualSeq

namespace Advances
variable {a b : Rewriter}

theorem refl (r : Rewriter) : Advances r r [] := ⟨rfl, .nil _⟩

theorem of_same (same : a = b) : Advances b a [] := by
  subst same
  exact .refl a

theorem trans {c : Rewriter} {ns ms : List UInt16} (first : Advances b a ns)
    (second : Advances a c ms) : Advances b c (ns ++ ms) where
  ssrc := second.ssrc.trans first.ssrc
  counts := first.counts.append second.counts

theorem of_turned (turned : Turned b a 0) : Advances b a [] := by
  refine ⟨turned.ssrc, ?_⟩
  rw [turned.last]
  exact counts_range _ 0

/-- A clear advances by its silence frames. -/
theorem of_clear (turned : Turned b a (silenceOf b).length) :
    Advances b a (silenceNumbers b) := by
  refine ⟨turned.ssrc, ?_⟩
  rw [turned.last]
  exact silence_counts b

end Advances

section Departure
variable {hub : RoomHub} {r : RoomId} {room after : Room} {q : Ptr} (sound : WellFormed hub)
  (held : hub.rooms.lookup r = some room) (ptt : room.mode = .ptt) (inside : q ∈ subscribers room)

include sound held ptt inside

/-- A departure by WS: the numbers of the silence frames go to the participants. -/
theorem departure_advances {r' : RoomId} {u : UserId} {o : Oracle}
    (found : (departOrStay hub r' u o).1.rooms.lookup r = some after) :
    Advances room.audioRewriter after.audioRewriter
      (mediaNumbers room.audioRewriter.virtualSsrc q (departureSilence hub r' u)) := by
  by_cases here : r' = r
  · subst here
    have left : ∃ heap, after = { room with toPttState :=
        (floorLeave hub.arcs room heap o.clk u o.grantMs).ptt } := by
      simp only [departOrStay, held, departFloor, if_pos ptt, withPtt, lookup_modify_self,
        Option.map_some, Option.some.injEq] at found
      exact ⟨_, found.symm⟩
    obtain ⟨heap, left⟩ := left
    rw [left]
    simp only [departureSilence, held, ptt, true_and]
    have turned := floorLeave_turned hub.arcs room heap o.clk u o.grantMs
    by_cases speaks : currentSpeaker room.floor = some u
    · simp only [if_pos speaks] at turned ⊢
      rw [silence_numbers _ (count_subscribers sound held inside)]
      exact .of_clear turned
    · simp only [if_neg speaks] at turned ⊢
      exact .of_turned turned
  · have elsewhere : Changes (fun at_ _ _ => at_ = r') False hub (departOrStay hub r' u o).1 :=
      departOrStay_changes hub r' u o fun _ _ _ => rfl
    obtain ⟨before, held', _, _, same | work, _⟩ := elsewhere r after found
    · rw [held, Option.some.injEq] at held'
      subst held'
      have silent : mediaNumbers room.audioRewriter.virtualSsrc q (departureSilence hub r' u) = [] := by
        unfold departureSilence
        split
        · rename_i room' there
          have outside := not_mem_subscribers sound held inside there here
          split
          · exact silence_numbers_outside _ outside
          · rfl
        · rfl
      rw [silent]
      exact .of_same (congrArg PttState.audioRewriter same)
    · exact absurd work.symm here

theorem release_advances {session : Session} {pid : Nat} {u : UserId} {roomId : Option RoomId}
    {o : Oracle} (found : (onFloor hub session (pttRoom hub opFloorRelease pid roomId) fun room =>
      handleFloorRelease hub.arcs room hub.heap o.clk u pid o.grantMs).hub.rooms.lookup r =
        some after) :
    Advances room.audioRewriter after.audioRewriter
      (mediaNumbers room.audioRewriter.virtualSsrc q (releaseSilence hub u roomId)) := by
  by_cases here : roomId = some r
  · subst here
    have left : after = { room with toPttState :=
        (handleFloorRelease hub.arcs room hub.heap o.clk u pid o.grantMs).1.ptt } := by
      simp only [pttRoom, floorRoom, held, if_pos ptt, onFloor, withPtt, lookup_modify_self,
        Option.map_some, Option.some.injEq] at found
      exact found.symm
    rw [left]
    simp only [releaseSilence, Option.bind_some, held, ptt, true_and]
    have turned := handleFloorRelease_turned hub.arcs room hub.heap o.clk u pid o.grantMs
    by_cases ends : Released room.floor u
    · simp only [if_pos ends] at turned ⊢
      rw [silence_numbers _ (count_subscribers sound held inside)]
      exact .of_clear turned
    · simp only [if_neg ends] at turned ⊢
      exact .of_turned turned
  · have elsewhere : Changes (fun at_ _ _ => roomId = some at_) False hub (onFloor hub session
        (pttRoom hub opFloorRelease pid roomId) fun room =>
          handleFloorRelease hub.arcs room hub.heap o.clk u pid o.grantMs).hub :=
      onFloor_changes hub session (fun _ _ => pttRoom_registered) fun _ _ there =>
        (pttRoom_named there).1
    obtain ⟨before, held', _, _, same | work, _⟩ := elsewhere r after found
    · rw [held, Option.some.injEq] at held'
      subst held'
      have silent : mediaNumbers room.audioRewriter.virtualSsrc q (releaseSilence hub u roomId) = [] := by
        unfold releaseSilence
        cases roomId with
        | none => rfl
        | some r' =>
          simp only [Option.bind_some]
          split
          · rename_i room' there
            have outside := not_mem_subscribers sound held inside there fun same => here (by rw [same])
            split
            · exact silence_numbers_outside _ outside
            · rfl
          · rfl
      rw [silent]
      exact .of_same (congrArg PttState.audioRewriter same)
    · exact absurd work here

end Departure

/-- The holder's audio comes in order and without loss, and not from `q` itself; and no
    packet of another stream is on the audio SSRC. -/
def Relayed (room : Room) (q sender : Ptr) (senderId : UserId) (hdr : RtpHeader) (p : Bytes) : Prop :=
  currentSpeaker room.floor = some senderId →
    if isAudioPt hdr.pt ∧ Admits room.audioRewriter p senderId false then
      sender ≠ q ∧ (room.audioRewriter.state.awaitingFirstPacket = true ∨
        u16At p 2 = reverseSeq room.audioRewriter room.audioRewriter.state.lastVirtualSeq + 1)
    else sender = q ∨ (¬ Carries room.audioRewriter.virtualSsrc p ∧
      (isVideoPt hdr.pt → room.videoRewriter.virtualSsrc ≠ room.audioRewriter.virtualSsrc))

instance (room : Room) (q sender : Ptr) (senderId : UserId) (hdr : RtpHeader) (p : Bytes) :
    Decidable (Relayed room q sender senderId hdr p) := by
  unfold Relayed
  infer_instance

/-- The condition on one event: once the wheel has been used, the floor timer revokes nobody
    and MBCP releases no burst; and nothing but the holder's audio uses the audio SSRC. -/
def KeepsCount (q : Ptr) (s : Server) (r : RoomId) (room : Room) : Event → Prop
  | .floorTimer r' o => r' = r → Expired room.floor o.nowMs → silenceOf room.audioRewriter = []
  | .mbcp remote subtype _ _ =>
    match s.hub.findByAddr remote with
    | some (sender, pc, r') => r' = r → mediaReady (s.hub.heap sender) pc = true →
        subtype = mbcpSubtypeFrel → Released room.floor (s.hub.arcs sender).userId →
          silenceOf room.audioRewriter = []
    | none => True
  | .rtp remote buf _ =>
    match s.hub.findByAddr remote with
    | some (sender, .publish, r') => r' = r → (s.hub.heap sender).isPublishReady = true →
        isRtcp buf = false → Relayed room q sender (s.hub.arcs sender).userId
          (normalizePt (s.hub.heap sender).tracks buf).2
          (normalizePt (s.hub.heap sender).tracks buf).1
    | _ => True
  | .nack remote .. =>
    match s.hub.findByAddr remote with
    | some (subscriber, _, _) => subscriber = q → ∀ p ∈ subscribers room,
        ∀ t ∈ (s.hub.heap p).tracks, t.rtxSsrc ≠ some room.audioRewriter.virtualSsrc
    | none => True
  | _ => True

instance (q : Ptr) (s : Server) (r : RoomId) (room : Room) (e : Event) :
    Decidable (KeepsCount q s r room e) := by
  cases e with
  | floorTimer r' o => exact inferInstanceAs (Decidable (_ → _ → _))
  | mbcp remote subtype touchMs o =>
    dsimp only [KeepsCount]
    split <;> infer_instance
  | rtp remote buf o =>
    dsimp only [KeepsCount]
    split <;> infer_instance
  | nack remote block touchMs nowMs visit =>
    dsimp only [KeepsCount]
    split <;> infer_instance
  | _ => exact isTrue trivial

section Ordinary
variable {s : Server} {e : Event} {r : RoomId} {room after : Room} {q : Ptr}
  (held : s.hub.rooms.lookup r = some room)

/-- Where the handler clears, the condition makes the clear take no number. -/
theorem work_turned {ptt : PttState} (work : FloorWork s e r room ptt)
    (kept : KeepsCount q s r room e) (ordinary : ¬ OwnWay e) (departs : ∀ conn o, e ≠ .close conn o)
    (leaves : ∀ conn pid roomId o, e ≠ .request conn pid (.roomLeave roomId) o)
    (releases : ∀ conn pid roomId o, e ≠ .request conn pid (.floorRelease roomId) o) :
    Turned room.audioRewriter ptt.audioRewriter 0 := by
  cases work with
  | request => exact handleFloorRequest_turned _ _ _ _ _ _ _ _
  | release => exact absurd rfl (releases _ _ _ _)
  | ping => exact .refl _
  | leave => exact absurd rfl (leaves _ _ _ _)
  | close => exact absurd rfl (departs _ _)
  | @timer _ o _ =>
    have turned := floorTimerTick_turned s.hub.arcs room s.hub.heap o.clk o.nowMs o.grantMs
    by_cases expired : Expired room.floor o.nowMs
    · rw [if_pos expired, kept rfl expired] at turned
      exact turned
    · rw [if_neg expired] at turned
      exact turned
  | @mbcp remote subtype touchMs sender pc _ o _ heap found ready =>
    have turned := handleMbcp_turned s.hub.arcs room heap o.clk sender subtype o.nowMs o.grantMs
    simp only [KeepsCount, found] at kept
    by_cases ends : subtype = mbcpSubtypeFrel ∧ Released room.floor (s.hub.arcs sender).userId
    · rw [if_pos ends, kept trivial ready ends.1 ends.2] at turned
      exact turned
    · rw [if_neg ends] at turned
      exact turned
  | relay => exact absurd trivial ordinary

variable (hmacSha1 : Bytes → Bytes → Bytes) (crc32 : Bytes → UInt32) (sound : WellFormed s.hub)
  (ptt : room.mode = .ptt) (inside : q ∈ subscribers room)

include held

theorem unchanged_advances (same : s.hub.rooms.lookup r = some after) :
    Advances room.audioRewriter after.audioRewriter [] := by
  rw [held, Option.some.injEq] at same
  subst same
  exact .refl room.audioRewriter

/-- A request turns the wheel as it does for an identified session. -/
theorem request_advances {conn : ConnId} {pid : Nat} {req : Request} {o : Oracle}
    (refused : ∀ session : Session, session.userId = none →
      (dispatch s.hub session pid req o).hub = s.hub ∧ requestMedia s.hub session req = [])
    (speaks : ∀ session u, session.userId = some u →
      (dispatch s.hub session pid req o).hub.rooms.lookup r = some after →
        Advances room.audioRewriter after.audioRewriter
          (mediaNumbers room.audioRewriter.virtualSsrc q (requestMedia s.hub session req)))
    (found : (Servers.request s conn pid req o).hub.rooms.lookup r = some after) :
    Advances room.audioRewriter after.audioRewriter
      (mediaNumbers room.audioRewriter.virtualSsrc q (eventMedia s (.request conn pid req o))) := by
  simp only [Servers.request, eventMedia] at found ⊢
  cases here : s.sessions conn with
  | none =>
    simp only [here] at found ⊢
    exact unchanged_advances held found
  | some session =>
    simp only [here] at found ⊢
    cases user : session.userId with
    | none =>
      obtain ⟨same, silent⟩ := refused session user
      rw [same] at found
      rw [silent]
      exact unchanged_advances held found
    | some u => exact speaks session u user found

theorem quiet_advances (kept : KeepsCount q s r room e) (ordinary : ¬ OwnWay e)
    (departs : ∀ conn o, e ≠ .close conn o)
    (leaves : ∀ conn pid roomId o, e ≠ .request conn pid (.roomLeave roomId) o)
    (releases : ∀ conn pid roomId o, e ≠ .request conn pid (.floorRelease roomId) o)
    (found : (Servers.step hmacSha1 crc32 s e).hub.rooms.lookup r = some after)
    (stays : q ∈ subscribers after) :
    Advances room.audioRewriter after.audioRewriter [] := by
  rcases step_changes hmacSha1 crc32 s e with changes | creates
  · obtain ⟨before, held', _, _, same | work, _⟩ := changes r after found
    all_goals
      rw [held, Option.some.injEq] at held'
      subst held'
    · exact .of_same (congrArg PttState.audioRewriter same)
    · exact .of_turned (work_turned work kept ordinary departs leaves releases)
  · obtain ⟨id, name, capacity, mode, createdAt, simulcast, a, v, shape⟩ := creates
    rw [shape] at found
    rcases create_found found with rfl | ⟨_, same⟩
    · simp [subscribers, values, Room.new] at stays
    · exact unchanged_advances held same

include sound ptt inside

/-- What comes after a departure does no floor work. -/
theorem rest_advances {r' : RoomId} {u : UserId} {o : Oracle} {next : RoomHub}
    (rest : Changes noWork True (departOrStay s.hub r' u o).1 next)
    (found : next.rooms.lookup r = some after) :
    Advances room.audioRewriter after.audioRewriter (mediaNumbers room.audioRewriter.virtualSsrc q
      (departureSilence s.hub r' u)) := by
  obtain ⟨mid, there, _, _, same | never, _⟩ := rest r after found
  · have advances := departure_advances sound held ptt inside there
    rw [same]
    exact advances
  · exact never.elim

theorem leave_advances {conn : ConnId} {pid : Nat} {roomId : Option RoomId} {o : Oracle}
    (found : (Servers.request s conn pid (.roomLeave roomId) o).hub.rooms.lookup r = some after) :
    Advances room.audioRewriter after.audioRewriter (mediaNumbers room.audioRewriter.virtualSsrc q
      (eventMedia s (.request conn pid (.roomLeave roomId) o))) := by
  refine request_advances held (fun session user => ⟨by simp only [dispatch, user], by
    simp only [requestMedia, user]⟩) (fun session u user => ?_) found
  cases roomId with
  | none =>
    simp only [dispatch, user, requestMedia, handleRoomLeave]
    exact unchanged_advances held
  | some r' =>
    simp only [dispatch, user, requestMedia]
    have rest : Changes noWork True (departOrStay s.hub r' u o).1 _ :=
      handleRoomLeave_rest s.hub r' u o session pid trivial
    exact rest_advances held sound ptt inside rest

theorem close_advances {conn : ConnId} {o : Oracle}
    (found : (Servers.close s conn o).hub.rooms.lookup r = some after) :
    Advances room.audioRewriter after.audioRewriter
      (mediaNumbers room.audioRewriter.virtualSsrc q (eventMedia s (.close conn o))) := by
  simp only [Servers.close, eventMedia] at found ⊢
  cases here : s.sessions conn with
  | none =>
    simp only [here] at found ⊢
    exact unchanged_advances held found
  | some session =>
    simp only [here] at found ⊢
    cases at_ : session.currentRoom with
    | none =>
      simp only [cleanup, at_, push] at found ⊢
      exact unchanged_advances held found
    | some r' =>
      cases user : session.userId with
      | none =>
        simp only [cleanup, at_, user, push] at found ⊢
        exact unchanged_advances held found
      | some u =>
        have rest : Changes noWork True (departOrStay s.hub r' u o).1 (cleanup s.hub session o).1 :=
          cleanup_rest s.hub r' u o at_ user trivial
        exact rest_advances held sound ptt inside rest found

theorem floorRelease_advances {conn : ConnId} {pid : Nat} {roomId : Option RoomId} {o : Oracle}
    (found : (Servers.request s conn pid (.floorRelease roomId) o).hub.rooms.lookup r = some after) :
    Advances room.audioRewriter after.audioRewriter (mediaNumbers room.audioRewriter.virtualSsrc q
      (eventMedia s (.request conn pid (.floorRelease roomId) o))) := by
  refine request_advances held (fun session user => ⟨by simp only [dispatch, user], by
    simp only [requestMedia, user]⟩) (fun session u user => ?_) found
  simp only [dispatch, user, requestMedia]
  exact release_advances sound held ptt inside

/-- Outside the media path the wheel turns by the numbers that are delivered. -/
theorem ordinary_advances (kept : KeepsCount q s r room e) (ordinary : ¬ OwnWay e)
    (found : (Servers.step hmacSha1 crc32 s e).hub.rooms.lookup r = some after)
    (stays : q ∈ subscribers after) :
    Advances room.audioRewriter after.audioRewriter
      (mediaNumbers room.audioRewriter.virtualSsrc q (eventMedia s e)) := by
  have quiet := fun departs leaves releases => quiet_advances held hmacSha1 crc32 kept ordinary
    departs leaves releases found stays
  cases e with
  | request conn pid req o =>
    cases req with
    | roomLeave roomId => exact leave_advances held sound ptt inside found
    | floorRelease roomId => exact floorRelease_advances held sound ptt inside found
    | _ =>
      have advances := quiet (by simp) (by simp) (by simp)
      simp only [eventMedia, requestMedia]
      split <;> exact advances
  | close conn o => exact close_advances held sound ptt inside found
  | _ => exact quiet (by simp) (by simp) (by simp)

end Ordinary

section Packet
variable {room : Room} {q sender : Ptr} {senderId : UserId} {hdr : RtpHeader} {p : Bytes}
  (now : Instant)

/-- A packet that comes next gets the next number of the wheel. -/
theorem forward_advances {r : Rewriter} (primed : Primed r) (admitted : Admits r p senderId false)
    (next : r.state.awaitingFirstPacket = true ∨
      u16At p 2 = reverseSeq r r.state.lastVirtualSeq + 1) :
    Advances r (forward r p now).1 [u16At (forward r p now).2 2] ∧
      Carries r.virtualSsrc (forward r p now).2 := by
  obtain ⟨long, speaks, _⟩ := admitted
  obtain ⟨length, seq, _, ssrc, _⟩ := forward_spec r now long
  have numbered : virtualSeq (anchorBurst r (u16At p 2) (u32At p 4) now) (u16At p 2) =
      nextNumber r.state.lastVirtualSeq := by
    by_cases waits : r.state.awaitingFirstPacket = true
    · have base := primed (by simp [speaks]) waits
      simp only [virtualSeq, anchorBurst, if_pos waits, base, UInt16.sub_self, UInt16.zero_add]
    · have follows := next.resolve_left waits
      simp only [virtualSeq, anchorBurst, if_neg waits, follows, reverseSeq, nextNumber]
      grind
  have last : (forward r p now).1.state.lastVirtualSeq = u16At (forward r p now).2 2 := seq.symm
  rw [numbered] at seq
  refine ⟨⟨rfl, ?_⟩, by rw [length]; exact long, ssrc⟩
  rw [last, seq]
  exact .one _

/-- The numbers that a prepared packet places in the queue of a participant, if the fan-out
    counts it `copies` times. -/
def placedBy (ssrc : UInt32) (copies : Nat) : Option Bytes → List UInt16
  | none => []
  | some out => if Carries ssrc out then List.replicate copies (u16At out 2) else []

theorem prepared_held {mode : RoomMode} {ptt next : PttState} {result : RewriteResult} {out : Bytes}
    (inPtt : mode = .ptt) (holds : currentSpeaker ptt.floor = some senderId)
    (rewritten : rewriteByPt ptt senderId hdr p now = (next, result, out)) :
    prepareFanoutPayload mode ptt senderId hdr p now =
      (next, if result = .ok then some out else if result = .skip then some p else none) := by
  simp only [prepareFanoutPayload, inPtt, holds, rewritten, if_true, ne_eq, not_true_eq_false,
    if_false]
  cases result <;> rfl

/-- A packet that leaves the wheel alone must not place a number either. -/
theorem passed_advances (ptt : room.mode = .ptt)
    (holds : currentSpeaker room.floor = some senderId) {next : PttState} {result : RewriteResult}
    {out : Bytes} {ssrc : UInt32} {copies : Nat}
    (rewritten : rewriteByPt room.toPttState senderId hdr p now = (next, result, out))
    (wheel : next.audioRewriter = room.audioRewriter)
    (written : result = .ok → placedBy ssrc copies (some out) = [])
    (skipped : placedBy ssrc copies (some p) = []) :
    Advances room.audioRewriter
      (prepareFanoutPayload room.mode room.toPttState senderId hdr p now).1.audioRewriter
      (placedBy ssrc copies
        (prepareFanoutPayload room.mode room.toPttState senderId hdr p now).2) := by
  rw [prepared_held now ptt holds rewritten]
  have silent : placedBy ssrc copies
      (if result = .ok then some out else if result = .skip then some p else none) = [] := by
    cases result with
    | ok => exact written rfl
    | skip => exact skipped
    | pendingKeyframe => rfl
  rw [silent]
  exact .of_same wheel

/-- What the gate lets through turns the wheel by the numbers that it places. -/
theorem prepared_advances (primed : Primed room.audioRewriter) (ptt : room.mode = .ptt)
    (relayed : Relayed room q sender senderId hdr p) {copies : Nat}
    (own : sender = q → copies = 0) (others : sender ≠ q → copies = 1) :
    Advances room.audioRewriter
      (prepareFanoutPayload room.mode room.toPttState senderId hdr p now).1.audioRewriter
      (placedBy room.audioRewriter.virtualSsrc copies
        (prepareFanoutPayload room.mode room.toPttState senderId hdr p now).2) := by
  by_cases holds : currentSpeaker room.floor = some senderId
  · have condition := relayed holds
    have foreign : ∀ {out : Bytes}, (sender = q ∨ ¬ Carries room.audioRewriter.virtualSsrc out) →
        placedBy room.audioRewriter.virtualSsrc copies (some out) = [] := by
      intro out away
      rcases away with mine | other
      · simp [placedBy, own mine]
      · exact if_neg other
    by_cases audio : isAudioPt hdr.pt = true
    · by_cases admitted : Admits room.audioRewriter p senderId false
      · rw [if_pos ⟨audio, admitted⟩] at condition
        rw [prepared_held now ptt holds (by rw [rewriteByPt, if_pos audio, rewrite_admitted admitted])]
        obtain ⟨advances, carried⟩ := forward_advances now primed admitted condition.2
        simp only [if_true, placedBy, if_pos carried, others condition.1, List.replicate_one]
        exact advances
      · rw [if_neg fun both => admitted both.2] at condition
        obtain ⟨result, failed, same⟩ := rewrite_rejected admitted now
        exact passed_advances now ptt holds (by rw [rewriteByPt, if_pos audio, same]) rfl
          (fun ok => absurd ok failed) (foreign (condition.imp id And.left))
    · rw [if_neg fun both => audio both.1] at condition
      have skipped := foreign (condition.imp id And.left)
      by_cases video : isVideoPt hdr.pt = true
      · by_cases admitted : Admits room.videoRewriter p senderId (isKeyframe hdr p)
        · obtain ⟨_, _, _, ssrc, _⟩ := forward_spec room.videoRewriter now admitted.1
          have away := condition.imp id fun both =>
            fun carried : Carries room.audioRewriter.virtualSsrc (forward room.videoRewriter p now).2 =>
              both.2 video (ssrc.symm.trans carried.2)
          have rewritten : rewriteByPt room.toPttState senderId hdr p now =
              ({ room.toPttState with videoRewriter := (forward room.videoRewriter p now).1 }, .ok,
                (forward room.videoRewriter p now).2) := by
            rw [rewriteByPt, if_neg audio, if_pos video, rewrite_admitted admitted]
          exact passed_advances now ptt holds rewritten rfl (fun _ => foreign away) skipped
        · obtain ⟨result, failed, same⟩ := rewrite_rejected admitted now
          exact passed_advances now ptt holds
            (by rw [rewriteByPt, if_neg audio, if_pos video, same]) rfl
            (fun ok => absurd ok failed) skipped
      · have neither : rewriteByPt room.toPttState senderId hdr p now =
            (room.toPttState, .skip, p) := by
          rw [rewriteByPt, if_neg audio, if_neg video]
        exact passed_advances now ptt holds neither rfl (fun ok => absurd ok (by decide)) skipped
  · have gated : prepareFanoutPayload room.mode room.toPttState senderId hdr p now =
        (room.toPttState, none) := by
      simp only [prepareFanoutPayload, if_pos ptt, ne_eq, holds, not_false_eq_true, if_true]
    rw [gated]
    exact .refl _

end Packet

/-- Whether the line to a participant is ready, and what waits there. -/
def lineOf (s : ParticipantState) : Bool × List EgressPacket := (s.subscribe.ready, s.egress)

theorem lineOf_blind : MediaBlind lineOf where
  keyframe := view_requestKeyframe fun _ _ => rfl
  drawn := view_ensure fun _ _ => rfl
  layers _ _ := rfl

/-- A view of the line is as blind as the line. -/
theorem mediaBlind_of_line {α : Type} (f : Bool × List EgressPacket → α) :
    MediaBlind fun s => f (lineOf s) where
  keyframe s ssrc delays := congrArg f (lineOf_blind.keyframe s ssrc delays)
  drawn s draw := congrArg f (lineOf_blind.drawn s draw)
  layers s layers := congrArg f (lineOf_blind.layers s layers)

theorem countersBlind_of_line {α : Type} (f : Bool × List EgressPacket → α) :
    CountersBlind fun s => f (lineOf s) where
  number _ _ := rfl
  budget _ _ := rfl
  silence _ _ := rfl

theorem lineOf_stats (s : ParticipantState) (hdr : RtpHeader) (p : Bytes) :
    lineOf (detectGap (collectRtpStats s hdr p) hdr) = lineOf s :=
  (view_detectGap lineOf_blind (fun _ _ _ => rfl) _ hdr).trans
    (view_collectRtpStats (fun _ _ => rfl) s hdr p)

theorem lineOf_touch (hub : RoomHub) (p : Ptr) (ts : Nat) :
    Shows lineOf hub.heap (hub.touch p ts).heap := by
  have marked : Shows lineOf hub.heap (mutate hub.heap p fun s => s.touch ts) :=
    .mutate rfl
  exact marked

/-- The queue of `q` gets the numbers by which the wheel of the room turns. -/
def Continues (q : Ptr) (hub next : RoomHub) (room after : Room) : Prop :=
  ∃ ns, numbersOn room.audioRewriter.virtualSsrc (next.heap q).egress =
      numbersOn room.audioRewriter.virtualSsrc (hub.heap q).egress ++ ns ∧
    Advances room.audioRewriter after.audioRewriter ns

theorem Continues.stay {q : Ptr} {hub next : RoomHub} {room after : Room}
    (queue : numbersOn room.audioRewriter.virtualSsrc (next.heap q).egress =
      numbersOn room.audioRewriter.virtualSsrc (hub.heap q).egress)
    (wheel : after.audioRewriter = room.audioRewriter) : Continues q hub next room after :=
  ⟨[], by rw [queue, List.append_nil], .of_same wheel⟩

theorem numbersOn_of_line {s t : ParticipantState} {ssrc : UInt32} (same : lineOf s = lineOf t) :
    numbersOn ssrc s.egress = numbersOn ssrc t.egress :=
  congrArg (fun line => numbersOn ssrc line.2) same

theorem egress_of_line {s t : ParticipantState} (same : lineOf s = lineOf t) : s.egress = t.egress :=
  congrArg Prod.snd same

section Relay
variable {hub : RoomHub} {r : RoomId} {room : Room} {q sender : Ptr} (buf : Bytes) (o : Oracle)

/-- The relay of a room without simulcast. -/
theorem relayRtp_plain (plain : room.simulcastEnabled = false) :
    (relayRtp hub r room sender buf o).hub.heap =
      let (p, hdr) := normalizePt (hub.heap sender).tracks buf
      let heap := mutate hub.heap sender fun s => detectGap (collectRtpStats s hdr p) hdr
      match (prepareFanoutPayload room.mode room.toPttState (hub.arcs sender).userId hdr p
        (o.clk 0)).2 with
      | none => heap
      | some out => sendToReady heap (readyOthers room heap (hub.arcs sender).userId) (.rtp out) := by
  simp only [relayRtp, fanout, plain, Bool.false_and, Bool.false_eq_true, if_false]
  cases (prepareFanoutPayload room.mode room.toPttState (hub.arcs sender).userId
      (normalizePt (hub.heap sender).tracks buf).2 (normalizePt (hub.heap sender).tracks buf).1
      (o.clk 0)).2 with
  | none => rfl
  | some out => rfl

theorem relay_numbers (ssrc : UInt32) (plain : room.simulcastEnabled = false)
    (taking : Open (hub.heap q))
    (space : ((relayRtp hub r room sender buf o).hub.heap q).egress.length < egressQueueSize)
    {copies : Nat} (counted : ∀ h : Heap, (h q).isSubscribeReady = true →
      (readyOthers room h (hub.arcs sender).userId).count q = copies) :
    numbersOn ssrc ((relayRtp hub r room sender buf o).hub.heap q).egress =
      numbersOn ssrc (hub.heap q).egress ++ placedBy ssrc copies
        (prepareFanoutPayload room.mode room.toPttState (hub.arcs sender).userId
          (normalizePt (hub.heap sender).tracks buf).2 (normalizePt (hub.heap sender).tracks buf).1
          (o.clk 0)).2 := by
  rw [relayRtp_plain buf o plain] at space ⊢
  simp only at space ⊢
  let heap := mutate hub.heap sender fun s =>
    detectGap (collectRtpStats s (normalizePt (hub.heap sender).tracks buf).2
      (normalizePt (hub.heap sender).tracks buf).1) (normalizePt (hub.heap sender).tracks buf).2
  have line : lineOf (heap q) = lineOf (hub.heap q) := mutate_at fun _ => lineOf_stats _ _ _
  have ready : (heap q).isSubscribeReady = true := (congrArg Prod.fst line).trans taking.ready
  have still : Open (heap q) := by
    refine ⟨ready, ?_⟩
    rw [egress_of_line line]
    exact taking.fits
  rw [← egress_of_line line]
  cases result : (prepareFanoutPayload room.mode room.toPttState (hub.arcs sender).userId
      (normalizePt (hub.heap sender).tracks buf).2 (normalizePt (hub.heap sender).tracks buf).1
      (o.clk 0)).2 with
  | none => exact (List.append_nil _).symm
  | some out =>
    rw [result] at space
    have sent := @delivers_numbers ssrc q _ _ _
      (Delivers.rtp heap (readyOthers room heap (hub.arcs sender).userId) out) still space
    refine sent.trans ?_
    simp only [mediaNumbers, List.flatMap_cons, List.flatMap_nil, List.append_nil,
      counted heap ready, placedBy]

end Relay

section OwnWays
variable {s : Server} {r : RoomId} {room after : Room} {q : Ptr} (seated : Seated s.hub)
  (held : s.hub.rooms.lookup r = some room) (ptt : room.mode = .ptt) (inside : q ∈ subscribers room)

include seated held inside

/-- The fan-out counts a ready participant once, and the sender never. -/
theorem readyOthers_counted {remote : SocketAddr} {sender : Ptr} {pc : PcType}
    (lands : s.hub.findByAddr remote = some (sender, pc, r)) : ∃ copies,
      (∀ h : Heap, (h q).isSubscribeReady = true →
        (readyOthers room h (s.hub.arcs sender).userId).count q = copies) ∧
      (sender = q → copies = 0) ∧ (sender ≠ q → copies = 1) := by
  obtain ⟨u, member⟩ := (mem_subscribers held).mp inside
  have speaker : Member s.hub r (s.hub.arcs sender).userId sender := seated.sender lands
  refine ⟨_, fun h ready => count_readyOthers seated.sound held member ready, ?_, ?_⟩
  · intro same
    rw [same] at speaker ⊢
    exact if_pos (seated.sound.once member speaker).2
  · intro other
    refine if_neg fun same => other ?_
    rw [same] at member
    exact member_unique speaker member

include ptt

theorem rtp_continues (furnished : Furnished s.hub) (taking : Open (s.hub.heap q))
    {remote : SocketAddr} {buf : Bytes} {o : Oracle}
    (kept : KeepsCount q s r room (.rtp remote buf o))
    (found : (handleSrtp s.hub remote buf o).hub.rooms.lookup r = some after)
    (space : ((handleSrtp s.hub remote buf o).hub.heap q).egress.length < egressQueueSize) :
    Continues q s.hub (handleSrtp s.hub remote buf o).hub room after := by
  have unmoved : ∀ {next : RoomHub}, next.rooms.lookup r = some after → next.rooms = s.hub.rooms →
      after.audioRewriter = room.audioRewriter := by
    intro next there same
    rw [same, held, Option.some.injEq] at there
    rw [there]
  rcases handleSrtp_cases s.hub remote buf o with
    dropped | ⟨sender, touched⟩ | ⟨sender, r', room', lands, held', ⟨ready, media⟩, relayed⟩
  · rw [dropped] at found ⊢
    exact .stay rfl (unmoved found rfl)
  · rw [touched] at found ⊢
    exact .stay (by rw [egress_of_line (lineOf_touch s.hub sender o.nowMs q)]) (unmoved found rfl)
  · rw [relayed] at found space ⊢
    have touch := lineOf_touch s.hub sender o.nowMs
    rw [relayRtp_hub, withPtt, lookup_modify] at found
    by_cases here : r = r'
    · subst here
      rw [held, Option.some.injEq] at held'
      subst held'
      have there : (s.hub.touch sender o.nowMs).rooms.lookup r = some room := held
      rw [if_pos rfl, there, Option.map_some, Option.some.injEq] at found
      obtain ⟨copies, counted, own, others⟩ := readyOthers_counted seated held inside lands
      have still : Open ((s.hub.touch sender o.nowMs).heap q) := by
        refine ⟨(congrArg Prod.fst (touch q)).trans taking.ready, ?_⟩
        rw [egress_of_line (touch q)]
        exact taking.fits
      have placed := relay_numbers buf o room.audioRewriter.virtualSsrc (furnished.plain held ptt)
        still space counted
      rw [egress_of_line (touch q)] at placed
      refine ⟨_, placed, ?_⟩
      simp only [KeepsCount, lands] at kept
      have advances := prepared_advances (o.clk 0) (furnished.primed held) ptt
        (kept trivial ready media) own others
      rw [← found, touch_tracks]
      exact advances
    · rw [if_neg here] at found
      refine .stay ?_ (unmoved found rfl)
      have outside := not_mem_subscribers seated.sound held inside held' fun same => here same.symm
      have unseen : ∀ pkt, Unseen lineOf q
          (room'.otherParticipants ((s.hub.touch sender o.nowMs).arcs sender).userId) pkt := by
        intro pkt
        refine .inl fun member => outside ?_
        obtain ⟨k, _, there⟩ := mem_otherParticipants.mp member
        exact mem_values.mpr ⟨k, there⟩
      have line := (relayRtp_at (s.hub.touch sender o.nowMs) r' room' sender buf o lineOf_blind
        unseen).trans (mutate_at fun _ => lineOf_stats _ _ _)
      rw [egress_of_line (line.trans (touch q))]

omit ptt in
theorem nack_continues {remote : SocketAddr} {block : Bytes} {touchMs nowMs : Nat}
    {visit : List UserId} (kept : KeepsCount q s r room (.nack remote block touchMs nowMs visit)) :
    Continues q s.hub (handleSubscribeNack s.hub remote block touchMs nowMs visit).1 room room := by
  refine .stay ?_ rfl
  rcases handleSubscribeNack_cases s.hub remote block touchMs nowMs visit with
    dropped | ⟨subscriber, touched⟩ | ⟨subscriber, r', room', lands, held', answered⟩
  · rw [dropped]
  · rw [touched]
    exact numbersOn_of_line (lineOf_touch s.hub subscriber touchMs q)
  · rw [answered]
    refine Eq.trans ?_ (numbersOn_of_line (lineOf_touch s.hub subscriber touchMs q))
    let good : UInt32 → Prop := fun ssrc =>
      q = subscriber → ssrc ≠ room.audioRewriter.virtualSsrc
    have tracks : RtxTracks room' good (s.hub.touch subscriber touchMs).heap := by
      intro p listed t present ssrc named asks same
      subst asks
      have there : Member s.hub r' (s.hub.arcs q).userId q := seated.sender lands
      obtain ⟨u, here⟩ := (mem_subscribers held).mp inside
      obtain ⟨rfl, _⟩ := seated.sound.once there here
      rw [held, Option.some.injEq] at held'
      subst held'
      rw [touch_tracks] at present
      simp only [KeepsCount, lands] at kept
      rw [same] at named
      exact kept trivial p listed t present named
    have blind : MediaBlind fun st => numbersOn room.audioRewriter.virtualSsrc (lineOf st).2 :=
      mediaBlind_of_line fun line => numbersOn room.audioRewriter.virtualSsrc line.2
    have counters : CountersBlind fun st =>
        numbersOn room.audioRewriter.virtualSsrc (lineOf st).2 :=
      countersBlind_of_line fun line => numbersOn room.audioRewriter.virtualSsrc line.2
    exact handleNackBlock_at s.hub.arcs room' visit subscriber counters blind
      (fun original ssrc seq allowed asks st =>
        trySend_numbers st fun carried => allowed asks (rtx_carries carried)) _ tracks block nowMs

end OwnWays

theorem handleStun_line (hmacSha1 : Bytes → Bytes → Bytes) (crc32 : Bytes → UInt32)
    (hub : RoomHub) (buf : Bytes) (remote : SocketAddr) (now : Nat) (dtlsHas : Bool) :
    Shows lineOf hub.heap (StunLatch.handleStun hmacSha1 crc32 hub buf remote now dtlsHas).1.heap := by
  rw [StunLatch.handleStun_hub]
  split
  · exact .refl lineOf hub.heap
  · rename_i p pc r _
    have moved : lineOf ((hub.heap p).latchAddress pc remote) = lineOf (hub.heap p) := by
      cases pc <;> rfl
    have latched : Shows lineOf hub.heap (mutate hub.heap p fun s => s.latchAddress pc remote) :=
      .mutate moved
    exact latched.trans (lineOf_touch _ p now)

section Step
variable (hmacSha1 : Bytes → Bytes → Bytes) (crc32 : Bytes → UInt32)
variable {s : Server} {e : Event} {r : RoomId} {room after : Room} {q : Ptr}

/-- Ordinary handlers put their media into the queue, and a join touches nobody else's. -/
theorem ordinary_numbers (ssrc : UInt32) (sound : WellFormed s.hub) {u : UserId}
    (here : Member s.hub r u q) (taking : Open (s.hub.heap q)) (ordinary : ¬ OwnWay e)
    (space : ((Servers.step hmacSha1 crc32 s e).hub.heap q).egress.length < egressQueueSize) :
    numbersOn ssrc ((Servers.step hmacSha1 crc32 s e).hub.heap q).egress =
      numbersOn ssrc (s.hub.heap q).egress ++ mediaNumbers ssrc q (eventMedia s e) := by
  rcases step_serves hmacSha1 crc32 s e ordinary with serves | ⟨silent, builds⟩
  · exact delivers_numbers serves.delivers taking space
  · have same := builds.others q (Nat.ne_of_lt (sound.allocated here))
    simp only [core, Prod.mk.injEq] at same
    rw [silent, same.2.2.2]
    exact (List.append_nil _).symm

/-- One event, other than the egress of `q`: the queue and the wheel move on together. -/
theorem step_continues (seated : Seated s.hub) (furnished : Furnished s.hub)
    (held : s.hub.rooms.lookup r = some room) (ptt : room.mode = .ptt)
    (inside : q ∈ subscribers room) (taking : Open (s.hub.heap q))
    (kept : KeepsCount q s r room e) (busy : e ≠ .egress q)
    (found : (Servers.step hmacSha1 crc32 s e).hub.rooms.lookup r = some after)
    (stays : q ∈ subscribers after)
    (space : ((Servers.step hmacSha1 crc32 s e).hub.heap q).egress.length < egressQueueSize) :
    Continues q s.hub (Servers.step hmacSha1 crc32 s e).hub room after := by
  by_cases own : OwnWay e
  · have same : s.hub.rooms.lookup r = some after → after = room := by
      intro there
      rw [held, Option.some.injEq] at there
      exact there.symm
    cases e with
    | stun remote buf nowMs dtlsHas =>
      have calm : Changes noWork True s.hub _ :=
        handleStun_changes s.hub hmacSha1 crc32 buf remote nowMs dtlsHas trivial
      obtain ⟨before, held', _, _, unchanged | never, _⟩ := calm r after found
      · rw [held, Option.some.injEq] at held'
        subst held'
        exact .stay (numbersOn_of_line (handleStun_line hmacSha1 crc32 s.hub buf remote nowMs
          dtlsHas q)) (congrArg PttState.audioRewriter unchanged)
      · exact never.elim
    | srtpKeys p pc =>
      have keyed : ((s.hub.heap p).installSrtpKeys pc).egress = (s.hub.heap p).egress := by
        cases pc <;> rfl
      have queue : (mutate s.hub.heap p (fun st => st.installSrtpKeys pc) q).egress =
          (s.hub.heap q).egress := mutate_at fun _ => keyed
      obtain rfl := same found
      exact .stay (congrArg _ queue) rfl
    | rtp remote buf o =>
      exact rtp_continues seated held ptt inside furnished taking kept found space
    | nack remote block touchMs nowMs visit =>
      have rooms : (handleSubscribeNack s.hub remote block touchMs nowMs visit).1.rooms =
          s.hub.rooms := by
        rcases handleSubscribeNack_cases s.hub remote block touchMs nowMs visit with
          dropped | ⟨subscriber, touched⟩ | ⟨subscriber, r', room', _, _, answered⟩
        · rw [dropped]
        · rw [touched]
          rfl
        · rw [answered]
          rfl
      have there : (handleSubscribeNack s.hub remote block touchMs nowMs visit).1.rooms.lookup r =
          some after := found
      rw [rooms] at there
      obtain rfl := same there
      exact nack_continues seated held inside kept
    | egress p =>
      have other : q ≠ p := fun mine => busy (by rw [mine])
      have queue : (mutate s.hub.heap p (fun st => { st with egress := st.egress.tail }) q).egress =
          (s.hub.heap q).egress := by rw [mutate_ne _ other]
      obtain rfl := same found
      exact .stay (congrArg _ queue) rfl
    | _ => exact own.elim
  · obtain ⟨u, here⟩ := (mem_subscribers held).mp inside
    exact ⟨_, ordinary_numbers hmacSha1 crc32 _ seated.sound here taking own space,
      ordinary_advances held hmacSha1 crc32 seated.sound ptt inside kept own found stays⟩

/-- The server, and what the egress task of one participant has taken so far. -/
structure Watched where
  server : Server
  taken : List EgressPacket

/-- Everything that was placed in the queue of `q`. -/
def placed (q : Ptr) (w : Watched) : List EgressPacket := w.taken ++ (w.server.hub.heap q).egress

def watchStep (q : Ptr) (w : Watched) (e : Event) : Watched where
  server := Servers.step hmacSha1 crc32 w.server e
  taken := match e with
    | .egress p => if p = q then w.taken ++ (w.server.hub.heap q).egress.take 1 else w.taken
    | _ => w.taken

/-- `q` is in the PTT room and ready for media, and its queue is not full. -/
def Listens (r : RoomId) (q : Ptr) (s : Server) : Prop :=
  match s.hub.rooms.lookup r with
  | some room => room.mode = .ptt ∧ q ∈ subscribers room ∧
      (s.hub.heap q).isSubscribeReady = true ∧ (s.hub.heap q).egress.length < egressQueueSize
  | none => False

instance (r : RoomId) (q : Ptr) (s : Server) : Decidable (Listens r q s) := by
  unfold Listens
  split <;> infer_instance

def Keeps (r : RoomId) (q : Ptr) (s : Server) (e : Event) : Prop :=
  match s.hub.rooms.lookup r with
  | some room => KeepsCount q s r room e
  | none => True

instance (r : RoomId) (q : Ptr) (s : Server) (e : Event) : Decidable (Keeps r q s e) := by
  unfold Keeps
  split <;> infer_instance

/-- The numbers placed for `q` since `start`, on the audio SSRC of the room, count on from the
    last number of the wheel then to its last number now. -/
def Gapless (r : RoomId) (q : Ptr) (start : Server) (w : Watched) : Prop :=
  ∃ before after ns, start.hub.rooms.lookup r = some before ∧
    w.server.hub.rooms.lookup r = some after ∧
    numbersOn before.audioRewriter.virtualSsrc (placed q w) =
      numbersOn before.audioRewriter.virtualSsrc (start.hub.heap q).egress ++ ns ∧
    Advances before.audioRewriter after.audioRewriter ns

theorem Listens.sits {s : Server} (listens : Listens r q s) : ∃ room,
    s.hub.rooms.lookup r = some room ∧ room.mode = .ptt ∧ q ∈ subscribers room ∧
      Open (s.hub.heap q) ∧ (s.hub.heap q).egress.length < egressQueueSize := by
  unfold Listens at listens
  split at listens
  · rename_i room held
    obtain ⟨ptt, inside, ready, space⟩ := listens
    exact ⟨room, held, ptt, inside, ⟨ready, Nat.le_of_lt space⟩, space⟩
  · exact listens.elim

theorem watchStep_egress (q : Ptr) (w : Watched) :
    placed q (watchStep hmacSha1 crc32 q w (.egress q)) = placed q w := by
  have head : (w.server.hub.heap q).egress.take 1 ++ (w.server.hub.heap q).egress.tail =
      (w.server.hub.heap q).egress := by
    rw [← List.drop_one]
    exact List.take_append_drop 1 _
  have rest : ((watchStep hmacSha1 crc32 q w (.egress q)).server.hub.heap q).egress =
      (w.server.hub.heap q).egress.tail := by
    have popped : (mutate w.server.hub.heap q (fun st =>
        { st with egress := st.egress.tail }) q).egress = (w.server.hub.heap q).egress.tail := by
      rw [mutate_self]
    exact popped
  have taken : (watchStep hmacSha1 crc32 q w (.egress q)).taken =
      w.taken ++ (w.server.hub.heap q).egress.take 1 := if_pos rfl
  rw [placed, rest, taken, List.append_assoc, head, placed]

theorem watchStep_taken {q : Ptr} {e : Event} (busy : e ≠ .egress q) (w : Watched) :
    (watchStep hmacSha1 crc32 q w e).taken = w.taken := by
  cases e with
  | egress p => exact if_neg fun mine => busy (by rw [mine])
  | _ => rfl

theorem watchStep_gapless {start : Server} {w : Watched} (seated : Seated w.server.hub)
    (furnished : Furnished w.server.hub) (gapless : Gapless r q start w)
    (listens : Listens r q w.server)
    (still : Listens r q (watchStep hmacSha1 crc32 q w e).server) (kept : Keeps r q w.server e) :
    Gapless r q start (watchStep hmacSha1 crc32 q w e) := by
  obtain ⟨room, held, ptt, inside, taking, _⟩ := listens.sits
  obtain ⟨after, found, _, stays, _, space⟩ := still.sits
  obtain ⟨before, room', ns, started, held', numbers, advances⟩ := gapless
  rw [held, Option.some.injEq] at held'
  subst held'
  by_cases busy : e = .egress q
  · subst busy
    refine ⟨before, room, ns, started, held, ?_, advances⟩
    rw [watchStep_egress]
    exact numbers
  · unfold Keeps at kept
    simp only [held] at kept
    obtain ⟨ms, queue, onward⟩ := step_continues hmacSha1 crc32 seated furnished held ptt inside
      taking kept busy found stays space
    rw [advances.ssrc] at queue
    refine ⟨before, after, ns ++ ms, started, found, ?_, advances.trans onward⟩
    rw [placed, numbersOn_append] at numbers ⊢
    rw [watchStep_taken hmacSha1 crc32 busy]
    have next : numbersOn before.audioRewriter.virtualSsrc
        ((watchStep hmacSha1 crc32 q w e).server.hub.heap q).egress = _ := queue
    rw [next, ← List.append_assoc, numbers, List.append_assoc]

/-- From any reachable state on: while `q` listens and the events keep the count, the audio
    numbers placed for `q` are consecutive, and no number of the wheel is missing. -/
theorem burst_numbers_gapless (history es : List Event) (r : RoomId) (q : Ptr)
    (listens : Always (watchStep hmacSha1 crc32 q) (fun w => Listens r q w.server)
      ⟨run (Servers.step hmacSha1 crc32) Server.new history, []⟩ es)
    (kept : Guarded (watchStep hmacSha1 crc32 q) (fun w e => Keeps r q w.server e)
      ⟨run (Servers.step hmacSha1 crc32) Server.new history, []⟩ es) :
    Always (watchStep hmacSha1 crc32 q)
      (Gapless r q (run (Servers.step hmacSha1 crc32) Server.new history))
      ⟨run (Servers.step hmacSha1 crc32) Server.new history, []⟩ es := by
  let start := run (Servers.step hmacSha1 crc32) Server.new history
  have all : Always (watchStep hmacSha1 crc32 q) (fun w =>
      Seated w.server.hub ∧ Furnished w.server.hub ∧ Gapless r q start w) ⟨start, []⟩ es := by
    apply always_of_guarded _ _ listens kept
    · intro w e good before after met
      obtain ⟨seated, furnished, gapless⟩ := good
      exact ⟨step_seated hmacSha1 crc32 w.server e seated,
        step_furnished hmacSha1 crc32 w.server e furnished,
        watchStep_gapless hmacSha1 crc32 seated furnished gapless before after met⟩
    · have first := always_here listens
      obtain ⟨room, held, _⟩ := Listens.sits first
      refine ⟨run_seated hmacSha1 crc32 history, run_furnished hmacSha1 crc32 history, room, room,
        [], held, held, ?_, .refl room.audioRewriter⟩
      rw [List.append_nil]
      rfl
  exact always_mono (fun w good => good.2.2) all

end Step

/-- A publishes and B, of handle 1, listens. -/
def listenerJoined : List Event :=
  sampleRoom .ptt false :: joinAs 0 "a" 1 ++ joinAs 1 "b" 2 ++
    startMedia 0 1 .publish 5000 ++ startMedia 1 2 .subscribe 5001

/-- An Opus packet of A. -/
def talk (seq : UInt16) : Event :=
  .rtp (AddressIndex.portAt 5000)
    ([0x80, opusPayloadType] ++ bytes16 seq ++ bytes32 960 ++ bytes32 11 ++ [0xFC]) (sampleOracle 0)

/-- A talks twice; the first burst ends with the event. -/
def twoBursts (ends : Event) : List Event :=
  [requestFloor 0, talk 100, talk 101, ends, requestFloor 0, talk 300]

def releaseFloor : Event := .request 0 5 (.floorRelease (some "room")) (sampleOracle 0)

theorem released_bursts_gapless :
    Always (watchStep sampleHmac (fun _ => 0) 1)
      (Gapless "room" 1 (run (Servers.step sampleHmac fun _ => 0) Server.new listenerJoined))
      ⟨run (Servers.step sampleHmac fun _ => 0) Server.new listenerJoined, []⟩
      (twoBursts releaseFloor) ∧
    numbersOn 501 (placed 1 (run (watchStep sampleHmac (fun _ => 0) 1)
      ⟨run (Servers.step sampleHmac fun _ => 0) Server.new listenerJoined, []⟩
      (twoBursts releaseFloor))) = [1, 2, 3, 4, 5, 6] := by
  constructor
  · exact burst_numbers_gapless sampleHmac (fun _ => 0) listenerJoined (twoBursts releaseFloor)
      "room" 1 (by decide) (by decide)
  · decide

/-- The part of the condition that is about the streams alone. -/
def Fed (r : RoomId) (q : Ptr) (s : Server) : Event → Prop
  | .rtp remote buf o => Keeps r q s (.rtp remote buf o)
  | .nack remote block touchMs nowMs visit => Keeps r q s (.nack remote block touchMs nowMs visit)
  | _ => True

instance (r : RoomId) (q : Ptr) (s : Server) (e : Event) : Decidable (Fed r q s e) := by
  cases e with
  | rtp remote buf o => exact inferInstanceAs (Decidable (Keeps r q s _))
  | nack remote block touchMs nowMs visit => exact inferInstanceAs (Decidable (Keeps r q s _))
  | _ => exact isTrue trivial

/-- The audio numbers placed for `q` are consecutive. -/
def Consecutive (r : RoomId) (q : Ptr) (w : Watched) : Prop :=
  ∀ room, w.server.hub.rooms.lookup r = some room →
    (numbersOn room.audioRewriter.virtualSsrc (placed q w)).IsChain fun a b => b = nextNumber a

/-- The floor timer ends the first burst; its three silence frames are not sent. -/
def timerRevokes : Event := .floorTimer "room" { sampleOracle 0 with nowMs := 200000 }

theorem revoked_burst_leaves_gap :
    ¬ ∀ (hmacSha1 : Bytes → Bytes → Bytes) (crc32 : Bytes → UInt32) (history es : List Event)
        (r : RoomId) (q : Ptr),
      Always (watchStep hmacSha1 crc32 q) (fun w => Listens r q w.server)
          ⟨run (Servers.step hmacSha1 crc32) Server.new history, []⟩ es →
        Guarded (watchStep hmacSha1 crc32 q) (fun w e => Fed r q w.server e)
            ⟨run (Servers.step hmacSha1 crc32) Server.new history, []⟩ es →
          Consecutive r q (run (watchStep hmacSha1 crc32 q)
            ⟨run (Servers.step hmacSha1 crc32) Server.new history, []⟩ es) := by
  intro all
  have chain := all sampleHmac (fun _ => 0) listenerJoined (twoBursts timerRevokes) "room" 1
    (by decide) (by decide)
  let w := run (watchStep sampleHmac (fun _ => 0) 1)
    ⟨run (Servers.step sampleHmac fun _ => 0) Server.new listenerJoined, []⟩
    (twoBursts timerRevokes)
  let room := (w.server.hub.rooms.lookup "room").get (by decide)
  have held : w.server.hub.rooms.lookup "room" = some room := (Option.some_get _).symm
  have numbers : numbersOn room.audioRewriter.virtualSsrc (placed 1 w) = [1, 2, 6] := by decide
  have consecutive := chain room held
  rw [numbers] at consecutive
  exact absurd consecutive (by decide)

/-- The MBCP release loses the same three numbers. -/
example : numbersOn 501 (placed 1 (run (watchStep sampleHmac (fun _ => 0) 1)
    ⟨run (Servers.step sampleHmac fun _ => 0) Server.new listenerJoined, []⟩
    (twoBursts (.mbcp (AddressIndex.portAt 5000) mbcpSubtypeFrel 1000 (sampleOracle 0))))) =
      [1, 2, 6] := by
  decide

end BurstContinuity
