import OxlensSfu.SpeakerAgreement

/-
What leaves a PTT room under which SSRC. The floor gate and the two rewriters are
updated by different handlers; a packet that passes the gate and is skipped by its
rewriter goes out as the publisher sent it.
-/
namespace FanoutSsrc
open WireBytes SfuConfig RtpPacket FloorControl PttRewriter KeyedMap Participants RoomHubs
open Ingress Servers SpeakerAgreement GuardedRun

/-- Audio on the audio virtual SSRC, or video on the video virtual SSRC. -/
def OnVirtualSsrc (ptt : PttState) (out : Bytes) : Prop :=
  (isAudioPt (parseRtpHeader out).pt ∧
      (parseRtpHeader out).ssrc = ptt.audioRewriter.virtualSsrc) ∨
    (isVideoPt (parseRtpHeader out).pt ∧
      (parseRtpHeader out).ssrc = ptt.videoRewriter.virtualSsrc)

instance (ptt : PttState) (out : Bytes) : Decidable (OnVirtualSsrc ptt out) :=
  inferInstanceAs (Decidable (_ ∨ _))

def Fanout (ptt : PttState) (sender : UserId) (p : Bytes) (now : Instant) : Option Bytes :=
  (prepareFanoutPayload .ptt ptt sender (parseRtpHeader p) p now).2

/-- Whatever is returned for fan-out is on a virtual SSRC. -/
def Conforms (ptt : PttState) (sender : UserId) (p : Bytes) (now : Instant) : Prop :=
  ∀ out, Fanout ptt sender p now = some out → OnVirtualSsrc ptt out

theorem typed_of_audio {p : Bytes} (audio : isAudioPt (parseRtpHeader p).pt = true) :
    (parseRtpHeader p).pt ≠ 0 := by
  intro zero
  rw [zero] at audio
  exact absurd audio (by decide)

theorem typed_of_video {p : Bytes} (video : isVideoPt (parseRtpHeader p).pt = true) :
    (parseRtpHeader p).pt ≠ 0 := by
  intro zero
  rw [zero] at video
  exact absurd video (by decide)

/-- The three outcomes of a rewriter for a packet with a full header. -/
theorem rewrite_outcome (r : Rewriter) {p : Bytes} (long : 12 ≤ p.length) (sender : UserId)
    (isKey : Bool) (now : Instant) :
    (r.state.speaker ≠ some sender ∧ (rewrite r p sender isKey now).2.1 = .skip) ∨
    (r.state.speaker = some sender ∧ (rewrite r p sender isKey now).2.1 = .pendingKeyframe) ∨
    (r.state.speaker = some sender ∧ (rewrite r p sender isKey now).2.1 = .ok ∧
      (parseRtpHeader (rewrite r p sender isKey now).2.2).pt = (parseRtpHeader p).pt ∧
      (parseRtpHeader (rewrite r p sender isKey now).2.2).ssrc = r.virtualSsrc) := by
  have full : ¬ p.length < 12 := Nat.not_lt.mpr long
  by_cases speaks : r.state.speaker = some sender
  · right
    by_cases waits : (r.state.pendingKeyframe && !isKey) = true
    · left
      simp [rewrite, full, speaks, waits]
    · right
      obtain ⟨length, _, _, ssrc, _, typed, _⟩ := forward_spec r now long
      have shape : rewrite r p sender isKey now = ((forward r p now).1, .ok, (forward r p now).2) := by
        simp [rewrite, full, speaks, waits]
      rw [shape]
      obtain ⟨outPt, outSsrc⟩ := parse_long (p := (forward r p now).2) (by omega)
      obtain ⟨inPt, _⟩ := parse_long long
      refine ⟨speaks, rfl, ?_, ?_⟩
      · rw [outPt, inPt, typed]
      · rw [outSsrc, ssrc]
  · left
    simp [rewrite, full, speaks]

section Gate
variable {ptt : PttState} {sender : UserId} {p : Bytes} {now : Instant}

theorem fanout_gated (gated : currentSpeaker ptt.floor ≠ some sender) :
    Fanout ptt sender p now = none := by
  simp [Fanout, prepareFanoutPayload, gated]

/-- What the gate makes of the outcome of a rewriter. -/
theorem fanout_held (holds : currentSpeaker ptt.floor = some sender) {next : PttState}
    {result : RewriteResult} {out : Bytes}
    (rewritten : rewriteByPt ptt sender (parseRtpHeader p) p now = (next, result, out)) :
    Fanout ptt sender p now =
      if result = .ok then some out else if result = .skip then some p else none := by
  simp only [Fanout, prepareFanoutPayload, holds, rewritten, if_true, ne_eq, not_true_eq_false,
    if_false]
  cases result <;> rfl

/-- A packet of the holder that goes through a rewriter leaves on that rewriter's SSRC,
    unless the rewriter skips it. -/
theorem conforms_through (holds : currentSpeaker ptt.floor = some sender) (long : 12 ≤ p.length)
    {r : Rewriter} {isKey : Bool} {next : PttState}
    (through : rewriteByPt ptt sender (parseRtpHeader p) p now =
      (next, (rewrite r p sender isKey now).2.1, (rewrite r p sender isKey now).2.2))
    (virtual : ∀ out, (parseRtpHeader out).pt = (parseRtpHeader p).pt →
      (OnVirtualSsrc ptt out ↔ (parseRtpHeader out).ssrc = r.virtualSsrc)) :
    Conforms ptt sender p now ↔
      r.state.speaker = some sender ∨ (parseRtpHeader p).ssrc = r.virtualSsrc := by
  have shape := fanout_held holds through
  rcases rewrite_outcome r long sender isKey now
    with ⟨other, skip⟩ | ⟨speaks, pending⟩ | ⟨speaks, ok, sameType, ssrc⟩
  · rw [skip] at shape
    simp [Conforms, shape, virtual p rfl, other]
  · rw [pending] at shape
    simp [Conforms, shape, speaks]
  · rw [ok] at shape
    simp [Conforms, shape, virtual _ sameType, ssrc, speaks]

theorem fanout_audio (holds : currentSpeaker ptt.floor = some sender)
    (audio : isAudioPt (parseRtpHeader p).pt = true) :
    Conforms ptt sender p now ↔ ptt.audioRewriter.state.speaker = some sender ∨
      (parseRtpHeader p).ssrc = ptt.audioRewriter.virtualSsrc := by
  refine conforms_through holds (long_of_typed (typed_of_audio audio))
    (by rw [rewriteByPt, if_pos audio]) fun out same => ?_
  simp [OnVirtualSsrc, same, audio, audio_not_video audio]

theorem fanout_video (holds : currentSpeaker ptt.floor = some sender)
    (video : isVideoPt (parseRtpHeader p).pt = true) :
    Conforms ptt sender p now ↔ ptt.videoRewriter.state.speaker = some sender ∨
      (parseRtpHeader p).ssrc = ptt.videoRewriter.virtualSsrc := by
  have notAudio : isAudioPt (parseRtpHeader p).pt = false := by
    by_contra audio
    simp [audio_not_video (by simpa using audio)] at video
  refine conforms_through holds (long_of_typed (typed_of_video video))
    (by rw [rewriteByPt, if_neg (by simp [notAudio]), if_pos video]) fun out same => ?_
  simp [OnVirtualSsrc, same, notAudio, video]

/-- Anything else of the holder passes as it is, whatever its SSRC. -/
theorem fanout_other (holds : currentSpeaker ptt.floor = some sender)
    (notAudio : isAudioPt (parseRtpHeader p).pt = false)
    (notVideo : isVideoPt (parseRtpHeader p).pt = false) :
    Fanout ptt sender p now = some p ∧ ¬ OnVirtualSsrc ptt p := by
  constructor
  · simp [Fanout, prepareFanoutPayload, holds, rewriteByPt, notAudio, notVideo]
  · simp [OnVirtualSsrc, notAudio, notVideo]

end Gate

/-- Exactly the packets of the holder that are neither audio nor video leave on another SSRC. -/
def OnlyMediaConforms (ptt : PttState) : Prop :=
  ∀ sender p now, Conforms ptt sender p now ↔
    (currentSpeaker ptt.floor = some sender →
      isAudioPt (parseRtpHeader p).pt ∨ isVideoPt (parseRtpHeader p).pt)

/-- Whoever holds the floor is the speaker of both rewriters. -/
def Serves (v : FloorView) : Prop :=
  ∀ u, v.holder = some u → v.audio = some u ∧ v.video = some u

theorem serves_audible : Audible Serves where
  agrees v same u holds := ⟨same.1.trans holds, same.2.trans holds⟩
  silent mode u serves := by simp [Serves] at serves

/-- A bare header with a given payload type and SSRC. -/
def bareHeader (pt : UInt8) (ssrc : UInt32) : Bytes :=
  [0x80, pt, 0, 0, 0, 0, 0, 0] ++ bytes32 ssrc

theorem bareHeader_fields {pt : UInt8} (low : pt &&& 0x7F = pt) (ssrc : UInt32) :
    (parseRtpHeader (bareHeader pt ssrc)).pt = pt ∧
      (parseRtpHeader (bareHeader pt ssrc)).ssrc = ssrc := by
  obtain ⟨typed, labelled⟩ := parse_long (p := bareHeader pt ssrc) (by simp [bareHeader])
  rw [typed, labelled]
  exact ⟨low, be32_bytes32 ssrc⟩

theorem exists_other (x : UInt32) : ∃ y : UInt32, y ≠ x :=
  ⟨x + 1, by simp⟩

theorem onlyMediaConforms_iff (ptt : PttState) :
    OnlyMediaConforms ptt ↔ Serves (viewOf .ptt ptt) := by
  constructor
  · intro conforms u holds
    have holds' : currentSpeaker ptt.floor = some u := holds
    constructor
    · obtain ⟨ssrc, other⟩ := exists_other ptt.audioRewriter.virtualSsrc
      obtain ⟨typed, labelled⟩ := @bareHeader_fields opusPayloadType rfl ssrc
      have audio : isAudioPt (parseRtpHeader (bareHeader opusPayloadType ssrc)).pt = true := by
        rw [typed]
        rfl
      have here := (conforms u (bareHeader opusPayloadType ssrc) 0).mpr fun _ => .inl audio
      rw [fanout_audio holds' audio, labelled] at here
      exact here.resolve_right other
    · obtain ⟨ssrc, other⟩ := exists_other ptt.videoRewriter.virtualSsrc
      obtain ⟨typed, labelled⟩ := @bareHeader_fields vp8PayloadType rfl ssrc
      have video : isVideoPt (parseRtpHeader (bareHeader vp8PayloadType ssrc)).pt = true := by
        rw [typed]
        rfl
      have here := (conforms u (bareHeader vp8PayloadType ssrc) 0).mpr fun _ => .inr video
      rw [fanout_video holds' video, labelled] at here
      exact here.resolve_right other
  · intro serves sender p now
    by_cases holds : currentSpeaker ptt.floor = some sender
    · obtain ⟨heard, seen⟩ := serves sender holds
      simp only [holds, forall_const]
      cases audio : isAudioPt (parseRtpHeader p).pt with
      | true => simp [fanout_audio holds audio, show ptt.audioRewriter.state.speaker = _ from heard]
      | false =>
        cases video : isVideoPt (parseRtpHeader p).pt with
        | true => simp [fanout_video holds video, show ptt.videoRewriter.state.speaker = _ from seen]
        | false =>
          obtain ⟨passed, foreign⟩ : Fanout ptt sender p now = some p ∧ ¬ OnVirtualSsrc ptt p :=
            fanout_other holds audio video
          simp only [Bool.false_eq_true, or_self, iff_false]
          exact fun conforms => foreign (conforms p passed)
    · simp [Conforms, fanout_gated holds, holds]

/-- In every PTT room, for every participant and every packet. -/
def RoomsConform (hub : RoomHub) : Prop :=
  ∀ r room, hub.rooms.lookup r = some room → room.mode = .ptt → OnlyMediaConforms room.toPttState

theorem roomsConform_iff (hub : RoomHub) : RoomsConform hub ↔ EveryPtt Serves hub := by
  constructor
  · intro conform r v found ptt
    rw [floorView, Option.map_eq_some_iff] at found
    obtain ⟨room, held, rfl⟩ := found
    exact (onlyMediaConforms_iff room.toPttState).mp (conform r room held ptt)
  · intro every r room held ptt
    exact (onlyMediaConforms_iff room.toPttState).mpr
      (every r _ (by rw [floorView, held, Option.map_some, ptt]) rfl)

theorem fanout_virtual_iff_media (hmacSha1 : Bytes → Bytes → Bytes) (crc32 : Bytes → UInt32)
    (es : List Event) :
    Always (step hmacSha1 crc32) (fun s => RoomsConform s.hub) Server.new es ↔
      Guarded (step hmacSha1 crc32) NoSuccession Server.new es := by
  simp only [roomsConform_iff]
  exact everyPtt_iff_noSuccession hmacSha1 crc32 serves_audible es

/-- The floor holder retransmits on its own RTX SSRC 77. -/
def holderRtx : Bytes := bareHeader vp8RtxPayloadType 77

def holdsFloor : List Event := sampleRoom .ptt false :: joinAs 0 "a" 1 ++ [requestFloor 0]

theorem holder_rtx_passes :
    ¬ ∀ (hmacSha1 : Bytes → Bytes → Bytes) (crc32 : Bytes → UInt32) (es : List Event) r room,
      (run (step hmacSha1 crc32) Server.new es).hub.rooms.lookup r = some room →
        room.mode = .ptt → ∀ sender p now, Conforms room.toPttState sender p now := by
  intro holds
  let room := ((run (step (fun _ _ => []) fun _ => 0) Server.new holdsFloor).hub.rooms.lookup
    "room").get (by decide)
  have conforms := holds (fun _ _ => []) (fun _ => 0) holdsFloor "room" room
    (Option.some_get _).symm (by decide) "a" holderRtx 0
  have passed : Fanout room.toPttState "a" holderRtx 0 = some holderRtx := by decide
  exact absurd (conforms holderRtx passed) (by decide)

end FanoutSsrc
