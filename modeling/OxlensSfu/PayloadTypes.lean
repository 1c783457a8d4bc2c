import OxlensSfu.Ingress

/-
Normalisation of payload types against the codecs they stand for. A track that declared
no payload type is sent under the standard one of its codec.
-/
namespace PayloadTypes
open WireBytes SfuConfig RtpPacket Participants Signaling TrackHandlers Ingress

inductive Codec where
  | opus
  | video (codec : VideoCodec)
  | rtx
  deriving DecidableEq, Repr

def mediaCodec (t : Track) : Codec :=
  match t.kind with
  | .audio => .opus
  | .video => .video t.videoCodec

def sentPt (t : Track) : UInt8 :=
  if t.actualPt = 0 then
    match t.kind with
    | .audio => opusPayloadType
    | .video => t.videoCodec.standardPt
  else t.actualPt

/-- What the client sends under a payload type. -/
inductive Uses (tracks : List Track) (pt : UInt8) : Codec → Prop
  | media (t : Track) : t ∈ tracks → sentPt t = pt → Uses tracks pt (mediaCodec t)
  | rtx (t : Track) : t ∈ tracks → pt ≠ 0 → t.actualRtxPt = pt → Uses tracks pt .rtx

/-- No payload type stands for two codecs. -/
def Unambiguous (tracks : List Track) : Prop :=
  ∀ pt c d, Uses tracks pt c → Uses tracks pt d → c = d

def usesOf (t : Track) : List (UInt8 × Codec) :=
  (sentPt t, mediaCodec t) :: if t.actualRtxPt = 0 then [] else [(t.actualRtxPt, .rtx)]

theorem uses_iff (tracks : List Track) (pt : UInt8) (c : Codec) :
    Uses tracks pt c ↔ (pt, c) ∈ tracks.flatMap usesOf := by
  rw [List.mem_flatMap]
  constructor
  · rintro (⟨t, member, rfl⟩ | ⟨t, member, declared, rfl⟩)
    · exact ⟨t, member, List.mem_cons_self⟩
    · exact ⟨t, member, by simp [usesOf, declared]⟩
  · rintro ⟨t, member, used⟩
    unfold usesOf at used
    rcases List.mem_cons.mp used with media | rtx
    · obtain ⟨rfl, rfl⟩ := Prod.mk.inj media
      exact .media t member rfl
    · split at rtx
      · simp at rtx
      · rename_i declared
        obtain ⟨rfl, rfl⟩ := Prod.mk.inj (List.mem_singleton.mp rtx)
        exact .rtx t member declared rfl

/-- The definition on the list of all uses, for evaluation. -/
instance (tracks : List Track) : Decidable (Unambiguous tracks) :=
  decidable_of_iff ((tracks.flatMap usesOf).all (fun a =>
      (tracks.flatMap usesOf).all fun b => a.1 != b.1 || a.2 == b.2) = true) <| by
    simp only [List.all_eq_true, Bool.or_eq_true, bne_iff_ne, beq_iff_eq, Unambiguous, uses_iff]
    constructor
    · intro apart pt c d left right
      exact (apart _ left _ right).resolve_left fun other => other rfl
    · intro clear a left b right
      by_cases same : a.1 = b.1
      · exact .inr (clear a.1 a.2 b.2 left (same ▸ right))
      · exact .inl same

/-- A media packet of the track. -/
structure SentBy (t : Track) (p : Bytes) : Prop where
  ssrc : (parseRtpHeader p).ssrc = t.ssrc
  pt : (parseRtpHeader p).pt = sentPt t

/-- The two packets differ at most in the low seven bits of byte 1. -/
structure SameButPt (p out : Bytes) : Prop where
  length : out.length = p.length
  others : ∀ i, i ≠ 1 → byteAt out i = byteAt p i
  marker : byteAt out 1 &&& 0x80 = byteAt p 1 &&& 0x80

structure KeepsCodec (t : Track) (p : Bytes) (out : Bytes × RtpHeader) : Prop where
  header : out.2 = parseRtpHeader out.1
  audio : isAudioPt out.2.pt = true ↔ t.kind = .audio
  video : isVideoPt out.2.pt = true ↔ t.kind = .video
  standard : t.kind = .video → out.2.pt = t.videoCodec.standardPt
  same : SameButPt p out.1

/-- The tracks of a participant after its PUBLISH_TRACKS requests. -/
def publishedTracks (joinedAt : Nat) (u : String) (reqs : List PublishTracksRequest) : List Track :=
  (reqs.foldl (fun s req => (publishAll s u req).state) (.new joinedAt)).tracks

theorem standardPt_video (c : VideoCodec) : isVideoPt c.standardPt = true := by cases c <;> rfl
theorem standardPt_not_audio (c : VideoCodec) : isAudioPt c.standardPt = false := by cases c <;> rfl

theorem sentPt_ne_zero (t : Track) : sentPt t ≠ 0 := by
  unfold sentPt
  split
  · split
    · decide
    · cases t.videoCodec <;> decide
  · assumption

/-- The three outcomes of the lookup. -/
theorem normalizePt_cases (tracks : List Track) (p : Bytes) :
    (∃ t ∈ tracks, t.actualPt ≠ 0 ∧ t.actualPt = (parseRtpHeader p).pt ∧
      normalizePt tracks p = retype p (parseRtpHeader p) t.videoCodec.standardPt) ∨
    (∀ t ∈ tracks, t.actualPt ≠ 0 → t.actualPt ≠ (parseRtpHeader p).pt) ∧
      ((∃ t ∈ tracks, t.actualRtxPt ≠ 0 ∧ t.actualRtxPt = (parseRtpHeader p).pt ∧
        normalizePt tracks p = retype p (parseRtpHeader p) t.videoCodec.standardRtxPt) ∨
      normalizePt tracks p = (p, parseRtpHeader p)) := by
  unfold normalizePt
  simp only
  split
  · rename_i t found
    have held := List.find?_some found
    simp only [Bool.and_eq_true, bne_iff_ne, ne_eq, beq_iff_eq] at held
    exact .inl ⟨t, List.mem_of_find?_eq_some found, held.1, held.2, rfl⟩
  · rename_i absent
    refine .inr ⟨fun t member declared same => ?_, ?_⟩
    · have missed := List.find?_eq_none.mp absent t member
      simp only [same, beq_self_eq_true, Bool.and_true, bne_iff_ne, ne_eq, not_not] at missed
      exact declared (same.trans missed)
    split
    · rename_i t found
      have held := List.find?_some found
      simp only [Bool.and_eq_true, bne_iff_ne, ne_eq, beq_iff_eq] at held
      exact .inl ⟨t, List.mem_of_find?_eq_some found, held.1, held.2, rfl⟩
    · exact .inr rfl

theorem retype_same {p : Bytes} (long : 12 ≤ p.length) (hdr : RtpHeader) {pt : UInt8}
    (top : pt &&& 0x80 = 0) (low : pt &&& 0x7F = pt) : SameButPt p (retype p hdr pt).1 := by
  refine ⟨length_retype long hdr pt, fun i other => retype_other long hdr pt other, ?_⟩
  rw [retype_octet long]
  exact (retyped_octet (byteAt p 1) top low).2

/-- Of every packet only the low seven bits of byte 1 ever change. -/
theorem normalizePt_same (tracks : List Track) (p : Bytes) :
    SameButPt p (normalizePt tracks p).1 := by
  rcases normalizePt_cases tracks p with ⟨t, _, typed, same, result⟩ |
    ⟨_, ⟨t, _, typed, same, result⟩ | result⟩
  · rw [result]
    cases t.videoCodec <;> exact retype_same (long_of_typed (same ▸ typed)) _ rfl rfl
  · rw [result]
    cases t.videoCodec <;> exact retype_same (long_of_typed (same ▸ typed)) _ rfl rfl
  · rw [result]
    exact ⟨rfl, fun _ _ => rfl, rfl⟩

section Sent
variable {tracks : List Track} {t : Track} {p : Bytes}

/-- The track that a declared payload type leads to has the codec of the packet. -/
theorem found_codec (clear : Unambiguous tracks) (member : t ∈ tracks) (sent : SentBy t p)
    {t' : Track} (other : t' ∈ tracks) (declared : t'.actualPt ≠ 0)
    (same : t'.actualPt = (parseRtpHeader p).pt) : mediaCodec t' = mediaCodec t := by
  have sends : sentPt t' = (parseRtpHeader p).pt := by rw [sentPt, if_neg declared, same]
  exact clear _ _ _ (.media t' other sends) (.media t member sent.pt.symm)

/-- The payload type after normalisation, whatever the codec. -/
theorem normalizePt_pt (clear : Unambiguous tracks) (member : t ∈ tracks) (sent : SentBy t p) :
    (∃ t' ∈ tracks, t'.actualPt = sentPt t ∧ mediaCodec t' = mediaCodec t ∧
      (normalizePt tracks p).2.pt = t'.videoCodec.standardPt) ∨
    (∀ t' ∈ tracks, t'.actualPt ≠ sentPt t) ∧ t.actualPt = 0 ∧
      (normalizePt tracks p).2.pt = sentPt t := by
  rcases normalizePt_cases tracks p with ⟨t', other, declared, same, result⟩ | ⟨none, rest⟩
  · refine .inl ⟨t', other, same.trans sent.pt, found_codec clear member sent other declared same, ?_⟩
    rw [result]
    rfl
  have silent : ∀ t' ∈ tracks, t'.actualPt ≠ sentPt t := by
    intro t' other same
    exact none t' other (same ▸ sentPt_ne_zero t) (same.trans sent.pt.symm)
  have undeclared : t.actualPt = 0 := by
    by_contra declared
    exact silent t member (by rw [sentPt, if_neg declared])
  rcases rest with ⟨t', other, declared, same, _⟩ | result
  · have repair : Codec.rtx = mediaCodec t :=
      clear _ _ _ (.rtx t' other (same ▸ declared) same) (.media t member sent.pt.symm)
    simp only [mediaCodec] at repair
    split at repair <;> simp at repair
  · exact .inr ⟨silent, undeclared, by rw [result]; exact sent.pt⟩

theorem codec_video {t' : Track} (kind : t.kind = .video) (same : mediaCodec t' = mediaCodec t) :
    t'.videoCodec = t.videoCodec := by
  unfold mediaCodec at same
  rw [kind] at same
  split at same
  · simp at same
  · exact Codec.video.inj same

theorem codec_audio {t' : Track} (kind : t.kind = .audio) (same : mediaCodec t' = mediaCodec t) :
    t'.kind = .audio := by
  unfold mediaCodec at same
  rw [kind] at same
  split at same
  · assumption
  · simp at same

/-- Video comes out under the standard payload type of its codec. -/
theorem video_pt (clear : Unambiguous tracks) (member : t ∈ tracks) (sent : SentBy t p)
    (kind : t.kind = .video) : (normalizePt tracks p).2.pt = t.videoCodec.standardPt := by
  rcases normalizePt_pt clear member sent with ⟨t', _, _, same, result⟩ | ⟨_, undeclared, result⟩
  · rw [result, codec_video kind same]
  · rw [result, sentPt, if_pos undeclared, kind]

/-- Audio stays audio as long as its payload type was not declared: the lookup makes
    every declared one a video payload type. -/
theorem audio_pt (clear : Unambiguous tracks) (member : t ∈ tracks) (sent : SentBy t p)
    (kind : t.kind = .audio) :
    if ∃ t' ∈ tracks, t'.kind = .audio ∧ t'.actualPt = sentPt t then
      isVideoPt (normalizePt tracks p).2.pt = true
    else (normalizePt tracks p).2.pt = opusPayloadType := by
  rcases normalizePt_pt clear member sent with ⟨t', other, declared, same, result⟩ |
    ⟨silent, undeclared, result⟩
  · rw [if_pos ⟨t', other, codec_audio kind same, declared⟩, result]
    exact standardPt_video _
  · rw [if_neg (by rintro ⟨t', other, _, declared⟩; exact silent t' other declared), result, sentPt,
      if_pos undeclared, kind]

end Sent

/-- Normalisation keeps the codec of a media packet exactly when it is video, or audio
    under a payload type that no audio track has declared. -/
theorem normalizePt_keeps_codec_iff (tracks : List Track) (clear : Unambiguous tracks) (t : Track)
    (member : t ∈ tracks) (p : Bytes) (sent : SentBy t p) :
    KeepsCodec t p (normalizePt tracks p) ↔
      (t.kind = .audio → ∀ t' ∈ tracks, t'.kind = .audio → t'.actualPt ≠ sentPt t) := by
  constructor
  · intro keeps kind t' other audio declared
    have video := audio_pt clear member sent kind
    rw [if_pos ⟨t', other, audio, declared⟩, keeps.video, kind] at video
    simp at video
  intro apart
  have header := normalizePt_header tracks p
  have same := normalizePt_same tracks p
  cases kind : t.kind with
  | video =>
    have standard := video_pt clear member sent kind
    refine ⟨header, ?_, ?_, fun _ => standard, same⟩
    · simp [standard, kind, standardPt_not_audio]
    · simp [standard, kind, standardPt_video]
  | audio =>
    have opus := audio_pt clear member sent kind
    rw [if_neg (by rintro ⟨t', other, audio, declared⟩; exact apart kind t' other audio declared)]
      at opus
    refine ⟨header, ?_, ?_, by simp [kind], same⟩
    · simp [opus, kind, isAudioPt]
    · simp only [opus, kind, reduceCtorEq, iff_false]
      decide

/-- Each of the two video tracks declares the standard payload types of the other codec. -/
def swappedVideos : PublishTracksRequest where
  tracks := [⟨"audio", 11, none, none, none, none⟩,
    ⟨"video", 12, none, some "H264", some 96, some 97⟩,
    ⟨"video", 13, none, some "VP8", some 102, some 103⟩]
  twccExtmapId := none

theorem swapped_vp8_kept :
    ∃ t ∈ publishedTracks 0 "a" [swappedVideos], t.videoCodec = .vp8 ∧ t.actualPt = 102 ∧
      KeepsCodec t (0x80 :: 102 :: List.replicate 9 0 ++ [13])
        (normalizePt (publishedTracks 0 "a" [swappedVideos])
          (0x80 :: 102 :: List.replicate 9 0 ++ [13])) := by
  have member : ⟨13, .video, "a_2", some 1014, false, none, none, .vp8, 102, 103⟩ ∈
      publishedTracks 0 "a" [swappedVideos] := by decide +kernel
  exact ⟨_, member, rfl, rfl, (normalizePt_keeps_codec_iff _ (by decide +kernel) _ member _
    ⟨by decide, by decide⟩).mpr (by simp)⟩

/-- An audio track that declares its payload type, even the standard one, becomes video. -/
theorem declared_audio_becomes_video :
    ¬ ∀ (joinedAt : Nat) (u : String) (reqs : List PublishTracksRequest),
      Unambiguous (publishedTracks joinedAt u reqs) →
        ∀ t ∈ publishedTracks joinedAt u reqs, ∀ p, SentBy t p →
          KeepsCodec t p (normalizePt (publishedTracks joinedAt u reqs) p) := by
  intro holds
  let reqs : List PublishTracksRequest := [⟨[⟨"audio", 11, none, none, some 111, none⟩], none⟩]
  have keeps := holds 0 "a" reqs (by decide +kernel)
    ⟨11, .audio, "a_0", none, false, none, none, .vp8, 111, 0⟩ (by decide +kernel)
    (0x80 :: 111 :: List.replicate 9 0 ++ [11]) ⟨by decide, by decide⟩
  exact absurd (keeps.audio.mpr rfl) (by decide +kernel)

end PayloadTypes
