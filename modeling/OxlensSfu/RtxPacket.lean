import OxlensSfu.RtpPacket

/- Retransmission packets: an original packet with its number moved into the payload. -/
namespace RtxPacket
open WireBytes SfuConfig RtpPacket

def headerEnd (p : Bytes) : Nat := 12 + csrcCount p * 4

/-- The header up to the CSRC list, renumbered; then the original number; then
    everything that followed the CSRC list. -/
def buildRtxPacket (original : Bytes) (rtxSsrc : UInt32) (rtxSeq : UInt16) : Bytes :=
  if original.length < rtpHeaderMinSize then []
  else if original.length < headerEnd original then []
  else
    overwrite (overwrite (overwrite (original.take (headerEnd original))
      1 [rtxPtFor (byteAt original 1 &&& 0x7F)]) 2 (bytes16 rtxSeq)) 8 (bytes32 rtxSsrc) ++
    bytes16 (u16At original 2) ++ original.drop (headerEnd original)

/-- What a receiver does with an RTX packet that has no header extension: the two
    bytes after the CSRC list become the sequence number. -/
def restore (rtx : Bytes) (mediaSsrc : UInt32) : Bytes :=
  overwrite (overwrite (rtx.take (headerEnd rtx)) 2 (slice rtx (headerEnd rtx) (headerEnd rtx + 2)))
    8 (bytes32 mediaSsrc) ++ rtx.drop (headerEnd rtx + 2)

section Layout
variable {p : Bytes} (ssrc : UInt32) (seq : UInt16)

def rtxHeader (p : Bytes) (ssrc : UInt32) (seq : UInt16) : Bytes :=
  overwrite (overwrite (overwrite (p.take (headerEnd p)) 1 [rtxPtFor (byteAt p 1 &&& 0x7F)])
    2 (bytes16 seq)) 8 (bytes32 ssrc)

theorem buildRtxPacket_eq (complete : headerEnd p ≤ p.length) :
    buildRtxPacket p ssrc seq =
      rtxHeader p ssrc seq ++ (bytes16 (u16At p 2) ++ p.drop (headerEnd p)) := by
  have fixed : ¬ p.length < rtpHeaderMinSize := by
    simp only [headerEnd, rtpHeaderMinSize] at complete ⊢
    omega
  rw [buildRtxPacket, if_neg fixed, if_neg (Nat.not_lt.mpr complete), List.append_assoc, rtxHeader]

theorem rtxHeader_stages (complete : headerEnd p ≤ p.length) :
    (p.take (headerEnd p)).length = headerEnd p ∧
    (overwrite (p.take (headerEnd p)) 1 [rtxPtFor (byteAt p 1 &&& 0x7F)]).length = headerEnd p ∧
    (overwrite (overwrite (p.take (headerEnd p)) 1 [rtxPtFor (byteAt p 1 &&& 0x7F)])
      2 (bytes16 seq)).length = headerEnd p := by
  have room : 12 ≤ headerEnd p := by simp only [headerEnd]; omega
  have taken : (p.take (headerEnd p)).length = headerEnd p := by simp [complete]
  have typed : (overwrite (p.take (headerEnd p)) 1 [rtxPtFor (byteAt p 1 &&& 0x7F)]).length =
      headerEnd p := by
    rw [length_overwrite (by rw [taken, List.length_singleton]; omega), taken]
  refine ⟨taken, typed, ?_⟩
  rw [length_overwrite (by rw [typed, length_bytes16]; omega), typed]

theorem length_rtxHeader (complete : headerEnd p ≤ p.length) :
    (rtxHeader p ssrc seq).length = headerEnd p := by
  obtain ⟨_, _, numbered⟩ := rtxHeader_stages seq complete
  have room : 12 ≤ headerEnd p := by simp only [headerEnd]; omega
  rw [rtxHeader, length_overwrite (by rw [numbered, length_bytes32]; omega), numbered]

theorem rtxHeader_seq (complete : headerEnd p ≤ p.length) :
    u16At (rtxHeader p ssrc seq) 2 = seq := by
  obtain ⟨_, typed, numbered⟩ := rtxHeader_stages seq complete
  have room : 12 ≤ headerEnd p := by simp only [headerEnd]; omega
  rw [rtxHeader, u16At_overwrite_outside (by rw [numbered, length_bytes32]; omega) (by omega),
    u16At_overwrite seq (by omega)]

theorem rtxHeader_ssrc (complete : headerEnd p ≤ p.length) :
    u32At (rtxHeader p ssrc seq) 8 = ssrc := by
  obtain ⟨_, _, numbered⟩ := rtxHeader_stages seq complete
  have room : 12 ≤ headerEnd p := by simp only [headerEnd]; omega
  rw [rtxHeader, u32At_overwrite ssrc (by omega)]

/-- The first octet, the timestamp and the CSRC list are the original's. -/
theorem rtxHeader_kept (complete : headerEnd p ≤ p.length) {k : Nat} (inside : k < headerEnd p)
    (kept : k < 1 ∨ (4 ≤ k ∧ k < 8) ∨ 12 ≤ k) :
    byteAt (rtxHeader p ssrc seq) k = byteAt p k := by
  obtain ⟨taken, typed, numbered⟩ := rtxHeader_stages seq complete
  have room : 12 ≤ headerEnd p := by simp only [headerEnd]; omega
  rw [rtxHeader,
    byteAt_overwrite_outside (by rw [numbered, length_bytes32]; omega)
      (by rw [length_bytes32]; omega),
    byteAt_overwrite_outside (by rw [typed, length_bytes16]; omega)
      (by rw [length_bytes16]; omega),
    byteAt_overwrite_outside (by rw [taken, List.length_singleton]; omega)
      (by rw [List.length_singleton]; omega),
    byteAt_take inside]

theorem rtx_byte_kept (complete : headerEnd p ≤ p.length) {k : Nat} (inside : k < headerEnd p)
    (kept : k < 1 ∨ (4 ≤ k ∧ k < 8) ∨ 12 ≤ k) :
    byteAt (buildRtxPacket p ssrc seq) k = byteAt p k := by
  rw [buildRtxPacket_eq ssrc seq complete,
    byteAt_append_left (by rw [length_rtxHeader ssrc seq complete]; exact inside),
    rtxHeader_kept ssrc seq complete inside kept]

theorem length_rtx (complete : headerEnd p ≤ p.length) :
    (buildRtxPacket p ssrc seq).length = p.length + 2 := by
  simp only [buildRtxPacket_eq ssrc seq complete, List.length_append, List.length_drop,
    length_rtxHeader ssrc seq complete, length_bytes16]
  omega

theorem headerEnd_rtx (complete : headerEnd p ≤ p.length) :
    headerEnd (buildRtxPacket p ssrc seq) = headerEnd p := by
  have zero : byteAt (buildRtxPacket p ssrc seq) 0 = byteAt p 0 :=
    rtx_byte_kept ssrc seq complete (by simp only [headerEnd]; omega) (by omega)
  simp only [headerEnd, csrcCount, zero]

theorem hasExtension_rtx (complete : headerEnd p ≤ p.length) :
    hasExtension (buildRtxPacket p ssrc seq) = hasExtension p := by
  have zero : byteAt (buildRtxPacket p ssrc seq) 0 = byteAt p 0 :=
    rtx_byte_kept ssrc seq complete (by simp only [headerEnd]; omega) (by omega)
  simp only [hasExtension, zero]

theorem rtx_seq (complete : headerEnd p ≤ p.length) : u16At (buildRtxPacket p ssrc seq) 2 = seq := by
  have len := length_rtxHeader ssrc seq complete
  have room : 12 ≤ headerEnd p := by simp only [headerEnd]; omega
  rw [buildRtxPacket_eq ssrc seq complete, u16At_append_left (by omega),
    rtxHeader_seq ssrc seq complete]

theorem rtx_ssrc (complete : headerEnd p ≤ p.length) :
    u32At (buildRtxPacket p ssrc seq) 8 = ssrc := by
  have len := length_rtxHeader ssrc seq complete
  have room : 12 ≤ headerEnd p := by simp only [headerEnd]; omega
  rw [buildRtxPacket_eq ssrc seq complete, u32At_append_left (by omega),
    rtxHeader_ssrc ssrc seq complete]

theorem rtx_ts (complete : headerEnd p ≤ p.length) :
    u32At (buildRtxPacket p ssrc seq) 4 = u32At p 4 := by
  have room : 12 ≤ headerEnd p := by simp only [headerEnd]; omega
  simp only [u32At]
  rw [rtx_byte_kept ssrc seq complete (by omega) (by omega),
    rtx_byte_kept ssrc seq complete (by omega) (by omega),
    rtx_byte_kept ssrc seq complete (by omega) (by omega),
    rtx_byte_kept ssrc seq complete (by omega) (by omega)]

/-- Past the CSRC list: the original number, then the original bytes. -/
theorem rtx_drop_header (complete : headerEnd p ≤ p.length) :
    (buildRtxPacket p ssrc seq).drop (headerEnd p) =
      bytes16 (u16At p 2) ++ p.drop (headerEnd p) := by
  rw [buildRtxPacket_eq ssrc seq complete]
  exact List.drop_left' (length_rtxHeader ssrc seq complete)

theorem rtx_osn (complete : headerEnd p ≤ p.length) :
    u16At (buildRtxPacket p ssrc seq) (headerEnd p) = u16At p 2 := by
  have tail : ∀ k, byteAt (buildRtxPacket p ssrc seq) (headerEnd p + k) =
      byteAt (bytes16 (u16At p 2) ++ p.drop (headerEnd p)) k := by
    intro k
    rw [← byteAt_drop, rtx_drop_header ssrc seq complete]
  have low := tail 0
  have high := tail 1
  rw [Nat.add_zero] at low
  rw [u16At, low, high]
  exact be16_bytes16 _

/-- Past the number, every byte of the original is found two places further on. -/
theorem rtx_shifted (complete : headerEnd p ≤ p.length) (k : Nat) :
    byteAt (buildRtxPacket p ssrc seq) (headerEnd p + 2 + k) = byteAt p (headerEnd p + k) := by
  rw [Nat.add_assoc, ← byteAt_drop, rtx_drop_header ssrc seq complete,
    byteAt_append_right (by simp), length_bytes16, Nat.add_sub_cancel_left, byteAt_drop]

theorem rtx_drop_payload (complete : headerEnd p ≤ p.length) {o : Nat} (after : headerEnd p ≤ o) :
    (buildRtxPacket p ssrc seq).drop (o + 2) = p.drop o := by
  have split : o + 2 = headerEnd p + (o - headerEnd p + 2) := by omega
  rw [split, ← List.drop_drop, rtx_drop_header ssrc seq complete, List.drop_append,
    List.drop_eq_nil_of_le (by simp), List.nil_append, length_bytes16, List.drop_drop]
  congr 1
  omega

/-- The header of the RTX packet with the number and the SSRC put back. -/
def restoredHeader (p : Bytes) (ssrc : UInt32) (seq : UInt16) (mediaSsrc : UInt32) : Bytes :=
  overwrite (overwrite (rtxHeader p ssrc seq) 2 (bytes16 (u16At p 2))) 8 (bytes32 mediaSsrc)

theorem restore_eq (complete : headerEnd p ≤ p.length) (mediaSsrc : UInt32) :
    restore (buildRtxPacket p ssrc seq) mediaSsrc =
      restoredHeader p ssrc seq mediaSsrc ++ p.drop (headerEnd p) := by
  have len := length_rtx ssrc seq complete
  have header : (buildRtxPacket p ssrc seq).take (headerEnd p) = rtxHeader p ssrc seq := by
    rw [buildRtxPacket_eq ssrc seq complete]
    exact List.take_left' (length_rtxHeader ssrc seq complete)
  rw [restore, headerEnd_rtx ssrc seq complete, header, slice_two (by omega),
    rtx_osn ssrc seq complete, rtx_drop_payload ssrc seq complete (Nat.le_refl _), restoredHeader]

theorem restoredHeader_stages (complete : headerEnd p ≤ p.length) (mediaSsrc : UInt32) :
    (overwrite (rtxHeader p ssrc seq) 2 (bytes16 (u16At p 2))).length = headerEnd p ∧
      (restoredHeader p ssrc seq mediaSsrc).length = headerEnd p := by
  have room : 12 ≤ headerEnd p := by simp only [headerEnd]; omega
  have len := length_rtxHeader ssrc seq complete
  have numbered : (overwrite (rtxHeader p ssrc seq) 2 (bytes16 (u16At p 2))).length =
      headerEnd p := by
    rw [length_overwrite (by rw [len, length_bytes16]; omega), len]
  refine ⟨numbered, ?_⟩
  rw [restoredHeader, length_overwrite (by rw [numbered, length_bytes32]; omega), numbered]

theorem restoredHeader_kept (complete : headerEnd p ≤ p.length) (mediaSsrc : UInt32) {k : Nat}
    (kept : k = 0 ∨ (4 ≤ k ∧ k < 8)) :
    byteAt (restoredHeader p ssrc seq mediaSsrc) k = byteAt p k := by
  have room : 12 ≤ headerEnd p := by simp only [headerEnd]; omega
  have len := length_rtxHeader ssrc seq complete
  obtain ⟨numbered, _⟩ := restoredHeader_stages ssrc seq complete mediaSsrc
  rw [restoredHeader, byteAt_overwrite_outside (by rw [length_bytes32]; omega) (by simp; omega),
    byteAt_overwrite_outside (by rw [length_bytes16]; omega) (by simp; omega),
    rtxHeader_kept ssrc seq complete (by omega) (by omega)]

theorem restored_byte (complete : headerEnd p ≤ p.length) (mediaSsrc : UInt32) {k : Nat}
    (inside : k < 12) : byteAt (restore (buildRtxPacket p ssrc seq) mediaSsrc) k =
      byteAt (restoredHeader p ssrc seq mediaSsrc) k := by
  have room : 12 ≤ headerEnd p := by simp only [headerEnd]; omega
  obtain ⟨_, len⟩ := restoredHeader_stages ssrc seq complete mediaSsrc
  rw [restore_eq ssrc seq complete, byteAt_append_left (by omega)]

theorem restored_seq (complete : headerEnd p ≤ p.length) (mediaSsrc : UInt32) :
    u16At (restore (buildRtxPacket p ssrc seq) mediaSsrc) 2 = u16At p 2 := by
  have room : 12 ≤ headerEnd p := by simp only [headerEnd]; omega
  have len := length_rtxHeader ssrc seq complete
  obtain ⟨numbered, _⟩ := restoredHeader_stages ssrc seq complete mediaSsrc
  have header : u16At (restoredHeader p ssrc seq mediaSsrc) 2 = u16At p 2 := by
    rw [restoredHeader, u16At_overwrite_outside (by rw [length_bytes32]; omega) (by omega),
      u16At_overwrite _ (by omega)]
  rw [← header, u16At, restored_byte ssrc seq complete mediaSsrc (by omega),
    restored_byte ssrc seq complete mediaSsrc (by omega), u16At]

theorem restored_ts (complete : headerEnd p ≤ p.length) (mediaSsrc : UInt32) :
    u32At (restore (buildRtxPacket p ssrc seq) mediaSsrc) 4 = u32At p 4 := by
  have kept : ∀ k, 4 ≤ k → k < 8 →
      byteAt (restore (buildRtxPacket p ssrc seq) mediaSsrc) k = byteAt p k := by
    intro k lower upper
    rw [restored_byte ssrc seq complete mediaSsrc (by omega),
      restoredHeader_kept ssrc seq complete mediaSsrc (.inr ⟨lower, upper⟩)]
  rw [u32At, kept 4 (by omega) (by omega), kept (4 + 1) (by omega) (by omega),
    kept (4 + 2) (by omega) (by omega), kept (4 + 3) (by omega) (by omega), u32At]

theorem restored_payload (complete : headerEnd p ≤ p.length) (mediaSsrc : UInt32) :
    let restored := restore (buildRtxPacket p ssrc seq) mediaSsrc
    restored.drop (headerEnd restored) = p.drop (headerEnd p) := by
  intro restored
  obtain ⟨_, len⟩ := restoredHeader_stages ssrc seq complete mediaSsrc
  have zero : byteAt restored 0 = byteAt p 0 :=
    (restored_byte ssrc seq complete mediaSsrc (by omega)).trans
      (restoredHeader_kept ssrc seq complete mediaSsrc (.inl rfl))
  have header : headerEnd restored = headerEnd p := by
    simp only [headerEnd, csrcCount, zero]
  have split : restored = restoredHeader p ssrc seq mediaSsrc ++ p.drop (headerEnd p) :=
    restore_eq ssrc seq complete mediaSsrc
  rw [header, split]
  exact List.drop_left' len

end Layout
/-- A receiver that parses the RTX packet `r` by the RTP header rules gets back the
    number and the payload of `p`, and sees the header of `p` otherwise. -/
structure RoundTrips (p r : Bytes) (o : Nat) (ssrc : UInt32) (seq : UInt16) : Prop where
  payloadOffset : rtpPayloadOffset r = some o
  originalSeq : slice r o (o + 2) = bytes16 (u16At p 2)
  payload : r.drop (o + 2) = p.drop o
  csrcCount : csrcCount r = csrcCount p
  extensionBit : hasExtension r = hasExtension p
  listAndExtension : slice r 12 o = slice p 12 o
  ssrc : u32At r 8 = ssrc
  seq : u16At r 2 = seq
  timestamp : u32At r 4 = u32At p 4

/-- No header extension, or one made of the packet's own sequence number only. -/
def SurvivesOsn (p : Bytes) (o : Nat) : Prop :=
  hasExtension p = false ∨
    ∀ k, headerEnd p + 2 * k < o → u16At p (headerEnd p + 2 * k) = u16At p 2

section RoundTrip
variable {p : Bytes} {o : Nat} {ssrc : UInt32} {seq : UInt16}

theorem complete_of_offset (found : rtpPayloadOffset p = some o) :
    headerEnd p ≤ o ∧ headerEnd p ≤ p.length := by
  have inside := payloadOffset_inside found
  simp only [headerEnd]
  omega

/-- The extension is a whole number of 32-bit words. -/
theorem extension_words (found : rtpPayloadOffset p = some o) (extended : hasExtension p = true) :
    ∃ m, o = headerEnd p + 2 + 2 * m ∧ 1 ≤ m := by
  obtain ⟨offset, _⟩ := (payloadOffset_extended extended o).mp found
  refine ⟨1 + (u16At p (headerEnd p + 2)).toNat * 2, ?_, by omega⟩
  simp only [headerEnd] at *
  omega

theorem rtx_words (found : rtpPayloadOffset p = some o) (m : Nat) :
    u16At (buildRtxPacket p ssrc seq) (headerEnd p + 2 + 2 * m) = u16At p (headerEnd p + 2 * m) := by
  have complete := (complete_of_offset found).2
  rw [u16At, Nat.add_assoc _ (2 * m) 1, rtx_shifted ssrc seq complete,
    rtx_shifted ssrc seq complete]
  rfl

theorem survives_of_roundTrips (found : rtpPayloadOffset p = some o)
    (back : RoundTrips p (buildRtxPacket p ssrc seq) o ssrc seq) : SurvivesOsn p o := by
  have complete := (complete_of_offset found).2
  have inside := (payloadOffset_inside found).2
  by_cases extended : hasExtension p = true
  · right
    obtain ⟨m, even, _⟩ := extension_words found extended
    have room : 12 ≤ headerEnd p := by simp only [headerEnd]; omega
    have bytes := (slice_eq_iff (by rw [length_rtx ssrc seq complete]; omega)
      (by omega)).mp back.listAndExtension
    have words : ∀ k, 12 ≤ k → k + 1 < o →
        u16At p k = u16At (buildRtxPacket p ssrc seq) k := by
      intro k lower upper
      rw [u16At, u16At, bytes k lower (by omega), bytes (k + 1) (by omega) upper]
    intro k
    induction k with
    | zero =>
      intro _
      rw [Nat.mul_zero, Nat.add_zero, words _ room (by omega), rtx_osn ssrc seq complete]
    | succ k ih =>
      intro before
      have shift : headerEnd p + 2 * (k + 1) = headerEnd p + 2 + 2 * k := by omega
      rw [shift, words _ (by omega) (by omega), rtx_words found, ih (by omega)]
  · left
    simpa using extended

theorem csrcCount_rtx (complete : headerEnd p ≤ p.length) :
    csrcCount (buildRtxPacket p ssrc seq) = csrcCount p := by
  have sameEnd := headerEnd_rtx ssrc seq complete
  simp only [headerEnd] at sameEnd
  omega

/-- All that depends on the extension: the offset, the number at it, and the bytes before it. -/
structure ExtensionKept (p r : Bytes) (o : Nat) : Prop where
  offset : rtpPayloadOffset r = some o
  number : u16At r o = u16At p 2
  kept : ∀ k, headerEnd p ≤ k → k < o → byteAt r k = byteAt p k

theorem extensionKept_plain (found : rtpPayloadOffset p = some o)
    (plain : hasExtension p = false) : ExtensionKept p (buildRtxPacket p ssrc seq) o := by
  have complete := (complete_of_offset found).2
  obtain ⟨atEnd, whole⟩ := (payloadOffset_plain plain o).mp found
  have same : o = headerEnd p := atEnd
  constructor
  · rw [payloadOffset_plain (by rw [hasExtension_rtx ssrc seq complete, plain]),
      csrcCount_rtx complete, length_rtx ssrc seq complete]
    exact ⟨atEnd, by omega⟩
  · rw [same, rtx_osn ssrc seq complete]
  · intro k lower upper
    omega

/-- The extension moves by one number; if all its numbers are the same, it does not show. -/
theorem extension_kept_words (found : rtpPayloadOffset p = some o)
    (same : ∀ k, headerEnd p + 2 * k < o → u16At p (headerEnd p + 2 * k) = u16At p 2) (k : Nat)
    (before : headerEnd p + 2 * k < o) :
    u16At (buildRtxPacket p ssrc seq) (headerEnd p + 2 * k) = u16At p (headerEnd p + 2 * k) := by
  have complete := (complete_of_offset found).2
  cases k with
  | zero =>
    have first := same 0 before
    rw [Nat.mul_zero, Nat.add_zero] at first ⊢
    rw [rtx_osn ssrc seq complete, first]
  | succ k =>
    have shift : headerEnd p + 2 * (k + 1) = headerEnd p + 2 + 2 * k := by omega
    rw [same (k + 1) before, shift, rtx_words found, same k (by omega)]

theorem extensionKept_extended (found : rtpPayloadOffset p = some o)
    (extended : hasExtension p = true)
    (same : ∀ k, headerEnd p + 2 * k < o → u16At p (headerEnd p + 2 * k) = u16At p 2) :
    ExtensionKept p (buildRtxPacket p ssrc seq) o := by
  have complete := (complete_of_offset found).2
  have inside := (payloadOffset_inside found).2
  have len := length_rtx ssrc seq complete
  have words := @extension_kept_words p o ssrc seq found same
  obtain ⟨m, even, positive⟩ := extension_words found extended
  constructor
  · have length := words 1 (by omega)
    simp only [headerEnd, Nat.mul_one] at length
    rw [payloadOffset_extended (by rw [hasExtension_rtx ssrc seq complete, extended]),
      csrcCount_rtx complete, length, len]
    have original := (payloadOffset_extended extended o).mp found
    omega
  · rw [even, rtx_words found, same m (by omega)]
  · intro k lower upper
    have word := be16_injective (words ((k - headerEnd p) / 2) (by omega))
    rcases Nat.mod_two_eq_zero_or_one (k - headerEnd p) with low | high
    · have here : k = headerEnd p + 2 * ((k - headerEnd p) / 2) := by omega
      rw [here]
      exact word.1
    · have here : k = headerEnd p + 2 * ((k - headerEnd p) / 2) + 1 := by omega
      rw [here]
      exact word.2

theorem roundTrips_of_survives (found : rtpPayloadOffset p = some o) (survives : SurvivesOsn p o) :
    RoundTrips p (buildRtxPacket p ssrc seq) o ssrc seq := by
  obtain ⟨header, complete⟩ := complete_of_offset found
  have inside := (payloadOffset_inside found).2
  have room : 12 ≤ headerEnd p := by simp only [headerEnd]; omega
  have len := length_rtx ssrc seq complete
  obtain ⟨offset, osn, extension⟩ : ExtensionKept p (buildRtxPacket p ssrc seq) o := by
    cases extended : hasExtension p with
    | false => exact extensionKept_plain found extended
    | true =>
      have same := survives.resolve_left (by simp [extended])
      exact extensionKept_extended found extended same
  refine ⟨offset, ?_, rtx_drop_payload ssrc seq complete header, csrcCount_rtx complete,
    hasExtension_rtx ssrc seq complete, ?_, rtx_ssrc ssrc seq complete, rtx_seq ssrc seq complete,
    rtx_ts ssrc seq complete⟩
  · rw [slice_two (by omega), osn]
  · rw [slice_eq_iff (by omega) (by omega)]
    intro k lower upper
    by_cases before : k < headerEnd p
    · exact rtx_byte_kept ssrc seq complete before (.inr (.inr lower))
    · exact extension k (by omega) upper

end RoundTrip

theorem rtx_roundTrips_iff (p : Bytes) (o : Nat) (ssrc : UInt32) (seq : UInt16)
    (found : rtpPayloadOffset p = some o) :
    RoundTrips p (buildRtxPacket p ssrc seq) o ssrc seq ↔ SurvivesOsn p o :=
  ⟨survives_of_roundTrips found, roundTrips_of_survives found⟩

/-- A packet with one CSRC and no extension. -/
def plainPacket : Bytes := [0x81, 96, 0, 5, 0, 0, 0, 9, 0, 0, 0, 1, 0, 0, 0, 2, 0xAB]

/-- A packet with a one-word extension. -/
def extendedPacket : Bytes :=
  [0x90, 96, 0, 5, 0, 0, 0, 9, 0, 0, 0, 1, 0xBE, 0xDE, 0, 1, 0x10, 0xFF, 0, 0, 0xAB, 0xCD]

theorem rtx_roundTrips_plainPacket :
    RoundTrips plainPacket (buildRtxPacket plainPacket 77 3) 16 77 3 ↔ SurvivesOsn plainPacket 16 :=
  rtx_roundTrips_iff plainPacket 16 77 3 (by decide)

theorem rtx_breaks_extension : ¬ ∀ (p : Bytes) (o : Nat) (ssrc : UInt32) (seq : UInt16),
    rtpPayloadOffset p = some o → RoundTrips p (buildRtxPacket p ssrc seq) o ssrc seq := by
  intro holds
  have back := holds extendedPacket 20 77 3 (by decide)
  exact absurd back.payloadOffset (by decide)

end RtxPacket
