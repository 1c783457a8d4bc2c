import OxlensSfu.BurstMap

/- What a rewriter lets through, and what it writes. -/
namespace RewriterGate
open WireBytes PttRewriter GuardedRun BurstMap
open FloorControl (UserId)
open BurstNumbering (RewriterOp)

/-- Bytes 2 to 11 are the sequence number, the timestamp and the SSRC. -/
structure OnlyNumbers (first audio : Bool) (p out : Bytes) : Prop where
  length : out.length = p.length
  outside : ∀ k, k = 0 ∨ 12 ≤ k → byteAt out k = byteAt p k
  marker : byteAt out 1 = if first && audio then byteAt p 1 ||| 0x80 else byteAt p 1

/-- What Ok says of a packet. -/
structure Passed (t : Turn) (p : Bytes) (sender : UserId) (isKeyframe : Bool) (out : Bytes) : Prop where
  header : 12 ≤ p.length
  holder : t.holder = some sender
  keyframe : t.rewriter.requireKeyframe = true → t.sent = [] → isKeyframe = true
  numbers : OnlyNumbers t.sent.isEmpty (!t.rewriter.requireKeyframe) p out

theorem forward_numbers (r : Rewriter) {p : Bytes} (now : Instant) (long : 12 ≤ p.length) :
    OnlyNumbers r.state.awaitingFirstPacket (!r.requireKeyframe) p (forward r p now).2 := by
  obtain ⟨length, _, _, _, version, _, payload⟩ := forward_spec r now long
  refine ⟨length, ?_, ?_⟩
  · rintro k (rfl | behind)
    · exact version
    · have split : k = 12 + (k - 12) := by omega
      rw [split, ← byteAt_drop, ← byteAt_drop, payload]
  · have flag := @writeHeader_outside p (virtualSeq (anchorBurst r (u16At p 2) (u32At p 4) now) (u16At p 2))
      (virtualTs (anchorBurst r (u16At p 2) (u32At p 4) now) (u32At p 4)) r.virtualSsrc long 1 (by omega)
    simp only [forward]
    split
    · rw [byteAt_overwrite_inside (by rw [length_writeHeader _ _ _ long]; omega) (by omega) (by simp), flag]
      rfl
    · exact flag

theorem rewrite_gate (virtualSsrc tsGuardGap : UInt32) (requireKeyframe : Bool) (ops : List RewriterOp)
    (p : Bytes) (sender : UserId) (isKeyframe : Bool) (now : Instant) :
    let t := run step (start (.new virtualSsrc tsGuardGap requireKeyframe)) ops
    let (next, result, out) := rewrite t.rewriter p sender isKeyframe now
    (result = .ok → Passed t p sender isKeyframe out) ∧ (result ≠ .ok → next = t.rewriter ∧ out = p) := by
  intro t
  have sound : Sound requireKeyframe t := run_sound virtualSsrc tsGuardGap ops
  by_cases admitted : Admits t.rewriter p sender isKeyframe
  · rw [rewrite_admitted admitted now]
    refine ⟨fun _ => ?_, fun other => absurd rfl other⟩
    obtain ⟨long, speaks, key⟩ := admitted
    have holder : t.holder = some sender := sound.speaker.symm.trans speaks
    have first : t.rewriter.state.awaitingFirstPacket = t.sent.isEmpty := by
      rw [Bool.eq_iff_iff, sound.awaiting, holder, List.isEmpty_iff]
      simp
    refine ⟨long, holder, fun video fresh => key ?_, first ▸ forward_numbers t.rewriter now long⟩
    rw [sound.pending, first, ← sound.kind, video, fresh]
    rfl
  · obtain ⟨result, other, unchanged⟩ := rewrite_rejected admitted now
    rw [unchanged]
    exact ⟨fun ok => absurd ok other, fun _ => ⟨rfl, rfl⟩⟩

end RewriterGate
