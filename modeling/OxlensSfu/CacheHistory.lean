import Mathlib.Data.List.Induction
import OxlensSfu.Ingress

/- The packet cache against the plain history of what was stored. -/
namespace CacheHistory
open WireBytes SfuConfig RtpPacket Participants Ingress

/-- A call of `store` with a packet that carries its number. -/
structure StoreCall where
  seq : UInt16
  packet : Bytes
  long : 12 ≤ packet.length
  numbered : u16At packet 2 = seq

def replay (calls : List StoreCall) : RtpCache :=
  calls.foldl (fun c call => c.store call.seq call.packet) .new

def Congruent (a b : UInt16) : Prop := a.toNat % 512 = b.toNat % 512

instance (a b : UInt16) : Decidable (Congruent a b) := inferInstanceAs (Decidable (_ = _))

/-- The last call of the history with a number congruent to `seq`. -/
def lastCongruent (calls : List StoreCall) (seq : UInt16) : Option StoreCall :=
  calls.reverse.find? fun call => Congruent call.seq seq

/-- The history alone answers: the last congruent store, when it is the one asked for. -/
def answer (calls : List StoreCall) (seq : UInt16) : Option Bytes :=
  match lastCongruent calls seq with
  | some call => if call.seq = seq then some call.packet else none
  | none => none

theorem replay_append (calls : List StoreCall) (call : StoreCall) :
    replay (calls ++ [call]) = (replay calls).store call.seq call.packet := by
  simp [replay]

theorem lastCongruent_append (calls : List StoreCall) (call : StoreCall) (seq : UInt16) :
    lastCongruent (calls ++ [call]) seq =
      if Congruent call.seq seq then some call else lastCongruent calls seq := by
  by_cases same : Congruent call.seq seq <;> simp [lastCongruent, same]

theorem store_slot (c : RtpCache) (stored seq : UInt16) (packet : Bytes) :
    (c.store stored packet).slots (RtpCache.index seq) =
      if Congruent stored seq then some packet else c.slots (RtpCache.index seq) := by
  by_cases same : RtpCache.index seq = RtpCache.index stored
  · have congruent : Congruent stored seq := same.symm
    simp [RtpCache.store, same, congruent]
  · have apart : ¬ Congruent stored seq := fun congruent => same congruent.symm
    simp [RtpCache.store, same, apart]

/-- The slot of a number holds the packet of the last congruent store. -/
theorem slot_replay (calls : List StoreCall) (seq : UInt16) :
    (replay calls).slots (RtpCache.index seq) = (lastCongruent calls seq).map (·.packet) := by
  induction calls using List.reverseRecOn with
  | nil => rfl
  | append_singleton calls call ih =>
    rw [replay_append, store_slot, lastCongruent_append, ih]
    split <;> rfl

theorem get_replay (calls : List StoreCall) (seq : UInt16) :
    (replay calls).get seq = answer calls seq := by
  rw [RtpCache.get, slot_replay, answer]
  cases lastCongruent calls seq with
  | none => rfl
  | some call =>
    simp only [Option.map_some, call.numbered]
    congr 1
    simp only [eq_iff_iff, and_iff_right_iff_imp]
    exact fun _ => call.long

/-- A store that no congruent one follows is the last. -/
theorem lastCongruent_split {before after : List StoreCall} {call : StoreCall} :
    (∀ later ∈ after, ¬ Congruent later.seq call.seq) →
      lastCongruent (before ++ call :: after) call.seq = some call := by
  induction after using List.reverseRecOn with
  | nil =>
    intro _
    have same : Congruent call.seq call.seq := rfl
    rw [lastCongruent_append, if_pos same]
  | append_singleton after last ih =>
    intro silent
    rw [← List.cons_append, ← List.append_assoc, lastCongruent_append,
      if_neg (silent last (by simp)), ih fun later member => silent later (by simp [member])]

/-- The call that the ingress path makes for a packet: video only, under the number of its header. -/
def callOf (p : Bytes) : Option StoreCall :=
  if video : isVideoPt (parseRtpHeader p).pt = true then
    have long : 12 ≤ p.length := long_of_typed fun zero => by simp [zero, isVideoPt,
      vp8PayloadType, h264PayloadType] at video
    some ⟨(parseRtpHeader p).seq, p, long, by
      have full : ¬ p.length < rtpHeaderMinSize := Nat.not_lt.mpr long
      simp only [parseRtpHeader, if_neg full]⟩
  else none

theorem collect_cache (s : ParticipantState) (p : Bytes) :
    (collectRtpStats s (parseRtpHeader p) p).rtpCache =
      match callOf p with
      | some call => s.rtpCache.store call.seq call.packet
      | none => s.rtpCache := by
  by_cases video : isVideoPt (parseRtpHeader p).pt = true
  · simp only [collectRtpStats, callOf, video, if_true, dif_pos]
  · simp only [collectRtpStats, callOf, video, if_false, dite_false, Bool.false_eq_true]

/-- What the ingress path puts into a fresh cache is such a run of calls. -/
theorem collected_replay {s : ParticipantState} (fresh : s.rtpCache = .new) (packets : List Bytes) :
    (packets.foldl (fun s p => collectRtpStats s (parseRtpHeader p) p) s).rtpCache =
      replay (packets.filterMap callOf) := by
  induction packets using List.reverseRecOn with
  | nil => exact fresh
  | append_singleton packets p ih =>
    rw [List.foldl_append, List.foldl_cons, List.foldl_nil, collect_cache, ih, List.filterMap_append]
    cases call : callOf p with
    | none => simp [call]
    | some call' => simp [call, replay_append]

/-- Consecutive numbers modulo 2^16. -/
def Consecutive : UInt16 → List StoreCall → Prop
  | _, [] => True
  | n, call :: rest => call.seq = n ∧ Consecutive (n + 1) rest

theorem Consecutive.suffix {before : List StoreCall} {call : StoreCall} {after : List StoreCall}
    {n : UInt16} (run : Consecutive n (before ++ call :: after)) : Consecutive call.seq (call :: after) := by
  induction before generalizing n with
  | nil => exact run.1 ▸ run
  | cons first before ih => exact ih run.2

/-- Fewer than 512 numbers on, no number is congruent to the one before the run. -/
theorem Consecutive.apart {n : UInt16} {ahead : Nat} {rest : List StoreCall}
    (run : Consecutive (n + UInt16.ofNat ahead) rest) (started : 0 < ahead)
    (short : ahead + rest.length ≤ 512) : ∀ later ∈ rest, ¬ Congruent later.seq n := by
  induction rest generalizing ahead with
  | nil => simp
  | cons call rest ih =>
    have next : n + UInt16.ofNat ahead + 1 = n + UInt16.ofNat (ahead + 1) := by
      rw [UInt16.ofNat_add, ← UInt16.add_assoc]
      rfl
    simp only [List.length_cons] at short
    intro later member
    rcases List.mem_cons.mp member with rfl | member
    · have value := congrArg UInt16.toNat run.1
      simp only [UInt16.toNat_add, UInt16.toNat_ofNat'] at value
      have := n.toNat_lt
      simp only [Congruent]
      omega
    · exact ih (next ▸ run.2) (by omega) (by omega) later member

/-- The cache answers every request as the history does; of a run of consecutive numbers it
    holds the last 512, whatever was stored before. -/
theorem cache_refines_history (calls : List StoreCall) :
    (∀ seq, (replay calls).get seq = answer calls seq) ∧
      ∀ old before call after n, calls = old ++ (before ++ call :: after) →
        Consecutive n (before ++ call :: after) → after.length < 512 →
          (replay calls).get call.seq = some call.packet := by
  refine ⟨get_replay calls, ?_⟩
  intro old before call after n history run recent
  have rest : Consecutive (call.seq + UInt16.ofNat 1) after := run.suffix.2
  have silent := rest.apart (by omega) (by omega)
  rw [get_replay, history, answer, ← List.append_assoc, lastCongruent_split silent]
  simp

def numberedPacket (high low : UInt8) : Bytes := 0x80 :: 96 :: high :: low :: List.replicate 8 0

def wrappingRun : List StoreCall :=
  [⟨65535, numberedPacket 255 255, by decide, by decide⟩, ⟨0, numberedPacket 0 0, by decide, by decide⟩,
    ⟨1, numberedPacket 0 1, by decide, by decide⟩]

theorem wrapping_run_kept : (replay wrappingRun).get 65535 = some (numberedPacket 255 255) :=
  (cache_refines_history wrappingRun).2 [] [] ⟨65535, numberedPacket 255 255, by decide, by decide⟩
    wrappingRun.tail 65535 rfl ⟨rfl, rfl, rfl, trivial⟩ (by decide)

end CacheHistory
