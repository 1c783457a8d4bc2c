import OxlensSfu.StunMessage
import OxlensSfu.AddressIndex

/-
The connectivity-check handler, and what a datagram that fails the check changes.
-/
namespace StunLatch
open WireBytes KeyedMap Participants RoomHubs RoomHub StunMessages
open Membership AddressIndex GuardedRun

structure StunReply where
  remote : SocketAddr
  response : Bytes
  startDtls : Option (Ptr × PcType)
  deriving DecidableEq

section Handler
variable (hmacSha1 : Bytes → Bytes → Bytes) (crc32 : Bytes → UInt32)

/-- `dtlsHas`: a DTLS session of that address is already in progress. -/
def handleStun (hub : RoomHub) (buf : Bytes) (remote : SocketAddr) (now : Nat) (dtlsHas : Bool) :
    RoomHub × Option StunReply :=
  match parse buf with
  | none => (hub, none)
  | some msg =>
    if msg.msgType ≠ bindingRequest then (hub, none)
    else
      match msg.username with
      | none => (hub, none)
      | some username =>
        match hub.latchByUfrag (serverUfrag username) remote with
        | (latched, none) => (latched, none)
        | (latched, some (p, pc, _)) =>
          let touched := latched.touch p now
          let key := iceIntegrityKey ((hub.arcs p).ice pc).pwd
          if !verifyMessageIntegrity hmacSha1 msg key then (touched, none)
          else
            (touched, some {
              remote := remote
              response := buildBindingResponse hmacSha1 crc32 msg.transactionId remote key
              startDtls := if msg.hasUseCandidate && !dtlsHas then some (p, pc) else none })

/-- The Binding Request in a datagram and the session that its USERNAME names. -/
def namedSession (hub : RoomHub) (buf : Bytes) :
    Option (StunMessage × Ptr × PcType × RoomId) :=
  match parse buf with
  | none => none
  | some msg =>
    if msg.msgType ≠ bindingRequest then none
    else
      match msg.username with
      | none => none
      | some username => (hub.findByUfrag (serverUfrag username)).map fun session => (msg, session)

/-- A Binding Request whose MESSAGE-INTEGRITY verifies under the password of the
    session it names. -/
def authentic (hub : RoomHub) (buf : Bytes) : Bool :=
  match namedSession hub buf with
  | none => false
  | some (msg, p, pc, _) =>
    verifyMessageIntegrity hmacSha1 msg (iceIntegrityKey ((hub.arcs p).ice pc).pwd)

/-- The datagram names no session, or repeats what is recorded: the source is the
    latched address of that session in all three places, and the session was last
    seen at this very clock reading. -/
def NothingNew (hub : RoomHub) (buf : Bytes) (remote : SocketAddr) (now : Nat) : Prop :=
  ∀ msg p pc r, namedSession hub buf = some (msg, p, pc, r) →
    (hub.heap p).address pc = some remote ∧ hub.findByAddr remote = some (p, pc, r) ∧
      (hub.heap p).lastSeen = now

theorem handleStun_hub (hub : RoomHub) (buf : Bytes) (remote : SocketAddr) (now : Nat)
    (dtlsHas : Bool) :
    (handleStun hmacSha1 crc32 hub buf remote now dtlsHas).1 =
      match namedSession hub buf with
      | none => hub
      | some (_, p, pc, r) => (hub.latchSession p pc r remote).touch p now := by
  unfold handleStun namedSession
  cases parse buf with
  | none => rfl
  | some msg =>
    simp only
    split
    · rfl
    · cases msg.username with
      | none => rfl
      | some username =>
        simp only [latchByUfrag]
        cases hub.findByUfrag (serverUfrag username) with
        | none => rfl
        | some session =>
          simp only [Option.map_some]
          split <;> rfl

theorem address_touch (s : ParticipantState) (ts : Nat) (pc : PcType) :
    (s.touch ts).address pc = s.address pc := by
  cases pc <;> rfl

theorem latch_touch_state (s : ParticipantState) (pc : PcType) (addr : SocketAddr) (ts : Nat) :
    (s.latchAddress pc addr).touch ts = s ↔ s.address pc = some addr ∧ s.lastSeen = ts := by
  constructor
  · intro same
    rw [← same, address_touch, latchAddress_address, if_pos rfl]
    exact ⟨rfl, rfl⟩
  · rintro ⟨latched, rfl⟩
    cases pc with
    | publish =>
      simp only [ParticipantState.address] at latched
      simp only [ParticipantState.latchAddress, ParticipantState.touch, ← latched]
    | subscribe =>
      simp only [ParticipantState.address] at latched
      simp only [ParticipantState.latchAddress, ParticipantState.touch, ← latched]

theorem findByUfrag_room {hub : RoomHub} {f : Ufrag} {p : Ptr} {pc : PcType} {r : RoomId}
    (found : hub.findByUfrag f = some (p, pc, r)) : ∃ room, hub.rooms.lookup r = some room := by
  simp only [RoomHub.findByUfrag, Option.bind_eq_bind, Option.bind_eq_some_iff, Option.pure_def,
    Option.some.injEq, Prod.mk.injEq] at found
  obtain ⟨r', _, room, held, _, _, _, _, rfl⟩ := found
  exact ⟨room, held⟩

/-- When latching a session and touching its participant leaves the hub as it is. -/
theorem latch_touch_unchanged_iff {hub : RoomHub} {f : Ufrag} {p : Ptr} {pc : PcType} {r : RoomId}
    (found : hub.findByUfrag f = some (p, pc, r)) (remote : SocketAddr) (now : Nat) :
    (hub.latchSession p pc r remote).touch p now = hub ↔
      (hub.heap p).address pc = some remote ∧ hub.findByAddr remote = some (p, pc, r) ∧
        (hub.heap p).lastSeen = now := by
  have state : ((hub.latchSession p pc r remote).touch p now).heap p =
      ((hub.heap p).latchAddress pc remote).touch now := by
    simp [touch, latchSession]
  have others : ∀ q, q ≠ p → ((hub.latchSession p pc r remote).touch p now).heap q = hub.heap q := by
    intro q other
    simp only [touch, latchSession]
    rw [mutate_ne _ other, mutate_ne _ other]
  have index : ((hub.latchSession p pc r remote).touch p now).addrIndex =
      Function.update hub.addrIndex remote (some r) := rfl
  have rooms : ((hub.latchSession p pc r remote).touch p now).rooms =
      modify hub.rooms r fun room => room.latchIndex ((hub.heap p).address pc) p pc remote := rfl
  obtain ⟨room, held⟩ := findByUfrag_room found
  constructor
  · intro same
    have there : ((hub.latchSession p pc r remote).touch p now).findByAddr remote =
        some (p, pc, r) := by
      refine findByAddr_iff.mpr ⟨?_, room.latchIndex ((hub.heap p).address pc) p pc remote, ?_, ?_⟩
      · rw [index, Function.update_self]
      · rw [rooms, lookup_modify_self, held, Option.map_some]
      · rw [latchIndex_byAddr, if_pos rfl]
    rw [same] at there state
    obtain ⟨latched, seen⟩ := (latch_touch_state _ _ _ _).mp state.symm
    exact ⟨latched, there, seen⟩
  · rintro ⟨latched, there, seen⟩
    obtain ⟨indexed, room', held', entry⟩ := findByAddr_iff.mp there
    rw [held, Option.some.injEq] at held'
    subst held'
    refine RoomHub.ext rfl ?_ rfl ?_ rfl ?_
    · funext q
      by_cases here : q = p
      · rw [here, state]
        exact (latch_touch_state _ _ _ _).mpr ⟨latched, seen⟩
      · exact others q here
    · rw [rooms]
      refine modify_unchanged fun room' found' => ?_
      rw [held, Option.some.injEq] at found'
      subst found'
      simp only [Room.latchIndex, latched, ne_eq, not_true_eq_false, if_false, ← entry,
        Function.update_eq_self]
    · rw [index, ← indexed, Function.update_eq_self]

theorem namedSession_ufrag {hub : RoomHub} {buf : Bytes} {msg : StunMessage} {p : Ptr}
    {pc : PcType} {r : RoomId} (named : namedSession hub buf = some (msg, p, pc, r)) :
    ∃ f, hub.findByUfrag f = some (p, pc, r) := by
  unfold namedSession at named
  split at named
  · simp at named
  · split at named
    · simp at named
    · split at named
      · simp at named
      · rename_i username _
        simp only [Option.map_eq_some_iff, Prod.mk.injEq] at named
        obtain ⟨session, found, _, rfl⟩ := named
        exact ⟨serverUfrag username, found⟩

theorem handleStun_unchanged_iff (hub : RoomHub) (buf : Bytes) (remote : SocketAddr) (now : Nat)
    (dtlsHas : Bool) :
    (handleStun hmacSha1 crc32 hub buf remote now dtlsHas).1 = hub ↔
      NothingNew hub buf remote now := by
  rw [handleStun_hub, NothingNew]
  cases named : namedSession hub buf with
  | none => simp
  | some session =>
    obtain ⟨msg, p, pc, r⟩ := session
    obtain ⟨f, found⟩ := namedSession_ufrag named
    simp only [latch_touch_unchanged_iff found, Option.some.injEq, Prod.mk.injEq]
    constructor
    · rintro recorded msg' p' pc' r' ⟨_, rfl, rfl, rfl⟩
      exact recorded
    · intro recorded
      exact recorded msg p pc r ⟨rfl, rfl, rfl, rfl⟩

/-- Rejection leaves the hub as it was exactly when the datagram brings nothing new. -/
theorem rejection_harmless_iff (hub : RoomHub) (buf : Bytes) (remote : SocketAddr) (now : Nat)
    (dtlsHas : Bool) :
    (authentic hmacSha1 hub buf = false →
        (handleStun hmacSha1 crc32 hub buf remote now dtlsHas).1 = hub) ↔
      (authentic hmacSha1 hub buf = true ∨ NothingNew hub buf remote now) := by
  rw [handleStun_unchanged_iff]
  cases authentic hmacSha1 hub buf with
  | false => simp
  | true => simp

end Handler

/-- A Binding Request for the ufrag of `alice` that carries no MESSAGE-INTEGRITY. -/
def unsignedRequest : Bytes :=
  [0x00, 0x01, 0x00, 0x08, 0x21, 0x12, 0xA4, 0x42, 1, 2, 3, 4, 5, 6, 7, 8, 9, 10, 11, 12,
    0x00, 0x06, 0x00, 0x04, 0x61, 0x31, 0x3A, 0x62]

/-- The unsigned request moves the publish session to the sender's address. -/
theorem unsigned_request_latches : ¬ ∀ (hmacSha1 : Bytes → Bytes → Bytes) (crc32 : Bytes → UInt32)
    (ops : List HubOp) (buf : Bytes) (remote : SocketAddr) (now : Nat) (dtlsHas : Bool),
    Guarded AddressIndex.step Fresh RoomHub.new ops →
    authentic hmacSha1 (run AddressIndex.step RoomHub.new ops) buf = false →
    (handleStun hmacSha1 crc32 (run AddressIndex.step RoomHub.new ops) buf remote now dtlsHas).1 =
      run AddressIndex.step RoomHub.new ops := by
  intro holds
  have same := holds (fun _ _ => []) (fun _ => 0) joinAndLatch unsignedRequest (portAt 6666) 2000
    false (by decide) (by decide)
  have latched := congrArg (fun hub => (hub.heap 0).address .publish) same
  exact absurd latched (by decide)

end StunLatch
