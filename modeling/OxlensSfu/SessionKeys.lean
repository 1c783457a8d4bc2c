import OxlensSfu.HandshakeTasks

/-
The keys of the sessions. A session is ready once a handshake task that was started for it
has installed its keys, and both of its contexts hold the keys of one such task. The egress
task of a subscriber is spawned then, and once.
-/
namespace SessionKeys
open WireBytes KeyedMap Participants RoomHubs RoomHub Servers GuardedRun StepRefinement
open Membership AddressIndex Seating TransportStory SessionSteps SendCounts DtlsTransport HandshakeTasks

/-- The contexts of a session whose keys are installed. -/
def contexts (keys : SrtpKeyMaterial) : SrtpSession where
  inbound := some (keys.clientKey, keys.clientSalt)
  outbound := some (keys.serverKey, keys.serverSalt)

/-- The exported keys and salts have the lengths that the stack asks for. -/
theorem exportSrtpKeys_sized (m : Material) :
    (exportSrtpKeys m).clientKey.length = srtpMasterKeyLen ∧
      (exportSrtpKeys m).serverKey.length = srtpMasterKeyLen ∧
      (exportSrtpKeys m).clientSalt.length = srtpMasterSaltLen ∧
      (exportSrtpKeys m).serverSalt.length = srtpMasterSaltLen := by
  have whole : m.val.length = 60 := m.property
  simp only [exportSrtpKeys, List.length_take, List.length_drop, srtpMasterKeyLen,
    srtpMasterSaltLen, whole]
  decide

theorem installSrtpKeys_contexts (session : SrtpSession) (m : Material) :
    session.installSrtpKeys (exportSrtpKeys m) = contexts (exportSrtpKeys m) := by
  obtain ⟨clientKey, serverKey, clientSalt, serverSalt⟩ := exportSrtpKeys_sized m
  simp only [SrtpSession.installSrtpKeys, installKey, clientKey, serverKey, clientSalt, serverSalt,
    and_self, if_true, contexts]

theorem contexts_ready (keys : SrtpKeyMaterial) : (contexts keys).isMediaReady = true := rfl

section Frames
variable {hub next : RoomHub} (moved : SessionStep hub next)
include moved

theorem step_grows : hub.nextPtr ≤ next.nextPtr := by
  cases moved with
  | kept same => exact Nat.le_of_eq same.nextPtr.symm
  | latched _ _ _ _ _ _ nextPtr _ => exact Nat.le_of_eq nextPtr.symm
  | built nextPtr _ => exact nextPtr ▸ Nat.le_succ _

/-- Without keys a session is as ready as it was, and a new one is not. -/
theorem step_ready (p : Ptr) (pc : PcType) :
    mediaReady (next.heap p) pc = mediaReady (hub.heap p) pc ∨
      (p = hub.nextPtr ∧ mediaReady (next.heap p) pc = false) := by
  cases moved with
  | kept same => exact .inl (mediaReady_sessions (same.shown p) pc)
  | latched r u q moved addr _ _ shown =>
    left
    rw [mediaReady_sessions (shown p) pc]
    by_cases here : p = q
    · subst here
      rw [mutate_self, mediaReady_latch]
    · rw [mutate_ne _ here]
  | built _ shown =>
    rw [mediaReady_sessions (shown p) pc]
    by_cases fresh : p = hub.nextPtr
    · subst fresh
      rw [Function.update_self]
      exact .inr ⟨rfl, by cases pc <;> rfl⟩
    · rw [Function.update_of_ne fresh]
      exact .inl rfl

/-- A session that has an address keeps having one. -/
theorem step_latched {p : Ptr} (allocated : p < hub.nextPtr) {pc : PcType}
    (latched : ((hub.heap p).address pc).isSome) : ((next.heap p).address pc).isSome := by
  cases moved with
  | kept same =>
    rw [address_sessions (same.shown p)]
    exact latched
  | latched r u q moved addr _ _ shown =>
    rw [address_sessions (shown p)]
    by_cases here : p = q
    · subst here
      rw [mutate_self]
      cases moved <;> cases pc <;> first | rfl | exact latched
    · rw [mutate_ne _ here]
      exact latched
  | built _ shown =>
    rw [address_sessions (shown p), Function.update_of_ne (Nat.ne_of_lt allocated)]
    exact latched

end Frames

/-- What only the keys change. -/
def keyring (s : Transport) : (Ptr → PcType → SrtpSession) × (Ptr → Bool) × List Ptr :=
  (s.srtp, s.egressRx, s.egressTasks)

def Establishes : DtlsTransport.Event → Prop
  | .established .. => True
  | _ => False

section Steps
variable (hmacSha1 : Bytes → Bytes → Bytes) (crc32 : Bytes → UInt32) (shard : SocketAddr → WorkerId)
  (s : Transport)

theorem handleDtls_keyring (w : WorkerId) (data : Bytes) (remote : SocketAddr) :
    keyring (handleDtls s w data remote) = keyring s := by
  unfold handleDtls
  cases injection s w remote with
  | handed t => rfl
  | full => rfl
  | refused =>
    simp only
    cases s.hub.findByAddr remote with
    | none => rfl
    | some owner => rfl

theorem step_keyring (e : DtlsTransport.Event) (other : ¬ Establishes e) :
    keyring (DtlsTransport.step hmacSha1 crc32 shard s e) = keyring s := by
  cases e with
  | local_ e => rfl
  | datagram remote buf o =>
    simp only [DtlsTransport.step, receive]
    split
    · rfl
    · cases DtlsTransport.classify buf with
      | stun =>
        simp only [DtlsTransport.handleStun]
        split <;> rfl
      | dtls => exact handleDtls_keyring s _ buf remote
      | srtp =>
        simp only [DtlsTransport.handleSrtp]
        cases s.hub.findByAddr remote with
        | none => rfl
        | some owner =>
          obtain ⟨sender, pc, r⟩ := owner
          cases o.plain with
          | none => rfl
          | some plain =>
            cases pc with
            | subscribe => rfl
            | publish =>
              simp only
              split
              · rfl
              split <;> rfl
      | unknown => rfl
  | resume w =>
    simp only [DtlsTransport.step, resume]
    cases (s.workers w).waiting with
    | none => rfl
    | some entry => exact handleDtls_keyring _ _ _ _
  | recv t bufLen =>
    simp only [DtlsTransport.step, recv]
    split
    · rfl
    · cases (s.tasks t).queue <;> rfl
  | established t material => exact absurd trivial other
  | ended t => rfl
  | egress p now =>
    simp only [DtlsTransport.step]
    split <;> rfl

theorem media_run_sessions (c : Counted) (es : List SendCounts.Event)
    (media : ∀ e ∈ es, FromMedia e) :
    SameSessions c.server.hub (run (SendCounts.step hmacSha1 crc32) c es).server.hub := by
  induction es generalizing c with
  | nil => exact .refl c.server.hub
  | cons e es ih =>
    rw [run_cons]
    exact (media_sessions hmacSha1 crc32 c e (media e List.mem_cons_self)).trans
      (ih _ fun e member => media e (List.mem_cons_of_mem _ member))

theorem transport_sessions (e : DtlsTransport.Event) (seated : Seated s.hub)
    (other : ¬ Establishes e) :
    SessionStep s.hub (DtlsTransport.step hmacSha1 crc32 shard s e).hub := by
  have tells := transport_tells hmacSha1 crc32 shard s e
  have one : ∀ (e : Servers.Event) now, (∀ p pc, e ≠ .srtpKeys p pc) → SessionStep s.hub
      (SendCounts.step hmacSha1 crc32 s.counted (.server e now)).server.hub :=
    fun e _ unkeyed => step_sessions hmacSha1 crc32 s.counted.server e seated unkeyed
  simp only [Transport.hub]
  rw [tells]
  cases e with
  | local_ e =>
    obtain ⟨e, local_⟩ := e
    refine one e 0 fun p pc same => ?_
    rw [same] at local_
    simp [isLocal] at local_
  | datagram remote buf o =>
    simp only [told, datagramTold]
    split
    · exact .kept (.refl s.hub)
    · cases DtlsTransport.classify buf with
      | stun => exact one _ 0 (by simp)
      | dtls => exact .kept (.refl s.hub)
      | srtp =>
        exact .kept (media_run_sessions hmacSha1 crc32 s.counted _
          fun e told => (srtpTold_from s.hub remote buf o e told).media)
      | unknown => exact .kept (.refl s.hub)
  | resume w => exact .kept (.refl s.hub)
  | recv t bufLen => exact .kept (.refl s.hub)
  | established t material => exact absurd trivial other
  | ended t => exact .kept (.refl s.hub)
  | egress p now =>
    simp only [told]
    split
    · exact one _ now (by simp)
    · exact .kept (.refl s.hub)

end Steps

/-- Both contexts hold the keys of one task that was started for the session. -/
def KeyedBy (s : Transport) (p : Ptr) (pc : PcType) : Prop :=
  ∃ t m, t < s.nextTask ∧ (s.tasks t).participant = p ∧ (s.tasks t).pc = pc ∧
    (s.tasks t).keys = some (exportSrtpKeys m) ∧ s.srtp p pc = contexts (exportSrtpKeys m)

structure Keyed (s : Transport) : Prop where
  ready : ∀ p pc, mediaReady (s.hub.heap p) pc = (s.srtp p pc).isMediaReady
  unbuilt : ∀ p pc, s.hub.nextPtr ≤ p → s.srtp p pc = .new
  latched : ∀ t, t < s.nextTask → (s.tasks t).participant < s.hub.nextPtr ∧
    ((s.hub.heap (s.tasks t).participant).address (s.tasks t).pc).isSome
  traced : ∀ p pc, s.srtp p pc = .new ∨ KeyedBy s p pc

/-- The receiving end of a subscriber's queue is taken by its egress task. -/
structure Spawned (s : Transport) : Prop where
  taken : ∀ p, p ∈ s.egressTasks ↔ s.egressRx p = false
  ready : ∀ p, p ∈ s.egressTasks ↔ mediaReady (s.hub.heap p) .subscribe = true
  once : s.egressTasks.Nodup

section Invariants
variable {s next : Transport}

theorem Keyed.keyedBy (keyed : Keyed s) {p : Ptr} {pc : PcType}
    (ready : mediaReady (s.hub.heap p) pc = true) : KeyedBy s p pc := by
  rw [keyed.ready p pc] at ready
  rcases keyed.traced p pc with new_ | traced
  · rw [new_] at ready
    simp [SrtpSession.new, SrtpSession.isMediaReady] at ready
  · exact traced

/-- The session that a task was started for was latched, and stays so. -/
theorem Keyed.address (keyed : Keyed s) {p : Ptr} {pc : PcType} (traced : KeyedBy s p pc) :
    ((s.hub.heap p).address pc).isSome = true := by
  obtain ⟨t, m, started, participant, connection, _⟩ := traced
  rw [← participant, ← connection]
  exact (keyed.latched t started).2

/-- A new task is for a participant that is there, under an address that it has. -/
theorem carried_latched (carried : Carried s next) (seated : Seated next.hub)
    (moved : SessionStep s.hub next.hub) (latched : ∀ t, t < s.nextTask →
      (s.tasks t).participant < s.hub.nextPtr ∧
        ((s.hub.heap (s.tasks t).participant).address (s.tasks t).pc).isSome) :
    ∀ t, t < next.nextTask → (next.tasks t).participant < next.hub.nextPtr ∧
      ((next.hub.heap (next.tasks t).participant).address (next.tasks t).pc).isSome := by
  intro t started
  rcases carried.fresh t started with earlier | ⟨_, r, found⟩
  · obtain ⟨_, same, _⟩ := carried.old t earlier
    obtain ⟨allocated, address⟩ := latched t earlier
    simp only [aim, Prod.mk.injEq] at same
    rw [same.2.1, same.2.2]
    exact ⟨Nat.lt_of_lt_of_le allocated (step_grows moved), step_latched moved allocated address⟩
  · obtain ⟨_, room, held, entry⟩ := findByAddr_iff.mp found
    have at_ := (seated.addressed held entry).2
    exact ⟨seated.sound.allocated (seated.sender found), by rw [at_]; rfl⟩

theorem KeyedBy.carried {p : Ptr} {pc : PcType} (keyed : KeyedBy s p pc) (carried : Carried s next)
    (unkeyed : Unkeyed s) (srtp : next.srtp p pc = s.srtp p pc) : KeyedBy next p pc := by
  obtain ⟨t, m, started, participant, connection, keys, installed⟩ := keyed
  obtain ⟨there, same, kept⟩ := carried.old t started
  have past : (s.tasks t).phase ≠ .handshaking := by
    intro handshaking
    rw [unkeyed t handshaking] at keys
    simp at keys
  simp only [aim, Prod.mk.injEq] at same
  exact ⟨t, m, there, same.2.1.trans participant, same.2.2.trans connection,
    (kept past).trans keys, srtp.trans installed⟩

theorem Keyed.quiet (keyed : Keyed s) (carried : Carried s next) (unkeyed : Unkeyed s)
    (seated : Seated next.hub) (moved : SessionStep s.hub next.hub)
    (same : keyring next = keyring s) : Keyed next := by
  have srtp : next.srtp = s.srtp := congrArg Prod.fst same
  refine ⟨fun p pc => ?_, fun p pc beyond => ?_,
    carried_latched carried seated moved keyed.latched, fun p pc => ?_⟩
  · rw [srtp]
    rcases step_ready moved p pc with kept | ⟨fresh, unready⟩
    · exact kept.trans (keyed.ready p pc)
    · rw [unready, keyed.unbuilt p pc (Nat.le_of_eq fresh.symm)]
      rfl
  · rw [srtp]
    exact keyed.unbuilt p pc (Nat.le_trans (step_grows moved) beyond)
  · rw [srtp]
    rcases keyed.traced p pc with new_ | traced
    · exact .inl new_
    · exact .inr (traced.carried carried unkeyed (by rw [srtp]))

theorem Spawned.quiet (spawned : Spawned s) (keyed : Keyed s)
    (moved : SessionStep s.hub next.hub) (same : keyring next = keyring s) : Spawned next := by
  simp only [keyring, Prod.mk.injEq] at same
  obtain ⟨_, rx, tasks⟩ := same
  refine ⟨fun p => ?_, fun p => ?_, ?_⟩
  · rw [tasks, rx]
    exact spawned.taken p
  · rw [tasks, spawned.ready p]
    rcases step_ready moved p .subscribe with kept | ⟨fresh, unready⟩
    · rw [kept]
    · rw [unready, keyed.ready, keyed.unbuilt p .subscribe (Nat.le_of_eq fresh.symm)]
      rfl
  · rw [tasks]
    exact spawned.once

end Invariants

section Establishing
variable (hmacSha1 : Bytes → Bytes → Bytes) (crc32 : Bytes → UInt32)

/-- What the keys of a task change. -/
structure Establishment (s : Transport) (p : Ptr) (pc : PcType) (m : Material) (next : Transport) :
    Prop where
  srtp : next.srtp = Function.update s.srtp p
    (Function.update (s.srtp p) pc (contexts (exportSrtpKeys m)))
  nextPtr : next.hub.nextPtr = s.hub.nextPtr
  heap : next.hub.heap = mutate s.hub.heap p fun st => st.installSrtpKeys pc
  egressTasks : next.egressTasks =
    if pc = .subscribe ∧ s.egressRx p = true then s.egressTasks ++ [p] else s.egressTasks
  egressRx : next.egressRx =
    if pc = .subscribe ∧ s.egressRx p = true then Function.update s.egressRx p false else s.egressRx

theorem installSrtpKeys_keyed (s : Transport) (p : Ptr) (pc : PcType) (m : Material) :
    installSrtpKeys hmacSha1 crc32 s p pc (exportSrtpKeys m) =
      withCounted
        { s with
          srtp := Function.update s.srtp p
            (Function.update (s.srtp p) pc (contexts (exportSrtpKeys m))) }
        (SendCounts.step hmacSha1 crc32 s.counted (.server (.srtpKeys p pc) 0)) := by
  simp only [installSrtpKeys, installSrtpKeys_contexts, contexts_ready, if_true]

theorem established_keyed (s : Transport) (t : TaskId) (m : Material)
    (running : t < s.nextTask ∧ (s.tasks t).phase = .handshaking) :
    Establishment s (s.tasks t).participant (s.tasks t).pc m
        (established hmacSha1 crc32 s t (some m)) ∧
      (established hmacSha1 crc32 s t (some m)).nextTask = s.nextTask ∧
      ((established hmacSha1 crc32 s t (some m)).tasks t).keys = some (exportSrtpKeys m) := by
  simp only [established, if_pos running, Option.map_some, installSrtpKeys_keyed]
  have kept : ((connected s t (some (exportSrtpKeys m))).tasks t).keys = some (exportSrtpKeys m) := by
    simp only [connected, onTask, Function.update_self]
  cases connection : (s.tasks t).pc with
  | publish =>
    rw [if_neg (by simp)]
    exact ⟨⟨rfl, rfl, rfl, by simp; rfl, by simp; rfl⟩, rfl, kept⟩
  | subscribe =>
    rw [if_pos rfl]
    simp only [subscribeReady, spawnEgressTask]
    by_cases there : s.egressRx (s.tasks t).participant = true
    · have spawn : ∀ counted srtp, (withCounted
          { connected s t (some (exportSrtpKeys m)) with srtp := srtp } counted).egressRx
            (s.tasks t).participant = true := fun _ _ => there
      simp only [if_pos (spawn _ _)]
      exact ⟨⟨rfl, rfl, rfl, by rw [if_pos ⟨rfl, there⟩]; rfl, by rw [if_pos ⟨rfl, there⟩]; rfl⟩,
        rfl, kept⟩
    · have gone : ∀ counted srtp, ¬ (withCounted
          { connected s t (some (exportSrtpKeys m)) with srtp := srtp } counted).egressRx
            (s.tasks t).participant = true := fun _ _ => there
      have none_ : ¬ (PcType.subscribe = .subscribe ∧ s.egressRx (s.tasks t).participant = true) :=
        fun both => there both.2
      simp only [if_neg (gone _ _)]
      exact ⟨⟨rfl, rfl, rfl, by rw [if_neg none_]; rfl, by rw [if_neg none_]; rfl⟩, rfl, kept⟩

end Establishing

section Runs
variable {s next : Transport}

theorem Keyed.established (keyed : Keyed s) {t : TaskId} {m : Material}
    (started : t < s.nextTask) (unkeyed : Unkeyed s) (carried : Carried s next)
    (done : Establishment s (s.tasks t).participant (s.tasks t).pc m next)
    (nextTask : next.nextTask = s.nextTask) (keys : (next.tasks t).keys = some (exportSrtpKeys m)) :
    Keyed next := by
  have allocated := (keyed.latched t started).1
  have aims := fun t' (there : t' < s.nextTask) => (carried.old t' there).2.1
  refine ⟨fun p pc => ?_, fun p pc beyond => ?_, fun t' there => ?_, fun p pc => ?_⟩
  · rw [done.heap, done.srtp]
    by_cases here : p = (s.tasks t).participant
    · subst here
      rw [mutate_self, Function.update_self, mediaReady_install]
      by_cases same : pc = (s.tasks t).pc
      · subst same
        simp [contexts_ready]
      · rw [Function.update_of_ne same, keyed.ready]
        simp [same]
    · rw [mutate_ne _ here, Function.update_of_ne here]
      exact keyed.ready p pc
  · rw [done.nextPtr] at beyond
    rw [done.srtp, Function.update_of_ne (Nat.ne_of_gt (Nat.lt_of_lt_of_le allocated beyond))]
    exact keyed.unbuilt p pc beyond
  · rw [nextTask] at there
    have same := aims t' there
    simp only [aim, Prod.mk.injEq] at same
    obtain ⟨inside, address⟩ := keyed.latched t' there
    rw [same.2.1, same.2.2, done.nextPtr, done.heap]
    refine ⟨inside, ?_⟩
    by_cases here : (s.tasks t').participant = (s.tasks t).participant
    · rw [here, mutate_self, address_install, ← here]
      exact address
    · rw [mutate_ne _ here]
      exact address
  · by_cases session : p = (s.tasks t).participant ∧ pc = (s.tasks t).pc
    · obtain ⟨rfl, rfl⟩ := session
      have same := aims t started
      simp only [aim, Prod.mk.injEq] at same
      refine .inr ⟨t, m, by rw [nextTask]; exact started, same.2.1, same.2.2, keys, ?_⟩
      rw [done.srtp, Function.update_self, Function.update_self]
    · have kept : next.srtp p pc = s.srtp p pc := by
        rw [done.srtp]
        by_cases here : p = (s.tasks t).participant
        · subst here
          rw [Function.update_self, Function.update_of_ne fun same => session ⟨rfl, same⟩]
        · rw [Function.update_of_ne here]
      rw [kept]
      rcases keyed.traced p pc with new_ | traced
      · exact .inl new_
      · exact .inr (traced.carried carried unkeyed kept)

theorem Spawned.established (spawned : Spawned s) {p : Ptr} {pc : PcType} {m : Material}
    (done : Establishment s p pc m next) : Spawned next := by
  by_cases spawns : pc = .subscribe ∧ s.egressRx p = true
  · obtain ⟨rfl, there⟩ := spawns
    have tasks : next.egressTasks = s.egressTasks ++ [p] := by
      rw [done.egressTasks, if_pos ⟨rfl, there⟩]
    have rx : next.egressRx = Function.update s.egressRx p false := by
      rw [done.egressRx, if_pos ⟨rfl, there⟩]
    have new_ : p ∉ s.egressTasks := by
      rw [spawned.taken, there]
      simp
    refine ⟨fun q => ?_, fun q => ?_, ?_⟩
    · rw [tasks, rx, List.mem_append, List.mem_singleton, Function.update_apply]
      by_cases here : q = p
      · simp [here]
      · simp [here, spawned.taken]
    · rw [tasks, List.mem_append, List.mem_singleton, done.heap]
      by_cases here : q = p
      · subst here
        rw [mutate_self, mediaReady_install]
        simp
      · rw [mutate_ne _ here]
        simp [here, spawned.ready]
    · rw [tasks]
      exact List.nodup_append.mpr ⟨spawned.once, List.nodup_singleton p, fun q inside q' here => by
        rw [List.mem_singleton.mp here]
        rintro rfl
        exact new_ inside⟩
  · have tasks : next.egressTasks = s.egressTasks := by rw [done.egressTasks, if_neg spawns]
    have rx : next.egressRx = s.egressRx := by rw [done.egressRx, if_neg spawns]
    refine ⟨fun q => ?_, fun q => ?_, by rw [tasks]; exact spawned.once⟩
    · rw [tasks, rx]
      exact spawned.taken q
    · rw [tasks, done.heap, spawned.ready]
      by_cases here : q = p
      · subst here
        rw [mutate_self, mediaReady_install]
        by_cases subscribes : pc = .subscribe
        · subst subscribes
          have gone : s.egressRx q = false := by
            simpa using spawns
          have ready := (spawned.ready q).mp ((spawned.taken q).mpr gone)
          rw [ready]
          simp
        · simp [Ne.symm subscribes]
      · rw [mutate_ne _ here]

variable (hmacSha1 : Bytes → Bytes → Bytes) (crc32 : Bytes → UInt32) (shard : SocketAddr → WorkerId)

theorem step_keyed (s : Transport) (e : DtlsTransport.Event) (tended : Tended shard s)
    (held : Keyed s ∧ Spawned s) : Keyed (DtlsTransport.step hmacSha1 crc32 shard s e) ∧
      Spawned (DtlsTransport.step hmacSha1 crc32 shard s e) := by
  obtain ⟨keyed, spawned⟩ := held
  have carried := step_carried hmacSha1 crc32 shard s tended.seated e
  have seated := (step_tended hmacSha1 crc32 shard s e tended).seated
  by_cases establishes : Establishes e
  · cases e with
    | established t material =>
      simp only [DtlsTransport.step] at carried seated ⊢
      by_cases running : t < s.nextTask ∧ (s.tasks t).phase = .handshaking
      · cases material with
        | some m =>
          obtain ⟨done, nextTask, keys⟩ := established_keyed hmacSha1 crc32 s t m running
          exact ⟨keyed.established running.1 tended.unkeyed carried done nextTask keys,
            spawned.established done⟩
        | none =>
          have failed : established hmacSha1 crc32 s t none = connected s t none := by
            simp only [established, if_pos running, Option.map_none]
          rw [failed] at carried seated ⊢
          exact ⟨keyed.quiet carried tended.unkeyed seated (.kept (.refl s.hub)) rfl,
            spawned.quiet keyed (.kept (.refl s.hub)) rfl⟩
      · rw [established, if_neg running]
        exact ⟨keyed, spawned⟩
    | _ => exact establishes.elim
  · have moved := transport_sessions hmacSha1 crc32 shard s e tended.seated establishes
    have same := step_keyring hmacSha1 crc32 shard s e establishes
    exact ⟨keyed.quiet carried tended.unkeyed seated moved same, spawned.quiet keyed moved same⟩

theorem new_keyed : Keyed Transport.new ∧ Spawned Transport.new := by
  refine ⟨⟨fun p pc => by cases pc <;> rfl, fun _ _ _ => rfl,
    fun t started => absurd started (Nat.not_lt_zero t), fun _ _ => .inl rfl⟩, ?_⟩
  have unready : ∀ p, mediaReady (Transport.new.hub.heap p) .subscribe = false := fun _ => rfl
  exact ⟨fun p => by simp [Transport.new], fun p => by rw [unready]; simp [Transport.new],
    List.nodup_nil⟩

theorem run_keyed (es : List DtlsTransport.Event) :
    Keyed (run (DtlsTransport.step hmacSha1 crc32 shard) Transport.new es) ∧
      Spawned (run (DtlsTransport.step hmacSha1 crc32 shard) Transport.new es) := by
  have both := @run_invariant _ _ (DtlsTransport.step hmacSha1 crc32 shard)
    (fun s => Tended shard s ∧ Keyed s ∧ Spawned s)
    (fun s e held => ⟨step_tended hmacSha1 crc32 shard s e held.1,
      step_keyed hmacSha1 crc32 shard s e held.1 held.2⟩)
    Transport.new ⟨new_tended shard, new_keyed⟩ es
  exact both.2

/-- A session is ready if and only if its inbound context is there; then it has an address, and
    both contexts hold the keys of one task that was started for it. -/
theorem ready_sessions_keyed (es : List DtlsTransport.Event) (p : Ptr) (pc : PcType) :
    let s := run (DtlsTransport.step hmacSha1 crc32 shard) Transport.new es
    (mediaReady (s.hub.heap p) pc = true ↔ (s.srtp p pc).inbound.isSome = true) ∧
      (mediaReady (s.hub.heap p) pc = true →
        ((s.hub.heap p).address pc).isSome = true ∧ KeyedBy s p pc) := by
  intro s
  obtain ⟨keyed, _⟩ := run_keyed hmacSha1 crc32 shard es
  refine ⟨by rw [keyed.ready p pc]; rfl, fun ready => ?_⟩
  have traced := keyed.keyedBy ready
  exact ⟨keyed.address traced, traced⟩

/-- There is an egress task for every subscriber that is ready, one, and for nobody else. -/
theorem egress_task_once (es : List DtlsTransport.Event) (p : Ptr) :
    let s := run (DtlsTransport.step hmacSha1 crc32 shard) Transport.new es
    s.egressTasks.count p = if (s.hub.heap p).isSubscribeReady then 1 else 0 := by
  intro s
  obtain ⟨_, spawned⟩ := run_keyed hmacSha1 crc32 shard es
  have ready : p ∈ s.egressTasks ↔ (s.hub.heap p).isSubscribeReady = true := spawned.ready p
  split
  · rename_i there
    exact List.count_eq_one_of_mem spawned.once (ready.mpr there)
  · rename_i absent
    exact List.count_eq_zero_of_not_mem fun inside => absent (ready.mp inside)

end Runs
end SessionKeys
