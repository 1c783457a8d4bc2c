import Mathlib.Data.List.Sort
import OxlensSfu.Config

/-
The floor state machine of one room. Times are epoch milliseconds; every clock
reading is an argument. `_try_grant_next` reads the clock itself, so the
operations that may pop the queue take that reading as `grantMs`.
-/
namespace FloorControl
open SfuConfig

abbrev UserId := String

inductive FloorState where
  | idle
  | taken (speaker : UserId) (speakerPriority : UInt8) (burstStart lastPing : Nat)
  deriving DecidableEq, Repr

inductive FloorAction where
  | granted (speaker : UserId) (priority : UInt8) (durationS : UInt16)
  | denied (reason : String) (currentSpeaker : UserId)
  | queued (userId : UserId) (position priority : UInt8) (queueSize : UInt16)
  | released (prevSpeaker : UserId)
  | revoked (prevSpeaker : UserId) (cause : String)
  | pingOk
  | pingDenied
  deriving DecidableEq, Repr

structure FloorConfig where
  queuingEnabled : Bool
  maxQueueSize : Nat
  preemptionEnabled : Bool
  maxBurstMs : Nat
  pingTimeoutMs : Nat
  deriving DecidableEq, Repr

def FloorConfig.default : FloorConfig where
  queuingEnabled := true
  maxQueueSize := floorQueueMaxSize
  preemptionEnabled := true
  maxBurstMs := floorMaxBurstMs
  pingTimeoutMs := floorPingTimeoutMs

structure QueueEntry where
  userId : UserId
  priority : UInt8
  enqueuedAt : Nat
  deriving DecidableEq, Repr

/-- priority descending, then enqueuedAt ascending. -/
def QueueEntry.Before (a b : QueueEntry) : Prop :=
  b.priority < a.priority ∨ (a.priority = b.priority ∧ a.enqueuedAt ≤ b.enqueuedAt)

instance : DecidableRel QueueEntry.Before :=
  fun _ _ => inferInstanceAs (Decidable (_ ∨ _))

structure FloorController where
  state : FloorState
  queue : List QueueEntry
  prevSpeaker : Option UserId
  config : FloorConfig
  deriving DecidableEq, Repr

def withConfig (config : FloorConfig) : FloorController := ⟨.idle, [], none, config⟩
def FloorController.new : FloorController := withConfig .default

def currentSpeaker (c : FloorController) : Option UserId :=
  match c.state with
  | .taken speaker .. => some speaker
  | .idle => none

def currentSpeakerPriority (c : FloorController) : Option UInt8 :=
  match c.state with
  | .taken _ speakerPriority _ _ => some speakerPriority
  | .idle => none

def lastSpeaker (c : FloorController) : Option UserId := c.prevSpeaker

def waits (c : FloorController) (userId : UserId) : Bool := c.queue.any (·.userId == userId)

def queueSnapshot (c : FloorController) : List (UserId × UInt8 × UInt8) :=
  c.queue.zipIdx.map fun (e, i) => (e.userId, e.priority, UInt8.ofNat (i + 1))

def dequeue (c : FloorController) (userId : UserId) : FloorController :=
  { c with queue := c.queue.filter (·.userId != userId) }

def take (c : FloorController) (userId : UserId) (priority : UInt8) (nowMs : Nat) :
    FloorController :=
  { c with state := .taken userId priority nowMs nowMs }

/-- `Vec::sort_by` is stable, as insertion sort is. -/
def enqueue (c : FloorController) (entry : QueueEntry) : FloorController :=
  { c with queue := (c.queue ++ [entry]).insertionSort QueueEntry.Before }

def queuedReply (c : FloorController) (userId : UserId) (priority : UInt8) : FloorAction :=
  .queued userId (UInt8.ofNat (c.queue.findIdx (·.userId == userId) + 1)) priority
    (UInt16.ofNat c.queue.length)

def request (c : FloorController) (userId : UserId) (priority : UInt8) (nowMs : Nat) :
    FloorController × List FloorAction :=
  match c.state with
  | .idle =>
    ({ take c userId priority nowMs with prevSpeaker := none },
      [.granted userId priority floorDefaultDurationS])
  | .taken speaker speakerPriority _ _ =>
    if speaker = userId then
      (c, [.granted userId speakerPriority floorDefaultDurationS])
    else if c.config.preemptionEnabled ∧ speakerPriority < priority then
      ({ take c userId priority nowMs with prevSpeaker := some speaker },
        [.revoked speaker "preempted", .granted userId priority floorDefaultDurationS])
    else if c.config.queuingEnabled then
      if waits c userId then (c, [queuedReply c userId priority])
      else if c.config.maxQueueSize ≤ c.queue.length then (c, [.denied "queue full" speaker])
      else
        let queued := enqueue c ⟨userId, priority, nowMs⟩
        (queued, [queuedReply queued userId priority])
    else (c, [.denied "channel busy" speaker])

/-- Called with the floor idle: pops the head of the queue, if there is one. -/
def tryGrantNext (c : FloorController) (grantMs : Nat) : FloorController × List FloorAction :=
  match c.queue with
  | [] => (c, [])
  | next :: rest =>
    ({ take c next.userId next.priority grantMs with queue := rest, prevSpeaker := none },
      [.granted next.userId next.priority floorDefaultDurationS])

/-- A burst of `speaker` ends with `action`; the queue head is granted at once. -/
def endBurst (c : FloorController) (speaker : UserId) (action : FloorAction) (grantMs : Nat) :
    FloorController × List FloorAction :=
  let (next, grant) :=
    tryGrantNext { c with state := .idle, prevSpeaker := some speaker } grantMs
  (next, action :: grant)

def release (c : FloorController) (userId : UserId) (grantMs : Nat) :
    FloorController × List FloorAction :=
  match c.state with
  | .taken speaker .. =>
    if speaker = userId then endBurst c userId (.released userId) grantMs
    else (dequeue c userId, [])
  | .idle => (c, [.released userId])

def ping (c : FloorController) (userId : UserId) (nowMs : Nat) : FloorController × FloorAction :=
  match c.state with
  | .taken speaker speakerPriority burstStart _ =>
    if speaker = userId then
      ({ c with state := .taken speaker speakerPriority burstStart nowMs }, .pingOk)
    else (c, .pingDenied)
  | .idle => (c, .pingDenied)

def queryQueuePosition (c : FloorController) (userId : UserId) : Option (UInt8 × UInt8) :=
  (c.queue.zipIdx.find? fun (e, _) => e.userId == userId).map fun (e, i) =>
    (UInt8.ofNat (i + 1), e.priority)

def cancelQueue (c : FloorController) (userId : UserId) : FloorController × Bool :=
  (dequeue c userId, waits c userId)

def checkTimers (c : FloorController) (nowMs grantMs : Nat) :
    FloorController × List FloorAction :=
  match c.state with
  | .taken speaker _ burstStart lastPing =>
    if c.config.maxBurstMs < nowMs - burstStart then
      endBurst c speaker (.revoked speaker "max burst exceeded") grantMs
    else if c.config.pingTimeoutMs < nowMs - lastPing then
      endBurst c speaker (.revoked speaker "participant lost") grantMs
    else (c, [])
  | .idle => (c, [])

def onParticipantLeave (c : FloorController) (userId : UserId) (grantMs : Nat) :
    FloorController × List FloorAction :=
  let left := dequeue c userId
  match left.state with
  | .taken speaker .. =>
    if speaker = userId then endBurst left userId (.released userId) grantMs else (left, [])
  | .idle => (left, [])

inductive FloorOp where
  | request (userId : UserId) (priority : UInt8) (nowMs : Nat)
  | release (userId : UserId) (grantMs : Nat)
  | ping (userId : UserId) (nowMs : Nat)
  | cancelQueue (userId : UserId)
  | checkTimers (nowMs grantMs : Nat)
  | onParticipantLeave (userId : UserId) (grantMs : Nat)
  deriving DecidableEq, Repr

def applyOp (c : FloorController) : FloorOp → FloorController × List FloorAction
  | .request userId priority nowMs => request c userId priority nowMs
  | .release userId grantMs => release c userId grantMs
  | .ping userId nowMs => let (next, action) := ping c userId nowMs; (next, [action])
  | .cancelQueue userId => ((cancelQueue c userId).1, [])
  | .checkTimers nowMs grantMs => checkTimers c nowMs grantMs
  | .onParticipantLeave userId grantMs => onParticipantLeave c userId grantMs

def step (c : FloorController) (op : FloorOp) : FloorController := (applyOp c op).1

end FloorControl
