import Mathlib.Logic.Function.Basic
import OxlensSfu.KeyedMap
import OxlensSfu.RtxPacket
import OxlensSfu.PttRewriter

/-
A participant with its two peer connections. `Participant` holds the fields that
are fixed when it is built, `ParticipantState` those behind a lock or an atomic.
The shared handles of the server are pointers into a heap of such states.
-/
namespace Participants
open WireBytes SfuConfig RtpPacket FloorControl PttRewriter KeyedMap

abbrev RoomId := String
abbrev ConnId := Nat
abbrev Ufrag := Bytes
abbrev Ptr := Nat

inductive SocketAddr where
  | v4 (ip : Vector UInt8 4) (port : UInt16)
  | v6 (ip : Vector UInt8 16) (port : UInt16) (flowinfo scopeId : UInt32)
  deriving DecidableEq, Repr

inductive PcType where
  | publish
  | subscribe
  deriving DecidableEq, Repr

inductive VideoCodec where
  | vp8
  | h264
  | vp9
  deriving DecidableEq, Repr

def VideoCodec.fromStrOrDefault (s : Option String) : VideoCodec :=
  match s.map fun c => c.map Char.toUpper with
  | some "H264" => .h264
  | some "VP9" => .vp9
  | _ => .vp8

def VideoCodec.standardPt : VideoCodec → UInt8
  | .h264 => h264PayloadType
  | _ => vp8PayloadType

def VideoCodec.standardRtxPt (c : VideoCodec) : UInt8 := rtxPtFor c.standardPt

inductive TrackKind where
  | audio
  | video
  deriving DecidableEq, Repr

structure Track where
  ssrc : UInt32
  kind : TrackKind
  trackId : String
  rtxSsrc : Option UInt32
  muted : Bool
  rid : Option String
  simulcastGroup : Option UInt32
  videoCodec : VideoCodec
  actualPt : UInt8
  actualRtxPt : UInt8
  deriving DecidableEq, Repr

/-- The layer-switching rewriter of one subscriber for one publisher. -/
structure SimulcastRewriter where
  virtualSsrc : UInt32
  seqOffset : UInt16
  tsOffset : UInt32
  lastOutSeq : UInt16
  lastOutTs : UInt32
  pendingKeyframe : Bool
  initialized : Bool
  pliSentAt : Option Instant
  deriving DecidableEq, Repr

namespace SimulcastRewriter

def new (virtualSsrc : UInt32) : SimulcastRewriter :=
  ⟨virtualSsrc, 0, 0, 0, 0, false, false, none⟩

def needsPliRetry (r : SimulcastRewriter) (now : Instant) : Bool :=
  if r.initialized then false
  else
    match r.pliSentAt with
    | none => true
    | some sent => decide (2000000000 ≤ now - sent)

def markPliSent (r : SimulcastRewriter) (now : Instant) : SimulcastRewriter :=
  { r with pliSentAt := some now }

def switchLayer (r : SimulcastRewriter) : SimulcastRewriter := { r with pendingKeyframe := true }

/-- The offsets in force for a packet that is not dropped. -/
def anchor (r : SimulcastRewriter) (inputSeq : UInt16) (inputTs : UInt32) : SimulcastRewriter :=
  if !r.initialized then
    { r with seqOffset := 0, tsOffset := 0, initialized := true, pendingKeyframe := false }
  else if r.pendingKeyframe then
    { r with
      seqOffset := r.lastOutSeq + 1 - inputSeq
      tsOffset := r.lastOutTs + 1 - inputTs
      pendingKeyframe := false }
  else r

/-- `none` when the packet is dropped. -/
def rewrite (r : SimulcastRewriter) (buf : Bytes) (isKeyframe : Bool) :
    SimulcastRewriter × Option Bytes :=
  if buf.length < 12 then (r, none)
  else if (!r.initialized || r.pendingKeyframe) && !isKeyframe then (r, none)
  else
    let anchored := anchor r (u16At buf 2) (u32At buf 4)
    let outSeq := u16At buf 2 + anchored.seqOffset
    let outTs := u32At buf 4 + anchored.tsOffset
    ({ anchored with lastOutSeq := outSeq, lastOutTs := outTs },
      some (overwrite (overwrite (overwrite buf 8 (bytes32 r.virtualSsrc)) 2 (bytes16 outSeq))
        4 (bytes32 outTs)))

def reverseSeq (r : SimulcastRewriter) (virtual : UInt16) : UInt16 := virtual - r.seqOffset

end SimulcastRewriter

structure SubscribeLayerEntry where
  rid : String
  rewriter : SimulcastRewriter
  deriving DecidableEq, Repr

/-- The video ring: slot `seq % 512` holds the packet stored there last. -/
structure RtpCache where
  slots : Nat → Option Bytes

namespace RtpCache

def new : RtpCache := ⟨fun _ => none⟩

def index (seq : UInt16) : Nat := seq.toNat % rtpCacheSize

def store (c : RtpCache) (seq : UInt16) (plaintext : Bytes) : RtpCache :=
  ⟨Function.update c.slots (index seq) (some plaintext)⟩

def get (c : RtpCache) (seq : UInt16) : Option Bytes :=
  match c.slots (index seq) with
  | some pkt => if rtpHeaderMinSize ≤ pkt.length ∧ u16At pkt 2 = seq then some pkt else none
  | none => none

theorem found {c : RtpCache} {seq : UInt16} {pkt : Bytes} (got : c.get seq = some pkt) :
    c.slots (index seq) = some pkt ∧ rtpHeaderMinSize ≤ pkt.length ∧ u16At pkt 2 = seq := by
  unfold get at got
  split at got
  · rename_i held slot
    split at got
    · rename_i fits
      rw [Option.some.injEq] at got
      subst got
      exact ⟨slot, fits.1, fits.2⟩
    · simp at got
  · simp at got

end RtpCache

inductive EgressPacket where
  | rtp (plaintext : Bytes)
  | rtcp (plaintext : Bytes)
  deriving DecidableEq, Repr

structure IceCredentials where
  ufrag : Ufrag
  pwd : Bytes
  deriving DecidableEq, Repr

structure Participant where
  userId : UserId
  roomId : RoomId
  joinedAt : Nat
  wsTx : ConnId
  publish : IceCredentials
  subscribe : IceCredentials
  deriving DecidableEq, Repr

def Participant.ice (p : Participant) : PcType → IceCredentials
  | .publish => p.publish
  | .subscribe => p.subscribe

/-- `ready`: the SRTP keys of the session are installed. -/
structure SessionState where
  address : Option SocketAddr
  ready : Bool
  deriving DecidableEq, Repr

/-- The PLI burst task in progress: what it asks for, and when. -/
structure PliBurst where
  ssrc : UInt32
  addr : SocketAddr
  delays : List Nat
  deriving DecidableEq, Repr

structure ParticipantState where
  lastSeen : Nat
  publish : SessionState
  subscribe : SessionState
  tracks : List Track
  rtpCache : RtpCache
  rtxSsrcCounter : UInt32
  rtxSeq : UInt16
  egress : List EgressPacket
  rtxBudgetUsed : Nat
  pliBurst : Option PliBurst
  nackSuppressUntilMs : Nat
  rtpGapSuppressUntilMs : Nat
  lastVideoRtpMs : Nat
  twccExtmapId : UInt8
  simulcastVideoSsrc : UInt32
  subscribeLayers : Table UserId SubscribeLayerEntry

def ParticipantState.new (joinedAt : Nat) : ParticipantState where
  lastSeen := joinedAt
  publish := ⟨none, false⟩
  subscribe := ⟨none, false⟩
  tracks := []
  rtpCache := .new
  rtxSsrcCounter := 0
  rtxSeq := 0
  egress := []
  rtxBudgetUsed := 0
  pliBurst := none
  nackSuppressUntilMs := 0
  rtpGapSuppressUntilMs := 0
  lastVideoRtpMs := 0
  twccExtmapId := 0
  simulcastVideoSsrc := 0
  subscribeLayers := ∅

namespace ParticipantState

def touch (s : ParticipantState) (ts : Nat) : ParticipantState := { s with lastSeen := ts }

def address (s : ParticipantState) : PcType → Option SocketAddr
  | .publish => s.publish.address
  | .subscribe => s.subscribe.address

def latchAddress (s : ParticipantState) (pc : PcType) (addr : SocketAddr) : ParticipantState :=
  match pc with
  | .publish => { s with publish := { s.publish with address := some addr } }
  | .subscribe => { s with subscribe := { s.subscribe with address := some addr } }

def installSrtpKeys (s : ParticipantState) : PcType → ParticipantState
  | .publish => { s with publish := { s.publish with ready := true } }
  | .subscribe => { s with subscribe := { s.subscribe with ready := true } }

def isPublishReady (s : ParticipantState) : Bool := s.publish.ready
def isSubscribeReady (s : ParticipantState) : Bool := s.subscribe.ready

def findTrack (s : ParticipantState) (ssrc : UInt32) : Option Track :=
  s.tracks.find? (·.ssrc == ssrc)

def firstVideoSsrc (s : ParticipantState) : Option UInt32 :=
  (s.tracks.find? (·.kind == .video)).map (·.ssrc)

def layerSsrc (s : ParticipantState) (rid : String) : Option UInt32 :=
  (s.tracks.find? fun t => t.kind == .video && t.rid == some rid).map (·.ssrc)

/-- media SSRC + 1000 + counter. -/
def allocRtxSsrc (s : ParticipantState) (mediaSsrc : UInt32) : ParticipantState × UInt32 :=
  ({ s with rtxSsrcCounter := s.rtxSsrcCounter + 1 }, mediaSsrc + 1000 + s.rtxSsrcCounter)

/-- A second track with a registered SSRC is ignored. -/
def addTrackFull (s : ParticipantState) (ssrc : UInt32) (kind : TrackKind) (trackId : String)
    (rid : Option String) (simulcastGroup : Option UInt32) (videoCodec : VideoCodec)
    (actualPt actualRtxPt : UInt8) : ParticipantState :=
  if s.tracks.any (·.ssrc == ssrc) then s
  else
    match kind with
    | .video =>
      let (next, rtx) := s.allocRtxSsrc ssrc
      { next with tracks := s.tracks ++ [⟨ssrc, .video, trackId, some rtx, false, rid,
        simulcastGroup, videoCodec, actualPt, actualRtxPt⟩] }
    | .audio =>
      { s with tracks := s.tracks ++ [⟨ssrc, .audio, trackId, none, false, rid,
        simulcastGroup, videoCodec, actualPt, actualRtxPt⟩] }

/-- `fetch_add` returns the number before the increment. -/
def nextRtxSeq (s : ParticipantState) : ParticipantState × UInt16 :=
  ({ s with rtxSeq := s.rtxSeq + 1 }, s.rtxSeq)

/-- No handler calls it. -/
def removeTrack (s : ParticipantState) (ssrc : UInt32) : ParticipantState × Option Track :=
  match s.tracks.findIdx? (·.ssrc == ssrc) with
  | some pos => ({ s with tracks := s.tracks.eraseIdx pos }, s.tracks[pos]?)
  | none => (s, none)

/-- `try_send` on the bounded egress channel: a full queue drops the packet. -/
def trySend (s : ParticipantState) (pkt : EgressPacket) : ParticipantState :=
  if s.egress.length < egressQueueSize then { s with egress := s.egress ++ [pkt] } else s

def cancelPliBurst (s : ParticipantState) : ParticipantState := { s with pliBurst := none }

def spawnPliBurst (s : ParticipantState) (ssrc : UInt32) (addr : SocketAddr)
    (delays : List Nat) : ParticipantState :=
  { s with pliBurst := some ⟨ssrc, addr, delays⟩ }

/-- A burst needs installed keys, a latched address and an SSRC to ask for. -/
def requestKeyframe (s : ParticipantState) (ssrc : Option UInt32) (delays : List Nat) :
    ParticipantState :=
  match ssrc, s.publish.address with
  | some ssrc, some addr => if s.isPublishReady then s.spawnPliBurst ssrc addr delays else s
  | _, _ => s

/-- A virtual SSRC is drawn once, at first use; `draw` is never zero. -/
def ensureSimulcastVideoSsrc (s : ParticipantState) (draw : { x : UInt32 // x ≠ 0 }) :
    ParticipantState × UInt32 :=
  if s.simulcastVideoSsrc ≠ 0 then (s, s.simulcastVideoSsrc)
  else ({ s with simulcastVideoSsrc := draw.val }, draw.val)

end ParticipantState

abbrev Heap := Ptr → ParticipantState

def mutate (h : Heap) (p : Ptr) (f : ParticipantState → ParticipantState) : Heap :=
  Function.update h p (f (h p))

@[simp] theorem mutate_self (h : Heap) (p : Ptr) (f : ParticipantState → ParticipantState) :
    mutate h p f p = f (h p) := by
  simp [mutate]

theorem mutate_ne {h : Heap} {p q : Ptr} (f : ParticipantState → ParticipantState) (other : q ≠ p) :
    mutate h p f q = h q := by
  simp [mutate, other]

/-- One `try_send` for every listed participant whose subscribe keys are installed. -/
def sendToReady (h : Heap) (targets : List Ptr) (pkt : EgressPacket) : Heap :=
  targets.foldl (fun h p => mutate h p fun s => if s.isSubscribeReady then s.trySend pkt else s) h

section Views
variable {α β σ : Type} {view : ParticipantState → α} {h h' h'' : Heap}

/-- Every participant's state looks the same through `view`. -/
def Shows (view : ParticipantState → α) (h h' : Heap) : Prop := ∀ p, view (h' p) = view (h p)

theorem Shows.refl (view : ParticipantState → α) (h : Heap) : Shows view h h := fun _ => rfl

theorem Shows.trans (first : Shows view h h') (second : Shows view h' h'') : Shows view h h'' :=
  fun p => (second p).trans (first p)

theorem Shows.mutate {p : Ptr} {f : ParticipantState → ParticipantState}
    (kept : view (f (h p)) = view (h p)) : Shows view h (mutate h p f) := by
  intro q
  by_cases here : q = p
  · subst here
    rw [mutate_self, kept]
  · rw [mutate_ne f here]

theorem Shows.fold (heapOf : σ → Heap) {f : σ → β → σ}
    (each : ∀ s b, Shows view (heapOf s) (heapOf (f s b))) (l : List β) (s : σ) :
    Shows view (heapOf s) (heapOf (l.foldl f s)) := by
  induction l generalizing s with
  | nil => exact .refl view (heapOf s)
  | cons b l ih => exact (each s b).trans (ih (f s b))

theorem Shows.mutateAll {f : ParticipantState → ParticipantState}
    (kept : ∀ s, view (f s) = view s) (l : List Ptr) (h : Heap) :
    Shows view h (l.foldl (fun h p => Participants.mutate h p f) h) := by
  apply Shows.fold id
  intro h p
  exact .mutate (kept (h p))

theorem Shows.sendToReady (queued : ∀ s pkt, view (s.trySend pkt) = view s) (h : Heap)
    (targets : List Ptr) (pkt : EgressPacket) : Shows view h (sendToReady h targets pkt) := by
  apply Shows.fold id
  intro h p
  apply Shows.mutate
  split
  · exact queued (h p) pkt
  · rfl

/-- What a queue operation leaves alone. -/
theorem view_trySend (hidden : ∀ s queue, view { s with egress := queue } = view s)
    (s : ParticipantState) (pkt : EgressPacket) : view (s.trySend pkt) = view s := by
  unfold ParticipantState.trySend
  split
  · exact hidden s _
  · rfl

/-- What a keyframe request leaves alone. -/
theorem view_requestKeyframe (hidden : ∀ s burst, view { s with pliBurst := burst } = view s)
    (s : ParticipantState) (ssrc : Option UInt32) (delays : List Nat) :
    view (s.requestKeyframe ssrc delays) = view s := by
  unfold ParticipantState.requestKeyframe
  split
  · split
    · exact hidden s _
    · rfl
  · rfl

/-- What a draw of the virtual SSRC leaves alone. -/
theorem view_ensure (hidden : ∀ s vssrc, view { s with simulcastVideoSsrc := vssrc } = view s)
    (s : ParticipantState) (draw : { x : UInt32 // x ≠ 0 }) :
    view (s.ensureSimulcastVideoSsrc draw).1 = view s := by
  unfold ParticipantState.ensureSimulcastVideoSsrc
  split
  · rfl
  · exact hidden s _

end Views
end Participants
