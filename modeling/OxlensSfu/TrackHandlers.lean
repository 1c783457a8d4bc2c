import OxlensSfu.RoomHandlers

/- Track registration and simulcast layer selection. -/
namespace TrackHandlers
open SfuConfig FloorControl PttRewriter KeyedMap Participants RoomHubs RoomHub Signaling
open RoomHandlers

def kindOf (kind : String) : Option TrackKind :=
  if kind = "audio" then some .audio else if kind = "video" then some .video else none

/-- The loop state of the registration: track id counter, simulcast group counter and
    the tracks to announce. -/
structure Publishing where
  state : ParticipantState
  trackIdCounter : Nat
  groupCounter : UInt32
  newTracks : List TrackInfo

def publishTrack (userId : UserId) (pub : Publishing) (t : PublishTrackItem) : Publishing :=
  match kindOf t.kind with
  | none => pub
  | some kind =>
    let trackId := userId ++ "_" ++ toString pub.trackIdCounter
    let next := pub.state.addTrackFull t.ssrc kind trackId t.rid
      (t.rid.map fun _ => pub.groupCounter) (.fromStrOrDefault t.codec) (t.pt.getD 0)
      (t.rtxPt.getD 0)
    { state := next
      trackIdCounter := pub.trackIdCounter + 1
      groupCounter := if t.rid = some "l" then pub.groupCounter + 1 else pub.groupCounter
      newTracks := pub.newTracks ++ [⟨userId, kind, t.ssrc, trackId,
        (next.findTrack t.ssrc).bind (·.rtxSsrc), t.rid⟩] }

/-- Registration on the publisher's own state. -/
def publishAll (s : ParticipantState) (userId : UserId) (req : PublishTracksRequest) :
    Publishing :=
  let tagged := match req.twccExtmapId with
    | some id => { s with twccExtmapId := id }
    | none => s
  req.tracks.foldl (publishTrack userId) ⟨tagged, s.tracks.length, 0, []⟩

def announcePublished (arcs : Ptr → Participant) (room : Room) (heap : Heap)
    (draws : Ptr → NonzeroSsrc) (userId : UserId) (newTracks : List TrackInfo) : Heap × Outbox :=
  let shown := newTracks.filter fun t => !(room.simulcastEnabled && t.rid == some "l")
  let (next, tracks) := simulcastReplaceVideoSsrc room heap draws shown
  (next, if tracks.isEmpty then []
    else broadcastToOthers arcs room userId (.tracksUpdate "add" tracks))

structure TrackOut where
  heap : Heap
  sent : Outbox
  reply : Reply

/-- The room and participant that a session in a room speaks for. -/
def inRoom (hub : RoomHub) (session : Session) (userId : UserId) (op : UInt16) (pid : Nat) :
    Except Reply (Room × Ptr) :=
  match session.currentRoom with
  | none => .error (.err op pid 2004 "not in room")
  | some roomId =>
    match hub.rooms.lookup roomId with
    | none => .error (.err op pid 2001 "room not found")
    | some room =>
      match room.getParticipant userId with
      | none => .error (.err op pid 2004 "not in room")
      | some p => .ok (room, p)

def handlePublishTracks (hub : RoomHub) (session : Session) (pid : Nat) (userId : UserId)
    (d : Option PublishTracksRequest) (draws : Ptr → NonzeroSsrc) : TrackOut :=
  match d with
  | none => ⟨hub.heap, [], .err opPublishTracks pid 3002 "invalid payload"⟩
  | some req =>
    match inRoom hub session userId opPublishTracks pid with
    | .error reply => ⟨hub.heap, [], reply⟩
    | .ok (room, p) =>
      let published := publishAll (hub.heap p) userId req
      let (heap, sent) := announcePublished hub.arcs room
        (mutate hub.heap p fun _ => published.state) draws userId published.newTracks
      ⟨heap, sent, .ok opPublishTracks pid (.registered published.newTracks.length)⟩

/-- The entry of a subscriber for one publisher after it asked for a layer, and whether
    the publisher is to be asked for a keyframe. -/
def selectLayer (old : Option SubscribeLayerEntry) (rid : String) (vssrc : UInt32)
    (now : Instant) : SubscribeLayerEntry × Bool :=
  let entry := old.getD ⟨rid, .new vssrc⟩
  let (chosen, pli) :=
    if old.map (·.rid) = some rid then (entry, !entry.rewriter.initialized && rid != "pause")
    else if rid ≠ "pause" then (⟨rid, entry.rewriter.switchLayer⟩, true)
    else ({ entry with rid := rid }, false)
  (if pli then { chosen with rewriter := chosen.rewriter.markPliSent now } else chosen, pli)

def simulcastBurst : List Nat := [0, 200, 500, 1500]

def subscribeTarget (room : Room) (subscriber : Ptr) (draws : Ptr → NonzeroSsrc) (now : Instant)
    (heap : Heap) (target : SubscribeLayerTarget) : Heap :=
  match room.getParticipant target.userId with
  | none => heap
  | some publisher =>
    let (state, vssrc) := (heap publisher).ensureSimulcastVideoSsrc (draws publisher)
    let drawn := mutate heap publisher fun _ => state
    let (entry, needPli) :=
      selectLayer ((drawn subscriber).subscribeLayers.lookup target.userId) target.rid vssrc now
    let selected := mutate drawn subscriber fun s =>
      { s with subscribeLayers := s.subscribeLayers.insert target.userId entry }
    if needPli then
      mutate selected publisher fun s => s.requestKeyframe (s.layerSsrc target.rid) simulcastBurst
    else selected

def handleSubscribeLayer (hub : RoomHub) (session : Session) (pid : Nat) (userId : UserId)
    (targets : Option (List SubscribeLayerTarget)) (draws : Ptr → NonzeroSsrc) (now : Instant) :
    TrackOut :=
  match targets with
  | none => ⟨hub.heap, [], .err opSubscribeLayer pid 3002 "invalid payload"⟩
  | some targets =>
    match session.currentRoom with
    | none => ⟨hub.heap, [], .err opSubscribeLayer pid 2004 "not in room"⟩
    | some roomId =>
      match hub.rooms.lookup roomId with
      | none => ⟨hub.heap, [], .err opSubscribeLayer pid 2001 "room not found"⟩
      | some room =>
        if !room.simulcastEnabled then
          ⟨hub.heap, [], .err opSubscribeLayer pid 2030 "simulcast not enabled"⟩
        else
          match room.getParticipant userId with
          | none => ⟨hub.heap, [], .err opSubscribeLayer pid 2004 "not in room"⟩
          | some subscriber =>
            ⟨targets.foldl (subscribeTarget room subscriber draws now) hub.heap, [],
              .ok opSubscribeLayer pid .empty⟩

/-- What a registration leaves alone. -/
theorem view_addTrackFull {α : Type} {view : ParticipantState → α}
    (hidden : ∀ s tracks counter,
      view { s with tracks := tracks, rtxSsrcCounter := counter } = view s)
    (s : ParticipantState) (ssrc : UInt32) (kind : TrackKind) (trackId : String)
    (rid : Option String) (group : Option UInt32) (codec : VideoCodec) (pt rtxPt : UInt8) :
    view (s.addTrackFull ssrc kind trackId rid group codec pt rtxPt) = view s := by
  unfold ParticipantState.addTrackFull
  split
  · rfl
  · cases kind with
    | video => exact hidden s _ _
    | audio => exact hidden s _ s.rtxSsrcCounter

/-- What holds before the first item and is kept by every item holds of the registration. -/
theorem publishAll_invariant {good : Publishing → Prop} {u : UserId} {s : ParticipantState}
    (item : ∀ pub t, good pub → good (publishTrack u pub t))
    (plain : good ⟨s, s.tracks.length, 0, []⟩)
    (tagged : ∀ id, good ⟨{ s with twccExtmapId := id }, s.tracks.length, 0, []⟩)
    (req : PublishTracksRequest) : good (publishAll s u req) := by
  have all : ∀ (items : List PublishTrackItem) (pub : Publishing), good pub →
      good (items.foldl (publishTrack u) pub) := by
    intro items
    induction items with
    | nil => exact fun _ kept => kept
    | cons t items ih => exact fun pub kept => ih _ (item pub t kept)
  unfold publishAll
  apply all
  split
  · exact tagged _
  · exact plain

/-- A publication changes nothing but tracks, the RTX counter and the extension id. -/
theorem view_publishAll {u : UserId} {α : Type} {view : ParticipantState → α}
    (hidden : ∀ s tracks counter,
      view { s with tracks := tracks, rtxSsrcCounter := counter } = view s)
    (tagged : ∀ s id, view { s with twccExtmapId := id } = view s) (s : ParticipantState)
    (req : PublishTracksRequest) : view (publishAll s u req).state = view s := by
  apply @publishAll_invariant fun pub => view pub.state = view s
  · intro pub t kept
    unfold publishTrack
    split
    · exact kept
    · exact (view_addTrackFull hidden _ _ _ _ _ _ _ _ _).trans kept
  · rfl
  · exact fun id => tagged s id

/-- What the selection of one layer keeps, the whole message keeps. -/
theorem handleSubscribeLayer_invariant {good : Heap → Prop} {hub : RoomHub} {u : UserId}
    {draws : Ptr → NonzeroSsrc} {now : Instant}
    (select : ∀ {r : RoomId} {room : Room} {subscriber : Ptr} (heap : Heap)
      (target : SubscribeLayerTarget), hub.rooms.lookup r = some room →
      room.participants.lookup u = some subscriber → good heap →
        good (subscribeTarget room subscriber draws now heap target))
    (start : good hub.heap) (session : Session) (pid : Nat)
    (targets : Option (List SubscribeLayerTarget)) :
    good (handleSubscribeLayer hub session pid u targets draws now).heap := by
  unfold handleSubscribeLayer
  split
  · exact start
  split
  · exact start
  split
  · exact start
  split
  · exact start
  split
  · exact start
  rename_i room held _ _ subscriber seat
  have all : ∀ (targets : List SubscribeLayerTarget) (heap : Heap), good heap →
      good (targets.foldl (subscribeTarget room subscriber draws now) heap) := by
    intro targets
    induction targets with
    | nil => exact fun _ kept => kept
    | cons target targets ih => exact fun heap kept => ih _ (select heap target held seat kept)
  exact all _ hub.heap start

end TrackHandlers
