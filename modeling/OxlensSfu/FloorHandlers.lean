import OxlensSfu.Signaling

/-
The handlers that turn floor actions into rewriter calls and messages: WS request
and release, MBCP over RTCP, and the floor timer. Each runs to completion on the
floor of one room.
-/
namespace FloorHandlers
open WireBytes SfuConfig FloorControl PttRewriter KeyedMap Participants RoomHubs Signaling

/-- What a handler works on. `reads` counts the monotonic clock readings it has taken. -/
structure FloorRun where
  ptt : PttState
  heap : Heap
  sent : Outbox
  reads : Nat

def begin_ (ptt : PttState) (heap : Heap) : FloorRun := ⟨ptt, heap, [], 0⟩

section Effects
variable (arcs : Ptr → Participant) (room : Room) (clk : Nat → Instant)

def switchRewriters (run : FloorRun) (speaker : UserId) : FloorRun :=
  { run with
    ptt := { run.ptt with
      audioRewriter := switchSpeaker run.ptt.audioRewriter speaker (clk run.reads)
      videoRewriter := switchSpeaker run.ptt.videoRewriter speaker (clk (run.reads + 1)) }
    reads := run.reads + 2 }

/-- Both rewriters cleared; the silence frames are dropped. -/
def clearRewriters (run : FloorRun) : FloorRun :=
  { run with
    ptt := { run.ptt with
      audioRewriter := (clearSpeaker run.ptt.audioRewriter (clk run.reads)).1
      videoRewriter := (clearSpeaker run.ptt.videoRewriter (clk (run.reads + 1))).1 }
    reads := run.reads + 2 }

def subscribers (room : Room) : List Ptr := values room.participants

/-- Both rewriters cleared; the silence frames go to every ready subscriber. -/
def flushPttSilence (run : FloorRun) : FloorRun :=
  let frames := ((clearSpeaker run.ptt.audioRewriter (clk run.reads)).2).getD []
  { clearRewriters clk run with
    heap := frames.foldl (fun h frame => sendToReady h (subscribers room) (.rtp frame)) run.heap }

def send (run : FloorRun) (events : Outbox) : FloorRun := { run with sent := run.sent ++ events }

/-- A message to one participant, if it is in the room. -/
def sendTo (run : FloorRun) (userId : UserId) (event : WsEvent) : FloorRun :=
  match room.getParticipant userId with
  | some p => send run [((arcs p).wsTx, event)]
  | none => run

def onParticipant (run : FloorRun) (userId : UserId)
    (f : ParticipantState → ParticipantState) : FloorRun :=
  match room.getParticipant userId with
  | some p => { run with heap := mutate run.heap p f }
  | none => run

def floorBurst : List Nat := [0, 500, 1500]

def burstTo (run : FloorRun) (speaker : UserId) : FloorRun :=
  onParticipant room run speaker fun s => s.requestKeyframe s.firstVideoSsrc floorBurst

/-- Switch, ask the new speaker for keyframes, announce. -/
def grant (run : FloorRun) (speaker : UserId) (announce : Outbox) : FloorRun :=
  send (burstTo room (switchRewriters clk run speaker) speaker) announce

def floorRequestAction (requester : UserId) (pid : Nat) (state : FloorRun × Reply)
    (action : FloorAction) : FloorRun × Reply :=
  let (run, response) := state
  match action with
  | .granted speaker priority durationS =>
    (grant room clk run speaker
        (broadcastToOthers arcs room requester (.floorTaken room.id speaker priority)),
      if speaker = requester then .ok opFloorRequest pid (.granted speaker priority durationS)
      else response)
  | .revoked prevSpeaker cause =>
    (sendTo arcs room (onParticipant room run prevSpeaker (·.cancelPliBurst)) prevSpeaker
      (.floorRevoke room.id cause), response)
  | .queued _ position priority queueSize =>
    (run, .ok opFloorRequest pid (.queued position priority queueSize))
  | .denied reason currentSpeaker =>
    (run, .err opFloorRequest pid 2010 (reason ++ " (speaker=" ++ currentSpeaker ++ ")"))
  | _ => (run, response)

def applyFloorAction (op : UInt16) (pid : Nat) (requester : UserId) (state : FloorRun × Reply)
    (action : FloorAction) : FloorRun × Reply :=
  let (run, response) := state
  match action with
  | .granted speaker priority durationS =>
    let taken := grant room clk run speaker
      (broadcastToRoom arcs room (.floorTaken room.id speaker priority))
    (if speaker ≠ requester then
        sendTo arcs room taken speaker (.floorGranted speaker priority durationS)
      else taken, response)
  | .denied reason currentSpeaker =>
    (run, .err op pid 2010 (reason ++ " (speaker=" ++ currentSpeaker ++ ")"))
  | .released prevSpeaker =>
    (send run (broadcastToRoom arcs room (.floorIdle room.id prevSpeaker none)), response)
  | .revoked prevSpeaker cause =>
    (send (sendTo arcs room (onParticipant room run prevSpeaker (·.cancelPliBurst)) prevSpeaker
        (.floorRevoke room.id cause))
      (broadcastToRoom arcs room (.floorIdle room.id prevSpeaker (some cause))), response)
  | _ => (run, response)

def applyFloorActions (op : UInt16) (pid : Nat) (requester : UserId) (run : FloorRun)
    (actions : List FloorAction) : FloorRun × Reply :=
  actions.foldl (applyFloorAction arcs room clk op pid requester) (run, .ok op pid .empty)

/-- The release paths flush once for every Released among the actions. -/
def flushReleased (flush : FloorRun → FloorRun) (run : FloorRun) (actions : List FloorAction) :
    FloorRun :=
  actions.foldl (fun run action => match action with
    | .released _ => flush run
    | _ => run) run

def mbcpName : Bytes := [0x4D, 0x42, 0x43, 0x50]

/-- RTCP APP packet with the text padded to four bytes. -/
def buildMbcpApp (subtype : UInt8) (ssrc : UInt32) (data : Option String) : Bytes :=
  let text := match data with
    | some s => s.toUTF8.toList
    | none => []
  let total := 12 + (text.length + 3) / 4 * 4
  [0x80 ||| (subtype &&& 0x1F), rtcpPtApp] ++ bytes16 (UInt16.ofNat (total / 4 - 1)) ++
    bytes32 ssrc ++ mbcpName ++ text ++ List.replicate (total - 12 - text.length) 0

def broadcastMbcp (run : FloorRun) (pkt : Bytes) : FloorRun :=
  { run with heap := sendToReady run.heap (subscribers room) (.rtcp pkt) }

def sendMbcp (run : FloorRun) (p : Ptr) (pkt : Bytes) : FloorRun :=
  { run with heap := sendToReady run.heap [p] (.rtcp pkt) }

def sendMbcpTo (run : FloorRun) (userId : UserId) (pkt : Bytes) : FloorRun :=
  match room.getParticipant userId with
  | some p => sendMbcp run p pkt
  | none => run

def applyMbcpFloorAction (requester : Ptr) (run : FloorRun) (action : FloorAction) : FloorRun :=
  match action with
  | .granted speaker priority _ =>
    let taken := burstTo room (switchRewriters clk run speaker) speaker
    send (broadcastMbcp room taken (buildMbcpApp mbcpSubtypeFtkn 0 (some speaker)))
      (broadcastToRoom arcs room (.floorTaken room.id speaker priority))
  | .denied reason currentSpeaker =>
    sendMbcp run requester (buildMbcpApp mbcpSubtypeFrvk 0
      (some ("denied: " ++ reason ++ " (speaker=" ++ currentSpeaker ++ ")")))
  | .queued _ position priority queueSize =>
    sendMbcp run requester (buildMbcpApp mbcpSubtypeFrvk 0
      (some ("queued: pos=" ++ toString position ++ " pri=" ++ toString priority ++
        " size=" ++ toString queueSize)))
  | .released prevSpeaker =>
    send (broadcastMbcp room run (buildMbcpApp mbcpSubtypeFidl 0 (some prevSpeaker)))
      (broadcastToRoom arcs room (.floorIdle room.id prevSpeaker none))
  | .revoked prevSpeaker cause =>
    let told := sendMbcpTo room (onParticipant room run prevSpeaker (·.cancelPliBurst)) prevSpeaker
      (buildMbcpApp mbcpSubtypeFrvk 0 (some cause))
    send (broadcastMbcp room (clearRewriters clk told)
        (buildMbcpApp mbcpSubtypeFidl 0 (some prevSpeaker)))
      (broadcastToRoom arcs room (.floorIdle room.id prevSpeaker none))
  | _ => run

def timerAction (run : FloorRun) (action : FloorAction) : FloorRun :=
  match action with
  | .revoked prevSpeaker cause =>
    let cleared := clearRewriters clk (onParticipant room run prevSpeaker (·.cancelPliBurst))
    send (sendTo arcs room cleared prevSpeaker (.floorRevoke room.id cause))
      (broadcastToRoom arcs room (.floorIdle room.id prevSpeaker (some cause)))
  | .granted speaker priority durationS =>
    let taken := burstTo room (switchRewriters clk run speaker) speaker
    send (sendTo arcs room taken speaker (.floorGranted speaker priority durationS))
      (broadcastToRoom arcs room (.floorTaken room.id speaker priority))
  | _ => run

end Effects

section Frames
variable (arcs : Ptr → Participant) (room : Room) (clk : Nat → Instant) (run : FloorRun)

@[simp] theorem send_ptt (events : Outbox) : (send run events).ptt = run.ptt := rfl

@[simp] theorem sendTo_ptt (userId : UserId) (event : WsEvent) :
    (sendTo arcs room run userId event).ptt = run.ptt := by
  unfold sendTo
  split <;> rfl

@[simp] theorem onParticipant_ptt (userId : UserId) (f : ParticipantState → ParticipantState) :
    (onParticipant room run userId f).ptt = run.ptt := by
  unfold onParticipant
  split <;> rfl

@[simp] theorem burstTo_ptt (speaker : UserId) : (burstTo room run speaker).ptt = run.ptt :=
  onParticipant_ptt room run speaker _

@[simp] theorem grant_ptt (speaker : UserId) (announce : Outbox) :
    (grant room clk run speaker announce).ptt = (switchRewriters clk run speaker).ptt := by
  simp [grant]

@[simp] theorem broadcastMbcp_ptt (pkt : Bytes) : (broadcastMbcp room run pkt).ptt = run.ptt := rfl

@[simp] theorem sendMbcpTo_ptt (userId : UserId) (pkt : Bytes) :
    (sendMbcpTo room run userId pkt).ptt = run.ptt := by
  unfold sendMbcpTo
  split <;> rfl

@[simp] theorem flushPttSilence_ptt :
    (flushPttSilence room clk run).ptt = (clearRewriters clk run).ptt := rfl

end Frames

/-- A floor operation on the room: the new floor, and the actions for the handler. -/
def floorOp (ptt : PttState) (op : FloorOp) : PttState × List FloorAction :=
  let (floor, actions) := applyOp ptt.floor op
  ({ ptt with floor := floor }, actions)

section Handlers
variable (arcs : Ptr → Participant) (room : Room) (heap : Heap) (clk : Nat → Instant)

/-- WS FLOOR_REQUEST in a PTT room. -/
def handleFloorRequest (userId : UserId) (pid : Nat) (priority : Option UInt8) (now : Nat) :
    FloorRun × Reply :=
  let (ptt, actions) := floorOp room.toPttState
    (.request userId (priority.getD floorDefaultPriority) now)
  actions.foldl (floorRequestAction arcs room clk userId pid)
    (begin_ ptt heap, .ok opFloorRequest pid .empty)

/-- WS FLOOR_RELEASE in a PTT room: silence first, then the actions. -/
def handleFloorRelease (userId : UserId) (pid : Nat) (grantMs : Nat) : FloorRun × Reply :=
  let (ptt, actions) := floorOp room.toPttState (.release userId grantMs)
  applyFloorActions arcs room clk opFloorRelease pid userId
    (flushReleased (flushPttSilence room clk) (begin_ ptt heap) actions) actions

/-- WS FLOOR_PING; the handler does not look at the mode of the room. -/
def handleFloorPing (userId : UserId) (pid : Nat) (now : Nat) : FloorRun × Reply :=
  let (ptt, actions) := floorOp room.toPttState (.ping userId now)
  (begin_ ptt heap, if actions = [.pingOk] then .ok opFloorPing pid .empty
    else .err opFloorPing pid 2021 "not current speaker")

/-- One MBCP message in a PTT room, from the participant behind `sender`. -/
def handleMbcp (sender : Ptr) (subtype : UInt8) (now grantMs : Nat) : FloorRun :=
  let userId := (arcs sender).userId
  if subtype = mbcpSubtypeFreq then
    let (ptt, actions) := floorOp room.toPttState (.request userId floorDefaultPriority now)
    actions.foldl (applyMbcpFloorAction arcs room clk sender) (begin_ ptt heap)
  else if subtype = mbcpSubtypeFrel then
    let (ptt, actions) := floorOp room.toPttState (.release userId grantMs)
    actions.foldl (applyMbcpFloorAction arcs room clk sender)
      (flushReleased (clearRewriters clk) (begin_ ptt heap) actions)
  else if subtype = mbcpSubtypeFpng then
    begin_ (floorOp room.toPttState (.ping userId now)).1 heap
  else begin_ room.toPttState heap

/-- One tick of the floor timer for one PTT room. -/
def floorTimerTick (now grantMs : Nat) : FloorRun :=
  let (ptt, actions) := floorOp room.toPttState (.checkTimers now grantMs)
  actions.foldl (timerAction arcs room clk) (begin_ ptt heap)

/-- The floor part of a departure: the actions first, then silence if there were any. -/
def floorLeave (userId : UserId) (grantMs : Nat) : FloorRun :=
  let (ptt, actions) := floorOp room.toPttState (.onParticipantLeave userId grantMs)
  if actions.isEmpty then begin_ ptt heap
  else
    flushPttSilence room clk
      (applyFloorActions arcs room clk opFloorRelease 0 userId (begin_ ptt heap) actions).1

end Handlers
end FloorHandlers
