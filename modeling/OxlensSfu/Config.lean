import Mathlib.Data.List.Basic

/- Protocol constants and payload-type predicates of the server configuration. -/
namespace SfuConfig

def roomMaxCapacity : Nat := 1000
def roomDefaultCapacity : Nat := 1000
def heartbeatTimeoutMs : Nat := 90000
def zombieTimeoutMs : Nat := 120000
def egressQueueSize : Nat := 256
def rtpHeaderMinSize : Nat := 12

def opusPayloadType : UInt8 := 111
def vp8PayloadType : UInt8 := 96
def vp8RtxPayloadType : UInt8 := 97
def h264PayloadType : UInt8 := 102
def h264RtxPayloadType : UInt8 := 103

def isVideoPt (pt : UInt8) : Bool := pt == vp8PayloadType || pt == h264PayloadType
def isAudioPt (pt : UInt8) : Bool := pt == opusPayloadType
def isRtxPt (pt : UInt8) : Bool := pt == vp8RtxPayloadType || pt == h264RtxPayloadType
def rtxPtFor (mediaPt : UInt8) : UInt8 :=
  if mediaPt = h264PayloadType then h264RtxPayloadType else vp8RtxPayloadType

def rtpCacheSize : Nat := 512
def rtcpPtNack : UInt8 := 205
def rtcpFmtNack : UInt8 := 1
def rtcpPtSr : UInt8 := 200
def rtcpPtRr : UInt8 := 201
def rtcpPtPsfb : UInt8 := 206
def rtcpFmtPli : UInt8 := 1
def rtcpFmtRemb : UInt8 := 15
def rtcpPtApp : UInt8 := 204
def mbcpAppName : List UInt8 := [0x4D, 0x42, 0x43, 0x50]
def mbcpSubtypeFreq : UInt8 := 0
def mbcpSubtypeFrel : UInt8 := 1
def mbcpSubtypeFtkn : UInt8 := 2
def mbcpSubtypeFidl : UInt8 := 3
def mbcpSubtypeFrvk : UInt8 := 4
def mbcpSubtypeFpng : UInt8 := 5

inductive RoomMode where
  | conference
  | ptt
  deriving DecidableEq, Repr

def floorMaxBurstMs : Nat := 30000
def floorPingTimeoutMs : Nat := 5000
def floorDefaultPriority : UInt8 := 0
def floorQueueMaxSize : Nat := 10
def floorDefaultDurationS : UInt16 := 30
def rtxBudgetPer3s : Nat := 200

def twccRecorderCapacity : Nat := 8192
def rtcpPtRtpfb : UInt8 := 205
def rtpSeqMaxDropout : UInt16 := 3000
def rtpSeqMaxMisorder : UInt16 := 100
def rtpSeqMinSequential : UInt32 := 2
def clockRateAudio : UInt32 := 48000
def clockRateVideo : UInt32 := 90000

theorem audio_not_video {pt : UInt8} (audio : isAudioPt pt = true) : isVideoPt pt = false := by
  simp only [isAudioPt, beq_iff_eq] at audio
  subst audio
  decide

end SfuConfig
