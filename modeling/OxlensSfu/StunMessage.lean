import OxlensSfu.Participant

/-
STUN messages: parser, MESSAGE-INTEGRITY check and binding response. HMAC-SHA1 and
CRC-32 are parameters.
-/
namespace StunMessages
open WireBytes Participants

def magicCookie : UInt32 := 0x2112A442
def headerSize : Nat := 20
def bindingRequest : UInt16 := 0x0001
def bindingResponse : UInt16 := 0x0101
def attrUsername : UInt16 := 0x0006
def attrMessageIntegrity : UInt16 := 0x0008
def attrXorMappedAddress : UInt16 := 0x0020
def attrUseCandidate : UInt16 := 0x0025
def attrFingerprint : UInt16 := 0x8028
def attrSoftware : UInt16 := 0x8022

structure StunAttribute where
  attrType : UInt16
  value : Bytes
  deriving DecidableEq, Repr

/-- `raw` is the message up to its declared length. -/
structure StunMessage where
  msgType : UInt16
  length : UInt16
  transactionId : Bytes
  attributes : List StunAttribute
  raw : Bytes
  deriving DecidableEq, Repr

/-- `(n + 3) & !3`. -/
def padded (n : Nat) : Nat := (n + 3) / 4 * 4

/-- The attribute loop. Every round advances by at least four bytes, so the
    message length is enough fuel. -/
def parseAttributes (buf : Bytes) (total : Nat) : Nat → Nat → List StunAttribute
  | 0, _ => []
  | fuel + 1, offset =>
    if offset + 4 ≤ total then
      let attrLen := (u16At buf (offset + 2)).toNat
      if total < offset + 4 + attrLen then []
      else
        ⟨u16At buf offset, slice buf (offset + 4) (offset + 4 + attrLen)⟩ ::
          parseAttributes buf total fuel (offset + 4 + padded attrLen)
    else []

def parse (buf : Bytes) : Option StunMessage :=
  if buf.length < headerSize then none
  else if byteAt buf 0 &&& 0xC0 ≠ 0 then none
  else if u32At buf 4 ≠ magicCookie then none
  else
    let length := u16At buf 2
    if length.toNat % 4 ≠ 0 then none
    else
      let total := headerSize + length.toNat
      if buf.length < total then none
      else
        some ⟨u16At buf 0, length, slice buf 8 20, parseAttributes buf total total headerSize,
          buf.take total⟩

def continuation (b : UInt8) : Bool := b &&& 0xC0 == 0x80

/-- Well-formed UTF-8: no overlong form, no surrogate, nothing above U+10FFFF. -/
def validUtf8 : Bytes → Bool
  | [] => true
  | a :: as =>
    if a < 0x80 then validUtf8 as
    else
      match as with
      | [] => false
      | b :: bs =>
        if 0xC2 ≤ a && a ≤ 0xDF then continuation b && validUtf8 bs
        else
          match bs with
          | [] => false
          | c :: cs =>
            if 0xE0 ≤ a && a ≤ 0xEF then
              continuation b && continuation c && (a != 0xE0 || 0xA0 ≤ b) &&
                (a != 0xED || b ≤ 0x9F) && validUtf8 cs
            else
              match cs with
              | [] => false
              | d :: ds =>
                0xF0 ≤ a && a ≤ 0xF4 && continuation b && continuation c && continuation d &&
                  (a != 0xF0 || 0x90 ≤ b) && (a != 0xF4 || b ≤ 0x8F) && validUtf8 ds

namespace StunMessage

def getAttr (msg : StunMessage) (attrType : UInt16) : Option StunAttribute :=
  msg.attributes.find? (·.attrType == attrType)

/-- The USERNAME, if it is text. -/
def username (msg : StunMessage) : Option Bytes :=
  match msg.getAttr attrUsername with
  | some a => if validUtf8 a.value then some a.value else none
  | none => none

def hasUseCandidate (msg : StunMessage) : Bool := (msg.getAttr attrUseCandidate).isSome

def messageIntegrity (msg : StunMessage) : Option Bytes :=
  (msg.getAttr attrMessageIntegrity).map (·.value)

end StunMessage

def findAttrOffset (raw : Bytes) (targetType : UInt16) : Nat → Nat → Option Nat
  | 0, _ => none
  | fuel + 1, offset =>
    if offset + 4 ≤ raw.length then
      if u16At raw offset = targetType then some offset
      else findAttrOffset raw targetType fuel
        (offset + (4 + padded (u16At raw (offset + 2)).toNat))
    else none

def iceIntegrityKey (password : Bytes) : Bytes := password

/-- `split(':').next()`: the part of the USERNAME that names the server's session. -/
def serverUfrag (username : Bytes) : Ufrag := username.takeWhile (· ≠ 0x3A)

section Digest
variable (hmacSha1 : Bytes → Bytes → Bytes) (crc32 : Bytes → UInt32)

/-- The HMAC covers the message before the MESSAGE-INTEGRITY attribute, with the
    length field counting that attribute in. -/
def verifyMessageIntegrity (msg : StunMessage) (key : Bytes) : Bool :=
  match msg.messageIntegrity with
  | none => false
  | some received =>
    match findAttrOffset msg.raw attrMessageIntegrity msg.raw.length headerSize with
    | none => false
    | some offset =>
      let covered := overwrite (msg.raw.take offset) 2
        (bytes16 (UInt16.ofNat (offset - headerSize + 24)))
      let expected := hmacSha1 covered key
      expected.length == received.length && (expected.zip received).all fun (a, b) => a == b

def writeAttr (buf : Bytes) (attrType : UInt16) (value : Bytes) : Bytes :=
  buf ++ bytes16 attrType ++ bytes16 (UInt16.ofNat value.length) ++ value ++
    List.replicate ((4 - value.length % 4) % 4) 0

def setLength (buf : Bytes) (length : Nat) : Bytes :=
  overwrite buf 2 (bytes16 (UInt16.ofNat length))

def encodeXorMappedAddress (addr : SocketAddr) (transactionId : Bytes) : Bytes :=
  match addr with
  | .v4 ip port =>
    [0, 1] ++ bytes16 (port ^^^ 0x2112) ++ List.zipWith (· ^^^ ·) ip.toList (bytes32 magicCookie)
  | .v6 ip port _ _ =>
    [0, 2] ++ bytes16 (port ^^^ 0x2112) ++
      List.zipWith (· ^^^ ·) ip.toList (bytes32 magicCookie ++ transactionId)

/-- "light-livechat". -/
def software : Bytes :=
  [0x6C, 0x69, 0x67, 0x68, 0x74, 0x2D, 0x6C, 0x69, 0x76, 0x65, 0x63, 0x68, 0x61, 0x74]

def buildBindingResponse (transactionId : Bytes) (remote : SocketAddr) (key : Bytes) : Bytes :=
  let header := bytes16 bindingResponse ++ bytes16 0 ++ bytes32 magicCookie ++ transactionId
  let mapped := writeAttr header attrXorMappedAddress (encodeXorMappedAddress remote transactionId)
  let named := writeAttr mapped attrSoftware software
  let covered := setLength named (named.length - headerSize + 24)
  let signed := writeAttr covered attrMessageIntegrity (hmacSha1 covered key)
  let counted := setLength signed (signed.length - headerSize + 8)
  let printed := writeAttr counted attrFingerprint (bytes32 (crc32 counted ^^^ 0x5354554E))
  setLength printed (printed.length - headerSize)

end Digest
end StunMessages
