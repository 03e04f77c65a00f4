import Http3.Lib.Utf8
import Http3.VarInt

/-!
# Capsules and datagrams

What a CONNECT stream and the QUIC datagrams of a WebTransport session carry. Only the receiving
side decodes; the capsules a connection wants sent are handed out as values.
-/

namespace Http3

def MAX_STREAMS_LIMIT : Nat := 2 ^ 60

def MAX_CLOSE_SESSION_MESSAGE_LEN : Nat := 1024

inductive CapsuleType where
  | closeSession
  | drainSession
  | maxData
  | maxStreamsBidi
  | maxStreamsUni
  | dataBlocked
  | streamsBlockedBidi
  | streamsBlockedUni
  deriving DecidableEq, Repr

def CapsuleType.fromType : Nat → Option CapsuleType
  | 0x2843 => some closeSession
  | 0x78ae => some drainSession
  | 0x190b4d3d => some maxData
  | 0x190b4d3f => some maxStreamsBidi
  | 0x190b4d40 => some maxStreamsUni
  | 0x190b4d41 => some dataBlocked
  | 0x190b4d43 => some streamsBlockedBidi
  | 0x190b4d44 => some streamsBlockedUni
  | _ => none

/-- The message of `closeSession` is kept as its UTF-8 bytes. -/
inductive Capsule where
  | closeSession (errorCode : Nat) (message : Bytes)
  | drainSession
  | maxData (maximum : Nat)
  | maxStreams (bidirectional : Bool) (maximum : Nat)
  | dataBlocked (maximum : Nat)
  | streamsBlocked (bidirectional : Bool) (maximum : Nat)
  | unknown (capsuleType : Nat) (payload : Bytes)
  deriving DecidableEq, Repr

namespace Capsule

/-- The two types that belong to WebTransport over HTTP/2 only. -/
def isProhibitedInHttp3Type (t : Nat) : Bool := t == 0x190b4d3e || t == 0x190b4d42

/-- The number of an unknown capsule; the known types are all allowed. -/
def isProhibitedInHttp3 : Capsule → Bool
  | unknown t _ => isProhibitedInHttp3Type t
  | _ => false

/-- `none` stands for a malformed payload. -/
def decodeExactVarint (payload : Bytes) : Option Nat :=
  match VarInt.decode payload with
  | .ok (v, consumed) => if consumed ≠ payload.length then none else some v.get
  | .error _ => none

def decodePayload (capsuleType : Nat) (payload : Bytes) : Option Capsule :=
  match CapsuleType.fromType capsuleType with
  | some .closeSession =>
    if payload.length < 4 then none
    else
      let message := payload.drop 4
      if MAX_CLOSE_SESSION_MESSAGE_LEN < message.length then none
      else if Utf8.isValid message then
        some (.closeSession (Bytes.beValue (payload.take 4)) message)
      else none
  | some .drainSession => if payload.isEmpty then some .drainSession else none
  | some .maxData => (decodeExactVarint payload).map .maxData
  | some .maxStreamsBidi => (decodeExactVarint payload).map (.maxStreams true)
  | some .maxStreamsUni => (decodeExactVarint payload).map (.maxStreams false)
  | some .dataBlocked => (decodeExactVarint payload).map .dataBlocked
  | some .streamsBlockedBidi => (decodeExactVarint payload).map (.streamsBlocked true)
  | some .streamsBlockedUni => (decodeExactVarint payload).map (.streamsBlocked false)
  | none => some (.unknown capsuleType payload)

inductive DecodeError where
  | malformed
  deriving DecidableEq, Repr

/-- `ok none` while the capsule is incomplete. -/
def decode (buf : Bytes) : Except DecodeError (Option (Capsule × Nat)) :=
  match VarInt.decode buf with
  | .error _ => .ok none
  | .ok (capsuleType, typeLen) =>
    match VarInt.decode (buf.drop typeLen) with
    | .error _ => .ok none
    | .ok (length, lenLen) =>
      let offset := typeLen + lenLen
      let stop := offset + length.get
      if buf.length < stop then .ok none
      else
        match decodePayload capsuleType.get ((buf.take stop).drop offset) with
        | some capsule => .ok (some (capsule, stop))
        | none => .error .malformed

end Capsule

/-! ## Datagrams -/

structure Datagram where
  sessionId : Nat
  payload : Bytes
  deriving DecidableEq, Repr

inductive DatagramError where
  | invalidSessionId
  | sessionIdOutOfRange
  deriving DecidableEq, Repr

inductive DatagramDecodeError where
  | bufferTooShort
  | invalidQuarterStreamId
  deriving DecidableEq, Repr

namespace Datagram

def new (sessionId : Nat) (payload : Bytes) : Except DatagramError Datagram :=
  if VarInt.max.get < sessionId then .error .sessionIdOutOfRange
  else if sessionId % 4 ≠ 0 then .error .invalidSessionId
  else .ok ⟨sessionId, payload⟩

def quarterStreamId (d : Datagram) : Nat := d.sessionId / 4

/-- `none` where the quarter stream id has no encoding; `new` excludes that. -/
def encode (d : Datagram) : Option Bytes :=
  match VarInt.new d.quarterStreamId with
  | .ok q => some (q.encode ++ d.payload)
  | .error _ => none

def decode (buf : Bytes) : Except DatagramDecodeError Datagram :=
  match VarInt.decode buf with
  | .error _ => .error .bufferTooShort
  | .ok (qsi, varintLen) =>
    if 2 ^ 60 - 1 < qsi.get then .error .invalidQuarterStreamId
    else .ok ⟨qsi.get * 4, buf.drop varintLen⟩

end Datagram

end Http3
