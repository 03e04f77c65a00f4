import Http3.Error

/-!
# HTTP/3 frames

`decodeFrame` returns the frame and the bytes it took. The payload of an unknown type is kept
behind a proof that its type is neither known nor reserved by HTTP/2, so `UnknownFrame` holds
only what the last arm of the decoder can meet.
-/

namespace Http3

inductive FrameType where
  | data
  | headers
  | cancelPush
  | settings
  | pushPromise
  | goaway
  | maxPushId
  deriving DecidableEq, Repr

namespace FrameType

def code : FrameType → VarInt
  | data => .fromStatic 0x00 VarInt.zero_le_max
  | headers => .fromStatic 0x01 VarInt.one_le_max
  | cancelPush => .fromStatic 0x03
  | settings => .fromStatic 0x04
  | pushPromise => .fromStatic 0x05
  | goaway => .fromStatic 0x07
  | maxPushId => .fromStatic 0x0d

def fromType : Nat → Option FrameType
  | 0x00 => some data
  | 0x01 => some headers
  | 0x03 => some cancelPush
  | 0x04 => some settings
  | 0x05 => some pushPromise
  | 0x07 => some goaway
  | 0x0d => some maxPushId
  | _ => none

def isHttp2Only (t : Nat) : Bool := t == 0x02 || t == 0x06 || t == 0x08 || t == 0x09

end FrameType

structure UnknownFrame where
  frameType : VarInt
  payload : Bytes
  unknown : FrameType.fromType frameType.get = none
  notHttp2 : FrameType.isHttp2Only frameType.get = false

inductive Frame where
  | data (payload : Bytes)
  | headers (encodedFieldSection : Bytes)
  | settings (payload : SettingsPayload)
  | goaway (id : VarInt)
  | maxPushId (id : VarInt)
  | unknown (frame : UnknownFrame)

/-! ## Decoding -/

structure FrameHeader where
  frameType : VarInt
  payloadLen : VarInt
  headerLen : Nat
  deriving DecidableEq

def FrameHeader.totalLen (h : FrameHeader) : Nat := h.headerLen + h.payloadLen.get

def decodeFrameType (buf : Bytes) : Option VarInt :=
  match VarInt.decode buf with
  | .ok (t, _) => some t
  | .error _ => none

def decodeFrameHeader (buf : Bytes) : Except FrameDecodeError FrameHeader :=
  match VarInt.decode buf with
  | .error _ => .error .bufferTooShort
  | .ok (frameType, typeLen) =>
    match VarInt.decode (buf.drop typeLen) with
    | .error _ => .error .bufferTooShort
    | .ok (payloadLen, lenLen) =>
      if FrameType.isHttp2Only frameType.get then .error (.http2Frame frameType)
      else .ok ⟨frameType, payloadLen, typeLen + lenLen⟩

/-- The parameters of a complete payload; `fuel` bounds their number. -/
def decodeSettingsLoop (acc : SettingsPayload) :
    Nat → Bytes → Except FrameDecodeError SettingsPayload
  | 0, _ => .ok acc
  | fuel + 1, payload =>
    if payload.isEmpty then .ok acc
    else
      match VarInt.decode payload with
      | .error _ => .error .invalidLength
      | .ok (id, idLen) =>
        match VarInt.decode (payload.drop idLen) with
        | .error _ => .error .invalidLength
        | .ok (value, valueLen) =>
          match Setting.fromWire id value with
          | .error e => .error (.invalidSetting e)
          | .ok setting =>
            match acc.add setting with
            | .error e => .error (.invalidSetting e)
            | .ok acc' => decodeSettingsLoop acc' fuel ((payload.drop idLen).drop valueLen)

def decodeSettingsFrame (payload : Bytes) : Except FrameDecodeError Frame :=
  (decodeSettingsLoop .new payload.length payload).map .settings

/-- A payload that is one integer and nothing else. -/
def decodeSingleVarInt (payload : Bytes) : Except FrameDecodeError VarInt :=
  match VarInt.decode payload with
  | .error _ => .error .invalidLength
  | .ok (id, consumed) => if consumed ≠ payload.length then .error .invalidLength else .ok id

def decodeGoawayFrame (payload : Bytes) : Except FrameDecodeError Frame :=
  (decodeSingleVarInt payload).map .goaway

def decodeMaxPushIdFrame (payload : Bytes) : Except FrameDecodeError Frame :=
  (decodeSingleVarInt payload).map .maxPushId

theorem decodeFrameHeader_notHttp2 {buf : Bytes} {h : FrameHeader}
    (hd : decodeFrameHeader buf = .ok h) : FrameType.isHttp2Only h.frameType.get = false := by
  unfold decodeFrameHeader at hd
  split at hd
  · cases hd
  · split at hd
    · cases hd
    · split at hd
      · cases hd
      · rename_i hn
        cases hd
        simpa using hn

/-- The frame of a complete payload. -/
def decodePayload (frameType : VarInt) (hn : FrameType.isHttp2Only frameType.get = false)
    (payload : Bytes) : Except FrameDecodeError Frame :=
  match ht : FrameType.fromType frameType.get with
  | some .data => .ok (.data payload)
  | some .headers => .ok (.headers payload)
  | some .settings => decodeSettingsFrame payload
  | some .goaway => decodeGoawayFrame payload
  | some .maxPushId => decodeMaxPushIdFrame payload
  | some .cancelPush | some .pushPromise => .error (.serverPushNotSupported frameType)
  | none => .ok (.unknown ⟨frameType, payload, ht, hn⟩)

def decodeFrame (buf : Bytes) : Except FrameDecodeError (Frame × Nat) :=
  match hd : decodeFrameHeader buf with
  | .error e => .error e
  | .ok header =>
    if buf.length < header.totalLen then .error .bufferTooShort
    else
      let payload := (buf.take header.totalLen).drop header.headerLen
      (decodePayload header.frameType (decodeFrameHeader_notHttp2 hd) payload).map
        fun frame => (frame, header.totalLen)

/-! ## Encoding -/

/-- A type, a length and the payload; `none` when the length has no encoding. -/
def encodeWithHeader (frameType : VarInt) (payload : Bytes) : Option Bytes :=
  match VarInt.new payload.length with
  | .ok payloadLen => some (frameType.encode ++ payloadLen.encode ++ payload)
  | .error _ => none

def encodeSettings (p : SettingsPayload) : Bytes :=
  p.settings.flatMap fun s => s.asWire.1.encode ++ s.asWire.2.encode

def encodeFrame : Frame → Option Bytes
  | .data payload => encodeWithHeader FrameType.data.code payload
  | .headers fieldSection => encodeWithHeader FrameType.headers.code fieldSection
  | .settings p => encodeWithHeader FrameType.settings.code (encodeSettings p)
  | .goaway id => encodeWithHeader FrameType.goaway.code id.encode
  | .maxPushId id => encodeWithHeader FrameType.maxPushId.code id.encode
  | .unknown f =>
    -- 0x41 opens a stream without a length and is never sent as a frame
    if f.frameType.get = 0x41 then none else encodeWithHeader f.frameType f.payload

end Http3
