import Http3.Frame
import Http3.Stream.Buffer

/-!
# The control stream

Each direction has its own half. The receiving half hands out one frame at a time and insists
that the first one is SETTINGS.
-/

namespace Http3

/-- Does the buffer start with the frame type of WT_STREAM? -/
def isWtStreamFrameType (buf : Bytes) : Bool :=
  match decodeFrameType buf with
  | some t => t.get == 0x41
  | none => false

/-! ## Sending -/

structure ControlStreamSend where
  streamId : Option Nat
  sendBuf : SendBuffer
  /-- SETTINGS was queued -/
  ready : Bool

namespace ControlStreamSend

def new : ControlStreamSend := ⟨none, .new, false⟩

def sendSettings (c : ControlStreamSend) (settings : Settings) :
    Except Error ControlStreamSend :=
  if c.ready then .ok c
  else
    match encodeFrame (.settings (SettingsPayload.fromSettings settings)) with
    | none => .error .panicked
    | some frame =>
      .ok { c with sendBuf := c.sendBuf.push ([0x00] ++ frame), ready := true }

def sendGoaway (c : ControlStreamSend) (id : VarInt) : Except Error ControlStreamSend :=
  if c.ready then
    match encodeFrame (.goaway id) with
    | none => .error .panicked
    | some frame => .ok { c with sendBuf := c.sendBuf.push frame }
  else .error (.connectionError .closedCriticalStream)

theorem sendSettings_streamId {c d : ControlStreamSend} {settings : Settings}
    (h : c.sendSettings settings = .ok d) : d.streamId = c.streamId := by
  unfold sendSettings at h
  split at h
  · cases h
    rfl
  · split at h <;> cases h
    rfl

theorem sendGoaway_streamId {c d : ControlStreamSend} {id : VarInt} (h : c.sendGoaway id = .ok d) :
    d.streamId = c.streamId := by
  unfold sendGoaway at h
  split at h
  · split at h <;> cases h
    rfl
  · cases h

end ControlStreamSend

/-! ## Receiving -/

inductive ControlRecvState where
  | waitingType
  | waitingSettings
  | ready
  deriving DecidableEq, Repr

structure ControlStreamRecv where
  streamId : Option Nat
  recvBuf : RecvBuffer
  recvState : ControlRecvState
  deriving DecidableEq

namespace ControlStreamRecv

def new : ControlStreamRecv := ⟨none, .new, .waitingType⟩

def skipStreamType (c : ControlStreamRecv) : ControlStreamRecv :=
  if c.recvState = .waitingType then { c with recvState := .waitingSettings } else c

def receive (c : ControlStreamRecv) (data : Bytes) : ControlStreamRecv :=
  { c with recvBuf := c.recvBuf.push data }

def hasPendingData (c : ControlStreamRecv) : Bool := !c.recvBuf.peek.isEmpty

def frameHeaderError : FrameDecodeError → Error
  | .http2Frame _ => .connectionError .frameUnexpected
  | .invalidLength => .connectionError .frameError
  | e => .frameDecode e

def frameError : FrameDecodeError → Error
  | .serverPushNotSupported _ => .connectionError .frameUnexpected
  | .invalidSetting _ => .connectionError .settingsError
  | .invalidLength => .connectionError .frameError
  | e => .frameDecode e

/-- May a frame follow SETTINGS? -/
def checkReady : Frame → Bool
  | .settings _ | .data _ | .headers _ => false
  | _ => true

/-- A frame on a stream whose type was read. -/
def processFrame (c : ControlStreamRecv) : Except Error (Option Frame) × ControlStreamRecv :=
  let data := c.recvBuf.peek
  if isWtStreamFrameType data then
    let code := if c.recvState = .waitingSettings then .missingSettings else .frameUnexpected
    (.error (.connectionError code), c)
  else
    match decodeFrameHeader data with
    | .error .bufferTooShort => (.ok none, c)
    | .error e => (.error (frameHeaderError e), c)
    | .ok header =>
      if data.length < header.totalLen then (.ok none, c)
      else
        match decodeFrame data with
        | .error e => (.error (frameError e), c)
        | .ok (frame, consumed) =>
          let c := { c with recvBuf := c.recvBuf.consume consumed }
          if c.recvState = .waitingSettings then
            match frame with
            | .settings _ => (.ok (some frame), { c with recvState := .ready })
            | _ => (.error (.connectionError .missingSettings), c)
          else if checkReady frame then (.ok (some frame), c)
          else (.error (.connectionError .frameUnexpected), c)

def process (c : ControlStreamRecv) : Except Error (Option Frame) × ControlStreamRecv :=
  match c.recvBuf.peek with
  | [] => (.ok none, c)
  | b :: rest =>
    match c.recvState with
    | .waitingType =>
      if b ≠ 0x00 then (.error (.connectionError .streamCreationError), c)
      else
        let c := { c with recvBuf := c.recvBuf.consume 1, recvState := .waitingSettings }
        if rest.isEmpty then (.ok none, c) else processFrame c
    | .waitingSettings | .ready => processFrame c

end ControlStreamRecv

end Http3
