import Http3.Header
import Http3.Stream.Control

/-!
# Request streams

The state of one bidirectional stream that carries a request and its response. The connection
does the QPACK work: `processRaw` hands out encoded field sections, and while a section waits
for the dynamic table it is kept here.
-/

namespace Http3

inductive RequestSendState where
  | initial
  | interimResponseSent
  | headersSent
  | sendingBody
  | trailersSent
  | complete
  deriving DecidableEq, Repr

inductive RequestRecvState where
  | waitingHeaders
  | receivingBody
  | trailersReceived
  | complete
  deriving DecidableEq, Repr

/-- What a request stream received, before QPACK. -/
inductive RawReceivedData where
  | headers (encoded : Bytes)
  | trailers (encoded : Bytes)
  | data (data : Bytes)
  | streamEnd
  deriving DecidableEq

structure RequestStream where
  streamId : Nat
  sendBuf : SendBuffer
  recvBuf : RecvBuffer
  sendState : RequestSendState
  recvState : RequestRecvState
  state : StreamState
  recvHeaders : List Header
  recvBody : Bytes
  maxReceivedBodySize : Nat
  isHeadRequest : Bool
  /-- a plain CONNECT was sent -/
  isConnectRequest : Bool
  /-- only DATA may follow -/
  isConnect : Bool
  qpackBlocked : Bool
  qpackRicnt : Nat
  /-- the section that waits, and whether it is a trailer -/
  qpackBlockedHeader : Option (Bytes × Bool)
  isWtConnect : Bool
  role : Role
  firstFrameProcessed : Bool

namespace RequestStream

def new (streamId : Nat) (role : Role) : RequestStream where
  streamId := streamId
  sendBuf := .new
  recvBuf := .new
  sendState := .initial
  recvState := .waitingHeaders
  state := .open
  recvHeaders := []
  recvBody := []
  maxReceivedBodySize := Limits.default.maxReceivedBodySize
  isHeadRequest := false
  isConnectRequest := false
  isConnect := false
  qpackBlocked := false
  qpackRicnt := 0
  qpackBlockedHeader := none
  isWtConnect := false
  role := role
  firstFrameProcessed := false

/-! ## Sending -/

/-- Which HEADERS the send state admits. -/
def checkSendHeaders (s : RequestStream) (fin isInterim : Bool) : Except Error Unit :=
  if !s.state.canSend then .error (.streamClosed s.streamId)
  else
    match s.sendState with
    | .trailersSent | .complete => .error (.streamError .frameUnexpected)
    | .headersSent | .sendingBody =>
      if s.isConnect || isInterim then .error (.streamError .frameUnexpected) else .ok ()
    | .initial | .interimResponseSent =>
      if isInterim && fin then .error (.streamError .messageError) else .ok ()

/-- The send state after HEADERS. -/
def afterHeaders (isInterim : Bool) : RequestSendState → RequestSendState
  | .initial | .interimResponseSent => if isInterim then .interimResponseSent else .headersSent
  | .headersSent | .sendingBody => .trailersSent
  | other => other

/-- End the send direction. -/
def finish (s : RequestStream) : RequestStream :=
  { s with sendBuf := s.sendBuf.setFin, state := s.state.closeLocal, sendState := .complete }

def sendEncodedHeaders (s : RequestStream) (encoded : Bytes) (fin isInterim : Bool) :
    Except Error RequestStream := do
  s.checkSendHeaders fin isInterim
  match encodeFrame (.headers encoded) with
  | none => .error .panicked
  | some frame =>
    let s := { s with
      sendBuf := s.sendBuf.push frame
      sendState := afterHeaders isInterim s.sendState }
    .ok (if fin then s.finish else s)

def checkSendBody (s : RequestStream) : Except Error Unit :=
  if !s.state.canSend then .error (.streamClosed s.streamId)
  else
    match s.sendState with
    | .headersSent | .sendingBody => .ok ()
    | _ => .error (.streamError .frameUnexpected)

/-- Queue one DATA frame; no frame for no data. -/
def pushBody (s : RequestStream) (data : Bytes) : Except Error RequestStream :=
  if data.isEmpty then .ok s
  else
    match encodeFrame (.data data) with
    | none => .error .panicked
    | some frame => .ok { s with sendBuf := s.sendBuf.push frame, sendState := .sendingBody }

def sendBody (s : RequestStream) (data : Bytes) (fin : Bool) : Except Error RequestStream := do
  s.checkSendBody
  let s ← s.pushBody data
  .ok (if fin then s.finish else s)

/-- FIN is due once all data was taken, and once only. -/
def hasFinPending (s : RequestStream) : Bool :=
  s.sendBuf.isFin && s.sendBuf.isDataConsumed && !s.sendBuf.isFinSent

def getSendData (s : RequestStream) : Bytes × Bool := (s.sendBuf.peek, s.hasFinPending)

def isSendComplete (s : RequestStream) : Bool :=
  if s.sendBuf.isFin then s.sendBuf.isFinSent else s.sendBuf.isDataConsumed

def hasPendingSend (s : RequestStream) : Bool := s.sendBuf.hasPending

def consumeSendData (s : RequestStream) (len : Nat) : Option RequestStream :=
  (s.sendBuf.consume len).map fun sendBuf => { s with sendBuf }

def discardSendData (s : RequestStream) : RequestStream := { s with sendBuf := s.sendBuf.discard }

/-- STOP_SENDING closes the send direction and drops what is queued. -/
def stopSend (s : RequestStream) : RequestStream :=
  { s with state := s.state.closeLocal }.discardSendData

def markFinSent (s : RequestStream) : RequestStream := { s with sendBuf := s.sendBuf.markFinSent }

/-! ## Receiving -/

def receive (s : RequestStream) (data : Bytes) (fin : Bool) : RequestStream :=
  let recvBuf := s.recvBuf.push data
  { s with recvBuf := if fin then recvBuf.setFin else recvBuf }

/-- Nothing is left to read: the stream may end here. -/
def processEmpty (s : RequestStream) :
    Except Error (Option RawReceivedData) × RequestStream :=
  if s.recvBuf.isFin && s.recvState ≠ .complete then
    if s.recvState = .waitingHeaders then (.error (.streamError .messageError), s)
    else
      (.ok (some .streamEnd),
        { s with state := s.state.closeRemote, recvState := .complete })
  else (.ok none, s)

/-- The first frame a server reads from a client may be WT_STREAM; it is ignored there. -/
def serverFirstFrame (s : RequestStream) : Bool :=
  s.role = .server && !s.firstFrameProcessed &&
    StreamKind.fromStreamId s.streamId = .clientBidi

def frameError : FrameDecodeError → Error
  | .serverPushNotSupported _ => .connectionError .frameUnexpected
  | e => .frameDecode e

/-- Take one complete frame off the buffer; `ok none` when there is none. -/
def nextFrame (s : RequestStream) :
    Except Error (Option Frame) × RequestStream :=
  let data := s.recvBuf.peek
  -- more may come, unless FIN did
  let incomplete := if s.recvBuf.isFin then .error (.connectionError .frameError) else .ok none
  if !s.serverFirstFrame && isWtStreamFrameType data then
    (.error (.connectionError .frameUnexpected), s)
  else
    match decodeFrameHeader data with
    | .error .bufferTooShort => (incomplete, s)
    | .error e => (.error (ControlStreamRecv.frameHeaderError e), s)
    | .ok header =>
      if data.length < header.totalLen then (incomplete, s)
      else if header.frameType.get = 0x04 then (.error (.connectionError .frameUnexpected), s)
      else
        match decodeFrame data with
        | .error e => (.error (frameError e), s)
        | .ok (frame, consumed) =>
          (.ok (some frame),
            { s with recvBuf := s.recvBuf.consume consumed, firstFrameProcessed := true })

def processHeaders (s : RequestStream) (encoded : Bytes) :
    Except Error (Option RawReceivedData) × RequestStream :=
  match s.recvState with
  | .trailersReceived => (.error (.connectionError .frameUnexpected), s)
  | .receivingBody =>
    if s.isConnect then (.error (.connectionError .frameUnexpected), s)
    else (.ok (some (.trailers encoded)), { s with recvState := .trailersReceived })
  | .waitingHeaders | .complete =>
    (.ok (some (.headers encoded)), { s with recvState := .receivingBody })

def processData (s : RequestStream) (data : Bytes) :
    Except Error (Option RawReceivedData) × RequestStream :=
  if s.recvState = .waitingHeaders || s.recvState = .trailersReceived then
    (.error (.connectionError .frameUnexpected), s)
  else if s.isWtConnect then (.ok (some (.data data)), s)
  else if s.maxReceivedBodySize < s.recvBody.length + data.length then
    (.error (.connectionError .excessiveLoad), s)
  else (.ok (some (.data data)), { s with recvBody := s.recvBody ++ data })

/-- At most `fuel` frames, until one of them is reported. -/
def processRawLoop : Nat → RequestStream →
    Except Error (Option RawReceivedData) × RequestStream
  | 0, s => (.ok none, s)
  | fuel + 1, s =>
    if s.recvBuf.peek.isEmpty then s.processEmpty
    else
      match s.nextFrame with
      | (.error e, s) => (.error e, s)
      | (.ok none, s) => (.ok none, s)
      | (.ok (some (.headers encoded)), s) => s.processHeaders encoded
      | (.ok (some (.data data)), s) => s.processData data
      | (.ok (some (.unknown _)), s) => processRawLoop fuel s
      | (.ok (some _), s) => (.error (.connectionError .frameUnexpected), s)

/-- A frame takes at least two bytes, so the buffer's length bounds their number. -/
def processRaw (s : RequestStream) : Except Error (Option RawReceivedData) × RequestStream :=
  processRawLoop (s.recvBuf.peek.length + 1) s

def notifyInformational (s : RequestStream) : RequestStream :=
  if s.recvState = .receivingBody then { s with recvState := .waitingHeaders } else s

def setQpackBlocked (s : RequestStream) (blocked : Bool) (ricnt : Nat)
    (blockedHeader : Option (Bytes × Bool)) : RequestStream :=
  { s with qpackBlocked := blocked, qpackRicnt := ricnt, qpackBlockedHeader := blockedHeader }

end RequestStream

end Http3
