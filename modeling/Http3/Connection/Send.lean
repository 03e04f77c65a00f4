import Http3.Connection.Feed

/-!
# Sending

Requests, responses, bodies and GOAWAY are queued per stream; QUIC takes the queued bytes with
`takeStreamData`. FIN is handed over on its own, once all bytes before it were taken.
-/

namespace Http3.Connection

open Proc Bytes

/-! ## The local streams -/

def validateSelfInitiatedUniStreamId (env : Env) (streamId : Nat) : Except Error Unit :=
  ensure (isLocalInitiatedUni env.role (.fromStreamId streamId))
    (.connectionError .streamCreationError)

def setControlStreamId (env : Env) (streamId : Nat) : CoreProc Unit := do
  ofExcept (validateSelfInitiatedUniStreamId env streamId)
  let c ← get
  if c.controlSend.streamId.isSome || c.qpack.encoderStreamId = some streamId ||
      c.qpack.decoderStreamId = some streamId then
    throw (.connectionError .streamCreationError)
  else modify fun c => { c with controlSend := { c.controlSend with streamId := some streamId } }

def setEncoderStreamId (env : Env) (streamId : Nat) : CoreProc Unit := do
  ofExcept (validateSelfInitiatedUniStreamId env streamId)
  let c ← get
  if c.qpack.encoderStreamId.isSome || c.controlSend.streamId = some streamId ||
      c.qpack.decoderStreamId = some streamId then
    throw (.connectionError .streamCreationError)
  else
    modify (modifyQpack fun q => { q with
      encoderStreamId := some streamId
      encoderStream := q.encoderStream.writeStreamType
      deferredEncoderSetCapacity := none })
    match c.qpack.deferredEncoderSetCapacity with
    | none => ret ()
    | some capacity =>
      match c.qpack.encoderStream.writeStreamType.encodeSetCapacity capacity with
      | .ok encoderStream => modify (modifyQpack fun q => { q with encoderStream })
      | .error e => throw (.qpack e)

def setDecoderStreamId (env : Env) (streamId : Nat) : CoreProc Unit := do
  ofExcept (validateSelfInitiatedUniStreamId env streamId)
  let c ← get
  if c.qpack.decoderStreamId.isSome || c.controlSend.streamId = some streamId ||
      c.qpack.encoderStreamId = some streamId then
    throw (.connectionError .streamCreationError)
  else
    modify (modifyQpack fun q => { q with
      decoderStreamId := some streamId
      decoderStream :=
        q.deferredStreamCancellations.foldl Qpack.DecoderStream.encodeStreamCancellation
          (q.deferredSectionAcks.foldl Qpack.DecoderStream.encodeSectionAcknowledgment
            q.decoderStream.writeStreamType)
      deferredSectionAcks := []
      deferredStreamCancellations := [] })

def setMaxReceivedBodySize (size : Nat) (c : Core) : Core :=
  { c with
    limits := { c.limits with maxReceivedBodySize := size }
    streams := c.streams.keys.foldl
      (fun m k => m.update k fun s => { s with maxReceivedBodySize := size }) c.streams }

/-! ## Taking queued bytes -/

/-- The queued bytes of a stream, whatever kind of stream it is. -/
def queuedData (c : Core) (streamId : Nat) : Option Bytes :=
  let nonEmpty (data : Bytes) : Option Bytes := if data.isEmpty then none else some data
  (if c.controlSend.streamId = some streamId then nonEmpty c.controlSend.sendBuf.peek else none) <|>
  (if c.qpack.encoderStreamId = some streamId then nonEmpty c.qpack.encoderStream.sendBuffer
    else none) <|>
  (if c.qpack.decoderStreamId = some streamId then nonEmpty c.qpack.decoderStream.sendBuffer
    else none) <|>
  ((c.streams.lookup streamId).bind fun s => nonEmpty s.getSendData.1)

/-- Handing over FIN of a CONNECT stream ends its session. -/
def getStreamData (env : Env) (streamId : Nat) : CoreProc (Option (Bytes × Bool)) := do
  let c ← get
  if (c.streams.lookup streamId).any RequestStream.hasFinPending then
    modify (modifyStream streamId RequestStream.markFinSent)
    onWt (terminateWtSession env streamId)
    ret (some ([], true))
  else ret ((queuedData c streamId).map fun data => (data, false))

def consumeStreamData (streamId len : Nat) : CoreProc Unit := do
  let c ← get
  if c.controlSend.streamId = some streamId then
    match c.controlSend.sendBuf.consume len with
    | some sendBuf => modify fun c => { c with controlSend := { c.controlSend with sendBuf } }
    | none => throw .panicked
  else if c.qpack.encoderStreamId = some streamId then
    modify (modifyQpack fun q => { q with encoderStream := q.encoderStream.consumeData len })
  else if c.qpack.decoderStreamId = some streamId then
    modify (modifyQpack fun q => { q with decoderStream := q.decoderStream.consumeData len })
  else
    match c.streams.lookup streamId with
    | none => ret ()
    | some stream =>
      match stream.consumeSendData len with
      | none => throw .panicked
      | some stream =>
        modify (putStream streamId stream)
        modify (removeStreamIfDone streamId)

def takeStreamData (env : Env) (streamId : Nat) : CoreProc (Option (Bytes × Bool)) := do
  match ← getStreamData env streamId with
  | none => ret none
  | some (data, fin) =>
    if data.isEmpty && !fin then ret none
    else
      consumeStreamData streamId data.length
      ret (some (data, fin))

/-- The three local streams and the bytes to send on each of them. -/
structure H3InitData where
  controlStreamId : Nat
  controlData : Bytes
  encoderStreamId : Nat
  encoderData : Bytes
  decoderStreamId : Nat
  decoderData : Bytes
  deriving DecidableEq

def takeBytes (env : Env) (streamId : Nat) : CoreProc Bytes := do
  let r ← takeStreamData env streamId
  ret ((r.map Prod.fst).getD [])

def initH3Streams (env : Env) (controlStreamId encoderStreamId decoderStreamId : Nat) :
    CoreProc H3InitData := do
  setControlStreamId env controlStreamId
  setEncoderStreamId env encoderStreamId
  setDecoderStreamId env decoderStreamId
  let controlData ← takeBytes env controlStreamId
  let encoderData ← takeBytes env encoderStreamId
  let decoderData ← takeBytes env decoderStreamId
  ret {
    controlStreamId, controlData, encoderStreamId, encoderData, decoderStreamId, decoderData }

/-! ## Field sections -/

/-- Encode into buffers of growing size; every try may change the encoder. -/
def encodeTries (headers : List Header) (blockedCount : Nat) :
    Nat → Nat → Qpack.DynamicEncoder → Except Error Bytes × Qpack.DynamicEncoder
  | 0, _, e => (.error (.connectionError .internalError), e)
  | tries + 1, bufSize, e =>
    match e.encode bufSize headers blockedCount with
    | (some encoded, e) => (.ok encoded, e)
    | (none, e) =>
      if bufSize * 2 < 2 ^ 64 then encodeTries headers blockedCount tries (bufSize * 2) e
      else (.error (.connectionError .internalError), e)

def encodeQpackHeaders (headers : List Header) : CoreProc Bytes := do
  let c ← get
  let r := encodeTries headers c.qpack.encoder.blockedStreamsCount 4
    (Qpack.estimateEncodedSize headers + 64) c.qpack.encoder
  modify (modifyQpack fun q => { q with encoder := r.2 })
  ofExcept r.1

/-- Record that a section was sent. -/
def trackSection (streamId : Nat) (q : QpackState) : QpackState :=
  { q with encoder := q.encoder.trackSection streamId q.encoder.lastRequiredInsertCount }

/-- The peer's limit on the size of a field section. -/
def peerMaxFieldSectionSize (peer : Option Settings) : Option Nat :=
  (peer.bind Settings.maxFieldSectionSize).map VarInt.get

/-! ## Requests -/

/-- The checks of a request before anything changes. -/
def checkRequest (env : Env) (c : Core) (headers : List Header) : Except Error Unit := do
  ensure (env.role = .client) (.connectionError .internalError)
  ensure c.controlSend.streamId.isSome (.connectionError .internalError)
  Validation.validateRequestHeaders headers
  Validation.checkFieldSectionSize headers (peerMaxFieldSectionSize c.peerSettings)
  validateWtConnectRequest env c.peerSettings c.wt headers
  ensure (!c.peerGoawayLastId.any fun id => id.get ≤ c.nextStreamId) (.streamError .requestRejected)

def isConnectMethod (headers : List Header) : Bool := hasHeader headers ":method" "CONNECT"

/-- The stream of a request, before its headers are queued. -/
def requestStream (env : Env) (c : Core) (streamId : Nat) (headers : List Header) :
    RequestStream :=
  { RequestStream.new streamId env.role with
    maxReceivedBodySize := c.limits.maxReceivedBodySize
    isWtConnect := isWebtransportConnect headers
    isHeadRequest := hasHeader headers ":method" "HEAD"
    isConnectRequest := isPlainConnect headers }

/-- The id is used up before the checks that remain. -/
def sendRequestInner (env : Env) (headers : List Header) (fin : Bool) : CoreProc Nat := do
  let c ← get
  ofExcept (checkRequest env c headers)
  let encoded ← encodeQpackHeaders headers
  let streamId := c.nextStreamId
  modify fun c => { c with nextStreamId := c.nextStreamId + 4 }
  if isConnectMethod headers && fin then throw (.streamError .messageError)
  else
    let stream ← ofExcept
      ((requestStream env c streamId headers).sendEncodedHeaders encoded fin false)
    modify (modifyQpack (trackSection streamId))
    modify (putStream streamId stream)
    if isWebtransportConnect headers then
      onWt (modify (putSession streamId (WtSession.new.offer headers)))
    else ret ()
    ret streamId

/-! ## Responses -/

def checkResponse (env : Env) (c : Core) (streamId : Nat) (headers : List Header) :
    Except Error Unit := do
  ensure (env.role = .server) (.connectionError .internalError)
  Validation.validateResponseHeaders headers
  Validation.checkFieldSectionSize headers (peerMaxFieldSectionSize c.peerSettings)
  validateWtResponseProtocol c.wt streamId headers

/-- A 1xx status of three digits, other than 101. -/
def isInterimResponse (headers : List Header) : Bool :=
  headers.any fun h =>
    h.name = ofString ":status" && h.value.length = 3 && h.value.head? = some 0x31 &&
      h.value.tail.all isDigit && h.value ≠ ofString "101"

/-- A final response that is not a success ends a session that is still pending. -/
def rejectWtSession (streamId : Nat) (headers : List Header) : WtProc Unit :=
  if isInterimResponse headers || isSuccessStatus headers then ret ()
  else do
    let w ← get
    match w.wtSessions.lookup streamId with
    | some session => if session.state = .pending then abandonSession streamId session else ret ()
    | none => ret ()

/-- Queue an encoded section on a stream that exists. -/
def queueHeaders (streamId : Nat) (encoded : Bytes) (fin isInterim : Bool) : CoreProc Unit := do
  let c ← get
  match c.streams.lookup streamId with
  | none => throw (.streamNotFound streamId)
  | some stream =>
    let stream ← ofExcept (stream.sendEncodedHeaders encoded fin isInterim)
    modify (putStream streamId stream)

def sendResponseInner (env : Env) (streamId : Nat) (headers : List Header) (fin : Bool) :
    CoreProc Unit := do
  let c ← get
  ofExcept (checkResponse env c streamId headers)
  let encoded ← encodeQpackHeaders headers
  queueHeaders streamId encoded fin (isInterimResponse headers)
  onWt (rejectWtSession streamId headers)
  -- an error leaves the response queued
  onWt (establishWtSessionServer env c.peerSettings streamId headers)
  modify (modifyQpack (trackSection streamId))

def sendBodyInner (streamId : Nat) (data : Bytes) (fin : Bool) : CoreProc Unit := do
  let c ← get
  match c.streams.lookup streamId with
  | none => throw (.streamNotFound streamId)
  | some stream =>
    let stream ← ofExcept (stream.sendBody data fin)
    modify (putStream streamId stream)

/-! ## GOAWAY -/

def sendGoawayInner (env : Env) (id : VarInt) : CoreProc Unit := do
  let c ← get
  ofExcept (ensure (match env.role with | .server => id.get % 4 == 0 | .client => id.get == 0)
    (.connectionError .idError))
  ofExcept (ensure (!c.lastSentGoawayId.any fun last => last.get < id.get)
    (.connectionError .idError))
  let controlSend ← ofExcept (c.controlSend.sendGoaway id)
  modify fun c => { c with controlSend, lastSentGoawayId := some id }

/-! ## Sessions -/

def registerLocalWtStream (env : Env) (sessionId streamId : Nat) : CoreProc Unit := do
  let c ← get
  let kind := StreamKind.fromStreamId streamId
  if !isLocalInitiatedBidi env.role kind && !isLocalInitiatedUni env.role kind then
    throw (.connectionError .idError)
  else if c.wt.wtBidiStreams.contains streamId || c.wt.wtUniStreams.contains streamId then
    throw (.connectionError .streamCreationError)
  else if c.streams.contains streamId then throw (.connectionError .streamCreationError)
  else
    match c.wt.wtSessions.lookup sessionId with
    | none => throw (.connectionError .generalProtocolError)
    | some session =>
      if session.state ≠ .established then throw (.connectionError .generalProtocolError)
      else
        onWt (modify fun w =>
          enterStream (isLocalInitiatedBidi env.role kind) streamId sessionId
            (putSession sessionId (session.associateStream streamId) w))

def wtDataConsumed (sessionId bytes : Nat) (w : WtState) : WtState :=
  { w with wtSessions := w.wtSessions.update sessionId fun s => s.onDataConsumed bytes }

def takeWtPendingCapsules (sessionId : Nat) : WtProc (List Capsule) := do
  let w ← get
  match w.wtSessions.lookup sessionId with
  | none => ret []
  | some session =>
    modify (putSession sessionId { session with pendingCapsules := [] })
    ret session.pendingCapsules

def setWebtransportTransportVerified (maxDatagramFrameSizeNonzero resetStreamAtSupported : Bool) :
    WtProc Unit :=
  if maxDatagramFrameSizeNonzero then
    modify fun w => { w with
      wtTransportVerified := true
      wtResetStreamAtSupported := resetStreamAtSupported }
  else throw (.connectionError .internalError)

/-- A datagram of an established session, as QUIC has to send it. -/
def sendDatagram (env : Env) (c : Core) (sessionId : Nat) (payload : Bytes) :
    Except Error Bytes := do
  ensure (env.localSettings.h3Datagram == some true &&
      c.peerSettings.any fun s => s.h3Datagram == some true)
    (.connectionError .generalProtocolError)
  ensure (sessionId % 4 == 0) (.connectionError .generalProtocolError)
  match c.wt.wtSessions.lookup sessionId with
  | none => .error (.connectionError .generalProtocolError)
  | some session =>
    match session.state with
    | .draining => .error (.wtSessionDraining sessionId)
    | .pending | .closed => .error (.connectionError .generalProtocolError)
    | .established =>
      match Datagram.new sessionId payload with
      | .error _ => .error (.connectionError .internalError)
      | .ok d =>
        match d.encode with
        | some bytes => .ok bytes
        | none => .error .panicked

end Http3.Connection
