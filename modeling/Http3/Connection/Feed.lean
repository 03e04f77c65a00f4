import Http3.Connection.Control

/-!
# Bytes from QUIC

A stream is classified by its id and its first bytes: control and QPACK streams, WebTransport data
streams, request streams, and streams of unknown types that are ignored.
-/

namespace Http3.Connection

open Proc

/-! ## Request streams -/

/-- The stream of a request, made when its first bytes arrive. -/
def ensureStream (env : Env) (streamId : Nat) (c : Core) : Core :=
  if c.streams.contains streamId then c
  else
    putStream streamId { RequestStream.new streamId env.role with
      maxReceivedBodySize := c.limits.maxReceivedBodySize } c

def handleBidirectionalStream (env : Env) (streamId : Nat) (data : Bytes) (fin : Bool) :
    CoreProc Unit := do
  let c ← get
  if c.wt.closedWtSessions.contains streamId then
    if data.isEmpty && fin then ret () else throw messageError
  else if env.role = .server && !c.streams.contains streamId &&
      c.lastSentGoawayId.any fun id => id.get ≤ streamId then
    throw (.streamError .requestRejected)
  else
    modify (ensureStream env streamId)
    modify (modifyStream streamId fun s => s.receive data fin)
    let c ← get
    if (c.streams.lookup streamId).any RequestStream.qpackBlocked then ret ()
    else processStreamFrames env streamId

/-! ## Streams a client opens towards a server -/

/-- Buffer a WT_STREAM until SETTINGS arrive, within limits. -/
def bufferPreNegotiationWtBidi (streamId : Nat) (data : Bytes) (fin : Bool) : WtProc Unit := do
  let w ← get
  let isNew := !w.pendingWtBidiPreNegotiation.contains streamId
  if isNew && MAX_BUFFERED_STREAMS ≤ w.pendingWtBidiPreNegotiation.keys.length then
    ignorePreNegotiation streamId
  else
    let entry := (w.pendingWtBidiPreNegotiation.lookup streamId).getD ⟨[], false⟩
    if WT_MAX_BUFFERED_STREAM_BYTES < entry.data.length + data.length then
      modify fun w => { w with
        pendingWtBidiPreNegotiation := w.pendingWtBidiPreNegotiation.erase streamId }
      ignorePreNegotiation streamId
    else
      modify fun w => { w with
        pendingWtBidiPreNegotiation :=
          w.pendingWtBidiPreNegotiation.insert streamId
            ⟨entry.data ++ data, entry.fin || fin⟩ }

def setDispatch (streamId : Nat) (buf : Bytes) (w : WtState) : WtState :=
  { w with pendingBidiDispatch := w.pendingBidiDispatch.insert streamId buf }

def dropDispatch (streamId : Nat) (w : WtState) : WtState :=
  { w with pendingBidiDispatch := w.pendingBidiDispatch.erase streamId }

/-- A stream whose first integer is WT_STREAM. -/
def dispatchWtStream (env : Env) (streamId : Nat) (buf : Bytes) (fin : Bool) : CoreProc Unit := do
  let c ← get
  if isWtFullyNegotiated env c.peerSettings c.wt then
    onWt (handleWtBidiStream env c.lastSentGoawayId streamId buf fin)
  else if c.peerSettings.isSome then onWt (ignorePreNegotiation streamId)
  else onWt (bufferPreNegotiationWtBidi streamId buf fin)

/-- Decide by the first integer whether a stream is a request or a WT_STREAM. -/
def dispatchClientBidiStream (env : Env) (streamId : Nat) (data : Bytes) (fin : Bool) :
    CoreProc Unit := do
  let c ← get
  let buf := pendingWith c.wt.pendingBidiDispatch streamId data
  match buf with
  | [] =>
    if fin then
      onWt (modify (dropDispatch streamId))
      handleBidirectionalStream env streamId [] fin
    else onWt (modify (setDispatch streamId []))
  | first :: _ =>
    -- a frame type of one byte is no WT_STREAM
    if first < 0x40 then
      onWt (modify (dropDispatch streamId))
      handleBidirectionalStream env streamId buf fin
    else
      match VarInt.decode buf with
      | .ok (value, _) =>
        onWt (modify (dropDispatch streamId))
        if value.get = 0x41 then dispatchWtStream env streamId buf fin
        else handleBidirectionalStream env streamId buf fin
      | .error _ =>
        if fin then
          onWt (modify (dropDispatch streamId))
          throw (.connectionError .frameError)
        else onWt (modify (setDispatch streamId buf))

/-! ## Unidirectional streams -/

/-- FIN on the control stream or a QPACK stream of the peer. -/
def checkCriticalFin (streamId : Nat) (c : Core) : Except Error Unit :=
  if c.controlRecv.streamId = some streamId then
    if c.controlRecv.hasPendingData then .error (.connectionError .frameError)
    else .error (.connectionError .closedCriticalStream)
  else if c.qpack.peerEncoderStreamId = some streamId ||
      c.qpack.peerDecoderStreamId = some streamId then
    .error (.connectionError .closedCriticalStream)
  else .ok ()

def receiveControl (env : Env) (data : Bytes) : CoreProc Unit := do
  modify fun c => { c with controlRecv := c.controlRecv.receive data }
  processControlStream env

def receiveEncoderStream (data : Bytes) : CoreProc Unit := do
  modify (modifyQpack fun q => { q with encoderStreamRecv := q.encoderStreamRecv.receive data })
  processEncoderStream

def receiveDecoderStream (data : Bytes) : CoreProc Unit := do
  modify (modifyQpack fun q => { q with decoderStreamRecv := q.decoderStreamRecv.receive data })
  processDecoderStream

/-- A stream whose type is known now, with the bytes behind the type. -/
def openUniStream (env : Env) (streamId : Nat) (streamType : Nat) (remaining : Bytes) :
    CoreProc Unit := do
  let c ← get
  match UniStreamType.fromType streamType with
  | some .control =>
    if c.controlRecv.streamId.isSome then throw (.connectionError .streamCreationError)
    else
      modify fun c => { c with
        controlRecv := { c.controlRecv with streamId := some streamId }.skipStreamType }
      if remaining.isEmpty then ret () else receiveControl env remaining
  | some .qpackEncoder =>
    if c.qpack.peerEncoderStreamId.isSome then throw (.connectionError .streamCreationError)
    else
      modify (modifyQpack fun q => { q with peerEncoderStreamId := some streamId })
      if remaining.isEmpty then ret () else receiveEncoderStream remaining
  | some .qpackDecoder =>
    if c.qpack.peerDecoderStreamId.isSome then throw (.connectionError .streamCreationError)
    else
      modify (modifyQpack fun q => { q with peerDecoderStreamId := some streamId })
      if remaining.isEmpty then ret () else receiveDecoderStream remaining
  | some .push =>
    throw (.connectionError (if env.role = .server then .streamCreationError else .idError))
  | some .webTransport =>
    if isWtFullyNegotiated env c.peerSettings c.wt then
      onWt (resolveWtUniStreamSessionId env c.lastSentGoawayId streamId remaining)
    else throw (.streamError .streamCreationError)
  | none => modify fun c => { c with ignoredUniStreams := c.ignoredUniStreams.insert streamId }

/-- FIN that came with the type of a WebTransport stream. -/
def finishNewUni (streamId : Nat) : WtProc Unit := do
  let w ← get
  if w.wtUniStreams.contains streamId then
    modify (leaveStream false streamId)
    emit (.wt (.uniStreamEnd streamId))
  else ret ()
  modify (dropPending false streamId)

def handleNewUnidirectionalStream (env : Env) (streamId : Nat) (data : Bytes) (fin : Bool) :
    CoreProc Unit := do
  let c ← get
  let typeData := pendingWith c.pendingUniStreams streamId data
  match VarInt.decode typeData with
  | .error _ =>
    if fin then
      modify fun c => { c with pendingUniStreams := c.pendingUniStreams.erase streamId }
    else
      modify fun c => { c with pendingUniStreams := c.pendingUniStreams.insert streamId typeData }
  | .ok (streamType, typeLen) =>
    modify fun c => { c with pendingUniStreams := c.pendingUniStreams.erase streamId }
    openUniStream env streamId streamType.get (typeData.drop typeLen)
    if fin then
      let c ← get
      ofExcept (checkCriticalFin streamId c)
      onWt (finishNewUni streamId)
    else ret ()

/-- FIN on a stream that was seen before. -/
def finishUni (env : Env) (streamId : Nat) : CoreProc Unit := do
  let c ← get
  ofExcept (checkCriticalFin streamId c)
  onWt (handleWtUniStreamFin env streamId)
  onWt (modify (dropPending false streamId))
  modify fun c => { c with pendingUniStreams := c.pendingUniStreams.erase streamId }

def handleUnidirectionalStream (env : Env) (streamId : Nat) (data : Bytes) (fin : Bool) :
    CoreProc Unit := do
  let c ← get
  let finish : CoreProc Unit := if fin then finishUni env streamId else ret ()
  if c.ignoredUniStreams.contains streamId then ret ()
  else if isLocalInitiatedUni env.role (.fromStreamId streamId) then ret ()
  else if data.isEmpty then finish
  else if c.controlRecv.streamId = some streamId then
    receiveControl env data
    finish
  else if c.qpack.peerEncoderStreamId = some streamId then
    receiveEncoderStream data
    finish
  else if c.qpack.peerDecoderStreamId = some streamId then
    receiveDecoderStream data
    finish
  else if c.wt.wtUniStreams.contains streamId then
    onWt (handleWtUniStreamData env streamId data)
    finish
  else if c.wt.pendingWtUniStreams.contains streamId then
    onWt (resolveWtUniStreamSessionId env c.lastSentGoawayId streamId data)
    finish
  else handleNewUnidirectionalStream env streamId data fin

/-! ## All streams -/

def feedStreamInner (env : Env) (streamId : Nat) (data : Bytes) (fin : Bool) : CoreProc Unit := do
  let c ← get
  let kind := StreamKind.fromStreamId streamId
  if kind.isUnidirectional then handleUnidirectionalStream env streamId data fin
  else if env.role = .client && kind.isServerInitiated then
    if isWtFullyNegotiated env c.peerSettings c.wt then
      onWt (handleWtBidiStream env c.lastSentGoawayId streamId data fin)
    else throw (.connectionError .streamCreationError)
  else if c.wt.wtBidiStreams.contains streamId || c.wt.pendingWtBidiStreams.contains streamId then
    onWt (handleWtBidiStream env c.lastSentGoawayId streamId data fin)
  else if c.wt.pendingBidiDispatch.contains streamId then
    dispatchClientBidiStream env streamId data fin
  else if c.wt.ignoredPreNegotiationWtBidi.contains streamId then ret ()
  else if c.wt.pendingWtBidiPreNegotiation.contains streamId then
    onWt (bufferPreNegotiationWtBidi streamId data fin)
  else if env.role = .server && kind.isClientInitiated && !c.streams.contains streamId then
    dispatchClientBidiStream env streamId data fin
  else
    let r ← attempt (handleBidirectionalStream env streamId data fin)
    modify (removeStreamIfDone streamId)
    ofExcept r

/-! ## Datagrams -/

/-- A datagram for a session. -/
def receiveDatagram (env : Env) (goaway : Option VarInt) (sessionId : Nat) (payload : Bytes) :
    WtProc Unit := do
  let w ← get
  match w.wtSessions.lookup sessionId with
  | some session =>
    match session.state with
    | .established | .draining => emit (.wt (.datagram sessionId payload))
    | .pending => modify (putSession sessionId (session.bufferDatagram payload))
    | .closed => ret ()
  | none =>
    if w.closedWtSessions.contains sessionId then ret ()
    else if env.role = .client then ret ()
    else if goaway.any fun lastId => lastId.get ≤ sessionId then ret ()
    else if WT_MAX_PENDING_SESSIONS ≤ countPendingWtSessions w then ret ()
    else modify (putSession sessionId (WtSession.new.bufferDatagram payload))

def feedDatagramInner (env : Env) (data : Bytes) : CoreProc Unit := do
  let c ← get
  if isWtFullyNegotiated env c.peerSettings c.wt then
    match Datagram.decode data with
    | .error _ => throw (.connectionError .h3DatagramError)
    | .ok d =>
      if d.sessionId % 4 ≠ 0 then throw (.connectionError .h3DatagramError)
      else onWt (receiveDatagram env c.lastSentGoawayId d.sessionId d.payload)
  else ret ()

/-! ## RESET_STREAM and STOP_SENDING -/

/-- An event of HTTP, unless the procedure finds that WebTransport takes it. -/
def reportUnless (wt : WtProc Bool) (e : Event) : CoreProc Unit := do
  if ← onWt wt then ret () else emit (.event e)

def streamResetInner (env : Env) (streamId errorCode finalSize : Nat) : CoreProc Unit := do
  let c ← get
  if c.controlRecv.streamId = some streamId || c.qpack.peerEncoderStreamId = some streamId ||
      c.qpack.peerDecoderStreamId = some streamId then
    throw (.connectionError .closedCriticalStream)
  else
    modify (modifyStream streamId fun s => { s with state := .reset })
    onWt (modify (dropDispatch streamId))
    modify (clearQpackBlocked streamId)
    modify (modifyQpack (sendStreamCancellationIfNeeded env streamId))
    reportUnless (handleWtStreamReset env streamId errorCode finalSize)
      (.streamReset streamId errorCode)
    modify (removeStreamIfDone streamId)

def stopSendingInner (env : Env) (streamId errorCode : Nat) : CoreProc Unit := do
  let c ← get
  if c.controlSend.streamId = some streamId || c.qpack.encoderStreamId = some streamId ||
      c.qpack.decoderStreamId = some streamId then
    throw (.connectionError .closedCriticalStream)
  else
    modify (modifyStream streamId RequestStream.stopSend)
    modify (clearQpackBlocked streamId)
    modify (modifyQpack (sendStreamCancellationIfNeeded env streamId))
    reportUnless (handleWtStopSending env streamId errorCode) (.stopSending streamId errorCode)
    modify (removeStreamIfDone streamId)

end Http3.Connection
