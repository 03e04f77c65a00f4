import Http3.Connection.WtConnect

/-!
# Frames of a request stream

The frames of a stream are taken one at a time; a field section that the dynamic table cannot
decode yet stops the stream until `retryBlockedStreams` takes it up again.
-/

namespace Http3.Connection

open Proc

def MAX_DEFERRED_WT_CONNECTS : Nat := 16

/-! ## The table of streams -/

def modifyStream (streamId : Nat) (f : RequestStream → RequestStream) (c : Core) : Core :=
  { c with streams := c.streams.update streamId f }

def putStream (streamId : Nat) (stream : RequestStream) (c : Core) : Core :=
  { c with streams := c.streams.insert streamId stream }

/-- Both directions are over and everything was handed to QUIC, or the stream was reset. -/
def isStreamDone (s : RequestStream) : Bool :=
  s.state = .reset || (s.state = .closed && s.isSendComplete)

def removeStreamIfDone (streamId : Nat) (c : Core) : Core :=
  if (c.streams.lookup streamId).any isStreamDone || c.wt.closedWtSessions.contains streamId then
    { c with streams := c.streams.erase streamId }
  else c

/-! ## QPACK -/

def modifyQpack (f : QpackState → QpackState) (c : Core) : Core := { c with qpack := f c.qpack }

/-- Queue a Section Acknowledgment for the section decoded last, if it used the table. -/
def acknowledgeSection (streamId : Nat) (q : QpackState) : QpackState :=
  if 0 < q.dynamicDecoder.lastRequiredInsertCount then
    if q.decoderStreamId.isSome then
      { q with decoderStream := q.decoderStream.encodeSectionAcknowledgment streamId }
    else { q with deferredSectionAcks := q.deferredSectionAcks ++ [streamId] }
  else q

def decodeSection (streamId : Nat) (encoded : Bytes) : CoreProc Qpack.DecodeOutput := do
  let c ← get
  let r := c.qpack.dynamicDecoder.decode encoded
  modify (modifyQpack fun q => { q with dynamicDecoder := r.2 })
  match r.1 with
  | .ok output => ret output
  | .error e =>
    emit (.undecodable streamId e)
    throw (.qpack e)

/-- Keep a section until the table has grown. -/
def registerBlocked (streamId : Nat) (encoded : Bytes) (isTrailer : Bool) (c : Core) : Core :=
  let ricnt := c.qpack.dynamicDecoder.lastRequiredInsertCount
  modifyStream streamId (fun s => s.setQpackBlocked true ricnt (some (encoded, isTrailer)))
    { c with blockedByRicnt := c.blockedByRicnt.insert (ricnt, streamId) }

/-! ## Header sections -/

def headerEvents (streamId : Nat) (headers : List Header) : List Obs :=
  .event (.headersBegin streamId) ::
    headers.map (fun h => .event (.header streamId h.name h.value)) ++
    [.event (.headersEnd streamId)]

/-- Set a WebTransport CONNECT aside until SETTINGS arrive. -/
def deferWtConnect (streamId : Nat) (headers : List Header) : CoreProc Unit := do
  let c ← get
  if MAX_DEFERRED_WT_CONNECTS ≤ c.wt.deferredWtConnects.keys.length then throw messageError
  else
    onWt (deferSession streamId headers)
    modify (modifyQpack (acknowledgeSection streamId))
    modify (modifyStream streamId fun s => { s with recvHeaders := headers })

def registerWtConnectSession (env : Env) (streamId : Nat) (headers : List Header) :
    CoreProc Unit :=
  if env.role ≠ .server || !isWebtransportConnect headers then ret ()
  else do
    onWt (registerSession streamId headers)
    modify (modifyStream streamId fun s => { s with isConnect := true, isWtConnect := true })

/-- What the headers say about the frames that may follow. -/
def noteHeaders (env : Env) (headers : List Header) (s : RequestStream) : RequestStream :=
  let s := if env.role = .server && isPlainConnect headers then { s with isConnect := true } else s
  let s :=
    if env.role = .client && isInformationalStatus headers then s.notifyInformational else s
  if env.role = .client && isSuccessStatus headers && s.isConnectRequest then
    { s with isConnect := true }
  else s

/-- Report a section and acknowledge it. -/
def reportHeaders (streamId : Nat) (headers : List Header) : CoreProc Unit := do
  modify (modifyQpack (acknowledgeSection streamId))
  emitAll (headerEvents streamId headers)

/-- A response that establishes a session turns its stream into a CONNECT stream. -/
def noteConnectResponse (env : Env) (streamId : Nat) (headers : List Header) : CoreProc Unit := do
  let c ← get
  if ← onWt (handleWtConnectResponse env c.peerSettings streamId headers) then
    modify (modifyStream streamId fun s => { s with isConnect := true })
  else ret ()

/-- A header section that is not set aside. -/
def acceptHeaders (env : Env) (streamId : Nat) (headers : List Header) : CoreProc Unit := do
  registerWtConnectSession env streamId headers
  modify (modifyStream streamId (noteHeaders env headers))
  noteConnectResponse env streamId headers
  modify (modifyStream streamId fun s => { s with recvHeaders := headers })
  reportHeaders streamId headers

def emitHeaderEvents (env : Env) (streamId : Nat) (headers : List Header) (isTrailer : Bool) :
    CoreProc Unit :=
  if isTrailer then do
    ofExcept (Validation.validateTrailerHeaders headers)
    reportHeaders streamId headers
  else do
    ofExcept (Validation.validateHeaders headers env.role)
    let c ← get
    ofExcept (validateWtConnectRequestServer env c.peerSettings c.wt streamId headers)
    if env.role = .server && c.peerSettings.isNone && isWebtransportConnect headers then
      deferWtConnect streamId headers
    else acceptHeaders env streamId headers

/-! ## Frames -/

/-- Decode a section and report it; the answer is whether to go on with the stream. -/
def processSection (env : Env) (streamId : Nat) (encoded : Bytes) (isTrailer : Bool) :
    CoreProc Bool := do
  match ← decodeSection streamId encoded with
  | .decoded headers =>
    emit (.fieldSection streamId headers isTrailer)
    emitHeaderEvents env streamId headers isTrailer
    ret true
  | .blocked =>
    let c ← get
    if c.limits.qpackBlockedStreams ≤ c.blockedByRicnt.length then
      throw (.connectionError .qpackDecompressionFailed)
    else
      modify (registerBlocked streamId encoded isTrailer)
      ret false

/-- Does the body fit the content length of these headers? -/
def checkBody (env : Env) (stream : RequestStream) (headers : List Header) : Except Error Unit :=
  Validation.validateContentLength headers stream.recvBody.length
    (env.role = .client && (stream.isHeadRequest || isNoBodyStatus headers))

def processData (env : Env) (streamId : Nat) (bodyLen : Nat) (data : Bytes) : CoreProc Unit := do
  emit (.dataReceived streamId data)
  let c ← get
  if ← onWt (handleWtDataFrame env c.peerSettings bodyLen streamId data) then ret ()
  else emit (.event (.data streamId data))

def processStreamEnd (env : Env) (streamId : Nat) (stream : RequestStream) : CoreProc Unit := do
  ofExcept (checkBody env stream stream.recvHeaders)
  onWt (handleWtStreamEnd env streamId)
  let c ← get
  if c.wt.closedWtSessions.contains streamId then ret ()
  else emit (.event (.streamEnd streamId))

/-- One frame of a stream; the answer is whether to go on. -/
def processStreamFrame (env : Env) (streamId : Nat) : CoreProc Bool := do
  let c ← get
  match c.streams.lookup streamId with
  | none => throw .panicked
  | some stream =>
    let r := stream.processRaw
    modify (putStream streamId r.2)
    match ← ofExcept r.1 with
    | none => ret false
    | some (.headers encoded) => processSection env streamId encoded false
    | some (.trailers encoded) => processSection env streamId encoded true
    | some (.data data) =>
      processData env streamId r.2.recvBody.length data
      ret true
    | some .streamEnd =>
      processStreamEnd env streamId r.2
      ret true

/-- All bytes a stream has buffered; each round but the last two takes two of them. -/
def frameFuel (c : Core) (streamId : Nat) : Nat :=
  match c.streams.lookup streamId with
  | some stream => stream.recvBuf.peek.length + 2
  | none => 1

def processStreamFrames (env : Env) (streamId : Nat) : CoreProc Unit := do
  let c ← get
  loop (processStreamFrame env streamId) (frameFuel c streamId)
  modify (removeStreamIfDone streamId)

/-! ## Blocked streams -/

/-- The body that came while the headers waited: it is checked once the stream has ended. -/
def checkRetriedBody (env : Env) (c : Core) (streamId : Nat) (headers : List Header)
    (isTrailer : Bool) : Except Error Unit :=
  match c.streams.lookup streamId with
  | some stream =>
    if !isTrailer && (stream.state = .remoteClosed || stream.state = .closed) then
      checkBody env stream headers
    else .ok ()
  | none => .ok ()

/-- Decode the section that a stream waits with, then the frames behind it. -/
def retryStream (env : Env) (streamId : Nat) : CoreProc Unit := do
  let c ← get
  match (c.streams.lookup streamId).bind RequestStream.qpackBlockedHeader with
  | none => ret ()
  | some (encoded, isTrailer) =>
    modify (modifyStream streamId fun s => { s with qpackBlockedHeader := none })
    match ← decodeSection streamId encoded with
    | .decoded headers =>
      emit (.fieldSection streamId headers isTrailer)
      modify (modifyStream streamId fun s => s.setQpackBlocked false 0 none)
      let c ← get
      ofExcept (checkRetriedBody env c streamId headers isTrailer)
      emitHeaderEvents env streamId headers isTrailer
      processStreamFrames env streamId
    | .blocked => modify (registerBlocked streamId encoded isTrailer)

/-- All sections that the table allows now leave the set before the first of them is decoded. -/
def retryBlockedStreams (env : Env) : CoreProc Unit := do
  let c ← get
  let unblockable := c.blockedByRicnt.upTo c.qpack.dynamicDecoder.table.insertCount
  modify fun c => { c with
    blockedByRicnt := c.blockedByRicnt.filter fun e => !unblockable.contains e }
  each unblockable fun e => retryStream env e.2

/-- Forget a blocked section. -/
def clearQpackBlocked (streamId : Nat) (c : Core) : Core :=
  match c.streams.lookup streamId with
  | some stream =>
    { c with
      blockedByRicnt :=
        if stream.qpackBlocked then c.blockedByRicnt.erase (stream.qpackRicnt, streamId)
        else c.blockedByRicnt
      streams := c.streams.insert streamId (stream.setQpackBlocked false 0 none) }
  | none => c

/-- Queue a Stream Cancellation, when the table may be used at all. -/
def sendStreamCancellationIfNeeded (env : Env) (streamId : Nat) (q : QpackState) : QpackState :=
  if settingOr env.localSettings.qpackMaxTableCapacity 0 = 0 then q
  else if (StreamKind.fromStreamId streamId).isBidirectional then
    if q.decoderStreamId.isSome then
      { q with decoderStream := q.decoderStream.encodeStreamCancellation streamId }
    else { q with deferredStreamCancellations := q.deferredStreamCancellations ++ [streamId] }
  else q

end Http3.Connection
