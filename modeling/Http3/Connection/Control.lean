import Http3.Connection.Frames
import Http3.Connection.WtStream

/-!
# Control and QPACK streams of the peer

SETTINGS configure the encoder and release what waited for them; GOAWAY and MAX_PUSH_ID move
monotone limits.
-/

namespace Http3.Connection

open Proc

/-! ## QPACK streams -/

/-- One instruction of the peer's encoder; the answer is whether to go on. -/
def processEncoderInstruction : CoreProc Bool := do
  let c ← get
  let r := c.qpack.encoderStreamRecv.process c.qpack.dynamicDecoder.table
  modify (modifyQpack fun q => { q with
    encoderStreamRecv := r.2.1
    dynamicDecoder := { q.dynamicDecoder with table := r.2.2 } })
  match r.1 with
  | .ok (some _) => ret true
  | .ok none => ret false
  | .error _ => throw (.connectionError .qpackEncoderStreamError)

def processEncoderStream : CoreProc Unit := do
  let c ← get
  loop processEncoderInstruction (c.qpack.encoderStreamRecv.recvBuffer.length + 1)

/-- What an instruction of the peer's decoder does to the encoder. -/
def applyDecoderInstruction (q : QpackState) :
    Qpack.DecoderInstruction → Except Error Qpack.DynamicEncoder
  | .insertCountIncrement _ => .ok (q.encoder.acknowledge q.decoderStreamRecv.knownReceivedCount)
  | .sectionAcknowledgment streamId =>
    match q.encoder.ackSection streamId with
    | .ok encoder => .ok encoder
    | .error _ => .error (.connectionError .qpackDecoderStreamError)
  | .streamCancellation streamId => .ok (q.encoder.cancelStream streamId)

def processDecoderInstruction (totalInsertCount : Nat) : CoreProc Bool := do
  let c ← get
  let r := c.qpack.decoderStreamRecv.process totalInsertCount
  modify (modifyQpack fun q => { q with decoderStreamRecv := r.2 })
  match r.1 with
  | .ok (some instruction) =>
    let c ← get
    let encoder ← ofExcept (applyDecoderInstruction c.qpack instruction)
    modify (modifyQpack fun q => { q with encoder })
    ret true
  | .ok none => ret false
  | .error _ => throw (.connectionError .qpackDecoderStreamError)

def processDecoderStream : CoreProc Unit := do
  let c ← get
  loop (processDecoderInstruction c.qpack.encoder.insertCount)
    (c.qpack.decoderStreamRecv.recvBuffer.length + 1)

/-! ## SETTINGS -/

/-- The encoder with the capacity the peer allows; a Set Capacity instruction follows. -/
def applyTableCapacity (limits : Limits) (capacity : Nat) (q : QpackState) :
    Except Error QpackState := do
  let q := { q with
    encoder := q.encoder.setMaxTableCapacity capacity
    encoderStream := q.encoderStream.setMaxTableCapacity capacity }
  let useCapacity := min capacity limits.qpackMaxTableCapacity
  match q.encoder.setTableCapacity useCapacity with
  | .error _ => .error .panicked
  | .ok encoder =>
    let q := { q with encoder }
    if 0 < useCapacity then
      if q.encoderStreamId.isSome then
        match q.encoderStream.encodeSetCapacity useCapacity with
        | .ok encoderStream => .ok { q with encoderStream }
        | .error e => .error (.qpack e)
      else .ok { q with deferredEncoderSetCapacity := some useCapacity }
    else .ok q

def applyBlockedStreams (settings : Settings) (q : QpackState) : QpackState :=
  match settings.qpackBlockedStreams with
  | some blocked => { q with encoder := q.encoder.setPeerMaxBlockedStreams blocked.get }
  | none => q

/-- The QPACK part of SETTINGS. -/
def applyQpackSettings (limits : Limits) (settings : Settings) (q : QpackState) :
    Except Error QpackState :=
  match settings.qpackMaxTableCapacity with
  | some capacity => (applyTableCapacity limits capacity.get q).map (applyBlockedStreams settings)
  | none => .ok (applyBlockedStreams settings q)

/-- Are the limits of an earlier connection binding for this one? -/
def comparesWithPrevious (env : Env) (settings : Settings) : Bool :=
  match selectWtDraftVersion env (some settings) with
  | some .draft14 | some .draft15 => true
  | some .draft02 | some .draft07 | some .draft17 => false
  | none =>
    (env.localSettings.wtSettings.any fun wt =>
      (wt.advertisesDraftVersion .draft14 || wt.advertisesDraftVersion .draft15) &&
        !wt.advertisesDraftVersion .draft17) &&
      !settings.wtSettings.any fun wt => wt.advertisesDraftVersion .draft17

def comparesMaxSessions (env : Env) (settings : Settings) : Bool :=
  match selectWtDraftVersion env (some settings) with
  | some draft => draft = .draft14
  | none => env.localSettings.wtSettings.any fun wt => wt.advertisesDraftVersion .draft14

/-- Does one of the limits fall short of its previous value? -/
def decreased (env : Env) (settings : Settings) (prev : WtSettings) : Bool :=
  let limit (f : WtSettings → Nat) : Nat := (settings.wtSettings.map f).getD 0
  let sessions (wt : WtSettings) : Nat := settingOr wt.wtMaxSessionsDraft14 0
  limit (fun wt => wt.wtInitialMaxStreamsUni.get) < prev.wtInitialMaxStreamsUni.get ||
    limit (fun wt => wt.wtInitialMaxStreamsBidi.get) < prev.wtInitialMaxStreamsBidi.get ||
    limit (fun wt => wt.wtInitialMaxData.get) < prev.wtInitialMaxData.get ||
    (comparesMaxSessions env settings && limit sessions < sessions prev)

/-- What a client demands of the WebTransport part of SETTINGS. -/
def checkWtSettings (env : Env) (w : WtState) (settings : Settings) : Except Error Unit :=
  if env.role ≠ .client then .ok ()
  else if settings.wtSettings.any fun wt => 1 < wt.wtEnabled.get || 1 < wt.wtEnabledDraft17.get then
    .error (.connectionError .settingsError)
  else if comparesWithPrevious env settings && w.previousWtSettings.any (decreased env settings) then
    .error (.connectionError .settingsError)
  else .ok ()

/-- One CONNECT that waited for SETTINGS. The DATA that came with it is in the body. -/
def processDeferredWtConnect (env : Env) (streamId : Nat) (headers : List Header) :
    CoreProc Unit := do
  let c ← get
  ofExcept (validateWtConnectRequestServer env c.peerSettings c.wt streamId headers)
  registerWtConnectSession env streamId headers
  match c.streams.lookup streamId with
  | some stream =>
    onWt (modify fun w => { w with
      wtSessions := w.wtSessions.update streamId fun s =>
        { s with capsuleBuf := s.capsuleBuf ++ stream.recvBody } })
  | none => ret ()
  emitAll (headerEvents streamId headers)

/-- All of them leave the table, even when one fails. -/
def processDeferredWtConnects (env : Env) : CoreProc Unit := do
  let c ← get
  let deferred := c.wt.deferredWtConnects
  onWt (modify fun w => { w with deferredWtConnects := ∅ })
  each (env.order.walk .deferredWtConnects deferred.keys) fun streamId =>
    processDeferredWtConnect env streamId ((deferred.lookup streamId).getD [])

def ignorePreNegotiation (streamId : Nat) : WtProc Unit := do
  modify fun w => { w with
    ignoredPreNegotiationWtBidi := w.ignoredPreNegotiationWtBidi.insert streamId }
  rejectStream streamId .bufferedStreamRejected

/-- One of the WT_STREAMs that waited for SETTINGS. -/
def releaseWaiting (env : Env) (goaway : Option VarInt) (negotiated : Bool)
    (pending : IdMap PendingWtBidiPreNegotiation) (streamId : Nat) : WtProc Unit :=
  match pending.lookup streamId with
  | none => ret ()
  | some entry =>
    if negotiated then handleWtBidiStream env goaway streamId entry.data entry.fin
    else ignorePreNegotiation streamId

def releasePreNegotiation (env : Env) (goaway : Option VarInt) (negotiated : Bool) :
    WtProc Unit := do
  let w ← get
  modify fun w => { w with pendingWtBidiPreNegotiation := ∅ }
  each (env.order.walk .pendingWtBidiPreNegotiation w.pendingWtBidiPreNegotiation.keys)
    (releaseWaiting env goaway negotiated w.pendingWtBidiPreNegotiation)

def processPendingWtBidiPreNegotiation (env : Env) : CoreProc Unit := do
  let c ← get
  onWt (releasePreNegotiation env c.lastSentGoawayId (isWtFullyNegotiated env c.peerSettings c.wt))

def handleSettings (env : Env) (settings : Settings) : CoreProc Unit := do
  let c ← get
  let qpack ← ofExcept (applyQpackSettings c.limits settings c.qpack)
  modify fun c => { c with qpack }
  ofExcept (checkWtSettings env c.wt settings)
  modify fun c => { c with peerSettings := some settings }
  emit (.event (.settingsReceived settings settings.wtSettings))
  processDeferredWtConnects env
  processPendingWtBidiPreNegotiation env

/-! ## GOAWAY and MAX_PUSH_ID -/

/-- A session at or above the peer's GOAWAY. -/
def drainSession (id : Nat) (sessionId : Nat) : WtProc Unit := do
  let w ← get
  match w.wtSessions.lookup sessionId with
  | none => ret ()
  | some session =>
    if id ≤ sessionId && (session.state = .established || session.state = .pending) then
      modify (putSession sessionId { session with state := .draining })
      emit (.wt (.sessionDraining sessionId))
    else ret ()

def handleGoaway (env : Env) (id : VarInt) : CoreProc Unit := do
  let c ← get
  if env.role = .client && id.get % 4 ≠ 0 then throw (.connectionError .idError)
  else if c.peerGoawayLastId.any fun prev => prev.get < id.get then
    throw (.connectionError .idError)
  else
    modify fun c => { c with peerGoawayLastId := some id }
    emit (.event (.goawayReceived id))
    if env.role = .client then
      each (env.order.walk .wtSessions c.wt.wtSessions.keys) fun sid => onWt (drainSession id.get sid)
    else ret ()

def handleMaxPushId (env : Env) (id : VarInt) : CoreProc Unit := do
  let c ← get
  if env.role = .client then throw (.connectionError .frameUnexpected)
  else if c.maxPushId.any fun prev => id.get < prev.get then throw (.connectionError .idError)
  else modify fun c => { c with maxPushId := some id }

/-! ## The control stream -/

def handleControlFrame (env : Env) (frame : Frame) : CoreProc Unit :=
  match frame with
  | .settings payload => handleSettings env (Settings.fromPayload payload.settings)
  | .goaway id => handleGoaway env id
  | .maxPushId id => handleMaxPushId env id
  | .data _ | .headers _ | .unknown _ => ret ()

/-- One frame of the control stream; the answer is whether there was one. -/
def processControlFrame (env : Env) : CoreProc Bool := do
  let c ← get
  let r := c.controlRecv.process
  modify fun c => { c with controlRecv := r.2 }
  match ← ofExcept r.1 with
  | some frame =>
    handleControlFrame env frame
    ret true
  | none => ret false

def processControlStream (env : Env) : CoreProc Unit := do
  let c ← get
  loop (processControlFrame env) (c.controlRecv.recvBuf.peek.length + 1)

end Http3.Connection
