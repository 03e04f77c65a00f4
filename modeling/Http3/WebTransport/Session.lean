import Http3.Lib.IdMap
import Http3.Error
import Http3.Lib.Runs
import Http3.WebTransport.FlowControl

/-!
# The session of `webtransport::Session`

The session that an application keeps next to its connection: a life cycle, the streams that
belong to it, flow control in both directions and the capsules to send. `SessionOp` lists the
operations that take it by mutable reference.
-/

namespace Http3

namespace WebTransport

/-! ## Data -/

/-- Messages are kept as their UTF-8 bytes. -/
inductive Error where
  | protocol (code : WtErrorCode)
  | application (code : Nat) (message : Bytes)
  | unknown (code : Nat)
  deriving DecidableEq, Repr

/-- A string may be cut in front of the byte at `i`. -/
def isCharBoundary (message : Bytes) (i : Nat) : Bool :=
  i = 0 || i = message.length || message[i]?.any fun b => b &&& 0xc0 ≠ 0x80

/-- The last place up to `i` where the message may be cut. -/
def charBoundaryBefore (message : Bytes) : Nat → Nat
  | 0 => 0
  | i + 1 => if isCharBoundary message (i + 1) then i + 1 else charBoundaryBefore message i

def truncateMessage (message : Bytes) : Bytes :=
  if MAX_CLOSE_SESSION_MESSAGE_LEN < message.length then
    message.take (charBoundaryBefore message MAX_CLOSE_SESSION_MESSAGE_LEN)
  else message

/-- `Error::application` -/
def applicationError (code : Nat) (message : Bytes) : Error :=
  .application code (truncateMessage message)

structure Stream where
  streamId : Nat
  sessionId : Nat
  bidirectional : Bool
  bytesSent : Nat
  bytesReceived : Nat
  deriving DecidableEq, Repr

structure FlowControlLimits where
  maxStreamsUni : Nat
  maxStreamsBidi : Nat
  maxData : Nat
  deriving DecidableEq, Repr

def FlowControlLimits.new : FlowControlLimits := ⟨0, 0, 0⟩

structure FlowControlState where
  streamsUniOpened : Nat
  streamsBidiOpened : Nat
  dataSent : Nat
  streamsUniReceived : Nat
  streamsBidiReceived : Nat
  dataReceived : Nat
  datagramsReceived : Nat
  deriving DecidableEq, Repr

def FlowControlState.new : FlowControlState := ⟨0, 0, 0, 0, 0, 0, 0⟩

/-- The limits that were announced as blocking, until the peer raises them. -/
structure SendBlockedState where
  lastStreamsBlockedUni : Option Nat
  lastStreamsBlockedBidi : Option Nat
  lastDataBlocked : Option Nat
  deriving DecidableEq, Repr

def SendBlockedState.default : SendBlockedState := ⟨none, none, none⟩

structure BufferedStream where
  streamId : Nat
  isBidirectional : Bool
  deriving DecidableEq, Repr

inductive SessionState where
  | pending
  | connecting
  | established
  | draining
  | closed
  deriving DecidableEq, Repr

namespace SessionState

def canCreateStream : SessionState → Bool
  | established | draining => true
  | _ => false

def canSend : SessionState → Bool
  | established | draining => true
  | _ => false

end SessionState

structure Session where
  sessionId : Nat
  state : SessionState
  streams : IdMap Stream
  remoteLimits : FlowControlLimits
  localLimits : FlowControlLimits
  flowState : FlowControlState
  flowControlEnabled : Bool
  pendingCapsules : List Capsule
  /-- the keys of a hash map, in no particular order -/
  pendingStreamResets : List Nat
  closeError : Option Error
  bufferedStreams : List BufferedStream
  bufferedDatagrams : List Bytes
  goawayReceived : Bool
  closeSessionReceived : Bool
  closeSessionSent : Bool
  recvStreamFcUni : DirectionalStreamFlowControl
  recvStreamFcBidi : DirectionalStreamFlowControl
  recvDataFc : DataFlowControl
  sendBlocked : SendBlockedState

end WebTransport

open WebTransport

/-- Capsules of the flow control. -/
def Capsule.isFlowControl : Capsule → Bool
  | .maxData _ | .maxStreams _ _ | .dataBlocked _ | .streamsBlocked _ _ => true
  | _ => false

namespace WebTransport

namespace Session

def new (sessionId : Nat) : Session where
  sessionId := sessionId
  state := .pending
  streams := ∅
  remoteLimits := .new
  localLimits := .new
  flowState := .new
  flowControlEnabled := true
  pendingCapsules := []
  pendingStreamResets := []
  closeError := none
  bufferedStreams := []
  bufferedDatagrams := []
  goawayReceived := false
  closeSessionReceived := false
  closeSessionSent := false
  recvStreamFcUni := .new 0
  recvStreamFcBidi := .new 0
  recvDataFc := .new 0
  sendBlocked := .default

def isClosed (s : Session) : Bool := s.state = .closed

/-! ## Life cycle -/

def setConnecting (s : Session) : Session :=
  if s.state = .pending then { s with state := .connecting } else s

def setEstablished (s : Session) : Session :=
  if s.state = .pending || s.state = .connecting then { s with state := .established } else s

def setDraining (s : Session) : Session :=
  if s.state = .established then { s with state := .draining } else s

def close (s : Session) (error : Option Error) : Session :=
  let s := if s.state ≠ .closed then { s with pendingStreamResets := s.streams.keys } else s
  { s with state := .closed, closeError := error }

def queueCapsule (s : Session) (capsule : Capsule) : Session :=
  if s.isClosed then s else { s with pendingCapsules := s.pendingCapsules ++ [capsule] }

def closeWithError (s : Session) (code : Nat) (message : Bytes) : Session :=
  if s.isClosed then s
  else
    let message := truncateMessage message
    let s := s.queueCapsule (.closeSession code message)
    { s with closeSessionSent := true }.close (some (applicationError code message))

def drain (s : Session) : Session :=
  if s.state = .established then (s.queueCapsule .drainSession).setDraining else s

def handleGoaway (s : Session) : Session := { s with goawayReceived := true }.setDraining

def onConnectStreamClosed (s : Session) : Session :=
  if s.closeSessionReceived then s
  else { s with closeSessionReceived := true }.close (some (applicationError 0 []))

/-! ## Streams and datagrams -/

def tryAddStream (s : Session) (stream : Stream) : Bool × Session :=
  if s.isClosed then (false, s)
  else (true, { s with streams := s.streams.insert stream.streamId stream })

def removeStream (s : Session) (streamId : Nat) : Option Stream × Session :=
  (s.streams.lookup streamId, { s with streams := s.streams.erase streamId })

def takePendingStreamResets (s : Session) : List Nat × Session :=
  (s.pendingStreamResets, { s with pendingStreamResets := [] })

def bufferIncomingStream (s : Session) (streamId : Nat) (isBidirectional : Bool) :
    Bool × Session :=
  if MAX_BUFFERED_STREAMS ≤ s.bufferedStreams.length then (false, s)
  else (true, { s with bufferedStreams := s.bufferedStreams ++ [⟨streamId, isBidirectional⟩] })

def takeBufferedStreams (s : Session) : List BufferedStream × Session :=
  (s.bufferedStreams, { s with bufferedStreams := [] })

def bufferDatagram (s : Session) (data : Bytes) : Bool × Session :=
  if MAX_BUFFERED_DATAGRAMS ≤ s.bufferedDatagrams.length then (false, s)
  else (true, { s with bufferedDatagrams := s.bufferedDatagrams ++ [data] })

def takeBufferedDatagrams (s : Session) : List Bytes × Session :=
  (s.bufferedDatagrams, { s with bufferedDatagrams := [] })

def takePendingCapsules (s : Session) : List Capsule × Session :=
  (s.pendingCapsules, { s with pendingCapsules := [] })

/-! ## Limits -/

def setFlowControlEnabled (s : Session) (enabled : Bool) : Session :=
  { s with flowControlEnabled := enabled }

def initializeLocalLimits (s : Session) (limits : FlowControlLimits) : Session :=
  { s with
    localLimits := limits
    recvStreamFcUni := .new limits.maxStreamsUni
    recvStreamFcBidi := .new limits.maxStreamsBidi
    recvDataFc := .new limits.maxData }

def initializeRemoteLimits (s : Session) (limits : FlowControlLimits) : Session :=
  { s with remoteLimits := limits }

/-- The windows that are not 0, as capsules. -/
def initialCapsules (limits : FlowControlLimits) : List Capsule :=
  (if limits.maxStreamsBidi > 0 then [.maxStreams true limits.maxStreamsBidi] else []) ++
    (if limits.maxStreamsUni > 0 then [.maxStreams false limits.maxStreamsUni] else []) ++
    (if limits.maxData > 0 then [.maxData limits.maxData] else [])

def queueInitialFlowControlCapsules (s : Session) (limits : FlowControlLimits) : Session :=
  let s := s.initializeLocalLimits limits
  { s with pendingCapsules := s.pendingCapsules ++ initialCapsules limits }

/-! ## Flow control of what is sent -/

def streamsOpened (s : Session) (bidirectional : Bool) : Nat :=
  if bidirectional then s.flowState.streamsBidiOpened else s.flowState.streamsUniOpened

def maxStreams (s : Session) (bidirectional : Bool) : Nat :=
  if bidirectional then s.remoteLimits.maxStreamsBidi else s.remoteLimits.maxStreamsUni

def lastStreamsBlocked (s : Session) (bidirectional : Bool) : Option Nat :=
  if bidirectional then s.sendBlocked.lastStreamsBlockedBidi
  else s.sendBlocked.lastStreamsBlockedUni

/-- One more stream of a direction. -/
def countOpened (s : Session) (bidirectional : Bool) : Session :=
  let opened := saturatingAdd (s.streamsOpened bidirectional) 1
  { s with
    flowState :=
      if bidirectional then { s.flowState with streamsBidiOpened := opened }
      else { s.flowState with streamsUniOpened := opened } }

def setLastStreamsBlocked (s : Session) (bidirectional : Bool) (last : Option Nat) : Session :=
  { s with
    sendBlocked :=
      if bidirectional then { s.sendBlocked with lastStreamsBlockedBidi := last }
      else { s.sendBlocked with lastStreamsBlockedUni := last } }

def tryOpenStream (s : Session) (bidirectional : Bool) : Bool × Session :=
  if !s.state.canCreateStream then (false, s)
  else if !s.flowControlEnabled then (true, s.countOpened bidirectional)
  else if s.streamsOpened bidirectional < s.maxStreams bidirectional then
    (true, s.countOpened bidirectional)
  else if s.lastStreamsBlocked bidirectional ≠ some (s.maxStreams bidirectional) then
    let limit := s.maxStreams bidirectional
    let s := s.setLastStreamsBlocked bidirectional (some limit)
    (false, { s with pendingCapsules := s.pendingCapsules ++ [.streamsBlocked bidirectional limit] })
  else (false, s)

def countSent (s : Session) (bytes : Nat) : Session :=
  { s with
    flowState := { s.flowState with dataSent := saturatingAdd s.flowState.dataSent bytes } }

def trySendData (s : Session) (bytes : Nat) : Bool × Session :=
  if !s.state.canSend then (false, s)
  else if !s.flowControlEnabled then (true, s.countSent bytes)
  else if bytes ≤ s.remoteLimits.maxData - s.flowState.dataSent then (true, s.countSent bytes)
  else if s.sendBlocked.lastDataBlocked ≠ some s.remoteLimits.maxData then
    let limit := s.remoteLimits.maxData
    (false, { s with
      sendBlocked := { s.sendBlocked with lastDataBlocked := some limit }
      pendingCapsules := s.pendingCapsules ++ [.dataBlocked limit] })
  else (false, s)

/-! ## Flow control of what is received -/

def addReceivedData (s : Session) (bytes : Nat) : Session :=
  { s with
    flowState := { s.flowState with dataReceived := saturatingAdd s.flowState.dataReceived bytes }
    recvDataFc := s.recvDataFc.onDataReceived bytes }

def addReceivedStream (s : Session) (bidirectional : Bool) : Session :=
  if bidirectional then
    { s with
      flowState :=
        { s.flowState with
          streamsBidiReceived := saturatingAdd s.flowState.streamsBidiReceived 1 }
      recvStreamFcBidi := s.recvStreamFcBidi.onStreamReceived }
  else
    { s with
      flowState :=
        { s.flowState with streamsUniReceived := saturatingAdd s.flowState.streamsUniReceived 1 }
      recvStreamFcUni := s.recvStreamFcUni.onStreamReceived }

def recvStreamFc (s : Session) (bidirectional : Bool) : DirectionalStreamFlowControl :=
  if bidirectional then s.recvStreamFcBidi else s.recvStreamFcUni

def setRecvStreamFc (s : Session) (bidirectional : Bool) (fc : DirectionalStreamFlowControl) :
    Session :=
  if bidirectional then { s with recvStreamFcBidi := fc } else { s with recvStreamFcUni := fc }

def setLocalMaxStreams (s : Session) (bidirectional : Bool) (newMax : Nat) : Session :=
  { s with
    localLimits :=
      if bidirectional then { s.localLimits with maxStreamsBidi := newMax }
      else { s.localLimits with maxStreamsUni := newMax } }

def onRemoteStreamClosed (s : Session) (bidirectional : Bool) : Session :=
  if !s.flowControlEnabled || s.isClosed then s
  else
    match (s.recvStreamFc bidirectional).onStreamClosed with
    | (some newMax, fc) =>
      let s := (s.setRecvStreamFc bidirectional fc).setLocalMaxStreams bidirectional newMax
      { s with pendingCapsules := s.pendingCapsules ++ [.maxStreams bidirectional newMax] }
    | (none, fc) => s.setRecvStreamFc bidirectional fc

def onDataConsumed (s : Session) (bytes : Nat) : Session :=
  if !s.flowControlEnabled || s.isClosed then s
  else
    match s.recvDataFc.onDataConsumed bytes with
    | (some newMax, fc) =>
      { s with
        recvDataFc := fc
        pendingCapsules := s.pendingCapsules ++ [.maxData newMax]
        localLimits := { s.localLimits with maxData := newMax } }
    | (none, fc) => { s with recvDataFc := fc }

def addReceivedDatagram (s : Session) : Session :=
  { s with
    flowState :=
      { s.flowState with datagramsReceived := saturatingAdd s.flowState.datagramsReceived 1 } }

/-! ## Capsules of the peer -/

/-- `CapsuleProcessError` has one case, an error of the session. -/
def flowControlError : Error := .protocol .flowControlError

def processMaxStreams (s : Session) (bidirectional : Bool) (maximum : Nat) :
    Except Error Unit × Session :=
  if maximum > MAX_STREAMS_LIMIT then (.error flowControlError, s)
  else if maximum ≤ s.maxStreams bidirectional then (.error flowControlError, s)
  else
    let remoteLimits :=
      if bidirectional then { s.remoteLimits with maxStreamsBidi := maximum }
      else { s.remoteLimits with maxStreamsUni := maximum }
    (.ok (), { s with remoteLimits }.setLastStreamsBlocked bidirectional none)

def processMaxData (s : Session) (maximum : Nat) : Except Error Unit × Session :=
  if maximum ≤ s.remoteLimits.maxData then (.error flowControlError, s)
  else
    (.ok (), { s with
      remoteLimits := { s.remoteLimits with maxData := maximum }
      sendBlocked := { s.sendBlocked with lastDataBlocked := none } })

def processCapsule (s : Session) (capsule : Capsule) : Except Error Unit × Session :=
  if capsule.isProhibitedInHttp3 then
    (.error (applicationError 0 (Bytes.ofString "prohibited capsule received")), s)
  else if !s.flowControlEnabled && capsule.isFlowControl then (.ok (), s)
  else
    match capsule with
    | .closeSession errorCode message =>
      (.ok (), { s with closeSessionReceived := true }.close
        (some (applicationError errorCode message)))
    | .drainSession => (.ok (), s.setDraining)
    | .maxData maximum => s.processMaxData maximum
    | .maxStreams bidirectional maximum => s.processMaxStreams bidirectional maximum
    | .dataBlocked _ => (.ok (), s)
    | .streamsBlocked _ maximum =>
      if maximum > MAX_STREAMS_LIMIT then (.error flowControlError, s) else (.ok (), s)
    | .unknown _ _ => (.ok (), s)

end Session

/-! ## Runs -/

/-- The public operations that change a session; `flow_state_mut` and `remote_limits_mut` hand out
a reference, so they stand for what the caller writes through it. -/
inductive SessionOp where
  | setConnecting
  | setEstablished
  | setDraining
  | close (error : Option Error)
  | addStream (stream : Stream)
  | removeStream (streamId : Nat)
  | remoteLimitsMut (limits : FlowControlLimits)
  | flowStateMut (state : FlowControlState)
  | setFlowControlEnabled (enabled : Bool)
  | initializeLocalLimits (limits : FlowControlLimits)
  | initializeRemoteLimits (limits : FlowControlLimits)
  | queueInitialFlowControlCapsules (limits : FlowControlLimits)
  | tryOpenStream (bidirectional : Bool)
  | trySendData (bytes : Nat)
  | addReceivedData (bytes : Nat)
  | addReceivedStream (bidirectional : Bool)
  | onRemoteStreamClosed (bidirectional : Bool)
  | onDataConsumed (bytes : Nat)
  | addReceivedDatagram
  | queueCapsule (capsule : Capsule)
  | takePendingCapsules
  | closeWithError (code : Nat) (message : Bytes)
  | drain
  | bufferIncomingStream (streamId : Nat) (isBidirectional : Bool)
  | takeBufferedStreams
  | bufferDatagram (data : Bytes)
  | takeBufferedDatagrams
  | handleGoaway
  | takePendingStreamResets
  | onConnectStreamClosed
  | processCapsule (capsule : Capsule)
  deriving DecidableEq

namespace Session

def step (s : Session) : SessionOp → Session
  | .setConnecting => s.setConnecting
  | .setEstablished => s.setEstablished
  | .setDraining => s.setDraining
  | .close error => s.close error
  | .addStream stream => (s.tryAddStream stream).2
  | .removeStream streamId => (s.removeStream streamId).2
  | .remoteLimitsMut limits => { s with remoteLimits := limits }
  | .flowStateMut state => { s with flowState := state }
  | .setFlowControlEnabled enabled => s.setFlowControlEnabled enabled
  | .initializeLocalLimits limits => s.initializeLocalLimits limits
  | .initializeRemoteLimits limits => s.initializeRemoteLimits limits
  | .queueInitialFlowControlCapsules limits => s.queueInitialFlowControlCapsules limits
  | .tryOpenStream bidirectional => (s.tryOpenStream bidirectional).2
  | .trySendData bytes => (s.trySendData bytes).2
  | .addReceivedData bytes => s.addReceivedData bytes
  | .addReceivedStream bidirectional => s.addReceivedStream bidirectional
  | .onRemoteStreamClosed bidirectional => s.onRemoteStreamClosed bidirectional
  | .onDataConsumed bytes => s.onDataConsumed bytes
  | .addReceivedDatagram => s.addReceivedDatagram
  | .queueCapsule capsule => s.queueCapsule capsule
  | .takePendingCapsules => s.takePendingCapsules.2
  | .closeWithError code message => s.closeWithError code message
  | .drain => s.drain
  | .bufferIncomingStream streamId isBidirectional =>
    (s.bufferIncomingStream streamId isBidirectional).2
  | .takeBufferedStreams => s.takeBufferedStreams.2
  | .bufferDatagram data => (s.bufferDatagram data).2
  | .takeBufferedDatagrams => s.takeBufferedDatagrams.2
  | .handleGoaway => s.handleGoaway
  | .takePendingStreamResets => s.takePendingStreamResets.2
  | .onConnectStreamClosed => s.onConnectStreamClosed
  | .processCapsule capsule => (s.processCapsule capsule).2

/-- The session after a list of operations. -/
def run (s : Session) (ops : List SessionOp) : Session := ops.foldl step s

end Session

end WebTransport

end Http3
