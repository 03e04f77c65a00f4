import Http3.Lib.IdMap
import Http3.Event
import Http3.Stream.Buffer
import Http3.WebTransport.FlowControl

/-!
# WebTransport sessions of a connection

One session with the streams that belong to it. Before the session is established its streams
and datagrams are buffered; `deliver` hands them out in the order in which they arrived.
-/

namespace Http3

def WT_MAX_PENDING_SESSIONS : Nat := 16

def WT_MAX_BUFFERED_STREAM_BYTES : Nat := 64 * 1024

inductive AssocOutcome where
  | established
  | buffered
  | bufferOverflow
  deriving DecidableEq, Repr

structure BufferedStreamEntry where
  isBidi : Bool
  data : Bytes
  fin : Bool
  deriving DecidableEq

def BufferedStreamEntry.new (isBidi : Bool) : BufferedStreamEntry := ⟨isBidi, [], false⟩

inductive WtSessionState where
  | pending
  | established
  | draining
  | closed
  deriving DecidableEq, Repr

structure WtSession where
  state : WtSessionState
  /-- a set, without repetition -/
  associatedStreams : List Nat
  /-- in the order of arrival -/
  bufferedStreams : List Nat
  bufferedStreamEntries : IdMap BufferedStreamEntry
  bufferedDatagrams : List Bytes
  capsuleBuf : Bytes
  availableProtocols : List Bytes
  flowControlEnabled : Bool
  recvStreamFcUni : Option DirectionalStreamFlowControl
  recvStreamFcBidi : Option DirectionalStreamFlowControl
  recvDataFc : Option DataFlowControl
  streamReceivedData : IdMap Nat
  pendingCapsules : List Capsule

namespace WtSession

def new : WtSession where
  state := .pending
  associatedStreams := []
  bufferedStreams := []
  bufferedStreamEntries := ∅
  bufferedDatagrams := []
  capsuleBuf := []
  availableProtocols := []
  flowControlEnabled := false
  recvStreamFcUni := none
  recvStreamFcBidi := none
  recvDataFc := none
  streamReceivedData := ∅
  pendingCapsules := []

/-! ## Flow control -/

/-- The windows told to a peer that does not take them from SETTINGS. -/
def initialCapsules (localWt : WtSettings) : List Capsule :=
  [(localWt.wtInitialMaxStreamsBidi.get, Capsule.maxStreams true),
    (localWt.wtInitialMaxStreamsUni.get, Capsule.maxStreams false),
    (localWt.wtInitialMaxData.get, Capsule.maxData)].filterMap
    fun e => if 0 < e.1 then some (e.2 e.1) else none

def initializeFlowControl (s : WtSession) (localWt : WtSettings) (queueInitialCapsules : Bool) :
    WtSession :=
  if s.flowControlEnabled then
    { s with
      recvStreamFcUni := some (.new localWt.wtInitialMaxStreamsUni.get)
      recvStreamFcBidi := some (.new localWt.wtInitialMaxStreamsBidi.get)
      recvDataFc := some (.new localWt.wtInitialMaxData.get)
      pendingCapsules :=
        if queueInitialCapsules then s.pendingCapsules ++ initialCapsules localWt
        else s.pendingCapsules }
  else s

def recvStreamFc (s : WtSession) (bidirectional : Bool) : Option DirectionalStreamFlowControl :=
  if bidirectional then s.recvStreamFcBidi else s.recvStreamFcUni

def setRecvStreamFc (s : WtSession) (bidirectional : Bool) (fc : DirectionalStreamFlowControl) :
    WtSession :=
  if bidirectional then { s with recvStreamFcBidi := some fc }
  else { s with recvStreamFcUni := some fc }

def checkReceivedStream (s : WtSession) (bidirectional : Bool) : Bool :=
  !s.flowControlEnabled || (s.recvStreamFc bidirectional).all fun fc => fc.checkReceived

def addReceivedStream (s : WtSession) (bidirectional : Bool) : WtSession :=
  match s.recvStreamFc bidirectional with
  | some fc => s.setRecvStreamFc bidirectional fc.onStreamReceived
  | none => s

def checkReceivedData (s : WtSession) (bytes : Nat) : Bool :=
  !s.flowControlEnabled || s.recvDataFc.all fun fc => fc.checkReceived bytes

def addReceivedData (s : WtSession) (bytes : Nat) : WtSession :=
  match s.recvDataFc with
  | some fc => { s with recvDataFc := some (fc.onDataReceived bytes) }
  | none => s

/-- A stream the peer opened is closed; this may queue a WT_MAX_STREAMS capsule. -/
def onRemoteStreamClosed (s : WtSession) (bidirectional : Bool) : WtSession :=
  if s.flowControlEnabled then
    match s.recvStreamFc bidirectional with
    | some fc =>
      match fc.onStreamClosed with
      | (some newMax, fc) =>
        let s := s.setRecvStreamFc bidirectional fc
        { s with pendingCapsules := s.pendingCapsules ++ [.maxStreams bidirectional newMax] }
      | (none, fc) => s.setRecvStreamFc bidirectional fc
    | none => s
  else s

/-- The application took data; this may queue a WT_MAX_DATA capsule. -/
def onDataConsumed (s : WtSession) (bytes : Nat) : WtSession :=
  if s.flowControlEnabled then
    match s.recvDataFc with
    | some fc =>
      match fc.onDataConsumed bytes with
      | (some newMax, fc) =>
        { s with recvDataFc := some fc, pendingCapsules := s.pendingCapsules ++ [.maxData newMax] }
      | (none, fc) => { s with recvDataFc := some fc }
    | none => s
  else s

def getStreamReceivedData (s : WtSession) (streamId : Nat) : Nat :=
  (s.streamReceivedData.lookup streamId).getD 0

def addReceivedDataAndTrack (s : WtSession) (streamId bytes : Nat) : WtSession :=
  let s := s.addReceivedData bytes
  { s with
    streamReceivedData :=
      s.streamReceivedData.insert streamId (saturatingAdd (s.getStreamReceivedData streamId) bytes) }

def removeStreamReceivedData (s : WtSession) (streamId : Nat) : WtSession :=
  { s with streamReceivedData := s.streamReceivedData.erase streamId }

/-! ## Streams -/

def associateStream (s : WtSession) (streamId : Nat) : WtSession :=
  { s with associatedStreams := s.associatedStreams.insert streamId }

def disassociateStream (s : WtSession) (streamId : Nat) : WtSession :=
  { s with associatedStreams := s.associatedStreams.erase streamId }

/-- `none` when the buffer is full. -/
def bufferStream (s : WtSession) (streamId : Nat) (isBidi : Bool) : Option WtSession :=
  if MAX_BUFFERED_STREAMS ≤ s.bufferedStreams.length then none
  else
    some { s with
      bufferedStreams := s.bufferedStreams ++ [streamId]
      bufferedStreamEntries := s.bufferedStreamEntries.insert streamId (.new isBidi) }

/-- `none` when the stream has too much data, or is not buffered. -/
def appendBufferedStreamData (s : WtSession) (streamId : Nat) (data : Bytes) : Option WtSession :=
  match s.bufferedStreamEntries.lookup streamId with
  | some entry =>
    if WT_MAX_BUFFERED_STREAM_BYTES < entry.data.length + data.length then none
    else
      some { s with
        bufferedStreamEntries :=
          s.bufferedStreamEntries.insert streamId { entry with data := entry.data ++ data } }
  | none => none

def markBufferedStreamFin (s : WtSession) (streamId : Nat) : WtSession :=
  { s with
    bufferedStreamEntries := s.bufferedStreamEntries.update streamId fun e => { e with fin := true } }

/-- Take the entry; the place in the order stays. -/
def dropBufferedStreamEntry (s : WtSession) (streamId : Nat) : WtSession :=
  { s with bufferedStreamEntries := s.bufferedStreamEntries.erase streamId }

/-- Was there an entry? The place in the order goes in any case. -/
def removeBufferedStream (s : WtSession) (streamId : Nat) : Bool × WtSession :=
  (s.bufferedStreamEntries.contains streamId,
    { s with
      bufferedStreams := s.bufferedStreams.filter (· ≠ streamId)
      bufferedStreamEntries := s.bufferedStreamEntries.erase streamId })

def restoreBufferedStream (s : WtSession) (streamId : Nat) (entry : BufferedStreamEntry) :
    WtSession :=
  { s with
    bufferedStreams := s.bufferedStreams ++ [streamId]
    bufferedStreamEntries := s.bufferedStreamEntries.insert streamId entry }

def bufferDatagram (s : WtSession) (data : Bytes) : WtSession :=
  if MAX_BUFFERED_DATAGRAMS ≤ s.bufferedDatagrams.length then s
  else { s with bufferedDatagrams := s.bufferedDatagrams ++ [data] }

/-! ## Delivery -/

/-- The session after a delivery, its events, the streams that ended, and whether the peer broke a
flow control limit. -/
structure Delivery where
  session : WtSession
  events : List WebTransportEvent
  closed : List (Nat × Bool)
  fcViolation : Bool

def openEvent (isBidi : Bool) (streamId sessionId : Nat) : WebTransportEvent :=
  if isBidi then .bidiStreamOpen streamId sessionId else .uniStreamOpen streamId sessionId

def dataEvent (isBidi : Bool) (streamId : Nat) (data : Bytes) : WebTransportEvent :=
  if isBidi then .bidiStreamData streamId data else .uniStreamData streamId data

def endEvent (isBidi : Bool) (streamId : Nat) : WebTransportEvent :=
  if isBidi then .bidiStreamEnd streamId else .uniStreamEnd streamId

/-- Put the streams that still have an entry back at the end of the buffer. -/
def restoreRemaining (s : WtSession) : List Nat → WtSession
  | [] => s
  | x :: xs =>
    match s.bufferedStreamEntries.lookup x with
    | some entry => restoreRemaining ((s.dropBufferedStreamEntry x).restoreBufferedStream x entry) xs
    | none => restoreRemaining s xs

/-- What follows the first `x` in the order. -/
def remainingAfter (x : Nat) (order : List Nat) : List Nat := (order.dropWhile (· ≠ x)).drop 1

/-- The end of a stream that is delivered. -/
def deliverEnd (s : WtSession) (streamId : Nat) (entry : BufferedStreamEntry) :
    WtSession × List WebTransportEvent × List (Nat × Bool) :=
  if entry.fin then
    ((s.onRemoteStreamClosed entry.isBidi).removeStreamReceivedData streamId,
      [endEvent entry.isBidi streamId], [(streamId, entry.isBidi)])
  else (s, [], [])

/-- Deliver the streams of the list in turn; `order` is all of the buffer as it was taken. -/
def deliverLoop (sessionId : Nat) (order : List Nat) (s : WtSession)
    (events : List WebTransportEvent) (closed : List (Nat × Bool)) : List Nat → Delivery
  | [] => ⟨s, events, closed, false⟩
  | x :: xs =>
    match s.bufferedStreamEntries.lookup x with
    | none => deliverLoop sessionId order s events closed xs
    | some entry =>
      let s := s.dropBufferedStreamEntry x
      if !s.checkReceivedStream entry.isBidi then
        -- the stream itself first, then what follows it
        ⟨(s.restoreBufferedStream x entry).restoreRemaining (remainingAfter x order),
          events, closed, true⟩
      else
        let s := (s.addReceivedStream entry.isBidi).associateStream x
        let events := events ++ [openEvent entry.isBidi x sessionId]
        if entry.data.isEmpty then
          match s.deliverEnd x entry with
          | (s, ends, cl) => deliverLoop sessionId order s (events ++ ends) (closed ++ cl) xs
        else if !s.checkReceivedData entry.data.length then
          ⟨(s.restoreRemaining (remainingAfter x order)).restoreBufferedStream x entry,
            events, closed, true⟩
        else
          let s := s.addReceivedDataAndTrack x entry.data.length
          match s.deliverEnd x entry with
          | (s, ends, cl) =>
            deliverLoop sessionId order s (events ++ [dataEvent entry.isBidi x entry.data] ++ ends)
              (closed ++ cl) xs

def deliver (s : WtSession) (sessionId : Nat) : Delivery :=
  deliverLoop sessionId s.bufferedStreams { s with bufferedStreams := [] } [] [] s.bufferedStreams

end WtSession

end Http3
