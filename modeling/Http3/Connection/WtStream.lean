import Http3.Connection.WtSession

/-!
# Data streams and datagrams

A data stream starts with a type or signal and the id of its session; both may arrive in pieces.
Unidirectional and bidirectional streams differ in their table, their events and in what FIN does.
-/

namespace Http3.Connection

open Proc

def rejectStream (streamId : Nat) (code : WtErrorCode) : WtProc Unit :=
  emit (.wt (.bufferedStreamRejected streamId code.code))

/-! ## Tables by direction -/

/-- Enter a stream into the table of its direction. -/
def enterStream (isBidi : Bool) (streamId sessionId : Nat) (w : WtState) : WtState :=
  if isBidi then { w with wtBidiStreams := w.wtBidiStreams.insert streamId sessionId }
  else { w with wtUniStreams := w.wtUniStreams.insert streamId sessionId }

def leaveStream (isBidi : Bool) (streamId : Nat) (w : WtState) : WtState :=
  if isBidi then { w with wtBidiStreams := w.wtBidiStreams.erase streamId }
  else { w with wtUniStreams := w.wtUniStreams.erase streamId }

def setPending (isBidi : Bool) (streamId : Nat) (buf : Bytes) (w : WtState) : WtState :=
  if isBidi then { w with pendingWtBidiStreams := w.pendingWtBidiStreams.insert streamId buf }
  else { w with pendingWtUniStreams := w.pendingWtUniStreams.insert streamId buf }

def dropPending (isBidi : Bool) (streamId : Nat) (w : WtState) : WtState :=
  if isBidi then { w with pendingWtBidiStreams := w.pendingWtBidiStreams.erase streamId }
  else { w with pendingWtUniStreams := w.pendingWtUniStreams.erase streamId }

def isPendingSession (w : WtState) (sessionId : Nat) : Bool :=
  (w.wtSessions.lookup sessionId).any fun s => s.state = .pending

/-! ## Data -/

/-- Data for a stream of a pending session. A stream that outgrows its buffer is rejected. -/
def bufferStreamData (isBidi : Bool) (streamId sessionId : Nat) (data : Bytes) : WtProc Unit := do
  let w ← get
  match w.wtSessions.lookup sessionId with
  | none => ret ()
  | some session =>
    match session.appendBufferedStreamData streamId data with
    | some session => modify (putSession sessionId session)
    | none =>
      modify fun w =>
        leaveStream isBidi streamId
          (putSession sessionId (session.dropBufferedStreamEntry streamId) w)
      rejectStream streamId .bufferedStreamRejected

/-- Data for a stream of an established session; the answer is whether the session goes on. -/
def receiveStreamData (env : Env) (isBidi : Bool) (streamId sessionId : Nat) (data : Bytes) :
    WtProc Bool := do
  let w ← get
  if (w.wtSessions.lookup sessionId).any fun s => !s.checkReceivedData data.length then
    terminateFlowControl env sessionId
    ret false
  else
    modify fun w => { w with
      wtSessions := w.wtSessions.update sessionId fun s =>
        s.addReceivedDataAndTrack streamId data.length }
    emit (.wt (WtSession.dataEvent isBidi streamId data))
    ret true

/-- The credit of a stream that the peer has finished. -/
def returnCredit (isBidi : Bool) (streamId sessionId : Nat) (w : WtState) : WtState :=
  { w with
    wtSessions := w.wtSessions.update sessionId fun s =>
      (s.onRemoteStreamClosed isBidi).removeStreamReceivedData streamId }

def markFin (streamId sessionId : Nat) (w : WtState) : WtState :=
  { w with wtSessions := w.wtSessions.update sessionId fun s => s.markBufferedStreamFin streamId }

/-! ## A new stream -/

/-- A stream whose session is known now, with the payload that came along. -/
def openStream (env : Env) (goaway : Option VarInt) (isBidi : Bool) (streamId sessionId : Nat)
    (payload : Bytes) : WtProc Unit := do
  modify fun w => enterStream isBidi streamId sessionId (dropPending isBidi streamId w)
  match ← associateOrBufferStream env goaway streamId sessionId isBidi with
  | none =>
    modify (leaveStream isBidi streamId)
    rejectStream streamId .sessionGone
  | some .bufferOverflow =>
    modify (leaveStream isBidi streamId)
    rejectStream streamId .bufferedStreamRejected
  | some .buffered =>
    if payload.isEmpty then ret () else bufferStreamData isBidi streamId sessionId payload
  | some .established =>
    let w ← get
    if (w.wtSessions.lookup sessionId).any fun s => !s.checkReceivedStream isBidi then
      modify (leaveStream isBidi streamId)
      terminateFlowControl env sessionId
    else
      modify fun w => { w with
        wtSessions := w.wtSessions.update sessionId fun s => s.addReceivedStream isBidi }
      emit (.wt (WtSession.openEvent isBidi streamId sessionId))
      if payload.isEmpty then ret ()
      else
        let _ ← receiveStreamData env isBidi streamId sessionId payload
        ret ()

/-- Append to the bytes of a header that is still incomplete. -/
def pendingWith (pending : IdMap Bytes) (streamId : Nat) (data : Bytes) : Bytes :=
  (pending.lookup streamId).getD [] ++ data

/-- The session id of a unidirectional stream. -/
def resolveWtUniStreamSessionId (env : Env) (goaway : Option VarInt) (streamId : Nat)
    (data : Bytes) : WtProc Unit := do
  let w ← get
  let buf := pendingWith w.pendingWtUniStreams streamId data
  match VarInt.decode buf with
  | .error _ => modify (setPending false streamId buf)
  | .ok (sessionId, idLen) =>
    if sessionId.get % 4 ≠ 0 then
      modify fun w =>
        if w.pendingWtUniStreams.contains streamId then setPending false streamId buf w else w
      throw (.connectionError .idError)
    else openStream env goaway false streamId sessionId.get (buf.drop idLen)

/-- The signal and the session id of a bidirectional stream. -/
def resolveWtBidiStreamHeader (env : Env) (goaway : Option VarInt) (streamId : Nat)
    (data : Bytes) : WtProc Unit := do
  let w ← get
  let buf := pendingWith w.pendingWtBidiStreams streamId data
  let keep : WtProc Unit := modify fun w =>
    if w.pendingWtBidiStreams.contains streamId then setPending true streamId buf w else w
  match VarInt.decode buf with
  | .error _ => modify (setPending true streamId buf)
  | .ok (signalValue, signalLen) =>
    if signalValue.get ≠ 0x41 then
      keep
      throw (.connectionError .frameError)
    else
      match VarInt.decode (buf.drop signalLen) with
      | .error _ => modify (setPending true streamId buf)
      | .ok (sessionId, idLen) =>
        if sessionId.get % 4 ≠ 0 then
          keep
          throw (.connectionError .idError)
        else openStream env goaway true streamId sessionId.get ((buf.drop signalLen).drop idLen)

/-! ## Streams that are known -/

/-- FIN of a bidirectional stream whose session is known. Streams opened here stay registered. -/
def finishBidi (env : Env) (streamId sessionId : Nat) : WtProc Unit := do
  modify fun w =>
    if isLocalInitiatedBidi env.role (.fromStreamId streamId) then w
    else returnCredit true streamId sessionId (leaveStream true streamId w)
  emit (.wt (.bidiStreamEnd streamId))

/-- Data and FIN for a bidirectional stream that is registered. -/
def continueWtBidiStream (env : Env) (streamId sessionId : Nat) (data : Bytes) (fin : Bool) :
    WtProc Unit := do
  let w ← get
  if isPendingSession w sessionId then
    if data.isEmpty then ret () else bufferStreamData true streamId sessionId data
    -- a stream that was rejected has no entry left to mark
    if fin then modify (markFin streamId sessionId) else ret ()
  else
    let goesOn ← if data.isEmpty then ret true
      else receiveStreamData env true streamId sessionId data
    if goesOn && fin then finishBidi env streamId sessionId else ret ()

/-- FIN that came with the header. -/
def finishResolved (streamId : Nat) : WtProc Unit := do
  let w ← get
  match w.wtBidiStreams.lookup streamId with
  | some sessionId =>
    if isPendingSession w sessionId then modify (markFin streamId sessionId)
    else
      modify fun w => returnCredit true streamId sessionId (leaveStream true streamId w)
      emit (.wt (.bidiStreamEnd streamId))
  | none => ret ()
  modify (dropPending true streamId)

def handleWtBidiStream (env : Env) (goaway : Option VarInt) (streamId : Nat) (data : Bytes)
    (fin : Bool) : WtProc Unit := do
  let w ← get
  match w.wtBidiStreams.lookup streamId with
  | some sessionId => continueWtBidiStream env streamId sessionId data fin
  | none =>
    resolveWtBidiStreamHeader env goaway streamId data
    if fin then finishResolved streamId else ret ()

def handleWtUniStreamData (env : Env) (streamId : Nat) (data : Bytes) : WtProc Unit := do
  let w ← get
  match w.wtUniStreams.lookup streamId with
  | none => ret ()
  | some sessionId =>
    if isLocalInitiatedUni env.role (.fromStreamId streamId) then ret ()
    else if isPendingSession w sessionId then bufferStreamData false streamId sessionId data
    else
      let _ ← receiveStreamData env false streamId sessionId data
      ret ()

def handleWtUniStreamFin (env : Env) (streamId : Nat) : WtProc Unit := do
  let w ← get
  match w.wtUniStreams.lookup streamId with
  | none => ret ()
  | some sessionId =>
    if isLocalInitiatedUni env.role (.fromStreamId streamId) then ret ()
    else if isPendingSession w sessionId then
      modify fun w =>
        enterStream false streamId sessionId (markFin streamId sessionId (leaveStream false streamId w))
    else
      modify fun w => returnCredit false streamId sessionId (leaveStream false streamId w)
      emit (.wt (.uniStreamEnd streamId))

end Http3.Connection
