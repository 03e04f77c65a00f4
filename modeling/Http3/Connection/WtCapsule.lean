import Http3.Connection.WtSession

/-!
# Capsules

What the CONNECT stream of a session carries once its frames are taken apart.
-/

namespace Http3.Connection

open Proc

def MAX_DEFERRED_DATA_BYTES : Nat := 64 * 1024

def PENDING_CAPSULE_BUF_LIMIT : Nat := 64 * 1024

def handleWtCapsule (env : Env) (sessionId : Nat) (capsule : Capsule) : WtProc Unit := do
  match capsule with
  | .closeSession errorCode message =>
    terminateWtSessionWith env sessionId WtErrorCode.sessionGone.code errorCode message
  | .drainSession =>
    let w ← get
    match w.wtSessions.lookup sessionId with
    | some session =>
      if session.state = .established || session.state = .pending then
        modify (putSession sessionId { session with state := .draining })
        emit (.wt (.sessionDraining sessionId))
      else ret ()
    | none => ret ()
  | .maxData _ | .maxStreams _ _ | .dataBlocked _ | .streamsBlocked _ _ =>
    let w ← get
    if (w.wtSessions.lookup sessionId).any WtSession.flowControlEnabled then
      emit (.wt (.capsule sessionId capsule))
    else ret ()
  | .unknown _ _ =>
    if capsule.isProhibitedInHttp3 then
      terminateWtSessionWith env sessionId WtErrorCode.sessionGone.code 0
        (Bytes.ofString "prohibited capsule received")
    else ret ()

def isCloseSession : Capsule → Bool
  | .closeSession _ _ => true
  | _ => false

/-- One capsule; the answer is whether to go on. -/
def processWtCapsule (env : Env) (sessionId : Nat) : WtProc Bool := do
  let w ← get
  match w.wtSessions.lookup sessionId with
  | none => ret false
  | some session =>
    if session.capsuleBuf.isEmpty then ret false
    else
      match Capsule.decode session.capsuleBuf with
      | .ok none => ret false
      | .error _ => throw (.streamError .messageError)
      | .ok (some (capsule, consumed)) =>
        modify (putSession sessionId
          { session with capsuleBuf := session.capsuleBuf.drop consumed })
        handleWtCapsule env sessionId capsule
        -- nothing may follow WT_CLOSE_SESSION in the same data
        if isCloseSession capsule && consumed < session.capsuleBuf.length then
          throw (.streamError .messageError)
        else ret true

def processWtCapsuleData (env : Env) (sessionId : Nat) (data : Bytes) : WtProc Unit := do
  let w ← get
  match w.wtSessions.lookup sessionId with
  | none => ret ()
  | some session =>
    let capsuleBuf := session.capsuleBuf ++ data
    modify (putSession sessionId { session with capsuleBuf })
    -- a capsule takes at least two bytes
    loop (processWtCapsule env sessionId) (capsuleBuf.length + 1)

/-- DATA on a request stream; the answer is whether WebTransport takes it. `bodyLen` is the length
of the body the stream has received. -/
def handleWtDataFrame (env : Env) (peer : Option Settings) (bodyLen : Nat) (streamId : Nat)
    (data : Bytes) : WtProc Bool := do
  let w ← get
  if w.deferredWtConnects.contains streamId then
    if MAX_DEFERRED_DATA_BYTES < bodyLen + data.length then throw (.streamError .messageError)
    else ret true
  else
    match w.wtSessions.lookup streamId with
    | none =>
      if w.closedWtSessions.contains streamId then throw (.streamError .messageError)
      else ret false
    | some session =>
      match session.state with
      | .established | .draining =>
        processWtCapsuleData env streamId data
        ret true
      | .pending =>
        if peerWtDraftVersion peer = some .draft02 then ret true
        else if env.role = .server then
          if PENDING_CAPSULE_BUF_LIMIT < session.capsuleBuf.length + data.length then
            throw (.streamError .messageError)
          else
            modify (putSession streamId { session with capsuleBuf := session.capsuleBuf ++ data })
            ret true
        else throw (.streamError .messageError)
      | .closed => throw (.streamError .messageError)

/-- The end of a request stream, as far as WebTransport is concerned. -/
def handleWtStreamEnd (env : Env) (streamId : Nat) : WtProc Unit := do
  let w ← get
  if w.deferredWtConnects.contains streamId then
    modify fun w => { w with deferredWtConnects := w.deferredWtConnects.erase streamId }
  else
    match w.wtSessions.lookup streamId with
    | none => ret ()
    | some session =>
      if session.state = .pending then abandonSession streamId session
      else if !session.capsuleBuf.isEmpty then throw (.streamError .messageError)
      else terminateWtSession env streamId

end Http3.Connection
