import Http3.Connection.WtCapsule

/-!
# The CONNECT that opens a session

The checks of the request on both sides, the protocol of the response, and the moment at which a
pending session becomes established.
-/

namespace Http3.Connection

open Proc Bytes

def messageError : Error := .streamError .messageError

/-- Fail unless the condition holds. -/
def ensure (c : Bool) (e : Error) : Except Error Unit := if c then .ok () else .error e

theorem ensure_eq_ok {b : Bool} {e : Error} : ensure b e = .ok () ↔ b = true := by
  unfold ensure
  cases b <;> simp

theorem ensure_bind {α : Type} {b : Bool} {e : Error} {f : Unit → Except Error α} {a : α} :
    (ensure b e >>= f) = .ok a ↔ b = true ∧ f () = .ok a := by
  unfold ensure
  cases b with
  | true => exact ⟨fun h => ⟨rfl, h⟩, fun h => h.2⟩
  | false => exact ⟨nofun, fun h => nomatch h.1⟩

/-- The checks before a client sends a WebTransport CONNECT. -/
def validateWtConnectRequest (env : Env) (peer : Option Settings) (w : WtState)
    (headers : List Header) : Except Error Unit :=
  if !isWebtransportConnect headers then .ok ()
  else do
    ensure (!hasForbiddenCapsuleHeaders headers) messageError
    match peer with
    | none => .error (.wtSetup .peerSettingsNotReceived)
    | some p =>
      ensure p.isWebtransportEnabled (.wtSetup .webTransportNotEnabled)
      match selectWtDraftVersion env peer with
      | none => .error (.wtSetup .unknownDraftVersion)
      | some draft =>
        ensure (!draft.requiresEnableConnectProtocol || p.enableConnectProtocol == some true)
          (.wtSetup .enableConnectProtocolMissing)
        ensure (p.h3Datagram == some true) (.wtSetup .h3DatagramNotEnabled)
        ensure w.wtTransportVerified (.wtSetup .transportNotVerified)
        ensure (!draft.requiresResetStreamAt || w.wtResetStreamAtSupported)
          (.wtSetup .resetStreamAtNotSupported)
        ensure (headers.any fun h => h.name = ofString ":protocol" && h.value = draft.protocolValue)
          (.wtSetup .protocolMismatch)
        ensure (isWtFlowControlEnabled env peer || countActiveWtSessions w == 0)
          (.streamError .requestRejected)

/-- The active sessions beside the one of this stream, when that one is pending. -/
def otherActive (w : WtState) (streamId : Nat) : Nat :=
  if isPending (w.wtSessions.lookup streamId) then countActiveWtSessions w - 1
  else countActiveWtSessions w
where
  isPending (s : Option WtSession) : Bool := s.any fun s => s.state = .pending

/-- The checks when a server receives a WebTransport CONNECT. -/
def validateWtConnectRequestServer (env : Env) (peer : Option Settings) (w : WtState)
    (streamId : Nat) (headers : List Header) : Except Error Unit :=
  if env.role ≠ .server || !isWebtransportConnect headers then .ok ()
  else do
    ensure (!hasForbiddenCapsuleHeaders headers) messageError
    ensure env.localSettings.isWebtransportEnabled messageError
    match peer with
    | none => .ok ()
    | some p =>
      let draft := selectWtDraftVersion env peer
      ensure (draft.isSome || !localAdvertisesWtEnabled env) messageError
      ensure (p.h3Datagram == some true) messageError
      ensure w.wtTransportVerified messageError
      match draft with
      | none => .ok ()
      | some draft =>
        ensure (!draft.requiresResetStreamAt || w.wtResetStreamAtSupported) messageError
        match headers.find? fun h => h.name = ofString ":protocol" with
        | none => .error messageError
        | some h => ensure (h.value == draft.protocolValue) messageError
      ensure (hasHeader headers ":scheme" "https") messageError
      ensure (isWtFlowControlEnabled env peer || otherActive w streamId == 0)
        (.streamError .requestRejected)

/-- The session of a CONNECT that was received; one that streams created before is kept. -/
def registerSession (streamId : Nat) (headers : List Header) : WtProc Unit := do
  emit (.wtConnect streamId)
  modify fun w =>
    putSession streamId (((w.wtSessions.lookup streamId).getD .new).offer headers) w

/-- Keep a CONNECT until SETTINGS arrive. -/
def deferSession (streamId : Nat) (headers : List Header) : WtProc Unit := do
  emit (.wtConnect streamId)
  modify fun w => { w with deferredWtConnects := w.deferredWtConnects.insert streamId headers }

/-! ## The response -/

/-- The session with its flow control, once it is established. -/
def establishedSession (env : Env) (peer : Option Settings) (session : WtSession) : WtSession :=
  let fcEnabled := isWtFlowControlEnabled env peer
  let session := { session with flowControlEnabled := fcEnabled }
  let session :=
    match env.localSettings.wtSettings with
    | some wt =>
      session.initializeFlowControl wt (fcEnabled && peerRequiresInitialWtCapsules peer)
    | none => session
  { session with state := .established }

/-- Establish a pending session and deliver what it buffered. The answer is whether the session
was established and goes on. -/
def establish (env : Env) (peer : Option Settings) (sessionId : Nat) (session : WtSession) :
    WtProc Bool := do
  modify (putSession sessionId (establishedSession env peer session))
  emit (.wt (.sessionEstablished sessionId (isWtFlowControlEnabled env peer)))
  if ← deliverBufferedStreams sessionId then
    terminateFlowControl env sessionId
    ret false
  else ret true

/-- A client received a final response. The answer is whether the session was established. -/
def handleWtConnectResponse (env : Env) (peer : Option Settings) (streamId : Nat)
    (headers : List Header) : WtProc Bool := do
  let w ← get
  if env.role ≠ .client || !isSuccessStatus headers then ret false
  else
    match w.wtSessions.lookup streamId with
    | none => ret false
    | some session =>
      if hasForbiddenCapsuleHeaders headers then throw messageError
      else if isForbiddenCapsuleStatus headers then throw messageError
      else if session.state ≠ .pending then ret false
      else if !isProtocolValid session.availableProtocols (selectedProtocol headers) then
        terminateWtSessionWith env streamId WtErrorCode.alpnError.code 0 []
        ret false
      else
        let _ ← establish env peer streamId session
        ret true

/-- What a server may send as a successful response to a CONNECT. -/
def validateWtResponseProtocol (w : WtState) (streamId : Nat) (headers : List Header) :
    Except Error Unit :=
  if !isSuccessStatus headers then .ok ()
  else
    match w.wtSessions.lookup streamId with
    | none => .ok ()
    | some session => do
      ensure (!hasForbiddenCapsuleHeaders headers) messageError
      ensure (!isForbiddenCapsuleStatus headers) messageError
      ensure (isProtocolValid session.availableProtocols (selectedProtocol headers))
        (.connectionError .internalError)

/-- Capsules that came before the session was established. An error ends the session. -/
def processBufferedCapsules (env : Env) (streamId : Nat) : WtProc Unit := do
  let w ← get
  if (w.wtSessions.lookup streamId).any fun s => !s.capsuleBuf.isEmpty then
    match ← attempt (processWtCapsuleData env streamId []) with
    | .ok _ => ret ()
    | .error e =>
      terminateWtSession env streamId
      throw e
  else ret ()

def establishWtSessionServer (env : Env) (peer : Option Settings) (streamId : Nat)
    (headers : List Header) : WtProc Unit := do
  let w ← get
  if env.role ≠ .server || !isSuccessStatus headers then ret ()
  else
    match w.wtSessions.lookup streamId with
    | none => ret ()
    | some session =>
      if session.state ≠ .pending then ret ()
      else if ← establish env peer streamId session then processBufferedCapsules env streamId
      else ret ()

end Http3.Connection
