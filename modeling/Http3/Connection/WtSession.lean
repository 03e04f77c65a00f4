import Http3.Connection.State
import Http3.Validation
import Http3.WebTransport.SfParser

/-!
# Sessions

Which draft the two sides use, how a session is created, delivered and ended, and what
RESET_STREAM and STOP_SENDING do to sessions and their streams. `peer` are the peer's SETTINGS.
-/

namespace Http3

open Proc Bytes

/-! ## Header predicates -/

def hasHeader (headers : List Header) (name value : String) : Bool :=
  headers.any fun h => h.name = ofString name && h.value = ofString value

def isWebtransportConnect (headers : List Header) : Bool :=
  hasHeader headers ":method" "CONNECT" &&
    (hasHeader headers ":protocol" "webtransport-h3" || hasHeader headers ":protocol" "webtransport")

def isPlainConnect (headers : List Header) : Bool :=
  hasHeader headers ":method" "CONNECT" && !headers.any fun h => h.name = ofString ":protocol"

/-- A decimal `u16`; a sign `+` may lead. -/
def parseU16 (value : Bytes) : Option Nat :=
  let digits := if value.head? = some 0x2b then value.tail else value
  if digits.isEmpty || !digits.all isDigit then none
  else
    let n := digits.foldl (fun n b => n * 10 + (b.toNat - 0x30)) 0
    if n < 2 ^ 16 then some n else none

/-- The value of the first `:status`. -/
def statusCode (headers : List Header) : Option Nat :=
  (headers.find? fun h => h.name = ofString ":status").bind fun h => parseU16 h.value

def isInformationalStatus (headers : List Header) : Bool :=
  (statusCode headers).any fun code => code < 200 && code ≠ 101

def isSuccessStatus (headers : List Header) : Bool :=
  (statusCode headers).any fun code => 200 ≤ code && code < 300

def isNoBodyStatus (headers : List Header) : Bool :=
  (statusCode headers).any fun code => code < 200 || code == 204 || code == 304

def hasForbiddenCapsuleHeaders (headers : List Header) : Bool :=
  headers.any fun h => h.name = ofString "content-length" || h.name = ofString "content-type"

def isForbiddenCapsuleStatus (headers : List Header) : Bool :=
  hasHeader headers ":status" "204" || hasHeader headers ":status" "205" ||
    hasHeader headers ":status" "206"

/-- The first `wt-protocol` that is a string. -/
def selectedProtocol (headers : List Header) : Option Bytes :=
  headers.findSome? fun h =>
    if h.name = ofString "wt-protocol" && Utf8.isValid h.value then
      SfParser.parseSfItemString h.value
    else none

/-- Does the choice fit what was offered? -/
def isProtocolValid (available : List Bytes) (selected : Option Bytes) : Bool :=
  match selected with
  | none => available.isEmpty
  | some proto => available.contains proto

/-- The session of a CONNECT with the protocols that it offers. -/
def WtSession.offer (s : WtSession) (headers : List Header) : WtSession :=
  match headers.find? fun h => h.name = ofString "wt-available-protocols" with
  | some h =>
    if Utf8.isValid h.value then
      { s with availableProtocols := SfParser.parseSfListStrings h.value }
    else s
  | none => s

def DraftVersion.protocolValue : DraftVersion → Bytes
  | .draft02 | .draft07 | .draft14 => ofString "webtransport"
  | .draft15 | .draft17 => ofString "webtransport-h3"

/-! ## Negotiation -/

namespace Connection

def isLocalInitiatedBidi (role : Role) (kind : StreamKind) : Bool :=
  match role with
  | .client => kind = .clientBidi
  | .server => kind = .serverBidi

def isLocalInitiatedUni (role : Role) (kind : StreamKind) : Bool :=
  match role with
  | .client => kind = .clientUni
  | .server => kind = .serverUni

def peerWt (peer : Option Settings) : Option WtSettings := peer.bind Settings.wtSettings

def peerRequiresInitialWtCapsules (peer : Option Settings) : Bool :=
  (peerWt peer).any WtSettings.requiresInitialCapsuleFlowControlCompat

def peerWtDraftVersion (peer : Option Settings) : Option DraftVersion :=
  (peerWt peer).bind WtSettings.detectDraftPattern

def localAdvertisesWtEnabled (env : Env) : Bool :=
  env.localSettings.wtSettings.any WtSettings.advertisesWtEnabled

def selectWtDraftVersion (env : Env) (peer : Option Settings) : Option DraftVersion := do
  let localWt ← env.localSettings.wtSettings
  let p ← peer
  match env.role with
  | .client =>
    let wt ← p.wtSettings
    match localWt.firstMutualDraft wt with
    | some draft => some draft
    | none =>
      if !localWt.advertisesAnyDraftVersion && wt.advertisesDraftVersion .draft17 then
        some .draft17
      else none
  | .server =>
    match p.wtSettings.bind localWt.firstMutualDraft with
    | some draft => some draft
    | none => if localWt.advertisesDraftVersion .draft17 then some .draft17 else none

def isWtFullyNegotiated (env : Env) (peer : Option Settings) (w : WtState) : Bool :=
  match env.localSettings.wtSettings, peer with
  | some localWt, some p =>
    if env.role = .server && !localWt.isEnabled then false
    else if p.h3Datagram ≠ some true then false
    else if !w.wtTransportVerified then false
    else
      match selectWtDraftVersion env peer with
      | none => env.role = .server && !localAdvertisesWtEnabled env
      | some draft =>
        if env.role = .client && draft.requiresEnableConnectProtocol &&
            p.enableConnectProtocol ≠ some true then false
        else !(draft.requiresResetStreamAt && !w.wtResetStreamAtSupported)
  | _, _ => false

def isWtFlowControlEnabled (env : Env) (peer : Option Settings) : Bool :=
  match env.localSettings.wtSettings, peerWt peer with
  | some localWt, some wt => localWt.flowControlEnabledWithPeer wt
  | _, _ => false

/-! ## The end of a session -/

def countPendingWtSessions (w : WtState) : Nat :=
  (w.wtSessions.values.filter fun s => s.state = .pending).length

def countActiveWtSessions (w : WtState) : Nat :=
  (w.wtSessions.values.filter fun s =>
    s.state = .pending || s.state = .established || s.state = .draining).length

/-- The bytes in front of the payload of a data stream; 0 for other streams. -/
def wtStreamHeaderLen (w : WtState) (streamId : Nat) : Except Error Nat :=
  match (w.wtBidiStreams.lookup streamId) <|> (w.wtUniStreams.lookup streamId) with
  | none => .ok 0
  | some sessionId =>
    match VarInt.new sessionId with
    -- 0x41 and 0x54 both take two bytes
    | .ok v => .ok (2 + v.encodedLen)
    | .error _ => .error .panicked

def resetOf (w : WtState) (streamId : Nat) : Except Error WtStreamReset :=
  (wtStreamHeaderLen w streamId).map fun reliableSize => ⟨streamId, reliableSize⟩

/-- Take a session out of the table and leave a tombstone. -/
def dropSession (sessionId : Nat) (w : WtState) : WtState :=
  { w with
    wtSessions := w.wtSessions.erase sessionId
    closedWtSessions := w.closedWtSessions.insert sessionId }

def terminateWtSessionWith (env : Env) (sessionId errorCode closeErrorCode : Nat)
    (closeMessage : Bytes) : WtProc Unit := do
  let w ← get
  match w.wtSessions.lookup sessionId with
  | none => ret ()
  | some session =>
    if session.state = .closed then ret ()
    else
      let associated := env.order.walk (.associatedStreams sessionId) session.associatedStreams
      let resets ← ofExcept (associated.mapM (resetOf w))
      modify fun w => dropSession sessionId { w with
        wtUniStreams := w.wtUniStreams.eraseAll associated
        wtBidiStreams := w.wtBidiStreams.eraseAll associated }
      emit (.wt (.sessionClosed sessionId
        (resets ++ session.bufferedStreams.map fun sid => ⟨sid, 0⟩)
        errorCode closeErrorCode closeMessage))
      emit (.sessionEnded sessionId session.bufferedStreams)

def terminateWtSession (env : Env) (sessionId : Nat) : WtProc Unit :=
  terminateWtSessionWith env sessionId WtErrorCode.sessionGone.code 0 []

def terminateFlowControl (env : Env) (sessionId : Nat) : WtProc Unit :=
  terminateWtSessionWith env sessionId WtErrorCode.flowControlError.code 0 []

/-- Drop a session that was not established, without an event. -/
def abandonSession (sessionId : Nat) (session : WtSession) : WtProc Unit := do
  modify (dropSession sessionId)
  emit (.sessionEnded sessionId session.bufferedStreams)

/-! ## Association and delivery -/

def putSession (sessionId : Nat) (session : WtSession) (w : WtState) : WtState :=
  { w with wtSessions := w.wtSessions.insert sessionId session }

/-- The tables without the streams that ended; the flag is that of a bidirectional one. -/
def eraseClosed (closed : List (Nat × Bool)) (w : WtState) : WtState :=
  { w with
    wtBidiStreams := w.wtBidiStreams.eraseAll ((closed.filter fun e => e.2).map Prod.fst)
    wtUniStreams := w.wtUniStreams.eraseAll ((closed.filter fun e => !e.2).map Prod.fst) }

/-- Hand out what a session buffered; the answer is whether the peer broke a limit. -/
def deliverBufferedStreams (sessionId : Nat) : WtProc Bool := do
  let w ← get
  match w.wtSessions.lookup sessionId with
  | none => ret false
  | some session =>
    let d := session.deliver sessionId
    emitAll (d.events.map Obs.wt)
    if d.fcViolation then
      modify fun w => eraseClosed d.closed (putSession sessionId d.session w)
      ret true
    else
      modify fun w => eraseClosed d.closed
        (putSession sessionId { d.session with bufferedDatagrams := [] } w)
      emitAll (d.session.bufferedDatagrams.map fun payload => .wt (.datagram sessionId payload))
      ret false

/-- `none` when the session does not take new streams. -/
def associateOrBufferStream (env : Env) (lastSentGoawayId : Option VarInt)
    (streamId sessionId : Nat) (isBidi : Bool) : WtProc (Option AssocOutcome) := do
  let w ← get
  match w.wtSessions.lookup sessionId with
  | some session =>
    match session.state with
    | .established =>
      modify (putSession sessionId (session.associateStream streamId))
      ret (some .established)
    | .pending =>
      match session.bufferStream streamId isBidi with
      | some session =>
        modify (putSession sessionId session)
        ret (some .buffered)
      | none => ret (some .bufferOverflow)
    | .draining | .closed => ret none
  | none =>
    if env.role = .client then ret none
    else if w.closedWtSessions.contains sessionId then ret none
    else if lastSentGoawayId.any fun lastId => lastId.get ≤ sessionId then ret none
    else if WT_MAX_PENDING_SESSIONS ≤ countPendingWtSessions w then ret (some .bufferOverflow)
    else
      match WtSession.new.bufferStream streamId isBidi with
      | some session =>
        modify (putSession sessionId session)
        ret (some .buffered)
      | none =>
        modify (putSession sessionId .new)
        ret (some .bufferOverflow)

/-! ## RESET_STREAM and STOP_SENDING -/

def sessionOf (w : WtState) (streamId : Nat) : Option Nat :=
  (w.wtUniStreams.lookup streamId) <|> (w.wtBidiStreams.lookup streamId)

/-- Account for the data of a reset stream that never arrived; the answer is whether that ended
the session. -/
def accountWtStreamReset (env : Env) (sessionId streamId finalSize : Nat) : WtProc Bool := do
  let w ← get
  let headerLen ← ofExcept <|
    if isLocalInitiatedBidi env.role (.fromStreamId streamId) then .ok 0
    else wtStreamHeaderLen w streamId
  match w.wtSessions.lookup sessionId with
  | none => ret false
  | some session =>
    let residual := finalSize - headerLen - session.getStreamReceivedData streamId
    if !session.checkReceivedData residual then
      terminateFlowControl env sessionId
      ret true
    else
      modify (putSession sessionId ((session.addReceivedData residual).onDataConsumed residual))
      ret false

/-- The sessions in the order given, up to the first that has the stream buffered, without it. -/
def removeBuffered (streamId : Nat) : List Nat → IdMap WtSession → Bool × IdMap WtSession
  | [], m => (false, m)
  | sid :: sids, m =>
    match m.lookup sid with
    | none => removeBuffered streamId sids m
    | some session =>
      match session.removeBufferedStream streamId with
      | (true, session) => (true, m.insert sid session)
      | (false, session) => removeBuffered streamId sids (m.insert sid session)

/-- A data stream that belongs to a session was reset. -/
def resetDataStream (env : Env) (sessionId streamId errorCode finalSize : Nat) : WtProc Unit := do
  let w ← get
  let isBidi := w.wtBidiStreams.contains streamId
  if ← accountWtStreamReset env sessionId streamId finalSize then ret ()
  else
    modify fun w => { w with
      wtSessions := w.wtSessions.update sessionId fun session =>
        let session :=
          if isLocalInitiatedBidi env.role (.fromStreamId streamId) then session
          else session.onRemoteStreamClosed isBidi
        (session.removeStreamReceivedData streamId).disassociateStream streamId
      wtUniStreams := w.wtUniStreams.erase streamId
      wtBidiStreams := w.wtBidiStreams.erase streamId }
    emit (.wt (.streamReset sessionId streamId errorCode finalSize))

/-- The answer is whether the stream belongs to WebTransport. -/
def handleWtStreamReset (env : Env) (streamId errorCode finalSize : Nat) : WtProc Bool := do
  let w ← get
  if w.wtSessions.contains streamId then
    terminateWtSession env streamId
    ret true
  else if w.closedWtSessions.contains streamId then ret true
  else if w.deferredWtConnects.contains streamId then
    modify fun w => { w with deferredWtConnects := w.deferredWtConnects.erase streamId }
    ret true
  else if w.pendingWtBidiPreNegotiation.contains streamId then
    modify fun w => { w with
      pendingWtBidiPreNegotiation := w.pendingWtBidiPreNegotiation.erase streamId
      ignoredPreNegotiationWtBidi := w.ignoredPreNegotiationWtBidi.insert streamId }
    ret true
  else if w.ignoredPreNegotiationWtBidi.contains streamId then ret true
  else
    match removeBuffered streamId (env.order.walk .wtSessions w.wtSessions.keys) w.wtSessions with
    | (true, wtSessions) =>
      modify fun w => { w with wtSessions }
      ret true
    | (false, wtSessions) =>
      modify fun w => { w with wtSessions }
      match sessionOf w streamId with
      | none => ret false
      | some sessionId =>
        if isLocalInitiatedUni env.role (.fromStreamId streamId) then ret true
        else
          resetDataStream env sessionId streamId errorCode finalSize
          ret true

def handleWtStopSending (env : Env) (streamId errorCode : Nat) : WtProc Bool := do
  let w ← get
  if w.wtSessions.contains streamId then
    terminateWtSession env streamId
    ret true
  else if w.closedWtSessions.contains streamId then ret true
  else if w.pendingWtBidiPreNegotiation.contains streamId ||
      w.ignoredPreNegotiationWtBidi.contains streamId then ret true
  else
    match sessionOf w streamId with
    | some sessionId =>
      emit (.wt (.streamStopSending sessionId streamId errorCode))
      ret true
    | none => ret false

end Connection

end Http3
