import Http3.Lib.Proc
import Http3.Lib.SortedSet
import Http3.Connection.Types
import Http3.Qpack.Decoder
import Http3.Qpack.DecoderStream
import Http3.Qpack.Encoder
import Http3.Qpack.EncoderStream
import Http3.Stream.Request

/-!
# The state of a connection

The fields are grouped by what works on them: the QPACK streams, the WebTransport tables, and
the rest. Role and local settings never change after the connection was made, so they stand in
the environment; next to them stands the order in which the hash tables are walked, of which
nothing is assumed but that it visits every entry once.

The methods of the connection are procedures that report observations. Most observations are
events; the others mark branches that no event tells of.
-/

namespace Http3

/-! ## Environment -/

/-- The places where the order of a hash table shows. -/
inductive HashSite where
  | deferredWtConnects
  | pendingWtBidiPreNegotiation
  | wtSessions
  | associatedStreams (sessionId : Nat)
  deriving DecidableEq

structure HashOrder where
  walk : HashSite → List Nat → List Nat
  perm : ∀ site l, (walk site l).Perm l

/-- The order of insertion, for one. -/
def HashOrder.asListed : HashOrder := ⟨fun _ l => l, fun _ _ => List.Perm.refl _⟩

structure Config where
  role : Role
  localSettings : Settings
  deriving DecidableEq

structure Env extends Config where
  order : HashOrder

/-! ## State -/

structure QpackState where
  encoder : Qpack.DynamicEncoder
  dynamicDecoder : Qpack.DynamicDecoder
  encoderStream : Qpack.EncoderStream
  encoderStreamId : Option Nat
  decoderStream : Qpack.DecoderStream
  decoderStreamId : Option Nat
  encoderStreamRecv : Qpack.EncoderStreamReceiver
  peerEncoderStreamId : Option Nat
  decoderStreamRecv : Qpack.DecoderStreamReceiver
  peerDecoderStreamId : Option Nat
  deferredEncoderSetCapacity : Option Nat
  deferredSectionAcks : List Nat
  deferredStreamCancellations : List Nat

/-- A bidirectional WT_STREAM that arrived before SETTINGS. -/
structure PendingWtBidiPreNegotiation where
  data : Bytes
  fin : Bool
  deriving DecidableEq

structure WtState where
  /-- stream to session -/
  wtUniStreams : IdMap Nat
  pendingWtUniStreams : IdMap Bytes
  /-- stream to session -/
  wtBidiStreams : IdMap Nat
  pendingWtBidiStreams : IdMap Bytes
  pendingBidiDispatch : IdMap Bytes
  wtSessions : IdMap WtSession
  /-- the sessions that have ended -/
  closedWtSessions : List Nat
  wtTransportVerified : Bool
  previousWtSettings : Option WtSettings
  wtResetStreamAtSupported : Bool
  deferredWtConnects : IdMap (List Header)
  pendingWtBidiPreNegotiation : IdMap PendingWtBidiPreNegotiation
  ignoredPreNegotiationWtBidi : List Nat

structure Core where
  peerSettings : Option Settings
  limits : Limits
  controlSend : ControlStreamSend
  controlRecv : ControlStreamRecv
  streams : IdMap RequestStream
  nextStreamId : Nat
  qpack : QpackState
  peerGoawayLastId : Option VarInt
  lastSentGoawayId : Option VarInt
  maxPushId : Option VarInt
  /-- Required Insert Count and stream of the sections that wait -/
  blockedByRicnt : SortedSet
  ignoredUniStreams : List Nat
  pendingUniStreams : IdMap Bytes
  wt : WtState

structure Connection where
  core : Core
  events : List Event
  error : Option Error

/-! ## Observations and procedures -/

inductive Obs where
  | event (e : Event)
  /-- the payload of a DATA frame of a request stream -/
  | dataReceived (streamId : Nat) (data : Bytes)
  /-- a field section that decodes; the flag is that of trailers -/
  | fieldSection (streamId : Nat) (headers : List Header) (isTrailer : Bool)
  /-- a request that asks for a session -/
  | wtConnect (streamId : Nat)
  /-- a field section that does not decode -/
  | undecodable (streamId : Nat) (e : QpackError)
  /-- the end of a session, with the streams that it still buffered -/
  | sessionEnded (sessionId : Nat) (buffered : List Nat)
  deriving DecidableEq

abbrev Obs.wt (e : WebTransportEvent) : Obs := .event (.webTransport e)

def Obs.toEvent? : Obs → Option Event
  | event e => some e
  | _ => none

/-- The events among the observations, in their order. -/
def eventsOf (out : List Obs) : List Event := out.filterMap Obs.toEvent?

abbrev WtProc (α : Type) : Type := Proc Error Obs WtState α

abbrev CoreProc (α : Type) : Type := Proc Error Obs Core α

/-- A procedure on the WebTransport tables as one on the connection. -/
def onWt {α : Type} (x : WtProc α) : CoreProc α :=
  Proc.zoom Core.wt (fun wt c => { c with wt }) x

/-! ## New connections -/

/-- The settings given to a new connection over the default ones. -/
def mergeSettings (settings : Settings) : Except VarIntError Settings :=
  (Settings.fromLimits .default).map fun s => {
    qpackMaxTableCapacity := settings.qpackMaxTableCapacity <|> s.qpackMaxTableCapacity
    maxFieldSectionSize := settings.maxFieldSectionSize <|> s.maxFieldSectionSize
    qpackBlockedStreams := settings.qpackBlockedStreams <|> s.qpackBlockedStreams
    enableConnectProtocol := settings.enableConnectProtocol <|> s.enableConnectProtocol
    h3Datagram := settings.h3Datagram <|> s.h3Datagram
    wtSettings := settings.wtSettings <|> s.wtSettings }

/-- The value of an optional setting. -/
def settingOr (v : Option VarInt) (d : Nat) : Nat := (v.map VarInt.get).getD d

def limitsOf (s : Settings) : Limits where
  maxFieldSectionSize := settingOr s.maxFieldSectionSize Limits.default.maxFieldSectionSize
  qpackMaxTableCapacity := settingOr s.qpackMaxTableCapacity Limits.default.qpackMaxTableCapacity
  qpackBlockedStreams := settingOr s.qpackBlockedStreams Limits.default.qpackBlockedStreams
  maxReceivedBodySize := Limits.default.maxReceivedBodySize

namespace QpackState

def new (localSettings : Settings) : QpackState where
  encoder := .new
  dynamicDecoder :=
    let d := Qpack.DynamicDecoder.new.setMaxTableCapacity
      (settingOr localSettings.qpackMaxTableCapacity 0)
    match localSettings.maxFieldSectionSize with
    | some size => d.setMaxFieldSectionSize size.get
    | none => d
  encoderStream := .new
  encoderStreamId := none
  decoderStream := .new
  decoderStreamId := none
  encoderStreamRecv := Qpack.EncoderStreamReceiver.new.setMaxTableCapacity
    (settingOr localSettings.qpackMaxTableCapacity 0)
  peerEncoderStreamId := none
  decoderStreamRecv := .new
  peerDecoderStreamId := none
  deferredEncoderSetCapacity := none
  deferredSectionAcks := []
  deferredStreamCancellations := []

end QpackState

def WtState.new : WtState where
  wtUniStreams := ∅
  pendingWtUniStreams := ∅
  wtBidiStreams := ∅
  pendingWtBidiStreams := ∅
  pendingBidiDispatch := ∅
  wtSessions := ∅
  closedWtSessions := []
  wtTransportVerified := false
  previousWtSettings := none
  wtResetStreamAtSupported := false
  deferredWtConnects := ∅
  pendingWtBidiPreNegotiation := ∅
  ignoredPreNegotiationWtBidi := []

/-- The state of a new connection; the local settings are already merged. -/
def Core.new (cfg : Config) : Except Error Core := do
  let controlSend ← ControlStreamSend.new.sendSettings cfg.localSettings
  return {
    peerSettings := none
    limits := limitsOf cfg.localSettings
    controlSend
    controlRecv := .new
    streams := ∅
    nextStreamId := match cfg.role with | .client => 0 | .server => 1
    qpack := .new cfg.localSettings
    peerGoawayLastId := none
    lastSentGoawayId := none
    maxPushId := none
    blockedByRicnt := .empty
    ignoredUniStreams := []
    pendingUniStreams := ∅
    wt := .new }

def Config.new (role : Role) (settings : Settings) : Except Error Config :=
  match mergeSettings settings with
  | .ok localSettings => .ok ⟨role, localSettings⟩
  | .error _ => .error .panicked

def Connection.new (cfg : Config) : Except Error Connection :=
  (Core.new cfg).map fun core => ⟨core, [], none⟩

end Http3
