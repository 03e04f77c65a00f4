import Http3.Settings
import Http3.WebTransport.Capsule

/-!
# Events

What a connection reports to the application.
-/

namespace Http3

structure WtStreamReset where
  streamId : Nat
  reliableSize : Nat
  deriving DecidableEq

inductive WebTransportEvent where
  | bidiStreamOpen (streamId sessionId : Nat)
  | bidiStreamData (streamId : Nat) (data : Bytes)
  | bidiStreamEnd (streamId : Nat)
  | uniStreamOpen (streamId sessionId : Nat)
  | uniStreamData (streamId : Nat) (data : Bytes)
  | uniStreamEnd (streamId : Nat)
  | sessionClosed (sessionId : Nat) (resetStreams : List WtStreamReset) (errorCode : Nat)
      (closeErrorCode : Nat) (closeMessage : Bytes)
  | sessionEstablished (sessionId : Nat) (flowControlEnabled : Bool)
  | sessionDraining (sessionId : Nat)
  | capsule (sessionId : Nat) (capsule : Capsule)
  | datagram (sessionId : Nat) (payload : Bytes)
  | streamReset (sessionId streamId errorCode finalSize : Nat)
  | streamStopSending (sessionId streamId errorCode : Nat)
  | bufferedStreamRejected (streamId errorCode : Nat)
  deriving DecidableEq

def WebTransportEvent.streamId : WebTransportEvent → Option Nat
  | bidiStreamOpen streamId _ | bidiStreamData streamId _ | bidiStreamEnd streamId
  | uniStreamOpen streamId _ | uniStreamData streamId _ | uniStreamEnd streamId
  | streamReset _ streamId _ _ | streamStopSending _ streamId _
  | bufferedStreamRejected streamId _ => some streamId
  | sessionClosed sessionId _ _ _ _ | sessionEstablished sessionId _ | sessionDraining sessionId
  | capsule sessionId _ | datagram sessionId _ => some sessionId

inductive Event where
  | settingsReceived (settings : Settings) (wtSettings : Option WtSettings)
  | headersBegin (streamId : Nat)
  | header (streamId : Nat) (name value : Bytes)
  | headersEnd (streamId : Nat)
  | data (streamId : Nat) (data : Bytes)
  | streamEnd (streamId : Nat)
  | streamReset (streamId errorCode : Nat)
  | stopSending (streamId errorCode : Nat)
  | goawayReceived (id : VarInt)
  | webTransport (e : WebTransportEvent)
  deriving DecidableEq

def Event.streamId : Event → Option Nat
  | headersBegin streamId | header streamId _ _ | headersEnd streamId | data streamId _
  | streamEnd streamId | streamReset streamId _ | stopSending streamId _ => some streamId
  | webTransport e => e.streamId
  | settingsReceived _ _ | goawayReceived _ => none

end Http3
