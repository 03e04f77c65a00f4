import Http3.Settings

/-!
# Error codes and errors

`Error` is what the public functions return; the other types are the errors of the layers below
that it wraps.
-/

namespace Http3

inductive ErrorCode where
  | noError
  | generalProtocolError
  | internalError
  | streamCreationError
  | closedCriticalStream
  | frameUnexpected
  | frameError
  | excessiveLoad
  | idError
  | settingsError
  | missingSettings
  | requestRejected
  | requestCancelled
  | requestIncomplete
  | messageError
  | qpackDecompressionFailed
  | qpackEncoderStreamError
  | qpackDecoderStreamError
  | h3DatagramError
  deriving DecidableEq, Repr

namespace ErrorCode

def code : ErrorCode → Nat
  | noError => 0x100
  | generalProtocolError => 0x101
  | internalError => 0x102
  | streamCreationError => 0x103
  | closedCriticalStream => 0x104
  | frameUnexpected => 0x105
  | frameError => 0x106
  | excessiveLoad => 0x107
  | idError => 0x108
  | settingsError => 0x109
  | missingSettings => 0x10a
  | requestRejected => 0x10b
  | requestCancelled => 0x10c
  | requestIncomplete => 0x10d
  | messageError => 0x10e
  | qpackDecompressionFailed => 0x200
  | qpackEncoderStreamError => 0x201
  | qpackDecoderStreamError => 0x202
  | h3DatagramError => 0x33

end ErrorCode

/-- The error codes that WebTransport adds. -/
inductive WtErrorCode where
  | bufferedStreamRejected
  | sessionGone
  | flowControlError
  | alpnError
  | requirementsNotMet
  deriving DecidableEq, Repr

def WtErrorCode.code : WtErrorCode → Nat
  | bufferedStreamRejected => 0x3994bd84
  | sessionGone => 0x170d7b68
  | flowControlError => 0x045d4487
  | alpnError => 0x0817b3dd
  | requirementsNotMet => 0x212c0d48

inductive FrameDecodeError where
  | bufferTooShort
  | invalidLength
  | invalidSetting (e : SettingError)
  | http2Frame (t : VarInt)
  | serverPushNotSupported (t : VarInt)
  deriving DecidableEq

inductive QpackError where
  | bufferTooShort
  | invalidIndex (index : Nat)
  | invalidHuffman
  | decodeFailed
  | dynamicTableDisabled
  | capacityExceeded
  deriving DecidableEq, Repr

inductive WtSetupError where
  | peerSettingsNotReceived
  | webTransportNotEnabled
  | unknownDraftVersion
  | enableConnectProtocolMissing
  | h3DatagramNotEnabled
  | transportNotVerified
  | resetStreamAtNotSupported
  | protocolMismatch
  deriving DecidableEq, Repr

/-- `panicked` stands for an `expect` that does not hold; the other cases are the source's. -/
inductive Error where
  | connectionError (code : ErrorCode)
  | streamError (code : ErrorCode)
  | streamNotFound (streamId : Nat)
  | streamClosed (streamId : Nat)
  | frameDecode (e : FrameDecodeError)
  | qpack (e : QpackError)
  | wtSessionDraining (sessionId : Nat)
  | wtSetup (e : WtSetupError)
  | panicked
  deriving DecidableEq

/-- The code with which the connection has to be closed, when the error closes it. -/
def Error.connectionCode : Error → Option ErrorCode
  | connectionError code => some code
  | _ => none

end Http3
