import Http3.Error

/-!
# Stream kinds and stream buffers

The source keeps a buffer as a vector and an offset of what was taken from it; here a buffer is
what is left. Taking more than that is the one way in which the vector's `drain` panics.
-/

namespace Http3

inductive Role where
  | client
  | server
  deriving DecidableEq, Repr

inductive UniStreamType where
  | control
  | push
  | qpackEncoder
  | qpackDecoder
  | webTransport
  deriving DecidableEq, Repr

namespace UniStreamType

def fromType : Nat → Option UniStreamType
  | 0x00 => some control
  | 0x01 => some push
  | 0x02 => some qpackEncoder
  | 0x03 => some qpackDecoder
  | 0x54 => some webTransport
  | _ => none

def isReserved (t : Nat) : Bool := decide (0x21 ≤ t) && (t - 0x21) % 0x1f == 0

end UniStreamType

inductive StreamKind where
  | clientBidi
  | serverBidi
  | clientUni
  | serverUni
  deriving DecidableEq, Repr

namespace StreamKind

/-- The two low bits of a stream id. -/
def fromStreamId (streamId : Nat) : StreamKind :=
  match streamId % 4 with
  | 0 => clientBidi
  | 1 => serverBidi
  | 2 => clientUni
  | _ => serverUni

def isBidirectional : StreamKind → Bool
  | clientBidi | serverBidi => true
  | clientUni | serverUni => false

def isUnidirectional : StreamKind → Bool
  | clientUni | serverUni => true
  | clientBidi | serverBidi => false

def isClientInitiated : StreamKind → Bool
  | clientBidi | clientUni => true
  | serverBidi | serverUni => false

def isServerInitiated : StreamKind → Bool
  | serverBidi | serverUni => true
  | clientBidi | clientUni => false

end StreamKind

inductive StreamState where
  | open
  | localClosed
  | remoteClosed
  | closed
  | reset
  deriving DecidableEq, Repr

namespace StreamState

def closeLocal : StreamState → StreamState
  | .open => .localClosed
  | .remoteClosed => .closed
  | other => other

def closeRemote : StreamState → StreamState
  | .open => .remoteClosed
  | .localClosed => .closed
  | other => other

def isReset : StreamState → Bool
  | .reset => true
  | _ => false

def canSend : StreamState → Bool
  | .open | .remoteClosed => true
  | _ => false

end StreamState

/-! ## Send buffer -/

structure SendBuffer where
  /-- queued and not taken yet -/
  data : Bytes
  fin : Bool
  finSent : Bool
  deriving DecidableEq

namespace SendBuffer

def new : SendBuffer := ⟨[], false, false⟩

def push (b : SendBuffer) (data : Bytes) : SendBuffer := { b with data := b.data ++ data }

def setFin (b : SendBuffer) : SendBuffer := { b with fin := true }

def isFin (b : SendBuffer) : Bool := b.fin

def peek (b : SendBuffer) : Bytes := b.data

/-- `none` where `drain` panics. -/
def consume (b : SendBuffer) (len : Nat) : Option SendBuffer :=
  if len ≤ b.data.length then some { b with data := b.data.drop len } else none

def discard (_ : SendBuffer) : SendBuffer := new

def hasPending (b : SendBuffer) : Bool := !b.data.isEmpty || (b.fin && !b.finSent)

def isDataConsumed (b : SendBuffer) : Bool := b.data.isEmpty

def markFinSent (b : SendBuffer) : SendBuffer := { b with finSent := true }

def isFinSent (b : SendBuffer) : Bool := b.finSent

end SendBuffer

/-! ## Receive buffer -/

structure RecvBuffer where
  data : Bytes
  fin : Bool
  deriving DecidableEq

namespace RecvBuffer

def new : RecvBuffer := ⟨[], false⟩

def push (b : RecvBuffer) (data : Bytes) : RecvBuffer := { b with data := b.data ++ data }

def setFin (b : RecvBuffer) : RecvBuffer := { b with fin := true }

def isFin (b : RecvBuffer) : Bool := b.fin

def peek (b : RecvBuffer) : Bytes := b.data

/-- The decoders never report more than they were shown. -/
def consume (b : RecvBuffer) (len : Nat) : RecvBuffer := { b with data := b.data.drop len }

end RecvBuffer

end Http3
