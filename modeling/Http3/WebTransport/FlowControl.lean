import Http3.Settings
import Http3.WebTransport.Capsule

/-!
# Receive flow control

Windows on the streams a peer opens and on the data it sends in one session. The counters are
64-bit and saturate.
-/

namespace Http3

def MAX_BUFFERED_STREAMS : Nat := 100

def MAX_BUFFERED_DATAGRAMS : Nat := 100

/-- Addition of two 64-bit counters that stops at the largest one. -/
def saturatingAdd (a b : Nat) : Nat := min (a + b) (2 ^ 64 - 1)

structure DirectionalStreamFlowControl where
  concurrentLimit : Nat
  advertisedMax : Nat
  totalClosed : Nat
  totalReceived : Nat
  deriving DecidableEq, Repr

namespace DirectionalStreamFlowControl

def new (concurrentLimit : Nat) : DirectionalStreamFlowControl :=
  ⟨concurrentLimit, concurrentLimit, 0, 0⟩

def checkReceived (fc : DirectionalStreamFlowControl) : Bool :=
  fc.totalReceived < fc.advertisedMax

def onStreamReceived (fc : DirectionalStreamFlowControl) : DirectionalStreamFlowControl :=
  { fc with totalReceived := saturatingAdd fc.totalReceived 1 }

/-- The new maximum to advertise, when the window has shrunk to half. -/
def onStreamClosed (fc : DirectionalStreamFlowControl) :
    Option Nat × DirectionalStreamFlowControl :=
  let fc := { fc with totalClosed := saturatingAdd fc.totalClosed 1 }
  if fc.concurrentLimit = 0 then (none, fc)
  else if fc.advertisedMax - fc.totalReceived ≤ fc.concurrentLimit / 2 then
    let newMax := min (saturatingAdd fc.totalClosed fc.concurrentLimit) MAX_STREAMS_LIMIT
    if fc.advertisedMax < newMax then (some newMax, { fc with advertisedMax := newMax })
    else (none, fc)
  else (none, fc)

end DirectionalStreamFlowControl

structure DataFlowControl where
  initialWindow : Nat
  advertisedMax : Nat
  totalConsumed : Nat
  totalReceived : Nat
  deriving DecidableEq, Repr

namespace DataFlowControl

def new (initialWindow : Nat) : DataFlowControl := ⟨initialWindow, initialWindow, 0, 0⟩

def checkReceived (fc : DataFlowControl) (bytes : Nat) : Bool :=
  bytes ≤ fc.advertisedMax - fc.totalReceived

def onDataReceived (fc : DataFlowControl) (bytes : Nat) : DataFlowControl :=
  { fc with totalReceived := saturatingAdd fc.totalReceived bytes }

def onDataConsumed (fc : DataFlowControl) (bytes : Nat) : Option Nat × DataFlowControl :=
  let fc := { fc with totalConsumed := saturatingAdd fc.totalConsumed bytes }
  if fc.initialWindow = 0 then (none, fc)
  else if fc.advertisedMax - fc.totalReceived ≤ fc.initialWindow / 2 then
    let newMax := saturatingAdd fc.totalConsumed fc.initialWindow
    if fc.advertisedMax < newMax then (some newMax, { fc with advertisedMax := newMax })
    else (none, fc)
  else (none, fc)

end DataFlowControl

end Http3
