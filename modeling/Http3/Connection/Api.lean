import Http3.Connection.Send

/-!
# Calls and runs

A call runs a procedure on the core and appends the events it reports to the queue. A connection
error that an entry point records is returned by every later call that looks at it. A run is a
list of calls, each with the order in which it walks hash tables.
-/

namespace Http3

open Connection

inductive Call where
  | setControlStreamId (streamId : Nat)
  | setEncoderStreamId (streamId : Nat)
  | setDecoderStreamId (streamId : Nat)
  | initH3Streams (controlStreamId encoderStreamId decoderStreamId : Nat)
  | setMaxReceivedBodySize (size : Nat)
  | setPreviousWtSettings (settings : WtSettings)
  | setWebtransportTransportVerified (maxDatagramFrameSizeNonzero resetStreamAtSupported : Bool)
  | feedStream (streamId : Nat) (data : Bytes) (fin : Bool)
  | feedDatagram (data : Bytes)
  | streamReset (streamId errorCode finalSize : Nat)
  | stopSending (streamId errorCode : Nat)
  | pollEvent
  | drainEvents
  | getStreamData (streamId : Nat)
  | takeStreamData (streamId : Nat)
  | consumeStreamData (streamId len : Nat)
  | sendRequest (headers : List Header) (fin : Bool)
  | sendResponse (streamId : Nat) (headers : List Header) (fin : Bool)
  | sendBody (streamId : Nat) (data : Bytes) (fin : Bool)
  | sendGoaway (id : VarInt)
  | registerLocalWtStream (sessionId streamId : Nat)
  | wtDataConsumed (sessionId bytes : Nat)
  | takeWtPendingCapsules (sessionId : Nat)
  | sendDatagram (sessionId : Nat) (payload : Bytes)
  deriving DecidableEq

/-- What a call returns when it does not fail. -/
inductive Response where
  | done
  | initData (d : H3InitData)
  | event (e : Option Event)
  | events (es : List Event)
  | streamData (d : Option (Bytes × Bool))
  | streamId (id : Nat)
  | capsules (cs : List Capsule)
  | datagram (bytes : Bytes)
  deriving DecidableEq

/-- The result of a call, the connection after it, and what was reported meanwhile. -/
structure Step where
  result : Except Error Response
  conn : Connection
  obs : List Obs

/-- What a relation says about the core, read off a step. -/
def Step.Stays (R : Proc.Flow Obs Core) (c : Connection) (s : Step) : Prop :=
  R c.core s.obs (Proc.succeeded s.result) s.conn.core

namespace Connection

/-! ## One call -/

/-- Run a procedure; its events go to the end of the queue. -/
def exec (c : Connection) (x : CoreProc Response) : Step :=
  match x c.core with
  | ⟨val, core, out⟩ => ⟨val, { c with core, events := c.events ++ eventsOf out }, out⟩

/-- Run a procedure unless an error was recorded. -/
def guarded (c : Connection) (x : CoreProc Response) : Step :=
  match c.error with
  | some e => ⟨.error e, c, []⟩
  | none => c.exec x

/-- Record a connection error. -/
def remember (s : Step) : Step :=
  match s.result with
  | .error (.connectionError code) =>
    { s with conn := { s.conn with error := some (.connectionError code) } }
  | _ => s

/-- Recording an error is the only thing it does. -/
theorem remember_run (st : Step) :
    (remember st).result = st.result ∧ (remember st).conn.core = st.conn.core := by
  unfold remember
  split <;> exact ⟨rfl, rfl⟩

/-- A procedure without a result. -/
def unit (x : CoreProc Unit) : CoreProc Response := x >>= fun _ => Proc.ret .done

/-- Hand the oldest event out. -/
def popEvent (s : Step) : Step :=
  match s.result with
  | .ok _ =>
    { s with
      result := .ok (.event s.conn.events.head?)
      conn := { s.conn with events := s.conn.events.tail } }
  | .error _ => s

def takeEvents (s : Step) : Step :=
  match s.result with
  | .ok _ => { s with result := .ok (.events s.conn.events), conn := { s.conn with events := [] } }
  | .error _ => s

/-- What a call does to the core. -/
def body (env : Env) : Call → CoreProc Response
  | .setControlStreamId streamId => unit (setControlStreamId env streamId)
  | .setEncoderStreamId streamId => unit (setEncoderStreamId env streamId)
  | .setDecoderStreamId streamId => unit (setDecoderStreamId env streamId)
  | .initH3Streams control encoder decoder =>
    initH3Streams env control encoder decoder >>= fun d => Proc.ret (.initData d)
  | .setMaxReceivedBodySize size => unit (Proc.modify (setMaxReceivedBodySize size))
  | .setPreviousWtSettings settings =>
    unit (onWt (Proc.modify fun w => { w with previousWtSettings := some settings }))
  | .setWebtransportTransportVerified datagrams resetStreamAt =>
    unit (onWt (setWebtransportTransportVerified datagrams resetStreamAt))
  | .feedStream streamId data fin => unit (feedStreamInner env streamId data fin)
  | .feedDatagram data => unit (feedDatagramInner env data)
  | .streamReset streamId errorCode finalSize =>
    unit (streamResetInner env streamId errorCode finalSize)
  | .stopSending streamId errorCode => unit (stopSendingInner env streamId errorCode)
  | .pollEvent | .drainEvents => unit (retryBlockedStreams env)
  | .getStreamData streamId => getStreamData env streamId >>= fun d => Proc.ret (.streamData d)
  | .takeStreamData streamId => takeStreamData env streamId >>= fun d => Proc.ret (.streamData d)
  | .consumeStreamData streamId len => unit (consumeStreamData streamId len)
  | .sendRequest headers fin =>
    sendRequestInner env headers fin >>= fun id => Proc.ret (.streamId id)
  | .sendResponse streamId headers fin => unit (sendResponseInner env streamId headers fin)
  | .sendBody streamId data fin => unit (sendBodyInner streamId data fin)
  | .sendGoaway id => unit (sendGoawayInner env id)
  | .registerLocalWtStream sessionId streamId =>
    unit (registerLocalWtStream env sessionId streamId)
  | .wtDataConsumed sessionId bytes => unit (onWt (Proc.modify (wtDataConsumed sessionId bytes)))
  | .takeWtPendingCapsules sessionId =>
    onWt (takeWtPendingCapsules sessionId) >>= fun cs => Proc.ret (.capsules cs)
  | .sendDatagram sessionId payload =>
    Proc.get >>= fun core => Proc.ofExcept ((sendDatagram env core sessionId payload).map .datagram)

/-- Which calls look at the recorded error, and which record one. -/
def step (env : Env) (c : Connection) (call : Call) : Step :=
  match call with
  | .feedStream _ _ _ | .streamReset _ _ _ | .stopSending _ _ | .sendBody _ _ _ | .sendGoaway _ =>
    remember (c.guarded (body env call))
  | .pollEvent => remember (popEvent (c.guarded (body env call)))
  | .drainEvents => remember (takeEvents (c.guarded (body env call)))
  | .feedDatagram _ | .sendRequest _ _ | .sendResponse _ _ _ => c.guarded (body env call)
  | _ => c.exec (body env call)

/-! ## A call and its body -/

section Body

variable {R : Proc.Flow Obs Core} {c : Connection} {x : CoreProc Response}

theorem exec_stays (h : Proc.KeepsAt R c.core x) : (c.exec x).Stays R c := h

theorem guarded_stays (hR : Proc.Composes R) (h : Proc.KeepsAt R c.core x) :
    (c.guarded x).Stays R c := by
  unfold guarded
  split
  · exact hR.refl c.core false
  · exact exec_stays h

theorem remember_stays {s : Step} (h : s.Stays R c) : (remember s).Stays R c := by
  unfold remember
  split <;> exact h

theorem popEvent_stays {s : Step} (h : s.Stays R c) : (popEvent s).Stays R c := by
  rcases s with ⟨r, d, o⟩
  cases r <;> exact h

theorem takeEvents_stays {s : Step} (h : s.Stays R c) : (takeEvents s).Stays R c := by
  rcases s with ⟨r, d, o⟩
  cases r <;> exact h

/-- A call stays inside a relation that its body keeps. -/
theorem step_stays (hR : Proc.Composes R) {env : Env} {call : Call}
    (h : Proc.KeepsAt R c.core (body env call)) : (c.step env call).Stays R c := by
  cases call with
  | feedStream | streamReset | stopSending | sendBody | sendGoaway =>
    exact remember_stays (guarded_stays hR h)
  | pollEvent => exact remember_stays (popEvent_stays (guarded_stays hR h))
  | drainEvents => exact remember_stays (takeEvents_stays (guarded_stays hR h))
  | feedDatagram | sendRequest | sendResponse => exact guarded_stays hR h
  | _ => exact exec_stays h

end Body

end Connection

/-! ## Runs -/

/-- A call together with the order of the hash tables during it. -/
structure Input where
  order : HashOrder
  call : Call

def Config.env (cfg : Config) (order : HashOrder) : Env := { cfg with order }

namespace Connection

/-- One input on a connection. -/
def feed (cfg : Config) (c : Connection) (i : Input) : Step := c.step (cfg.env i.order) i.call

/-- The steps of a list of inputs, in order. -/
def steps (cfg : Config) (c : Connection) : List Input → List Step
  | [] => []
  | i :: is => c.feed cfg i :: steps cfg (c.feed cfg i).conn is

/-- The connection after a list of inputs. -/
def after (cfg : Config) (c : Connection) : List Input → Connection
  | [] => c
  | i :: is => after cfg (c.feed cfg i).conn is

/-- Everything a list of inputs makes the connection report. -/
def trace (cfg : Config) (c : Connection) (is : List Input) : List Obs :=
  (c.steps cfg is).flatMap Step.obs

/-- The connections a new one can become. -/
def Reachable (cfg : Config) (c : Connection) : Prop :=
  ∃ c₀ is, Connection.new cfg = .ok c₀ ∧ c = after cfg c₀ is

section Runs

variable (cfg : Config) (c : Connection) (is js : List Input)

theorem after_append : after cfg c (is ++ js) = after cfg (after cfg c is) js := by
  induction is generalizing c with
  | nil => rfl
  | cons i is ih => exact ih _

end Runs

/-- What holds of a new connection and is kept by every call holds of every reachable one. -/
theorem Reachable.rec_on {cfg : Config} {P : Connection → Prop}
    (hnew : ∀ c, Connection.new cfg = .ok c → P c)
    (hstep : ∀ c i, P c → P (c.feed cfg i).conn) {c : Connection} (hc : Reachable cfg c) : P c := by
  obtain ⟨c₀, is, h₀, rfl⟩ := hc
  have hP := hnew c₀ h₀
  clear h₀
  induction is generalizing c₀ with
  | nil => exact hP
  | cons i is ih => exact ih _ (hstep c₀ i hP)

end Connection

end Http3
