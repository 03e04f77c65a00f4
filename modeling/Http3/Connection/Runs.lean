import Http3.Connection.Api

/-!
# Properties of runs

`EveryStep` says that a property of one step holds all along a run. An invariant that the good
steps keep turns a condition on every step into a property of every step.

At the end stands a sample: two ends that negotiate WebTransport, for runs on concrete input.
-/

namespace Http3

namespace Connection

/-- `P` holds of every step of a run, as a property of the connection before it and the input. -/
def EveryStep (cfg : Config) (P : Connection → Input → Prop) (c : Connection) : List Input → Prop
  | [] => True
  | i :: is => P c i ∧ EveryStep cfg P (c.feed cfg i).conn is

instance EveryStep.decidable (cfg : Config) (P : Connection → Input → Prop)
    [∀ c i, Decidable (P c i)] : ∀ c is, Decidable (EveryStep cfg P c is)
  | _, [] => .isTrue trivial
  | c, i :: is =>
    have : Decidable (EveryStep cfg P (c.feed cfg i).conn is) := EveryStep.decidable cfg P _ is
    inferInstanceAs (Decidable (P c i ∧ EveryStep cfg P (c.feed cfg i).conn is))

section Rules

variable {cfg : Config} {P Q : Connection → Input → Prop} {I : Connection → Prop}

/-- Steps that keep the invariant, one after another. -/
theorem EveryStep.inv (hstep : ∀ c i, I c → P c i → I (c.feed cfg i).conn)
    {c : Connection} (hc : I c) {is : List Input} (h : EveryStep cfg P c is) :
    I (after cfg c is) := by
  induction is generalizing c with
  | nil => exact hc
  | cons i is ih => exact ih (hstep c i hc h.1) h.2

/-- What a step does from a connection that satisfies the invariant. -/
theorem EveryStep.mono (hstep : ∀ c i, I c → P c i → I (c.feed cfg i).conn)
    (hPQ : ∀ c i, I c → P c i → Q c i) {c : Connection} (hc : I c) {is : List Input}
    (h : EveryStep cfg P c is) : EveryStep cfg Q c is := by
  induction is generalizing c with
  | nil => trivial
  | cons i is ih => exact ⟨hPQ c i hc h.1, ih (hstep c i hc h.1) h.2⟩

theorem EveryStep.imp (hPQ : ∀ c i, P c i → Q c i) {c : Connection} {is : List Input}
    (h : EveryStep cfg P c is) : EveryStep cfg Q c is :=
  EveryStep.mono (I := fun _ => True) (fun _ _ _ _ => trivial) (fun c i _ => hPQ c i) trivial h

theorem EveryStep.append {c : Connection} {is js : List Input} :
    EveryStep cfg P c (is ++ js) ↔ EveryStep cfg P c is ∧ EveryStep cfg P (after cfg c is) js := by
  induction is generalizing c with
  | nil => exact ⟨fun h => ⟨trivial, h⟩, fun h => h.2⟩
  | cons i is ih => simp only [List.cons_append, EveryStep, after, ih, and_assoc]

/-- The last step of a run. -/
theorem EveryStep.last {c : Connection} {is : List Input} {i : Input}
    (h : EveryStep cfg P c (is ++ [i])) : P (after cfg c is) i := (EveryStep.append.mp h).2.1

end Rules

end Connection

/-! ## A sample -/

/-- A call that walks the tables in the order of insertion. -/
def Call.listed (call : Call) : Input := ⟨.asListed, call⟩

namespace Sample

open Connection

/-- Flow control with room for ten streams and a thousand bytes. -/
theorem ten_le_max : 10 ≤ 2 ^ 62 - 1 := by decide

theorem thousand_le_max : 1000 ≤ 2 ^ 62 - 1 := by decide

def wtSettings : WtSettings :=
  { WtSettings.new with
    wtEnabled := .fromStatic 1 VarInt.one_le_max
    wtInitialMaxStreamsUni := .fromStatic 10 ten_le_max
    wtInitialMaxStreamsBidi := .fromStatic 10 ten_le_max
    wtInitialMaxData := .fromStatic 1000 thousand_le_max }

def settings : Settings where
  qpackMaxTableCapacity := some (.fromStatic 4096)
  maxFieldSectionSize := some (.fromStatic 16384)
  qpackBlockedStreams := some (.fromStatic 100)
  enableConnectProtocol := some true
  h3Datagram := some true
  wtSettings := some wtSettings

def server : Config := ⟨.server, settings⟩

def client : Config := ⟨.client, settings⟩

/-- The control stream of the other end: its type, then SETTINGS. -/
def controlBytes : Bytes :=
  match ControlStreamSend.new.sendSettings settings with
  | .ok control => control.sendBuf.data
  | .error _ => []

/-- The calls after which a server has negotiated WebTransport. -/
def serverSetup : List Call :=
  [.setWebtransportTransportVerified true true, .setControlStreamId 3,
    .feedStream 2 controlBytes false]

def header (name value : String) : Header := ⟨Bytes.ofString name, Bytes.ofString value, false⟩

def getHeaders : List Header :=
  [header ":method" "GET", header ":scheme" "https", header ":authority" "a", header ":path" "/"]

def connectHeaders : List Header := [header ":method" "CONNECT", header ":authority" "a:80"]

def webTransportHeaders : List Header :=
  [header ":method" "CONNECT", header ":protocol" "webtransport-h3", header ":scheme" "https",
    header ":authority" "a", header ":path" "/"]

def okHeaders : List Header := [header ":status" "200"]

/-- The frame of a field section that does not use the dynamic table. -/
def headersBytes (headers : List Header) : Bytes :=
  (encodeFrame (.headers (Qpack.DynamicEncoder.new.encodeStaticOnly headers))).getD []

/-- Does a new connection satisfy `p` after the calls? -/
def holdsAfter (cfg : Config) (calls : List Call) (p : Connection → Bool) : Bool :=
  match Connection.new cfg with
  | .ok c => p (after cfg c (calls.map Call.listed))
  | .error _ => false

/-- The results of the calls on a new connection. -/
def results (cfg : Config) (calls : List Call) : List (Except Error Response) :=
  match Connection.new cfg with
  | .ok c => (c.steps cfg (calls.map Call.listed)).map Step.result
  | .error _ => []

example : Config.new .server settings = .ok server := by decide +kernel

example : results server serverSetup = [.ok .done, .ok .done, .ok .done] := by decide +kernel

theorem of_holdsAfter (cfg : Config) (calls : List Call) {p : Connection → Bool}
    (h : holdsAfter cfg calls p = true) :
    ∃ c, Connection.new cfg = .ok c ∧ p (after cfg c (calls.map Call.listed)) = true := by
  unfold holdsAfter at h
  split at h
  · exact ⟨_, ‹_›, h⟩
  · cases h

end Sample

end Http3
