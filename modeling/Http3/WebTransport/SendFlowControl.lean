import Http3.Settings
import Http3.WebTransport.FlowControl
import Http3.WebTransport.Session

/-!
# Send flow control

What the applications keep beside a connection: how many streams were opened and how many bytes were
sent in one session, and the limits that the peer set with SETTINGS and raised with capsules. The
counters are 64-bit and saturate.
-/

namespace Http3

inductive CapsuleValidationError where
  | maxStreamsExceedsLimit
  | maxStreamsDecreased
  | maxDataExceedsLimit
  | maxDataDecreased
  deriving DecidableEq, Repr

def Capsule.validateMaxStreams (maximum currentMax : Nat) : Except CapsuleValidationError Unit :=
  if MAX_STREAMS_LIMIT < maximum then .error .maxStreamsExceedsLimit
  else if maximum ≤ currentMax then .error .maxStreamsDecreased
  else .ok ()

def Capsule.validateMaxData (maximum currentMax : Nat) : Except CapsuleValidationError Unit :=
  if 2 ^ 62 - 1 < maximum then .error .maxDataExceedsLimit
  else if maximum ≤ currentMax then .error .maxDataDecreased
  else .ok ()

/-- The limits that the peer's SETTINGS set. -/
def peerWtSendLimits (peerSettings : Option Settings) : WebTransport.FlowControlLimits :=
  match peerSettings.bind Settings.wtSettings with
  | some wt => ⟨wt.wtInitialMaxStreamsUni.get, wt.wtInitialMaxStreamsBidi.get,
      wt.wtInitialMaxData.get⟩
  | none => .new

/-- What can be used up. -/
inductive FlowControlResource where
  | bidirectionalStream
  | unidirectionalStream
  | data
  deriving DecidableEq, Repr

namespace FlowControlResource

def ofStream (bidirectional : Bool) : FlowControlResource :=
  if bidirectional then .bidirectionalStream else .unidirectionalStream

/-- The largest limit that may be announced. -/
def cap : FlowControlResource → Nat
  | bidirectionalStream | unidirectionalStream => MAX_STREAMS_LIMIT
  | data => 2 ^ 62 - 1

end FlowControlResource

structure WtSendFlowControl where
  enabled : Bool
  limits : WebTransport.FlowControlLimits
  openedBidi : Nat
  openedUni : Nat
  dataSent : Nat
  deriving DecidableEq, Repr

namespace WtSendFlowControl

def new (enabled : Bool) (limits : WebTransport.FlowControlLimits) : WtSendFlowControl :=
  ⟨enabled, limits, 0, 0, 0⟩

/-! ## The fields of one resource -/

def used (fc : WtSendFlowControl) : FlowControlResource → Nat
  | .bidirectionalStream => fc.openedBidi
  | .unidirectionalStream => fc.openedUni
  | .data => fc.dataSent

def limit (fc : WtSendFlowControl) : FlowControlResource → Nat
  | .bidirectionalStream => fc.limits.maxStreamsBidi
  | .unidirectionalStream => fc.limits.maxStreamsUni
  | .data => fc.limits.maxData

/-- Count `n` more. -/
def count (fc : WtSendFlowControl) (r : FlowControlResource) (n : Nat) : WtSendFlowControl :=
  match r with
  | .bidirectionalStream => { fc with openedBidi := saturatingAdd fc.openedBidi n }
  | .unidirectionalStream => { fc with openedUni := saturatingAdd fc.openedUni n }
  | .data => { fc with dataSent := saturatingAdd fc.dataSent n }

def setLimit (fc : WtSendFlowControl) (r : FlowControlResource) (m : Nat) : WtSendFlowControl :=
  match r with
  | .bidirectionalStream => { fc with limits := { fc.limits with maxStreamsBidi := m } }
  | .unidirectionalStream => { fc with limits := { fc.limits with maxStreamsUni := m } }
  | .data => { fc with limits := { fc.limits with maxData := m } }

/-! ## Operations -/

/-- A refusal names what is used up, and counts nothing. -/
def tryOpenStream (fc : WtSendFlowControl) (bidirectional : Bool) :
    Except FlowControlResource WtSendFlowControl :=
  let resource := FlowControlResource.ofStream bidirectional
  if !fc.enabled then .ok (fc.count resource 1)
  else if fc.limit resource ≤ fc.used resource then .error resource
  else .ok (fc.count resource 1)

def trySendData (fc : WtSendFlowControl) (bytes : Nat) :
    Except FlowControlResource WtSendFlowControl :=
  if !fc.enabled then .ok (fc.count .data bytes)
  else if fc.limits.maxData - fc.dataSent < bytes then .error .data
  else .ok (fc.count .data bytes)

/-- A limit that the peer sets again has to grow. -/
def processCapsule (fc : WtSendFlowControl) (capsule : Capsule) :
    Except CapsuleValidationError WtSendFlowControl :=
  if !fc.enabled then .ok fc
  else
    match capsule with
    | .maxStreams bidirectional maximum =>
      let resource := FlowControlResource.ofStream bidirectional
      (Capsule.validateMaxStreams maximum (fc.limit resource)).map fun _ =>
        fc.setLimit resource maximum
    | .maxData maximum =>
      (Capsule.validateMaxData maximum (fc.limit .data)).map fun _ => fc.setLimit .data maximum
    | .streamsBlocked _ maximum =>
      if MAX_STREAMS_LIMIT < maximum then .error .maxStreamsExceedsLimit else .ok fc
    | .dataBlocked _ | .closeSession _ _ | .drainSession | .unknown _ _ => .ok fc

section Fields

variable {fc : WtSendFlowControl}

@[simp] theorem count_enabled (r : FlowControlResource) (n : Nat) :
    (fc.count r n).enabled = fc.enabled := by
  cases r <;> rfl

@[simp] theorem count_limit (r r' : FlowControlResource) (n : Nat) :
    (fc.count r n).limit r' = fc.limit r' := by
  cases r <;> cases r' <;> rfl

theorem count_used (r r' : FlowControlResource) (n : Nat) :
    (fc.count r n).used r' = if r' = r then saturatingAdd (fc.used r') n else fc.used r' := by
  cases r <;> cases r' <;> rfl

@[simp] theorem setLimit_enabled (r : FlowControlResource) (m : Nat) :
    (fc.setLimit r m).enabled = fc.enabled := by
  cases r <;> rfl

@[simp] theorem setLimit_used (r r' : FlowControlResource) (m : Nat) :
    (fc.setLimit r m).used r' = fc.used r' := by
  cases r <;> cases r' <;> rfl

theorem setLimit_limit (r r' : FlowControlResource) (m : Nat) :
    (fc.setLimit r m).limit r' = if r' = r then m else fc.limit r' := by
  cases r <;> cases r' <;> rfl

/-- Bytes are refused exactly where the limit leaves no room for them. -/
theorem trySendData_enabled (h : fc.enabled = true) (hwithin : fc.used .data ≤ fc.limit .data)
    (n : Nat) :
    fc.trySendData n =
      if fc.used .data + n ≤ fc.limit .data then .ok (fc.count .data n) else .error .data := by
  have hroom : fc.limits.maxData - fc.dataSent < n ↔ ¬fc.used .data + n ≤ fc.limit .data := by
    simp only [used, limit] at hwithin ⊢
    omega
  simp only [trySendData, h, hroom, Bool.not_true, Bool.false_eq_true, if_false, ite_not]

end Fields

end WtSendFlowControl

/-! ## Grants -/

/-- The resource that a capsule grants, with its new limit. -/
def Capsule.grant? : Capsule → Option (FlowControlResource × Nat)
  | .maxStreams bidirectional maximum => some (.ofStream bidirectional, maximum)
  | .maxData maximum => some (.data, maximum)
  | _ => none

theorem FlowControlResource.cap_ofStream (b : Bool) : (ofStream b).cap = MAX_STREAMS_LIMIT := by
  cases b <;> rfl

theorem Capsule.validateMaxStreams_ok {maximum currentMax : Nat}
    (hcap : maximum ≤ MAX_STREAMS_LIMIT) (hraise : currentMax < maximum) :
    validateMaxStreams maximum currentMax = .ok () := by
  simp only [validateMaxStreams, Nat.not_lt.mpr hcap, Nat.not_le.mpr hraise, if_false]

theorem Capsule.validateMaxData_ok {maximum currentMax : Nat} (hcap : maximum ≤ 2 ^ 62 - 1)
    (hraise : currentMax < maximum) : validateMaxData maximum currentMax = .ok () := by
  simp only [validateMaxData, Nat.not_lt.mpr hcap, Nat.not_le.mpr hraise, if_false]

namespace WtSendFlowControl

variable {fc : WtSendFlowControl} {capsule : Capsule} {r : FlowControlResource} {m : Nat}

/-- A capsule that grants more, and not too much, is taken. -/
theorem processCapsule_grant (h : fc.enabled = true) (hgrant : capsule.grant? = some (r, m))
    (hcap : m ≤ r.cap) (hraise : fc.limit r < m) :
    fc.processCapsule capsule = .ok (fc.setLimit r m) := by
  cases capsule with
  | maxStreams b maximum =>
    cases hgrant
    rw [FlowControlResource.cap_ofStream] at hcap
    simp only [processCapsule, h, Capsule.validateMaxStreams_ok hcap hraise, Bool.not_true,
      Bool.false_eq_true, if_false, Except.map]
  | maxData maximum =>
    cases hgrant
    simp only [processCapsule, h, Capsule.validateMaxData_ok hcap hraise, Bool.not_true,
      Bool.false_eq_true, if_false, Except.map]
  | closeSession | drainSession | dataBlocked | streamsBlocked | unknown => cases hgrant

/-- A capsule that does not grant more is refused. -/
theorem processCapsule_repeated (h : fc.enabled = true) (hgrant : capsule.grant? = some (r, m))
    (hrepeated : m ≤ fc.limit r) : ∃ e, fc.processCapsule capsule = .error e := by
  cases capsule with
  | maxStreams b maximum =>
    cases hgrant
    simp only [processCapsule, h, Capsule.validateMaxStreams, hrepeated, Bool.not_true,
      Bool.false_eq_true, if_false, if_true]
    split <;> exact ⟨_, rfl⟩
  | maxData maximum =>
    cases hgrant
    simp only [processCapsule, h, Capsule.validateMaxData, hrepeated, Bool.not_true,
      Bool.false_eq_true, if_false, if_true]
    split <;> exact ⟨_, rfl⟩
  | closeSession | drainSession | dataBlocked | streamsBlocked | unknown => cases hgrant

end WtSendFlowControl

end Http3
