import Http3.WebTransport.Session

/-!
# The life of a session

A session only moves forward, and what it was closed with stays, as long as nobody closes it
again. `Session.step_cases` says what an operation does to the state, the reason and the streams
to reset; everything about runs follows from it.
-/

namespace Http3

namespace WebTransport

def SessionState.rank : SessionState → Nat
  | pending => 0
  | connecting => 1
  | established => 2
  | draining => 3
  | closed => 4

/-- The reason that an operation closes a session with. -/
def SessionOp.reason : SessionOp → Option Error
  | .close error => error
  | .closeWithError code message => some (applicationError code (truncateMessage message))
  | .processCapsule (.closeSession code message) => some (applicationError code message)
  | .onConnectStreamClosed => some (applicationError 0 [])
  | _ => none

/-- The operations that may close a session. -/
def SessionOp.ends : SessionOp → Bool
  | .close _ | .closeWithError _ _ | .onConnectStreamClosed
  | .processCapsule (.closeSession _ _) => true
  | _ => false

namespace Session

variable {s : Session} {op : SessionOp}

theorem rank_le_closed (state : SessionState) : state.rank ≤ SessionState.closed.rank := by
  cases state <;> decide

theorem isClosed_iff : s.isClosed = true ↔ s.state = .closed := decide_eq_true_iff

/-! ## One operation -/

/-- The operation leaves the end of the session alone. -/
structure Keeps (s : Session) (op : SessionOp) : Prop where
  forward : s.state.rank ≤ (s.step op).state.rank
  isClosed : (s.step op).isClosed = s.isClosed
  closeError : (s.step op).closeError = s.closeError
  resets : (s.step op).pendingStreamResets =
    if op = .takePendingStreamResets then [] else s.pendingStreamResets

/-- The operation ends the session, perhaps once more. -/
structure Closes (s : Session) (op : SessionOp) : Prop where
  state : (s.step op).state = .closed
  closeError : (s.step op).closeError = op.reason
  resets : (s.step op).pendingStreamResets =
    if s.isClosed then s.pendingStreamResets else s.streams.keys
  ends : op.ends = true

theorem close_closes {error : Option Error} {t : Session} (hstep : s.step op = t.close error)
    (hreason : op.reason = error) (hstate : t.state = s.state) (hstreams : t.streams = s.streams)
    (hresets : t.pendingStreamResets = s.pendingStreamResets) (hop : op.ends = true) :
    s.Closes op := by
  refine ⟨by rw [hstep]; rfl, by rw [hstep, hreason]; rfl, ?_, hop⟩
  rw [hstep]
  by_cases h : s.state = .closed
  · simp [close, isClosed, h, hstate, hresets]
  · simp [close, isClosed, h, hstate, hstreams]

theorem keeps_of_eq (hstate : (s.step op).state = s.state)
    (herror : (s.step op).closeError = s.closeError)
    (hresets : (s.step op).pendingStreamResets = s.pendingStreamResets)
    (hop : op ≠ .takePendingStreamResets) : s.Keeps op where
  forward := by rw [hstate]
  isClosed := by unfold isClosed; rw [hstate]
  closeError := herror
  resets := by rw [if_neg hop, hresets]

/-- A move between two states in which the session is open. -/
theorem keeps_of_forward (state : SessionState) (hstep : s.step op = { s with state })
    (hforward : s.state.rank ≤ state.rank) (hold : s.state ≠ .closed) (hnew : state ≠ .closed)
    (hop : op ≠ .takePendingStreamResets) : s.Keeps op where
  forward := by rwa [hstep]
  isClosed := by simp [isClosed, hstep, hold, hnew]
  closeError := by rw [hstep]
  resets := by rw [if_neg hop, hstep]

theorem setDraining_keeps {t : Session} (hstep : s.step op = t.setDraining)
    (hstate : t.state = s.state) (herror : t.closeError = s.closeError)
    (hresets : t.pendingStreamResets = s.pendingStreamResets)
    (hop : op ≠ .takePendingStreamResets) : s.Keeps op := by
  by_cases h : s.state = .established
  · have ht : t.state = .established := hstate.trans h
    constructor <;> simp [hstep, setDraining, ht, h, isClosed, SessionState.rank, herror, hresets, hop]
  · have ht : t.setDraining = t := if_neg (by rwa [hstate])
    rw [ht] at hstep
    exact keeps_of_eq (by rw [hstep, hstate]) (by rw [hstep, herror]) (by rw [hstep, hresets]) hop

theorem processMaxStreams_frame (bidirectional : Bool) (maximum : Nat) :
    (s.processMaxStreams bidirectional maximum).2.state = s.state ∧
      (s.processMaxStreams bidirectional maximum).2.closeError = s.closeError ∧
      (s.processMaxStreams bidirectional maximum).2.pendingStreamResets = s.pendingStreamResets ∧
      (s.processMaxStreams bidirectional maximum).2.pendingCapsules = s.pendingCapsules := by
  unfold processMaxStreams
  split
  · exact ⟨rfl, rfl, rfl, rfl⟩
  · split <;> exact ⟨rfl, rfl, rfl, rfl⟩

theorem processMaxData_frame (maximum : Nat) :
    (s.processMaxData maximum).2.state = s.state ∧
      (s.processMaxData maximum).2.closeError = s.closeError ∧
      (s.processMaxData maximum).2.pendingStreamResets = s.pendingStreamResets ∧
      (s.processMaxData maximum).2.pendingCapsules = s.pendingCapsules := by
  unfold processMaxData
  split <;> exact ⟨rfl, rfl, rfl, rfl⟩

/-- A capsule of the peer that is handled, and not the end of the session. -/
theorem processCapsule_cases (capsule : Capsule) :
    (s.processCapsule capsule).2 = s ∨
      (∃ code message, capsule = .closeSession code message ∧
        (s.processCapsule capsule).2 =
          { s with closeSessionReceived := true }.close (some (applicationError code message))) ∨
      (capsule = .drainSession ∧ (s.processCapsule capsule).2 = s.setDraining) ∨
      (∃ maximum, (s.processCapsule capsule).2 = (s.processMaxData maximum).2) ∨
      ∃ bidirectional maximum,
        (s.processCapsule capsule).2 = (s.processMaxStreams bidirectional maximum).2 := by
  unfold processCapsule
  split
  · exact .inl rfl
  · split
    · exact .inl rfl
    · cases capsule with
      | closeSession code message => exact .inr (.inl ⟨code, message, rfl, rfl⟩)
      | drainSession => exact .inr (.inr (.inl ⟨rfl, rfl⟩))
      | maxData maximum => exact .inr (.inr (.inr (.inl ⟨maximum, rfl⟩)))
      | maxStreams b maximum => exact .inr (.inr (.inr (.inr ⟨b, maximum, rfl⟩)))
      | dataBlocked maximum => exact .inl rfl
      | streamsBlocked b maximum =>
        left
        dsimp only
        split <;> rfl
      | unknown t payload => exact .inl rfl

theorem queueCapsule_frame (capsule : Capsule) :
    (s.queueCapsule capsule).state = s.state ∧ (s.queueCapsule capsule).streams = s.streams ∧
      (s.queueCapsule capsule).closeError = s.closeError ∧
      (s.queueCapsule capsule).pendingStreamResets = s.pendingStreamResets := by
  unfold queueCapsule
  split <;> exact ⟨rfl, rfl, rfl, rfl⟩

/-- **What an operation does** to the state, the reason and the streams to reset. -/
theorem step_cases (s : Session) (op : SessionOp) : s.Keeps op ∨ s.Closes op := by
  cases op with
  | setConnecting =>
    left
    by_cases h : s.state = .pending
    · exact keeps_of_forward .connecting (if_pos h) (by rw [h]; decide)
        (by rw [h]; decide) (by decide) nofun
    · have hstep : s.step .setConnecting = s := if_neg h
      exact keeps_of_eq (by rw [hstep]) (by rw [hstep]) (by rw [hstep]) nofun
  | setEstablished =>
    left
    by_cases h : s.state = .pending ∨ s.state = .connecting
    · refine keeps_of_forward .established (if_pos (by simpa using h)) ?_ ?_ (by decide)
        nofun
      · obtain h | h := h <;> rw [h] <;> decide
      · obtain h | h := h <;> rw [h] <;> decide
    · have hstep : s.step .setEstablished = s := if_neg (by simpa using h)
      exact keeps_of_eq (by rw [hstep]) (by rw [hstep]) (by rw [hstep]) nofun
  | setDraining => exact .inl (setDraining_keeps rfl rfl rfl rfl nofun)
  | close error => exact .inr (close_closes (t := s) rfl rfl rfl rfl rfl rfl)
  | addStream stream =>
    left
    have hstep : s.step (.addStream stream) = (s.tryAddStream stream).2 := rfl
    unfold tryAddStream at hstep
    split at hstep <;> exact keeps_of_eq (by rw [hstep]) (by rw [hstep]) (by rw [hstep]) nofun
  | tryOpenStream b =>
    left
    have hstep : s.step (.tryOpenStream b) = (s.tryOpenStream b).2 := rfl
    unfold tryOpenStream at hstep
    split at hstep
    · exact keeps_of_eq (by rw [hstep]) (by rw [hstep]) (by rw [hstep]) nofun
    · split at hstep
      · exact keeps_of_eq (by rw [hstep]; rfl) (by rw [hstep]; rfl) (by rw [hstep]; rfl) nofun
      · split at hstep
        · exact keeps_of_eq (by rw [hstep]; rfl) (by rw [hstep]; rfl) (by rw [hstep]; rfl) nofun
        · split at hstep
          · exact keeps_of_eq (by rw [hstep]; rfl) (by rw [hstep]; rfl) (by rw [hstep]; rfl) nofun
          · exact keeps_of_eq (by rw [hstep]) (by rw [hstep]) (by rw [hstep]) nofun
  | trySendData bytes =>
    left
    have hstep : s.step (.trySendData bytes) = (s.trySendData bytes).2 := rfl
    unfold trySendData at hstep
    split at hstep
    · exact keeps_of_eq (by rw [hstep]) (by rw [hstep]) (by rw [hstep]) nofun
    · split at hstep
      · exact keeps_of_eq (by rw [hstep]; rfl) (by rw [hstep]; rfl) (by rw [hstep]; rfl) nofun
      · split at hstep
        · exact keeps_of_eq (by rw [hstep]; rfl) (by rw [hstep]; rfl) (by rw [hstep]; rfl) nofun
        · split at hstep <;>
            exact keeps_of_eq (by rw [hstep]) (by rw [hstep]) (by rw [hstep]) nofun
  | addReceivedStream b =>
    left
    cases b <;> exact keeps_of_eq rfl rfl rfl nofun
  | onRemoteStreamClosed b =>
    left
    have hstep : s.step (.onRemoteStreamClosed b) = s.onRemoteStreamClosed b := rfl
    unfold onRemoteStreamClosed at hstep
    split at hstep
    · exact keeps_of_eq (by rw [hstep]) (by rw [hstep]) (by rw [hstep]) nofun
    · cases b <;> split at hstep <;>
        exact keeps_of_eq (by rw [hstep]; rfl) (by rw [hstep]; rfl) (by rw [hstep]; rfl) nofun
  | onDataConsumed bytes =>
    left
    have hstep : s.step (.onDataConsumed bytes) = s.onDataConsumed bytes := rfl
    unfold onDataConsumed at hstep
    split at hstep
    · exact keeps_of_eq (by rw [hstep]) (by rw [hstep]) (by rw [hstep]) nofun
    · split at hstep <;> exact keeps_of_eq (by rw [hstep]) (by rw [hstep]) (by rw [hstep]) nofun
  | queueCapsule capsule =>
    obtain ⟨hstate, -, herror, hresets⟩ := queueCapsule_frame (s := s) capsule
    exact .inl (keeps_of_eq hstate herror hresets nofun)
  | closeWithError code message =>
    by_cases h : s.isClosed = true
    · have hstep : s.step (.closeWithError code message) = s := if_pos h
      exact .inl (keeps_of_eq (by rw [hstep]) (by rw [hstep]) (by rw [hstep]) nofun)
    · have hstep : s.step (.closeWithError code message) = _ := if_neg h
      obtain ⟨hstate, hstreams, -, hresets⟩ :=
        queueCapsule_frame (s := s) (.closeSession code (truncateMessage message))
      exact .inr (close_closes hstep rfl hstate hstreams hresets rfl)
  | drain =>
    left
    by_cases h : s.state = .established
    · have hstep : s.step .drain = (s.queueCapsule .drainSession).setDraining := if_pos h
      obtain ⟨hstate, -, herror, hresets⟩ := queueCapsule_frame (s := s) .drainSession
      exact setDraining_keeps hstep hstate herror hresets nofun
    · have hstep : s.step .drain = s := if_neg h
      exact keeps_of_eq (by rw [hstep]) (by rw [hstep]) (by rw [hstep]) nofun
  | bufferIncomingStream streamId b =>
    left
    have hstep : s.step (.bufferIncomingStream streamId b) = (s.bufferIncomingStream streamId b).2 :=
      rfl
    unfold bufferIncomingStream at hstep
    split at hstep <;> exact keeps_of_eq (by rw [hstep]) (by rw [hstep]) (by rw [hstep]) nofun
  | bufferDatagram data =>
    left
    have hstep : s.step (.bufferDatagram data) = (s.bufferDatagram data).2 := rfl
    unfold bufferDatagram at hstep
    split at hstep <;> exact keeps_of_eq (by rw [hstep]) (by rw [hstep]) (by rw [hstep]) nofun
  | handleGoaway =>
    exact .inl (setDraining_keeps (t := { s with goawayReceived := true }) rfl rfl rfl rfl nofun)
  | takePendingStreamResets => exact .inl ⟨Nat.le_refl _, rfl, rfl, rfl⟩
  | onConnectStreamClosed =>
    by_cases h : s.closeSessionReceived = true
    · have hstep : s.step .onConnectStreamClosed = s := if_pos h
      exact .inl (keeps_of_eq (by rw [hstep]) (by rw [hstep]) (by rw [hstep]) nofun)
    · have hstep : s.step .onConnectStreamClosed = _ := if_neg h
      exact .inr (close_closes hstep rfl rfl rfl rfl rfl)
  | processCapsule capsule =>
    obtain h | ⟨code, message, rfl, h⟩ | ⟨rfl, h⟩ | ⟨maximum, h⟩ | ⟨b, maximum, h⟩ :=
      processCapsule_cases (s := s) capsule
    · exact .inl (keeps_of_eq (congrArg _ h) (congrArg _ h) (congrArg _ h) nofun)
    · exact .inr (close_closes h rfl rfl rfl rfl rfl)
    · exact .inl (setDraining_keeps h rfl rfl rfl nofun)
    · obtain ⟨hstate, herror, hresets, -⟩ := processMaxData_frame (s := s) maximum
      exact .inl (keeps_of_eq ((congrArg _ h).trans hstate) ((congrArg _ h).trans herror)
        ((congrArg _ h).trans hresets) nofun)
    · obtain ⟨hstate, herror, hresets, -⟩ := processMaxStreams_frame (s := s) b maximum
      exact .inl (keeps_of_eq ((congrArg _ h).trans hstate) ((congrArg _ h).trans herror)
        ((congrArg _ h).trans hresets) nofun)
  | _ => exact .inl (keeps_of_eq rfl rfl rfl nofun)

/-! ## A closed session -/

/-- Closing a closed session gives no other reason, and nothing is queued on it. -/
def Respects (s : Session) (op : SessionOp) : Prop :=
  s.isClosed = true →
    match op with
    | .close error => error = s.closeError
    | .processCapsule (.closeSession code message) =>
      some (applicationError code message) = s.closeError
    | .onConnectStreamClosed =>
      s.closeSessionReceived = true ∨ some (applicationError 0 []) = s.closeError
    | .queueInitialFlowControlCapsules limits => limits = .new
    | _ => True

/-- The capsules that an operation queues whatever the state is. -/
def unguarded : SessionOp → List Capsule
  | .queueInitialFlowControlCapsules limits => initialCapsules limits
  | _ => []

theorem initialCapsules_eq_nil (limits : FlowControlLimits) :
    initialCapsules limits = [] ↔ limits = .new := by
  obtain ⟨uni, bidi, data⟩ := limits
  simp only [initialCapsules, List.append_eq_nil_iff, ite_eq_right_iff, List.cons_ne_nil, imp_false,
    FlowControlLimits.new, FlowControlLimits.mk.injEq]
  omega

theorem step_capsules (h : s.isClosed = true) :
    (s.step op).pendingCapsules =
      (if op = .takePendingCapsules then [] else s.pendingCapsules) ++ unguarded op := by
  have hstate : s.state = .closed := isClosed_iff.mp h
  cases op with
  | queueInitialFlowControlCapsules limits => rfl
  | takePendingCapsules => rfl
  | processCapsule capsule =>
    simp only [reduceCtorEq, if_false, unguarded, List.append_nil]
    obtain hc | ⟨code, message, rfl, hc⟩ | ⟨rfl, hc⟩ | ⟨maximum, hc⟩ | ⟨b, maximum, hc⟩ :=
      processCapsule_cases (s := s) capsule
    · exact congrArg _ hc
    · refine (congrArg _ hc).trans ?_
      simp [close, hstate]
    · refine (congrArg _ hc).trans ?_
      simp [setDraining, hstate]
    · exact (congrArg _ hc).trans (processMaxData_frame maximum).2.2.2
    · exact (congrArg _ hc).trans (processMaxStreams_frame b maximum).2.2.2
  | close error => simp [step, close, hstate, unguarded]
  | addStream stream => simp [step, tryAddStream, h, unguarded]
  | addReceivedStream b => cases b <;> simp [step, addReceivedStream, unguarded]
  | onConnectStreamClosed =>
    by_cases hr : s.closeSessionReceived = true
    · simp [step, onConnectStreamClosed, hr, unguarded]
    · simp [step, onConnectStreamClosed, hr, close, hstate, unguarded]
  | bufferIncomingStream streamId b =>
    simp only [step, bufferIncomingStream, reduceCtorEq, if_false, unguarded, List.append_nil]
    split <;> rfl
  | bufferDatagram data =>
    simp only [step, bufferDatagram, reduceCtorEq, if_false, unguarded, List.append_nil]
    split <;> rfl
  | setConnecting => simp [step, setConnecting, hstate, unguarded]
  | setEstablished => simp [step, setEstablished, hstate, unguarded]
  | setDraining => simp [step, setDraining, hstate, unguarded]
  | drain => simp [step, drain, hstate, unguarded]
  | handleGoaway => simp [step, handleGoaway, setDraining, hstate, unguarded]
  | tryOpenStream b =>
    simp [step, tryOpenStream, SessionState.canCreateStream, hstate, unguarded]
  | trySendData bytes => simp [step, trySendData, SessionState.canSend, hstate, unguarded]
  | onRemoteStreamClosed b => simp [step, onRemoteStreamClosed, h, unguarded]
  | onDataConsumed bytes => simp [step, onDataConsumed, h, unguarded]
  | queueCapsule capsule => simp [step, queueCapsule, h, unguarded]
  | closeWithError code message => simp [step, closeWithError, h, unguarded]
  | _ => simp [step, removeStream, setFlowControlEnabled, initializeLocalLimits,
      initializeRemoteLimits, addReceivedData, addReceivedDatagram, takeBufferedStreams,
      takeBufferedDatagrams, takePendingStreamResets, unguarded]

/-- The condition is exactly that reason and queue stay as they are. -/
theorem respects_iff (h : s.isClosed = true) :
    s.Respects op ↔ (s.step op).closeError = s.closeError ∧ unguarded op = [] := by
  have hkeeps : op.ends = false → (s.step op).closeError = s.closeError := by
    intro hends
    obtain hk | hc := step_cases s op
    · exact hk.closeError
    · rw [hc.ends] at hends
      cases hends
  unfold Respects
  simp only [h, true_imp_iff]
  cases op with
  | close error => simp [step, close, unguarded]
  | queueInitialFlowControlCapsules limits =>
    simp only [unguarded, initialCapsules_eq_nil, hkeeps rfl, true_and]
  | onConnectStreamClosed =>
    by_cases hr : s.closeSessionReceived = true
    · simp [step, onConnectStreamClosed, hr, unguarded]
    · simp [step, onConnectStreamClosed, hr, close, unguarded]
  | closeWithError code message => simp [step, closeWithError, h, unguarded]
  | processCapsule capsule =>
    cases capsule with
    | closeSession code message =>
      simp [step, processCapsule, Capsule.isProhibitedInHttp3, Capsule.isFlowControl, close,
        unguarded]
    | _ => simp [hkeeps rfl, unguarded]
  | _ => simp [hkeeps rfl, unguarded]

/-! ## Runs -/

theorem step_isClosed (h : s.isClosed = true) : (s.step op).isClosed = true := by
  obtain hk | hc := step_cases s op
  · rw [hk.isClosed, h]
  · exact isClosed_iff.mpr hc.state

theorem run_isClosed (h : s.isClosed = true) (ops : List SessionOp) :
    (s.run ops).isClosed = true := by
  induction ops generalizing s with
  | nil => exact h
  | cons op ops ih => exact ih (step_isClosed h)

/-- The streams to reset wait until they are taken. -/
theorem run_resets (h : s.isClosed = true) (ops : List SessionOp) :
    (s.run ops).pendingStreamResets =
      if .takePendingStreamResets ∈ ops then [] else s.pendingStreamResets := by
  induction ops generalizing s with
  | nil => rfl
  | cons op ops ih =>
    refine (ih (step_isClosed h)).trans ?_
    by_cases hop : op = .takePendingStreamResets
    · subst hop
      simp [step, takePendingStreamResets]
    · have hsame : (s.step op).pendingStreamResets = s.pendingStreamResets := by
        obtain hk | hc := step_cases s op
        · rw [hk.resets, if_neg hop]
        · rw [hc.resets, if_pos h]
      rw [hsame]
      simp [List.mem_cons, Ne.symm hop]

/-- With the condition the reason stays. -/
theorem run_closeError (h : s.isClosed = true) {ops : List SessionOp}
    (hops : Runs.Every step Respects s ops) : (s.run ops).closeError = s.closeError := by
  induction ops generalizing s with
  | nil => rfl
  | cons op ops ih =>
    have hstep := ((respects_iff h).mp hops.1).1
    exact (ih (step_isClosed h) hops.2).trans hstep

/-- What `close_with_error` queues. -/
def closeCapsule (s : Session) : SessionOp → List Capsule
  | .closeWithError code message =>
    (s.closeWithError code message).pendingCapsules.drop s.pendingCapsules.length
  | _ => []

/-- The capsules that `close_with_error` queues along a run. -/
def closeCapsules (s : Session) : List SessionOp → List Capsule
  | [] => []
  | op :: ops => s.closeCapsule op ++ closeCapsules (s.step op) ops

theorem closeCapsules_closed (h : s.isClosed = true) (ops : List SessionOp) :
    s.closeCapsules ops = [] := by
  induction ops generalizing s with
  | nil => rfl
  | cons op ops ih =>
    rw [closeCapsules, ih (step_isClosed h), List.append_nil]
    cases op with
    | closeWithError code message => simp [closeCapsule, closeWithError, h]
    | _ => rfl

theorem closeWithError_open (h : s.isClosed = false) (code : Nat) (message : Bytes) :
    (s.closeWithError code message).isClosed = true ∧
      (s.closeWithError code message).pendingCapsules =
        s.pendingCapsules ++ [.closeSession code (truncateMessage message)] := by
  have hstate : s.state ≠ .closed := by
    intro hs
    rw [isClosed_iff.mpr hs] at h
    cases h
  simp [closeWithError, close, queueCapsule, isClosed, hstate]

theorem closeCapsules_length (ops : List SessionOp) : (s.closeCapsules ops).length ≤ 1 := by
  induction ops generalizing s with
  | nil => exact Nat.zero_le 1
  | cons op ops ih =>
    cases hs : s.isClosed with
    | true => rw [closeCapsules_closed hs]; exact Nat.zero_le 1
    | false =>
      cases op with
      | closeWithError code message =>
        obtain ⟨hclosed, hqueue⟩ := closeWithError_open hs code message
        simp only [closeCapsules, closeCapsule, step, hqueue, List.drop_left]
        rw [closeCapsules_closed hclosed]
        exact Nat.le_refl 1
      | _ => exact ih

/-- A capsule that is refused changes nothing. -/
theorem processCapsule_error {capsule : Capsule} {e : Error}
    (h : (s.processCapsule capsule).1 = .error e) : (s.processCapsule capsule).2 = s := by
  have hstreams : ∀ b maximum, (s.processMaxStreams b maximum).1 = .error e →
      (s.processMaxStreams b maximum).2 = s := by
    intro b maximum h
    unfold processMaxStreams at h ⊢
    split at h
    · rw [if_pos ‹_›]
    · split at h
      · rw [if_neg ‹_›, if_pos ‹_›]
      · cases h
  have hdata : ∀ maximum, (s.processMaxData maximum).1 = .error e →
      (s.processMaxData maximum).2 = s := by
    intro maximum h
    unfold processMaxData at h ⊢
    split at h
    · rw [if_pos ‹_›]
    · cases h
  unfold processCapsule at h ⊢
  split at h
  · rw [if_pos ‹_›]
  · split at h
    · cases h
    · rw [if_neg ‹_›, if_neg ‹_›]
      cases capsule with
      | maxData maximum => exact hdata maximum h
      | maxStreams b maximum => exact hstreams b maximum h
      | streamsBlocked b maximum =>
        dsimp only at h ⊢
        split at h
        · rw [if_pos ‹_›]
        · cases h
      | _ => cases h

/-- The life of a session along a list of operations. -/
structure Lifecycle (id : Nat) (ops : List SessionOp) : Prop where
  forward : ∀ pre op post, ops = pre ++ op :: post →
    ((new id).run pre).state.rank ≤ ((new id).run (pre ++ [op])).state.rank
  reason : ∀ pre op mid post, ops = pre ++ op :: (mid ++ post) →
    ((new id).run pre).isClosed = false → ((new id).run (pre ++ [op])).isClosed = true →
      ((new id).run (pre ++ op :: mid)).closeError = op.reason
  quiet : ∀ pre op post, ops = pre ++ op :: post → ((new id).run pre).isClosed = true →
    ((new id).run (pre ++ [op])).pendingCapsules =
      if op = .takePendingCapsules then [] else ((new id).run pre).pendingCapsules
  once : ((new id).closeCapsules ops).length ≤ 1
  resets : ∀ pre op mid post, ops = pre ++ op :: (mid ++ post) →
    ((new id).run pre).isClosed = false → ((new id).run (pre ++ [op])).isClosed = true →
      ((new id).run (pre ++ op :: mid)).pendingStreamResets =
        if .takePendingStreamResets ∈ mid then [] else ((new id).run pre).streams.keys
  refused : ∀ pre capsule post e, ops = pre ++ .processCapsule capsule :: post →
    (((new id).run pre).processCapsule capsule).1 = .error e →
      (new id).run (pre ++ [.processCapsule capsule]) = (new id).run pre

theorem run_snoc (s : Session) (pre : List SessionOp) (op : SessionOp) :
    s.run (pre ++ [op]) = (s.run pre).step op := by
  simp only [run, List.foldl_append, List.foldl_cons, List.foldl_nil]

theorem run_cut (s : Session) (pre mid : List SessionOp) (op : SessionOp) :
    s.run (pre ++ op :: mid) = ((s.run pre).step op).run mid := by
  simp only [run, List.foldl_append, List.foldl_cons]

/-- The session was closed by the operation. -/
theorem closes_of_closed (hopen : s.isClosed = false) (hclosed : (s.step op).isClosed = true) :
    s.Closes op := by
  obtain hk | hc := step_cases s op
  · rw [hk.isClosed, hopen] at hclosed
    cases hclosed
  · exact hc

theorem session_lifecycle (id : Nat) (ops : List SessionOp) :
    Lifecycle id ops ↔ Runs.Every step Respects (new id) ops := by
  constructor
  · intro h
    refine Runs.Every.iff_splits.mpr ?_
    rintro pre op post hsplit hclosed
    have hnew : ¬(new id).isClosed = true := Bool.false_ne_true
    obtain ⟨first, closing, mid, rfl, hopen, hends⟩ :=
      Runs.exists_first (I := fun s : Session => s.isClosed = true) hnew hclosed
    rw [Bool.not_eq_true] at hopen
    replace hclosed : ((new id).run (first ++ closing :: mid)).isClosed = true := hclosed
    have hcut : ops = first ++ closing :: (mid ++ op :: post) := by
      rw [hsplit, List.append_assoc]
      rfl
    have hends' : ((new id).run (first ++ [closing])).isClosed = true := by rwa [run_snoc]
    have hbefore := h.reason first closing mid (op :: post) hcut hopen hends'
    have hafter := h.reason first closing (mid ++ [op]) post
      (by rw [hcut, List.append_assoc]; rfl) hopen hends'
    have hquiet := h.quiet (first ++ closing :: mid) op post hsplit hclosed
    have hsame : ((new id).run (first ++ closing :: (mid ++ [op]))).closeError =
        ((new id).run (first ++ closing :: mid)).closeError := hafter.trans hbefore.symm
    have hassoc : first ++ closing :: (mid ++ [op]) = (first ++ closing :: mid) ++ [op] := by simp
    rw [hassoc, run_snoc] at hsame
    rw [run_snoc, step_capsules hclosed, List.append_right_eq_self] at hquiet
    exact (respects_iff hclosed).mpr ⟨hsame, hquiet⟩ hclosed
  · intro h
    have hsplits := Runs.Every.iff_splits.mp h
    refine ⟨?_, ?_, ?_, closeCapsules_length ops, ?_, ?_⟩
    · intro pre op post hsplit
      rw [run_snoc]
      obtain hk | hc := step_cases ((new id).run pre) op
      · exact hk.forward
      · rw [hc.state]
        exact rank_le_closed _
    · intro pre op mid post hsplit hopen hclosed
      rw [run_snoc] at hclosed
      rw [run_cut]
      subst hsplit
      have hmid := (Runs.Every.append.mp (Runs.Every.append.mp h).2.2).1
      exact (run_closeError hclosed hmid).trans (closes_of_closed hopen hclosed).closeError
    · intro pre op post hsplit hclosed
      have hop := ((respects_iff hclosed).mp (hsplits pre op post hsplit)).2
      rw [run_snoc, step_capsules hclosed, hop, List.append_nil]
    · intro pre op mid post hsplit hopen hclosed
      rw [run_snoc] at hclosed
      rw [run_cut, run_resets hclosed, (closes_of_closed hopen hclosed).resets, hopen]
      rfl
    · intro pre capsule post e hsplit herror
      rw [run_snoc]
      exact processCapsule_error herror

/-- The end of the CONNECT stream, which answers a WT_CLOSE_SESSION, replaces the reason. -/
theorem close_reason_is_replaced :
    ¬Lifecycle 0 [.setEstablished, .closeWithError 1 [0x61], .onConnectStreamClosed] := by
  intro h
  have hreason := h.reason [.setEstablished] (.closeWithError 1 [0x61]) [.onConnectStreamClosed] []
    rfl rfl rfl
  exact absurd hreason (by decide)

end Session

end WebTransport

end Http3
