import Http3.WebTransport.Lifecycle

/-!
# Capsules that can be sent

`Capsule.encode` takes values that a QUIC integer can hold, and the other end takes stream limits
up to 2^60. A session announces windows that the application gave it and sums of counters:
`Session.queued_legal_iff` says for which states an operation queues legal capsules only.
-/

namespace Http3

open WebTransport

namespace Capsule

/-! ## Encoding -/

/-- `none` where the value does not fit, which is a panic. -/
def encodeVarint (value : Nat) : Option Bytes :=
  match VarInt.new value with
  | .ok v => some v.encode
  | .error _ => none

def varintEncodedLen (value : Nat) : Option Nat :=
  match VarInt.new value with
  | .ok v => some v.encodedLen
  | .error _ => none

def encodeCapsuleHeader (capsuleType length : Nat) : Option Bytes := do
  let capsuleType ← encodeVarint capsuleType
  let length ← encodeVarint length
  return capsuleType ++ length

def truncateCloseSessionMessage (message : Bytes) : Bytes := truncateMessage message

/-- A capsule of one integer. -/
def encodeInteger (capsuleType value : Nat) : Option Bytes := do
  let payloadLen ← varintEncodedLen value
  let header ← encodeCapsuleHeader capsuleType payloadLen
  let value ← encodeVarint value
  return header ++ value

/-- The bytes that are appended to the buffer. -/
def encode : Capsule → Option Bytes
  | closeSession errorCode message => do
    let message := truncateCloseSessionMessage message
    let header ← encodeCapsuleHeader 0x2843 (4 + message.length)
    return header ++ (Bytes.beBytes 4 errorCode ++ message)
  | drainSession => encodeCapsuleHeader 0x78ae 0
  | maxData maximum => encodeInteger 0x190b4d3d maximum
  | maxStreams bidirectional maximum =>
    encodeInteger (if bidirectional then 0x190b4d3f else 0x190b4d40) maximum
  | dataBlocked maximum => encodeInteger 0x190b4d41 maximum
  | streamsBlocked bidirectional maximum =>
    encodeInteger (if bidirectional then 0x190b4d43 else 0x190b4d44) maximum
  | unknown capsuleType payload => do
    let header ← encodeCapsuleHeader capsuleType payload.length
    return header ++ payload

/-! ## Values in range -/

/-- The values of a capsule that the library queues are in range. -/
def Legal : Capsule → Prop
  | closeSession _ message => message.length ≤ MAX_CLOSE_SESSION_MESSAGE_LEN
  | drainSession => True
  | maxData maximum | dataBlocked maximum => maximum ≤ VarInt.max.get
  | maxStreams _ maximum | streamsBlocked _ maximum => maximum ≤ MAX_STREAMS_LIMIT
  | unknown _ _ => False

instance : DecidablePred Legal := fun c => by
  cases c <;> unfold Legal <;> infer_instance

/-- The capsule would not raise a limit of the session. -/
def NotRaising (p : Session) : Capsule → Prop
  | maxData maximum => maximum ≤ p.remoteLimits.maxData
  | maxStreams bidirectional maximum => maximum ≤ p.maxStreams bidirectional
  | _ => False

theorem encodeVarint_some {value : Nat} (h : value ≤ VarInt.max.get) :
    ∃ bytes, encodeVarint value = some bytes := by
  unfold encodeVarint
  rw [show VarInt.new value = .ok ⟨value, h⟩ from dif_neg (Nat.not_lt.mpr h)]
  exact ⟨_, rfl⟩

theorem encodeCapsuleHeader_some {capsuleType length : Nat} (ht : capsuleType ≤ VarInt.max.get)
    (hl : length ≤ VarInt.max.get) : ∃ bytes, encodeCapsuleHeader capsuleType length = some bytes := by
  obtain ⟨t, ht⟩ := encodeVarint_some ht
  obtain ⟨l, hl⟩ := encodeVarint_some hl
  exact ⟨t ++ l, by rw [encodeCapsuleHeader, ht, hl]; rfl⟩

theorem encodeInteger_some {capsuleType value : Nat} (ht : capsuleType ≤ VarInt.max.get)
    (hv : value ≤ VarInt.max.get) : ∃ bytes, encodeInteger capsuleType value = some bytes := by
  have hnew : VarInt.new value = .ok ⟨value, hv⟩ := dif_neg (Nat.not_lt.mpr hv)
  have hlen : (⟨value, hv⟩ : VarInt).encodedLen ≤ VarInt.max.get :=
    (VarInt.encodedLen_le _).trans (by decide)
  obtain ⟨header, hheader⟩ := encodeCapsuleHeader_some ht hlen
  obtain ⟨bytes, hbytes⟩ := encodeVarint_some hv
  refine ⟨header ++ bytes, ?_⟩
  rw [encodeInteger, varintEncodedLen, hnew]
  simp only [Option.bind_eq_bind, Option.bind_some, hheader, hbytes]
  rfl

theorem charBoundaryBefore_le (message : Bytes) (i : Nat) : charBoundaryBefore message i ≤ i := by
  induction i with
  | zero => exact Nat.le_refl 0
  | succ i ih =>
    unfold charBoundaryBefore
    split
    · exact Nat.le_refl _
    · exact Nat.le_succ_of_le ih

theorem truncateMessage_length (message : Bytes) :
    (truncateMessage message).length ≤ MAX_CLOSE_SESSION_MESSAGE_LEN := by
  unfold truncateMessage
  split
  · rw [List.length_take]
    exact (Nat.min_le_left _ _).trans (charBoundaryBefore_le _ _)
  · omega

/-- A legal capsule is written without a panic. -/
theorem encode_of_legal {c : Capsule} (h : c.Legal) : ∃ bytes, c.encode = some bytes := by
  have hlimit : ∀ {n}, n ≤ MAX_STREAMS_LIMIT → n ≤ VarInt.max.get :=
    fun h => h.trans (by decide)
  cases c with
  | closeSession errorCode message =>
    have hlen : 4 + (truncateCloseSessionMessage message).length ≤ VarInt.max.get :=
      (Nat.add_le_add_left (truncateMessage_length message) 4).trans (by decide)
    obtain ⟨header, hheader⟩ := encodeCapsuleHeader_some (by decide : 0x2843 ≤ VarInt.max.get) hlen
    refine ⟨header ++ (Bytes.beBytes 4 errorCode ++ truncateCloseSessionMessage message), ?_⟩
    rw [encode]
    simp only [hheader, Option.bind_eq_bind, Option.bind_some]
    rfl
  | drainSession => exact encodeCapsuleHeader_some (by decide) (by decide)
  | maxData maximum => exact encodeInteger_some (by decide) h
  | maxStreams b maximum => exact encodeInteger_some (by cases b <;> decide) (hlimit h)
  | dataBlocked maximum => exact encodeInteger_some (by decide) h
  | streamsBlocked b maximum => exact encodeInteger_some (by cases b <;> decide) (hlimit h)
  | unknown t payload => exact h.elim

/-- The other end takes a legal capsule unless it does not raise a limit. -/
theorem processCapsule_of_legal {c : Capsule} (h : c.Legal) (p : Session) :
    (p.processCapsule c).1 = .ok () ∨ NotRaising p c := by
  unfold Session.processCapsule
  have hallowed : c.isProhibitedInHttp3 = false := by
    cases c with
    | unknown t payload => exact h.elim
    | _ => rfl
  rw [hallowed, if_neg Bool.false_ne_true]
  split
  · exact .inl rfl
  cases c with
  | maxData maximum =>
    by_cases hle : maximum ≤ p.remoteLimits.maxData
    · exact .inr hle
    · left
      dsimp only
      rw [Session.processMaxData, if_neg hle]
  | maxStreams b maximum =>
    have hmax : ¬MAX_STREAMS_LIMIT < maximum := Nat.not_lt.mpr h
    by_cases hle : maximum ≤ p.maxStreams b
    · exact .inr hle
    · left
      dsimp only
      rw [Session.processMaxStreams, if_neg hmax, if_neg hle]
  | streamsBlocked b maximum =>
    left
    dsimp only
    rw [if_neg (Nat.not_lt.mpr h)]
  | unknown t payload => exact h.elim
  | _ => exact .inl rfl

end Capsule

/-! ## Windows -/

/-- The window is due, and the new maximum is one that can be announced. -/
def DataFlowControl.Fits (fc : DataFlowControl) (bytes : Nat) : Prop :=
  fc.initialWindow ≠ 0 → fc.advertisedMax - fc.totalReceived ≤ fc.initialWindow / 2 →
    min (fc.totalConsumed + bytes + fc.initialWindow) (2 ^ 64 - 1) ≤
      max fc.advertisedMax VarInt.max.get

instance (fc : DataFlowControl) (bytes : Nat) : Decidable (fc.Fits bytes) := by
  unfold DataFlowControl.Fits
  infer_instance

theorem saturatingAdd_saturatingAdd (a b c : Nat) :
    saturatingAdd (saturatingAdd a b) c = min (a + b + c) (2 ^ 64 - 1) := by
  unfold saturatingAdd
  omega

/-- The maximum that is announced is in range exactly when the sum fits. -/
theorem DataFlowControl.onDataConsumed_legal_iff (fc : DataFlowControl) (bytes : Nat) :
    (∀ newMax, (fc.onDataConsumed bytes).1 = some newMax → newMax ≤ VarInt.max.get) ↔
      fc.Fits bytes := by
  unfold onDataConsumed Fits
  simp only [saturatingAdd_saturatingAdd]
  by_cases hzero : fc.initialWindow = 0
  · simp [hzero]
  rw [if_neg hzero]
  by_cases hdue : fc.advertisedMax - fc.totalReceived ≤ fc.initialWindow / 2
  · rw [if_pos hdue]
    by_cases hgrows : fc.advertisedMax <
        min (fc.totalConsumed + bytes + fc.initialWindow) (2 ^ 64 - 1)
    · rw [if_pos hgrows]
      simp only [Option.some.injEq, forall_eq', ne_eq, hzero, not_false_eq_true, hdue, true_imp_iff]
      omega
    · rw [if_neg hgrows]
      simp only [reduceCtorEq, false_imp_iff, implies_true, true_iff]
      intro _ _
      omega
  · simp [hdue]

/-- Stream limits are capped. -/
theorem DirectionalStreamFlowControl.onStreamClosed_legal {fc : DirectionalStreamFlowControl}
    {newMax : Nat} (h : fc.onStreamClosed.1 = some newMax) : newMax ≤ MAX_STREAMS_LIMIT := by
  unfold onStreamClosed at h
  dsimp only at h
  split at h
  · cases h
  split at h
  · split at h
    · cases h
      exact Nat.min_le_right _ _
    · cases h
  · cases h

namespace WebTransport

namespace Session

variable {s : Session} {op : SessionOp}

/-! ## One operation -/

/-- What an operation appends to the queue, beside the capsule that the caller passes in. -/
def byItself (s : Session) : SessionOp → List Capsule
  | .queueCapsule _ => []
  | op => (s.step op).pendingCapsules.drop s.pendingCapsules.length

/-- What is announced is in range: a limit of the caller, that of the peer when it blocks, and the
next window. -/
def Fits (s : Session) : SessionOp → Prop
  | .queueInitialFlowControlCapsules limits =>
    limits.maxStreamsBidi ≤ MAX_STREAMS_LIMIT ∧ limits.maxStreamsUni ≤ MAX_STREAMS_LIMIT ∧
      limits.maxData ≤ VarInt.max.get
  | .tryOpenStream bidirectional =>
    s.state.canCreateStream = true → s.flowControlEnabled = true →
      s.maxStreams bidirectional ≤ s.streamsOpened bidirectional →
      s.lastStreamsBlocked bidirectional ≠ some (s.maxStreams bidirectional) →
      s.maxStreams bidirectional ≤ MAX_STREAMS_LIMIT
  | .trySendData bytes =>
    s.state.canSend = true → s.flowControlEnabled = true →
      s.remoteLimits.maxData - s.flowState.dataSent < bytes →
      s.sendBlocked.lastDataBlocked ≠ some s.remoteLimits.maxData →
      s.remoteLimits.maxData ≤ VarInt.max.get
  | .onDataConsumed bytes =>
    s.flowControlEnabled = true → s.isClosed = false → s.recvDataFc.Fits bytes
  | _ => True

instance (s : Session) (op : SessionOp) : Decidable (s.Fits op) := by
  cases op <;> unfold Fits <;> infer_instance

theorem byItself_eq (op : SessionOp) (queued : List Capsule) (hop : ∀ c, op ≠ .queueCapsule c)
    (h : (s.step op).pendingCapsules = s.pendingCapsules ++ queued) : s.byItself op = queued := by
  have hdrop : (s.step op).pendingCapsules.drop s.pendingCapsules.length = queued := by
    rw [h, List.drop_left]
  cases op with
  | queueCapsule c => exact absurd rfl (hop c)
  | _ => exact hdrop

theorem legal_of_quiet (hop : ∀ c, op ≠ .queueCapsule c)
    (h : (s.step op).pendingCapsules = s.pendingCapsules) : ∀ c ∈ s.byItself op, c.Legal := by
  rw [byItself_eq op [] hop (by rw [h, List.append_nil])]
  exact nofun

theorem forall_legal_singleton {c : Capsule} : (∀ d ∈ [c], d.Legal) ↔ c.Legal := by simp

theorem legal_iff_of_one (op : SessionOp) (c : Capsule) (hop : ∀ c, op ≠ .queueCapsule c)
    (h : (s.step op).pendingCapsules = s.pendingCapsules ++ [c]) :
    (∀ d ∈ s.byItself op, d.Legal) ↔ c.Legal := by
  rw [byItself_eq op [c] hop h, forall_legal_singleton]

theorem initialCapsules_legal_iff (limits : FlowControlLimits) :
    (∀ c ∈ initialCapsules limits, c.Legal) ↔
      limits.maxStreamsBidi ≤ MAX_STREAMS_LIMIT ∧ limits.maxStreamsUni ≤ MAX_STREAMS_LIMIT ∧
        limits.maxData ≤ VarInt.max.get := by
  have hone : ∀ (n bound : Nat) (f : Nat → Capsule), ((f n).Legal ↔ n ≤ bound) →
      ((∀ c ∈ (if n > 0 then [f n] else []), c.Legal) ↔ n ≤ bound) := by
    intro n bound f hf
    by_cases hn : n > 0
    · rw [if_pos hn, forall_legal_singleton, hf]
    · rw [if_neg hn]
      exact ⟨fun _ => by omega, fun _ => nofun⟩
  unfold initialCapsules
  rw [← hone _ _ (Capsule.maxStreams true) Iff.rfl, ← hone _ _ (Capsule.maxStreams false) Iff.rfl,
    ← hone _ _ Capsule.maxData Iff.rfl]
  simp only [List.mem_append, or_imp, forall_and, and_assoc]

theorem close_quiet (error : Option Error) : (s.close error).pendingCapsules = s.pendingCapsules := by
  unfold close
  split <;> rfl

theorem setDraining_quiet : s.setDraining.pendingCapsules = s.pendingCapsules := by
  unfold setDraining
  split <;> rfl

theorem processCapsule_quiet (c : Capsule) :
    (s.processCapsule c).2.pendingCapsules = s.pendingCapsules := by
  obtain h | ⟨code, message, rfl, h⟩ | ⟨rfl, h⟩ | ⟨maximum, h⟩ | ⟨b, maximum, h⟩ :=
    processCapsule_cases (s := s) c
  · rw [h]
  · rw [h, close_quiet]
  · rw [h, setDraining_quiet]
  · rw [h, (processMaxData_frame maximum).2.2.2]
  · rw [h, (processMaxStreams_frame b maximum).2.2.2]

theorem tryOpenStream_legal_iff (b : Bool) :
    (∀ c ∈ s.byItself (.tryOpenStream b), c.Legal) ↔ s.Fits (.tryOpenStream b) := by
  unfold Fits
  have hstep : s.step (.tryOpenStream b) = (s.tryOpenStream b).2 := rfl
  unfold tryOpenStream at hstep
  split at hstep
  · rename_i hstate
    rw [Bool.not_eq_true'] at hstate
    exact iff_of_true (legal_of_quiet nofun (by rw [hstep])) fun h => by simp [hstate] at h
  split at hstep
  · rename_i henabled
    rw [Bool.not_eq_true'] at henabled
    exact iff_of_true (legal_of_quiet nofun (by rw [hstep]; rfl))
      fun _ h => by simp [henabled] at h
  split at hstep
  · rename_i hroom
    exact iff_of_true (legal_of_quiet nofun (by rw [hstep]; rfl)) fun _ _ h => by omega
  split at hstep
  · rename_i hstate henabled hfull hnew
    rw [Bool.not_eq_true', Bool.not_eq_false] at hstate henabled
    refine (legal_iff_of_one (.tryOpenStream b) (.streamsBlocked b (s.maxStreams b)) nofun
      (by rw [hstep]; cases b <;> rfl)).trans ?_
    exact ⟨fun h _ _ _ _ => h, fun h => h hstate henabled (Nat.not_lt.mp hfull) hnew⟩
  · rename_i hold
    exact iff_of_true (legal_of_quiet nofun (by rw [hstep])) fun _ _ _ h => absurd h hold

theorem trySendData_legal_iff (bytes : Nat) :
    (∀ c ∈ s.byItself (.trySendData bytes), c.Legal) ↔ s.Fits (.trySendData bytes) := by
  unfold Fits
  have hstep : s.step (.trySendData bytes) = (s.trySendData bytes).2 := rfl
  unfold trySendData at hstep
  split at hstep
  · rename_i hstate
    rw [Bool.not_eq_true'] at hstate
    exact iff_of_true (legal_of_quiet nofun (by rw [hstep])) fun h => by simp [hstate] at h
  split at hstep
  · rename_i henabled
    rw [Bool.not_eq_true'] at henabled
    exact iff_of_true (legal_of_quiet nofun (by rw [hstep]; rfl))
      fun _ h => by simp [henabled] at h
  split at hstep
  · rename_i hroom
    exact iff_of_true (legal_of_quiet nofun (by rw [hstep]; rfl)) fun _ _ h => by omega
  split at hstep
  · rename_i hstate henabled hfull hnew
    rw [Bool.not_eq_true', Bool.not_eq_false] at hstate henabled
    refine (legal_iff_of_one (.trySendData bytes) (.dataBlocked s.remoteLimits.maxData) nofun
      (by rw [hstep])).trans ?_
    exact ⟨fun h _ _ _ _ => h, fun h => h hstate henabled (Nat.not_le.mp hfull) hnew⟩
  · rename_i hold
    exact iff_of_true (legal_of_quiet nofun (by rw [hstep])) fun _ _ _ h => absurd h hold

theorem onRemoteStreamClosed_legal (b : Bool) :
    ∀ c ∈ s.byItself (.onRemoteStreamClosed b), c.Legal := by
  have hstep : s.step (.onRemoteStreamClosed b) = s.onRemoteStreamClosed b := rfl
  unfold onRemoteStreamClosed at hstep
  split at hstep
  · exact legal_of_quiet nofun (by rw [hstep])
  split at hstep
  · rename_i newMax fc hclosed
    have hlegal := DirectionalStreamFlowControl.onStreamClosed_legal (congrArg Prod.fst hclosed)
    exact (legal_iff_of_one (.onRemoteStreamClosed b) (.maxStreams b newMax) nofun
      (by rw [hstep]; cases b <;> rfl)).mpr hlegal
  · exact legal_of_quiet nofun (by rw [hstep]; cases b <;> rfl)

theorem onDataConsumed_legal_iff (bytes : Nat) :
    (∀ c ∈ s.byItself (.onDataConsumed bytes), c.Legal) ↔ s.Fits (.onDataConsumed bytes) := by
  unfold Fits
  have hstep : s.step (.onDataConsumed bytes) = s.onDataConsumed bytes := rfl
  unfold onDataConsumed at hstep
  split at hstep
  · rename_i hskipped
    rw [Bool.or_eq_true, Bool.not_eq_true'] at hskipped
    refine iff_of_true (legal_of_quiet nofun (by rw [hstep])) fun henabled hopen => ?_
    obtain h | h := hskipped
    · simp [henabled] at h
    · simp [hopen] at h
  rename_i hlive
  rw [Bool.or_eq_true, Bool.not_eq_true', not_or, Bool.not_eq_false, Bool.not_eq_true] at hlive
  have hfits : (s.flowControlEnabled = true → s.isClosed = false → s.recvDataFc.Fits bytes) ↔
      s.recvDataFc.Fits bytes := ⟨fun h => h hlive.1 hlive.2, fun h _ _ => h⟩
  have hwindow := s.recvDataFc.onDataConsumed_legal_iff bytes
  refine Iff.trans ?_ (hwindow.trans hfits.symm)
  split at hstep
  · rename_i newMax fc hconsumed
    refine (legal_iff_of_one (.onDataConsumed bytes) (.maxData newMax) nofun
      (by rw [hstep])).trans ?_
    rw [hconsumed]
    simp only [Option.some.injEq, forall_eq']
    exact Iff.rfl
  · rename_i fc hconsumed
    rw [hconsumed]
    exact iff_of_true (legal_of_quiet nofun (by rw [hstep])) nofun

/-- **What an operation queues by itself** is legal exactly when what it announces is in range. -/
theorem queued_legal_iff (s : Session) (op : SessionOp) :
    (∀ c ∈ s.byItself op, c.Legal) ↔ s.Fits op := by
  cases op with
  | queueInitialFlowControlCapsules limits =>
    rw [byItself_eq (.queueInitialFlowControlCapsules limits) (initialCapsules limits) (by simp) rfl]
    exact initialCapsules_legal_iff limits
  | tryOpenStream b => exact tryOpenStream_legal_iff b
  | trySendData bytes => exact trySendData_legal_iff bytes
  | onRemoteStreamClosed b => exact iff_of_true (onRemoteStreamClosed_legal b) trivial
  | onDataConsumed bytes => exact onDataConsumed_legal_iff bytes
  | queueCapsule c => exact iff_of_true (by simp [byItself]) trivial
  | closeWithError code message =>
    refine iff_of_true ?_ trivial
    by_cases h : s.isClosed = true
    · have hstep : s.step (.closeWithError code message) = s := if_pos h
      exact legal_of_quiet (by simp) (by rw [hstep])
    · refine (legal_iff_of_one (.closeWithError code message)
        (.closeSession code (truncateMessage message)) (by simp) ?_).mpr ?_
      · have hstep : s.step (.closeWithError code message) = _ := if_neg h
        rw [hstep, close_quiet]
        simp [queueCapsule, h]
      · exact Capsule.truncateMessage_length message
  | drain =>
    refine iff_of_true ?_ trivial
    by_cases h : s.state = .established
    · have hstep : s.step .drain = (s.queueCapsule .drainSession).setDraining := if_pos h
      refine (legal_iff_of_one .drain .drainSession (by simp) ?_).mpr trivial
      rw [hstep, setDraining_quiet]
      simp [queueCapsule, isClosed, h]
    · have hstep : s.step .drain = s := if_neg h
      exact legal_of_quiet (by simp) (by rw [hstep])
  | takePendingCapsules =>
    refine iff_of_true ?_ trivial
    have hnone : s.byItself .takePendingCapsules = [] := List.drop_nil
    rw [hnone]
    exact fun c hc => absurd hc List.not_mem_nil
  | processCapsule c => exact iff_of_true (legal_of_quiet (by simp) (processCapsule_quiet c)) trivial
  | close error => exact iff_of_true (legal_of_quiet (by simp) (close_quiet error)) trivial
  | setDraining => exact iff_of_true (legal_of_quiet (by simp) setDraining_quiet) trivial
  | handleGoaway => exact iff_of_true (legal_of_quiet (by simp) setDraining_quiet) trivial
  | setConnecting =>
    refine iff_of_true (legal_of_quiet (by simp) ?_) trivial
    show s.setConnecting.pendingCapsules = s.pendingCapsules
    unfold setConnecting
    split <;> rfl
  | setEstablished =>
    refine iff_of_true (legal_of_quiet (by simp) ?_) trivial
    show s.setEstablished.pendingCapsules = s.pendingCapsules
    unfold setEstablished
    split <;> rfl
  | addStream stream =>
    refine iff_of_true (legal_of_quiet (by simp) ?_) trivial
    show (s.tryAddStream stream).2.pendingCapsules = s.pendingCapsules
    unfold tryAddStream
    split <;> rfl
  | addReceivedStream b =>
    refine iff_of_true (legal_of_quiet (by simp) ?_) trivial
    show (s.addReceivedStream b).pendingCapsules = s.pendingCapsules
    unfold addReceivedStream
    split <;> rfl
  | bufferIncomingStream streamId b =>
    refine iff_of_true (legal_of_quiet (by simp) ?_) trivial
    show (s.bufferIncomingStream streamId b).2.pendingCapsules = s.pendingCapsules
    unfold bufferIncomingStream
    split <;> rfl
  | bufferDatagram data =>
    refine iff_of_true (legal_of_quiet (by simp) ?_) trivial
    show (s.bufferDatagram data).2.pendingCapsules = s.pendingCapsules
    unfold bufferDatagram
    split <;> rfl
  | onConnectStreamClosed =>
    refine iff_of_true (legal_of_quiet (by simp) ?_) trivial
    show s.onConnectStreamClosed.pendingCapsules = s.pendingCapsules
    unfold onConnectStreamClosed
    split
    · rfl
    · exact close_quiet _
  | _ => exact iff_of_true (legal_of_quiet (by simp) rfl) trivial

/-- All along a run. -/
theorem run_queued_legal_iff (s : Session) (ops : List SessionOp) :
    Runs.Every step (fun s op => ∀ c ∈ s.byItself op, c.Legal) s ops ↔
      Runs.Every step Fits s ops :=
  Runs.Every.congr (I := fun _ => True) (fun s op _ => queued_legal_iff s op)
    (fun _ _ _ _ => trivial) trivial ops

end Session

end WebTransport

end Http3
