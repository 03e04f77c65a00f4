import Http3.Connection.ControlFields
import Http3.Connection.Delivery
import Http3.Connection.Errors
import Http3.Connection.Panics

/-!
# What was cut does not show

A control stream is read to the same end however it was cut, unless SETTINGS refuse a CONNECT that
waited for them and are followed by more than unknown frames.
-/

namespace Http3

namespace Connection

open Proc ControlStreamRecv

/-! ## What waits for SETTINGS -/

/-- The connection with the peer's SETTINGS, if they are valid. -/
def configure (env : Env) (settings : Settings) (c : Core) : Except Error Core := do
  let qpack ← applyQpackSettings c.limits settings c.qpack
  checkWtSettings env c.wt settings
  return { c with qpack, peerSettings := some settings }

/-- Every CONNECT passes the checks after those before it were registered. -/
def Admitted (env : Env) (headersOf : Nat → List Header) (c : Core) : List Nat → Prop
  | [] => True
  | streamId :: rest =>
    validateWtConnectRequestServer env c.peerSettings c.wt streamId (headersOf streamId) = .ok () ∧
      Admitted env headersOf (processDeferredWtConnect env streamId (headersOf streamId) c).st rest

/-- The table of the CONNECTs that wait is emptied before the first of them is looked at. -/
def withoutDeferred (c : Core) : Core := { c with wt := { c.wt with deferredWtConnects := ∅ } }

/-- The SETTINGS are valid, but a CONNECT that waited for them is not. -/
def Refuses (env : Env) (c : Core) (settings : Settings) : Prop :=
  ∃ d, configure env settings c = .ok d ∧
    ¬Admitted env (fun streamId => (c.wt.deferredWtConnects.lookup streamId).getD [])
      (withoutDeferred d) (env.order.walk .deferredWtConnects c.wt.deferredWtConnects.keys)

section Waiting

variable (env : Env)

theorem not_closes_messageError : ¬Closes messageError := by
  rintro ⟨code, h⟩
  cases h

theorem not_closes_streamError (code : ErrorCode) : ¬Closes (.streamError code) := by
  rintro ⟨code, h⟩
  cases h

/-- A check that leaves the connection open when it fails. -/
def OpenCheck {α : Type} (r : Except Error α) : Prop := ∀ e, r = .error e → ¬Closes e

section OpenCheck

variable {α β : Type} {e : Error}

theorem OpenCheck.ok (a : α) : OpenCheck (.ok a) := by
  intro e h
  cases h

theorem OpenCheck.fail (he : ¬Closes e) : OpenCheck (.error e : Except Error α) := by
  intro e' h
  cases h
  exact he

theorem OpenCheck.ensure (b : Bool) (he : ¬Closes e) : OpenCheck (ensure b e) := by
  unfold Connection.ensure
  split
  · exact .ok ()
  · exact .fail he

theorem OpenCheck.bind {r : Except Error α} {f : α → Except Error β} (h : OpenCheck r)
    (hf : ∀ a, OpenCheck (f a)) : OpenCheck (r >>= f) := by
  cases r with
  | ok a => exact hf a
  | error e => exact .fail (h e rfl)

end OpenCheck

theorem validateWtConnectRequestServer_open (peer : Option Settings) (w : WtState)
    (streamId : Nat) (headers : List Header) :
    OpenCheck (validateWtConnectRequestServer env peer w streamId headers) := by
  have hmessage : ∀ b, OpenCheck (ensure b messageError) :=
    fun b => .ensure b not_closes_messageError
  have hrejected : ∀ b, OpenCheck (ensure b (.streamError .requestRejected)) :=
    fun b => .ensure b (not_closes_streamError _)
  unfold validateWtConnectRequestServer
  split
  · exact .ok ()
  · apply OpenCheck.bind (hmessage _)
    intro _
    apply OpenCheck.bind (hmessage _)
    intro _
    cases peer with
    | none => exact .ok ()
    | some p =>
      apply OpenCheck.bind (hmessage _)
      intro _
      apply OpenCheck.bind (hmessage _)
      intro _
      apply OpenCheck.bind (hmessage _)
      intro _
      dsimp only
      have hrest : OpenCheck (do
          ensure (hasHeader headers ":scheme" "https") messageError
          ensure (isWtFlowControlEnabled env (some p) || otherActive w streamId == 0)
            (.streamError .requestRejected)) :=
        .bind (hmessage _) fun _ => hrejected _
      split
      · exact hrest
      · apply OpenCheck.bind (hmessage _)
        intro _
        split
        · exact .bind (.fail not_closes_messageError) fun _ => hrest
        · exact .bind (hmessage _) fun _ => hrest

theorem registerWtConnectSession_ok (streamId : Nat) (headers : List Header) (c : Core) :
    (registerWtConnectSession env streamId headers c).val = .ok () := by
  simp only [registerWtConnectSession, ite_run]
  split <;> rfl

/-- A CONNECT that waited is refused, or it is registered. -/
theorem processDeferredWtConnect_val (streamId : Nat) (headers : List Header) (c : Core) :
    (processDeferredWtConnect env streamId headers c).val =
      validateWtConnectRequestServer env c.peerSettings c.wt streamId headers := by
  simp only [processDeferredWtConnect, get_bind]
  cases hvalid : validateWtConnectRequestServer env c.peerSettings c.wt streamId headers with
  | error e => rfl
  | ok u =>
    have hregister := registerWtConnectSession_ok env streamId headers c
    rcases hrun : registerWtConnectSession env streamId headers c with ⟨v, d, out⟩
    rw [hrun] at hregister
    dsimp only at hregister
    subst hregister
    show ((registerWtConnectSession env streamId headers >>= _) c).val = _
    rw [bind_ok _ _ _ hrun]
    cases c.streams.lookup streamId <;> rfl

theorem each_admitted (headersOf : Nat → List Header) (l : List Nat) (c : Core) :
    ((each l fun streamId => processDeferredWtConnect env streamId (headersOf streamId)) c).val =
        .ok () ∧ Admitted env headersOf c l ∨
      (∃ e, ((each l fun streamId => processDeferredWtConnect env streamId (headersOf streamId))
        c).val = .error e ∧ ¬Closes e) ∧ ¬Admitted env headersOf c l := by
  induction l generalizing c with
  | nil => exact .inl ⟨rfl, trivial⟩
  | cons streamId l ih =>
    have hval := processDeferredWtConnect_val env streamId (headersOf streamId) c
    have hopen := validateWtConnectRequestServer_open env c.peerSettings c.wt streamId
      (headersOf streamId)
    rcases hrun : processDeferredWtConnect env streamId (headersOf streamId) c with ⟨v, d, out⟩
    rw [hrun] at hval
    dsimp only at hval
    rw [each, Admitted, ← hval, hrun]
    cases v with
    | error e =>
      rw [bind_error _ _ _ hrun]
      exact .inr ⟨⟨e, rfl, hopen e hval.symm⟩, by simp⟩
    | ok u =>
      rw [bind_ok _ _ _ hrun]
      obtain ⟨hok, hadmitted⟩ | ⟨hfails, hnot⟩ := ih d
      · exact .inl ⟨hok, rfl, hadmitted⟩
      · exact .inr ⟨hfails, fun h => hnot h.2⟩

/-- Every error of a procedure closes the connection. -/
abbrev ClosesOnly {α : Type} (x : WtProc α) : Prop := Safe (fun e => ¬Closes e) WtFits x

theorem closes (code : ErrorCode) : ¬¬Closes (.connectionError code) := not_not_intro ⟨code, rfl⟩

theorem resolveWtBidiStreamHeader_closes (goaway : Option VarInt) (streamId : Nat)
    (data : Bytes) : ClosesOnly (resolveWtBidiStreamHeader env goaway streamId data) := by
  have hthrow : ∀ code, ClosesOnly (throw (.connectionError code) : WtProc Unit) :=
    fun code => .throw (closes code)
  refine Safe.get_bind fun w hw => ?_
  dsimp only
  split
  · grind
  · split <;> grind

theorem finishBidi_closes (streamId sessionId : Nat) :
    ClosesOnly (finishBidi env streamId sessionId) := by
  unfold finishBidi
  grind

theorem continueWtBidiStream_closes (streamId sessionId : Nat) (data : Bytes) (fin : Bool) :
    ClosesOnly (continueWtBidiStream env streamId sessionId data fin) := by
  have hfinish := finishBidi_closes env streamId sessionId
  unfold continueWtBidiStream
  grind

theorem handleWtBidiStream_closes (goaway : Option VarInt) (streamId : Nat) (data : Bytes)
    (fin : Bool) : ClosesOnly (handleWtBidiStream env goaway streamId data fin) := by
  have hresolve := resolveWtBidiStreamHeader_closes env goaway streamId data
  have hcontinue := fun sessionId => continueWtBidiStream_closes env streamId sessionId data fin
  unfold handleWtBidiStream
  grind

theorem releasePreNegotiation_closes (goaway : Option VarInt) (negotiated : Bool) :
    ClosesOnly (releasePreNegotiation env goaway negotiated) := by
  have hone : ∀ pending streamId,
      ClosesOnly (releaseWaiting env goaway negotiated pending streamId) := by
    intro pending streamId
    have hstream := fun entry : PendingWtBidiPreNegotiation =>
      handleWtBidiStream_closes env goaway streamId entry.data entry.fin
    unfold releaseWaiting ignorePreNegotiation
    grind [wtFits_iff]
  unfold releasePreNegotiation
  grind [wtFits_iff]

theorem processDeferredWtConnects_val (c : Core) :
    (processDeferredWtConnects env c).val =
      ((each (env.order.walk .deferredWtConnects c.wt.deferredWtConnects.keys) fun streamId =>
        processDeferredWtConnect env streamId ((c.wt.deferredWtConnects.lookup streamId).getD []))
        (withoutDeferred c)).val := rfl

theorem processPendingWtBidiPreNegotiation_closes {c : Core} (hids : WtFits c.wt) {e : Error}
    (h : (processPendingWtBidiPreNegotiation env c).val = .error e) : Closes e := by
  by_contra hopen
  exact (releasePreNegotiation_closes env c.lastSentGoawayId
    (isWtFullyNegotiated env c.peerSettings c.wt) c.wt hids).2 e h hopen

theorem configure_error {settings : Settings} {c : Core} {e : Error}
    (h : configure env settings c = .error e) : Closes e := by
  obtain ⟨qpack, hqpack⟩ := applyQpackSettings_ok c.limits settings c.qpack
  rw [configure, hqpack] at h
  cases hcheck : checkWtSettings env c.wt settings with
  | ok u =>
    rw [hcheck] at h
    cases h
  | error e' =>
    rw [hcheck] at h
    cases h
    unfold checkWtSettings at hcheck
    split at hcheck
    · cases hcheck
    · split at hcheck
      · cases hcheck
        exact ⟨_, rfl⟩
      · split at hcheck <;> cases hcheck
        exact ⟨_, rfl⟩

theorem configure_fits {settings : Settings} {c d : Core} (hids : IdsFit none c)
    (h : configure env settings c = .ok d) : d.wt = c.wt ∧ IdsFit none d := by
  rw [configure] at h
  cases hqpack : applyQpackSettings c.limits settings c.qpack with
  | error e =>
    rw [hqpack] at h
    cases h
  | ok qpack =>
    cases hcheck : checkWtSettings env c.wt settings with
    | error e =>
      rw [hqpack, hcheck] at h
      cases h
    | ok u =>
      rw [hqpack, hcheck] at h
      cases h
      have hkept := applyQpackSettings_ids hqpack
      have hfits := hids.modifyQpack (f := fun _ => qpack) hkept.1 hkept.2
      exact ⟨rfl, { hfits with }⟩

theorem handleSettings_val (settings : Settings) (c : Core) :
    (handleSettings env settings c).val =
      match configure env settings c with
      | .error e => .error e
      | .ok d =>
        ((processDeferredWtConnects env >>= fun _ => processPendingWtBidiPreNegotiation env) d).val := by
  simp only [handleSettings, get_bind, configure]
  cases applyQpackSettings c.limits settings c.qpack with
  | error e => rfl
  | ok qpack =>
    simp only [ofExcept_ok, ret_bind, modify_bind]
    cases checkWtSettings env c.wt settings with
    | error e => rfl
    | ok u =>
      simp only [ofExcept_ok, ret_bind, modify_bind, emit_bind]
      rfl

/-- SETTINGS leave the connection open only when they refuse a CONNECT. -/
theorem handleSettings_refuses {settings : Settings} {c : Core} (hids : IdsFit none c) :
    (∃ e, (handleSettings env settings c).val = .error e ∧ ¬Closes e) ↔
      Refuses env c settings := by
  rw [handleSettings_val, Refuses]
  cases hconfigure : configure env settings c with
  | error e =>
    have hcloses := configure_error env hconfigure
    constructor
    · rintro ⟨e', he, hopen⟩
      cases he
      exact absurd hcloses hopen
    · rintro ⟨d, hd, -⟩
      cases hd
  | ok d =>
    obtain ⟨hwt, hfits⟩ := configure_fits env hids hconfigure
    have hadmitted := each_admitted env
      (fun streamId => (d.wt.deferredWtConnects.lookup streamId).getD [])
      (env.order.walk .deferredWtConnects d.wt.deferredWtConnects.keys) (withoutDeferred d)
    rw [← processDeferredWtConnects_val env d] at hadmitted
    have hafter := (processDeferredWtConnects_safe env d hfits).1.wt
    rcases hrun : processDeferredWtConnects env d with ⟨v, t, out⟩
    rw [hrun] at hadmitted hafter
    rw [← hwt]
    dsimp only
    obtain ⟨hok, hall⟩ | ⟨⟨e, herror, hopen⟩, hnot⟩ := hadmitted
    · dsimp only at hok
      subst hok
      rw [bind_ok _ _ _ hrun]
      constructor
      · rintro ⟨e, he, hopen⟩
        exact absurd (processPendingWtBidiPreNegotiation_closes env hafter he) hopen
      · rintro ⟨d', hd', hnot⟩
        cases hd'
        exact absurd hall hnot
    · dsimp only at herror
      subst herror
      rw [bind_error _ _ _ hrun]
      exact iff_of_true ⟨e, rfl, hopen⟩ ⟨d, rfl, hnot⟩

end Waiting

/-! ## Calls with bytes of the stream -/

/-- What shows of the control stream. -/
structure Seen where
  events : List Event
  peerSettings : Option Settings
  peerGoawayLastId : Option VarInt
  maxPushId : Option VarInt
  error : Option Error

def seen (c : Connection) : Seen :=
  ⟨c.events, c.core.peerSettings, c.core.peerGoawayLastId, c.core.maxPushId, c.error⟩

/-- A stream of the peer that was not heard of before. -/
@[mk_iff]
structure NewStream (role : Role) (s : Nat) (c : Core) : Prop where
  uni : (StreamKind.fromStreamId s).isUnidirectional = true
  peer : isLocalInitiatedUni role (.fromStreamId s) = false
  ignored : c.ignoredUniStreams.contains s = false
  control : c.controlRecv.streamId ≠ some s
  encoder : c.qpack.peerEncoderStreamId ≠ some s
  decoder : c.qpack.peerDecoderStreamId ≠ some s
  wtUni : c.wt.wtUniStreams.contains s = false
  pendingWtUni : c.wt.pendingWtUniStreams.contains s = false
  pending : c.pendingUniStreams.contains s = false

instance (role : Role) (s : Nat) (c : Core) : Decidable (NewStream role s c) :=
  decidable_of_iff' _ (newStream_iff role s c)

section Calls

variable (env : Env) {s : Nat} {c : Core} {data : Bytes}

theorem feedStreamInner_uni (huni : (StreamKind.fromStreamId s).isUnidirectional = true)
    (data : Bytes) (fin : Bool) (c : Core) :
    feedStreamInner env s data fin c = handleUnidirectionalStream env s data fin c := by
  simp only [feedStreamInner, get_bind, huni, if_true]

/-- Nothing new arrived. -/
theorem handleUnidirectionalStream_empty (s : Nat) (c : Core) :
    handleUnidirectionalStream env s [] false c = ⟨.ok (), c, []⟩ := by
  simp only [handleUnidirectionalStream, get_bind, ite_run]
  repeat' split
  all_goals first | rfl | contradiction

/-- The stream is the control stream. -/
structure Listens (s : Nat) (c : Core) : Prop where
  stream : c.controlRecv.streamId = some s
  ignored : c.ignoredUniStreams.contains s = false

theorem receiveControl_withBuffer (rest : Bytes) :
    receiveControl env data (withBuffer rest c) =
      loop (processControlFrame env) ((rest ++ data).length + 1) (withBuffer (rest ++ data) c) :=
  rfl

theorem handleUnidirectionalStream_control (h : Listens s c)
    (hpeer : isLocalInitiatedUni env.role (.fromStreamId s) = false) (hdata : data ≠ [])
    (rest : Bytes) :
    handleUnidirectionalStream env s data false (withBuffer rest c) =
      loop (processControlFrame env) ((rest ++ data).length + 1) (withBuffer (rest ++ data) c) := by
  have hnonempty : data.isEmpty = false := by
    cases data with
    | nil => exact absurd rfl hdata
    | cons b data => rfl
  have hignored : (withBuffer rest c).ignoredUniStreams.contains s = false := h.ignored
  have hstream : (withBuffer rest c).controlRecv.streamId = some s := h.stream
  simp only [handleUnidirectionalStream, get_bind, hignored, hpeer, hnonempty, hstream,
    Bool.false_eq_true, if_false, if_true, bind_ret]
  exact receiveControl_withBuffer env rest

/-- As long as the type is not complete, the bytes are kept. -/
theorem handleUnidirectionalStream_fresh (h : NewStream env.role s c) (hdata : data ≠ [])
    (pending : IdMap Bytes) :
    handleUnidirectionalStream env s data false { c with pendingUniStreams := pending } =
      handleNewUnidirectionalStream env s data false { c with pendingUniStreams := pending } := by
  have hnonempty : data.isEmpty = false := by
    cases data with
    | nil => exact absurd rfl hdata
    | cons b data => rfl
  simp only [handleUnidirectionalStream, get_bind, h.ignored, h.peer, hnonempty, h.control,
    h.encoder, h.decoder, h.wtUni, h.pendingWtUni, Bool.false_eq_true, if_false]

theorem handleNew_short (pending : IdMap Bytes) {e : VarInt.DecodeError}
    (h : VarInt.decode (pendingWith pending s data) = .error e) :
    handleNewUnidirectionalStream env s data false { c with pendingUniStreams := pending } =
      ⟨.ok (), { c with pendingUniStreams := pending.insert s (pendingWith pending s data) }, []⟩ := by
  simp only [handleNewUnidirectionalStream, get_bind, h]
  rfl

theorem handleNew_control (pending : IdMap Bytes) {t : VarInt} {k : Nat}
    (h : VarInt.decode (pendingWith pending s data) = .ok (t, k)) (htype : t.get = 0) :
    handleNewUnidirectionalStream env s data false { c with pendingUniStreams := pending } =
      openUniStream env s 0 ((pendingWith pending s data).drop k)
        { c with pendingUniStreams := pending.erase s } := by
  simp only [handleNewUnidirectionalStream, get_bind, h, modify_bind, htype, Bool.false_eq_true,
    if_false, bind_ret]

theorem openUniStream_again (h : c.controlRecv.streamId.isSome = true) (remaining : Bytes) :
    openUniStream env s 0 remaining c =
      ⟨.error (.connectionError .streamCreationError), c, []⟩ := by
  have htype : UniStreamType.fromType 0 = some .control := rfl
  simp only [openUniStream, get_bind, htype, h, if_true]
  rfl

/-- A stream that is opened reads what stands behind its type. -/
theorem openUniStream_control (h : c.controlRecv = .new) (remaining : Bytes) :
    openUniStream env s 0 remaining c =
      loop (processControlFrame env) (remaining.length + 1)
        (withBuffer remaining (openControl s c)) := by
  have htype : UniStreamType.fromType 0 = some .control := rfl
  have hnone : c.controlRecv.streamId.isSome = false := by rw [h]; rfl
  have hempty : openControl s c = withBuffer [] (openControl s c) := by
    simp only [openControl, withBuffer, h]
    rfl
  simp only [openUniStream, get_bind, htype, hnone, Bool.false_eq_true, if_false, modify_bind]
  cases remaining with
  | nil =>
    have hstate : (openControl s c).controlRecv.recvState ≠ .waitingType := by
      rw [openControl, h]
      exact fun hwaiting => by cases hwaiting
    have hrun := processControlFrame_run env hstate []
    have hnone : frameAt (openControl s c).controlRecv.frameRules [] = none := rfl
    simp only [hnone] at hrun
    rw [loop, bind_ok _ _ _ hrun, ← hempty]
    rfl
  | cons b remaining =>
    exact (congrArg (receiveControl env (b :: remaining)) hempty).trans
      (receiveControl_withBuffer env [])

end Calls

/-! ## What a connection has heard -/

section Follows

variable (cfg : Config) (order : HashOrder) (s : Nat) (c : Connection)

/-- A call with bytes of the stream. -/
def hear (data : Bytes) : Connection := (c.feed cfg ⟨order, .feedStream s data false⟩).conn

/-- The bytes in pieces, one call each. -/
def hearAll (pieces : List Bytes) : Connection :=
  after cfg c (pieces.map fun data => ⟨order, .feedStream s data false⟩)

/-- What the frames behind the type come to. -/
def heard (body : Bytes) : Consumer.Progress Error (Core × List Obs) UInt8 :=
  (controlConsumer (cfg.env order)).run (openControl s c.core, []) body

/-- What shows after them. -/
def seenAfter (p : Consumer.Progress Error (Core × List Obs) UInt8) : Seen :=
  ⟨c.events ++ eventsOf p.state.2, p.state.1.peerSettings, p.state.1.peerGoawayLastId,
    p.state.1.maxPushId, p.failure⟩

/-- The connection after bytes that start with a type that is not complete. -/
def waiting (bytes : Bytes) : Connection :=
  { c with core :=
      if bytes = [] then c.core
      else { c.core with pendingUniStreams := c.core.pendingUniStreams.insert s bytes } }

/-- How far the connection came with the bytes. -/
inductive Follows (bytes : Bytes) : Connection → Prop
  | untyped {e : VarInt.DecodeError} (htype : VarInt.decode bytes = .error e) :
      Follows bytes (waiting s c bytes)
  | again {t : VarInt} {k : Nat} (htype : VarInt.decode bytes = .ok (t, k))
      (hopen : c.core.controlRecv.streamId.isSome = true) {d : Connection}
      (hseen : seen d = { seen c with error := some (.connectionError .streamCreationError) }) :
      Follows bytes d
  | first {t : VarInt} {k : Nat} (htype : VarInt.decode bytes = .ok (t, k))
      (hnew : c.core.controlRecv.streamId = none)
      (hwait : frameAt (openControl s c.core).controlRecv.frameRules (bytes.drop k) = none) :
      Follows bytes ⟨withBuffer (bytes.drop k) (openControl s c.core), c.events, none⟩
  | ready {t : VarInt} {k : Nat} {d : Core} {log : List Obs} {rest : Bytes}
      (htype : VarInt.decode bytes = .ok (t, k)) (hnew : c.core.controlRecv.streamId = none)
      (hrun : heard cfg order s c (bytes.drop k) = ⟨(d, log), rest, none⟩)
      (hlistens : Listens s d) (hready : d.controlRecv.recvState = .ready) :
      Follows bytes ⟨withBuffer rest d, c.events ++ eventsOf log, none⟩
  | failed {t : VarInt} {k : Nat} {code : ErrorCode} (htype : VarInt.decode bytes = .ok (t, k))
      (hnew : c.core.controlRecv.streamId = none)
      (hrun : (heard cfg order s c (bytes.drop k)).failure = some (.connectionError code))
      {d : Connection} (hseen : seen d = seenAfter c (heard cfg order s c (bytes.drop k))) :
      Follows bytes d
  | refused {t : VarInt} {k n : Nat} {p : SettingsPayload} {e : Error} {d : Core} {out : List Obs}
      (htype : VarInt.decode bytes = .ok (t, k)) (hnew : c.core.controlRecv.streamId = none)
      (hframe : frameAt (openControl s c.core).controlRecv.frameRules (bytes.drop k) =
        some (.ok (.settings p, n)))
      (hhandle : handleControlFrame (cfg.env order) (.settings p)
        (setRecvState .ready (openControl s c.core)) = ⟨.error e, d, out⟩)
      (hopen : ¬Closes e) :
      Follows bytes ⟨withBuffer ((bytes.drop k).drop n) d, c.events ++ eventsOf out, none⟩

end Follows

section Step

variable {cfg : Config} {order : HashOrder} {s : Nat} {c d : Connection} {data : Bytes}

theorem hear_failed {e : Error} (h : d.error = some e) (data : Bytes) :
    hear cfg order s d data = d :=
  congrArg Step.conn (step_receive h (cfg.env order) (.feedStream s data false) rfl)

/-- The error that a call of the receive side records. -/
def recorded : Except Error Unit → Option Error
  | .error (.connectionError code) => some (.connectionError code)
  | _ => none

theorem hear_run (hopen : d.error = none) {v : Except Error Unit} {t : Core} {out : List Obs}
    (h : feedStreamInner (cfg.env order) s data false d.core = ⟨v, t, out⟩) :
    hear cfg order s d data = ⟨t, d.events ++ eventsOf out, recorded v⟩ := by
  have hbody : body (cfg.env order) (.feedStream s data false) d.core =
      ⟨v.map fun _ => .done, t, out⟩ := by
    simp only [body, unit, bind_run, h]
    cases v with
    | error e => rfl
    | ok u =>
      simp only [ret_run, List.append_nil]
      rfl
  simp only [hear, feed, step, guarded, hopen, exec, hbody]
  rcases v with e | u
  · cases e <;> simp only [remember, Except.map, recorded]
  · simp only [remember, Except.map, recorded]

theorem eventsOf_append (a b : List Obs) : eventsOf (a ++ b) = eventsOf a ++ eventsOf b :=
  List.filterMap_append

/-- A call that went as far as the consumer. -/
theorem hear_ran {log : List Obs} {r : Outcome Error Obs Core Unit}
    {p : Consumer.Progress Error (Core × List Obs) UInt8} (h : Ran log r p)
    (hrun : feedStreamInner (cfg.env order) s data false d.core = r) (hopen : d.error = none)
    (hevents : d.events = c.events ++ eventsOf log) :
    p.failure = none ∧
        hear cfg order s d data =
          ⟨withBuffer p.rest p.state.1, c.events ++ eventsOf p.state.2, none⟩ ∨
      ∃ code, p.failure = some (.connectionError code) ∧
        seen (hear cfg order s d data) = seenAfter c p := by
  cases h with
  | waits t out rest =>
    rw [hear_run hopen hrun, hevents, List.append_assoc, ← eventsOf_append]
    exact .inl ⟨rfl, rfl⟩
  | fails t out buf code =>
    rw [hear_run hopen hrun, hevents, List.append_assoc, ← eventsOf_append]
    exact .inr ⟨code, rfl, rfl⟩

end Step

/-! ## Frames behind SETTINGS -/

section Ready

variable {env : Env}

/-- What happens to a frame behind SETTINGS. -/
theorem controlConsumer_ready {t : Core} (hready : t.controlRecv.recvState = .ready)
    (log : List Obs) (data : Bytes) :
    controlConsumer env (t, log) data =
      match frameAt t.controlRecv.frameRules data with
      | none => .wait
      | some (.error e) => .fail e (t, log)
      | some (.ok (frame, n)) =>
        if checkReady frame then settled log n (handleControlFrame env frame t)
        else .fail (.connectionError .frameUnexpected) (t, log) := by
  have hset : setRecvState .ready t = t := by
    rw [setRecvState, ← hready]
  rw [controlConsumer_eq]
  rcases frameAt t.controlRecv.frameRules data with _ | e | ⟨frame, n⟩
  · rfl
  · rfl
  · simp only [hready, accept, reduceCtorEq, if_false]
    split
    · rename_i heq
      split at heq <;> cases heq
      rw [if_neg ‹_›]
    · rename_i heq
      split at heq <;> cases heq
      rw [if_pos ‹_›, hset]

/-- A run behind SETTINGS is built from its frames. -/
theorem ready_induct
    {P : Core → List Obs → Bytes → Consumer.Progress Error (Core × List Obs) UInt8 → Prop}
    (wait : ∀ t log data, t.controlRecv.recvState = .ready →
      frameAt t.controlRecv.frameRules data = none → P t log data ⟨(t, log), data, none⟩)
    (bad : ∀ t log data code, t.controlRecv.recvState = .ready →
      (∀ frame n, frameAt t.controlRecv.frameRules data = some (.ok (frame, n)) →
        checkReady frame = false) →
      P t log data ⟨(t, log), [], some (.connectionError code)⟩)
    (fail : ∀ t log data frame n code d out, t.controlRecv.recvState = .ready →
      frameAt t.controlRecv.frameRules data = some (.ok (frame, n)) → checkReady frame = true →
      handleControlFrame env frame t = ⟨.error (.connectionError code), d, out⟩ →
      P t log data ⟨(d, log ++ out), [], some (.connectionError code)⟩)
    (take : ∀ t log data frame n d out, t.controlRecv.recvState = .ready →
      frameAt t.controlRecv.frameRules data = some (.ok (frame, n)) → checkReady frame = true →
      handleControlFrame env frame t = ⟨.ok (), d, out⟩ → d.controlRecv = t.controlRecv →
      P d (log ++ out) (data.drop n) ((controlConsumer env).run (d, log ++ out) (data.drop n)) →
      P t log data ((controlConsumer env).run (d, log ++ out) (data.drop n)))
    (t : Core) (log : List Obs) (data : Bytes) (hready : t.controlRecv.recvState = .ready) :
    P t log data ((controlConsumer env).run (t, log) data) := by
  refine Consumer.run_induct (controlConsumer_stable env)
    (P := fun x data p => x.1.controlRecv.recvState = .ready → P x.1 x.2 data p)
    ?_ ?_ ?_ (t, log) data hready
  · rintro ⟨t, log⟩ data hwait hready
    refine wait t log data hready ?_
    rw [controlConsumer_ready hready] at hwait
    split at hwait
    · assumption
    · cases hwait
    · split at hwait
      · exact absurd hwait (settled_ne_wait _ _ _)
      · cases hwait
  · rintro ⟨t, log⟩ data e x hfail hready
    rw [controlConsumer_ready hready] at hfail
    rcases hframe : frameAt t.controlRecv.frameRules data with _ | e' | ⟨frame, n⟩ <;>
      simp only [hframe] at hfail
    · cases hfail
    · cases hfail
      obtain ⟨code, rfl⟩ := frameAt_closes hframe
      exact bad t log data code hready fun frame n h => by rw [hframe] at h; cases h
    · split at hfail
      · rename_i hcheck
        obtain hok | ⟨code, herror⟩ := handleControlFrame_ready env hcheck t <;>
          rcases hhandle : handleControlFrame env frame t with ⟨v, d, out⟩ <;>
          rw [hhandle] at hfail
        · rw [hhandle] at hok
          cases hok
          cases hfail
        · rw [hhandle] at herror
          cases herror
          cases hfail
          exact fail t log data frame n code d out hready hframe hcheck hhandle
      · rename_i hcheck
        cases hfail
        refine bad t log data _ hready fun frame' n' h => ?_
        rw [hframe] at h
        cases h
        exact Bool.eq_false_iff.mpr hcheck
  · rintro ⟨t, log⟩ data n x htake ih hready
    rw [controlConsumer_ready hready] at htake
    rcases hframe : frameAt t.controlRecv.frameRules data with _ | e' | ⟨frame, m⟩ <;>
      simp only [hframe] at htake
    · cases htake
    · cases htake
    · split at htake
      · rename_i hcheck
        have haside := (handleControlFrame_aside env frame t).1
        obtain hok | ⟨code, herror⟩ := handleControlFrame_ready env hcheck t <;>
          rcases hhandle : handleControlFrame env frame t with ⟨v, d, out⟩ <;>
          rw [hhandle] at htake haside
        · rw [hhandle] at hok
          cases hok
          cases htake
          have hnext : d.controlRecv.recvState = .ready := by
            rw [haside]
            exact hready
          exact take t log data frame n d out hready hframe hcheck hhandle haside (ih hnext)
        · rw [hhandle] at herror
          cases herror
          cases htake
      · cases htake

/-- Listening is not undone by frames. -/
theorem run_listens {s : Nat} {t : Core} (log : List Obs) (data : Bytes) (h : Listens s t)
    (hready : t.controlRecv.recvState = .ready) :
    Listens s ((controlConsumer env).run (t, log) data).state.1 ∧
      ((controlConsumer env).run (t, log) data).state.1.controlRecv.recvState = .ready := by
  have hstep : ∀ {t d : Core} {frame : Frame} {v : Except Error Unit} {out : List Obs},
      handleControlFrame env frame t = ⟨v, d, out⟩ → Listens s t →
        t.controlRecv.recvState = .ready → Listens s d ∧ d.controlRecv.recvState = .ready := by
    intro t d frame v out hhandle ht hready
    obtain ⟨hrecv, hignored⟩ := handleControlFrame_aside env frame t
    rw [hhandle] at hrecv hignored
    dsimp only at hrecv hignored
    refine ⟨⟨?_, ?_⟩, ?_⟩
    · rw [hrecv]
      exact ht.stream
    · rw [hignored]
      exact ht.ignored
    · rw [hrecv]
      exact hready
  refine ready_induct
    (P := fun t log data p => Listens s t →
      Listens s p.state.1 ∧ p.state.1.controlRecv.recvState = .ready)
    ?_ ?_ ?_ ?_ t log data hready h
  · intro t log data hready _ ht
    exact ⟨ht, hready⟩
  · intro t log data code hready _ ht
    exact ⟨ht, hready⟩
  · intro t log data frame n code d out hready _ _ hhandle ht
    exact hstep hhandle ht hready
  · intro t log data frame n d out hready _ _ hhandle _ ih ht
    exact ih (hstep hhandle ht hready).1

end Ready

section Follows

variable {cfg : Config} {order : HashOrder} {s : Nat} {c : Connection}

theorem openControl_first (h : c.core.controlRecv = .new) :
    (openControl s c.core).controlRecv.recvState = .waitingSettings := by
  simp only [openControl, h]
  rfl

theorem openControl_listens (hs : NewStream cfg.role s c.core) :
    Listens s (openControl s c.core) := by
  refine ⟨?_, hs.ignored⟩
  simp only [openControl, skipStreamType]
  split <;> rfl

theorem settings_listen (hs : NewStream cfg.role s c.core) {p : SettingsPayload}
    {v : Except Error Unit} {d : Core} {out : List Obs}
    (h : handleControlFrame (cfg.env order) (.settings p)
      (setRecvState .ready (openControl s c.core)) = ⟨v, d, out⟩) :
    Listens s d ∧ d.controlRecv.recvState = .ready := by
  obtain ⟨hrecv, hignored⟩ := handleControlFrame_aside (cfg.env order) (.settings p)
    (setRecvState .ready (openControl s c.core))
  rw [h] at hrecv hignored
  dsimp only at hrecv hignored
  have hlistens := openControl_listens hs
  refine ⟨⟨?_, ?_⟩, ?_⟩
  · rw [hrecv]
    exact hlistens.stream
  · rw [hignored]
    exact hlistens.ignored
  · rw [hrecv]
    rfl

/-- The first frame is SETTINGS, or the stream is in error. -/
theorem heard_settings (hnew : c.core.controlRecv = .new) {body : Bytes}
    (hok : (heard cfg order s c body).failure = none) :
    frameAt (openControl s c.core).controlRecv.frameRules body = none ∧
        heard cfg order s c body = ⟨(openControl s c.core, []), body, none⟩ ∨
      ∃ p n v d out, frameAt (openControl s c.core).controlRecv.frameRules body =
          some (.ok (.settings p, n)) ∧
        handleControlFrame (cfg.env order) (.settings p)
          (setRecvState .ready (openControl s c.core)) = ⟨v, d, out⟩ ∧
        heard cfg order s c body =
          (controlConsumer (cfg.env order)).run (d, out) (body.drop n) := by
  have hfirst := openControl_first (s := s) hnew
  have hconsumer := controlConsumer_eq (cfg.env order) (openControl s c.core) [] body
  rw [hfirst] at hconsumer
  unfold heard at hok ⊢
  rcases hframe : frameAt (openControl s c.core).controlRecv.frameRules body with
    _ | e | ⟨frame, n⟩ <;> simp only [hframe] at hconsumer
  · exact .inl ⟨rfl, Consumer.run_wait hconsumer⟩
  · rw [Consumer.run_fail hconsumer] at hok
    cases hok
  · cases haccept : accept .waitingSettings frame with
    | error e =>
      simp only [haccept] at hconsumer
      rw [Consumer.run_fail hconsumer] at hok
      cases hok
    | ok next =>
      simp only [haccept] at hconsumer
      obtain ⟨rfl, p, rfl⟩ := accept_first haccept
      rcases hhandle : handleControlFrame (cfg.env order) (.settings p)
        (setRecvState .ready (openControl s c.core)) with ⟨v, d, out⟩
      rw [hhandle] at hconsumer
      cases hanswer : settled [] n ⟨v, d, out⟩ with
      | wait => exact absurd hanswer (settled_ne_wait _ _ _)
      | fail e x =>
        rw [Consumer.run_fail (hconsumer.trans hanswer)] at hok
        cases hok
      | take m x =>
        obtain ⟨rfl, rfl⟩ := settled_take hanswer
        refine .inr ⟨p, m, v, d, out, rfl, hhandle, ?_⟩
        exact Consumer.run_take (controlConsumer_stable _) (hconsumer.trans hanswer)

/-- SETTINGS that are refused stop the call. -/
theorem hear_refused (hnew : c.core.controlRecv = .new) {d : Connection} (hopen : d.error = none)
    {p : SettingsPayload} {n : Nat} {e : Error} {t : Core} {out : List Obs} {body data : Bytes}
    (hframe : frameAt (openControl s c.core).controlRecv.frameRules body =
      some (.ok (.settings p, n)))
    (hhandle : handleControlFrame (cfg.env order) (.settings p)
      (setRecvState .ready (openControl s c.core)) = ⟨.error e, t, out⟩)
    (hopen' : ¬Closes e)
    (hrun : feedStreamInner (cfg.env order) s data false d.core =
      loop (processControlFrame (cfg.env order)) (body.length + 1)
        (withBuffer body (openControl s c.core))) :
    hear cfg order s d data = ⟨withBuffer (body.drop n) t, d.events ++ eventsOf out, none⟩ := by
  have hrefused := loop_first_refused (openControl_first hnew) hframe hhandle body.length
  have hnothing : recorded (.error e) = none := by
    cases e with
    | connectionError code => exact absurd ⟨code, rfl⟩ hopen'
    | _ => rfl
  rw [hear_run hopen (hrun.trans hrefused), hnothing]

/-- What the bytes come to when the stream is opened, or when SETTINGS arrive. -/
theorem follows_first (hs : NewStream cfg.role s c.core) (hnew : c.core.controlRecv = .new)
    {bytes : Bytes} {t : VarInt} {k : Nat} (htype : VarInt.decode bytes = .ok (t, k))
    {d : Connection} (hopen : d.error = none) (hevents : d.events = c.events) {data : Bytes}
    (hrun : feedStreamInner (cfg.env order) s data false d.core =
      loop (processControlFrame (cfg.env order)) ((bytes.drop k).length + 1)
        (withBuffer (bytes.drop k) (openControl s c.core))) :
    Follows cfg order s c bytes (hear cfg order s d data) := by
  have hnone : c.core.controlRecv.streamId = none := by rw [hnew]; rfl
  have hfirst := openControl_first (s := s) hnew
  by_cases hvalid : NotRefused (cfg.env order) (openControl s c.core) (bytes.drop k)
  · have hran := loop_first_ran hfirst hvalid _ (Nat.lt_succ_self (bytes.drop k).length)
    have hlog : d.events = c.events ++ eventsOf [] := by
      rw [hevents]
      exact (List.append_nil _).symm
    obtain ⟨hfailure, hconn⟩ | ⟨code, hfailure, hseen⟩ := hear_ran hran hrun hopen hlog
    · rw [hconn]
      obtain ⟨hframe, hheard⟩ | ⟨p, n, v, t, out, hframe, hhandle, hheard⟩ :=
        heard_settings hnew hfailure
      · unfold heard at hheard
        rw [hheard]
        have hfollows : Follows cfg order s c bytes _ := .first htype hnone hframe
        rwa [← List.append_nil c.events] at hfollows
      · obtain ⟨hlistens, hready⟩ := settings_listen hs hhandle
        obtain ⟨hlistens, hready⟩ :=
          @run_listens (cfg.env order) s t out ((bytes.drop k).drop n) hlistens hready
        rw [← hheard] at hlistens hready
        refine .ready htype hnone ?_ hlistens hready
        rw [← hfailure]
        rfl
    · exact .failed htype hnone hfailure hseen
  · unfold NotRefused at hvalid
    push Not at hvalid
    obtain ⟨p, n, hframe, e, he, hopen'⟩ := hvalid
    rcases hhandle : handleControlFrame (cfg.env order) (.settings p)
      (setRecvState .ready (openControl s c.core)) with ⟨v, t, out⟩
    rw [hhandle] at he
    dsimp only at he
    subst he
    have hconn := hear_refused hnew hopen hframe hhandle hopen' hrun
    rw [hevents] at hconn
    rw [hconn]
    exact .refused htype hnone hframe hhandle hopen'

/-- Nothing arrives. -/
theorem hear_nil (hs : NewStream cfg.role s c.core) (d : Connection) :
    hear cfg order s d [] = d := by
  cases herror : d.error with
  | some e => exact hear_failed herror []
  | none =>
    have hrun : feedStreamInner (cfg.env order) s [] false d.core = ⟨.ok (), d.core, []⟩ := by
      rw [feedStreamInner_uni _ hs.uni, handleUnidirectionalStream_empty]
    have hevents : d.events ++ eventsOf [] = d.events := List.append_nil _
    have hconn := hear_run herror hrun
    rw [hevents] at hconn
    refine hconn.trans ?_
    show (⟨d.core, d.events, none⟩ : Connection) = d
    rw [← herror]

/-- A piece for a stream that waits for the next frame. -/
theorem follows_ready (hs : NewStream cfg.role s c.core) (hnew : c.core.controlRecv.streamId = none)
    {bytes : Bytes} {t : VarInt} {k : Nat} (htype : VarInt.decode bytes = .ok (t, k)) {d : Core}
    {log : List Obs} {rest data : Bytes} (hlistens : Listens s d)
    (hready : d.controlRecv.recvState = .ready) (hdata : data ≠ [])
    (hheard : heard cfg order s c (bytes.drop k) =
      (controlConsumer (cfg.env order)).run (d, log) (rest ++ data)) :
    Follows cfg order s c bytes
      (hear cfg order s ⟨withBuffer rest d, c.events ++ eventsOf log, none⟩ data) := by
  have hrun : feedStreamInner (cfg.env order) s data false (withBuffer rest d) =
      loop (processControlFrame (cfg.env order)) ((rest ++ data).length + 1)
        (withBuffer (rest ++ data) d) := by
    rw [feedStreamInner_uni _ hs.uni]
    exact handleUnidirectionalStream_control _ hlistens hs.peer hdata rest
  have hran : Ran log (loop (processControlFrame (cfg.env order)) ((rest ++ data).length + 1)
      (withBuffer (rest ++ data) d)) (heard cfg order s c (bytes.drop k)) := by
    rw [hheard]
    exact loop_ran log hready _ (Nat.lt_succ_self _)
  have hconn := hear_ran (c := c)
    (d := ⟨withBuffer rest d, c.events ++ eventsOf log, none⟩) hran hrun rfl rfl
  obtain ⟨hfailure, hconn⟩ | ⟨code, hfailure, hseen⟩ := hconn
  · rw [hconn]
    obtain ⟨hlistens, hready⟩ :=
      @run_listens (cfg.env order) s d log (rest ++ data) hlistens hready
    rw [← hheard] at hlistens hready
    refine .ready htype hnew ?_ hlistens hready
    rw [← hfailure]
  · exact .failed htype hnew hfailure hseen

theorem pendingWith_waiting (hs : NewStream cfg.role s c.core) (bytes data : Bytes) :
    pendingWith (waiting s c bytes).core.pendingUniStreams s data = bytes ++ data := by
  have hnone : c.core.pendingUniStreams.lookup s = none := by
    have hpending := hs.pending
    rwa [IdMap.contains, Option.isSome_eq_false_iff, Option.isNone_iff_eq_none] at hpending
  unfold pendingWith waiting
  by_cases hbytes : bytes = []
  · simp [hbytes, hnone]
  · simp [hbytes]

theorem waiting_core (bytes : Bytes) :
    (waiting s c bytes).core =
      { c.core with pendingUniStreams := (waiting s c bytes).core.pendingUniStreams } := by
  unfold waiting
  by_cases hbytes : bytes = []
  · simp only [hbytes, if_true]
  · simp only [hbytes, if_false]

theorem waiting_insert (bytes buf : Bytes) :
    (waiting s c bytes).core.pendingUniStreams.insert s buf =
      c.core.pendingUniStreams.insert s buf := by
  unfold waiting
  by_cases hbytes : bytes = []
  · simp only [hbytes, if_true]
  · simp only [hbytes, if_false]
    exact AList.insert_insert _

theorem waiting_erase (hs : NewStream cfg.role s c.core) (bytes : Bytes) :
    (waiting s c bytes).core.pendingUniStreams.erase s = c.core.pendingUniStreams := by
  unfold waiting
  by_cases hbytes : bytes = []
  · simp only [hbytes, if_true]
    exact IdMap.erase_absent hs.pending
  · simp only [hbytes, if_false]
    exact IdMap.erase_insert_absent hs.pending _

theorem waiting_feed (hs : NewStream cfg.role s c.core) (bytes : Bytes) {data : Bytes}
    (hdata : data ≠ []) :
    feedStreamInner (cfg.env order) s data false (waiting s c bytes).core =
      handleNewUnidirectionalStream (cfg.env order) s data false
        { c.core with pendingUniStreams := (waiting s c bytes).core.pendingUniStreams } := by
  rw [feedStreamInner_uni _ hs.uni, waiting_core]
  exact handleUnidirectionalStream_fresh _ hs hdata _

/-- The type is complete and that of a control stream. -/
theorem waiting_typed (hs : NewStream cfg.role s c.core) {bytes data : Bytes} (hdata : data ≠ [])
    {t : VarInt} {k : Nat} (hdecode : VarInt.decode (bytes ++ data) = .ok (t, k))
    (htype : t.get = 0) :
    feedStreamInner (cfg.env order) s data false (waiting s c bytes).core =
      openUniStream (cfg.env order) s 0 ((bytes ++ data).drop k) c.core := by
  have hwith := pendingWith_waiting hs bytes data
  have hrun := handleNew_control (cfg.env order) (c := c.core)
    (waiting s c bytes).core.pendingUniStreams (hwith.symm ▸ hdecode) htype
  rw [hwith, waiting_erase hs] at hrun
  exact (waiting_feed hs bytes hdata).trans hrun

/-- A piece for a stream whose type is not complete. -/
theorem follows_untyped (hs : NewStream cfg.role s c.core) (hopen : c.error = none)
    (hunopened : Unopened c.core) {bytes data : Bytes} (hdata : data ≠ [])
    (htype : ∀ t k, VarInt.decode (bytes ++ data) = .ok (t, k) → t.get = 0) :
    Follows cfg order s c (bytes ++ data) (hear cfg order s (waiting s c bytes) data) := by
  have hevents : c.events ++ eventsOf [] = c.events := List.append_nil _
  have hnonempty : bytes ++ data ≠ [] := by simp [hdata]
  have herror : (waiting s c bytes).error = none := hopen
  cases hdecode : VarInt.decode (bytes ++ data) with
  | error e =>
    have hwith := pendingWith_waiting hs bytes data
    have hrun := handleNew_short (cfg.env order) (c := c.core)
      (waiting s c bytes).core.pendingUniStreams (hwith.symm ▸ hdecode)
    rw [hwith, waiting_insert] at hrun
    have hconn := hear_run herror ((waiting_feed hs bytes hdata).trans hrun)
    have hwaiting : waiting s c (bytes ++ data) = ⟨{ c.core with
        pendingUniStreams := c.core.pendingUniStreams.insert s (bytes ++ data) },
        c.events ++ eventsOf [], none⟩ := by
      rw [hevents, waiting, if_neg hnonempty, ← hopen]
    have hsame : hear cfg order s (waiting s c bytes) data = waiting s c (bytes ++ data) :=
      hconn.trans hwaiting.symm
    rw [hsame]
    exact .untyped hdecode
  | ok r =>
    obtain ⟨t, k⟩ := r
    have hrun : feedStreamInner (cfg.env order) s data false (waiting s c bytes).core = _ :=
      waiting_typed hs hdata hdecode (htype t k hdecode)
    cases hstream : c.core.controlRecv.streamId with
    | some other =>
      have hsome : c.core.controlRecv.streamId.isSome = true := by rw [hstream]; rfl
      have hagain := openUniStream_again (cfg.env order) (s := s) hsome ((bytes ++ data).drop k)
      refine .again hdecode hsome ?_
      rw [hear_run herror (hrun.trans hagain)]
      show (⟨c.events ++ eventsOf [], _, _, _, _⟩ : Seen) = _
      rw [hevents]
      rfl
    | none =>
      have hnew := (hunopened hstream).1
      have hcontrol := openUniStream_control (cfg.env order) (s := s) hnew
        ((bytes ++ data).drop k)
      exact follows_first hs hnew hdecode herror rfl (hrun.trans hcontrol)

/-- A type that is complete stays, and what stands behind it grows. -/
theorem decode_more {bytes : Bytes} {t : VarInt} {k : Nat}
    (h : VarInt.decode bytes = .ok (t, k)) (data : Bytes) :
    VarInt.decode (bytes ++ data) = .ok (t, k) ∧ (bytes ++ data).drop k = bytes.drop k ++ data := by
  have hk := VarInt.decode_stable.fits h
  refine ⟨?_, List.drop_append_of_le_length hk⟩
  rw [VarInt.decode_append h data]

/-- One more piece. -/
theorem Follows.hear (hs : NewStream cfg.role s c.core) (hopen : c.error = none)
    (hunopened : Unopened c.core) {bytes : Bytes}
    {d : Connection} (h : Follows cfg order s c bytes d) (data : Bytes)
    (htype : ∀ t k, VarInt.decode (bytes ++ data) = .ok (t, k) → t.get = 0) :
    Follows cfg order s c (bytes ++ data) (hear cfg order s d data) := by
  by_cases hdata : data = []
  · subst hdata
    rwa [List.append_nil, hear_nil hs]
  have hstable := controlConsumer_stable (cfg.env order)
  cases h with
  | untyped herror => exact follows_untyped hs hopen hunopened hdata htype
  | again htype' hsome hseen =>
    have herror : d.error = some (.connectionError .streamCreationError) := congrArg Seen.error hseen
    rw [hear_failed herror]
    exact .again (decode_more htype' data).1 hsome hseen
  | @first t k htype' hnew hwait =>
    obtain ⟨hdecode, hdrop⟩ := decode_more htype' data
    refine follows_first hs (hunopened hnew).1 hdecode
      (d := ⟨withBuffer (bytes.drop k) (openControl s c.core), c.events, none⟩) rfl rfl ?_
    rw [hdrop, feedStreamInner_uni _ hs.uni]
    exact handleUnidirectionalStream_control _ (openControl_listens hs) hs.peer hdata _
  | @ready t k d log rest htype' hnew hrun hlistens hready =>
    obtain ⟨hdecode, hdrop⟩ := decode_more htype' data
    refine follows_ready hs hnew hdecode hlistens hready hdata ?_
    unfold heard at hrun ⊢
    rw [hdrop, Consumer.run_append hstable, hrun]
    rfl
  | @failed t k code htype' hnew hfailure d hseen =>
    obtain ⟨hdecode, hdrop⟩ := decode_more htype' data
    have herror : d.error = some (.connectionError code) :=
      (congrArg Seen.error hseen).trans hfailure
    have hsame : heard cfg order s c ((bytes ++ data).drop k) = heard cfg order s c (bytes.drop k) := by
      unfold heard at hfailure ⊢
      rw [hdrop, Consumer.run_append hstable, Consumer.feed, hfailure]
    rw [hear_failed herror]
    rw [← hsame] at hfailure hseen
    exact .failed hdecode hnew hfailure hseen
  | @refused t k n p e d out htype' hnew hframe hhandle hopen' =>
    obtain ⟨hdecode, hdrop⟩ := decode_more htype' data
    obtain ⟨hlistens, hready⟩ := settings_listen hs hhandle
    refine follows_ready hs hnew hdecode hlistens hready hdata ?_
    have hmore := frameAt_append (fun h => by rw [hframe] at h; cases h) data
    rw [hframe] at hmore
    have hrefused := run_first_refused (openControl_first (hunopened hnew).1) hmore hopen' hhandle
    unfold heard
    rw [hdrop, hrefused, List.drop_append_of_le_length (frameAt_bounds hframe).2]

/-- All pieces, one after the other. -/
theorem Follows.hearAll (hs : NewStream cfg.role s c.core) (hopen : c.error = none)
    (hunopened : Unopened c.core) {bytes : Bytes} {d : Connection}
    (h : Follows cfg order s c bytes d) (pieces : List Bytes)
    (htype : ∀ t k, VarInt.decode (bytes ++ pieces.flatten) = .ok (t, k) → t.get = 0) :
    Follows cfg order s c (bytes ++ pieces.flatten) (hearAll cfg order s d pieces) := by
  induction pieces generalizing bytes d with
  | nil =>
    rw [List.flatten_nil, List.append_nil]
    exact h
  | cons piece pieces ih =>
    rw [List.flatten_cons, ← List.append_assoc] at htype ⊢
    have hpiece : ∀ t k, VarInt.decode (bytes ++ piece) = .ok (t, k) → t.get = 0 :=
      fun t k hdecode => htype t k (decode_more hdecode pieces.flatten).1
    exact ih (h.hear hs hopen hunopened piece hpiece) htype

theorem follows_nil (s : Nat) (c : Connection) : Follows cfg order s c [] c := by
  have hsame : waiting s c [] = c := by
    unfold waiting
    rw [if_pos rfl]
  have herror : VarInt.decode [] = .error .bufferTooShort := rfl
  have hfollows : Follows cfg order s c [] (waiting s c []) := .untyped herror
  rwa [hsame] at hfollows

end Follows

end Connection

end Http3
