import Http3.Connection.Panics
import Http3.Connection.Rejected

/-!
# What waits for SETTINGS

A server sets WebTransport requests and WT_STREAMs aside until SETTINGS arrive. The specification
settles each of them on its own: a request that is refused, or a stream with a bad header, concerns
no other. The code passes the first error on, so it meets the specification exactly when there is
no error to pass on.
-/

namespace Http3

namespace Connection

open Proc

/-! ## Each on its own -/

/-- A deferred CONNECT opens its session; the DATA that came with it goes along. -/
def acceptDeferred (env : Env) (streamId : Nat) (headers : List Header) : CoreProc Unit := do
  let c ← get
  registerWtConnectSession env streamId headers
  match c.streams.lookup streamId with
  | some stream =>
    onWt (modify fun w => { w with
      wtSessions := w.wtSessions.update streamId fun s =>
        { s with capsuleBuf := s.capsuleBuf ++ stream.recvBody } })
  | none => ret ()
  emitAll (headerEvents streamId headers)

/-- A deferred CONNECT is accepted, or refused with an event. -/
def settleConnect (env : Env) (code : Error → WtErrorCode) (streamId : Nat)
    (headers : List Header) : CoreProc Unit := do
  let c ← get
  match validateWtConnectRequestServer env c.peerSettings c.wt streamId headers with
  | .ok _ => acceptDeferred env streamId headers
  | .error e => onWt (rejectStream streamId (code e))

/-- A WT_STREAM that waited is dispatched, or rejected with an event. -/
def settleWaiting (env : Env) (goaway : Option VarInt) (negotiated : Bool)
    (code : Error → WtErrorCode) (pending : IdMap PendingWtBidiPreNegotiation) (streamId : Nat) :
    WtProc Unit := do
  match ← attempt (releaseWaiting env goaway negotiated pending streamId) with
  | .ok _ => ret ()
  | .error e => rejectStream streamId (code e)

def settleConnects (env : Env) (code : Error → WtErrorCode) : CoreProc Unit := do
  let c ← get
  onWt (modify fun w => { w with deferredWtConnects := ∅ })
  each (env.order.walk .deferredWtConnects c.wt.deferredWtConnects.keys) fun streamId =>
    settleConnect env code streamId ((c.wt.deferredWtConnects.lookup streamId).getD [])

def settleStreams (env : Env) (goaway : Option VarInt) (negotiated : Bool)
    (code : Error → WtErrorCode) : WtProc Unit := do
  let w ← get
  modify fun w => { w with pendingWtBidiPreNegotiation := ∅ }
  each (env.order.walk .pendingWtBidiPreNegotiation w.pendingWtBidiPreNegotiation.keys)
    (settleWaiting env goaway negotiated code w.pendingWtBidiPreNegotiation)

/-- SETTINGS take effect, then everything that waited for them is settled. -/
def settleSettings (env : Env) (code : Error → WtErrorCode) (settings : Settings) :
    CoreProc Unit := do
  let c ← get
  let qpack ← ofExcept (applyQpackSettings c.limits settings c.qpack)
  modify fun c => { c with qpack }
  modify fun c => { c with peerSettings := some settings }
  emit (.event (.settingsReceived settings settings.wtSettings))
  settleConnects env code
  let c ← get
  onWt (settleStreams env c.lastSentGoawayId (isWtFullyNegotiated env c.peerSettings c.wt) code)

/-- The frame with SETTINGS settles each item on its own, whatever the code of a refusal is, and the
frames behind it come next. -/
structure SettlesEach (env : Env) (c : Core) (settings : Settings) (recv : ControlStreamRecv) :
    Prop where
  goesOn : (processControlFrame env c).val = .ok true
  settled : ∃ code, processControlFrame env c =
    (settleSettings env code settings >>= fun _ => ret true) { c with controlRecv := recv }

/-! ## When there is no error to pass on -/

/-- The tables after a deferred CONNECT is accepted, with the body of its stream. -/
def admitSession (streamId : Nat) (headers : List Header) (body : Option Bytes) (w : WtState) :
    WtState :=
  let w :=
    if isWebtransportConnect headers then
      putSession streamId (((w.wtSessions.lookup streamId).getD .new).offer headers) w
    else w
  match body with
  | some body => { w with
      wtSessions := w.wtSessions.update streamId fun s =>
        { s with capsuleBuf := s.capsuleBuf ++ body } }
  | none => w

/-- Does each request pass the checks, given those accepted before it? -/
def allAdmitted (env : Env) (settings : Settings) (body : Nat → Option Bytes)
    (deferred : IdMap (List Header)) : List Nat → WtState → Bool
  | [], _ => true
  | streamId :: l, w =>
    let headers := (deferred.lookup streamId).getD []
    succeeded (validateWtConnectRequestServer env (some settings) w streamId headers) &&
      allAdmitted env settings body deferred l (admitSession streamId headers (body streamId) w)

def bodyOf (c : Core) (streamId : Nat) : Option Bytes :=
  (c.streams.lookup streamId).map RequestStream.recvBody

/-- No deferred CONNECT has to be refused. -/
def allValid (env : Env) (settings : Settings) (c : Core) : Bool :=
  allAdmitted env settings (bodyOf c) c.wt.deferredWtConnects
    (env.order.walk .deferredWtConnects c.wt.deferredWtConnects.keys)
    { c.wt with deferredWtConnects := ∅ }

/-- The bytes of a WT_STREAM, up to where they end, name the stream of a request. -/
def headerAllowed (data : Bytes) : Bool :=
  match VarInt.decode data with
  | .error _ => true
  | .ok (signalValue, signalLen) =>
    signalValue.get = 0x41 &&
      match VarInt.decode (data.drop signalLen) with
      | .error _ => true
      | .ok (sessionId, _) => sessionId.get % 4 = 0

/-- No WT_STREAM that waits has a bad header, or none of them is dispatched. -/
def allDispatchable (env : Env) (settings : Settings) (w : WtState) : Bool :=
  !isWtFullyNegotiated env (some settings) w ||
    w.pendingWtBidiPreNegotiation.keys.all fun s =>
      (w.pendingWtBidiPreNegotiation.lookup s).all fun entry => headerAllowed entry.data

theorem allDispatchable_iff (env : Env) (settings : Settings) (w : WtState) :
    allDispatchable env settings w = true ↔
      (isWtFullyNegotiated env (some settings) w = true →
        ∀ s entry, w.pendingWtBidiPreNegotiation.lookup s = some entry →
          headerAllowed entry.data = true) := by
  have hkeys : (w.pendingWtBidiPreNegotiation.keys.all fun s =>
        (w.pendingWtBidiPreNegotiation.lookup s).all fun entry => headerAllowed entry.data) = true ↔
      ∀ s entry, w.pendingWtBidiPreNegotiation.lookup s = some entry →
        headerAllowed entry.data = true := by
    simp only [List.all_eq_true, Option.all_eq_true, IdMap.mem_keys_iff]
    exact ⟨fun h s entry hs => h s ⟨entry, hs⟩ entry hs, fun h s _ entry hs => h s entry hs⟩
  rw [allDispatchable, Bool.or_eq_true, hkeys]
  cases isWtFullyNegotiated env (some settings) w <;> simp

/-! ## The code does the same where it succeeds -/

section Extends

variable (env : Env) (code : Error → WtErrorCode)

/-- The check first; a request that passes it is accepted. -/
theorem processDeferredWtConnect_run (c : Core) (streamId : Nat) (headers : List Header) :
    processDeferredWtConnect env streamId headers c =
      (ofExcept (validateWtConnectRequestServer env c.peerSettings c.wt streamId headers) >>=
        fun _ => acceptDeferred env streamId headers) c := by
  rw [processDeferredWtConnect, get_bind]
  cases validateWtConnectRequestServer env c.peerSettings c.wt streamId headers with
  | ok _ => rfl
  | error e => rfl

theorem settleConnect_extends (streamId : Nat) (headers : List Header) :
    Extends (settleConnect env code streamId headers)
      (processDeferredWtConnect env streamId headers) := by
  intro c a h
  rw [processDeferredWtConnect_run] at h ⊢
  rw [settleConnect, get_bind]
  cases hv : validateWtConnectRequestServer env c.peerSettings c.wt streamId headers with
  | ok _ => rfl
  | error e =>
    rw [hv] at h
    cases h

theorem settleConnects_extends :
    Extends (settleConnects env code) (processDeferredWtConnects env) := by
  refine Extends.bind (.refl _) fun c => Extends.bind (.refl _) fun _ => ?_
  exact .each (fun streamId => settleConnect_extends env code streamId _) _

theorem settleStreams_extends (goaway : Option VarInt) (negotiated : Bool) :
    Extends (settleStreams env goaway negotiated code)
      (releasePreNegotiation env goaway negotiated) := by
  refine Extends.bind (.refl _) fun w => Extends.bind (.refl _) fun _ => ?_
  exact .each (fun streamId => .attempt fun _ => rfl) _

theorem settleSettings_extends (settings : Settings) :
    Extends (settleSettings env code settings) (handleSettings env settings) := by
  refine Extends.bind (.refl _) fun c => Extends.bind (.refl _) fun qpack => ?_
  refine Extends.bind (.refl _) fun _ => Extends.ofExcept_bind fun _ _ => ?_
  refine Extends.bind (.refl _) fun _ => Extends.bind (.refl _) fun _ => ?_
  refine Extends.bind (settleConnects_extends env code) fun _ => ?_
  exact Extends.bind (.refl _) fun c => (settleStreams_extends env code _ _).zoom

end Extends

/-! ## The requests -/

section Requests

variable (env : Env) (settings : Settings)

/-- What an accepted request changes. -/
theorem acceptDeferred_run (hserver : env.role = .server) (streamId : Nat) (headers : List Header)
    (c : Core) :
    ∃ streams o, acceptDeferred env streamId headers c =
        ⟨.ok (), { c with
          wt := admitSession streamId headers (bodyOf c streamId) c.wt, streams }, o⟩ ∧
      ∀ k, (streams.lookup k).map RequestStream.recvBody = bodyOf c k := by
  have hflags : ∀ k, ((c.streams.update streamId fun s =>
      { s with isConnect := true, isWtConnect := true }).lookup k).map RequestStream.recvBody =
        bodyOf c k := by
    intro k
    rw [IdMap.lookup_update_eq]
    split
    · rename_i hk
      rw [hk, Option.map_map]
      rfl
    · rfl
  cases hwt : isWebtransportConnect headers with
  | false =>
    refine ⟨c.streams, headerEvents streamId headers, ?_, fun _ => rfl⟩
    cases hs : c.streams.lookup streamId <;>
      simp [acceptDeferred, registerWtConnectSession, hserver, hwt, hs, onWt, bind_run, zoom_run,
        admitSession, bodyOf]
  | true =>
    refine ⟨_, .wtConnect streamId :: headerEvents streamId headers, ?_, hflags⟩
    cases hs : c.streams.lookup streamId <;>
      simp [acceptDeferred, registerWtConnectSession, registerSession, hserver, hwt, hs, onWt,
        bind_run, zoom_run, admitSession, bodyOf, modifyStream]

theorem admitSession_tables (streamId : Nat) (headers : List Header) (body : Option Bytes)
    (w : WtState) :
    ∃ sessions, admitSession streamId headers body w = { w with wtSessions := sessions } := by
  unfold admitSession
  dsimp only
  split <;> split <;> exact ⟨_, rfl⟩

theorem each_deferred (hserver : env.role = .server) (deferred : IdMap (List Header))
    (l : List Nat) (c : Core) (hpeer : c.peerSettings = some settings) :
    ((each l (fun streamId => processDeferredWtConnect env streamId
        ((deferred.lookup streamId).getD [])) c).val = .ok () ↔
      allAdmitted env settings (bodyOf c) deferred l c.wt = true) ∧
    ∃ sessions streams, (each l (fun streamId => processDeferredWtConnect env streamId
        ((deferred.lookup streamId).getD [])) c).st =
      { c with wt := { c.wt with wtSessions := sessions }, streams } := by
  induction l generalizing c with
  | nil => exact ⟨⟨fun _ => rfl, fun _ => rfl⟩, _, _, rfl⟩
  | cons streamId l ih =>
    have hrun := processDeferredWtConnect_run env c streamId ((deferred.lookup streamId).getD [])
    rw [hpeer] at hrun
    simp only [allAdmitted, each]
    cases hv : validateWtConnectRequestServer env (some settings) c.wt streamId
        ((deferred.lookup streamId).getD []) with
    | error e =>
      rw [hv] at hrun
      rw [bind_error _ _ _ hrun]
      exact ⟨by simp, _, _, rfl⟩
    | ok _ =>
      obtain ⟨streams, o, haccept, hbody⟩ := acceptDeferred_run env hserver streamId
        ((deferred.lookup streamId).getD []) c
      obtain ⟨sessions, hadmit⟩ := admitSession_tables streamId ((deferred.lookup streamId).getD [])
        (bodyOf c streamId) c.wt
      rw [hv] at hrun
      rw [bind_ok _ _ _ (hrun.trans haccept), hadmit, succeeded_ok, Bool.true_and]
      obtain ⟨hiff, sessions', streams', hst⟩ :=
        ih { c with wt := { c.wt with wtSessions := sessions }, streams } hpeer
      rw [show bodyOf { c with wt := { c.wt with wtSessions := sessions }, streams } = bodyOf c
        from funext hbody] at hiff
      exact ⟨hiff, sessions', streams', hst⟩

theorem processDeferredWtConnects_run (hserver : env.role = .server) {c : Core}
    (hpeer : c.peerSettings = some settings) :
    ((processDeferredWtConnects env c).val = .ok () ↔ allValid env settings c = true) ∧
    ∃ sessions streams, (processDeferredWtConnects env c).st =
      { c with
        wt := { c.wt with deferredWtConnects := ∅, wtSessions := sessions }, streams } :=
  each_deferred env settings hserver c.wt.deferredWtConnects
    (env.order.walk .deferredWtConnects c.wt.deferredWtConnects.keys)
    { c with wt := { c.wt with deferredWtConnects := ∅ } } hpeer

end Requests

/-! ## The streams -/

section Streams

variable (env : Env) (goaway : Option VarInt)

/-- The header of a new stream is the only thing that can be wrong with it. -/
theorem resolveHeader_ok_iff {w : WtState} (hw : WtFits w) {streamId : Nat}
    (hnew : w.pendingWtBidiStreams.contains streamId = false) (data : Bytes) :
    (resolveWtBidiStreamHeader env goaway streamId data w).val = .ok () ↔
      headerAllowed data = true := by
  have hbuf : pendingWith w.pendingWtBidiStreams streamId data = data := by
    have hnone : w.pendingWtBidiStreams.lookup streamId = none :=
      Option.not_isSome_iff_eq_none.mp (Bool.eq_false_iff.mp hnew)
    rw [pendingWith, hnone]
    rfl
  simp only [resolveWtBidiStreamHeader, get_bind, hbuf, headerAllowed]
  cases hsignal : VarInt.decode data with
  | error e => exact ⟨fun _ => rfl, fun _ => rfl⟩
  | ok r =>
    obtain ⟨signalValue, signalLen⟩ := r
    by_cases hvalue : signalValue.get = 0x41
    · cases hid : VarInt.decode (data.drop signalLen) with
      | error e => simp [hvalue, hid]
      | ok r =>
        obtain ⟨sessionId, idLen⟩ := r
        by_cases hfour : sessionId.get % 4 = 0
        · obtain ⟨a, ha⟩ := Safe.succeeds (openStream_safe env goaway true streamId
            (varInt_le sessionId) ((data.drop signalLen).drop idLen)) hw
          simp [hvalue, hid, hfour, ha, -List.drop_drop]
        · simp [hvalue, hid, hfour]
    · simp [hvalue]

theorem handleWtBidiStream_ok_iff {w : WtState} (hw : WtFits w) {streamId : Nat}
    (hnew : isDataStream w streamId = false) (data : Bytes) (fin : Bool) :
    (handleWtBidiStream env goaway streamId data fin w).val = .ok () ↔
      headerAllowed data = true := by
  obtain ⟨hbidi, hpending⟩ := Bool.or_eq_false_iff.mp hnew
  have hnone : w.wtBidiStreams.lookup streamId = none :=
    Option.not_isSome_iff_eq_none.mp (Bool.eq_false_iff.mp hbidi)
  simp only [handleWtBidiStream, get_bind, hnone]
  rw [← resolveHeader_ok_iff env goaway hw hpending data]
  constructor
  · intro h
    obtain ⟨a, t, o, hrun, _⟩ := bind_ok_inv h
    rw [hrun]
  · intro h
    have hfits := (resolveWtBidiStreamHeader_safe env goaway streamId data w hw).1
    have hfinish : Safe (fun _ => True) WtFits
        (if fin = true then finishResolved streamId else ret ()) := by grind
    obtain ⟨a, ha⟩ := hfinish.succeeds hfits
    rcases hrun : resolveWtBidiStreamHeader env goaway streamId data w with ⟨val, t, o⟩
    rw [hrun] at h ha
    rw [show val = .ok () from h] at hrun
    rw [bind_ok _ _ _ hrun]
    exact ha

theorem releaseWaiting_ok_iff {w : WtState} (hw : WtFits w) {streamId : Nat}
    (hnew : isDataStream w streamId = false) (negotiated : Bool)
    (pending : IdMap PendingWtBidiPreNegotiation) :
    (releaseWaiting env goaway negotiated pending streamId w).val = .ok () ↔
      (negotiated = true → ∀ entry, pending.lookup streamId = some entry →
        headerAllowed entry.data = true) := by
  cases hentry : pending.lookup streamId with
  | none => simp [releaseWaiting, hentry]
  | some entry =>
    cases negotiated with
    | false =>
      simp [releaseWaiting, hentry, ignorePreNegotiation, rejectStream]
    | true =>
      simp only [releaseWaiting, hentry, if_true, handleWtBidiStream_ok_iff env goaway hw hnew,
        Option.some.injEq, forall_eq', forall_const]

/-- Only the stream itself becomes a data stream. -/
theorem releaseWaiting_dataStream {w : WtState} {x y : Nat} (negotiated : Bool)
    (pending : IdMap PendingWtBidiPreNegotiation)
    (h : isDataStream (releaseWaiting env goaway negotiated pending x w).st y = true) :
    y = x ∨ isDataStream w y = true := by
  cases hentry : pending.lookup x with
  | none =>
    simp only [releaseWaiting, hentry, ret_run] at h
    exact .inr h
  | some entry =>
    cases negotiated with
    | false =>
      simp only [releaseWaiting, hentry, Bool.false_eq_true, if_false] at h
      exact .inr h
    | true =>
      simp only [releaseWaiting, hentry, if_true] at h
      have hsettles := settles_handleWtBidiStream env (· = x) goaway rfl entry.data entry.fin w
      exact hsettles.dataStream y h

theorem each_release_ok_iff (negotiated : Bool) (pending : IdMap PendingWtBidiPreNegotiation)
    (l : List Nat) (hl : l.Nodup) {w : WtState} (hw : WtFits w)
    (hnew : ∀ x ∈ l, isDataStream w x = false) :
    (each l (releaseWaiting env goaway negotiated pending) w).val = .ok () ↔
      (negotiated = true → ∀ x ∈ l, ∀ entry, pending.lookup x = some entry →
        headerAllowed entry.data = true) := by
  induction l generalizing w with
  | nil => simp [each]
  | cons x l ih =>
    obtain ⟨hx, hl⟩ := List.nodup_cons.mp hl
    have hfirst := releaseWaiting_ok_iff env goaway hw (hnew x List.mem_cons_self) negotiated
      pending
    have hsafe : WtSafe (releaseWaiting env goaway negotiated pending x) := by
      unfold releaseWaiting
      grind
    have hfits := (hsafe w hw).1
    have hrest : ∀ y ∈ l,
        isDataStream (releaseWaiting env goaway negotiated pending x w).st y = false := by
      intro y hy
      refine Bool.eq_false_iff.mpr fun h => ?_
      obtain rfl | h := releaseWaiting_dataStream env goaway negotiated pending h
      · exact hx hy
      · exact Bool.false_ne_true ((hnew y (List.mem_cons_of_mem x hy)).symm.trans h)
    rcases hrun : releaseWaiting env goaway negotiated pending x w with ⟨val, t, o⟩
    rw [hrun] at hfirst hfits hrest
    have hall : (negotiated = true → ∀ y ∈ x :: l, ∀ entry, pending.lookup y = some entry →
          headerAllowed entry.data = true) ↔
        val = .ok () ∧ (negotiated = true → ∀ y ∈ l, ∀ entry, pending.lookup y = some entry →
          headerAllowed entry.data = true) := by
      rw [hfirst, ← forall_and]
      simp only [List.forall_mem_cons]
    rw [hall, ← ih hl hfits hrest, each]
    cases val with
    | error e =>
      rw [bind_error _ _ _ hrun]
      simp
    | ok u =>
      rw [bind_ok _ _ _ hrun]
      simp

theorem releasePreNegotiation_ok_iff (negotiated : Bool) {w : WtState} (hw : WtFits w)
    (haside : SetAside env.role w) :
    (releasePreNegotiation env goaway negotiated w).val = .ok () ↔
      (negotiated = true → ∀ s entry, w.pendingWtBidiPreNegotiation.lookup s = some entry →
        headerAllowed entry.data = true) := by
  have hperm := env.order.perm .pendingWtBidiPreNegotiation w.pendingWtBidiPreNegotiation.keys
  have hmem : ∀ x, x ∈ env.order.walk .pendingWtBidiPreNegotiation
      w.pendingWtBidiPreNegotiation.keys ↔ w.pendingWtBidiPreNegotiation.contains x = true :=
    fun x => hperm.mem_iff.trans (IdMap.contains_iff_mem_keys _ _).symm
  have hnew : ∀ x ∈ env.order.walk .pendingWtBidiPreNegotiation
      w.pendingWtBidiPreNegotiation.keys, isDataStream w x = false := by
    intro x hx
    exact (haside.noData x (by rw [isSetAside, (hmem x).mp hx, Bool.true_or])).1
  have heach := each_release_ok_iff env goaway negotiated w.pendingWtBidiPreNegotiation _
    (hperm.nodup_iff.mpr w.pendingWtBidiPreNegotiation.keys_nodup)
    (w := { w with pendingWtBidiPreNegotiation := ∅ }) ⟨hw.sessions, hw.deferred, hw.uni, hw.bidi⟩
    hnew
  rw [releasePreNegotiation, get_bind, modify_bind, heach]
  refine imp_congr_right fun _ => ⟨fun h s entry hs => ?_, fun h s _ entry hs => h s entry hs⟩
  exact h s ((hmem s).mpr ((IdMap.contains_iff _ _).mpr ⟨entry, hs⟩)) entry hs

end Streams

/-! ## The frame -/

section Frame

variable {env : Env} {c : Core}

/-- SETTINGS meet an error only in what waited for them. -/
theorem handleSettings_ok_iff (hserver : env.role = .server) (hids : IdsFit none c)
    (haside : SetAside env.role c.wt) (settings : Settings) :
    (handleSettings env settings c).val = .ok () ↔
      allValid env settings c = true ∧ allDispatchable env settings c.wt = true := by
  obtain ⟨q, hq⟩ := applyQpackSettings_ok c.limits settings c.qpack
  have hcheck : checkWtSettings env c.wt settings = .ok () := by
    rw [checkWtSettings, if_pos (by rw [hserver]; decide)]
  have hqids := applyQpackSettings_ids hq
  have hids' : IdsFit none { c with qpack := q, peerSettings := some settings } :=
    { hids.modifyQpack (f := fun _ => q) hqids.1 hqids.2 with }
  have hsafe := (processDeferredWtConnects_safe env _ hids').1
  obtain ⟨hvalid, sessions, streams, hst⟩ := processDeferredWtConnects_run env settings hserver
    (c := { c with qpack := q, peerSettings := some settings }) rfl
  simp only [handleSettings, get_bind, hq, hcheck, ofExcept_ok, ret_bind, modify_bind, emit_bind]
  rw [show allValid env settings c = allValid env settings
    { c with qpack := q, peerSettings := some settings } from rfl, ← hvalid, allDispatchable_iff]
  rcases hrun : processDeferredWtConnects env
    { c with qpack := q, peerSettings := some settings } with ⟨val, d, o⟩
  rw [hrun] at hsafe hst
  cases val with
  | error e =>
    rw [bind_error _ _ _ hrun]
    simp
  | ok u =>
    rw [bind_ok _ _ _ hrun]
    have hwaiting := releasePreNegotiation_ok_iff env d.lastSentGoawayId
      (isWtFullyNegotiated env d.peerSettings d.wt) hsafe.wt
    dsimp only at hst
    subst hst
    have haside' := hwaiting ⟨haside.fromClient, haside.noData, haside.apart⟩
    simp only [true_and]
    exact haside'

/-- What comes of the frame is what comes of SETTINGS. -/
theorem settlesEach_iff {payload : SettingsPayload} {recv : ControlStreamRecv}
    (hrecv : c.controlRecv.process = (.ok (some (.settings payload)), recv)) :
    SettlesEach env c (Settings.fromPayload payload.settings) recv ↔
      (handleSettings env (Settings.fromPayload payload.settings)
        { c with controlRecv := recv }).val = .ok () := by
  have hframe : processControlFrame env c =
      (handleSettings env (Settings.fromPayload payload.settings) >>= fun _ => ret true)
        { c with controlRecv := recv } := by
    rw [processControlFrame, get_bind, hrecv]
    rfl
  constructor
  · intro h
    have hok := h.goesOn
    rw [hframe] at hok
    obtain ⟨_, t, o, hrun, _⟩ := bind_ok_inv hok
    rw [hrun]
  · intro h
    rcases hrun : handleSettings env (Settings.fromPayload payload.settings)
      { c with controlRecv := recv } with ⟨val, t, o⟩
    rw [hrun] at h
    rw [show val = .ok () from h] at hrun
    have hok : (processControlFrame env c).val = .ok true := by
      rw [hframe, bind_ok _ _ _ hrun]
      rfl
    refine ⟨hok, fun _ => .bufferedStreamRejected, ?_⟩
    have hext := Extends.bind
      (settleSettings_extends env (fun _ => .bufferedStreamRejected)
        (Settings.fromPayload payload.settings))
      (fun _ => Extends.refl (ret true : CoreProc Bool)) { c with controlRecv := recv } true
    rw [← hframe] at hext
    exact (hext hok).symm

end Frame

/-- What a server has set aside when SETTINGS arrive is settled item by item, and the control stream
goes on behind them, exactly when no request has to be refused and no stream has a bad header. -/
theorem settings_settle_each {cfg : Config} {c₀ : Connection} {is : List Input}
    (hserver : cfg.role = .server) (hnew : Connection.new cfg = .ok c₀)
    (his : EveryStep cfg (fun c i => withinLimits c i.call = true) c₀ is) (order : HashOrder)
    {recv recv' : ControlStreamRecv} {payload : SettingsPayload}
    (hrecv : recv.process = (.ok (some (.settings payload)), recv')) :
    let c := { (after cfg c₀ is).core with controlRecv := recv }
    let settings := Settings.fromPayload payload.settings
    SettlesEach (cfg.env order) c settings recv' ↔
      allValid (cfg.env order) settings c = true ∧
        allDispatchable (cfg.env order) settings c.wt = true := by
  have hsound : Sound (after cfg c₀ is) :=
    his.inv (I := Sound) (fun _ _ hc hi => (feed_sound hc hi).1) (.new hnew)
  have haside : SetAside cfg.role (after cfg c₀ is).core.wt :=
    his.inv (I := fun c => SetAside cfg.role c.core.wt)
      (fun _ i hc _ => (step_marks (cfg.env i.order) i.call hc).1) (Calm.new hnew).aside
  have hids : IdsFit none { (after cfg c₀ is).core with controlRecv := recv' } :=
    { hsound.ids with }
  intro c settings
  rw [settlesEach_iff (c := c) hrecv]
  exact @handleSettings_ok_iff (cfg.env order) _ hserver hids haside settings

/-- SETTINGS without flow control, which leaves room for one session. -/
def soleSessionSettings : Settings :=
  { Sample.settings with wtSettings := some { WtSettings.new with wtEnabled := .fromStatic 1 VarInt.one_le_max } }

/-- SETTINGS, then GOAWAY. -/
def soleSessionControl : Bytes :=
  match ControlStreamSend.new.sendSettings soleSessionSettings with
  | .ok control => control.sendBuf.data.drop 1 ++ (encodeFrame (.goaway (.fromStatic 0 VarInt.zero_le_max))).getD []
  | .error _ => []

/-- A WebTransport CONNECT on each of the streams, before SETTINGS. -/
def earlyConnects (streams : List Nat) : List Call :=
  [.setWebtransportTransportVerified true true, .feedStream 2 [0] false] ++
    streams.map fun s => .feedStream s (Sample.headersBytes Sample.webTransportHeaders) false

/-- Does SETTINGS come next, and `p` hold of it, after the early requests on a new server? -/
def atSettings (streams : List Nat) (p : Core → Settings → Bool) (c₀ : Connection) : Bool :=
  let is := (earlyConnects streams).map Call.listed
  let c := (after Sample.server c₀ is).core
  let recv := c.controlRecv.receive soleSessionControl
  decide (EveryStep Sample.server (fun c i => withinLimits c i.call = true) c₀ is) &&
    match recv.process.1 with
    | .ok (some (.settings payload)) =>
      p { c with controlRecv := recv } (Settings.fromPayload payload.settings)
    | _ => false

theorem of_atSettings (streams : List Nat) {p : Core → Settings → Bool}
    (h : Sample.holdsAfter Sample.server [] (atSettings streams p) = true) :
    ∃ c₀ recv recv' payload, Connection.new Sample.server = .ok c₀ ∧
      EveryStep Sample.server (fun c i => withinLimits c i.call = true) c₀
        ((earlyConnects streams).map Call.listed) ∧
      ControlStreamRecv.process recv = (.ok (some (.settings payload)), recv') ∧
      p { (after Sample.server c₀ ((earlyConnects streams).map Call.listed)).core with
        controlRecv := recv } (Settings.fromPayload payload.settings) = true := by
  obtain ⟨c₀, hc, h⟩ := Sample.of_holdsAfter Sample.server [] h
  obtain ⟨hlimits, h⟩ := Bool.and_eq_true_iff.mp h
  split at h
  · rename_i payload hrecv
    exact ⟨c₀, _, _, payload, hc, of_decide_eq_true hlimits, Prod.ext hrecv rfl, h⟩
  · cases h

theorem settings_settle_sole_connect :
    ∃ c₀ recv recv' payload, Connection.new Sample.server = .ok c₀ ∧
      SettlesEach (Sample.server.env .asListed)
        { (after Sample.server c₀ ((earlyConnects [0]).map Call.listed)).core with
          controlRecv := recv } (Settings.fromPayload payload) recv' := by
  obtain ⟨c₀, recv, recv', payload, hc, hlimits, hrecv, h⟩ := of_atSettings [0]
    (p := fun c settings => allValid (Sample.server.env .asListed) settings c &&
      allDispatchable (Sample.server.env .asListed) settings c.wt) (by decide +kernel)
  exact ⟨c₀, recv, recv', payload.settings, hc,
    (settings_settle_each rfl hc hlimits .asListed hrecv).mpr (Bool.and_eq_true_iff.mp h)⟩

/-- Of two requests the second is refused, and GOAWAY stays unread. -/
theorem refusal_stops_settings :
    ¬∀ cfg c₀ is order recv recv' payload, cfg.role = .server → Connection.new cfg = .ok c₀ →
      EveryStep cfg (fun c i => withinLimits c i.call = true) c₀ is →
      recv.process = (.ok (some (.settings payload)), recv') →
      SettlesEach (cfg.env order) { (after cfg c₀ is).core with controlRecv := recv }
        (Settings.fromPayload payload.settings) recv' := by
  intro hall
  obtain ⟨c₀, recv, recv', payload, hc, hlimits, hrecv, h⟩ := of_atSettings [0, 4]
    (p := fun c _ => !succeeded (processControlFrame (Sample.server.env .asListed) c).val)
    (by decide +kernel)
  have hok := (hall _ _ _ .asListed _ _ _ rfl hc hlimits hrecv).goesOn
  rw [hok] at h
  cases h

end Connection

end Http3
