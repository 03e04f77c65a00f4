import Http3.Connection.CallMoves
import Http3.Connection.Runs

/-!
# Rejected streams

A stream that was rejected before WebTransport was negotiated is kept in a set of ignored streams,
and so is a unidirectional stream of an unknown type. Bytes of such a stream do nothing. Every other
rejection, and the end of a session, leaves no mark: later bytes are taken for a new stream.
-/

namespace Http3

namespace Connection

open Proc

/-! ## What keeps the tables of bidirectional streams -/

/-- Is the stream a data stream, or may it still become one? -/
def isDataStream (w : WtState) (x : Nat) : Bool :=
  w.wtBidiStreams.contains x || w.pendingWtBidiStreams.contains x

/-- Only streams in `p` become data streams, and the streams set aside stay what they are. -/
@[mk_iff]
structure Settled (p : Nat → Prop) (w w' : WtState) : Prop where
  dataStream : ∀ x, isDataStream w' x = true → p x ∨ isDataStream w x = true
  dispatch : ∀ x, w'.pendingBidiDispatch.contains x = true → w.pendingBidiDispatch.contains x = true
  waiting : w'.pendingWtBidiPreNegotiation = w.pendingWtBidiPreNegotiation
  ignored : w'.ignoredPreNegotiationWtBidi = w.ignoredPreNegotiationWtBidi

attribute [grind =] isDataStream IdMap.contains_insert IdMap.contains_erase
  IdMap.contains_update IdMap.contains_eraseAll

/-- `Settled` as a relation on runs. -/
def Settles (p : Nat → Prop) : Flow Obs WtState := fun w _ _ w' => Settled p w w'

section Settles

variable (env : Env) (p : Nat → Prop)

@[grind .] theorem settles_composes : Composes (Settles p) where
  refl _ _ := ⟨fun _ h => .inr h, fun _ h => h, rfl, rfl⟩
  trans h h' := ⟨fun x hx => (h'.dataStream x hx).elim .inl (h.dataStream x),
    fun x hx => h.dispatch x (h'.dispatch x hx), h'.waiting.trans h.waiting,
    h'.ignored.trans h.ignored⟩

@[grind ←] theorem settles_modify {f : WtState → WtState} (h : ∀ w, Settled p w (f w)) :
    Keeps (Settles p) (modify f : WtProc Unit) := h

@[grind ←] theorem settles_emit (o : Obs) : Keeps (Settles p) (emit o : WtProc Unit) :=
  fun w => (settles_composes p).refl w true

@[grind ←] theorem settles_emitAll (o : List Obs) : Keeps (Settles p) (emitAll o : WtProc Unit) :=
  fun w => (settles_composes p).refl w true

section State

variable {p} {w w' : WtState}

@[grind .] theorem Settled.refl (w : WtState) : Settled p w w :=
  ⟨fun _ h => .inr h, fun _ h => h, rfl, rfl⟩

@[grind ←] theorem Settled.putSession (sessionId : Nat) (session : WtSession)
    (h : Settled p w w') : Settled p w (putSession sessionId session w') :=
  ⟨h.dataStream, h.dispatch, h.waiting, h.ignored⟩

@[grind ←] theorem Settled.leaveStream (isBidi : Bool) (x : Nat) (h : Settled p w w') :
    Settled p w (leaveStream isBidi x w') := by
  unfold Connection.leaveStream
  grind [settled_iff]

@[grind ←] theorem Settled.dropPending (isBidi : Bool) (x : Nat) (h : Settled p w w') :
    Settled p w (dropPending isBidi x w') := by
  unfold Connection.dropPending
  grind [settled_iff]

@[grind ←] theorem Settled.returnCredit (isBidi : Bool) (x sessionId : Nat)
    (h : Settled p w w') : Settled p w (returnCredit isBidi x sessionId w') :=
  ⟨h.dataStream, h.dispatch, h.waiting, h.ignored⟩

@[grind ←] theorem Settled.markFin (x sessionId : Nat) (h : Settled p w w') :
    Settled p w (markFin x sessionId w') := ⟨h.dataStream, h.dispatch, h.waiting, h.ignored⟩

@[grind ←] theorem Settled.eraseClosed (closed : List (Nat × Bool)) (h : Settled p w w') :
    Settled p w (eraseClosed closed w') := by
  unfold Connection.eraseClosed
  grind [settled_iff]

/-- Entering a stream: one of `p`, when the stream is bidirectional. -/
@[grind ←] theorem Settled.enterStream (isBidi : Bool) (x sessionId : Nat)
    (hx : isBidi = true → p x) (h : Settled p w w') :
    Settled p w (enterStream isBidi x sessionId w') := by
  unfold Connection.enterStream
  grind [settled_iff]

@[grind ←] theorem Settled.setPending (isBidi : Bool) (x : Nat) (buf : Bytes)
    (hx : isBidi = true → p x) (h : Settled p w w') :
    Settled p w (setPending isBidi x buf w') := by
  unfold Connection.setPending
  grind [settled_iff]

end State

@[grind ←] theorem settles_terminate (sessionId errorCode closeCode : Nat) (message : Bytes) :
    Keeps (Settles p) (terminateWtSessionWith env sessionId errorCode closeCode message) := by
  refine Keeps.bind (settles_composes p) (by grind) fun w => ?_
  split
  · grind
  split
  · grind
  · refine Keeps.bind (settles_composes p) (by grind) fun resets => ?_
    unfold dropSession
    refine Keeps.bind (settles_composes p) (settles_modify p fun w => ?_) fun _ => ?_
    · grind [settled_iff]
    · grind

@[grind ←] theorem settles_abandon (sessionId : Nat) (session : WtSession) :
    Keeps (Settles p) (abandonSession sessionId session) := by
  unfold abandonSession dropSession
  grind [settled_iff]

@[grind ←] theorem settles_putSession (sessionId : Nat) (session : WtSession) :
    Keeps (Settles p) (modify (putSession sessionId session) : WtProc Unit) :=
  fun _ => ⟨fun _ h => .inr h, fun _ h => h, rfl, rfl⟩

@[grind ←] theorem settles_associate (goaway : Option VarInt) (x sessionId : Nat)
    (isBidi : Bool) : Keeps (Settles p) (associateOrBufferStream env goaway x sessionId isBidi) := by
  unfold associateOrBufferStream
  grind

@[grind ←] theorem settles_bufferStreamData (isBidi : Bool) (x sessionId : Nat) (data : Bytes) :
    Keeps (Settles p) (bufferStreamData isBidi x sessionId data) := by
  refine Keeps.bind (settles_composes p) (by grind) fun w => ?_
  split
  · grind
  · unfold rejectStream
    grind

@[grind ←] theorem settles_receiveStreamData (isBidi : Bool) (x sessionId : Nat) (data : Bytes) :
    Keeps (Settles p) (receiveStreamData env isBidi x sessionId data) := by
  refine Keeps.bind (settles_composes p) (by grind) fun w => ?_
  unfold terminateFlowControl
  grind [settled_iff]

@[grind ←] theorem settles_capsule (sessionId : Nat) (capsule : Capsule) :
    Keeps (Settles p) (handleWtCapsule env sessionId capsule) := by
  unfold handleWtCapsule
  grind

@[grind ←] theorem settles_capsuleData (sessionId : Nat) (data : Bytes) :
    Keeps (Settles p) (processWtCapsuleData env sessionId data) := by
  have hone : Keeps (Settles p) (processWtCapsule env sessionId) := by
    unfold processWtCapsule
    grind
  unfold processWtCapsuleData
  grind

@[grind ←] theorem settles_deliver (sessionId : Nat) :
    Keeps (Settles p) (deliverBufferedStreams sessionId) := by
  refine Keeps.bind (settles_composes p) (by grind) fun w => ?_
  split
  · grind
  · refine Keeps.bind (settles_composes p) (by grind) fun _ => ?_
    grind

@[grind ←] theorem settles_establish (peer : Option Settings) (sessionId : Nat)
    (session : WtSession) : Keeps (Settles p) (establish env peer sessionId session) := by
  unfold establish terminateFlowControl
  grind

/-- A stream whose header is complete; bidirectional ones are in `p`. -/
@[grind ←] theorem settles_openStream (goaway : Option VarInt) {isBidi : Bool} {x : Nat}
    (hx : isBidi = true → p x) (sessionId : Nat) (payload : Bytes) :
    Keeps (Settles p) (openStream env goaway isBidi x sessionId payload) := by
  refine Keeps.bind (settles_composes p) (by grind) fun _ => ?_
  refine Keeps.bind (settles_composes p) (by grind) fun r => ?_
  unfold rejectStream terminateFlowControl
  split
  · grind
  · grind
  · grind
  · refine Keeps.bind (settles_composes p) (by grind) fun w => ?_
    split
    · grind
    · refine Keeps.bind (settles_composes p) (settles_modify p fun w => ?_) fun _ => by grind
      exact ⟨fun _ h => .inr h, fun _ h => h, rfl, rfl⟩

@[grind ←] theorem settles_resolveUni (goaway : Option VarInt) (x : Nat) (data : Bytes) :
    Keeps (Settles p) (resolveWtUniStreamSessionId env goaway x data) := by
  unfold resolveWtUniStreamSessionId
  grind

@[grind ←] theorem settles_handleWtBidiStream (goaway : Option VarInt) {x : Nat} (hx : p x)
    (data : Bytes) (fin : Bool) :
    Keeps (Settles p) (handleWtBidiStream env goaway x data fin) := by
  have hresolve : Keeps (Settles p) (resolveWtBidiStreamHeader env goaway x data) := by
    have hkeep : ∀ buf, Keeps (Settles p) (modify fun w =>
        if w.pendingWtBidiStreams.contains x then setPending true x buf w else w : WtProc Unit) := by
      grind
    refine Keeps.bind (settles_composes p) (by grind) fun w => ?_
    dsimp only
    split
    · grind
    · grind
  have hcontinue : ∀ sessionId,
      Keeps (Settles p) (continueWtBidiStream env x sessionId data fin) := by
    intro sessionId
    have hfinish : Keeps (Settles p) (finishBidi env x sessionId) := by
      unfold finishBidi
      grind
    refine Keeps.bind (settles_composes p) (by grind) fun w => ?_
    split
    · grind
    split
    · grind
    · refine Keeps.bind (settles_composes p) (settles_receiveStreamData env p true x sessionId data) fun goesOn => ?_
      grind
  have hfinish : Keeps (Settles p) (finishResolved x) := by
    refine Keeps.bind (settles_composes p) (by grind) fun w => ?_
    split
    · split
      · grind
      · refine Keeps.bind (settles_composes p) (by grind) fun _ => ?_
        grind
    · grind
  unfold handleWtBidiStream
  grind

@[grind ←] theorem settles_uniData (x : Nat) (data : Bytes) :
    Keeps (Settles p) (handleWtUniStreamData env x data) := by
  unfold handleWtUniStreamData
  grind

@[grind ←] theorem settles_uniFin (x : Nat) : Keeps (Settles p) (handleWtUniStreamFin env x) := by
  refine Keeps.bind (settles_composes p) (by grind) fun w => ?_
  split
  · grind
  · split
    · grind
    split
    · grind
    · refine Keeps.bind (settles_composes p) (by grind) fun _ => ?_
      grind

@[grind ←] theorem settles_finishNewUni (x : Nat) : Keeps (Settles p) (finishNewUni x) := by
  refine Keeps.bind (settles_composes p) (by grind) fun w => ?_
  split
  · refine Keeps.bind (settles_composes p) (by grind) fun _ => ?_
    grind
  · grind

@[grind ←] theorem settles_receiveDatagram (goaway : Option VarInt) (sessionId : Nat)
    (payload : Bytes) : Keeps (Settles p) (receiveDatagram env goaway sessionId payload) := by
  unfold receiveDatagram
  grind

@[grind ←] theorem settles_drainSession (id sessionId : Nat) :
    Keeps (Settles p) (drainSession id sessionId) := by
  unfold drainSession
  grind

@[grind ←] theorem settles_registerSession (sessionId : Nat) (headers : List Header) :
    Keeps (Settles p) (registerSession sessionId headers) := by
  unfold registerSession
  grind

@[grind ←] theorem settles_deferSession (sessionId : Nat) (headers : List Header) :
    Keeps (Settles p) (deferSession sessionId headers) := by
  unfold deferSession
  grind [settled_iff]

@[grind ←] theorem settles_connectResponse (peer : Option Settings) (sessionId : Nat)
    (headers : List Header) :
    Keeps (Settles p) (handleWtConnectResponse env peer sessionId headers) := by
  refine Keeps.bind (settles_composes p) (by grind) fun w => ?_
  split
  · grind
  · grind

@[grind ←] theorem settles_streamEnd (sessionId : Nat) :
    Keeps (Settles p) (handleWtStreamEnd env sessionId) := by
  unfold handleWtStreamEnd terminateWtSession
  grind [settled_iff]

@[grind ←] theorem settles_reject (sessionId : Nat) (headers : List Header) :
    Keeps (Settles p) (rejectWtSession sessionId headers) := by
  unfold rejectWtSession
  grind

theorem settles_attempt {α : Type} {x : WtProc α} (h : Keeps (Settles p) x) :
    Keeps (Settles p) (attempt x) := fun w => h w

@[grind ←] theorem settles_establishServer (peer : Option Settings) (sessionId : Nat)
    (headers : List Header) :
    Keeps (Settles p) (establishWtSessionServer env peer sessionId headers) := by
  have hcapsules : Keeps (Settles p) (processBufferedCapsules env sessionId) := by
    have hattempt := settles_attempt p (settles_capsuleData env p sessionId [])
    unfold processBufferedCapsules terminateWtSession
    grind
  unfold establishWtSessionServer
  grind

@[grind ←] theorem settles_stopSending (x errorCode : Nat) :
    Keeps (Settles p) (handleWtStopSending env x errorCode) := by
  unfold handleWtStopSending terminateWtSession
  grind

@[grind ←] theorem settles_takeCapsules (sessionId : Nat) :
    Keeps (Settles p) (takeWtPendingCapsules sessionId) := by
  unfold takeWtPendingCapsules
  grind

@[grind ←] theorem settles_resetDataStream (sessionId x errorCode finalSize : Nat) :
    Keeps (Settles p) (resetDataStream env sessionId x errorCode finalSize) := by
  have haccount : Keeps (Settles p) (accountWtStreamReset env sessionId x finalSize) := by
    unfold accountWtStreamReset terminateFlowControl
    grind
  refine Keeps.bind (settles_composes p) (by grind) fun w => ?_
  refine Keeps.bind (settles_composes p) haccount fun ended => ?_
  split
  · grind
  · refine Keeps.bind (settles_composes p) (settles_modify p fun w => ?_) fun _ => by grind
    grind [settled_iff]

@[grind ←] theorem settles_dataFrame (peer : Option Settings) (bodyLen sessionId : Nat)
    (data : Bytes) : Keeps (Settles p) (handleWtDataFrame env peer bodyLen sessionId data) := by
  unfold handleWtDataFrame
  grind

/-- The tables of sessions and of deferred requests may change at will. -/
theorem settles_sessions (f : WtState → IdMap WtSession) (g : WtState → IdMap (List Header)) :
    Keeps (Settles p) (modify fun w =>
      { w with wtSessions := f w, deferredWtConnects := g w } : WtProc Unit) :=
  fun _ => ⟨fun _ h => .inr h, fun _ h => h, rfl, rfl⟩

end Settles

/-! ## Streams set aside -/

/-- Does the stream wait for SETTINGS, or is it ignored since? -/
def isSetAside (w : WtState) (x : Nat) : Bool :=
  w.pendingWtBidiPreNegotiation.contains x || w.ignoredPreNegotiationWtBidi.contains x

/-- A server sets streams of the client aside; they are no data streams, and their type is known. -/
structure SetAside (role : Role) (w : WtState) : Prop where
  fromClient : ∀ x, isSetAside w x = true ∨ w.pendingBidiDispatch.contains x = true →
    role = .server ∧ StreamKind.fromStreamId x = .clientBidi
  noData : ∀ x, isSetAside w x = true →
    isDataStream w x = false ∧ w.pendingBidiDispatch.contains x = false
  apart : ∀ x, w.pendingWtBidiPreNegotiation.contains x = true →
    w.ignoredPreNegotiationWtBidi.contains x = false

theorem SetAside.new (role : Role) : SetAside role .new := by
  refine ⟨fun x h => ?_, fun x h => ?_, fun x h => ?_⟩ <;>
    simp [isSetAside, WtState.new] at h

/-- The invariant stays, and the streams that are ignored stay ignored. -/
def KeepsIgnored (inv : WtState → Prop) : Flow Obs WtState := fun w _ _ w' =>
  inv w → inv w' ∧ w.ignoredPreNegotiationWtBidi ⊆ w'.ignoredPreNegotiationWtBidi

section Aside

variable {role : Role} {p : Nat → Prop} {w w' : WtState}

theorem Settled.aside (h : Settled p w w') (hp : ∀ x, p x → isSetAside w x = false)
    (hw : SetAside role w) :
    SetAside role w' ∧ w.ignoredPreNegotiationWtBidi ⊆ w'.ignoredPreNegotiationWtBidi := by
  have hsame : ∀ x, isSetAside w' x = isSetAside w x := by
    intro x
    simp only [isSetAside, h.waiting, h.ignored]
  refine ⟨⟨fun x hx => ?_, fun x hx => ?_, fun x hx => ?_⟩, ?_⟩
  · rw [hsame] at hx
    exact hw.fromClient x (hx.imp_right (h.dispatch x))
  · rw [hsame] at hx
    obtain ⟨hdata, hdispatch⟩ := hw.noData x hx
    refine ⟨Bool.eq_false_iff.mpr fun hd => ?_, Bool.eq_false_iff.mpr fun hd => ?_⟩
    · obtain hpx | hd := h.dataStream x hd
      · rw [hp x hpx] at hx
        cases hx
      · rw [hdata] at hd
        cases hd
    · rw [h.dispatch x hd] at hdispatch
      cases hdispatch
  · rw [h.waiting] at hx
    rw [h.ignored]
    exact hw.apart x hx
  · rw [h.ignored]
    exact List.Subset.refl _

theorem keepsIgnored_composes (inv : WtState → Prop) : Composes (KeepsIgnored inv) where
  refl _ _ hw := ⟨hw, List.Subset.refl _⟩
  trans h h' hw := ⟨(h' (h hw).1).1, List.Subset.trans (h hw).2 (h' (h hw).1).2⟩

theorem keepsIgnored_of_settles {α : Type} {x : WtProc α} (h : Keeps (Settles fun _ => False) x) :
    Keeps (KeepsIgnored (SetAside role)) x := fun w => (h w).aside fun _ hx => hx.elim

/-- One stream is set aside, or changes from waiting to ignored. -/
theorem SetAside.set {x : Nat} (hw : SetAside role w) (hserver : role = .server)
    (hx : StreamKind.fromStreamId x = .clientBidi) (hdata : isDataStream w x = false)
    (hdispatch : w.pendingBidiDispatch.contains x = false)
    {waiting : IdMap PendingWtBidiPreNegotiation} {ignored : List Nat}
    (hwaiting : ∀ y, y ≠ x → waiting.contains y = w.pendingWtBidiPreNegotiation.contains y)
    (hignored : ∀ y, y ≠ x → ignored.contains y = w.ignoredPreNegotiationWtBidi.contains y)
    (hapart : waiting.contains x = true → ignored.contains x = false) :
    SetAside role { w with
      pendingWtBidiPreNegotiation := waiting, ignoredPreNegotiationWtBidi := ignored } := by
  refine ⟨fun y hy => ?_, fun y hy => ?_, fun y hy => ?_⟩
  · by_cases hyx : y = x
    · subst hyx
      exact ⟨hserver, hx⟩
    · refine hw.fromClient y (hy.imp_left fun h => ?_)
      rwa [isSetAside, hwaiting y hyx, hignored y hyx] at h
  · by_cases hyx : y = x
    · subst hyx
      exact ⟨hdata, hdispatch⟩
    · refine hw.noData y ?_
      rwa [isSetAside, hwaiting y hyx, hignored y hyx] at hy
  · by_cases hyx : y = x
    · subst hyx
      exact hapart hy
    · have hy' := hw.apart y ((hwaiting y hyx).symm.trans hy)
      exact (hignored y hyx).trans hy'

theorem contains_insert_of_ne {x y : Nat} (h : y ≠ x) (l : List Nat) :
    (l.insert x).contains y = l.contains y := by
  rw [Bool.eq_iff_iff, List.contains_iff_mem, List.contains_iff_mem, List.mem_insert_iff]
  simp [h]

theorem subset_insert (x : Nat) (l : List Nat) : l ⊆ l.insert x := fun _ h =>
  List.mem_insert_of_mem h

/-- A stream that is ignored from now on was no data stream. -/
theorem ignore_aside {x : Nat} (hserver : role = .server)
    (hx : StreamKind.fromStreamId x = .clientBidi) (hdata : isDataStream w x = false)
    (hdispatch : w.pendingBidiDispatch.contains x = false)
    (hwaits : w.pendingWtBidiPreNegotiation.contains x = false) :
    KeepsAt (KeepsIgnored (SetAside role)) w (ignorePreNegotiation x) := fun hw =>
  ⟨hw.set hserver hx hdata hdispatch (fun _ _ => rfl)
    (fun _ hy => contains_insert_of_ne hy _) fun h => absurd h (by rw [hwaits]; decide),
    subset_insert _ _⟩

/-- A stream that starts to wait, or that has waited and is ignored from now on. -/
theorem bufferPre_aside {x : Nat} (hserver : role = .server)
    (hx : StreamKind.fromStreamId x = .clientBidi) (hdata : isDataStream w x = false)
    (hdispatch : w.pendingBidiDispatch.contains x = false)
    (hignored : w.ignoredPreNegotiationWtBidi.contains x = false) (data : Bytes) (fin : Bool) :
    KeepsAt (KeepsIgnored (SetAside role)) w (bufferPreNegotiationWtBidi x data fin) := by
  refine KeepsAt.get_bind ?_
  dsimp only
  split
  · rename_i hfull
    refine ignore_aside hserver hx hdata hdispatch ?_
    grind
  split
  · intro hw
    refine ⟨hw.set hserver hx hdata hdispatch (fun y hy => ?_)
      (fun _ hy => contains_insert_of_ne hy _) fun h => ?_, subset_insert _ _⟩
    · simp [hy]
    · simp at h
  · intro hw
    refine ⟨hw.set hserver hx hdata hdispatch (fun y hy => ?_) (fun _ _ => rfl) fun _ => hignored,
      List.Subset.refl _⟩
    simp [hy]

/-- Nothing waits, and none of the streams is ignored: each may become a data stream. -/
structure MayOpen (role : Role) (keys : List Nat) (w : WtState) : Prop where
  aside : SetAside role w
  waiting : w.pendingWtBidiPreNegotiation = ∅
  ignored : ∀ x ∈ keys, w.ignoredPreNegotiationWtBidi.contains x = false

/-- Nothing waits, and none of the streams is a data stream: each may be ignored. -/
structure MayIgnore (role : Role) (keys : List Nat) (w : WtState) : Prop where
  aside : SetAside role w
  waiting : w.pendingWtBidiPreNegotiation = ∅
  fromClient : ∀ x ∈ keys, role = .server ∧ StreamKind.fromStreamId x = .clientBidi
  noData : ∀ x ∈ keys, isDataStream w x = false ∧ w.pendingBidiDispatch.contains x = false

theorem releaseWaiting_opens (env : Env) (goaway : Option VarInt) {keys : List Nat} {x : Nat}
    (hx : x ∈ keys) (pending : IdMap PendingWtBidiPreNegotiation) :
    Keeps (KeepsIgnored (MayOpen env.role keys)) (releaseWaiting env goaway true pending x) := by
  unfold releaseWaiting
  split
  · exact Keeps.ret (keepsIgnored_composes _) _
  · rename_i entry _
    intro w hw
    have hs := settles_handleWtBidiStream env (· = x) goaway rfl entry.data entry.fin w
    have hfree : ∀ y, y = x → isSetAside w y = false := by
      rintro y rfl
      rw [isSetAside, hw.waiting, hw.ignored y hx, IdMap.contains_empty, Bool.or_false]
    obtain ⟨haside, hsubset⟩ := hs.aside hfree hw.aside
    refine ⟨⟨haside, hs.waiting.trans hw.waiting, fun y hy => ?_⟩, hsubset⟩
    exact (congrArg (List.contains · y) hs.ignored).trans (hw.ignored y hy)

theorem releaseWaiting_ignores (env : Env) (goaway : Option VarInt) {keys : List Nat} {x : Nat}
    (hx : x ∈ keys) (pending : IdMap PendingWtBidiPreNegotiation) :
    Keeps (KeepsIgnored (MayIgnore env.role keys)) (releaseWaiting env goaway false pending x) := by
  unfold releaseWaiting
  split
  · exact Keeps.ret (keepsIgnored_composes _) _
  · intro w hw
    obtain ⟨hserver, hclient⟩ := hw.fromClient x hx
    obtain ⟨hdata, hdispatch⟩ := hw.noData x hx
    obtain ⟨haside, hsubset⟩ := ignore_aside hserver hclient hdata hdispatch
      (by rw [hw.waiting, IdMap.contains_empty]) hw.aside
    exact ⟨⟨haside, hw.waiting, hw.fromClient, hw.noData⟩, hsubset⟩

/-- All waiting streams leave the table before the first of them is looked at. -/
theorem releasePreNegotiation_aside (env : Env) (goaway : Option VarInt) (negotiated : Bool) :
    Keeps (KeepsIgnored (SetAside env.role)) (releasePreNegotiation env goaway negotiated) := by
  refine Keeps.get_bind fun w hw => ?_
  have hwaits : ∀ x ∈ env.order.walk .pendingWtBidiPreNegotiation
      w.pendingWtBidiPreNegotiation.keys, w.pendingWtBidiPreNegotiation.contains x = true :=
    fun x hx => (IdMap.contains_iff_mem_keys _ _).mpr ((env.order.perm _ _).mem_iff.mp hx)
  have haside : ∀ x ∈ env.order.walk .pendingWtBidiPreNegotiation
      w.pendingWtBidiPreNegotiation.keys, isSetAside w x = true := fun x hx => by
    rw [isSetAside, hwaits x hx, Bool.true_or]
  have hclear : SetAside env.role { w with pendingWtBidiPreNegotiation := ∅ } := by
    have hless : ∀ x, isSetAside { w with pendingWtBidiPreNegotiation := ∅ } x = true →
        isSetAside w x = true := fun x h => by
      simp only [isSetAside, IdMap.contains_empty, Bool.false_or] at h
      rw [isSetAside, h, Bool.or_true]
    exact ⟨fun x hx => hw.fromClient x (hx.imp_left (hless x)),
      fun x hx => hw.noData x (hless x hx), fun x hx => by simp at hx⟩
  cases negotiated with
  | true =>
    obtain ⟨h, hsubset⟩ := Keeps.each (keepsIgnored_composes _) _
      (fun x hx => releaseWaiting_opens env goaway hx w.pendingWtBidiPreNegotiation)
      { w with pendingWtBidiPreNegotiation := ∅ }
      ⟨hclear, rfl, fun x hx => hw.apart x (hwaits x hx)⟩
    exact ⟨h.aside, hsubset⟩
  | false =>
    obtain ⟨h, hsubset⟩ := Keeps.each (keepsIgnored_composes _) _
      (fun x hx => releaseWaiting_ignores env goaway hx w.pendingWtBidiPreNegotiation)
      { w with pendingWtBidiPreNegotiation := ∅ }
      ⟨hclear, rfl, fun x hx => hw.fromClient x (.inl (haside x hx)),
        fun x hx => hw.noData x (haside x hx)⟩
    exact ⟨h.aside, hsubset⟩

/-- A reset turns a waiting stream into an ignored one. -/
theorem handleWtStreamReset_aside (env : Env) (x errorCode finalSize : Nat) :
    Keeps (KeepsIgnored (SetAside env.role)) (handleWtStreamReset env x errorCode finalSize) := by
  refine Keeps.get_bind fun w => ?_
  split
  · exact KeepsAt.of_keeps (keepsIgnored_of_settles (by unfold terminateWtSession; grind))
  split
  · exact KeepsAt.of_keeps (keepsIgnored_of_settles (by grind))
  split
  · exact KeepsAt.of_keeps (keepsIgnored_of_settles (by grind [settled_iff]))
  split
  · rename_i hwaits
    intro hw
    have haside : isSetAside w x = true := by rw [isSetAside, hwaits, Bool.true_or]
    obtain ⟨hserver, hclient⟩ := hw.fromClient x (.inl haside)
    obtain ⟨hdata, hdispatch⟩ := hw.noData x haside
    refine ⟨hw.set hserver hclient hdata hdispatch (fun y hy => ?_)
      (fun _ hy => contains_insert_of_ne hy _) fun h => ?_, subset_insert _ _⟩
    · simp [hy]
    · simp at h
  split
  · exact KeepsAt.of_keeps (keepsIgnored_of_settles (by grind))
  split
  · exact KeepsAt.of_keeps (keepsIgnored_of_settles (by grind [settled_iff]))
  · refine KeepsAt.of_keeps (keepsIgnored_of_settles ?_)
    refine Keeps.bind (settles_composes _) (settles_modify _ fun w => ?_) fun _ => by grind
    exact ⟨fun _ h => .inr h, fun _ h => h, rfl, rfl⟩

end Aside

/-! ## Marks -/

/-- Is the stream in one of the sets of ignored streams? -/
def isMarked (c : Core) (x : Nat) : Bool :=
  if (StreamKind.fromStreamId x).isUnidirectional then c.ignoredUniStreams.contains x
  else c.wt.ignoredPreNegotiationWtBidi.contains x

/-- Streams set aside stay so, and marks stay. -/
def KeepsMarks (role : Role) : Flow Obs Core := fun c _ _ d =>
  SetAside role c.wt → SetAside role d.wt ∧ ∀ x, isMarked c x = true → isMarked d x = true

section Marks

variable {env : Env}

@[grind .] theorem keepsMarks_composes (role : Role) : Composes (KeepsMarks role) where
  refl _ _ hc := ⟨hc, fun _ h => h⟩
  trans h h' hc := ⟨(h' (h hc).1).1, fun x hx => (h' (h hc).1).2 x ((h hc).2 x hx)⟩

@[grind ←] theorem keepsMarks_same {c d : Core} {o : List Obs} {b : Bool} (hwt : d.wt = c.wt)
    (huni : c.ignoredUniStreams ⊆ d.ignoredUniStreams) : KeepsMarks env.role c o b d := by
  intro hc
  refine ⟨hwt ▸ hc, fun x hx => ?_⟩
  unfold isMarked at *
  split at hx
  · rw [if_pos ‹_›, List.contains_iff_mem] at *
    exact huni hx
  · rwa [if_neg ‹_›, hwt]

theorem keepsMarks_onWt_at {α : Type} {x : WtProc α} {c : Core}
    (h : KeepsAt (KeepsIgnored (SetAside env.role)) c.wt x) :
    KeepsAt (KeepsMarks env.role) c (onWt x) := by
  intro hc
  obtain ⟨hwt, hsubset⟩ := h hc
  refine ⟨hwt, fun x hx => ?_⟩
  unfold isMarked at *
  split at hx
  · rwa [if_pos ‹_›]
  · rw [if_neg ‹_›, List.contains_iff_mem] at *
    exact hsubset hx

@[grind ←] theorem keepsMarks_onWt {α : Type} {x : WtProc α}
    (h : Keeps (Settles fun _ => False) x) : Keeps (KeepsMarks env.role) (onWt x) :=
  fun c => keepsMarks_onWt_at (keepsIgnored_of_settles h c.wt)

theorem wtSide_marks {w : WtState} {α : Type} {x : WtProc α} (h : WtSide env w x) :
    KeepsAt (KeepsIgnored (SetAside env.role)) w x := by
  cases h with
  | releasePreNegotiation goaway negotiated =>
    exact releasePreNegotiation_aside env goaway negotiated w
  | _ => exact keepsIgnored_of_settles (by grind) w

theorem wtFrame_marks {w : WtState} {α : Type} {x : WtProc α} (h : WtFrame env w x) :
    KeepsAt (KeepsIgnored (SetAside env.role)) w x := by
  cases h with
  | _ => exact keepsIgnored_of_settles (by grind) w

theorem wtOuter_marks {w : WtState} {α : Type} {x : WtProc α} (h : WtOuter env w x) :
    KeepsAt (KeepsIgnored (SetAside env.role)) w x := by
  cases h with
  | streamReset x errorCode finalSize =>
    exact handleWtStreamReset_aside env x errorCode finalSize w
  | registerLocal x sessionId session _ _ hlocal hbidi huni =>
    have hs : Settled (· = x) w (enterStream (isLocalInitiatedBidi env.role (.fromStreamId x)) x
        sessionId (putSession sessionId (session.associateStream x) w)) :=
      ((Settled.refl w).putSession _ _).enterStream _ _ _ fun _ => rfl
    intro hw
    refine hs.aside (fun y hy => Bool.eq_false_iff.mpr fun h => ?_) hw
    subst hy
    obtain ⟨hserver, hclient⟩ := hw.fromClient y (.inl h)
    simp [isLocalInitiatedBidi, isLocalInitiatedUni, hserver, hclient] at hlocal
  | terminate sessionId =>
    exact keepsIgnored_of_settles (settles_terminate env _ sessionId _ _ _) w
  | dropDispatch x =>
    refine keepsIgnored_of_settles (settles_modify _ fun w => ?_) w
    exact ⟨fun _ h => .inr h, fun y h => by simp [dropDispatch] at h; exact h.2, rfl, rfl⟩
  | transportVerified datagrams resetStreamAt =>
    refine keepsIgnored_of_settles ?_ w
    unfold setWebtransportTransportVerified
    grind [settled_iff]
  | dataConsumed | previousSettings =>
    exact keepsIgnored_of_settles (fun _ => ⟨fun _ h => .inr h, fun _ h => h, rfl, rfl⟩) w
  | _ => exact keepsIgnored_of_settles (by grind) w

theorem processDeferredWtConnects_marks :
    Keeps (KeepsMarks env.role) (processDeferredWtConnects env) := by
  have hregister : ∀ streamId headers,
      Keeps (KeepsMarks env.role) (registerWtConnectSession env streamId headers) := by
    intro streamId headers
    unfold registerWtConnectSession modifyStream
    grind
  have hone : ∀ streamId headers,
      Keeps (KeepsMarks env.role) (processDeferredWtConnect env streamId headers) := by
    intro streamId headers
    have hbuf := fun stream : RequestStream => settles_sessions (fun _ => False)
      (fun w => w.wtSessions.update streamId fun s =>
        { s with capsuleBuf := s.capsuleBuf ++ stream.recvBody }) WtState.deferredWtConnects
    refine Keeps.bind (keepsMarks_composes _) (by grind) fun c => ?_
    refine Keeps.bind (keepsMarks_composes _) (by grind) fun _ => ?_
    refine Keeps.bind (keepsMarks_composes _) (by grind) fun _ => ?_
    split
    · exact Keeps.bind (keepsMarks_composes _) (keepsMarks_onWt (hbuf _)) fun _ => by grind
    · grind
  have hclear := settles_sessions (fun _ => False) WtState.wtSessions fun _ => ∅
  unfold processDeferredWtConnects
  grind

theorem processData_marks (streamId bodyLen : Nat) (data : Bytes) :
    Keeps (KeepsMarks env.role) (processData env streamId bodyLen data) := by
  unfold processData
  grind

theorem move_marks {c d : Core} {o : List Obs} {b : Bool} (h : Move env c o b d) :
    KeepsMarks env.role c o b d := by
  have hstreams : ∀ {c d : Core} {o : List Obs} {b : Bool}, d = { c with streams := d.streams } →
      KeepsMarks env.role c o b d := fun h => by
    rw [h]
    exact keepsMarks_same rfl (List.Subset.refl _)
  cases h with
  | side h =>
    cases h with
    | plain h _ => exact keepsMarks_same h.wt h.ignoredUniStreams
    | wt _ x h => exact keepsMarks_onWt_at (wtSide_marks h)
    | deferred => exact processDeferredWtConnects_marks c
  | «open» => exact hstreams (ensureStream_eq env _ c)
  | drop => exact hstreams (removeStreamIfDone_eq _ c)
  | touch | blocked | report => exact keepsMarks_same rfl (List.Subset.refl _)
  | wt _ x h => exact keepsMarks_onWt_at (wtFrame_marks h)
  | data => exact processData_marks _ _ _ c

theorem callMove_marks {p : Nat → Prop} {c d : Core} {o : List Obs} {b : Bool}
    (h : CallMove env p c o b d) :
    KeepsMarks env.role c o b d := by
  cases h with
  | move h => exact move_marks h
  | send | bodyLimit => exact keepsMarks_same rfl (List.Subset.refl _)
  | unblock streamId =>
    unfold clearQpackBlocked
    split <;> exact keepsMarks_same rfl (List.Subset.refl _)
  | wt _ x h => exact keepsMarks_onWt_at (wtOuter_marks h)

@[grind →] theorem keepsMarks_of_moves {α : Type} {x : CoreProc α}
    (h : Keeps (Many (Move env)) x) : Keeps (KeepsMarks env.role) x :=
  h.mono fun _ _ _ _ h => Many.lift (keepsMarks_composes _) (fun _ _ _ _ => move_marks) h

/-! ### Bytes of a stream -/

/-- A stream of the client that a server may still classify. -/
structure Fresh (role : Role) (w : WtState) (x : Nat) : Prop where
  server : role = .server
  client : StreamKind.fromStreamId x = .clientBidi
  data : isDataStream w x = false
  aside : isSetAside w x = false

theorem setDispatch_marks {c : Core} {x : Nat} (h : Fresh env.role c.wt x) (buf : Bytes) :
    KeepsAt (KeepsMarks env.role) c (onWt (modify (setDispatch x buf))) := by
  refine keepsMarks_onWt_at fun hw => ⟨⟨fun y hy => ?_, fun y hy => ?_, hw.apart⟩, List.Subset.refl _⟩
  · by_cases hyx : y = x
    · subst hyx
      exact ⟨h.server, h.client⟩
    · refine hw.fromClient y (hy.imp_right fun hd => ?_)
      simpa [setDispatch, hyx] using hd
  · obtain ⟨hdata, hdispatch⟩ := hw.noData y hy
    refine ⟨hdata, ?_⟩
    have hyx : y ≠ x := by
      rintro rfl
      exact Bool.false_ne_true (h.aside.symm.trans hy)
    simpa [setDispatch, hyx] using hdispatch

/-- Once its first integer is known, a stream is no longer undecided. -/
theorem dropDispatch_marks {c : Core} {x : Nat} {k : Unit → CoreProc Unit}
    (hk : KeepsAt (KeepsMarks env.role) { c with wt := dropDispatch x c.wt } (k ())) :
    KeepsAt (KeepsMarks env.role) c (onWt (modify (dropDispatch x)) >>= k) := by
  refine KeepsAt.bind (keepsMarks_composes _) ?_ fun _ _ => hk
  exact keepsMarks_onWt_at (wtOuter_marks (.dropDispatch x))

theorem dispatchWtStream_marks {c : Core} {x : Nat} (h : Fresh env.role c.wt x)
    (hd : c.wt.pendingBidiDispatch.contains x = false) (buf : Bytes) (fin : Bool) :
    KeepsAt (KeepsMarks env.role) c (dispatchWtStream env x buf fin) := by
  have haside := h.aside
  rw [isSetAside, Bool.or_eq_false_iff] at haside
  refine KeepsAt.get_bind ?_
  split
  · refine keepsMarks_onWt_at ((settles_handleWtBidiStream env (· = x) _ rfl _ _ _).aside ?_)
    rintro _ rfl
    exact h.aside
  split
  · exact keepsMarks_onWt_at (ignore_aside h.server h.client h.data hd haside.1)
  · exact keepsMarks_onWt_at (bufferPre_aside h.server h.client h.data hd haside.2 _ _)

theorem dispatchClientBidiStream_marks {c : Core} {x : Nat} (h : Fresh env.role c.wt x)
    (data : Bytes) (fin : Bool) :
    KeepsAt (KeepsMarks env.role) c (dispatchClientBidiStream env x data fin) := by
  have hrequest : ∀ c buf, KeepsAt (KeepsMarks env.role) c
      (handleBidirectionalStream env x buf fin) := fun c buf =>
    keepsMarks_of_moves (handleBidirectionalStream_move env x buf fin) c
  have hfresh : Fresh env.role (dropDispatch x c.wt) x := ⟨h.server, h.client, h.data, h.aside⟩
  refine KeepsAt.get_bind ?_
  dsimp only
  split
  · split
    · exact dropDispatch_marks (hrequest _ _)
    · exact setDispatch_marks h _
  · split
    · exact dropDispatch_marks (hrequest _ _)
    split
    · refine dropDispatch_marks ?_
      split
      · exact dispatchWtStream_marks hfresh (by simp [dropDispatch]) _ _
      · exact hrequest _ _
    · split
      · exact dropDispatch_marks (Keeps.throw (keepsMarks_composes _) _ _)
      · exact setDispatch_marks h _

theorem feedStreamInner_marks (x : Nat) (data : Bytes) (fin : Bool) :
    Keeps (KeepsMarks env.role) (feedStreamInner env x data fin) := by
  refine Keeps.get_bind fun c hc => ?_
  suffices h : KeepsAt (KeepsMarks env.role) c (feedStreamInner env x data fin) from h hc
  refine KeepsAt.get_bind ?_
  dsimp only
  have hbidi : isSetAside c.wt x = false → KeepsAt (KeepsMarks env.role) c
      (onWt (handleWtBidiStream env c.lastSentGoawayId x data fin)) := fun haside =>
    keepsMarks_onWt_at ((settles_handleWtBidiStream env (· = x) _ rfl _ _ _).aside
      (by rintro _ rfl; exact haside))
  split
  · exact keepsMarks_of_moves (Side.keeps_move env (handleUnidirectionalStream_side env x data fin)) c
  split
  · rename_i hclient
    split
    · refine hbidi (Bool.eq_false_iff.mpr fun h => ?_)
      have hserver := (hc.fromClient x (.inl h)).1
      simp [hserver] at hclient
    · exact Keeps.throw (keepsMarks_composes _) _ c
  split
  · rename_i hdata
    refine hbidi (Bool.eq_false_iff.mpr fun h => ?_)
    exact Bool.false_ne_true ((hc.noData x h).1.symm.trans hdata)
  rename_i hdata
  have hdata := Bool.eq_false_iff.mpr hdata
  split
  · rename_i hdispatch
    obtain ⟨hserver, hclient⟩ := hc.fromClient x (.inr hdispatch)
    refine dispatchClientBidiStream_marks ⟨hserver, hclient, hdata, ?_⟩ data fin
    refine Bool.eq_false_iff.mpr fun h => ?_
    exact Bool.false_ne_true ((hc.noData x h).2.symm.trans hdispatch)
  rename_i hdispatch
  have hdispatch := Bool.eq_false_iff.mpr hdispatch
  split
  · exact Keeps.ret (keepsMarks_composes _) _ c
  rename_i hignored
  have hignored := Bool.eq_false_iff.mpr hignored
  split
  · rename_i hwaits
    obtain ⟨hserver, hclient⟩ := hc.fromClient x (.inl (by rw [isSetAside, hwaits, Bool.true_or]))
    exact keepsMarks_onWt_at (bufferPre_aside hserver hclient hdata hdispatch hignored data fin)
  rename_i hwaits
  split
  · rename_i huni _ _ _ hnew
    simp only [Bool.and_eq_true, decide_eq_true_eq] at hnew
    refine dispatchClientBidiStream_marks ⟨hnew.1.1, ?_, hdata, ?_⟩ data fin
    · have hclient := hnew.1.2
      cases hkind : StreamKind.fromStreamId x <;>
        simp_all [StreamKind.isUnidirectional, StreamKind.isClientInitiated]
    · rw [isSetAside, Bool.eq_false_iff.mpr hwaits, hignored, Bool.or_false]
  · exact keepsMarks_of_moves (Keeps.attempt (move_composes env)
      (handleBidirectionalStream_move env x data fin) fun c => Move.many_drop env c x true) c

theorem sendRequestInner_marks (headers : List Header) (fin : Bool) :
    Keeps (KeepsMarks env.role) (sendRequestInner env headers fin) := by
  have hencode : Keeps (KeepsMarks env.role) (encodeQpackHeaders headers) := by
    unfold encodeQpackHeaders modifyQpack
    grind
  have hsession := fun x session => settles_putSession (fun _ => False) x session
  refine Keeps.bind (keepsMarks_composes _) (by grind) fun c => ?_
  refine Keeps.bind (keepsMarks_composes _) (by grind) fun _ => ?_
  refine Keeps.bind (keepsMarks_composes _) hencode fun encoded => ?_
  refine Keeps.bind (keepsMarks_composes _) (by grind) fun _ => ?_
  split
  · grind
  · refine Keeps.bind (keepsMarks_composes _) (by grind) fun stream => ?_
    refine Keeps.bind (keepsMarks_composes _) (by unfold modifyQpack; grind) fun _ => ?_
    refine Keeps.bind (keepsMarks_composes _) (by unfold putStream; grind) fun _ => ?_
    grind

theorem body_marks (call : Call) : Keeps (KeepsMarks env.role) (body env call) := by
  cases call with
  | feedStream x data fin =>
    exact Keeps.bind (keepsMarks_composes _) (feedStreamInner_marks x data fin) fun _ => by grind
  | sendRequest headers fin =>
    exact Keeps.bind (keepsMarks_composes _) (sendRequestInner_marks headers fin) fun _ => by grind
  | _ =>
    exact (body_moves env _ rfl).mono fun _ _ _ _ =>
      Many.lift (keepsMarks_composes _) fun _ _ _ _ => callMove_marks

end Marks

/-! ## Every run -/

/-- An observation that a stream is rejected, or that its session ended. -/
def Obs.endsStream (x : Nat) : Obs → Bool
  | .event (.webTransport (.bufferedStreamRejected y _)) => y == x
  | .event (.webTransport (.sessionClosed _ resets _ _ _)) => resets.any fun r => r.streamId == x
  | .sessionEnded _ buffered => buffered.contains x
  | _ => false

def Obs.endsSession (sessionId : Nat) : Obs → Bool
  | .sessionEnded y _ => y == sessionId
  | _ => false

/-- The error of a type that was not negotiated, or of a request beyond a GOAWAY. -/
def isRefused (cfg : Config) (c : Connection) (i : Input) (x : Nat) : Bool :=
  match i.call, (c.feed cfg i).result with
  | .feedStream y _ _, .error (.streamError .streamCreationError) =>
    y == x && (StreamKind.fromStreamId x).isUnidirectional
  | .feedStream y _ _, .error (.streamError .requestRejected) =>
    y == x && !c.core.streams.contains x && c.core.lastSentGoawayId.any fun id => id.get ≤ x
  | _, _ => false

/-- Does the step reject the stream or end its session? -/
def endsStream (cfg : Config) (c : Connection) (i : Input) (x : Nat) : Bool :=
  (c.feed cfg i).obs.any (Obs.endsStream x) ||
    ((sessionOf c.core.wt x).any fun sid => (c.feed cfg i).obs.any (Obs.endsSession sid)) ||
    isRefused cfg c i x

/-- If the step ends the stream, then it puts it among the ignored ones. -/
def LeavesMark (cfg : Config) (x : Nat) (c : Connection) (i : Input) : Prop :=
  endsStream cfg c i x = true → isMarked (c.feed cfg i).conn.core x = true

instance (cfg : Config) (x : Nat) (c : Connection) (i : Input) : Decidable (LeavesMark cfg x c i) :=
  inferInstanceAs (Decidable (_ → _))

def isConnectionError : Except Error Response → Bool
  | .error (.connectionError _) => true
  | _ => false

/-- The step returns no connection error. -/
def Proceeds (cfg : Config) (c : Connection) (i : Input) : Prop :=
  isConnectionError (c.feed cfg i).result = false

instance (cfg : Config) (c : Connection) (i : Input) : Decidable (Proceeds cfg c i) :=
  inferInstanceAs (Decidable (_ = _))

/-- Nothing comes of the step. -/
structure Inert (c : Connection) (s : Step) : Prop where
  noConnectionError : isConnectionError s.result = false
  noEvent : eventsOf s.obs = []
  core : s.conn.core = c.core

section Run

variable {cfg : Config} {c : Connection}

theorem step_marks (env : Env) (call : Call) : (c.step env call).Stays (KeepsMarks env.role) c :=
  step_stays (keepsMarks_composes _) (body_marks call c.core)

theorem remember_proceeds {s : Step} (h : isConnectionError (remember s).result = false) :
    (remember s).conn.error = s.conn.error := by
  unfold remember at *
  split
  · rename_i hr
    simp only [hr, isConnectionError] at h
    cases h
  · rfl

/-- Only a connection error that is returned is recorded. -/
theorem step_proceeds (hc : c.error = none) (env : Env) (call : Call)
    (h : isConnectionError (c.step env call).result = false) :
    (c.step env call).conn.error = none := by
  have hguarded : ∀ x, (c.guarded x).conn.error = none := fun x => by
    simp only [guarded, hc]
    exact hc
  have hpop : ∀ s : Step, (popEvent s).conn.error = s.conn.error := fun s => by
    unfold popEvent
    split <;> rfl
  have htake : ∀ s : Step, (takeEvents s).conn.error = s.conn.error := fun s => by
    unfold takeEvents
    split <;> rfl
  cases call with
  | feedStream | streamReset | stopSending | sendBody | sendGoaway =>
    exact (remember_proceeds h).trans (hguarded _)
  | pollEvent => exact (remember_proceeds h).trans ((hpop _).trans (hguarded _))
  | drainEvents => exact (remember_proceeds h).trans ((htake _).trans (hguarded _))
  | feedDatagram | sendRequest | sendResponse => exact hguarded _
  | _ => exact hc

/-- Bytes of a marked stream do nothing. -/
theorem feed_marked (hc : c.error = none) (haside : SetAside cfg.role c.core.wt) {x : Nat}
    (hx : isMarked c.core x = true) (order : HashOrder) (data : Bytes) (fin : Bool) :
    c.feed cfg ⟨order, .feedStream x data fin⟩ = ⟨.ok .done, c, []⟩ := by
  have hnothing : feedStreamInner (cfg.env order) x data fin c.core = ⟨.ok (), c.core, []⟩ := by
    unfold isMarked at hx
    simp only [feedStreamInner, handleUnidirectionalStream, get_bind, ite_run]
    split at hx
    · rename_i huni
      simp only [huni, hx, if_true]
      rfl
    · rename_i hbidi
      have hset : isSetAside c.core.wt x = true := by rw [isSetAside, hx, Bool.or_true]
      obtain ⟨hserver, hclient⟩ := haside.fromClient x (.inl hset)
      obtain ⟨hdata, hdispatch⟩ := haside.noData x hset
      simp only [isDataStream] at hdata
      simp only [hclient, hdata, hdispatch, hx, StreamKind.isUnidirectional,
        StreamKind.isServerInitiated, Bool.and_false, Bool.false_eq_true, if_false, if_true]
      rfl
  have hbody : body (cfg.env order) (.feedStream x data fin) c.core = ⟨.ok .done, c.core, []⟩ := by
    rw [body, unit, bind_ok _ _ _ hnothing]
    rfl
  rcases c with ⟨core, events, error⟩
  obtain rfl : error = none := hc
  simp only [feed, step, guarded, exec, hbody, remember, eventsOf, List.filterMap_nil,
    List.append_nil]

/-- What a run keeps that meets no connection error. -/
structure Calm (cfg : Config) (c : Connection) : Prop where
  error : c.error = none
  aside : SetAside cfg.role c.core.wt

theorem Calm.step {i : Input} (h : Calm cfg c) (hi : Proceeds cfg c i) :
    Calm cfg (c.feed cfg i).conn :=
  ⟨step_proceeds h.error _ _ hi, (step_marks (cfg.env i.order) i.call h.aside).1⟩

theorem Calm.new {c : Connection} (hc : Connection.new cfg = .ok c) : Calm cfg c := by
  simp only [Connection.new, Core.new, bind, Except.bind, pure, Except.pure] at hc
  split at hc
  · cases hc
  · cases hc
    exact ⟨rfl, SetAside.new cfg.role⟩

theorem Calm.run (h : Calm cfg c) {is : List Input} (his : EveryStep cfg (Proceeds cfg) c is) :
    Calm cfg (after cfg c is) := his.inv (fun _ _ => Calm.step) h

/-- A mark stays. -/
theorem isMarked_run (h : Calm cfg c) {is : List Input}
    (his : EveryStep cfg (Proceeds cfg) c is) {x : Nat} (hx : isMarked c.core x = true) :
    isMarked (after cfg c is).core x = true := by
  induction is generalizing c with
  | nil => exact hx
  | cons i is ih =>
    exact ih (h.step his.1) his.2 ((step_marks (cfg.env i.order) i.call h.aside).2 x hx)

end Run

end Connection

end Http3
