import Http3.Connection.ContentLength

/-!
# Calls beside a stream

A call about another stream, or about none, leaves a request stream as it is: it reports nothing of
it, does not touch it, and does not take it for a data stream. The sessions that a call may make or
end are another matter.
-/

namespace Http3

namespace Connection

open Proc

/-- Is the call about another stream, or about none? -/
def isBeside (s : Nat) : Call → Bool
  | .feedStream x _ _ | .streamReset x _ _ | .stopSending x _ | .getStreamData x
  | .takeStreamData x | .consumeStreamData x _ | .sendResponse x _ _ | .sendBody x _ _
  | .registerLocalWtStream _ x => x != s
  | .initH3Streams x y z => x != s && y != s && z != s
  | .setMaxReceivedBodySize _ | .sendRequest _ _ => false
  | _ => true

/-- The stream is not taken for a data stream, and nothing about it is undecided. -/
structure Clear (s : Nat) (w : WtState) : Prop where
  data : isDataStream w s = false
  dispatch : w.pendingBidiDispatch.contains s = false
  aside : isSetAside w s = false

/-- A stream that is read frame by frame: none of its sections waits. -/
structure Plainly (s : Nat) (c : Core) : Prop where
  deferred : c.wt.deferredWtConnects.contains s = false
  unblocked : (c.streams.lookup s).bind RequestStream.qpackBlockedHeader = none
  clear : Clear s c.wt

/-- Nothing is reported of the stream, and it is left as it is. -/
def Aside (s : Nat) : Flow Obs Core := fun c o _ d =>
  Plainly s c → Plainly s d ∧ (∀ w ∈ o, w.isOf s = false) ∧
    d.streams.lookup s = c.streams.lookup s

/-- A stream that is clear stays so. -/
def Clears (s : Nat) : Flow Obs WtState := fun w _ _ w' => Clear s w → Clear s w'

section Rules

variable {s : Nat}

theorem clears_composes (s : Nat) : Composes (Clears s) where
  refl _ _ hw := hw
  trans h h' hw := h' (h hw)

@[grind .] theorem aside_composes (s : Nat) : Composes (Aside s) where
  refl _ _ hc := ⟨hc, fun _ hw => absurd hw List.not_mem_nil, rfl⟩
  trans h h' hc := by
    obtain ⟨hd, ho, hs⟩ := h hc
    obtain ⟨he, ho', hs'⟩ := h' hd
    exact ⟨he, forall_mem_append s ho ho', hs'.trans hs⟩

/-- Settling other streams. -/
theorem Settled.clear {p : Nat → Prop} (hp : ¬p s) {w w' : WtState} (h : Settled p w w')
    (hw : Clear s w) : Clear s w' := by
  refine ⟨Bool.eq_false_iff.mpr fun hd => ?_, Bool.eq_false_iff.mpr fun hd => ?_, ?_⟩
  · exact (h.dataStream s hd).elim hp fun hd => Bool.false_ne_true (hw.data.symm.trans hd)
  · exact Bool.false_ne_true (hw.dispatch.symm.trans (h.dispatch s hd))
  · have haside := hw.aside
    simp only [isSetAside] at haside ⊢
    rwa [h.waiting, h.ignored]

theorem clears_of_settles {p : Nat → Prop} (hp : ¬p s) {α : Type} {x : WtProc α}
    (h : Keeps (Settles p) x) : Keeps (Clears s) x := fun w => (h w).clear hp

theorem Clear.of_eq {w w' : WtState} (h : Clear s w)
    (hdata : w'.wtBidiStreams = w.wtBidiStreams)
    (hpending : w'.pendingWtBidiStreams = w.pendingWtBidiStreams)
    (hdispatch : w'.pendingBidiDispatch = w.pendingBidiDispatch)
    (hwaits : w'.pendingWtBidiPreNegotiation = w.pendingWtBidiPreNegotiation)
    (hignored : w'.ignoredPreNegotiationWtBidi = w.ignoredPreNegotiationWtBidi) : Clear s w' := by
  obtain ⟨h₁, h₂, h₃⟩ := h
  simp only [isDataStream, isSetAside] at h₁ h₃
  refine ⟨?_, ?_, ?_⟩ <;> simp only [isDataStream, isSetAside, hdata, hpending, hdispatch, hwaits,
    hignored] <;> assumption

/-- Nothing of the sessions changes, and nothing of the stream. -/
theorem aside_same {c d : Core} {o : List Obs} {b : Bool} (hwt : d.wt = c.wt)
    (hs : d.streams.lookup s = c.streams.lookup s) (ho : ∀ w ∈ o, w.isOf s = false) :
    Aside s c o b d := fun hc => by
  refine ⟨⟨?_, ?_, ?_⟩, ho, hs⟩
  · rw [hwt]; exact hc.deferred
  · rw [hs]; exact hc.unblocked
  · rw [hwt]; exact hc.clear

theorem aside_onWt_at {α : Type} {x : WtProc α} {c : Core}
    (h : KeepsAt (Heeds (· ≠ s) fun _ => True) c.wt x) (h' : KeepsAt (Clears s) c.wt x) :
    KeepsAt (Aside s) c (onWt x) := by
  intro hc
  obtain ⟨hd, ho, hs⟩ := mute_onWt_at h hc.deferred
  refine ⟨⟨hd, ?_, h' hc.clear⟩, ho, hs⟩
  rw [hs]
  exact hc.unblocked

theorem aside_onWt {α : Type} {x : WtProc α} (h : Keeps (Heeds (· ≠ s) fun _ => True) x)
    (h' : Keeps (Clears s) x) : Keeps (Aside s) (onWt x) :=
  fun c => aside_onWt_at (h c.wt) (h' c.wt)

@[grind ←] theorem aside_onWt_settled {α : Type} {x : WtProc α}
    (h : Keeps (Heeds (· ≠ s) fun _ => True) x) (h' : Keeps (Settles fun _ => False) x) :
    Keeps (Aside s) (onWt x) := aside_onWt h (clears_of_settles id h')

@[grind ←] theorem aside_rest {c d : Core} {b : Bool} (hwt : d.wt = c.wt)
    (hs : d.streams = c.streams) : Aside s c [] b d :=
  aside_same hwt (by rw [hs]) fun _ hw => absurd hw List.not_mem_nil

theorem aside_modify {f : Core → Core} (hwt : ∀ c, (f c).wt = c.wt)
    (hs : ∀ c, (f c).streams.lookup s = c.streams.lookup s) :
    Keeps (Aside s) (modify f : CoreProc Unit) :=
  fun c => aside_same (hwt c) (hs c) fun _ hw => absurd hw List.not_mem_nil

@[grind ←] theorem aside_modifyQpack (f : QpackState → QpackState) :
    Keeps (Aside s) (modify (modifyQpack f) : CoreProc Unit) :=
  aside_modify (fun _ => rfl) fun _ => rfl

theorem aside_emit {w : Obs} (hw : w.isOf s = false) :
    Keeps (Aside s) (emit w : CoreProc Unit) :=
  fun _ => aside_same rfl rfl fun _ h => by rwa [List.mem_singleton.mp h]

/-- What is silent about the stream, and clear about it. -/
theorem aside_of_idle {c d : Core} {o : List Obs} {b : Bool} (h : Idle s c o b d)
    (h' : Clears s c.wt o b d.wt) : Aside s c o b d := by
  intro hc
  obtain ⟨hd, ho, hs⟩ := h hc.unblocked hc.deferred
  refine ⟨⟨hd, ?_, h' hc.clear⟩, ho, hs⟩
  rw [hs]
  exact hc.unblocked

end Rules

/-! ## Streams of WebTransport -/

section Wt

variable (env : Env) {s x : Nat}

theorem setDispatch_clears (hx : x ≠ s) (buf : Bytes) :
    Keeps (Clears s) (modify (setDispatch x buf) : WtProc Unit) := by
  refine fun w hw => ⟨hw.data, ?_, hw.aside⟩
  simpa [setDispatch, Ne.symm hx] using hw.dispatch

theorem dropDispatch_clears : Keeps (Clears s) (modify (dropDispatch x) : WtProc Unit) := by
  refine fun w hw => ⟨hw.data, ?_, hw.aside⟩
  simp [dropDispatch, hw.dispatch]

theorem ignorePreNegotiation_clears (hx : x ≠ s) : Keeps (Clears s) (ignorePreNegotiation x) := by
  refine fun w hw => ⟨hw.data, hw.dispatch, ?_⟩
  have haside := hw.aside
  simp only [isSetAside, Bool.or_eq_false_iff] at haside ⊢
  exact ⟨haside.1, (contains_insert_of_ne (Ne.symm hx) _).trans haside.2⟩

theorem bufferPreNegotiationWtBidi_clears (hx : x ≠ s) (data : Bytes) (fin : Bool) :
    Keeps (Clears s) (bufferPreNegotiationWtBidi x data fin) := by
  have hR := clears_composes s
  have hwaits : ∀ f : WtState → IdMap PendingWtBidiPreNegotiation,
      (∀ w, (f w).contains s = w.pendingWtBidiPreNegotiation.contains s) →
      Keeps (Clears s)
        (modify fun w => { w with pendingWtBidiPreNegotiation := f w } : WtProc Unit) := by
    refine fun f hf w hw => ⟨hw.data, hw.dispatch, ?_⟩
    have haside := hw.aside
    simp only [isSetAside] at haside ⊢
    rwa [modify_run, hf]
  have hignore := ignorePreNegotiation_clears hx
  refine Keeps.bind hR (.get hR) fun w => ?_
  dsimp only
  split
  · exact hignore
  split
  · refine .bind hR (hwaits _ fun w => ?_) fun _ => hignore
    simp [Ne.symm hx]
  · refine hwaits _ fun w => ?_
    simp [Ne.symm hx]

theorem handleWtBidiStream_clears (hx : x ≠ s) (goaway : Option VarInt) (data : Bytes)
    (fin : Bool) : Keeps (Clears s) (handleWtBidiStream env goaway x data fin) :=
  clears_of_settles (fun h => hx h.symm) (settles_handleWtBidiStream env (· = x) goaway rfl data fin)

/-- The streams that wait are others. -/
theorem releasePreNegotiation_clears (goaway : Option VarInt) (negotiated : Bool) :
    Keeps (Clears s) (releasePreNegotiation env goaway negotiated) := by
  have hR := clears_composes s
  refine Keeps.get_bind fun w hw => ?_
  have hempty : Keeps (Clears s)
      (modify fun w => { w with pendingWtBidiPreNegotiation := ∅ } : WtProc Unit) := by
    refine fun w hw => ⟨hw.data, hw.dispatch, ?_⟩
    have haside := hw.aside
    simp only [isSetAside, Bool.or_eq_false_iff] at haside ⊢
    exact ⟨IdMap.contains_empty _, haside.2⟩
  refine (Keeps.bind hR hempty fun _ => .each hR _ fun y hy => ?_) w hw
  have hys : y ≠ s := by
    rintro rfl
    have hkey := (env.order.perm .pendingWtBidiPreNegotiation _).mem_iff.mp hy
    have haside := hw.aside
    rw [isSetAside, (IdMap.contains_iff_mem_keys _ _).mpr hkey, Bool.true_or] at haside
    cases haside
  unfold releaseWaiting
  split
  · exact .ret hR _
  · exact .ite (fun _ => handleWtBidiStream_clears env hys _ _ _) fun _ =>
      ignorePreNegotiation_clears hys

theorem handleWtStreamReset_clears (hx : x ≠ s) (errorCode finalSize : Nat) :
    Keeps (Clears s) (handleWtStreamReset env x errorCode finalSize) := by
  have hR := clears_composes s
  have hof : ∀ {α : Type} {y : WtProc α}, Keeps (Settles fun _ => False) y → Keeps (Clears s) y :=
    clears_of_settles id
  refine Keeps.bind hR (.get hR) fun w => ?_
  split
  · exact hof (by unfold terminateWtSession; grind)
  split
  · exact .ret hR _
  split
  · exact hof (by grind [settled_iff])
  split
  · refine .bind hR (fun w hw => ⟨hw.data, hw.dispatch, ?_⟩) fun _ => .ret hR _
    have haside := hw.aside
    simp only [isSetAside, Bool.or_eq_false_iff] at haside ⊢
    refine ⟨?_, (contains_insert_of_ne (Ne.symm hx) _).trans haside.2⟩
    rw [modify_run]
    simpa [Ne.symm hx] using haside.1
  split
  · exact .ret hR _
  · exact hof (by grind [settled_iff])

theorem wtSide_clears {w : WtState} {α : Type} {y : WtProc α} (h : WtSide env w y) :
    KeepsAt (Clears s) w y := by
  cases h with
  | releasePreNegotiation goaway negotiated =>
    exact releasePreNegotiation_clears env goaway negotiated w
  | _ => exact clears_of_settles (p := fun _ => False) id (by grind) w

theorem wtFrame_clears {w : WtState} {α : Type} {y : WtProc α} (h : WtFrame env w y) :
    KeepsAt (Clears s) w y := by
  cases h with
  | _ => exact clears_of_settles (p := fun _ => False) id (by grind) w

end Wt

/-! ## Calls -/

/-- A stream that is clear stays so, whatever else a procedure does. -/
def Clearing (s : Nat) : Flow Obs Core := fun c _ _ d => Clear s c.wt → Clear s d.wt

section Clearing

variable (env : Env) {s x : Nat}

@[grind .] theorem clearing_composes (s : Nat) : Composes (Clearing s) where
  refl _ _ hw := hw
  trans h h' hw := h' (h hw)

@[grind ←] theorem clearing_same {c d : Core} {o : List Obs} {b : Bool} (hwt : d.wt = c.wt) :
    Clearing s c o b d := fun hc => by rwa [hwt]

theorem clearing_onWt {α : Type} {y : WtProc α} (h : Keeps (Clears s) y) :
    Keeps (Clearing s) (onWt y) := fun c => h c.wt

@[grind ←] theorem clearing_onWt_settled {α : Type} {y : WtProc α}
    (h : Keeps (Settles fun _ => False) y) : Keeps (Clearing s) (onWt y) :=
  clearing_onWt (clears_of_settles id h)

theorem processDeferredWtConnects_clearing :
    Keeps (Clearing s) (processDeferredWtConnects env) := by
  have hregister : ∀ streamId headers,
      Keeps (Clearing s) (registerWtConnectSession env streamId headers) := by
    intro streamId headers
    unfold registerWtConnectSession modifyStream
    grind
  have hone : ∀ streamId headers,
      Keeps (Clearing s) (processDeferredWtConnect env streamId headers) := by
    intro streamId headers
    have hbuf := fun stream : RequestStream => settles_sessions (fun _ => False)
      (fun w => w.wtSessions.update streamId fun s =>
        { s with capsuleBuf := s.capsuleBuf ++ stream.recvBody }) WtState.deferredWtConnects
    refine Keeps.bind (clearing_composes s) (by grind) fun c => ?_
    refine Keeps.bind (clearing_composes s) (by grind) fun _ => ?_
    refine Keeps.bind (clearing_composes s) (by grind) fun _ => ?_
    split
    · exact Keeps.bind (clearing_composes s) (clearing_onWt_settled (hbuf _)) fun _ => by grind
    · grind
  have hclear := settles_sessions (fun _ => False) WtState.wtSessions fun _ => ∅
  unfold processDeferredWtConnects
  grind

theorem processData_clearing (streamId bodyLen : Nat) (data : Bytes) :
    Keeps (Clearing s) (processData env streamId bodyLen data) := by
  unfold processData
  grind

theorem move_clearing {c d : Core} {o : List Obs} {b : Bool} (h : Move env c o b d) :
    Clearing s c o b d := by
  cases h with
  | side h =>
    cases h with
    | plain h _ => exact clearing_same h.wt
    | wt _ y h => exact wtSide_clears env h
    | deferred c => exact processDeferredWtConnects_clearing env c
  | «open» => exact clearing_same (by rw [ensureStream_eq])
  | drop => exact clearing_same (removeStreamIfDone_wt _ c)
  | touch | blocked | report => exact clearing_same rfl
  | wt _ y h => exact wtFrame_clears env h
  | data => exact processData_clearing env _ _ _ c

theorem clearing_of_moves {α : Type} {y : CoreProc α} (h : Keeps (Many (Move env)) y) :
    Keeps (Clearing s) y :=
  h.mono fun _ _ _ _ => Many.lift (clearing_composes s) fun _ _ _ _ => move_clearing env

/-! ### Bytes of another stream -/

section Bytes

variable (hx : x ≠ s)

include hx

theorem dispatchWtStream_clearing (buf : Bytes) (fin : Bool) :
    Keeps (Clearing s) (dispatchWtStream env x buf fin) := by
  refine Keeps.bind (clearing_composes s) (by grind) fun c => ?_
  split
  · exact clearing_onWt (handleWtBidiStream_clears env hx _ buf fin)
  split
  · exact clearing_onWt (ignorePreNegotiation_clears hx)
  · exact clearing_onWt (bufferPreNegotiationWtBidi_clears hx buf fin)

theorem dispatchClientBidiStream_clearing (data : Bytes) (fin : Bool) :
    Keeps (Clearing s) (dispatchClientBidiStream env x data fin) := by
  have hrequest := fun buf =>
    clearing_of_moves (s := s) env (handleBidirectionalStream_move env x buf fin)
  have hset := fun buf => clearing_onWt (setDispatch_clears hx buf)
  have hdrop := clearing_onWt (dropDispatch_clears (s := s) (x := x))
  have hwt := fun buf => dispatchWtStream_clearing env hx buf fin
  refine Keeps.bind (clearing_composes s) (by grind) fun c => ?_
  dsimp only
  split
  · grind
  split
  · grind
  · split <;> grind

theorem feedStreamInner_clearing (data : Bytes) (fin : Bool) :
    Keeps (Clearing s) (feedStreamInner env x data fin) := by
  have hR := clearing_composes s
  have hrequest := Keeps.attempt hR
    (clearing_of_moves (s := s) env (handleBidirectionalStream_move env x data fin))
    (y := modify (removeStreamIfDone x)) fun c => clearing_same (removeStreamIfDone_wt x c)
  have huni := clearing_of_moves (s := s) env
    (Side.keeps_move env (handleUnidirectionalStream_side env x data fin))
  have hdispatch := dispatchClientBidiStream_clearing env hx data fin
  have hbuffer := clearing_onWt (bufferPreNegotiationWtBidi_clears hx data fin)
  refine Keeps.bind hR (.get hR) fun c => ?_
  have hwt := clearing_onWt (handleWtBidiStream_clears env hx c.lastSentGoawayId data fin)
  dsimp only
  split
  · exact huni
  split
  · exact .ite (fun _ => hwt) fun _ => .throw hR _
  split
  · exact hwt
  split
  · exact hdispatch
  split
  · exact .ret hR _
  split
  · exact hbuffer
  split
  · exact hdispatch
  · exact hrequest

end Bytes

end Clearing

section Aside

variable (env : Env) {s x : Nat}

theorem aside_of_mute {α : Type} {y : CoreProc α} (h : Keeps (Mute s) y)
    (h' : Keeps (Clearing s) y) : Keeps (Aside s) y := fun c => by
  intro hc
  obtain ⟨hd, ho, hs⟩ := h c hc.deferred
  refine ⟨⟨hd, ?_, h' c hc.clear⟩, ho, hs⟩
  rw [hs]
  exact hc.unblocked

theorem reportUnless_aside {y : WtProc Bool} {e : Event} (hy : Keeps (Aside s) (onWt y))
    (he : (Obs.event e).isOf s = false) : Keeps (Aside s) (reportUnless y e) := by
  refine Keeps.bind (aside_composes s) hy fun handled => ?_
  exact .ite (fun _ => .ret (aside_composes s) _) fun _ => aside_emit he

variable (hx : x ≠ s)

include hx

theorem aside_modifyStream (f : RequestStream → RequestStream) :
    Keeps (Aside s) (modify (modifyStream x f) : CoreProc Unit) :=
  aside_modify (fun _ => rfl) (lookup_modifyStream_ne hx f)

theorem aside_removeStreamIfDone :
    Keeps (Aside s) (modify (removeStreamIfDone x) : CoreProc Unit) := by
  have h := leaves_removeStreamIfDone (s := s) hx
  exact aside_of_mute (Leaves.keeps_mute h) fun c => clearing_same (removeStreamIfDone_wt x c)

theorem aside_putStream_at (stream : RequestStream) (c : Core) :
    Aside s c [] true (putStream x stream c) :=
  aside_same rfl (IdMap.lookup_insert_of_ne _ _ (Ne.symm hx)) fun _ hw => absurd hw List.not_mem_nil

theorem getStreamData_aside : Keeps (Aside s) (getStreamData env x) := by
  have hmark := aside_modifyStream hx RequestStream.markFinSent
  unfold getStreamData terminateWtSession
  grind

theorem consumeStreamData_aside (len : Nat) : Keeps (Aside s) (consumeStreamData x len) := by
  have hR := aside_composes s
  refine Keeps.get_bind fun c => ?_
  split
  · split <;> exact .of_keeps (by grind)
  split
  · exact .of_keeps (by grind)
  split
  · exact .of_keeps (by grind)
  split
  · exact .of_keeps (.ret hR _)
  split
  · exact .of_keeps (.throw hR _)
  · exact KeepsAt.bind hR (aside_putStream_at hx _ c) fun _ _ =>
      .of_keeps (aside_removeStreamIfDone hx)

theorem takeStreamData_aside : Keeps (Aside s) (takeStreamData env x) := by
  have hget := getStreamData_aside env hx
  have hconsume := consumeStreamData_aside hx
  unfold takeStreamData
  grind

/-- A stream that is there is sent on. -/
theorem putStream_aside (f : RequestStream → Except Error RequestStream) :
    Keeps (Aside s) (do
      let c ← get
      match c.streams.lookup x with
      | none => throw (.streamNotFound x)
      | some stream =>
        let stream ← ofExcept (f stream)
        modify (putStream x stream) : CoreProc Unit) := by
  have hR := aside_composes s
  refine Keeps.get_bind fun c => ?_
  split
  · exact .of_keeps (.throw hR _)
  · exact KeepsAt.ofExcept_bind hR fun t _ => aside_putStream_at hx t c

theorem sendResponseInner_aside (headers : List Header) (fin : Bool) :
    Keeps (Aside s) (sendResponseInner env x headers fin) := by
  have hqueue : ∀ encoded isInterim, Keeps (Aside s) (queueHeaders x encoded fin isInterim) :=
    fun encoded isInterim => putStream_aside hx fun stream =>
      stream.sendEncodedHeaders encoded fin isInterim
  have hencode : Keeps (Aside s) (encodeQpackHeaders headers) := by
    unfold encodeQpackHeaders
    grind
  unfold sendResponseInner
  grind

theorem clearQpackBlocked_aside :
    Keeps (Aside s) (modify (clearQpackBlocked x) : CoreProc Unit) := by
  refine aside_modify (clearQpackBlocked_wt x) fun c => ?_
  unfold clearQpackBlocked
  split
  · exact IdMap.lookup_insert_of_ne _ _ (Ne.symm hx)
  · rfl

theorem streamResetInner_aside (errorCode finalSize : Nat) :
    Keeps (Aside s) (streamResetInner env x errorCode finalSize) := by
  have hR := aside_composes s
  have hdrop := aside_onWt (s := s) (x := modify (dropDispatch x))
    (heeds_modify _ _ fun _ => .of_eq rfl rfl) dropDispatch_clears
  have hwt := aside_onWt (s := s) (handleWtStreamReset_heeds env _ _ x errorCode finalSize)
    (handleWtStreamReset_clears env hx errorCode finalSize)
  refine Keeps.bind hR (.get hR) fun c => .ite (fun _ => .throw hR _) fun _ => ?_
  refine .bind hR (aside_modifyStream hx _) fun _ => .bind hR hdrop fun _ => ?_
  refine .bind hR (clearQpackBlocked_aside hx) fun _ => .bind hR (aside_modifyQpack _) fun _ => ?_
  exact .bind hR (reportUnless_aside hwt rfl) fun _ => aside_removeStreamIfDone hx

theorem stopSendingInner_aside (errorCode : Nat) :
    Keeps (Aside s) (stopSendingInner env x errorCode) := by
  have hR := aside_composes s
  have hwt : Keeps (Aside s) (onWt (handleWtStopSending env x errorCode)) := by grind
  refine Keeps.bind hR (.get hR) fun c => .ite (fun _ => .throw hR _) fun _ => ?_
  refine .bind hR (aside_modifyStream hx _) fun _ => ?_
  refine .bind hR (clearQpackBlocked_aside hx) fun _ => .bind hR (aside_modifyQpack _) fun _ => ?_
  exact .bind hR (reportUnless_aside hwt rfl) fun _ => aside_removeStreamIfDone hx

theorem registerLocalWtStream_aside (sessionId : Nat) :
    Keeps (Aside s) (registerLocalWtStream env sessionId x) := by
  have hR := aside_composes s
  refine Keeps.get_bind fun c => ?_
  dsimp only
  split
  · exact .of_keeps (.throw hR _)
  split
  · exact .of_keeps (.throw hR _)
  split
  · exact .of_keeps (.throw hR _)
  split
  · exact .of_keeps (.throw hR _)
  rename_i session hs
  split
  · exact .of_keeps (.throw hR _)
  · refine aside_onWt_at (heeds_modify_at _ _ ?_) ?_
    · exact ((Shrinks.refl c.wt).putSession (contains_of_lookup hs) _).enterStream _ _ _
    · exact Settled.clear (p := (· = x)) (fun h => hx h.symm)
        (((Settled.refl c.wt).putSession _ _).enterStream _ _ _ fun _ => rfl)

omit hx

theorem setLocalStream_aside (y : Nat) : Keeps (Aside s) (setControlStreamId env y) ∧
    Keeps (Aside s) (setEncoderStreamId env y) ∧ Keeps (Aside s) (setDecoderStreamId env y) := by
  refine ⟨?_, ?_, ?_⟩
  · unfold setControlStreamId
    grind
  · unfold setEncoderStreamId
    grind
  · unfold setDecoderStreamId
    grind

theorem initH3Streams_aside {x y z : Nat} (hx : x ≠ s) (hy : y ≠ s) (hz : z ≠ s) :
    Keeps (Aside s) (initH3Streams env x y z) := by
  have htake : ∀ x, x ≠ s → Keeps (Aside s) (takeBytes env x) := by
    intro x hx
    have htake := takeStreamData_aside env hx
    unfold takeBytes
    grind
  obtain ⟨hcontrol, -, -⟩ := setLocalStream_aside env (s := s) x
  obtain ⟨-, hencoder, -⟩ := setLocalStream_aside env (s := s) y
  obtain ⟨-, -, hdecoder⟩ := setLocalStream_aside env (s := s) z
  have htakex := htake x hx
  have htakey := htake y hy
  have htakez := htake z hz
  unfold initH3Streams
  grind

theorem retryBlockedStreams_aside : Keeps (Aside s) (retryBlockedStreams env) := fun c =>
  aside_of_idle (retryBlockedStreams_idle env c)
    (clearing_of_moves env (retryBlockedStreams_move env) c)

theorem feedDatagramInner_aside (data : Bytes) : Keeps (Aside s) (feedDatagramInner env data) :=
  aside_of_mute (keeps_mute_of_side env (feedDatagramInner_side env data))
    (clearing_of_moves env (Side.keeps_move env (feedDatagramInner_side env data)))

/-- **A call beside a stream leaves it alone**. -/
theorem body_aside (call : Call) (h : isBeside s call = true) :
    Keeps (Aside s) (body env call) := by
  have hR := aside_composes s
  have hunit : ∀ {y : CoreProc Unit}, Keeps (Aside s) y → Keeps (Aside s) (unit y) :=
    fun hy => .bind hR hy fun _ => .ret hR _
  cases call with
  | sendRequest | setMaxReceivedBodySize => cases h
  | setControlStreamId x => exact hunit (setLocalStream_aside env x).1
  | setEncoderStreamId x => exact hunit (setLocalStream_aside env x).2.1
  | setDecoderStreamId x => exact hunit (setLocalStream_aside env x).2.2
  | initH3Streams x y z =>
    simp only [isBeside, Bool.and_eq_true, bne_iff_ne] at h
    exact .bind hR (initH3Streams_aside env h.1.1 h.1.2 h.2) fun _ => .ret hR _
  | setPreviousWtSettings settings =>
    refine hunit (aside_onWt_settled (heeds_modify _ _ fun w => .of_eq rfl rfl) ?_)
    exact settles_modify _ fun w => ⟨fun _ h => .inr h, fun _ h => h, rfl, rfl⟩
  | setWebtransportTransportVerified datagrams resetStreamAt =>
    refine hunit (aside_onWt_settled ?_ ?_)
    · refine .ite (fun _ => heeds_modify _ _ fun w => .of_eq rfl rfl) fun _ => ?_
      exact .throw (heeds_composes _ _) _
    · refine .ite (fun _ => settles_modify _ fun w => ?_) fun _ => .throw (settles_composes _) _
      exact ⟨fun _ h => .inr h, fun _ h => h, rfl, rfl⟩
  | feedStream x data fin =>
    have hx : x ≠ s := bne_iff_ne.mp h
    exact hunit (aside_of_mute (feedStreamInner_mute env hx data fin)
      (feedStreamInner_clearing env hx data fin))
  | feedDatagram data => exact hunit (feedDatagramInner_aside env data)
  | streamReset x errorCode finalSize =>
    exact hunit (streamResetInner_aside env (bne_iff_ne.mp h) errorCode finalSize)
  | stopSending x errorCode => exact hunit (stopSendingInner_aside env (bne_iff_ne.mp h) errorCode)
  | pollEvent | drainEvents => exact hunit (retryBlockedStreams_aside env)
  | getStreamData x => exact .bind hR (getStreamData_aside env (bne_iff_ne.mp h)) fun _ => .ret hR _
  | takeStreamData x =>
    exact .bind hR (takeStreamData_aside env (bne_iff_ne.mp h)) fun _ => .ret hR _
  | consumeStreamData x len => exact hunit (consumeStreamData_aside (bne_iff_ne.mp h) len)
  | sendResponse x headers fin =>
    exact hunit (sendResponseInner_aside env (bne_iff_ne.mp h) headers fin)
  | sendBody x data fin =>
    exact hunit (putStream_aside (bne_iff_ne.mp h) fun stream => stream.sendBody data fin)
  | sendGoaway id =>
    refine hunit ?_
    unfold sendGoawayInner
    grind
  | registerLocalWtStream sessionId x =>
    exact hunit (registerLocalWtStream_aside env (bne_iff_ne.mp h) sessionId)
  | wtDataConsumed sessionId bytes =>
    refine hunit (aside_onWt_settled (heeds_modify _ _ fun w => ?_) ?_)
    · exact (Shrinks.refl w).update _ _
    · exact settles_modify _ fun w => ⟨fun _ h => .inr h, fun _ h => h, rfl, rfl⟩
  | takeWtPendingCapsules sessionId =>
    exact .bind hR (aside_onWt_settled (by grind) (by grind)) fun _ => .ret hR _
  | sendDatagram sessionId payload => exact .bind hR (.get hR) fun _ => .ofExcept hR _

/-! ### Requests -/

/-- A request on another stream leaves the stream alone. -/
theorem sendRequestInner_aside (headers : List Header) (fin : Bool) {c : Core}
    (hid : c.nextStreamId ≠ s) : KeepsAt (Aside s) c (sendRequestInner env headers fin) := by
  have hR := aside_composes s
  have hencode : Keeps (Aside s) (encodeQpackHeaders headers) := by
    unfold encodeQpackHeaders
    grind
  have hraise : Keeps (Aside s)
      (modify fun c => { c with nextStreamId := c.nextStreamId + 4 } : CoreProc Unit) :=
    aside_modify (fun _ => rfl) fun _ => rfl
  have hput : ∀ stream, Keeps (Aside s)
      (modify (putStream c.nextStreamId stream) : CoreProc Unit) :=
    fun stream c' => aside_putStream_at hid stream c'
  have hsession : Keeps (Aside s)
      (onWt (modify (putSession c.nextStreamId (WtSession.new.offer headers)))) :=
    fun c' hc' => ⟨⟨hc'.deferred, hc'.unblocked, hc'.clear.of_eq rfl rfl rfl rfl rfl⟩,
      fun _ hw => absurd hw List.not_mem_nil, rfl⟩
  refine KeepsAt.get_bind (KeepsAt.ofExcept_bind hR fun _ _ => .of_keeps ?_)
  refine .bind hR hencode fun encoded => .bind hR hraise fun _ => .ite (fun _ => .throw hR _) fun _ => ?_
  refine .bind hR (.ofExcept hR _) fun stream => .bind hR (aside_modifyQpack _) fun _ => ?_
  exact .bind hR (hput stream) fun _ => .ite
    (fun _ => .bind hR hsession fun _ => .ret hR _)
    fun _ => .bind hR (.ret hR ()) fun _ => .ret hR _

def isRequest : Call → Bool
  | .sendRequest _ _ => true
  | _ => false

/-- The call is about other streams; a request gets another id. -/
def StandsAside (s : Nat) (c : Core) (call : Call) : Prop :=
  isBeside s call = true ∨ isRequest call = true ∧ c.nextStreamId ≠ s

instance (s : Nat) (c : Core) (call : Call) : Decidable (StandsAside s c call) :=
  inferInstanceAs (Decidable (_ ∨ _ ∧ _))

theorem body_standsAside {c : Core} {call : Call} (h : StandsAside s c call) :
    KeepsAt (Aside s) c (body env call) := by
  obtain h | ⟨h, hid⟩ := h
  · exact body_aside env call h c
  · cases call with
    | sendRequest headers fin =>
      exact KeepsAt.bind_keeps (aside_composes s) (sendRequestInner_aside env headers fin hid)
        fun _ => .ret (aside_composes s) _
    | _ => cases h

end Aside

end Connection

end Http3
