import Http3.Connection.Goaway
import Http3.Connection.Rejected

/-!
# What leaves a message alone

The message of a request stream is changed by its own frames only. Other streams, sessions and the
calls of the application report nothing of it, and what they do to the stream is at most to send on
it or to take it out of the table.
-/

namespace Http3

/-- Does it tell of a field section, of data or of the end of stream `s`? -/
def Obs.isOf (s : Nat) : Obs → Bool
  | .event (.headersBegin x) | .event (.header x _ _) | .event (.headersEnd x)
  | .event (.data x _) | .event (.streamEnd x) | .fieldSection x _ _ => x == s
  | _ => false

theorem Obs.IsWt.not_of {p : Nat → Prop} {o : Obs} (h : o.IsWt p) (s : Nat) :
    o.isOf s = false := by
  rcases o with e | _ | _ | _ | _ | _
  · cases e with
    | webTransport e => rfl
    | _ => exact h.elim
  · exact h.elim
  · exact h.elim
  · rfl
  · exact h.elim
  · rfl

theorem Obs.not_of_plain {w : Obs} (h : w.isPlain = true) (s : Nat) : w.isOf s = false := by
  rcases w with e | _ | _ | _ | _ | _
  · cases e with
    | settingsReceived | goawayReceived => rfl
    | _ => cases h
  all_goals cases h

namespace Connection

open Proc

/-! ## Relations -/

/-- What was received of the message is the same. -/
@[mk_iff]
structure SameMessage (r t : RequestStream) : Prop where
  recvHeaders : t.recvHeaders = r.recvHeaders
  recvBody : t.recvBody = r.recvBody
  isWtConnect : t.isWtConnect = r.isWtConnect
  isHeadRequest : t.isHeadRequest = r.isHeadRequest

theorem SameMessage.trans {r t u : RequestStream} (h : SameMessage r t) (h' : SameMessage t u) :
    SameMessage r u :=
  ⟨h'.recvHeaders.trans h.recvHeaders, h'.recvBody.trans h.recvBody,
    h'.isWtConnect.trans h.isWtConnect, h'.isHeadRequest.trans h.isHeadRequest⟩

/-- Unless its CONNECT waits for SETTINGS, nothing is reported of stream `s`, and it is left as it
is. -/
def Mute (s : Nat) : Flow Obs Core := fun c o _ d =>
  c.wt.deferredWtConnects.contains s = false →
    d.wt.deferredWtConnects.contains s = false ∧ (∀ w ∈ o, w.isOf s = false) ∧
      d.streams.lookup s = c.streams.lookup s

/-- As `Mute`, but the stream may be sent on, and it may leave the table. -/
def Silent (s : Nat) : Flow Obs Core := fun c o _ d =>
  c.wt.deferredWtConnects.contains s = false →
    d.wt.deferredWtConnects.contains s = false ∧ (∀ w ∈ o, w.isOf s = false) ∧
      ∀ t, d.streams.lookup s = some t → ∃ r, c.streams.lookup s = some r ∧ SameMessage r t

/-- A session of stream `s` is neither made nor ended. -/
def Spares (s : Nat) : Flow Obs WtState := fun w _ _ w' =>
  w.wtSessions.contains s = false → w'.wtSessions.contains s = false ∧
    w'.closedWtSessions.contains s = w.closedWtSessions.contains s

/-- Both for the stream and for a session of it. -/
def Leaves (s : Nat) : Flow Obs Core := fun c o b d => Mute s c o b d ∧ Spares s c.wt o b d.wt

section Rules

variable (s : Nat)

theorem forall_mem_append {o o' : List Obs} (h : ∀ w ∈ o, w.isOf s = false)
    (h' : ∀ w ∈ o', w.isOf s = false) : ∀ w ∈ o ++ o', w.isOf s = false := fun w hw =>
  (List.mem_append.mp hw).elim (h w) (h' w)

@[grind .] theorem mute_composes : Composes (Mute s) where
  refl _ _ hc := ⟨hc, fun _ hw => absurd hw List.not_mem_nil, rfl⟩
  trans h h' hc := by
    obtain ⟨hd, ho, hs⟩ := h hc
    obtain ⟨he, ho', hs'⟩ := h' hd
    exact ⟨he, forall_mem_append s ho ho', hs'.trans hs⟩

@[grind .] theorem silent_composes : Composes (Silent s) where
  refl _ _ hc := ⟨hc, fun _ hw => absurd hw List.not_mem_nil, fun t ht =>
    ⟨t, ht, rfl, rfl, rfl, rfl⟩⟩
  trans h h' hc := by
    obtain ⟨hd, ho, hs⟩ := h hc
    obtain ⟨he, ho', hs'⟩ := h' hd
    refine ⟨he, forall_mem_append s ho ho', fun u hu => ?_⟩
    obtain ⟨t, ht, htu⟩ := hs' u hu
    obtain ⟨r, hr, hrt⟩ := hs t ht
    exact ⟨r, hr, hrt.trans htu⟩

@[grind .] theorem spares_composes : Composes (Spares s) where
  refl _ _ hw := ⟨hw, rfl⟩
  trans h h' hw := ⟨(h' (h hw).1).1, (h' (h hw).1).2.trans (h hw).2⟩

@[grind .] theorem leaves_composes : Composes (Leaves s) where
  refl c b := ⟨(mute_composes s).refl c b, (spares_composes s).refl c.wt b⟩
  trans h h' := ⟨(mute_composes s).trans h.1 h'.1, (spares_composes s).trans h.2 h'.2⟩

variable {s}

theorem Mute.silent {c d : Core} {o : List Obs} {b : Bool} (h : Mute s c o b d) :
    Silent s c o b d := by
  intro hc
  obtain ⟨hd, ho, hs⟩ := h hc
  exact ⟨hd, ho, fun t ht => ⟨t, hs ▸ ht, rfl, rfl, rfl, rfl⟩⟩

theorem Leaves.keeps_mute {α : Type} {x : CoreProc α} (h : Keeps (Leaves s) x) :
    Keeps (Mute s) x := h.mono fun _ _ _ _ h => h.1

theorem mute_same {c d : Core} {o : List Obs} {b : Bool} (hwt : d.wt = c.wt)
    (hs : d.streams.lookup s = c.streams.lookup s) (ho : ∀ w ∈ o, w.isOf s = false) :
    Mute s c o b d := fun hc => ⟨by rwa [hwt], ho, hs⟩

theorem mute_onWt_at {p : Nat → Prop} {α : Type} {x : WtProc α} {c : Core}
    (h : KeepsAt (Heeds (· ≠ s) p) c.wt x) : KeepsAt (Mute s) c (onWt x) := by
  obtain ⟨-, hwaiting, -, hkinds⟩ := h
  refine fun hc => ⟨?_, fun w hw => (hkinds w hw).not_of s, rfl⟩
  refine Bool.eq_false_iff.mpr fun hd => ?_
  obtain hold | hne := hwaiting s hd
  · exact Bool.false_ne_true (hc.symm.trans hold)
  · exact hne rfl

theorem mute_onWt {p : Nat → Prop} {α : Type} {x : WtProc α} (h : Keeps (Heeds (· ≠ s) p) x) :
    Keeps (Mute s) (onWt x) := fun c => mute_onWt_at (h c.wt)

end Rules

/-! ## Sessions of other streams -/

section Spares

variable (env : Env) {s x : Nat}

@[grind ←] theorem spares_modify {f : WtState → WtState}
    (hsessions : ∀ w, (f w).wtSessions.contains s = true → w.wtSessions.contains s = true)
    (hclosed : ∀ w, (f w).closedWtSessions.contains s = w.closedWtSessions.contains s) :
    Keeps (Spares s) (modify f : WtProc Unit) := by
  refine fun w hw => ⟨Bool.eq_false_iff.mpr fun h => ?_, hclosed w⟩
  exact Bool.false_ne_true (hw.symm.trans (hsessions w h))

@[grind ←] theorem spares_emit (o : Obs) : Keeps (Spares s) (emit o : WtProc Unit) :=
  fun _ hw => ⟨hw, rfl⟩

@[grind ←] theorem spares_emitAll (o : List Obs) : Keeps (Spares s) (emitAll o : WtProc Unit) :=
  fun _ hw => ⟨hw, rfl⟩

variable (hx : x ≠ s)

include hx

theorem contains_putSession (session : WtSession) (w : WtState) :
    (putSession x session w).wtSessions.contains s = w.wtSessions.contains s := by
  have hput : IdMap.contains (w.wtSessions.insert x session) s = IdMap.contains w.wtSessions s := by
    rw [IdMap.contains_insert, decide_eq_false (Ne.symm hx), Bool.false_or]
  exact hput

theorem closed_dropSession (w : WtState) :
    (dropSession x w).closedWtSessions.contains s = w.closedWtSessions.contains s :=
  contains_insert_of_ne (Ne.symm hx) w.closedWtSessions

@[grind ←] theorem putSession_spares (session : WtSession) :
    Keeps (Spares s) (modify (putSession x session) : WtProc Unit) :=
  spares_modify (fun w h => by rwa [contains_putSession hx] at h) fun _ => rfl

@[grind ←] theorem terminateWtSessionWith_spares (errorCode closeCode : Nat) (message : Bytes) :
    Keeps (Spares s) (terminateWtSessionWith env x errorCode closeCode message) := by
  have hR := spares_composes s
  refine Keeps.bind hR (.get hR) fun w => ?_
  split
  · exact .ret hR _
  split
  · exact .ret hR _
  refine .bind hR (.ofExcept hR _) fun resets => .bind hR (spares_modify (fun w h => ?_) fun w => ?_)
    fun _ => by grind
  · have hless : IdMap.contains (w.wtSessions.erase x) s = true := h
    rw [IdMap.contains_erase] at hless
    exact (Bool.and_eq_true_iff.mp hless).2
  · exact closed_dropSession hx w

@[grind ←] theorem abandonSession_spares (session : WtSession) :
    Keeps (Spares s) (abandonSession x session) := by
  have hR := spares_composes s
  refine Keeps.bind hR (spares_modify (fun w h => ?_) fun w => closed_dropSession hx w) fun _ =>
    spares_emit _
  have hless : IdMap.contains (w.wtSessions.erase x) s = true := h
  rw [IdMap.contains_erase] at hless
  exact (Bool.and_eq_true_iff.mp hless).2

@[grind ←] theorem deliverBufferedStreams_spares : Keeps (Spares s) (deliverBufferedStreams x) := by
  have hR := spares_composes s
  have hput : ∀ closed session, Keeps (Spares s)
      (modify fun w => eraseClosed closed (putSession x session w) : WtProc Unit) :=
    fun closed session => spares_modify (fun w h => by
      rwa [← contains_putSession hx session w]) fun _ => rfl
  refine Keeps.bind hR (.get hR) fun w => ?_
  split
  · exact .ret hR _
  · refine .bind hR (spares_emitAll _) fun _ => .ite (fun _ => ?_) fun _ => ?_
    · exact .bind hR (hput _ _) fun _ => .ret hR _
    · exact .bind hR (hput _ _) fun _ => .bind hR (spares_emitAll _) fun _ => .ret hR _

theorem establish_spares (peer : Option Settings) (session : WtSession) :
    Keeps (Spares s) (establish env peer x session) := by
  unfold establish terminateFlowControl
  grind

@[grind ←] theorem handleWtConnectResponse_spares (peer : Option Settings)
    (headers : List Header) : Keeps (Spares s) (handleWtConnectResponse env peer x headers) := by
  have hestablish := establish_spares env hx peer
  unfold handleWtConnectResponse
  grind

@[grind ←] theorem registerSession_spares (headers : List Header) :
    Keeps (Spares s) (registerSession x headers) := by
  refine Keeps.bind (spares_composes s) (spares_emit _) fun _ => spares_modify (fun w h => ?_)
    fun _ => rfl
  rwa [contains_putSession hx] at h

omit hx in
@[grind ←] theorem deferSession_spares (headers : List Header) :
    Keeps (Spares s) (deferSession x headers) :=
  Keeps.bind (spares_composes s) (spares_emit _) fun _ =>
    spares_modify (fun _ h => h) fun _ => rfl

@[grind ←] theorem handleWtCapsule_spares (capsule : Capsule) :
    Keeps (Spares s) (handleWtCapsule env x capsule) := by
  unfold handleWtCapsule
  grind

@[grind ←] theorem processWtCapsuleData_spares (data : Bytes) :
    Keeps (Spares s) (processWtCapsuleData env x data) := by
  have hone : Keeps (Spares s) (processWtCapsule env x) := by
    unfold processWtCapsule
    grind
  unfold processWtCapsuleData
  grind

@[grind ←] theorem handleWtDataFrame_spares (peer : Option Settings) (bodyLen : Nat)
    (data : Bytes) : Keeps (Spares s) (handleWtDataFrame env peer bodyLen x data) := by
  unfold handleWtDataFrame
  grind

@[grind ←] theorem handleWtStreamEnd_spares : Keeps (Spares s) (handleWtStreamEnd env x) := by
  have hforget : Keeps (Spares s) (modify fun w => { w with
      deferredWtConnects := w.deferredWtConnects.erase x } : WtProc Unit) :=
    spares_modify (fun _ h => h) fun _ => rfl
  unfold handleWtStreamEnd terminateWtSession
  grind

end Spares

/-! ## Frames of other streams -/

section Frames

variable (env : Env) {s x : Nat} (hx : x ≠ s)

theorem leaves_same {c d : Core} {o : List Obs} {b : Bool} (hwt : d.wt = c.wt)
    (hs : d.streams.lookup s = c.streams.lookup s) (ho : ∀ w ∈ o, w.isOf s = false) :
    Leaves s c o b d := ⟨mute_same hwt hs ho, hwt ▸ (spares_composes s).refl c.wt b⟩

@[grind ←] theorem leaves_modify {f : Core → Core} (hwt : ∀ c, (f c).wt = c.wt)
    (hs : ∀ c, (f c).streams.lookup s = c.streams.lookup s) :
    Keeps (Leaves s) (modify f : CoreProc Unit) :=
  fun c => leaves_same (hwt c) (hs c) fun _ hw => absurd hw List.not_mem_nil

@[grind ←] theorem leaves_modifyQpack (f : QpackState → QpackState) :
    Keeps (Leaves s) (modify (modifyQpack f) : CoreProc Unit) :=
  leaves_modify (fun _ => rfl) fun _ => rfl

theorem leaves_emitAll {l : List Obs} (hl : ∀ w ∈ l, w.isOf s = false) :
    Keeps (Leaves s) (emitAll l : CoreProc Unit) := fun _ => leaves_same rfl rfl hl

theorem leaves_emit {w : Obs} (hw : w.isOf s = false) :
    Keeps (Leaves s) (emit w : CoreProc Unit) :=
  fun _ => leaves_same rfl rfl fun _ h => by rwa [List.mem_singleton.mp h]

@[grind ←] theorem leaves_onWt {α : Type} {y : WtProc α}
    (h : Keeps (Heeds (· ≠ s) fun _ => True) y) (h' : Keeps (Spares s) y) :
    Keeps (Leaves s) (onWt y) := fun c => ⟨mute_onWt h c, h' c.wt⟩

@[grind ←] theorem decodeSection_leaves (encoded : Bytes) :
    Keeps (Leaves s) (decodeSection x encoded) := by
  have hR := leaves_composes s
  refine Keeps.bind hR (.get hR) fun c => .bind hR (by grind) fun _ => ?_
  split
  · exact .ret hR _
  · exact .bind hR (leaves_emit rfl) fun _ => .throw hR _

include hx

theorem lookup_modifyStream_ne (f : RequestStream → RequestStream) (c : Core) :
    (modifyStream x f c).streams.lookup s = c.streams.lookup s :=
  IdMap.lookup_update_of_ne _ _ (Ne.symm hx)

@[grind ←] theorem leaves_modifyStream (f : RequestStream → RequestStream) :
    Keeps (Leaves s) (modify (modifyStream x f) : CoreProc Unit) :=
  leaves_modify (fun _ => rfl) (lookup_modifyStream_ne hx f)

theorem leaves_putStream_at (stream : RequestStream) (c : Core) :
    Leaves s c [] true (putStream x stream c) :=
  leaves_same rfl (IdMap.lookup_insert_of_ne _ _ (Ne.symm hx)) fun _ hw => absurd hw List.not_mem_nil

@[grind ←] theorem leaves_putStream (stream : RequestStream) :
    Keeps (Leaves s) (modify (putStream x stream) : CoreProc Unit) := leaves_putStream_at hx stream

@[grind ←] theorem leaves_removeStreamIfDone :
    Keeps (Leaves s) (modify (removeStreamIfDone x) : CoreProc Unit) := by
  refine leaves_modify (fun c => ?_) fun c => ?_ <;> unfold removeStreamIfDone <;> split
  · rfl
  · rfl
  · exact IdMap.lookup_erase_of_ne _ (Ne.symm hx)
  · rfl

@[grind ←] theorem leaves_ensureStream :
    Keeps (Leaves s) (modify (ensureStream env x) : CoreProc Unit) := by
  refine leaves_modify (fun c => ?_) fun c => ?_ <;> unfold ensureStream <;> split
  · rfl
  · rfl
  · rfl
  · exact IdMap.lookup_insert_of_ne _ _ (Ne.symm hx)

@[grind ←] theorem leaves_registerBlocked (encoded : Bytes) (isTrailer : Bool) :
    Keeps (Leaves s) (modify (registerBlocked x encoded isTrailer) : CoreProc Unit) :=
  leaves_modify (fun _ => rfl) fun _ => lookup_modifyStream_ne hx _ _

theorem headerEvents_leaves (headers : List Header) :
    Keeps (Leaves s) (emitAll (headerEvents x headers) : CoreProc Unit) := by
  refine leaves_emitAll fun w hw => ?_
  simp only [headerEvents, List.cons_append, List.mem_cons, List.mem_append, List.mem_map,
    List.not_mem_nil, or_false] at hw
  obtain rfl | ⟨header, -, rfl⟩ | rfl := hw
  all_goals exact beq_eq_false_iff_ne.mpr hx

@[grind ←] theorem reportHeaders_leaves (headers : List Header) :
    Keeps (Leaves s) (reportHeaders x headers) := by
  have hevents := headerEvents_leaves hx headers
  unfold reportHeaders
  grind

@[grind ←] theorem deferWtConnect_leaves (headers : List Header) :
    Keeps (Leaves s) (deferWtConnect x headers) := by
  unfold deferWtConnect
  grind

@[grind ←] theorem registerWtConnectSession_leaves (headers : List Header) :
    Keeps (Leaves s) (registerWtConnectSession env x headers) := by
  unfold registerWtConnectSession
  grind

@[grind ←] theorem acceptHeaders_leaves (headers : List Header) :
    Keeps (Leaves s) (acceptHeaders env x headers) := by
  unfold acceptHeaders noteConnectResponse
  grind

@[grind ←] theorem emitHeaderEvents_leaves (headers : List Header) (isTrailer : Bool) :
    Keeps (Leaves s) (emitHeaderEvents env x headers isTrailer) := by
  unfold emitHeaderEvents
  grind

theorem fieldSection_leaves (headers : List Header) (isTrailer : Bool) :
    Keeps (Leaves s) (emit (.fieldSection x headers isTrailer) : CoreProc Unit) :=
  leaves_emit (beq_eq_false_iff_ne.mpr hx)

@[grind ←] theorem processSection_leaves (encoded : Bytes) (isTrailer : Bool) :
    Keeps (Leaves s) (processSection env x encoded isTrailer) := by
  have hsection := fun headers => fieldSection_leaves hx headers isTrailer
  unfold processSection
  grind

@[grind ←] theorem processData_leaves (bodyLen : Nat) (data : Bytes) :
    Keeps (Leaves s) (processData env x bodyLen data) := by
  have hreceived : Keeps (Leaves s) (emit (.dataReceived x data) : CoreProc Unit) := leaves_emit rfl
  have hdata : Keeps (Leaves s) (emit (.event (.data x data)) : CoreProc Unit) :=
    leaves_emit (beq_eq_false_iff_ne.mpr hx)
  unfold processData
  grind

@[grind ←] theorem processStreamEnd_leaves (stream : RequestStream) :
    Keeps (Leaves s) (processStreamEnd env x stream) := by
  have hend : Keeps (Leaves s) (emit (.event (.streamEnd x)) : CoreProc Unit) :=
    leaves_emit (beq_eq_false_iff_ne.mpr hx)
  unfold processStreamEnd
  grind

@[grind ←] theorem processStreamFrames_leaves : Keeps (Leaves s) (processStreamFrames env x) := by
  have hR := leaves_composes s
  have hone : Keeps (Leaves s) (processStreamFrame env x) := by
    refine Keeps.bind hR (.get hR) fun c => ?_
    split
    · exact .throw hR _
    · refine .bind hR (leaves_putStream hx _) fun _ => .bind hR (.ofExcept hR _) fun r => ?_
      split <;> grind
  unfold processStreamFrames
  grind

theorem retryStream_leaves : Keeps (Leaves s) (retryStream env x) := by
  have hR := leaves_composes s
  refine Keeps.bind hR (.get hR) fun c => ?_
  split
  · exact .ret hR _
  · refine .bind hR (by grind) fun _ => .bind hR (by grind) fun r => ?_
    split
    · refine .bind hR (fieldSection_leaves hx _ _) fun _ => .bind hR (by grind) fun _ => ?_
      grind
    · grind

theorem handleBidirectionalStream_leaves (data : Bytes) (fin : Bool) :
    Keeps (Leaves s) (handleBidirectionalStream env x data fin) := by
  unfold handleBidirectionalStream
  grind

end Frames

/-! ## Bytes -/

section Bytes

variable (env : Env) {s : Nat}

theorem wtSide_heeds (s : Nat) {w : WtState} {α : Type} {x : WtProc α} (h : WtSide env w x) :
    KeepsAt (Heeds (· ≠ s) fun _ => True) w x := by
  have hall : ∀ goaway : Option VarInt, env.role = .server → ∀ x : Nat,
      ¬(goaway.any fun lastId => lastId.get ≤ x) = true → True := fun _ _ _ _ => trivial
  cases h with
  | releasePreNegotiation goaway negotiated =>
    exact releasePreNegotiation_heeds env _ _ (hall goaway) negotiated w
  | drainSession id sessionId => exact drainSession_heeds _ _ id sessionId w
  | resolveUni goaway streamId data _ =>
    exact resolveWtUniStreamSessionId_heeds env _ _ (hall goaway) streamId data w
  | uniData streamId data => exact handleWtUniStreamData_heeds env _ _ streamId data w
  | uniFin streamId => exact handleWtUniStreamFin_heeds env _ _ streamId w
  | dropPendingUni streamId =>
    exact heeds_modify _ _ (fun w => (Shrinks.refl w).dropPending false streamId) w
  | finishNewUni streamId => exact finishNewUni_heeds _ _ streamId w
  | receiveDatagram goaway sessionId payload =>
    exact receiveDatagram_heeds env _ _ (hall goaway) sessionId payload w

/-- The CONNECTs that waited are those of other streams. -/
theorem processDeferredWtConnects_mute : Keeps (Mute s) (processDeferredWtConnects env) := by
  have hR := mute_composes s
  have hone : ∀ x, x ≠ s → ∀ headers,
      Keeps (Mute s) (processDeferredWtConnect env x headers) := by
    intro x hx headers
    have hevents := Leaves.keeps_mute (headerEvents_leaves hx headers)
    have hregister := Leaves.keeps_mute (registerWtConnectSession_leaves env hx headers)
    refine Keeps.bind hR (.get hR) fun c => .bind hR (.ofExcept hR _) fun _ => ?_
    refine .bind hR hregister fun _ => ?_
    split
    · refine .bind hR (mute_onWt (p := fun _ => True) (heeds_modify _ _ fun w => ?_))
        fun _ => hevents
      exact (Shrinks.refl w).update _ _
    · exact .bind hR (.ret hR _) fun _ => hevents
  have hclear : Keeps (Mute s) (onWt (modify fun w => { w with deferredWtConnects := ∅ })) := by
    refine mute_onWt (p := fun _ => True) (heeds_modify _ _ fun w => ⟨fun _ h => h, fun x hx => ?_⟩)
    rw [IdMap.contains_empty] at hx
    cases hx
  refine Keeps.get_bind fun c hc => ?_
  refine (Keeps.bind hR hclear fun _ => .each hR _ fun x hmem => hone x ?_ _) c hc
  rintro rfl
  have hkey := (env.order.perm .deferredWtConnects c.wt.deferredWtConnects.keys).mem_iff.mp hmem
  exact Bool.false_ne_true (hc.symm.trans ((IdMap.contains_iff_mem_keys _ _).mpr hkey))

theorem side_mute {c d : Core} {o : List Obs} {b : Bool} (h : Side env c o b d) :
    Mute s c o b d := by
  cases h with
  | plain h ho =>
    refine mute_same h.wt (by rw [h.streams]) fun w hw => ?_
    exact Obs.not_of_plain (ho w hw) s
  | wt c x h => exact mute_onWt_at (wtSide_heeds env s h)
  | deferred c => exact processDeferredWtConnects_mute env c

theorem keeps_mute_of_side {α : Type} {x : CoreProc α} (h : Keeps (Many (Side env)) x) :
    Keeps (Mute s) x :=
  h.mono fun _ _ _ _ => Many.lift (mute_composes s) fun _ _ _ _ => side_mute env

theorem handleWtBidiStream_mute (goaway : Option VarInt) (x : Nat) (data : Bytes) (fin : Bool) :
    Keeps (Mute s) (onWt (handleWtBidiStream env goaway x data fin)) :=
  mute_onWt (handleWtBidiStream_heeds env _ (fun _ => True) (fun _ _ _ => trivial) x data fin)

theorem setDispatch_mute (x : Nat) (buf : Bytes) :
    Keeps (Mute s) (onWt (modify (setDispatch x buf))) :=
  mute_onWt (p := fun _ => True) (heeds_modify _ _ fun _ => .of_eq rfl rfl)

theorem dropDispatch_mute (x : Nat) : Keeps (Mute s) (onWt (modify (dropDispatch x))) :=
  mute_onWt (p := fun _ => True) (heeds_modify _ _ fun _ => .of_eq rfl rfl)

theorem bufferPreNegotiationWtBidi_mute (x : Nat) (data : Bytes) (fin : Bool) :
    Keeps (Mute s) (onWt (bufferPreNegotiationWtBidi x data fin)) :=
  mute_onWt (bufferPreNegotiationWtBidi_heeds _ (fun _ => True) x data fin)

theorem dispatchWtStream_mute (x : Nat) (buf : Bytes) (fin : Bool) :
    Keeps (Mute s) (dispatchWtStream env x buf fin) := by
  refine Keeps.bind (mute_composes s) (.get (mute_composes s)) fun c => ?_
  split
  · exact handleWtBidiStream_mute env _ x buf fin
  split
  · exact mute_onWt (ignorePreNegotiation_heeds _ (fun _ => True) x)
  · exact bufferPreNegotiationWtBidi_mute x buf fin

variable {x : Nat} (hx : x ≠ s)

include hx

theorem dispatchClientBidiStream_mute (data : Bytes) (fin : Bool) :
    Keeps (Mute s) (dispatchClientBidiStream env x data fin) := by
  have hR := mute_composes s
  have hrequest := fun buf =>
    Leaves.keeps_mute (handleBidirectionalStream_leaves env hx buf fin)
  have hset := fun buf => @setDispatch_mute s x buf
  have hdrop := @dropDispatch_mute s x
  have hwt := fun buf => @dispatchWtStream_mute env s x buf fin
  refine Keeps.bind hR (.get hR) fun c => ?_
  dsimp only
  split
  · grind
  split
  · grind
  · split <;> grind

theorem feedStreamInner_mute (data : Bytes) (fin : Bool) :
    Keeps (Mute s) (feedStreamInner env x data fin) := by
  have hR := mute_composes s
  have hrequest := Keeps.attempt hR
    (Leaves.keeps_mute (handleBidirectionalStream_leaves env hx data fin))
    (Leaves.keeps_mute (leaves_removeStreamIfDone hx))
  have huni := @keeps_mute_of_side env s _ _ (handleUnidirectionalStream_side env x data fin)
  have hdispatch := dispatchClientBidiStream_mute env hx data fin
  refine Keeps.bind hR (.get hR) fun c => ?_
  have hwt := @handleWtBidiStream_mute env s c.lastSentGoawayId x data fin
  have hbuffer := @bufferPreNegotiationWtBidi_mute s x data fin
  dsimp only
  split
  · exact huni
  split
  · exact .ite (fun _ => hwt) fun _ => .throw hR _
  split
  · exact hwt
  split
  · exact hdispatch
  split
  · exact .ret hR _
  split
  · exact hbuffer
  split
  · exact hdispatch
  · exact hrequest

end Bytes

/-! ## The other calls -/

section Sending

theorem SameMessage.refl (r : RequestStream) : SameMessage r r := ⟨rfl, rfl, rfl, rfl⟩

theorem sendEncodedHeaders_same {r t : RequestStream} {encoded : Bytes} {fin isInterim : Bool}
    (h : r.sendEncodedHeaders encoded fin isInterim = .ok t) : SameMessage r t := by
  cases hcheck : r.checkSendHeaders fin isInterim with
  | error e => simp [RequestStream.sendEncodedHeaders, hcheck, bind, Except.bind] at h
  | ok u =>
    cases hframe : encodeFrame (.headers encoded) with
    | none => simp [RequestStream.sendEncodedHeaders, hcheck, hframe, bind, Except.bind] at h
    | some frame =>
      simp only [RequestStream.sendEncodedHeaders, hcheck, hframe, bind, Except.bind,
        Except.ok.injEq] at h
      cases fin <;> subst h <;> exact ⟨rfl, rfl, rfl, rfl⟩

theorem sendBody_same {r t : RequestStream} {data : Bytes} {fin : Bool}
    (h : r.sendBody data fin = .ok t) : SameMessage r t := by
  cases hcheck : r.checkSendBody with
  | error e => simp [RequestStream.sendBody, hcheck, bind, Except.bind] at h
  | ok u =>
    have hpush : ∀ u, r.pushBody data = .ok u → SameMessage r u := by
      intro u hu
      unfold RequestStream.pushBody at hu
      split at hu
      · cases hu
        exact .refl r
      · split at hu <;> cases hu
        exact ⟨rfl, rfl, rfl, rfl⟩
    cases hp : r.pushBody data with
    | error e => simp [RequestStream.sendBody, hcheck, hp, bind, Except.bind] at h
    | ok u =>
      simp only [RequestStream.sendBody, hcheck, hp, bind, Except.bind, Except.ok.injEq] at h
      obtain ⟨h₁, h₂, h₃, h₄⟩ := hpush u hp
      cases fin <;> subst h <;> exact ⟨h₁, h₂, h₃, h₄⟩

theorem consumeSendData_same {r t : RequestStream} {len : Nat}
    (h : r.consumeSendData len = some t) : SameMessage r t := by
  obtain ⟨sendBuf, -, rfl⟩ := Option.map_eq_some_iff.mp h
  exact ⟨rfl, rfl, rfl, rfl⟩

end Sending

section Calls

variable (env : Env) {s : Nat}

/-- What the tables of streams have in common. -/
def SameRequests (s : Nat) (m m' : IdMap RequestStream) : Prop :=
  ∀ t, m'.lookup s = some t → ∃ r, m.lookup s = some r ∧ SameMessage r t

theorem SameRequests.refl (m : IdMap RequestStream) : SameRequests s m m := fun t ht =>
  ⟨t, ht, .refl t⟩

theorem silent_same {c d : Core} {o : List Obs} {b : Bool} (hwt : d.wt = c.wt)
    (hs : SameRequests s c.streams d.streams) (ho : ∀ w ∈ o, w.isOf s = false) :
    Silent s c o b d := fun hc => ⟨by rwa [hwt], ho, hs⟩

@[grind ←] theorem silent_rest {c d : Core} {b : Bool} (hwt : d.wt = c.wt)
    (hs : d.streams = c.streams) : Silent s c [] b d := by
  refine silent_same hwt ?_ fun _ hw => absurd hw List.not_mem_nil
  rw [hs]
  exact .refl c.streams

@[grind ←] theorem silent_modifyQpack (f : QpackState → QpackState) :
    Keeps (Silent s) (modify (modifyQpack f) : CoreProc Unit) := fun _ => silent_rest rfl rfl

theorem sameRequests_update {m : IdMap RequestStream} (x : Nat)
    {f : RequestStream → RequestStream} (hf : ∀ r, SameMessage r (f r)) :
    SameRequests s m (m.update x f) := by
  intro t ht
  rw [IdMap.lookup_update_eq] at ht
  split at ht
  · rename_i heq
    subst heq
    obtain ⟨r, hr, rfl⟩ := Option.map_eq_some_iff.mp ht
    exact ⟨r, hr, hf r⟩
  · exact ⟨t, ht, .refl t⟩

@[grind ←] theorem silent_modifyStream (x : Nat) {f : RequestStream → RequestStream}
    (hf : ∀ r, SameMessage r (f r)) :
    Keeps (Silent s) (modify (modifyStream x f) : CoreProc Unit) := fun _ =>
  silent_same rfl (sameRequests_update x hf) fun _ hw => absurd hw List.not_mem_nil

theorem sameRequests_insert {m : IdMap RequestStream} {x : Nat} {r t : RequestStream}
    (hr : m.lookup x = some r) (h : SameMessage r t) : SameRequests s m (m.insert x t) := by
  intro u hu
  rw [IdMap.lookup_insert_eq] at hu
  split at hu
  · rename_i heq
    subst heq
    cases hu
    exact ⟨r, hr, h⟩
  · exact ⟨u, hu, .refl u⟩

theorem silent_putStream {c : Core} {x : Nat} {r t : RequestStream}
    (hr : c.streams.lookup x = some r) (h : SameMessage r t) :
    KeepsAt (Silent s) c (modify (putStream x t) : CoreProc Unit) :=
  silent_same rfl (sameRequests_insert hr h) fun _ hw => absurd hw List.not_mem_nil

@[grind ←] theorem silent_removeStreamIfDone (x : Nat) :
    Keeps (Silent s) (modify (removeStreamIfDone x) : CoreProc Unit) := by
  intro c
  have hwt : (removeStreamIfDone x c).wt = c.wt := by rw [removeStreamIfDone_eq]
  refine silent_same hwt (fun t ht => ⟨t, ?_, .refl t⟩) fun _ hw => absurd hw List.not_mem_nil
  rw [modify_run] at ht
  unfold removeStreamIfDone at ht
  split at ht
  · have hless : AList.lookup s (c.streams.erase x) = some t := ht
    rw [IdMap.lookup_erase_eq] at hless
    split at hless
    · cases hless
    · exact hless
  · exact ht

@[grind ←] theorem silent_clearQpackBlocked (x : Nat) :
    Keeps (Silent s) (modify (clearQpackBlocked x) : CoreProc Unit) := by
  intro c
  refine silent_same ?_ ?_ fun _ hw => absurd hw List.not_mem_nil
  all_goals
    rw [modify_run]
    unfold clearQpackBlocked
  · split <;> rfl
  · split
    · rename_i stream hs
      exact sameRequests_insert hs ⟨rfl, rfl, rfl, rfl⟩
    · exact .refl c.streams

theorem silent_setMaxReceivedBodySize (size : Nat) :
    Keeps (Silent s) (modify (setMaxReceivedBodySize size) : CoreProc Unit) := by
  refine fun c => silent_same rfl ?_ fun _ hw => absurd hw List.not_mem_nil
  intro t ht
  apply IdMap.lookup_updateEach SameMessage.refl _ c.streams.keys ht
  intro r t h
  exact ⟨h.recvHeaders, h.recvBody, h.isWtConnect, h.isHeadRequest⟩

theorem silent_emit {w : Obs} (hw : w.isOf s = false) :
    Keeps (Silent s) (emit w : CoreProc Unit) := fun c =>
  silent_same rfl (.refl c.streams) fun _ h => by rwa [List.mem_singleton.mp h]

@[grind ←] theorem silent_onWt {α : Type} {x : WtProc α}
    (h : Keeps (Heeds (· ≠ s) fun _ => True) x) : Keeps (Silent s) (onWt x) :=
  (mute_onWt h).mono fun _ _ _ _ => Mute.silent

theorem silent_onWt_same {f : WtState → WtState} (hsessions : ∀ w, (f w).wtSessions = w.wtSessions)
    (hwaiting : ∀ w, (f w).deferredWtConnects = w.deferredWtConnects) :
    Keeps (Silent s) (onWt (modify f)) :=
  silent_onWt (heeds_modify _ _ fun w => .of_eq (hsessions w) (hwaiting w))

@[grind ←] theorem setControlStreamId_silent (x : Nat) :
    Keeps (Silent s) (setControlStreamId env x) := by
  unfold setControlStreamId
  grind

@[grind ←] theorem setEncoderStreamId_silent (x : Nat) :
    Keeps (Silent s) (setEncoderStreamId env x) := by
  unfold setEncoderStreamId
  grind

@[grind ←] theorem setDecoderStreamId_silent (x : Nat) :
    Keeps (Silent s) (setDecoderStreamId env x) := by
  unfold setDecoderStreamId
  grind

@[grind ←] theorem getStreamData_silent (x : Nat) : Keeps (Silent s) (getStreamData env x) := by
  have hmark : Keeps (Silent s)
      (modify (modifyStream x RequestStream.markFinSent) : CoreProc Unit) :=
    silent_modifyStream x fun r => ⟨rfl, rfl, rfl, rfl⟩
  unfold getStreamData
  grind

@[grind ←] theorem consumeStreamData_silent (x len : Nat) :
    Keeps (Silent s) (consumeStreamData x len) := by
  have hR := silent_composes s
  refine Keeps.get_bind fun c => ?_
  split
  · split <;> exact .of_keeps (by grind)
  split
  · exact .of_keeps (by grind)
  split
  · exact .of_keeps (by grind)
  split
  · exact .of_keeps (.ret hR _)
  · rename_i stream hs
    split
    · exact .of_keeps (.throw hR _)
    · rename_i hconsume
      exact KeepsAt.bind hR (silent_putStream hs (consumeSendData_same hconsume)) fun _ _ =>
        .of_keeps (silent_removeStreamIfDone x)

@[grind ←] theorem takeStreamData_silent (x : Nat) : Keeps (Silent s) (takeStreamData env x) := by
  unfold takeStreamData
  grind

theorem initH3Streams_silent (control encoder decoder : Nat) :
    Keeps (Silent s) (initH3Streams env control encoder decoder) := by
  have htake : ∀ x, Keeps (Silent s) (takeBytes env x) := by
    intro x
    unfold takeBytes
    grind
  unfold initH3Streams
  grind

@[grind ←] theorem encodeQpackHeaders_silent (headers : List Header) :
    Keeps (Silent s) (encodeQpackHeaders headers) := by
  unfold encodeQpackHeaders
  grind

/-- A stream that is there is sent on. -/
theorem putStream_silent (x : Nat) {f : RequestStream → Except Error RequestStream}
    (hf : ∀ r t, f r = .ok t → SameMessage r t) :
    Keeps (Silent s) (do
      let c ← get
      match c.streams.lookup x with
      | none => throw (.streamNotFound x)
      | some stream =>
        let stream ← ofExcept (f stream)
        modify (putStream x stream) : CoreProc Unit) := by
  have hR := silent_composes s
  refine Keeps.get_bind fun c => ?_
  split
  · exact .of_keeps (.throw hR _)
  · rename_i stream hs
    exact KeepsAt.ofExcept_bind hR fun t ht => silent_putStream hs (hf stream t ht)

@[grind ←] theorem sendResponseInner_silent (x : Nat) (headers : List Header) (fin : Bool) :
    Keeps (Silent s) (sendResponseInner env x headers fin) := by
  have hqueue : ∀ encoded isInterim, Keeps (Silent s) (queueHeaders x encoded fin isInterim) :=
    fun encoded isInterim => putStream_silent x fun r t h => sendEncodedHeaders_same h
  unfold sendResponseInner
  grind

@[grind ←] theorem sendBodyInner_silent (x : Nat) (data : Bytes) (fin : Bool) :
    Keeps (Silent s) (sendBodyInner x data fin) := putStream_silent x fun _ _ h => sendBody_same h

@[grind ←] theorem sendGoawayInner_silent (id : VarInt) :
    Keeps (Silent s) (sendGoawayInner env id) := by
  unfold sendGoawayInner
  grind

@[grind ←] theorem registerLocalWtStream_silent (sessionId x : Nat) :
    Keeps (Silent s) (registerLocalWtStream env sessionId x) := by
  have hR := silent_composes s
  refine Keeps.get_bind fun c => ?_
  dsimp only
  split
  · exact .of_keeps (.throw hR _)
  split
  · exact .of_keeps (.throw hR _)
  split
  · exact .of_keeps (.throw hR _)
  split
  · exact .of_keeps (.throw hR _)
  rename_i session hs
  split
  · exact .of_keeps (.throw hR _)
  · refine Mute.silent (mute_onWt_at (p := fun _ => True) (heeds_modify_at _ _ ?_))
    exact ((Shrinks.refl c.wt).putSession (contains_of_lookup hs) _).enterStream _ _ _

theorem reportUnless_silent {wt : WtProc Bool} (h : Keeps (Heeds (· ≠ s) fun _ => True) wt)
    {e : Event} (he : (Obs.event e).isOf s = false) : Keeps (Silent s) (reportUnless wt e) := by
  have hevent : Keeps (Silent s) (emit (.event e) : CoreProc Unit) := silent_emit he
  unfold reportUnless
  grind

@[grind ←] theorem streamResetInner_silent (x errorCode finalSize : Nat) :
    Keeps (Silent s) (streamResetInner env x errorCode finalSize) := by
  have hreset : Keeps (Silent s)
      (modify (modifyStream x fun r => { r with state := .reset }) : CoreProc Unit) :=
    silent_modifyStream x fun r => ⟨rfl, rfl, rfl, rfl⟩
  have hdrop : Keeps (Silent s) (onWt (modify (dropDispatch x))) :=
    silent_onWt_same (fun _ => rfl) fun _ => rfl
  have hreport : Keeps (Silent s) (reportUnless (handleWtStreamReset env x errorCode finalSize)
      (.streamReset x errorCode)) := reportUnless_silent (by grind) rfl
  unfold streamResetInner
  grind

@[grind ←] theorem stopSendingInner_silent (x errorCode : Nat) :
    Keeps (Silent s) (stopSendingInner env x errorCode) := by
  have hstop : Keeps (Silent s)
      (modify (modifyStream x RequestStream.stopSend) : CoreProc Unit) :=
    silent_modifyStream x fun r => ⟨rfl, rfl, rfl, rfl⟩
  have hreport : Keeps (Silent s) (reportUnless (handleWtStopSending env x errorCode)
      (.stopSending x errorCode)) := reportUnless_silent (by grind) rfl
  unfold stopSendingInner
  grind

/-- Calls that read no request stream and make none. -/
def isOutward : Call → Bool
  | .feedStream _ _ _ | .sendRequest _ _ | .pollEvent | .drainEvents => false
  | _ => true

theorem body_silent (call : Call) (h : isOutward call = true) :
    Keeps (Silent s) (body env call) := by
  have hR := silent_composes s
  have hdatagram : ∀ data, Keeps (Silent s) (feedDatagramInner env data) := fun data =>
    (keeps_mute_of_side env (feedDatagramInner_side env data)).mono fun _ _ _ _ => Mute.silent
  cases call with
  | feedStream | sendRequest | pollEvent | drainEvents => cases h
  | initH3Streams control encoder decoder =>
    exact Keeps.bind hR (initH3Streams_silent env _ _ _) fun _ => .ret hR _
  | setMaxReceivedBodySize size =>
    exact Keeps.bind hR (silent_setMaxReceivedBodySize size) fun _ => .ret hR _
  | setPreviousWtSettings settings =>
    exact Keeps.bind hR (silent_onWt_same (fun _ => rfl) fun _ => rfl) fun _ => .ret hR _
  | setWebtransportTransportVerified datagrams resetStreamAt =>
    refine Keeps.bind hR (silent_onWt ?_) fun _ => .ret hR _
    refine .ite (fun _ => heeds_modify _ _ fun w => .of_eq rfl rfl) fun _ => ?_
    exact .throw (heeds_composes _ _) _
  | wtDataConsumed sessionId bytes =>
    refine Keeps.bind hR (silent_onWt (heeds_modify _ _ fun w => ?_)) fun _ => .ret hR _
    exact (Shrinks.refl w).update _ _
  | _ =>
    unfold body
    simp only [unit]
    grind

end Calls

end Connection

end Http3
