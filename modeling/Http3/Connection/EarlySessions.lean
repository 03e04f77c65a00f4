import Http3.Connection.SessionRules

/-!
# Sessions that streams and datagrams create

A stream or datagram of a session that is not known creates the session, unless its id is at or
above the GOAWAY that was sent. Every other session comes from its CONNECT.
-/

namespace Http3

/-- The session that an event is about. -/
def Obs.session? : Obs → Option Nat
  | .event (.webTransport e) =>
    match e with
    | .sessionClosed sessionId _ _ _ _ | .sessionEstablished sessionId _
    | .sessionDraining sessionId | .capsule sessionId _ | .datagram sessionId _ => some sessionId
    | _ => none
  | _ => none

/-- What sessions and their streams report; a CONNECT is one of a stream in `p`. -/
def Obs.IsWt (p : Nat → Prop) : Obs → Prop
  | .event (.webTransport _) | .sessionEnded _ _ => True
  | .wtConnect streamId => p streamId
  | _ => False

attribute [grind =] Obs.session? Obs.IsWt

namespace Connection

open Proc

/-- A session that is not new, whose CONNECT was read, or whose id is in `q`. -/
def Due (q : Nat → Prop) (w : WtState) (o : List Obs) (x : Nat) : Prop :=
  w.wtSessions.contains x = true ∨ Obs.wtConnect x ∈ o ∨ q x

/-- New sessions are due, and so are those that are told of; CONNECTs that wait are in `p`. -/
structure Heeded (p q : Nat → Prop) (w : WtState) (o : List Obs) (w' : WtState) : Prop where
  sessions : ∀ x, w'.wtSessions.contains x = true → Due q w o x
  waiting : ∀ x, w'.deferredWtConnects.contains x = true →
    w.deferredWtConnects.contains x = true ∨ p x
  told : ∀ e ∈ o, ∀ x, e.session? = some x → Due q w o x
  kinds : ∀ e ∈ o, e.IsWt p

def Heeds (p q : Nat → Prop) : Flow Obs WtState := fun w o _ w' => Heeded p q w o w'

/-- No table of interest grows. -/
@[mk_iff]
structure Shrinks (w w' : WtState) : Prop where
  sessions : ∀ x, w'.wtSessions.contains x = true → w.wtSessions.contains x = true
  waiting : ∀ x, w'.deferredWtConnects.contains x = true →
    w.deferredWtConnects.contains x = true

section Shrinks

variable {w w' : WtState}

@[grind .] theorem Shrinks.refl (w : WtState) : Shrinks w w := ⟨fun _ h => h, fun _ h => h⟩

theorem Shrinks.of_eq (hsessions : w'.wtSessions = w.wtSessions)
    (hwaiting : w'.deferredWtConnects = w.deferredWtConnects) : Shrinks w w' := by
  constructor
  · rw [hsessions]
    exact fun _ h => h
  · rw [hwaiting]
    exact fun _ h => h

@[grind ←] theorem Shrinks.enterStream (h : Shrinks w w') (isBidi : Bool) (x sessionId : Nat) :
    Shrinks w (enterStream isBidi x sessionId w') := by
  unfold Connection.enterStream
  split <;> exact ⟨h.sessions, h.waiting⟩

@[grind ←] theorem Shrinks.leaveStream (h : Shrinks w w') (isBidi : Bool) (x : Nat) :
    Shrinks w (leaveStream isBidi x w') := by
  unfold Connection.leaveStream
  split <;> exact ⟨h.sessions, h.waiting⟩

@[grind ←] theorem Shrinks.setPending (h : Shrinks w w') (isBidi : Bool) (x : Nat) (buf : Bytes) :
    Shrinks w (setPending isBidi x buf w') := by
  unfold Connection.setPending
  split <;> exact ⟨h.sessions, h.waiting⟩

@[grind ←] theorem Shrinks.dropPending (h : Shrinks w w') (isBidi : Bool) (x : Nat) :
    Shrinks w (dropPending isBidi x w') := by
  unfold Connection.dropPending
  split <;> exact ⟨h.sessions, h.waiting⟩

theorem Shrinks.update (h : Shrinks w w') (sessionId : Nat) (f : WtSession → WtSession) :
    Shrinks w { w' with wtSessions := w'.wtSessions.update sessionId f } := by
  refine ⟨fun x hx => h.sessions x ?_, h.waiting⟩
  rwa [IdMap.contains_update] at hx

@[grind ←] theorem Shrinks.returnCredit (h : Shrinks w w') (isBidi : Bool) (x sessionId : Nat) :
    Shrinks w (returnCredit isBidi x sessionId w') := h.update sessionId _

@[grind ←] theorem Shrinks.markFin (h : Shrinks w w') (x sessionId : Nat) :
    Shrinks w (markFin x sessionId w') := h.update sessionId _

@[grind ←] theorem Shrinks.eraseClosed (h : Shrinks w w') (closed : List (Nat × Bool)) :
    Shrinks w (eraseClosed closed w') := ⟨h.sessions, h.waiting⟩

@[grind ←] theorem Shrinks.dropSession (h : Shrinks w w') (sessionId : Nat) :
    Shrinks w (dropSession sessionId w') := by
  refine ⟨fun x hx => h.sessions x ?_, h.waiting⟩
  have hmore : IdMap.contains (w'.wtSessions.erase sessionId) x = true := hx
  rw [IdMap.contains_erase] at hmore
  exact (Bool.and_eq_true_iff.mp hmore).2

/-- The session was there before. -/
@[grind ←] theorem Shrinks.putSession (h : Shrinks w w') {sessionId : Nat}
    (hs : w.wtSessions.contains sessionId = true) (session : WtSession) :
    Shrinks w (putSession sessionId session w') := by
  refine ⟨fun x hx => ?_, h.waiting⟩
  have hmore : IdMap.contains (w'.wtSessions.insert sessionId session) x = true := hx
  rw [IdMap.contains_insert] at hmore
  obtain heq | hold := Bool.or_eq_true_iff.mp hmore
  · rwa [of_decide_eq_true heq]
  · exact h.sessions x hold

end Shrinks

section Heeds

variable (env : Env) (p q : Nat → Prop) {w : WtState}

@[grind .] theorem heeds_composes : Composes (Heeds p q) where
  refl _ _ := ⟨fun _ h => .inl h, fun _ h => .inl h, fun _ he => absurd he List.not_mem_nil,
    fun _ he => absurd he List.not_mem_nil⟩
  trans {s t u o o' b b'} h h' := by
    have hdue : ∀ x, Due q t o' x → Due q s (o ++ o') x := by
      rintro x (hold | hconnect | hq)
      · obtain hold | hconnect | hq := h.sessions x hold
        · exact .inl hold
        · exact .inr (.inl (List.mem_append_left o' hconnect))
        · exact .inr (.inr hq)
      · exact .inr (.inl (List.mem_append_right o hconnect))
      · exact .inr (.inr hq)
    refine ⟨fun x hx => hdue x (h'.sessions x hx), fun x hx => ?_, fun e he x hx => ?_,
      fun e he => ?_⟩
    · exact (h'.waiting x hx).elim (h.waiting x) .inr
    · obtain he | he := List.mem_append.mp he
      · obtain hold | hconnect | hq := h.told e he x hx
        · exact .inl hold
        · exact .inr (.inl (List.mem_append_left o' hconnect))
        · exact .inr (.inr hq)
      · exact hdue x (h'.told e he x hx)
    · exact (List.mem_append.mp he).elim (h.kinds e) (h'.kinds e)

theorem heeded_of_shrinks {w' : WtState} (h : Shrinks w w') : Heeded p q w [] w' :=
  ⟨fun x hx => .inl (h.sessions x hx), fun x hx => .inl (h.waiting x hx),
    fun _ he => absurd he List.not_mem_nil, fun _ he => absurd he List.not_mem_nil⟩

@[grind ←] theorem heeds_modify {f : WtState → WtState} (h : ∀ w, Shrinks w (f w)) :
    Keeps (Heeds p q) (modify f : WtProc Unit) := fun w => heeded_of_shrinks p q (h w)

@[grind ←] theorem heeds_modify_at {f : WtState → WtState} (h : Shrinks w (f w)) :
    KeepsAt (Heeds p q) w (modify f : WtProc Unit) := heeded_of_shrinks p q h

/-- An event about no session. -/
@[grind ←] theorem heeds_emit {o : Obs} (ho : o.IsWt p) (hnone : o.session? = none) :
    Keeps (Heeds p q) (emit o : WtProc Unit) := by
  refine fun w => ⟨fun _ h => .inl h, fun _ h => .inl h, fun e he x hx => ?_, fun e he => ?_⟩
  · rw [List.mem_singleton.mp he, hnone] at hx
    cases hx
  · rwa [List.mem_singleton.mp he]

/-- Events about a session that is there. -/
theorem heeded_tell {l : List Obs} (hl : ∀ e ∈ l, e.IsWt p)
    (h : ∀ e ∈ l, ∀ x, e.session? = some x → w.wtSessions.contains x = true) :
    Heeded p q w l w :=
  ⟨fun _ h => .inl h, fun _ h => .inl h, fun e he x hx => .inl (h e he x hx), hl⟩

theorem heeded_tell_one {e : Obs} (he : e.IsWt p) {sessionId : Nat}
    (hsession : e.session? = some sessionId) (hs : w.wtSessions.contains sessionId = true) :
    Heeded p q w [e] w := by
  refine heeded_tell p q (fun e' he' => ?_) fun e' he' x hx => ?_
  · rwa [List.mem_singleton.mp he']
  · rw [List.mem_singleton.mp he', hsession] at hx
    cases hx
    exact hs

theorem contains_of_lookup {session : WtSession} {sessionId : Nat}
    (hs : w.wtSessions.lookup sessionId = some session) : w.wtSessions.contains sessionId = true :=
  (IdMap.contains_iff _ _).mpr ⟨session, hs⟩

theorem putSession_contains (sessionId : Nat) (session : WtSession) :
    (putSession sessionId session w).wtSessions.contains sessionId = true := by
  have hself : IdMap.contains (w.wtSessions.insert sessionId session) sessionId = true := by
    rw [IdMap.contains_insert, decide_eq_true rfl, Bool.true_or]
  exact hself

/-! ## The end of a session, and delivery -/

@[grind ←] theorem terminateWtSessionWith_heeds (sessionId errorCode closeCode : Nat)
    (message : Bytes) :
    Keeps (Heeds p q) (terminateWtSessionWith env sessionId errorCode closeCode message) := by
  refine Keeps.get_bind fun w => ?_
  split
  · exact .of_keeps (.ret (heeds_composes p q) _)
  rename_i session hs
  split
  · exact .of_keeps (.ret (heeds_composes p q) _)
  refine KeepsAt.ofExcept_bind (heeds_composes p q) fun resets _ => ?_
  have hshrinks : ∀ uni bidi, Shrinks w (dropSession sessionId { w with
      wtUniStreams := uni, wtBidiStreams := bidi }) := fun uni bidi =>
    have hsame : Shrinks w { w with wtUniStreams := uni, wtBidiStreams := bidi } := .of_eq rfl rfl
    hsame.dropSession sessionId
  refine ⟨fun x hx => .inl ((hshrinks _ _).sessions x hx),
    fun x hx => .inl ((hshrinks _ _).waiting x hx), fun e he x hx => ?_, fun e he => ?_⟩
  · obtain rfl | he := List.mem_cons.mp he
    · cases hx
      exact .inl (contains_of_lookup hs)
    · rw [List.mem_singleton.mp he] at hx
      cases hx
  · obtain rfl | he := List.mem_cons.mp he
    · trivial
    · rw [List.mem_singleton.mp he]
      trivial

@[grind ←] theorem terminateWtSession_heeds (sessionId : Nat) :
    Keeps (Heeds p q) (terminateWtSession env sessionId) :=
  terminateWtSessionWith_heeds env p q _ _ _ _

@[grind ←] theorem terminateFlowControl_heeds (sessionId : Nat) :
    Keeps (Heeds p q) (terminateFlowControl env sessionId) :=
  terminateWtSessionWith_heeds env p q _ _ _ _

@[grind ←] theorem abandonSession_heeds (sessionId : Nat) (session : WtSession) :
    Keeps (Heeds p q) (abandonSession sessionId session) := by
  unfold abandonSession
  grind

/-- What is delivered tells of streams. -/
theorem deliverLoop_events (sessionId : Nat) (order : List Nat) (s : WtSession)
    (events : List WebTransportEvent) (closed : List (Nat × Bool)) (l : List Nat)
    (h : ∀ e ∈ events, (Obs.wt e).session? = none) :
    ∀ e ∈ (WtSession.deliverLoop sessionId order s events closed l).events,
      (Obs.wt e).session? = none := by
  have hopen : ∀ b x, (Obs.wt (WtSession.openEvent b x sessionId)).session? = none := by
    intro b x
    cases b <;> rfl
  have hdata : ∀ b x data, (Obs.wt (WtSession.dataEvent b x data)).session? = none := by
    intro b x data
    cases b <;> rfl
  have hend : ∀ (s : WtSession) x entry, ∀ e ∈ (s.deliverEnd x entry).2.1,
      (Obs.wt e).session? = none := by
    intro s x entry e he
    unfold WtSession.deliverEnd at he
    split at he
    · rw [List.mem_singleton.mp he]
      unfold WtSession.endEvent
      split <;> rfl
    · cases he
  induction l generalizing s events closed with
  | nil => exact h
  | cons x xs ih =>
    unfold WtSession.deliverLoop
    split
    · exact ih _ _ _ h
    rename_i entry _
    have hopened : ∀ e ∈ events ++ [WtSession.openEvent entry.isBidi x sessionId],
        (Obs.wt e).session? = none := by
      intro e he
      obtain he | he := List.mem_append.mp he
      · exact h e he
      · rw [List.mem_singleton.mp he]
        exact hopen _ _
    dsimp only
    split
    · exact h
    split
    · refine ih _ _ _ fun e he => ?_
      obtain he | he := List.mem_append.mp he
      · exact hopened e he
      · exact hend _ _ _ e he
    split
    · exact hopened
    · refine ih _ _ _ fun e he => ?_
      obtain he | he := List.mem_append.mp he
      · obtain he | he := List.mem_append.mp he
        · exact hopened e he
        · rw [List.mem_singleton.mp he]
          exact hdata _ _ _
      · exact hend _ _ _ e he

@[grind ←] theorem deliverBufferedStreams_heeds (sessionId : Nat) :
    Keeps (Heeds p q) (deliverBufferedStreams sessionId) := by
  have hR := heeds_composes p q
  refine Keeps.get_bind fun w => ?_
  split
  · exact .of_keeps (.ret hR _)
  rename_i session hs
  have hcontains := contains_of_lookup hs
  have hevents : Heeded p q w ((session.deliver sessionId).events.map Obs.wt) w := by
    refine heeded_tell p q (fun e he => ?_) fun e he x hx => ?_
    · obtain ⟨e, -, rfl⟩ := List.mem_map.mp he
      trivial
    · obtain ⟨e, hmem, rfl⟩ := List.mem_map.mp he
      have hnone := deliverLoop_events sessionId session.bufferedStreams
        { session with bufferedStreams := [] } [] [] session.bufferedStreams
        (fun e he => absurd he List.not_mem_nil) e hmem
      rw [hnone] at hx
      cases hx
  refine KeepsAt.emitAll_bind hR hevents ?_
  split
  · refine KeepsAt.modify_bind hR (heeded_of_shrinks p q ?_) (.of_keeps (.ret hR _))
    exact (Shrinks.putSession (.refl w) hcontains _).eraseClosed _
  · refine KeepsAt.modify_bind hR (heeded_of_shrinks p q ?_) ?_
    · exact (Shrinks.putSession (.refl w) hcontains _).eraseClosed _
    · refine KeepsAt.emitAll_bind hR (heeded_tell p q (fun e he => ?_) fun e he x hx => ?_)
        (.of_keeps (.ret hR _))
      · obtain ⟨payload, -, rfl⟩ := List.mem_map.mp he
        trivial
      · obtain ⟨payload, -, rfl⟩ := List.mem_map.mp he
        cases hx
        exact putSession_contains sessionId _

/-! ## Data streams and datagrams -/

section Early

variable {goaway : Option VarInt}
  (hgoaway : env.role = .server → ∀ x, ¬(goaway.any fun lastId => lastId.get ≤ x) = true → q x)

include hgoaway

/-- A session that an early stream or datagram creates is below the GOAWAY. -/
theorem heeds_create (hserver : env.role ≠ .client) {sessionId : Nat}
    (hbelow : ¬(goaway.any fun lastId => lastId.get ≤ sessionId) = true) (session : WtSession) :
    KeepsAt (Heeds p q) w (modify (putSession sessionId session) : WtProc Unit) := by
  have hrole : env.role = .server := by
    cases hrole : env.role with
    | client => exact absurd hrole hserver
    | server => rfl
  refine ⟨fun x hx => ?_, fun x hx => .inl hx, fun _ he => absurd he List.not_mem_nil,
    fun _ he => absurd he List.not_mem_nil⟩
  have hmore : IdMap.contains (w.wtSessions.insert sessionId session) x = true := hx
  rw [IdMap.contains_insert] at hmore
  obtain heq | hold := Bool.or_eq_true_iff.mp hmore
  · rw [of_decide_eq_true heq]
    exact .inr (.inr (hgoaway hrole _ hbelow))
  · exact .inl hold

@[grind ←] theorem associateOrBufferStream_heeds (streamId sessionId : Nat) (isBidi : Bool) :
    Keeps (Heeds p q) (associateOrBufferStream env goaway streamId sessionId isBidi) := by
  have hR := heeds_composes p q
  refine Keeps.get_bind fun w => ?_
  split
  · rename_i session hs
    have hput := fun session => heeded_of_shrinks p q
      ((Shrinks.refl w).putSession (contains_of_lookup hs) session)
    split
    · exact KeepsAt.modify_bind hR (hput _) (.of_keeps (.ret hR _))
    · split
      · exact KeepsAt.modify_bind hR (hput _) (.of_keeps (.ret hR _))
      · exact .of_keeps (.ret hR _)
    · exact .of_keeps (.ret hR _)
    · exact .of_keeps (.ret hR _)
  split
  · exact .of_keeps (.ret hR _)
  rename_i hserver
  split
  · exact .of_keeps (.ret hR _)
  split
  · exact .of_keeps (.ret hR _)
  rename_i hbelow
  have hput := fun session =>
    @heeds_create env p q w goaway hgoaway hserver sessionId hbelow session
  split
  · exact .of_keeps (.ret hR _)
  split
  · exact KeepsAt.bind_keeps hR (hput _) fun _ => .ret hR _
  · exact KeepsAt.bind_keeps hR (hput _) fun _ => .ret hR _

@[grind ←] theorem receiveDatagram_heeds (sessionId : Nat) (payload : Bytes) :
    Keeps (Heeds p q) (receiveDatagram env goaway sessionId payload) := by
  have hR := heeds_composes p q
  refine Keeps.get_bind fun w => ?_
  split
  · rename_i session hs
    have hcontains := contains_of_lookup hs
    split
    · exact heeded_tell_one p q trivial rfl hcontains
    · exact heeded_tell_one p q trivial rfl hcontains
    · exact heeds_modify_at p q ((Shrinks.refl w).putSession hcontains _)
    · exact .of_keeps (.ret hR _)
  split
  · exact .of_keeps (.ret hR _)
  split
  · exact .of_keeps (.ret hR _)
  rename_i hserver
  split
  · exact .of_keeps (.ret hR _)
  rename_i hbelow
  split
  · exact .of_keeps (.ret hR _)
  · exact heeds_create env p q hgoaway hserver hbelow _

omit hgoaway in
@[grind ←] theorem bufferStreamData_heeds (isBidi : Bool) (streamId sessionId : Nat)
    (data : Bytes) : Keeps (Heeds p q) (bufferStreamData isBidi streamId sessionId data) := by
  have hR := heeds_composes p q
  refine Keeps.get_bind fun w => ?_
  split
  · exact .of_keeps (.ret hR _)
  rename_i session hs
  have hput := fun session => (Shrinks.refl w).putSession (contains_of_lookup hs) session
  split
  · exact heeds_modify_at p q (hput _)
  · refine KeepsAt.modify_bind hR (heeded_of_shrinks p q ((hput _).leaveStream _ _)) ?_
    exact .of_keeps (heeds_emit p q trivial rfl)

omit hgoaway in
@[grind ←] theorem receiveStreamData_heeds (isBidi : Bool) (streamId sessionId : Nat)
    (data : Bytes) : Keeps (Heeds p q) (receiveStreamData env isBidi streamId sessionId data) := by
  have hR := heeds_composes p q
  have hnone : (Obs.wt (WtSession.dataEvent isBidi streamId data)).session? = none := by
    cases isBidi <;> rfl
  refine Keeps.bind hR (.get hR) fun w => ?_
  refine .ite (fun _ => .bind hR (by grind) fun _ => .ret hR _) fun _ => ?_
  refine .bind hR (heeds_modify p q fun w => (Shrinks.refl w).update _ _) fun _ => ?_
  exact .bind hR (heeds_emit p q trivial hnone) fun _ => .ret hR _

@[grind ←] theorem openStream_heeds (isBidi : Bool) (streamId sessionId : Nat) (payload : Bytes) :
    Keeps (Heeds p q) (openStream env goaway isBidi streamId sessionId payload) := by
  have hR := heeds_composes p q
  have hopen : (Obs.wt (WtSession.openEvent isBidi streamId sessionId)).session? = none := by
    cases isBidi <;> rfl
  have hleave : Keeps (Heeds p q) (modify (leaveStream isBidi streamId) : WtProc Unit) := by grind
  have hreject : ∀ code, Keeps (Heeds p q) (rejectStream streamId code) :=
    fun code => heeds_emit p q trivial rfl
  refine Keeps.bind hR (by grind) fun _ => .bind hR (by grind) fun r => ?_
  split
  · exact .bind hR hleave fun _ => hreject _
  · exact .bind hR hleave fun _ => hreject _
  · grind
  · refine .bind hR (.get hR) fun w => .ite (fun _ => .bind hR hleave fun _ => by grind) fun _ => ?_
    refine .bind hR (heeds_modify p q fun w => (Shrinks.refl w).update _ _) fun _ => ?_
    refine .bind hR (heeds_emit p q trivial hopen) fun _ => ?_
    grind

@[grind ←] theorem resolveWtUniStreamSessionId_heeds (streamId : Nat) (data : Bytes) :
    Keeps (Heeds p q) (resolveWtUniStreamSessionId env goaway streamId data) := by
  unfold resolveWtUniStreamSessionId
  grind

@[grind ←] theorem handleWtBidiStream_heeds (streamId : Nat) (data : Bytes) (fin : Bool) :
    Keeps (Heeds p q) (handleWtBidiStream env goaway streamId data fin) := by
  have hR := heeds_composes p q
  have hend : Keeps (Heeds p q) (emit (.wt (.bidiStreamEnd streamId)) : WtProc Unit) :=
    heeds_emit p q trivial rfl
  have hresolve : Keeps (Heeds p q) (resolveWtBidiStreamHeader env goaway streamId data) := by
    have hkeep : ∀ buf, Keeps (Heeds p q) (modify fun w =>
        if w.pendingWtBidiStreams.contains streamId then setPending true streamId buf w
        else w : WtProc Unit) := by
      grind
    refine Keeps.bind hR (by grind) fun w => ?_
    dsimp only
    split
    · grind
    · grind
  have hcontinue : ∀ sessionId,
      Keeps (Heeds p q) (continueWtBidiStream env streamId sessionId data fin) := by
    intro sessionId
    have hfinish : Keeps (Heeds p q) (finishBidi env streamId sessionId) := by
      unfold finishBidi
      grind
    refine Keeps.bind hR (by grind) fun w => ?_
    dsimp only
    split
    · grind
    split
    · grind
    · refine .bind hR (receiveStreamData_heeds env p q true streamId sessionId data) fun goesOn => ?_
      grind
  have hfinish : Keeps (Heeds p q) (finishResolved streamId) := by
    refine Keeps.bind hR (by grind) fun w => ?_
    dsimp only
    split
    · split
      · grind
      · refine .bind hR (by grind) fun _ => .bind hR hend fun _ => ?_
        grind
    · grind
  unfold handleWtBidiStream
  grind

end Early

@[grind ←] theorem handleWtUniStreamData_heeds (streamId : Nat) (data : Bytes) :
    Keeps (Heeds p q) (handleWtUniStreamData env streamId data) := by
  unfold handleWtUniStreamData
  grind

@[grind ←] theorem handleWtUniStreamFin_heeds (streamId : Nat) :
    Keeps (Heeds p q) (handleWtUniStreamFin env streamId) := by
  have hR := heeds_composes p q
  have hend : Keeps (Heeds p q) (emit (.wt (.uniStreamEnd streamId)) : WtProc Unit) :=
    heeds_emit p q trivial rfl
  refine Keeps.bind hR (by grind) fun w => ?_
  split
  · grind
  split
  · grind
  split
  · grind
  · exact .bind hR (by grind) fun _ => hend

@[grind ←] theorem finishNewUni_heeds (streamId : Nat) :
    Keeps (Heeds p q) (finishNewUni streamId) := by
  have hR := heeds_composes p q
  have hend : Keeps (Heeds p q) (emit (.wt (.uniStreamEnd streamId)) : WtProc Unit) :=
    heeds_emit p q trivial rfl
  refine Keeps.bind hR (by grind) fun w => ?_
  dsimp only
  split
  · exact .bind hR (by grind) fun _ => .bind hR hend fun _ => by grind
  · grind

/-! ## Capsules and CONNECT -/

/-- A session that is there is changed, and this is told. -/
theorem heeds_put_tell {sessionId : Nat} (hs : w.wtSessions.contains sessionId = true)
    (session : WtSession) {e : Obs} (he : e.IsWt p) (hsession : e.session? = some sessionId) :
    KeepsAt (Heeds p q) w
      (modify (putSession sessionId session) >>= fun _ => emit e : WtProc Unit) := by
  have hput := heeded_of_shrinks p q ((Shrinks.refl w).putSession hs session)
  exact KeepsAt.modify_bind (heeds_composes p q) hput
    (heeded_tell_one p q he hsession (putSession_contains sessionId session))

@[grind ←] theorem drainSession_heeds (id sessionId : Nat) :
    Keeps (Heeds p q) (drainSession id sessionId) := by
  refine Keeps.get_bind fun w => ?_
  split
  · exact .of_keeps (.ret (heeds_composes p q) _)
  rename_i session hs
  split
  · exact heeds_put_tell p q (contains_of_lookup hs) _ trivial rfl
  · exact .of_keeps (.ret (heeds_composes p q) _)

@[grind ←] theorem handleWtCapsule_heeds (sessionId : Nat) (capsule : Capsule) :
    Keeps (Heeds p q) (handleWtCapsule env sessionId capsule) := by
  have hR := heeds_composes p q
  have htell : Keeps (Heeds p q) (do
      let w ← get
      if (w.wtSessions.lookup sessionId).any WtSession.flowControlEnabled then
        emit (.wt (.capsule sessionId capsule))
      else ret () : WtProc Unit) := by
    refine Keeps.get_bind fun w => ?_
    split
    · rename_i hany
      cases hs : w.wtSessions.lookup sessionId with
      | none =>
        rw [hs] at hany
        cases hany
      | some session => exact heeded_tell_one p q trivial rfl (contains_of_lookup hs)
    · exact .of_keeps (.ret hR _)
  unfold handleWtCapsule
  split
  · exact terminateWtSessionWith_heeds env p q _ _ _ _
  · refine Keeps.get_bind fun w => ?_
    split
    · rename_i session hs
      split
      · exact heeds_put_tell p q (contains_of_lookup hs) _ trivial rfl
      · exact .of_keeps (.ret hR _)
    · exact .of_keeps (.ret hR _)
  any_goals exact htell
  · grind

@[grind ←] theorem processWtCapsuleData_heeds (sessionId : Nat) (data : Bytes) :
    Keeps (Heeds p q) (processWtCapsuleData env sessionId data) := by
  have hR := heeds_composes p q
  have hone : Keeps (Heeds p q) (processWtCapsule env sessionId) := by
    refine Keeps.get_bind fun w => ?_
    split
    · exact .of_keeps (.ret hR _)
    rename_i session hs
    split
    · exact .of_keeps (.ret hR _)
    split
    · exact .of_keeps (.ret hR _)
    · exact .of_keeps (.throw hR _)
    · have hput := fun session => heeded_of_shrinks p q
        ((Shrinks.refl w).putSession (contains_of_lookup hs) session)
      exact KeepsAt.modify_bind hR (hput _) (.of_keeps (by grind))
  refine Keeps.get_bind fun w => ?_
  split
  · exact .of_keeps (.ret hR _)
  · rename_i session hs
    have hput := heeded_of_shrinks p q ((Shrinks.refl w).putSession (contains_of_lookup hs)
      { session with capsuleBuf := session.capsuleBuf ++ data })
    exact KeepsAt.modify_bind hR hput (.of_keeps (by grind))

@[grind ←] theorem handleWtDataFrame_heeds (peer : Option Settings) (bodyLen streamId : Nat)
    (data : Bytes) : Keeps (Heeds p q) (handleWtDataFrame env peer bodyLen streamId data) := by
  have hR := heeds_composes p q
  refine Keeps.get_bind fun w => ?_
  split
  · exact .of_keeps (by grind)
  split
  · exact .of_keeps (by grind)
  rename_i session hs
  split
  · exact .of_keeps (by grind)
  · exact .of_keeps (by grind)
  · split
    · exact .of_keeps (by grind)
    split
    · split
      · exact .of_keeps (by grind)
      · have hput := heeded_of_shrinks p q ((Shrinks.refl w).putSession (contains_of_lookup hs)
          { session with capsuleBuf := session.capsuleBuf ++ data })
        exact KeepsAt.modify_bind hR hput (.of_keeps (.ret hR _))
    · exact .of_keeps (by grind)
  · exact .of_keeps (by grind)

@[grind ←] theorem handleWtStreamEnd_heeds (streamId : Nat) :
    Keeps (Heeds p q) (handleWtStreamEnd env streamId) := by
  have hforget : Keeps (Heeds p q) (modify fun w => { w with
      deferredWtConnects := w.deferredWtConnects.erase streamId } : WtProc Unit) := by
    refine heeds_modify p q fun w => ⟨fun _ h => h, fun x hx => ?_⟩
    rw [IdMap.contains_erase] at hx
    exact (Bool.and_eq_true_iff.mp hx).2
  unfold handleWtStreamEnd
  grind

/-- The CONNECT of a stream in `p`. -/
@[grind ←] theorem registerSession_heeds {streamId : Nat} (hp : p streamId)
    (headers : List Header) : Keeps (Heeds p q) (registerSession streamId headers) := by
  refine fun w => ⟨fun x hx => ?_, fun x hx => .inl hx, fun e he x hx => ?_, fun e he => ?_⟩
  · have hmore : IdMap.contains (w.wtSessions.insert streamId _) x = true := hx
    rw [IdMap.contains_insert] at hmore
    obtain heq | hold := Bool.or_eq_true_iff.mp hmore
    · rw [of_decide_eq_true heq]
      exact .inr (.inl List.mem_cons_self)
    · exact .inl hold
  · rw [List.mem_singleton.mp he] at hx
    cases hx
  · rw [List.mem_singleton.mp he]
    exact hp

@[grind ←] theorem deferSession_heeds {streamId : Nat} (hp : p streamId)
    (headers : List Header) : Keeps (Heeds p q) (deferSession streamId headers) := by
  refine fun w => ⟨fun x hx => .inl hx, fun x hx => ?_, fun e he x hx => ?_, fun e he => ?_⟩
  · have hmore : IdMap.contains (w.deferredWtConnects.insert streamId headers) x = true := hx
    rw [IdMap.contains_insert] at hmore
    obtain heq | hold := Bool.or_eq_true_iff.mp hmore
    · rw [of_decide_eq_true heq]
      exact .inr hp
    · exact .inl hold
  · rw [List.mem_singleton.mp he] at hx
    cases hx
  · rw [List.mem_singleton.mp he]
    exact hp

theorem establish_heeds (peer : Option Settings) {sessionId : Nat}
    (hs : w.wtSessions.contains sessionId = true) (session : WtSession) :
    KeepsAt (Heeds p q) w (establish env peer sessionId session) := by
  have hR := heeds_composes p q
  refine KeepsAt.modify_bind hR (heeded_of_shrinks p q ((Shrinks.refl w).putSession hs _)) ?_
  refine KeepsAt.emit_bind hR
    (heeded_tell_one p q trivial rfl (putSession_contains sessionId _)) (.of_keeps ?_)
  grind

@[grind ←] theorem handleWtConnectResponse_heeds (peer : Option Settings) (streamId : Nat)
    (headers : List Header) :
    Keeps (Heeds p q) (handleWtConnectResponse env peer streamId headers) := by
  have hR := heeds_composes p q
  refine Keeps.get_bind fun w => ?_
  split
  · exact .of_keeps (.ret hR _)
  split
  · exact .of_keeps (.ret hR _)
  rename_i session hs
  split
  · exact .of_keeps (.throw hR _)
  split
  · exact .of_keeps (.throw hR _)
  split
  · exact .of_keeps (.ret hR _)
  split
  · exact .of_keeps (by grind)
  · exact KeepsAt.bind_keeps hR (establish_heeds env p q peer (contains_of_lookup hs) session)
      fun _ => .ret hR _

@[grind ←] theorem establishWtSessionServer_heeds (peer : Option Settings) (streamId : Nat)
    (headers : List Header) :
    Keeps (Heeds p q) (establishWtSessionServer env peer streamId headers) := by
  have hR := heeds_composes p q
  have hcapsules : Keeps (Heeds p q) (processBufferedCapsules env streamId) := by
    have hattempt : Keeps (Heeds p q) (attempt (processWtCapsuleData env streamId [])) :=
      fun w => processWtCapsuleData_heeds env p q streamId [] w
    unfold processBufferedCapsules
    grind
  refine Keeps.get_bind fun w => ?_
  split
  · exact .of_keeps (.ret hR _)
  split
  · exact .of_keeps (.ret hR _)
  rename_i session hs
  split
  · exact .of_keeps (.ret hR _)
  · exact KeepsAt.bind_keeps hR (establish_heeds env p q peer (contains_of_lookup hs) session)
      fun goesOn => by grind

@[grind ←] theorem rejectWtSession_heeds (streamId : Nat) (headers : List Header) :
    Keeps (Heeds p q) (rejectWtSession streamId headers) := by
  unfold rejectWtSession
  grind

/-! ## The other procedures -/

@[grind ←] theorem handleWtStopSending_heeds (streamId errorCode : Nat) :
    Keeps (Heeds p q) (handleWtStopSending env streamId errorCode) := by
  have htell : ∀ sessionId, Keeps (Heeds p q)
      (emit (.wt (.streamStopSending sessionId streamId errorCode)) : WtProc Unit) :=
    fun sessionId => heeds_emit p q trivial rfl
  unfold handleWtStopSending
  grind

@[grind ←] theorem takeWtPendingCapsules_heeds (sessionId : Nat) :
    Keeps (Heeds p q) (takeWtPendingCapsules sessionId) := by
  have hR := heeds_composes p q
  refine Keeps.get_bind fun w => ?_
  split
  · exact .of_keeps (.ret hR _)
  · rename_i session hs
    have hput := heeded_of_shrinks p q ((Shrinks.refl w).putSession (contains_of_lookup hs)
      { session with pendingCapsules := [] })
    exact KeepsAt.modify_bind hR hput (.of_keeps (.ret hR _))

@[grind ←] theorem ignorePreNegotiation_heeds (streamId : Nat) :
    Keeps (Heeds p q) (ignorePreNegotiation streamId) := by
  have hR := heeds_composes p q
  refine Keeps.bind hR (heeds_modify p q fun w => .of_eq rfl rfl) fun _ => ?_
  exact heeds_emit p q trivial rfl

@[grind ←] theorem bufferPreNegotiationWtBidi_heeds (streamId : Nat) (data : Bytes) (fin : Bool) :
    Keeps (Heeds p q) (bufferPreNegotiationWtBidi streamId data fin) := by
  have hR := heeds_composes p q
  refine Keeps.bind hR (.get hR) fun w => ?_
  refine .ite (fun _ => ignorePreNegotiation_heeds p q streamId) fun _ => ?_
  refine .ite (fun _ => ?_) fun _ => heeds_modify p q fun w => .of_eq rfl rfl
  exact .bind hR (heeds_modify p q fun w => .of_eq rfl rfl) fun _ =>
    ignorePreNegotiation_heeds p q streamId

theorem releasePreNegotiation_heeds {goaway : Option VarInt}
    (hgoaway : env.role = .server → ∀ x, ¬(goaway.any fun lastId => lastId.get ≤ x) = true → q x)
    (negotiated : Bool) :
    Keeps (Heeds p q) (releasePreNegotiation env goaway negotiated) := by
  have hR := heeds_composes p q
  refine Keeps.bind hR (.get hR) fun w => ?_
  refine .bind hR (heeds_modify p q fun w => .of_eq rfl rfl) fun _ => .each hR _ fun x _ => ?_
  unfold releaseWaiting
  grind

theorem removeBuffered_contains (streamId : Nat) (sids : List Nat) {m : IdMap WtSession} {k : Nat}
    (h : (removeBuffered streamId sids m).2.contains k = true) : m.contains k = true := by
  obtain ⟨t, ht⟩ := (IdMap.contains_iff _ _).mp h
  obtain ⟨s, hs, -⟩ := removeBuffered_same streamId sids ht
  exact (IdMap.contains_iff _ _).mpr ⟨s, hs⟩

@[grind ←] theorem resetDataStream_heeds (sessionId streamId errorCode finalSize : Nat) :
    Keeps (Heeds p q) (resetDataStream env sessionId streamId errorCode finalSize) := by
  have hR := heeds_composes p q
  have haccount : Keeps (Heeds p q) (accountWtStreamReset env sessionId streamId finalSize) := by
    refine Keeps.get_bind fun w => KeepsAt.ofExcept_bind hR fun headerLen _ => ?_
    split
    · exact .of_keeps (.ret hR _)
    rename_i session hs
    dsimp only
    split
    · exact .of_keeps (by grind)
    · have hput := fun session => heeded_of_shrinks p q
        ((Shrinks.refl w).putSession (contains_of_lookup hs) session)
      exact KeepsAt.modify_bind hR (hput _) (.of_keeps (.ret hR _))
  refine Keeps.bind hR (.get hR) fun w => .bind hR haccount fun ended => ?_
  refine .ite (fun _ => .ret hR _) fun _ => .bind hR ?_ fun _ => heeds_emit p q trivial rfl
  refine heeds_modify p q fun w => ⟨fun x hx => ?_, fun x hx => hx⟩
  rwa [IdMap.contains_update] at hx

@[grind ←] theorem handleWtStreamReset_heeds (streamId errorCode finalSize : Nat) :
    Keeps (Heeds p q) (handleWtStreamReset env streamId errorCode finalSize) := by
  have hR := heeds_composes p q
  refine Keeps.get_bind fun w => ?_
  split
  · exact .of_keeps (by grind)
  split
  · exact .of_keeps (.ret hR _)
  split
  · refine KeepsAt.modify_bind hR (heeded_of_shrinks p q ⟨fun _ h => h, fun x hx => ?_⟩)
      (.of_keeps (.ret hR _))
    rw [IdMap.contains_erase] at hx
    exact (Bool.and_eq_true_iff.mp hx).2
  split
  · exact KeepsAt.modify_bind hR (heeded_of_shrinks p q (.of_eq rfl rfl)) (.of_keeps (.ret hR _))
  split
  · exact .of_keeps (.ret hR _)
  have hremoved := fun x => @removeBuffered_contains streamId
    (env.order.walk .wtSessions w.wtSessions.keys) w.wtSessions x
  rcases hremove : removeBuffered streamId (env.order.walk .wtSessions w.wtSessions.keys)
    w.wtSessions with ⟨found, sessions⟩
  rw [hremove] at hremoved
  have hshrinks : Shrinks w { w with wtSessions := sessions } := ⟨hremoved, fun _ h => h⟩
  cases found with
  | true => exact KeepsAt.modify_bind hR (heeded_of_shrinks p q hshrinks) (.of_keeps (.ret hR _))
  | false =>
    refine KeepsAt.modify_bind hR (heeded_of_shrinks p q hshrinks) (.of_keeps ?_)
    split
    · exact .ret hR _
    · exact .ite (fun _ => .ret hR _) fun _ =>
        .bind hR (resetDataStream_heeds env p q _ streamId errorCode finalSize) fun _ => .ret hR _

end Heeds

end Connection

end Http3
