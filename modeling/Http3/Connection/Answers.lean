import Http3.Connection.MessageReader

/-!
# Sending on a stream that is read

The two directions of a stream do not mix: a call that sends on it, or takes what it sends, leaves
what was received as it is. A stream that the peer has ended may leave the table on the way.
-/

namespace Http3

namespace Connection

open Proc

/-- Does the call send on the stream, or take what is sent? -/
def isAnswer (s : Nat) : Call → Bool
  | .sendResponse x _ _ | .sendBody x _ _ | .getStreamData x | .takeStreamData x
  | .consumeStreamData x _ => x == s
  | _ => false

/-- The stream before and after something was sent, but for what is sent. -/
structure Answered (r t : RequestStream) : Prop where
  received : { t with sendBuf := r.sendBuf, sendState := r.sendState, state := r.state } = r
  state : t.state = r.state ∨ t.state = r.state.closeLocal

theorem Answered.refl (r : RequestStream) : Answered r r := ⟨rfl, .inl rfl⟩

theorem Answered.trans {r t u : RequestStream} (h : Answered r t) (h' : Answered t u) :
    Answered r u := by
  have hidem : r.state.closeLocal.closeLocal = r.state.closeLocal := by
    cases r.state <;> rfl
  refine ⟨?_, ?_⟩
  · have hu := congrArg (fun v : RequestStream =>
      { v with sendBuf := r.sendBuf, sendState := r.sendState, state := r.state }) h'.received
    exact hu.trans h.received
  · obtain ht | ht := h.state <;> obtain hu | hu := h'.state <;> rw [hu, ht]
    · exact .inl rfl
    · exact .inr rfl
    · exact .inr rfl
    · exact .inr hidem

theorem Answered.isOver {r t : RequestStream} (h : Answered r t) :
    isOver (some t) = isOver (some r) := by
  simp only [Connection.isOver, Option.any_some]
  obtain ht | ht := h.state <;> rw [ht]
  cases r.state <;> rfl

theorem Answered.unblocked {r t : RequestStream} (h : Answered r t) :
    t.qpackBlockedHeader = r.qpackBlockedHeader := by
  have hsame := congrArg RequestStream.qpackBlockedHeader h.received
  exact hsame

/-- The record of a stream that is sent on; when the peer has ended it, it may go. -/
def Remains : Option RequestStream → Option RequestStream → Prop
  | none, t => t = none
  | some r, t => (∃ u, t = some u ∧ Answered r u) ∨ isOver (some r) = true ∧ t = none

theorem Remains.refl (r : Option RequestStream) : Remains r r := by
  cases r with
  | none => rfl
  | some r => exact .inl ⟨r, rfl, .refl r⟩

theorem Remains.trans {r t u : Option RequestStream} (h : Remains r t) (h' : Remains t u) :
    Remains r u := by
  cases r with
  | none =>
    obtain rfl : t = none := h
    exact h'
  | some r =>
    obtain ⟨t, rfl, ht⟩ | ⟨hover, rfl⟩ := h
    · obtain ⟨u, rfl, hu⟩ | ⟨hover, rfl⟩ := h'
      · exact .inl ⟨u, rfl, ht.trans hu⟩
      · exact .inr ⟨ht.isOver ▸ hover, rfl⟩
    · exact .inr ⟨hover, h'⟩

/-- Without a session, what is sent on the stream leaves its receive side alone. -/
def Answering (s : Nat) : Flow Obs Core := fun c o _ d =>
  Alone s c → d.wt = c.wt ∧ (∀ w ∈ o, w.isOf s = false) ∧
    Remains (c.streams.lookup s) (d.streams.lookup s)

section Rules

variable {s : Nat} {c d : Core} {b : Bool}

theorem Alone.of_wt (h : Alone s c) (hwt : d.wt = c.wt) : Alone s d :=
  ⟨by rw [hwt]; exact h.sessions, by rw [hwt]; exact h.closed⟩

@[grind .] theorem answering_composes (s : Nat) : Composes (Answering s) where
  refl c _ _ := ⟨rfl, fun _ hw => absurd hw List.not_mem_nil, .refl _⟩
  trans h h' halone := by
    obtain ⟨hwt, ho, hs⟩ := h halone
    obtain ⟨hwt', ho', hs'⟩ := h' (halone.of_wt hwt)
    exact ⟨hwt'.trans hwt, forall_mem_append s ho ho', hs.trans hs'⟩

@[grind ←] theorem answering_rest (hwt : d.wt = c.wt) (hs : d.streams = c.streams) :
    Answering s c [] b d := by
  refine fun _ => ⟨hwt, fun _ hw => absurd hw List.not_mem_nil, ?_⟩
  rw [hs]
  exact .refl _

theorem answering_modify {f : Core → Core} (hwt : ∀ c, (f c).wt = c.wt)
    (hs : ∀ c, (f c).streams = c.streams) : Keeps (Answering s) (modify f : CoreProc Unit) :=
  fun c => answering_rest (hwt c) (hs c)

theorem answering_put {r t : RequestStream} (hr : c.streams.lookup s = some r)
    (h : Answered r t) : Answering s c [] b (putStream s t c) := by
  refine fun _ => ⟨rfl, fun _ hw => absurd hw List.not_mem_nil, ?_⟩
  rw [hr]
  exact .inl ⟨t, IdMap.lookup_insert_self _ _ _, h⟩

theorem answering_removeStreamIfDone :
    Keeps (Answering s) (modify (removeStreamIfDone s) : CoreProc Unit) := by
  refine fun c halone => ⟨removeStreamIfDone_wt s c, fun _ hw => absurd hw List.not_mem_nil, ?_⟩
  rw [modify_run]
  obtain heq | ⟨hover, heq⟩ := removeStreamIfDone_alone halone
  · rw [heq]
    exact .refl _
  · have hgone : (c.streams.erase s).lookup s = none := IdMap.lookup_erase_self _ _
    rw [heq, hgone]
    cases hr : c.streams.lookup s with
    | none => rfl
    | some r =>
      rw [hr] at hover
      exact .inr ⟨hover, rfl⟩

/-- A procedure of WebTransport that does nothing where there is no session. -/
theorem answering_onWt {α : Type} {x : WtProc α}
    (h : ∀ w, w.wtSessions.lookup s = none → (x w).st = w ∧ (x w).out = []) :
    Keeps (Answering s) (onWt x) := by
  intro c halone
  obtain ⟨hst, hout⟩ := h c.wt halone.lookup
  refine ⟨hst, fun w hw => ?_, .refl _⟩
  rw [onWt, zoom_run] at hw
  simp only [hout] at hw
  exact absurd hw List.not_mem_nil

end Rules

/-! ## What is queued and taken -/

theorem sendEncodedHeaders_answered {r t : RequestStream} {encoded : Bytes} {fin isInterim : Bool}
    (h : r.sendEncodedHeaders encoded fin isInterim = .ok t) : Answered r t := by
  cases hcheck : r.checkSendHeaders fin isInterim with
  | error e => simp [RequestStream.sendEncodedHeaders, hcheck, bind, Except.bind] at h
  | ok u =>
    cases hframe : encodeFrame (.headers encoded) with
    | none => simp [RequestStream.sendEncodedHeaders, hcheck, hframe, bind, Except.bind] at h
    | some frame =>
      simp only [RequestStream.sendEncodedHeaders, hcheck, hframe, bind, Except.bind,
        Except.ok.injEq] at h
      cases fin <;> subst h
      · exact ⟨rfl, .inl rfl⟩
      · exact ⟨rfl, .inr rfl⟩

theorem sendBody_answered {r t : RequestStream} {data : Bytes} {fin : Bool}
    (h : r.sendBody data fin = .ok t) : Answered r t := by
  cases hcheck : r.checkSendBody with
  | error e => simp [RequestStream.sendBody, hcheck, bind, Except.bind] at h
  | ok u =>
    have hpush : ∀ u, r.pushBody data = .ok u → Answered r u ∧ u.state = r.state := by
      intro u hu
      unfold RequestStream.pushBody at hu
      split at hu
      · cases hu
        exact ⟨.refl r, rfl⟩
      · split at hu <;> cases hu
        exact ⟨⟨rfl, .inl rfl⟩, rfl⟩
    cases hp : r.pushBody data with
    | error e => simp [RequestStream.sendBody, hcheck, hp, bind, Except.bind] at h
    | ok u =>
      simp only [RequestStream.sendBody, hcheck, hp, bind, Except.bind, Except.ok.injEq] at h
      obtain ⟨hu, hstate⟩ := hpush u hp
      cases fin <;> subst h
      · exact hu
      · exact ⟨hu.received, .inr (congrArg StreamState.closeLocal hstate)⟩

section Calls

variable (env : Env) {s : Nat}

/-- A stream that is there is sent on. -/
theorem putStream_answering {f : RequestStream → Except Error RequestStream}
    (hf : ∀ r t, f r = .ok t → Answered r t) :
    Keeps (Answering s) (do
      let c ← get
      match c.streams.lookup s with
      | none => throw (.streamNotFound s)
      | some stream =>
        let stream ← ofExcept (f stream)
        modify (putStream s stream) : CoreProc Unit) := by
  have hR := answering_composes s
  refine Keeps.get_bind fun c => ?_
  split
  · exact .of_keeps (.throw hR _)
  · rename_i r hr
    exact KeepsAt.ofExcept_bind hR fun t ht => answering_put hr (hf r t ht)

theorem sendBodyInner_answering (data : Bytes) (fin : Bool) :
    Keeps (Answering s) (sendBodyInner s data fin) :=
  putStream_answering (f := fun stream => stream.sendBody data fin) fun _ _ => sendBody_answered

theorem sendResponseInner_answering (headers : List Header) (fin : Bool) :
    Keeps (Answering s) (sendResponseInner env s headers fin) := by
  have hR := answering_composes s
  have hencode : Keeps (Answering s) (encodeQpackHeaders headers) := by
    refine .bind hR (.get hR) fun c => .bind hR (answering_modify (fun _ => rfl) fun _ => rfl)
      fun _ => .ofExcept hR _
  have hqueue : ∀ encoded isInterim, Keeps (Answering s) (queueHeaders s encoded fin isInterim) :=
    fun encoded isInterim => putStream_answering
      (f := fun stream => stream.sendEncodedHeaders encoded fin isInterim) fun _ _ =>
        sendEncodedHeaders_answered
  have hreject : Keeps (Answering s) (onWt (rejectWtSession s headers)) := by
    refine answering_onWt fun w hw => ?_
    unfold rejectWtSession
    split
    · exact ⟨rfl, rfl⟩
    · rw [get_bind, hw]
      exact ⟨rfl, rfl⟩
  have hestablish : ∀ peer, Keeps (Answering s)
      (onWt (establishWtSessionServer env peer s headers)) := by
    refine fun peer => answering_onWt fun w hw => ?_
    unfold establishWtSessionServer
    rw [get_bind]
    split
    · exact ⟨rfl, rfl⟩
    · rw [hw]
      exact ⟨rfl, rfl⟩
  refine .bind hR (.get hR) fun c => .bind hR (.ofExcept hR _) fun _ => ?_
  refine .bind hR hencode fun encoded => .bind hR (hqueue _ _) fun _ => .bind hR hreject fun _ => ?_
  exact .bind hR (hestablish _) fun _ => answering_modify (fun _ => rfl) fun _ => rfl

theorem getStreamData_answering : Keeps (Answering s) (getStreamData env s) := by
  have hR := answering_composes s
  have hmark : Keeps (Answering s)
      (modify (modifyStream s RequestStream.markFinSent) : CoreProc Unit) := by
    refine fun c _ => ⟨rfl, fun _ hw => absurd hw List.not_mem_nil, ?_⟩
    simp only [modify_run, modifyStream, IdMap.lookup_update_self]
    cases hr : c.streams.lookup s with
    | none => rfl
    | some r => exact .inl ⟨_, rfl, rfl, .inl rfl⟩
  have hend : Keeps (Answering s) (onWt (terminateWtSession env s)) := by
    refine answering_onWt fun w hw => ?_
    unfold terminateWtSession terminateWtSessionWith
    rw [get_bind, hw]
    exact ⟨rfl, rfl⟩
  refine .bind hR (.get hR) fun c => .ite (fun _ => ?_) fun _ => .ret hR _
  exact .bind hR hmark fun _ => .bind hR hend fun _ => .ret hR _

theorem consumeStreamData_answering (len : Nat) : Keeps (Answering s) (consumeStreamData s len) := by
  have hR := answering_composes s
  have hqpack : ∀ f : QpackState → QpackState,
      Keeps (Answering s) (modify (modifyQpack f) : CoreProc Unit) :=
    fun f => answering_modify (fun _ => rfl) fun _ => rfl
  refine Keeps.get_bind fun c => ?_
  split
  · split
    · exact .of_keeps (answering_modify (fun _ => rfl) fun _ => rfl)
    · exact .of_keeps (.throw hR _)
  split
  · exact .of_keeps (hqpack _)
  split
  · exact .of_keeps (hqpack _)
  split
  · exact .of_keeps (.ret hR _)
  rename_i r hr
  split
  · exact .of_keeps (.throw hR _)
  · rename_i t ht
    have hanswered : Answered r t := by
      obtain ⟨sendBuf, -, rfl⟩ := Option.map_eq_some_iff.mp ht
      exact ⟨rfl, .inl rfl⟩
    exact KeepsAt.bind hR (answering_put hr hanswered) fun _ _ =>
      .of_keeps answering_removeStreamIfDone

theorem takeStreamData_answering : Keeps (Answering s) (takeStreamData env s) := by
  have hR := answering_composes s
  refine .bind hR (getStreamData_answering env) fun taken => ?_
  split
  · exact .ret hR _
  · exact .ite (fun _ => .ret hR _) fun _ =>
      .bind hR (consumeStreamData_answering _) fun _ => .ret hR _

/-- **Sending on a stream leaves its receive side alone**. -/
theorem body_answering (call : Call) (h : isAnswer s call = true) :
    Keeps (Answering s) (body env call) := by
  have hR := answering_composes s
  cases call with
  | sendResponse x headers fin =>
    obtain rfl := beq_iff_eq.mp h
    exact .bind hR (sendResponseInner_answering env headers fin) fun _ => .ret hR _
  | sendBody x data fin =>
    obtain rfl := beq_iff_eq.mp h
    exact .bind hR (sendBodyInner_answering data fin) fun _ => .ret hR _
  | getStreamData x =>
    obtain rfl := beq_iff_eq.mp h
    exact .bind hR (getStreamData_answering env) fun _ => .ret hR _
  | takeStreamData x =>
    obtain rfl := beq_iff_eq.mp h
    exact .bind hR (takeStreamData_answering env) fun _ => .ret hR _
  | consumeStreamData x len =>
    obtain rfl := beq_iff_eq.mp h
    exact .bind hR (consumeStreamData_answering len) fun _ => .ret hR _
  | _ => cases h

end Calls

end Connection

end Http3
