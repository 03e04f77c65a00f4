import Http3.Connection.SessionMoves
import Http3.Connection.QueuedCapsules
import Http3.Connection.Delivery
import Http3.Connection.Goaway
import Http3.Lib.Monitor

/-!
# What the application hears of a session

The events about one session tell the application where the session stands. `SessionPhase.onEvent`
says which event may come in which phase; the events of every run are accepted by it, and the phase
they end in is that of the session table.
-/

namespace Http3

/-- What the application has been told of a session: nothing, or its end; that it is established;
that it is draining. -/
inductive SessionPhase where
  | quiet
  | live
  | draining
  deriving DecidableEq

namespace SessionPhase

def ofState : WtSessionState → SessionPhase
  | .pending | .closed => quiet
  | .established => live
  | .draining => draining

/-- The phase after an event; `none` when the event must not come. Streams are opened in a live
session only, datagrams and capsules come as long as it has not ended. -/
def next (k : Nat) (ph : SessionPhase) : WebTransportEvent → Option SessionPhase
  | .sessionEstablished x _ =>
    if x ≠ k then some ph else if ph = quiet then some live else none
  | .sessionDraining x => if x ≠ k then some ph else if ph = draining then none else some draining
  | .sessionClosed x _ _ _ _ => if x ≠ k then some ph else some quiet
  | .bidiStreamOpen _ x | .uniStreamOpen _ x => if x = k ∧ ph ≠ live then none else some ph
  | .datagram x _ | .capsule x _ => if x = k ∧ ph = quiet then none else some ph
  | .bidiStreamData _ _ | .bidiStreamEnd _ | .uniStreamData _ _ | .uniStreamEnd _
  | .streamReset _ _ _ _ | .streamStopSending _ _ _ | .bufferedStreamRejected _ _ => some ph

def onEvent (k : Nat) (ph : SessionPhase) : Event → Option SessionPhase
  | .webTransport e => next k ph e
  | _ => some ph

def watch (k : Nat) (ph : SessionPhase) : Obs → Option SessionPhase
  | .event e => onEvent k ph e
  | _ => some ph

theorem foldlM_eventsOf (k : Nat) (out : List Obs) (ph : SessionPhase) :
    (eventsOf out).foldlM (onEvent k) ph = out.foldlM (watch k) ph := by
  rw [eventsOf, List.foldlM_filterMap]
  congr 1
  funext ph o
  cases o <;> rfl

end SessionPhase

namespace Connection

open Proc WtSession SessionPhase

/-- The phase of a session as the table has it. -/
def phaseOf (k : Nat) (w : WtState) : SessionPhase :=
  ((w.wtSessions.lookup k).map fun s => ofState s.state).getD .quiet

/-- Flow control is decided when a session is established. -/
def FlowControlled (s : WtSession) : Prop :=
  s.flowControlEnabled = true → s.state = .established ∨ s.state = .draining

/-- A client has asked for its sessions under ids below `n`. -/
structure SessionsFit (role : Role) (n : Nat) (sessions : IdMap WtSession) : Prop where
  flowControl : sessions.All FlowControlled
  asked : role = .client → ∀ x, sessions.contains x = true → x < n

/-- The events are accepted, and the table is in the phase they lead to. -/
abbrev Heard (role : Role) (n k : Nat) : Flow Obs WtState :=
  Watched (fun w => SessionsFit role n w.wtSessions) (watch k) (phaseOf k)

section Heard

variable {env : Env} {role : Role} {n k : Nat} {w : WtState}

section Fit

variable {m : IdMap WtSession} (hm : SessionsFit role n m)

include hm

theorem SessionsFit.insert {j : Nat} {t : WtSession} (hj : role = .client → j < n)
    (ht : FlowControlled t) : SessionsFit role n (m.insert j t) := by
  refine ⟨hm.flowControl.insert j ht, fun hr x hx => ?_⟩
  rw [IdMap.contains_insert, Bool.or_eq_true, decide_eq_true_eq] at hx
  rcases hx with rfl | hx
  · exact hj hr
  · exact hm.asked hr x hx

/-- A session that is in the table stays below. -/
theorem SessionsFit.insert_again {j : Nat} {s t : WtSession} (hs : m.lookup j = some s)
    (ht : FlowControlled t) : SessionsFit role n (m.insert j t) :=
  hm.insert (fun hr => hm.asked hr j ((IdMap.contains_iff _ _).mpr ⟨s, hs⟩)) ht

theorem SessionsFit.erase (j : Nat) : SessionsFit role n (m.erase j) := by
  refine ⟨hm.flowControl.erase j, fun hr x hx => ?_⟩
  rw [IdMap.contains_erase, Bool.and_eq_true] at hx
  exact hm.asked hr x hx.2

end Fit

theorem phaseOf_put (j : Nat) (s : WtSession) (w : WtState) :
    phaseOf k (putSession j s w) = if k = j then ofState s.state else phaseOf k w := by
  unfold phaseOf putSession
  rw [IdMap.lookup_insert_eq]
  split <;> rfl

theorem phaseOf_drop (j : Nat) (w : WtState) :
    phaseOf k (dropSession j w) = if k = j then .quiet else phaseOf k w := by
  unfold phaseOf dropSession
  rw [IdMap.lookup_erase_eq]
  split <;> rfl

theorem phaseOf_lookup {s : WtSession} (hs : w.wtSessions.lookup k = some s) :
    phaseOf k w = ofState s.state := by
  rw [phaseOf, hs]
  rfl

theorem phaseOf_absent (hs : w.wtSessions.lookup k = none) : phaseOf k w = .quiet := by
  rw [phaseOf, hs]
  rfl

theorem watch_aside {o : Obs} (h : o.isAside = true) (ph : SessionPhase) :
    watch k ph o = some ph := by
  cases o with
  | event e =>
    cases e with
    | webTransport e => cases e <;> first | rfl | cases h
    | _ => rfl
  | _ => rfl

/-- A session is put back in the state that it had. -/
theorem heard_put {j : Nat} {s t : WtSession} (hs : w.wtSessions.lookup j = some s)
    (h : SameState s t) {b : Bool} : Heard role n k w [] b (putSession j t w) := by
  refine watched_of_stays (fun hw => hw.insert_again hs ?_) (by simp) ?_
  · have hfc := hw.flowControl j s hs
    unfold FlowControlled at hfc ⊢
    rwa [h.state, h.flowControl]
  · rw [phaseOf_put]
    split
    · next hk =>
      subst hk
      rw [phaseOf_lookup hs, h.state]
    · rfl

/-! ## Steps -/

theorem heard_close {w' : WtState} (j : Nat) (buffered : List Nat) (resets : List WtStreamReset)
    (code closeCode : Nat) (message : Bytes) (h : w'.wtSessions = w.wtSessions.erase j) :
    Heard role n k w
      [.wt (.sessionClosed j resets code closeCode message), .sessionEnded j buffered] true w' := by
  intro hw
  have hphase : phaseOf k w' = if k = j then .quiet else phaseOf k w := by
    rw [← phaseOf_drop, phaseOf, h]
    rfl
  have hfit : SessionsFit role n w'.wtSessions := by
    rw [h]
    exact hw.erase j
  refine ⟨hfit, ?_⟩
  rw [hphase]
  by_cases hk : j = k
  · subst hk
    simp [watch, onEvent, next]
  · simp [watch, onEvent, next, hk, Ne.symm hk]

theorem heard_composes (role : Role) (n k : Nat) : Composes (Heard role n k) := watched_composes

theorem phaseOf_live {j : Nat} {s : WtSession} (hs : w.wtSessions.lookup j = some s)
    (hstate : s.state = .established) (hj : j = k) : phaseOf k w = .live := by
  subst hj
  rw [phaseOf_lookup hs, hstate]
  rfl

/-- Every step of a procedure is accepted. -/
theorem step_heard {o : List Obs} {b : Bool} {w' : WtState}
    (h : WtStep env w o b w') : Heard env.role n k w o b w' := by
  cases h with
  | aside _ o ho =>
    exact watched_of_stays id (fun v hv => by
      rw [List.mem_singleton.mp hv]
      exact watch_aside ho _) rfl
  | tables h =>
    refine watched_of_stays (fun hw => ?_) (by simp) ?_
    · rwa [h]
    · rw [phaseOf, phaseOf, h]
  | create _ j hr hnone h =>
    refine watched_of_stays (fun hw => hw.insert (fun hclient => ?_) fun hfc => ?_) (by simp) ?_
    · rw [hr] at hclient
      cases hclient
    · rw [h.flowControl] at hfc
      cases hfc
    · rw [phaseOf_put]
      split
      · next hk => rw [hk, phaseOf_absent hnone, h.state]; rfl
      · rfl
  | change _ j hs h => exact heard_put hs h.toSameState
  | establish _ j fc hs hstate ht hbounded =>
    intro hw
    refine ⟨hw.insert_again hs fun _ => .inl ht, ?_⟩
    rw [phaseOf_put]
    by_cases hk : j = k
    · subst hk
      rw [phaseOf_lookup hs, hstate, ht]
      simp [watch, onEvent, next, ofState]
    · simp [watch, onEvent, next, hk, Ne.symm hk]
  | drain _ j hs hstate =>
    intro hw
    refine ⟨hw.insert_again hs fun _ => .inr rfl, ?_⟩
    rw [phaseOf_put]
    by_cases hk : j = k
    · subst hk
      rw [phaseOf_lookup hs]
      rcases hstate with hstate | hstate <;> rw [hstate] <;> simp [watch, onEvent, next, ofState]
    · simp [watch, onEvent, next, hk, Ne.symm hk]
  | close j resets code closeCode message hs h =>
    exact heard_close j _ resets code closeCode message h
  | abandon _ j hs hstate =>
    refine watched_of_stays (fun hw => hw.erase j) (fun v hv => ?_) ?_
    · rw [List.mem_singleton.mp hv]
      rfl
    · rw [phaseOf_drop]
      split
      · next hk => rw [hk, phaseOf_lookup hs, hstate]; rfl
      · rfl
  | opened _ c x j hs hstate =>
    refine watched_of_stays id (fun v hv => ?_) rfl
    rw [List.mem_singleton.mp hv]
    have hopen : ¬(j = k ∧ phaseOf k w ≠ .live) := fun ⟨hj, hne⟩ => hne (phaseOf_live hs hstate hj)
    cases c <;> exact if_neg hopen
  | datagram _ j payload hs hstate =>
    refine watched_of_stays id (fun v hv => ?_) rfl
    rw [List.mem_singleton.mp hv]
    refine if_neg ?_
    rintro ⟨rfl, hquiet⟩
    rw [phaseOf_lookup hs] at hquiet
    rcases hstate with hstate | hstate <;> rw [hstate] at hquiet <;> cases hquiet
  | capsule _ j capsule hs hfc =>
    intro hw
    refine ⟨hw, foldlM_stays fun v hv => ?_⟩
    rw [List.mem_singleton.mp hv]
    refine if_neg ?_
    rintro ⟨rfl, hquiet⟩
    rw [phaseOf_lookup hs] at hquiet
    rcases hw.flowControl _ _ hs hfc with hstate | hstate <;> rw [hstate] at hquiet <;> cases hquiet

/-! ## Requests -/

/-- A request tells nothing; the session that it asks for stands under its id. -/
inductive AsksSession (env : Env) (c : Core) (headers : List Header) :
    Outcome Error Obs Core Nat → Prop
  | nothing {v : Except Error Nat} {d : Core} (hwt : d.wt = c.wt)
      (hnext : c.nextStreamId ≤ d.nextStreamId) : AsksSession env c headers ⟨v, d, []⟩
  | asked {d : Core} (hclient : env.role = .client)
      (hheaders : isWebtransportConnect headers = true)
      (hwt : d.wt = putSession c.nextStreamId (WtSession.new.offer headers) c.wt)
      (hnext : d.nextStreamId = c.nextStreamId + 4) :
      AsksSession env c headers ⟨.ok c.nextStreamId, d, []⟩

theorem sendRequestInner_asksSession (env : Env) (c : Core) (headers : List Header) (fin : Bool) :
    Post (AsksSession env c headers) c (sendRequestInner env headers fin) := by
  refine Post.get_bind (Post.ofExcept_bind (fun _ _ => .nothing rfl (Nat.le_refl _))
    fun _ hcheck => ?_)
  refine Post.bind (fun e d o hrun => ?_) fun encoded d o hrun => ?_
  all_goals
    rw [encodeQpackHeaders_run, Outcome.mk.injEq] at hrun
    obtain ⟨-, rfl, rfl⟩ := hrun
  · exact .nothing rfl (Nat.le_refl _)
  refine Post.modify_bind ?_
  split
  · exact Post.throw (.nothing rfl (Nat.le_add_right _ 4))
  refine Post.ofExcept_bind (fun _ _ => .nothing rfl (Nat.le_add_right _ 4)) fun stream _ => ?_
  refine Post.modify_bind (Post.modify_bind ?_)
  split
  · next hheaders => exact .asked (checkRequest_client env hcheck) hheaders rfl rfl
  · exact .nothing rfl (Nat.le_add_right _ 4)

/-! ## Calls -/

/-- The same over the whole core, where requests use up ids. -/
abbrev HeardCall (role : Role) (k : Nat) : Flow Obs Core :=
  Watched (fun c => SessionsFit role c.nextStreamId c.wt.wtSessions) (watch k)
    fun c => phaseOf k c.wt

theorem traced_watched {c d : Core} {o : List Obs} {b : Bool} (h : Traced env c o b d) :
    HeardCall env.role k c o b d := by
  obtain ⟨hsteps, hnext⟩ := h
  have hheard : Heard env.role c.nextStreamId k c.wt o b d.wt :=
    Many.lift (heard_composes env.role c.nextStreamId k) (fun _ _ _ _ => step_heard) hsteps
  intro hc
  obtain ⟨hd, ho⟩ := hheard hc
  rw [← hnext] at hd
  exact ⟨hd, ho⟩

theorem sendRequestInner_watched (headers : List Header) (fin : Bool) :
    Keeps (HeardCall env.role k) (sendRequestInner env headers fin) := by
  intro c hc
  have hasked := sendRequestInner_asksSession env c headers fin
  unfold Post at hasked
  generalize sendRequestInner env headers fin c = r at hasked ⊢
  cases hasked with
  | nothing hwt hnext =>
    dsimp only
    rw [hwt]
    exact ⟨⟨hc.flowControl, fun hr x hx => lt_of_lt_of_le (hc.asked hr x hx) hnext⟩, rfl⟩
  | asked hclient _ hwt hnext =>
    have habsent : c.wt.wtSessions.lookup c.nextStreamId = none := by
      cases hs : c.wt.wtSessions.lookup c.nextStreamId with
      | none => rfl
      | some s => exact absurd (hc.asked hclient _ (contains_of_lookup hs)) (Nat.lt_irrefl _)
    have hoffer : SameState .new (WtSession.new.offer headers) :=
      (sameBuffers_offer .new headers).toSameState
    have hfit : SessionsFit env.role (c.nextStreamId + 4) c.wt.wtSessions :=
      ⟨hc.flowControl, fun hr x hx => Nat.lt_add_right 4 (hc.asked hr x hx)⟩
    dsimp only
    rw [hwt, hnext]
    refine ⟨hfit.insert (fun _ => by omega) fun hfc => ?_, congrArg some ?_⟩
    · rw [hoffer.flowControl] at hfc
      cases hfc
    · rw [phaseOf_put]
      split
      · next hk =>
        rw [hoffer.state, hk]
        exact phaseOf_absent habsent
      · rfl

theorem body_watched (env : Env) (call : Call) : Keeps (HeardCall env.role k) (body env call) := by
  have hR : Composes (HeardCall env.role k) := watched_composes
  by_cases h : ∃ headers fin, call = .sendRequest headers fin
  · obtain ⟨headers, fin, rfl⟩ := h
    exact .bind hR (sendRequestInner_watched headers fin) fun _ => .ret hR _
  · exact (body_traced env call fun headers fin hcall => h ⟨headers, fin, hcall⟩).mono
      fun _ _ _ _ => traced_watched

end Heard

/-! ## Runs -/

theorem feed_watched (cfg : Config) (k : Nat) (c : Connection) (i : Input) :
    (c.feed cfg i).Stays (HeardCall cfg.role k) c :=
  step_stays watched_composes (body_watched (cfg.env i.order) i.call c.core)

theorem run_watched (cfg : Config) (k : Nat) (c : Connection) (is : List Input)
    (hc : SessionsFit cfg.role c.core.nextStreamId c.core.wt.wtSessions) :
    (trace cfg c is).foldlM (watch k) (phaseOf k c.core.wt) =
      some (phaseOf k (after cfg c is).core.wt) := by
  induction is generalizing c with
  | nil => rfl
  | cons i is ih =>
    obtain ⟨hd, ho⟩ := feed_watched cfg k c i hc
    have htrace : trace cfg c (i :: is) =
        (c.feed cfg i).obs ++ trace cfg (c.feed cfg i).conn is := List.flatMap_cons
    rw [htrace, List.foldlM_append, ho]
    exact ih _ hd

/-- Whatever the peer and the application do, the events about a session follow its phases: it is
established once, its streams open while it lives, its datagrams and capsules come before its end,
and the table agrees with what was told. -/
theorem session_events {cfg : Config} {c₀ : Connection} (h : Connection.new cfg = .ok c₀)
    (is : List Input) (k : Nat) :
    (eventsOf (trace cfg c₀ is)).foldlM (onEvent k) .quiet =
      some (phaseOf k (after cfg c₀ is).core.wt) := by
  have hnew : c₀.core.wt = .new := new_wt h
  have hfit : SessionsFit cfg.role c₀.core.nextStreamId c₀.core.wt.wtSessions := by
    rw [hnew]
    exact ⟨IdMap.All.empty, fun _ x hx => by simp [WtState.new] at hx⟩
  have hquiet : phaseOf k c₀.core.wt = .quiet := by
    rw [hnew]
    rfl
  rw [foldlM_eventsOf, ← hquiet]
  exact run_watched cfg k c₀ is hfit

/-- A session is established, a stream of the peer opens in it, and its CONNECT stream ends. -/
def sessionCalls : List Call :=
  Sample.serverSetup ++ [.feedStream 0 (Sample.headersBytes Sample.webTransportHeaders) false,
    .sendResponse 0 Sample.okHeaders false, .feedStream 6 ([0x40, 0x54, 0x00] ++ [1, 2, 3]) true]

theorem session_events_of_server : ∃ c, Connection.new Sample.server = .ok c ∧
    (eventsOf (trace Sample.server c (sessionCalls.map Call.listed))).foldlM (onEvent 0) .quiet =
      some .live := by
  obtain ⟨c, hc, h⟩ := Sample.of_holdsAfter Sample.server []
    (p := fun c => decide
      (phaseOf 0 (after Sample.server c (sessionCalls.map Call.listed)).core.wt = .live))
    (by decide +kernel)
  refine ⟨c, hc, (session_events hc _ 0).trans ?_⟩
  exact congrArg some (of_decide_eq_true h)

end Connection

end Http3
