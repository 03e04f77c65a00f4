import Http3.Connection.SessionEvents

/-!
# Sessions that a client asked for

On a client every session begins with a request of its own, so the application hears of no other.
-/

namespace Http3

/-- Does the event tell of session `k`? -/
def WebTransportEvent.tellsOf (k : Nat) : WebTransportEvent → Bool
  | .sessionEstablished x _ | .sessionDraining x | .sessionClosed x _ _ _ _
  | .bidiStreamOpen _ x | .uniStreamOpen _ x | .datagram x _ | .capsule x _ => x == k
  | .bidiStreamData _ _ | .bidiStreamEnd _ | .uniStreamData _ _ | .uniStreamEnd _
  | .streamReset _ _ _ _ | .streamStopSending _ _ _ | .bufferedStreamRejected _ _ => false

def Obs.tellsOf (k : Nat) : Obs → Bool
  | .event (.webTransport e) => e.tellsOf k
  | _ => false

namespace Connection

open Proc WtSession

/-- An observer that hears nothing of session `k`. -/
def hush (k : Nat) (_ : Unit) (o : Obs) : Option Unit := if o.tellsOf k then none else some ()

/-- While a session is not in the table nothing is told of it, and it does not come in. -/
abbrev Unheld (k : Nat) : Flow Obs WtState :=
  Watched (fun w => w.wtSessions.contains k = false) (hush k) fun _ => ()

section Unheld

variable {env : Env} {k : Nat} {w : WtState}

theorem hush_of_untold {o : Obs} (h : o.tellsOf k = false) : hush k () o = some () := by
  rw [hush, h]
  rfl

theorem tellsOf_aside {o : Obs} (h : o.isAside = true) : o.tellsOf k = false := by
  cases o with
  | event e =>
    cases e with
    | webTransport e => cases e <;> first | rfl | cases h
    | _ => rfl
  | _ => rfl

theorem tellsOf_open (b : Bool) (x j : Nat) : (Obs.wt (openEvent b x j)).tellsOf k = (j == k) := by
  cases b <;> rfl

theorem ne_of_absent {j : Nat} {s : WtSession} (hw : w.wtSessions.contains k = false)
    (hs : w.wtSessions.lookup j = some s) : j ≠ k := by
  rintro rfl
  rw [contains_of_lookup hs] at hw
  cases hw

/-- What is told of another session, or of none. -/
theorem unheld_of {o : List Obs} {b : Bool} {w' : WtState}
    (h : w.wtSessions.contains k = false →
      w'.wtSessions.contains k = false ∧ ∀ e ∈ o, e.tellsOf k = false) : Unheld k w o b w' :=
  fun hw => ⟨(h hw).1, foldlM_stays fun e he => hush_of_untold ((h hw).2 e he)⟩

theorem putSession_absent {j : Nat} (hj : j ≠ k) (s : WtSession)
    (hw : w.wtSessions.contains k = false) : (putSession j s w).wtSessions.contains k = false := by
  rw [putSession, IdMap.contains_insert, hw, decide_eq_false (Ne.symm hj)]
  rfl

/-- Only requests bring sessions in. -/
theorem step_unheld (hclient : env.role = .client) {o : List Obs} {b : Bool} {w' : WtState}
    (h : WtStep env w o b w') : Unheld k w o b w' := by
  refine unheld_of fun hw => ?_
  cases h with
  | aside _ o ho => exact ⟨hw, by simpa using tellsOf_aside ho⟩
  | tables h => exact ⟨by rwa [h], by simp⟩
  | create _ j hr hnone h =>
    rw [hclient] at hr
    cases hr
  | change _ j hs h => exact ⟨putSession_absent (ne_of_absent hw hs) _ hw, by simp⟩
  | establish _ j fc hs hstate ht hbounded =>
    have hj := ne_of_absent hw hs
    exact ⟨putSession_absent hj _ hw, by simpa [Obs.tellsOf, WebTransportEvent.tellsOf] using hj⟩
  | drain _ j hs hstate =>
    have hj := ne_of_absent hw hs
    exact ⟨putSession_absent hj _ hw, by simpa [Obs.tellsOf, WebTransportEvent.tellsOf] using hj⟩
  | close j resets code closeCode message hs h =>
    have hj := ne_of_absent hw hs
    refine ⟨?_, by simpa [Obs.tellsOf, WebTransportEvent.tellsOf] using hj⟩
    rw [h, IdMap.contains_erase, hw, Bool.and_false]
  | abandon _ j hs hstate =>
    refine ⟨?_, by simp [Obs.tellsOf]⟩
    rw [dropSession, IdMap.contains_erase, hw, Bool.and_false]
  | opened _ c x j hs hstate => exact ⟨hw, by simpa [tellsOf_open] using ne_of_absent hw hs⟩
  | datagram _ j payload hs hstate =>
    exact ⟨hw, by simpa [Obs.tellsOf, WebTransportEvent.tellsOf] using ne_of_absent hw hs⟩
  | capsule _ j capsule hs hfc =>
    exact ⟨hw, by simpa [Obs.tellsOf, WebTransportEvent.tellsOf] using ne_of_absent hw hs⟩

/-! ## Calls -/

/-- Does the call ask for session `k`? -/
def asksFor (cfg : Config) (k : Nat) (c : Connection) (i : Input) : Bool :=
  match i.call, (c.feed cfg i).result with
  | .sendRequest headers _, .ok (.streamId x) => isWebtransportConnect headers && x == k
  | _, _ => false

variable {cfg : Config} {c : Connection} {i : Input}

/-- A request tells nothing, and brings in the session that it asks for only. -/
theorem feed_request_unheld {headers : List Header} {fin : Bool}
    (hi : i.call = .sendRequest headers fin) :
    (c.feed cfg i).obs = [] ∧ (asksFor cfg k c i = false →
      c.core.wt.wtSessions.contains k = false →
        (c.feed cfg i).conn.core.wt.wtSessions.contains k = false) := by
  rcases i with ⟨order, call⟩
  obtain rfl : call = .sendRequest headers fin := hi
  have hasked := sendRequestInner_asksSession (cfg.env order) c.core headers fin
  cases herror : c.error with
  | some e =>
    rw [show c.feed cfg ⟨order, .sendRequest headers fin⟩ = ⟨.error e, c, []⟩ from
      guarded_of_some herror _]
    exact ⟨rfl, fun _ hc => hc⟩
  | none =>
    rcases hx : sendRequestInner (cfg.env order) headers fin c.core with ⟨val, st, out⟩
    rw [Post, hx] at hasked
    have hrun : c.feed cfg ⟨order, .sendRequest headers fin⟩ =
        ⟨val.map .streamId, ⟨st, c.events ++ eventsOf out, none⟩, out⟩ := by
      simp only [feed, step, guarded, herror, exec, body, wrapped_run hx]
    rw [asksFor, hrun]
    cases hasked with
    | nothing hwt hnext => exact ⟨rfl, fun _ hc => by rwa [hwt]⟩
    | asked hclient hheaders hwt hnext =>
      refine ⟨rfl, fun hnot hc => ?_⟩
      simp only [Except.map, hheaders, Bool.true_and, beq_eq_false_iff_ne] at hnot
      dsimp only
      rw [hwt]
      exact putSession_absent hnot _ hc

theorem obs_of_asksFor (h : asksFor cfg k c i = true) : (c.feed cfg i).obs = [] := by
  unfold asksFor at h
  split at h
  · next hi _ => exact (feed_request_unheld (k := k) hi).1
  · cases h

theorem feed_unheld (hclient : cfg.role = .client) (hnot : asksFor cfg k c i = false)
    (hc : c.core.wt.wtSessions.contains k = false) :
    (c.feed cfg i).conn.core.wt.wtSessions.contains k = false ∧
      (c.feed cfg i).obs.foldlM (hush k) () = some () := by
  by_cases hi : ∃ headers fin, i.call = .sendRequest headers fin
  · obtain ⟨headers, fin, hi⟩ := hi
    obtain ⟨hobs, hcore⟩ := feed_request_unheld (k := k) hi
    exact ⟨hcore hnot hc, by rw [hobs]; rfl⟩
  · have hbody := body_traced (cfg.env i.order) i.call fun headers fin h => hi ⟨headers, fin, h⟩
    have hsteps : (c.feed cfg i).Stays (Traced (cfg.env i.order)) c :=
      step_stays (traced_composes _) (hbody c.core)
    exact Many.lift watched_composes (fun _ _ _ _ => step_unheld hclient) hsteps.1 hc

end Unheld

/-! ## Runs -/

/-- What a run tells of a session that is not there is told after a request for it. -/
theorem told_after_asking {cfg : Config} (hclient : cfg.role = .client) {k : Nat} {c : Connection}
    (hc : c.core.wt.wtSessions.contains k = false) {is : List Input} {o : Obs}
    (ho : o ∈ trace cfg c is) (hk : o.tellsOf k = true) :
    ∃ before i rest, is = before ++ i :: rest ∧ asksFor cfg k (after cfg c before) i = true ∧
      o ∈ trace cfg ((after cfg c before).feed cfg i).conn rest := by
  induction is generalizing c with
  | nil => cases ho
  | cons i is ih =>
    rw [trace, steps, List.flatMap_cons] at ho
    by_cases hasks : asksFor cfg k c i = true
    · rw [obs_of_asksFor hasks, List.nil_append] at ho
      exact ⟨[], i, is, rfl, hasks, ho⟩
    obtain ⟨hnext, hobs⟩ := feed_unheld hclient (Bool.eq_false_iff.mpr hasks) hc
    rcases List.mem_append.mp ho with ho | ho
    · exact absurd ho (notMem_of_foldlM hobs fun _ => if_pos hk)
    · obtain ⟨before, j, rest, rfl, hj, ho⟩ := ih hnext ho
      exact ⟨i :: before, j, rest, rfl, hj, ho⟩

/-- A client is told of a session only after a WebTransport CONNECT of its own that was sent under
the id of the session. -/
theorem client_sessions_are_asked {cfg : Config} {c₀ : Connection} (hclient : cfg.role = .client)
    (hnew : Connection.new cfg = .ok c₀) {is : List Input} {k : Nat} {e : WebTransportEvent}
    (he : .webTransport e ∈ eventsOf (trace cfg c₀ is)) (hk : e.tellsOf k = true) :
    ∃ before i rest, is = before ++ i :: rest ∧ asksFor cfg k (after cfg c₀ before) i = true ∧
      .webTransport e ∈ eventsOf (trace cfg ((after cfg c₀ before).feed cfg i).conn rest) := by
  have hempty : c₀.core.wt.wtSessions.contains k = false := by
    rw [new_wt hnew]
    rfl
  obtain ⟨o, ho, hoe⟩ := List.mem_filterMap.mp he
  cases o with
  | event e' =>
    cases hoe
    obtain ⟨before, i, rest, his, hasks, htold⟩ := told_after_asking hclient hempty ho hk
    exact ⟨before, i, rest, his, hasks, List.mem_filterMap.mpr ⟨_, htold, rfl⟩⟩
  | _ => cases hoe

/-- A client asks for a session, and the server agrees. -/
def askingCalls : List Call :=
  [.setWebtransportTransportVerified true true, .setControlStreamId 2,
    .feedStream 3 Sample.controlBytes false, .sendRequest Sample.webTransportHeaders false,
    .feedStream 0 (Sample.headersBytes Sample.okHeaders) false]

theorem client_sessions_are_asked_once : ∃ c, Connection.new Sample.client = .ok c ∧
    ∃ before i rest, askingCalls.map Call.listed = before ++ i :: rest ∧
      asksFor Sample.client 0 (after Sample.client c before) i = true ∧
      .webTransport (.sessionEstablished 0 true) ∈ eventsOf
        (trace Sample.client ((after Sample.client c before).feed Sample.client i).conn rest) := by
  obtain ⟨c, hc, h⟩ := Sample.of_holdsAfter Sample.client []
    (p := fun c => decide (.webTransport (.sessionEstablished 0 true) ∈
      eventsOf (trace Sample.client c (askingCalls.map Call.listed)))) (by decide +kernel)
  exact ⟨c, hc, client_sessions_are_asked rfl hc (of_decide_eq_true h) rfl⟩

end Connection

end Http3
