import Http3.Connection.Runs

/-!
# Connection errors stay

A recorded error is returned by every later call of the receive side, which then does nothing
else. Two errors that end a connection are not recorded: that of a malformed datagram, and that
of a field section that does not decode, which is returned as a QPACK error.
-/

namespace Http3

/-- The functions that take what QUIC received and hand out events. -/
def Call.isReceive : Call → Bool
  | .feedStream _ _ _ | .feedDatagram _ | .streamReset _ _ _ | .stopSending _ _ | .pollEvent
  | .drainEvents => true
  | _ => false

/-- A field section that does not decode. -/
def Obs.isUndecodable : Obs → Bool
  | .undecodable _ _ => true
  | _ => false

namespace Connection

/-- Whatever is called from here on, the receive side answers `e` and does nothing. -/
def Stuck (cfg : Config) (c : Connection) (e : Error) : Prop :=
  ∀ (is : List Input) (i : Input), i.call.isReceive = true →
    (after cfg c is).feed cfg i = ⟨.error e, after cfg c is, []⟩

/-- A connection error of the receive side stays; a field section that does not decode is one. -/
def ErrorKept (cfg : Config) (c : Connection) (i : Input) : Prop :=
  (i.call.isReceive = true → ∀ code, (c.feed cfg i).result = .error (.connectionError code) →
    Stuck cfg (c.feed cfg i).conn (.connectionError code)) ∧
  ∀ streamId e, Obs.undecodable streamId e ∈ (c.feed cfg i).obs →
    ∃ code, (c.feed cfg i).result = .error (.connectionError code)

/-! ## The condition -/

/-- No session id that belongs to a request stream. -/
def isMalformedDatagram (data : Bytes) : Bool :=
  match Datagram.decode data with
  | .error _ => true
  | .ok d => d.sessionId % 4 ≠ 0

/-- A malformed datagram on a connection that takes datagrams and has no error yet. -/
def meetsMalformedDatagram (cfg : Config) (c : Connection) (i : Input) : Bool :=
  match i.call with
  | .feedDatagram data =>
    c.error.isNone && isWtFullyNegotiated (cfg.env i.order) c.core.peerSettings c.core.wt &&
      isMalformedDatagram data
  | _ => false

/-- No malformed datagram and no field section that does not decode. -/
def WellFormedInput (cfg : Config) (c : Connection) (i : Input) : Prop :=
  meetsMalformedDatagram cfg c i = false ∧ (c.feed cfg i).obs.any Obs.isUndecodable = false

instance (cfg : Config) (c : Connection) (i : Input) : Decidable (WellFormedInput cfg c i) :=
  inferInstanceAs (Decidable (_ ∧ _))

/-! ## A recorded error -/

section Recorded

variable {c : Connection} {e : Error}

theorem guarded_error (h : c.error = some e) (x : CoreProc Response) :
    c.guarded x = ⟨.error e, c, []⟩ := by
  simp only [guarded, h]

theorem remember_error (h : c.error = some e) :
    remember ⟨.error e, c, []⟩ = ⟨.error e, c, []⟩ := by
  cases e with
  | connectionError code => simp only [remember, ← h]
  | _ => rfl

/-- The receive side looks at the error first. -/
theorem step_receive (h : c.error = some e) (env : Env) (call : Call)
    (hcall : call.isReceive = true) : c.step env call = ⟨.error e, c, []⟩ := by
  cases call with
  | feedStream | streamReset | stopSending | pollEvent | drainEvents =>
    simp only [step, guarded_error h, popEvent, takeEvents, remember_error h]
  | feedDatagram => exact guarded_error h _
  | _ => cases hcall

theorem step_error (h : c.error = some e) (env : Env) (call : Call) :
    (c.step env call).conn.error = some e := by
  cases call with
  | feedStream | feedDatagram | streamReset | stopSending | pollEvent | drainEvents =>
    rw [step_receive h env _ rfl]
    exact h
  | sendRequest | sendResponse =>
    simp only [step, guarded_error h]
    exact h
  | sendBody | sendGoaway =>
    simp only [step, guarded_error h, remember_error h]
    exact h
  | _ => exact h

theorem after_error (h : c.error = some e) (cfg : Config) (is : List Input) :
    (after cfg c is).error = some e := by
  induction is generalizing c with
  | nil => exact h
  | cons _ _ ih => exact ih (step_error h _ _)

theorem Stuck.of_error (h : c.error = some e) (cfg : Config) : Stuck cfg c e :=
  fun is _ hi => step_receive (after_error h cfg is) _ _ hi

end Recorded

/-! ## Recording -/

theorem remember_records {s : Step} {code : ErrorCode}
    (h : (remember s).result = .error (.connectionError code)) :
    (remember s).conn.error = some (.connectionError code) := by
  rcases s with ⟨r, c, o⟩
  have hr : r = .error (.connectionError code) := by
    unfold remember at h
    split at h <;> exact h
  simp only [remember, hr]

theorem receiveDatagram_ok (env : Env) (goaway : Option VarInt) (sessionId : Nat)
    (payload : Bytes) (w : WtState) :
    (receiveDatagram env goaway sessionId payload w).val = .ok () := by
  simp only [receiveDatagram, Proc.get_bind]
  cases w.wtSessions.lookup sessionId with
  | some session =>
    simp only
    cases session.state <;> rfl
  | none =>
    simp only [Proc.ite_run]
    repeat' split
    all_goals rfl

/-- A datagram that is not malformed, or that is dropped unseen, is no error. -/
theorem feedDatagramInner_ok {env : Env} {data : Bytes} {c : Core}
    (h : (isWtFullyNegotiated env c.peerSettings c.wt && isMalformedDatagram data) = false) :
    (feedDatagramInner env data c).val = .ok () := by
  simp only [feedDatagramInner, Proc.get_bind, Proc.ite_run]
  split
  · rename_i hneg
    rw [hneg, Bool.true_and, isMalformedDatagram] at h
    cases hd : Datagram.decode data with
    | error e => simp [hd] at h
    | ok d =>
      simp only [hd, decide_eq_false_iff_not] at h
      simp only [Proc.ite_run, if_neg h]
      exact receiveDatagram_ok env _ _ _ _
  · rfl

/-- The error that a call of the receive side returns is recorded. -/
theorem feed_records {cfg : Config} {c : Connection} {i : Input} (hi : i.call.isReceive = true)
    (hd : meetsMalformedDatagram cfg c i = false) {code : ErrorCode}
    (h : (c.feed cfg i).result = .error (.connectionError code)) :
    (c.feed cfg i).conn.error = some (.connectionError code) := by
  rcases i with ⟨order, call⟩
  cases call with
  | feedStream | streamReset | stopSending | pollEvent | drainEvents => exact remember_records h
  | feedDatagram data =>
    simp only [feed, step] at h ⊢
    cases he : c.error with
    | some e =>
      rw [guarded_error he] at h ⊢
      exact he.trans (congrArg some (by simpa using h))
    | none =>
      simp only [meetsMalformedDatagram, he, Option.isNone_none, Bool.true_and] at hd
      have hval := feedDatagramInner_ok hd
      simp only [guarded, he, exec, body, unit, Proc.bind_run] at h
      rcases hx : feedDatagramInner (cfg.env order) data c.core with ⟨v, t, o⟩
      rw [hx] at hval h
      cases hval
      simp at h
  | _ => cases hi

/-! ## Every run -/

/-- Along a run without malformed datagrams and undecodable sections, errors stay. -/
theorem errors_stay {cfg : Config} {c : Connection} {is : List Input}
    (h : EveryStep cfg (WellFormedInput cfg) c is) : EveryStep cfg (ErrorKept cfg) c is := by
  refine h.imp fun c i hi => ⟨fun hrecv code hcode => ?_, fun streamId e hobs => ?_⟩
  · exact Stuck.of_error (feed_records hrecv hi.1 hcode) cfg
  · have hnone := List.any_eq_false.mp hi.2 _ hobs
    exact absurd rfl hnone

/-- A datagram, then FIN on the control stream of the peer, then more. -/
def controlFinRun : List Input :=
  (Sample.serverSetup ++ [Call.feedDatagram [0, 7], .feedStream 2 [] true, .pollEvent,
    .streamReset 0 0 0]).map Call.listed

/-- The error of a closed control stream comes back from the functions called after it. -/
theorem errors_stay_after_control_fin :
    ∃ c, Connection.new Sample.server = .ok c ∧
      EveryStep Sample.server (ErrorKept Sample.server) c controlFinRun := by
  obtain ⟨c, hc, h⟩ := Sample.of_holdsAfter Sample.server []
    (p := fun c => decide (EveryStep Sample.server (WellFormedInput Sample.server) c
      controlFinRun)) (by decide +kernel)
  exact ⟨c, hc, errors_stay (of_decide_eq_true h)⟩

/-- After an empty datagram, which is an error, the next datagram is taken. -/
theorem errors_are_not_always_kept :
    ¬∀ cfg c is, Connection.new cfg = .ok c → EveryStep cfg (ErrorKept cfg) c is := by
  intro hall
  obtain ⟨c, hc, h⟩ := Sample.of_holdsAfter Sample.server Sample.serverSetup
    (p := fun c =>
      let s := c.feed Sample.server (Call.feedDatagram []).listed
      s.result == .error (.connectionError .h3DatagramError) &&
        (s.conn.feed Sample.server (Call.feedDatagram [0, 1, 2]).listed).result == .ok .done)
    (by decide +kernel)
  rw [Bool.and_eq_true, beq_iff_eq, beq_iff_eq] at h
  have hlast := (hall Sample.server c
    (Sample.serverSetup.map Call.listed ++ [(Call.feedDatagram []).listed]) hc).last
  have hstuck := hlast.1 rfl _ h.1 [] (Call.feedDatagram [0, 1, 2]).listed rfl
  have hresult := h.2.symm.trans (congrArg Step.result hstuck)
  cases hresult

end Connection

end Http3
