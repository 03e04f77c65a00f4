import Http3.Connection.CallMoves
import Http3.Connection.Runs

/-!
# Requests of a client

Stream ids are handed out one after another. A request that fails leaves the connection as it
was, with one exception: a CONNECT with FIN is refused only after its id was used up.
-/

namespace Http3

namespace Connection

open Proc

/-! ## What calls do to ids and to the encoder -/

/-- No id is used up, and an encoder without entries gets none. -/
def Quiet : Flow Obs Core := fun c _ _ d =>
  d.nextStreamId = c.nextStreamId ∧
    (c.qpack.encoder.table.entries = [] → d.qpack.encoder.table.entries = [])

attribute [grind =] Quiet

section Quiet

variable (env : Env)

@[grind .] theorem quiet_composes : Composes Quiet where
  refl _ _ := ⟨rfl, fun h => h⟩
  trans h h' := ⟨h'.1.trans h.1, fun hc => h'.2 (h.2 hc)⟩

@[grind ←] theorem quiet_onWt {α : Type} (x : WtProc α) : Keeps Quiet (onWt x) :=
  fun _ => ⟨rfl, fun h => h⟩

theorem quiet_of_streams {c d : Core} {o : List Obs} {b : Bool}
    (h : d = { c with streams := d.streams }) : Quiet c o b d := by
  rw [h]
  exact ⟨rfl, fun h => h⟩

theorem quiet_deferred : Keeps Quiet (processDeferredWtConnects env) := by
  have hregister : ∀ streamId headers,
      Keeps Quiet (registerWtConnectSession env streamId headers) := by
    intro streamId headers
    unfold registerWtConnectSession modifyStream
    grind
  have hone : ∀ streamId headers, Keeps Quiet (processDeferredWtConnect env streamId headers) := by
    intro streamId headers
    unfold processDeferredWtConnect
    grind
  unfold processDeferredWtConnects
  grind

theorem quiet_data (streamId bodyLen : Nat) (data : Bytes) :
    Keeps Quiet (processData env streamId bodyLen data) := by
  unfold processData
  grind

theorem quiet_move {c d : Core} {o : List Obs} {b : Bool} (h : Move env c o b d) :
    Quiet c o b d := by
  cases h with
  | side h =>
    cases h with
    | plain h _ => exact ⟨h.nextStreamId, h.encoderEntries⟩
    | wt _ x _ => exact quiet_onWt x c
    | deferred => exact quiet_deferred env c
  | «open» => exact quiet_of_streams (ensureStream_eq env _ c)
  | touch => exact ⟨rfl, fun h => h⟩
  | drop => exact quiet_of_streams (removeStreamIfDone_eq _ c)
  | blocked => exact ⟨rfl, fun h => h⟩
  | report => exact ⟨rfl, fun h => h⟩
  | wt _ x _ => exact quiet_onWt x c
  | data => exact quiet_data env _ _ _ c

@[grind →] theorem quiet_of_moves {α : Type} {x : CoreProc α} (h : Keeps (Many (Move env)) x) :
    Keeps Quiet x :=
  h.mono fun _ _ _ _ h => Many.lift quiet_composes (fun _ _ _ _ => quiet_move env) h

theorem quiet_callMove {p : Nat → Prop} {c d : Core} {o : List Obs} {b : Bool}
    (h : CallMove env p c o b d) :
    Quiet c o b d := by
  cases h with
  | move h => exact quiet_move env h
  | send => exact ⟨rfl, fun h => h⟩
  | unblock streamId =>
    unfold clearQpackBlocked
    split <;> exact ⟨rfl, fun h => h⟩
  | bodyLimit => exact ⟨rfl, fun h => h⟩
  | wt _ x _ => exact quiet_onWt x c

theorem quiet_feedMove {c d : Core} {o : List Obs} {b : Bool} (h : FeedMove env c o b d) :
    Quiet c o b d := by
  cases h with
  | move h => exact quiet_move env h
  | wt _ x _ => exact quiet_onWt x c

/-- Only a request uses up an id. -/
theorem quiet_body (call : Call) (h : ∀ headers fin, call ≠ .sendRequest headers fin) :
    Keeps Quiet (body env call) := by
  cases call with
  | sendRequest headers fin => exact absurd rfl (h headers fin)
  | feedStream streamId data fin =>
    refine Keeps.bind quiet_composes ?_ fun _ => Keeps.ret quiet_composes _
    exact (feedStreamInner_moves env streamId data fin).mono fun _ _ _ _ =>
      Many.lift quiet_composes fun _ _ _ _ => quiet_feedMove env
  | _ =>
    exact (body_moves env _ rfl).mono fun _ _ _ _ =>
      Many.lift quiet_composes fun _ _ _ _ => quiet_callMove env

end Quiet

/-! ## One request -/

section Request

variable {env : Env} {c : Core} {headers : List Header} {fin : Bool}

/-- The headers of a new stream can always be queued, unless their frame is too long to exist. -/
theorem sendEncodedHeaders_new (env : Env) (c : Core) (streamId : Nat) (headers : List Header)
    (encoded : Bytes) (fin : Bool) :
    (∃ stream, (requestStream env c streamId headers).sendEncodedHeaders encoded fin false =
      .ok stream) ∨
    (requestStream env c streamId headers).sendEncodedHeaders encoded fin false =
      .error .panicked := by
  have hcheck : (requestStream env c streamId headers).checkSendHeaders fin false = .ok () := rfl
  cases hframe : encodeFrame (.headers encoded) with
  | none =>
    exact .inr (by simp only [RequestStream.sendEncodedHeaders, hcheck, hframe, bind, Except.bind])
  | some frame =>
    cases fin with
    | true =>
      exact .inl ⟨_, by
        simp only [RequestStream.sendEncodedHeaders, hcheck, hframe, bind, Except.bind]; rfl⟩
    | false =>
      exact .inl ⟨_, by
        simp only [RequestStream.sendEncodedHeaders, hcheck, hframe, bind, Except.bind]; rfl⟩

theorem encodeQpackHeaders_static (h : c.qpack.encoder.table.entries = []) (headers : List Header) :
    encodeQpackHeaders headers c =
      ⟨.ok (c.qpack.encoder.encodeStaticOnly headers),
        modifyQpack (fun q => { q with
          encoder := { q.encoder with lastRequiredInsertCount := 0 } }) c, []⟩ := by
  have htries : encodeTries headers c.qpack.encoder.blockedStreamsCount 4
      (Qpack.estimateEncodedSize headers + 64) c.qpack.encoder =
      (.ok (c.qpack.encoder.encodeStaticOnly headers),
        { c.qpack.encoder with lastRequiredInsertCount := 0 }) := by
    rw [encodeTries, Qpack.DynamicEncoder.encode_of_entries_nil h (by omega)]
  simp only [encodeQpackHeaders, get_bind, modify_bind, htries, ofExcept_ok, ret_run]
  rfl

/-- A request that does not pass the checks does nothing. -/
theorem sendRequestInner_refused {e : Error} (h : checkRequest env c headers = .error e)
    (fin : Bool) : sendRequestInner env headers fin c = ⟨.error e, c, []⟩ := by
  simp only [sendRequestInner, get_bind, h, ofExcept_error, throw_bind]

variable (fin) in
/-- A request that passes the checks uses up its id. What comes after that fails for a CONNECT with
FIN only, unless the frame of the headers is too long to exist. -/
theorem sendRequestInner_passed (h : checkRequest env c headers = .ok ())
    (he : c.qpack.encoder.table.entries = []) :
    (sendRequestInner env headers fin c).st.nextStreamId = c.nextStreamId + 4 ∧
      (sendRequestInner env headers fin c).st.qpack.encoder.table.entries = [] ∧
      ((sendRequestInner env headers fin c).val =
        if isConnectMethod headers && fin then .error (.streamError .messageError)
        else .ok c.nextStreamId) ∨
    (isConnectMethod headers && fin) = false ∧
      (sendRequestInner env headers fin c).st.qpack.encoder.table.entries = [] ∧
      (sendRequestInner env headers fin c).val = .error .panicked := by
  unfold sendRequestInner
  rw [get_bind, h, ofExcept_ok, ret_bind, bind_ok _ _ _ (encodeQpackHeaders_static he headers),
    modify_bind]
  by_cases hfin : (isConnectMethod headers && fin) = true
  · rw [if_pos hfin, if_pos hfin]
    exact .inl ⟨rfl, he, rfl⟩
  · rw [if_neg hfin, if_neg hfin]
    obtain ⟨stream, hs⟩ | hs := sendEncodedHeaders_new env c c.nextStreamId headers
      (c.qpack.encoder.encodeStaticOnly headers) fin
    · rw [hs, ofExcept_ok, ret_bind, modify_bind, modify_bind]
      split <;> exact .inl ⟨rfl, he, rfl⟩
    · rw [hs]
      exact .inr ⟨Bool.eq_false_iff.mpr hfin, he, rfl⟩

end Request

/-! ## The claim of a step -/

/-- The parts of the connection that a request changes. -/
structure Untouched (c d : Core) : Prop where
  nextStreamId : d.nextStreamId = c.nextStreamId
  streams : d.streams = c.streams
  wt : d.wt = c.wt
  sections : d.qpack.encoder.unackedSectionRics = c.qpack.encoder.unackedSectionRics
  controlSend : d.controlSend = c.controlSend
  encoderStream : d.qpack.encoderStream = c.qpack.encoderStream
  decoderStream : d.qpack.decoderStream = c.qpack.decoderStream

/-- A request that returns an error leaves these parts as they were. -/
def FailureKeeps (cfg : Config) (c : Connection) (i : Input) : Prop :=
  ∀ headers fin, i.call = .sendRequest headers fin →
    ∀ e, (c.feed cfg i).result = .error e → e ≠ .panicked →
      Untouched c.core (c.feed cfg i).conn.core

/-- A CONNECT with FIN that passes every check before its id is used up. -/
def losesId (cfg : Config) (c : Connection) (i : Input) : Bool :=
  match i.call with
  | .sendRequest headers fin =>
    c.error.isNone && Proc.succeeded (checkRequest (cfg.env i.order) c.core headers) &&
      (isConnectMethod headers && fin)
  | _ => false

/-- The id that a successful request got. -/
def requestId? (cfg : Config) (c : Connection) (i : Input) : Option Nat :=
  match i.call, (c.feed cfg i).result with
  | .sendRequest _ _, .ok (.streamId id) => some id
  | _, _ => none

/-- The ids of the successful requests of a run, in order. -/
def requestIds (cfg : Config) (c : Connection) : List Input → List Nat
  | [] => []
  | i :: is => (requestId? cfg c i).toList ++ requestIds cfg (c.feed cfg i).conn is

/-- No id is lost, and the call returns. -/
def KeepsIds (cfg : Config) (c : Connection) (i : Input) : Prop :=
  losesId cfg c i = false ∧ (c.feed cfg i).result ≠ .error .panicked

instance (cfg : Config) (c : Connection) (i : Input) : Decidable (KeepsIds cfg c i) :=
  inferInstanceAs (Decidable (_ ∧ _))

/-! ## Every run -/

section Step

variable {cfg : Config} {c : Connection} {i : Input} {headers : List Header} {fin : Bool}

/-- What a request does to a connection: nothing, or it uses up an id. -/
inductive RequestOutcome (c : Connection) (s : Step) : Bool → Prop
  | refused (e : Error) (hr : s.result = .error e) (hc : s.conn.core = c.core) :
      RequestOutcome c s false
  | lost (hr : s.result = .error (.streamError .messageError))
      (hid : s.conn.core.nextStreamId = c.core.nextStreamId + 4)
      (he : s.conn.core.qpack.encoder.table.entries = []) : RequestOutcome c s true
  | sent (hr : s.result = .ok (.streamId c.core.nextStreamId))
      (hid : s.conn.core.nextStreamId = c.core.nextStreamId + 4)
      (he : s.conn.core.qpack.encoder.table.entries = []) : RequestOutcome c s false
  | panicked (hr : s.result = .error .panicked)
      (he : s.conn.core.qpack.encoder.table.entries = []) : RequestOutcome c s false

variable (cfg) in
theorem feed_request (hi : i.call = .sendRequest headers fin)
    (he : c.core.qpack.encoder.table.entries = []) :
    RequestOutcome c (c.feed cfg i) (losesId cfg c i) := by
  rcases i with ⟨order, call⟩
  obtain rfl : call = .sendRequest headers fin := hi
  simp only [feed, step, losesId]
  cases herr : c.error with
  | some e =>
    simp only [guarded, herr]
    exact .refused e rfl rfl
  | none =>
    simp only [guarded, herr, exec, body]
    cases hcheck : checkRequest (cfg.env order) c.core headers with
    | error e =>
      rw [bind_error _ _ _ (sendRequestInner_refused hcheck fin)]
      exact .refused e rfl rfl
    | ok =>
      have hrun := sendRequestInner_passed fin hcheck he
      rcases hx : sendRequestInner (cfg.env order) headers fin c.core with ⟨v, d, o⟩
      simp only [hx] at hrun
      obtain ⟨hid, hd, hv⟩ | ⟨hfin, hd, hv⟩ := hrun
      · by_cases hfin : (isConnectMethod headers && fin) = true
        · rw [if_pos hfin] at hv
          subst hv
          rw [bind_error _ _ _ hx, hfin]
          exact .lost rfl hid hd
        · rw [if_neg hfin] at hv
          subst hv
          rw [bind_ok _ _ _ hx, Bool.eq_false_iff.mpr hfin]
          exact .sent rfl hid hd
      · subst hv
        rw [bind_error _ _ _ hx, hfin]
        exact .panicked rfl hd

theorem feed_quiet (hi : ∀ headers fin, i.call ≠ .sendRequest headers fin) :
    (c.feed cfg i).Stays Quiet c :=
  step_stays quiet_composes (quiet_body (cfg.env i.order) i.call hi c.core)

theorem feed_entries (he : c.core.qpack.encoder.table.entries = []) :
    (c.feed cfg i).conn.core.qpack.encoder.table.entries = [] := by
  by_cases hi : ∃ headers fin, i.call = .sendRequest headers fin
  · obtain ⟨headers, fin, hi⟩ := hi
    have hout := feed_request cfg hi he
    generalize losesId cfg c i = loses at hout
    cases hout with
    | refused e _ hc => rw [hc, he]
    | lost _ _ he => exact he
    | sent _ _ he => exact he
    | panicked _ he => exact he
  · exact (feed_quiet fun headers fin h => hi ⟨headers, fin, h⟩).2 he

/-- Requests that fail are undone, apart from those that lose an id. -/
theorem failureKeeps_iff (he : c.core.qpack.encoder.table.entries = []) :
    FailureKeeps cfg c i ↔ losesId cfg c i = false := by
  by_cases hi : ∃ headers fin, i.call = .sendRequest headers fin
  · obtain ⟨headers, fin, hi⟩ := hi
    have hout := feed_request cfg hi he
    generalize losesId cfg c i = loses at hout
    cases hout with
    | refused e hr hc =>
      refine ⟨fun _ => rfl, fun _ _ _ _ _ _ _ => ?_⟩
      rw [hc]
      exact ⟨rfl, rfl, rfl, rfl, rfl, rfl, rfl⟩
    | lost hr hid _ =>
      refine ⟨fun h => ?_, fun h => by cases h⟩
      have := (h headers fin hi _ hr (by decide)).nextStreamId
      omega
    | sent hr _ _ =>
      refine ⟨fun _ => rfl, fun _ _ _ _ e h _ => ?_⟩
      rw [hr] at h
      cases h
    | panicked hr _ =>
      refine ⟨fun _ => rfl, fun _ _ _ _ e h hne => ?_⟩
      rw [hr] at h
      cases h
      exact absurd rfl hne
  · refine ⟨fun _ => ?_, fun _ headers fin h => absurd ⟨headers, fin, h⟩ hi⟩
    unfold losesId
    split
    · exact absurd ⟨_, _, ‹_›⟩ hi
    · rfl

/-- A step that loses no id gives the next one, or none. -/
theorem requestId_step (he : c.core.qpack.encoder.table.entries = []) (h : KeepsIds cfg c i) :
    (requestId? cfg c i = none ∧ (c.feed cfg i).conn.core.nextStreamId = c.core.nextStreamId) ∨
    (requestId? cfg c i = some c.core.nextStreamId ∧
      (c.feed cfg i).conn.core.nextStreamId = c.core.nextStreamId + 4) := by
  by_cases hi : ∃ headers fin, i.call = .sendRequest headers fin
  · obtain ⟨headers, fin, hi⟩ := hi
    have hout := feed_request cfg hi he
    have hloses := h.1
    generalize losesId cfg c i = loses at hout hloses
    subst hloses
    cases hout with
    | refused e hr hc => exact .inl ⟨by simp only [requestId?, hi, hr], by rw [hc]⟩
    | sent hr hid _ => exact .inr ⟨by simp only [requestId?, hi, hr], hid⟩
    | panicked hr _ => exact absurd hr h.2
  · refine .inl ⟨?_, (feed_quiet fun headers fin h => hi ⟨headers, fin, h⟩).1⟩
    unfold requestId?
    split
    · exact absurd ⟨_, _, ‹_›⟩ hi
    · rfl

end Step

section Run

variable {cfg : Config}

theorem new_core {c : Connection} (hc : Connection.new cfg = .ok c) :
    c.core.qpack.encoder.table.entries = [] ∧
      (cfg.role = .client → c.core.nextStreamId = 0) := by
  simp only [Connection.new, Core.new, bind, Except.bind, pure, Except.pure] at hc
  split at hc
  · cases hc
  · cases hc
    exact ⟨rfl, fun h => by simp only [h]⟩

/-- Nothing on a connection puts an entry into the table of its encoder. -/
theorem Reachable.encoder_entries {c : Connection} (hc : Reachable cfg c) :
    c.core.qpack.encoder.table.entries = [] :=
  hc.rec_on (P := fun c => c.core.qpack.encoder.table.entries = [])
    (fun _ hc => (new_core hc).1) fun _ _ he => feed_entries he

/-- The ids go up from the next one in steps of four. -/
theorem requestIds_eq {c : Connection} {is : List Input}
    (he : c.core.qpack.encoder.table.entries = []) (h : EveryStep cfg (KeepsIds cfg) c is) :
    requestIds cfg c is = (List.range (requestIds cfg c is).length).map
      fun n => c.core.nextStreamId + 4 * n := by
  induction is generalizing c with
  | nil => rfl
  | cons i is ih =>
    have hrest := ih (feed_entries he) h.2
    obtain ⟨hid, hnext⟩ | ⟨hid, hnext⟩ := requestId_step he h.1
    · rw [hnext] at hrest
      simpa only [requestIds, hid, Option.toList_none, List.nil_append] using hrest
    · rw [hnext] at hrest
      simp only [requestIds, hid, Option.toList_some, List.singleton_append, List.length_cons,
        List.range_succ_eq_map, List.map_cons, List.map_map]
      nth_rewrite 1 [hrest]
      simp only [List.cons.injEq, List.map_inj_left, Function.comp]
      exact ⟨rfl, fun n _ => by omega⟩

end Run

/-- A failed request changes nothing if and only if it is no CONNECT with FIN that passes the other
checks. A run without such a request hands out the ids 0, 4, 8 and so on. -/
theorem failed_requests {cfg : Config} (hclient : cfg.role = .client) :
    (∀ c i, Reachable cfg c → (FailureKeeps cfg c i ↔ losesId cfg c i = false)) ∧
      ∀ c is, Connection.new cfg = .ok c → EveryStep cfg (KeepsIds cfg) c is →
        requestIds cfg c is = (List.range (requestIds cfg c is).length).map (4 * ·) := by
  refine ⟨fun c i hc => failureKeeps_iff hc.encoder_entries, fun c is hc h => ?_⟩
  have hids := requestIds_eq (new_core hc).1 h
  simpa only [(new_core hc).2 hclient, Nat.zero_add] using hids

/-- A request without its control stream, one that is sent, one with an empty header list, and one
more that is sent. -/
def requestRun : List Input :=
  [Call.sendRequest Sample.getHeaders true, .setControlStreamId 2,
    .sendRequest Sample.getHeaders true, .sendRequest [] true,
    .sendRequest Sample.connectHeaders false].map Call.listed

example : (Sample.results Sample.client [.setControlStreamId 2, .sendRequest [] true,
    .sendRequest Sample.connectHeaders false]).getLast? = some (.ok (.streamId 0)) := by
  decide +kernel

theorem failed_requests_of_run :
    ∃ c, Connection.new Sample.client = .ok c ∧
      (∀ i, FailureKeeps Sample.client c i ↔ losesId Sample.client c i = false) ∧
      requestIds Sample.client c requestRun =
        (List.range (requestIds Sample.client c requestRun).length).map (4 * ·) := by
  obtain ⟨c, hc, h⟩ := Sample.of_holdsAfter Sample.client []
    (p := fun c => decide (EveryStep Sample.client (KeepsIds Sample.client) c requestRun))
    (by decide +kernel)
  have hall := @failed_requests Sample.client rfl
  exact ⟨c, hc, fun i => hall.1 c i ⟨c, [], hc, rfl⟩, hall.2 c _ hc (of_decide_eq_true h)⟩

/-- A CONNECT with FIN is refused and yet uses up the id 0. -/
theorem failed_requests_can_lose_ids :
    ¬∀ cfg c i, cfg.role = .client → Reachable cfg c → FailureKeeps cfg c i := by
  intro hall
  obtain ⟨c₀, hc₀, h⟩ := Sample.of_holdsAfter Sample.client
    [.setControlStreamId 2]
    (p := fun c =>
      let s := c.feed Sample.client (Call.sendRequest Sample.connectHeaders true).listed
      s.result == .error (.streamError .messageError) &&
        c.core.nextStreamId == 0 && s.conn.core.nextStreamId == 4)
    (by decide +kernel)
  simp only [Bool.and_eq_true, beq_iff_eq] at h
  have hkeeps := hall Sample.client _ (Call.sendRequest Sample.connectHeaders true).listed rfl
    ⟨c₀, [Call.setControlStreamId 2].map Call.listed, hc₀, rfl⟩
  have hid := (hkeeps _ _ rfl _ h.1.1 (by decide)).nextStreamId
  rw [h.1.2, h.2] at hid
  cases hid

end Connection

end Http3
