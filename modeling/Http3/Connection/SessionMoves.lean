import Http3.Connection.HeldBack

/-!
# What procedures do to sessions

Every procedure on the WebTransport tables is a sequence of few kinds of steps: a session is made,
changes its buffers, is established, drains or ends, and the application is told. What holds of all
these steps holds of every procedure.
-/

namespace Http3

/-- Observations that tell of no session, but for the data and the end of its streams. -/
def Obs.isAside : Obs → Bool
  | .event (.webTransport e) =>
    match e with
    | .bidiStreamData _ _ | .bidiStreamEnd _ | .uniStreamData _ _ | .uniStreamEnd _
    | .streamReset _ _ _ _ | .streamStopSending _ _ _ | .bufferedStreamRejected _ _ => true
    | _ => false
  | .sessionEnded _ _ => false
  | _ => true

namespace Connection

open Proc WtSession

theorem isAside_data (b : Bool) (x : Nat) (data : Bytes) :
    (Obs.wt (dataEvent b x data)).isAside = true := by
  cases b <;> rfl

theorem isAside_end (b : Bool) (x : Nat) : (Obs.wt (endEvent b x)).isAside = true := by
  cases b <;> rfl

/-- One step of a procedure. -/
inductive WtStep (env : Env) : Flow Obs WtState
  | aside (w : WtState) (o : Obs) (ho : o.isAside = true) : WtStep env w [o] true w
  | tables {w w' : WtState} (h : w'.wtSessions = w.wtSessions) : WtStep env w [] true w'
  | create (w : WtState) (k : Nat) {t : WtSession} (hr : env.role = .server)
      (hnone : w.wtSessions.lookup k = none) (h : Confined .new t) :
      WtStep env w [] true (putSession k t w)
  | change (w : WtState) (k : Nat) {s t : WtSession} (hs : w.wtSessions.lookup k = some s)
      (h : Confined s t) : WtStep env w [] true (putSession k t w)
  | establish (w : WtState) (k : Nat) {s t : WtSession} (fc : Bool)
      (hs : w.wtSessions.lookup k = some s) (hstate : s.state = .pending)
      (ht : t.state = .established) (hbounded : s.Bounded → t.Bounded) :
      WtStep env w [.wt (.sessionEstablished k fc)] true (putSession k t w)
  | drain (w : WtState) (k : Nat) {s : WtSession} (hs : w.wtSessions.lookup k = some s)
      (hstate : s.state = .established ∨ s.state = .pending) :
      WtStep env w [.wt (.sessionDraining k)] true (putSession k { s with state := .draining } w)
  | close {w w' : WtState} (k : Nat) {s : WtSession} (resets : List WtStreamReset)
      (code closeCode : Nat) (message : Bytes) (hs : w.wtSessions.lookup k = some s)
      (h : w'.wtSessions = w.wtSessions.erase k) :
      WtStep env w [.wt (.sessionClosed k resets code closeCode message),
        .sessionEnded k s.bufferedStreams] true w'
  | abandon (w : WtState) (k : Nat) {s : WtSession} (hs : w.wtSessions.lookup k = some s)
      (hstate : s.state = .pending) :
      WtStep env w [.sessionEnded k s.bufferedStreams] true (dropSession k w)
  | opened (w : WtState) (b : Bool) (x k : Nat) {s : WtSession}
      (hs : w.wtSessions.lookup k = some s) (hstate : s.state = .established) :
      WtStep env w [.wt (openEvent b x k)] true w
  | datagram (w : WtState) (k : Nat) {s : WtSession} (payload : Bytes)
      (hs : w.wtSessions.lookup k = some s)
      (hstate : s.state = .established ∨ s.state = .draining) :
      WtStep env w [.wt (.datagram k payload)] true w
  | capsule (w : WtState) (k : Nat) {s : WtSession} (capsule : Capsule)
      (hs : w.wtSessions.lookup k = some s) (hfc : s.flowControlEnabled = true) :
      WtStep env w [.wt (.capsule k capsule)] true w

/-! ## Steps of procedures -/

section Steps

variable (env : Env)

theorem wtSteps_composes : Composes (Many (WtStep env)) := Many.composes _

theorem steps_aside {o : Obs} (h : o.isAside = true) :
    Keeps (Many (WtStep env)) (emit o : WtProc Unit) := fun w => .step (.aside w o h)

theorem steps_tables {f : WtState → WtState} (h : ∀ w, (f w).wtSessions = w.wtSessions) :
    Keeps (Many (WtStep env)) (modify f : WtProc Unit) := fun w => .step (.tables (h w))

theorem steps_tables_after {w w' w'' : WtState} {o : List Obs} {b : Bool}
    (h : Many (WtStep env) w o b w') (ht : w''.wtSessions = w'.wtSessions) :
    Many (WtStep env) w o b w'' := by
  have hlast : Many (WtStep env) w' [] true w'' := .step (.tables ht)
  simpa using h.trans hlast

theorem steps_emitAll {w : WtState} {o : List Obs} (h : ∀ e ∈ o, WtStep env w [e] true w)
    {b : Bool} : Many (WtStep env) w o b w := by
  induction o with
  | nil => exact .refl w b
  | cons e o ih =>
    have hfirst : Many (WtStep env) w [e] true w := .step (h e List.mem_cons_self)
    simpa using hfirst.trans (ih fun v hv => h v (List.mem_cons_of_mem e hv))

theorem steps_update (k : Nat) {g : WtSession → WtSession} (hg : ∀ s, Confined s (g s)) :
    Keeps (Many (WtStep env))
      (modify fun w => { w with wtSessions := w.wtSessions.update k g } : WtProc Unit) := by
  intro w
  show Many (WtStep env) w [] true { w with wtSessions := w.wtSessions.update k g }
  unfold IdMap.update
  cases hs : w.wtSessions.lookup k with
  | none => exact .refl w true
  | some s => exact .step (.change w k hs (hg s))

theorem steps_put {w : WtState} {k : Nat} {s t : WtSession} (hs : w.wtSessions.lookup k = some s)
    (h : Confined s t) : Many (WtStep env) w [] true (putSession k t w) :=
  .step (.change w k hs h)

theorem terminateWtSessionWith_steps (k code closeCode : Nat) (message : Bytes) :
    Keeps (Many (WtStep env)) (terminateWtSessionWith env k code closeCode message) := by
  refine Keeps.get_bind fun w => ?_
  cases hs : w.wtSessions.lookup k with
  | none => exact .refl w true
  | some session =>
    dsimp only
    by_cases hclosed : session.state = .closed
    · rw [if_pos hclosed]
      exact .refl w true
    rw [if_neg hclosed]
    refine KeepsAt.ofExcept_bind (wtSteps_composes env) fun resets _ => ?_
    exact .step (.close k (resets ++ session.bufferedStreams.map fun sid => ⟨sid, 0⟩) code closeCode
      message hs rfl)

theorem terminateWtSession_steps (k : Nat) :
    Keeps (Many (WtStep env)) (terminateWtSession env k) :=
  terminateWtSessionWith_steps env k _ _ _

theorem terminateFlowControl_steps (k : Nat) :
    Keeps (Many (WtStep env)) (terminateFlowControl env k) :=
  terminateWtSessionWith_steps env k _ _ _

theorem abandonSession_steps {w : WtState} {k : Nat} {s : WtSession}
    (hs : w.wtSessions.lookup k = some s) (hstate : s.state = .pending) :
    KeepsAt (Many (WtStep env)) w (abandonSession k s) := .step (.abandon w k hs hstate)

/-! ## Delivery -/

theorem bounded_establishedSession {s : WtSession} (peer : Option Settings) (h : s.Bounded) :
    (establishedSession env peer s).Bounded := by
  unfold establishedSession WtSession.initializeFlowControl
  dsimp only
  repeat' split
  all_goals exact ⟨h.streams, h.entries, h.datagrams⟩

theorem deliverBufferedStreams_steps {w : WtState} {k : Nat} {s : WtSession}
    (hs : w.wtSessions.lookup k = some s) (hstate : s.state = .established) :
    KeepsAt (Many (WtStep env)) w (deliverBufferedStreams k) := by
  have hR := wtSteps_composes env
  refine KeepsAt.get_bind ?_
  rw [hs]
  obtain ⟨hsame, hevents⟩ := deliverLoop_told k s.bufferedStreams
    { s with bufferedStreams := [] } [] [] s.bufferedStreams fun e he =>
      absurd he List.not_mem_nil
  change SameState { s with bufferedStreams := [] } (s.deliver k).session at hsame
  change ∀ e ∈ (s.deliver k).events, OfStreams k e at hevents
  dsimp only
  have hbounded : s.Bounded → (s.deliver k).session.Bounded := bounded_deliver k
  generalize s.deliver k = d at hsame hevents hbounded
  have hkept : Confined s d.session := ⟨⟨hsame.state, hsame.flowControl⟩, hbounded⟩
  have htold : Many (WtStep env) w (d.events.map Obs.wt) true w := by
    refine steps_emitAll env fun o ho => ?_
    obtain ⟨e, he, rfl⟩ := List.mem_map.mp ho
    obtain ⟨b, x, data, rfl | rfl | rfl⟩ := hevents e he
    · exact .opened w b x k hs hstate
    · exact .aside w _ (isAside_data b x data)
    · exact .aside w _ (isAside_end b x)
  refine KeepsAt.emitAll_bind hR htold ?_
  split
  · refine KeepsAt.modify_bind hR ?_ (.refl _ true)
    exact steps_tables_after env (steps_put env hs hkept) rfl
  · have hput : Many (WtStep env) w [] true
        (putSession k { d.session with bufferedDatagrams := [] } w) :=
      steps_put env hs ⟨⟨hkept.state, hkept.flowControl⟩, fun hb =>
        ⟨(hkept.bounded hb).streams, (hkept.bounded hb).entries, Nat.zero_le _⟩⟩
    refine KeepsAt.modify_bind hR (steps_tables_after env hput rfl) ?_
    refine KeepsAt.emitAll_bind hR (steps_emitAll env fun o ho => ?_) (.refl _ true)
    obtain ⟨payload, -, rfl⟩ := List.mem_map.mp ho
    exact .datagram _ k payload (IdMap.lookup_insert_self _ _ _)
      (.inl (hkept.state.trans hstate))

theorem establish_steps {w : WtState} {k : Nat} {s : WtSession} (peer : Option Settings)
    (hs : w.wtSessions.lookup k = some s) (hstate : s.state = .pending) :
    KeepsAt (Many (WtStep env)) w (establish env peer k s) := by
  have hR := wtSteps_composes env
  have hput : Many (WtStep env) w [.wt (.sessionEstablished k (isWtFlowControlEnabled env peer))]
      true (putSession k (establishedSession env peer s) w) :=
    .step (.establish w k _ hs hstate rfl (bounded_establishedSession env peer))
  have hrest : KeepsAt (Many (WtStep env)) (putSession k (establishedSession env peer s) w) (do
      if ← deliverBufferedStreams k then
        terminateFlowControl env k
        ret false
      else ret true : WtProc Bool) := by
    refine KeepsAt.bind_keeps hR (deliverBufferedStreams_steps env
      (s := establishedSession env peer s) (IdMap.lookup_insert_self _ _ _) rfl) fun broken => ?_
    exact .ite (fun _ => .bind hR (terminateFlowControl_steps env k) fun _ => .ret hR _) fun _ =>
      .ret hR _
  unfold KeepsAt establish
  rw [modify_bind, emit_bind]
  exact hR.trans hput hrest

/-! ## Requests and responses -/

theorem registerSession_steps (hr : env.role = .server) (k : Nat)
    (headers : List Header) : Keeps (Many (WtStep env)) (registerSession k headers) := by
  refine Keeps.bind (wtSteps_composes env) (steps_aside env rfl) fun _ w => ?_
  show Many (WtStep env) w [] true
    (putSession k (((w.wtSessions.lookup k).getD .new).offer headers) w)
  cases hs : w.wtSessions.lookup k with
  | none => exact .step (.create w k hr hs (sameBuffers_offer _ headers).confined)
  | some s => exact .step (.change w k hs (sameBuffers_offer s headers).confined)

theorem deferSession_steps (k : Nat) (headers : List Header) :
    Keeps (Many (WtStep env)) (deferSession k headers) :=
  Keeps.bind (wtSteps_composes env) (steps_aside env rfl) fun _ =>
    steps_tables env fun _ => rfl

theorem handleWtConnectResponse_steps (peer : Option Settings) (k : Nat)
    (headers : List Header) :
    Keeps (Many (WtStep env)) (handleWtConnectResponse env peer k headers) := by
  have hR := wtSteps_composes env
  refine Keeps.get_bind fun w => ?_
  split
  · exact .refl w true
  cases hs : w.wtSessions.lookup k with
  | none => exact .refl w true
  | some session =>
    dsimp only
    split
    · exact .refl w false
    split
    · exact .refl w false
    split
    · exact .refl w true
    · next hstate =>
      split
      · exact KeepsAt.of_keeps (.bind hR (terminateWtSessionWith_steps env k _ _ _) fun _ =>
          .ret hR _)
      · exact KeepsAt.bind_keeps hR (establish_steps env peer hs (not_not.mp hstate)) fun _ =>
          .ret hR _

/-! ## Capsules -/

theorem handleWtCapsule_steps (k : Nat) (capsule : Capsule) :
    Keeps (Many (WtStep env)) (handleWtCapsule env k capsule) := by
  have hR := wtSteps_composes env
  have hreport : Keeps (Many (WtStep env)) (do
      let w ← get
      if (w.wtSessions.lookup k).any WtSession.flowControlEnabled then
        emit (.wt (.capsule k capsule))
      else ret () : WtProc Unit) := by
    refine Keeps.get_bind fun w => ?_
    split
    · next hfc =>
      obtain ⟨s, hs, hfc⟩ := (Option.any_eq_true _ _).mp hfc
      exact .step (.capsule w k capsule hs hfc)
    · exact .refl w true
  cases capsule with
  | closeSession code message => exact terminateWtSessionWith_steps env k _ _ _
  | drainSession =>
    refine Keeps.get_bind fun w => ?_
    cases hs : w.wtSessions.lookup k with
    | none => exact .refl w true
    | some s =>
      dsimp only
      split
      · next hstate =>
        refine .step (.drain w k hs ?_)
        simpa using hstate
      · exact .refl w true
  | maxData | maxStreams | dataBlocked | streamsBlocked => exact hreport
  | unknown =>
    exact .ite (fun _ => terminateWtSessionWith_steps env k _ _ _) fun _ => .ret hR ()

theorem processWtCapsule_steps (k : Nat) :
    Keeps (Many (WtStep env)) (processWtCapsule env k) := by
  have hR := wtSteps_composes env
  refine Keeps.get_bind fun w => ?_
  cases hs : w.wtSessions.lookup k with
  | none => exact .refl w true
  | some session =>
    dsimp only
    split
    · exact .refl w true
    split
    · exact .refl w true
    · exact .refl w false
    · refine KeepsAt.modify_bind hR
        (steps_put env hs (sameBuffers_capsuleBuf session _).confined) ?_
      refine KeepsAt.of_keeps (.bind hR (handleWtCapsule_steps env k _) fun _ => ?_)
      exact .ite (fun _ => .throw hR _) fun _ => .ret hR _

theorem processWtCapsuleData_steps (k : Nat) (data : Bytes) :
    Keeps (Many (WtStep env)) (processWtCapsuleData env k data) := by
  have hR := wtSteps_composes env
  refine Keeps.get_bind fun w => ?_
  cases hs : w.wtSessions.lookup k with
  | none => exact .refl w true
  | some session =>
    refine KeepsAt.modify_bind hR (steps_put env hs (sameBuffers_capsuleBuf session _).confined) ?_
    exact KeepsAt.of_keeps (.loop hR (processWtCapsule_steps env k) _)

theorem handleWtDataFrame_steps (peer : Option Settings) (bodyLen k : Nat)
    (data : Bytes) : Keeps (Many (WtStep env)) (handleWtDataFrame env peer bodyLen k data) := by
  have hR := wtSteps_composes env
  refine Keeps.get_bind fun w => ?_
  split
  · exact KeepsAt.of_keeps (.ite (fun _ => .throw hR _) fun _ => .ret hR _)
  cases hs : w.wtSessions.lookup k with
  | none => exact KeepsAt.of_keeps (.ite (fun _ => .throw hR _) fun _ => .ret hR _)
  | some session =>
    dsimp only
    cases hstate : session.state with
    | established | draining =>
      exact KeepsAt.of_keeps (.bind hR (processWtCapsuleData_steps env k data) fun _ =>
        .ret hR _)
    | closed => exact .refl w false
    | pending =>
      dsimp only
      split
      · exact .refl w true
      split
      · split
        · exact .refl w false
        · refine KeepsAt.modify_bind hR (steps_put env hs ?_) (.refl _ true)
          exact ⟨⟨hstate.symm, rfl⟩, fun h => ⟨h.streams, h.entries, h.datagrams⟩⟩
      · exact .refl w false

theorem handleWtStreamEnd_steps (k : Nat) :
    Keeps (Many (WtStep env)) (handleWtStreamEnd env k) := by
  refine Keeps.get_bind fun w => ?_
  split
  · exact KeepsAt.of_keeps (steps_tables env fun w => rfl)
  cases hs : w.wtSessions.lookup k with
  | none => exact .refl w true
  | some session =>
    dsimp only
    split
    · next hstate => exact abandonSession_steps env hs hstate
    split
    · exact .refl w false
    · exact terminateWtSession_steps env k w

theorem processBufferedCapsules_steps (k : Nat) :
    Keeps (Many (WtStep env)) (processBufferedCapsules env k) := by
  have hR := wtSteps_composes env
  refine Keeps.get_bind fun w => ?_
  split
  · refine KeepsAt.of_keeps (.attempt_bind hR (processWtCapsuleData_steps env k [])
      (fun _ => .ret hR _)
      (fun e => .bind hR (terminateWtSession_steps env k) fun _ => .throw hR _) fun e w => ?_)
    simp only [bind_run]
    split <;> rfl
  · exact .refl w true

theorem establishWtSessionServer_steps (peer : Option Settings) (k : Nat)
    (headers : List Header) :
    Keeps (Many (WtStep env)) (establishWtSessionServer env peer k headers) := by
  have hR := wtSteps_composes env
  refine Keeps.get_bind fun w => ?_
  split
  · exact .refl w true
  cases hs : w.wtSessions.lookup k with
  | none => exact .refl w true
  | some session =>
    dsimp only
    split
    · exact .refl w true
    · next hstate =>
      exact KeepsAt.bind_keeps hR (establish_steps env peer hs (not_not.mp hstate)) fun _ =>
        .ite (fun _ => processBufferedCapsules_steps env k) fun _ => .ret hR _

theorem rejectWtSession_steps (k : Nat) (headers : List Header) :
    Keeps (Many (WtStep env)) (rejectWtSession k headers) := by
  have hR := wtSteps_composes env
  unfold rejectWtSession
  refine .ite (fun _ => .ret hR _) fun _ => Keeps.get_bind fun w => ?_
  cases hs : w.wtSessions.lookup k with
  | none => exact .refl w true
  | some session =>
    dsimp only
    split
    · next hstate => exact abandonSession_steps env hs hstate
    · exact .refl w true

theorem drainSession_steps (id k : Nat) :
    Keeps (Many (WtStep env)) (drainSession id k) := by
  refine Keeps.get_bind fun w => ?_
  cases hs : w.wtSessions.lookup k with
  | none => exact .refl w true
  | some s =>
    dsimp only
    split
    · next hstate =>
      refine .step (.drain w k hs ?_)
      simpa using (Bool.and_eq_true_iff.mp hstate).2
    · exact .refl w true

theorem receiveDatagram_steps (goaway : Option VarInt) (k : Nat) (payload : Bytes) :
    Keeps (Many (WtStep env)) (receiveDatagram env goaway k payload) := by
  have hR := wtSteps_composes env
  refine Keeps.get_bind fun w => ?_
  cases hs : w.wtSessions.lookup k with
  | some s =>
    dsimp only
    cases hstate : s.state with
    | established => exact .step (.datagram w k payload hs (.inl hstate))
    | draining => exact .step (.datagram w k payload hs (.inr hstate))
    | pending => exact steps_put env hs (confined_bufferDatagram s payload)
    | closed => exact .refl w true
  | none =>
    dsimp only
    split
    · exact .refl w true
    split
    · exact .refl w true
    split
    · exact .refl w true
    split
    · exact .refl w true
    · next hclient _ _ =>
      have hr : env.role = .server := by
        cases h : env.role
        · exact absurd h hclient
        · rfl
      exact .step (.create w k hr hs (confined_bufferDatagram .new payload))

/-! ## Data streams -/

section Streams

variable {x : Nat}

theorem rejectStream_steps (code : WtErrorCode) :
    Keeps (Many (WtStep env)) (rejectStream x code) := steps_aside env rfl

theorem bufferStreamData_steps (b : Bool) (k : Nat) (data : Bytes) :
    Keeps (Many (WtStep env)) (bufferStreamData b x k data) := by
  have hR := wtSteps_composes env
  refine Keeps.get_bind fun w => ?_
  cases hs : w.wtSessions.lookup k with
  | none => exact .refl w true
  | some s =>
    dsimp only
    split
    · next happend =>
      exact steps_put env hs (confined_appendBufferedStreamData happend)
    · refine KeepsAt.modify_bind hR ?_ (rejectStream_steps env _ _)
      exact steps_tables_after env (steps_put env hs (confined_dropBufferedStreamEntry s x))
        (leaveStream_wtSessions b x _)

theorem receiveStreamData_steps (b : Bool) (k : Nat) (data : Bytes) :
    Keeps (Many (WtStep env)) (receiveStreamData env b x k data) := by
  have hR := wtSteps_composes env
  refine Keeps.get_bind fun w => KeepsAt.of_keeps (.ite (fun _ => ?_) fun _ => ?_)
  · exact .bind hR (terminateFlowControl_steps env k) fun _ => .ret hR _
  · refine .bind hR (steps_update env k fun s =>
      (sameBuffers_addReceivedDataAndTrack s x _).confined) ?_
    exact fun _ => .bind hR (steps_aside env (isAside_data b x data)) fun _ => .ret hR _

theorem returnCredit_steps (b : Bool) (k : Nat) :
    Keeps (Many (WtStep env)) (modify (returnCredit b x k) : WtProc Unit) :=
  steps_update env k fun s => (sameBuffers_returnCredit s b x).confined

theorem markFin_steps (k : Nat) :
    Keeps (Many (WtStep env)) (modify (markFin x k) : WtProc Unit) :=
  steps_update env k fun s => confined_markBufferedStreamFin s x

theorem leaveStream_steps (b : Bool) :
    Keeps (Many (WtStep env)) (modify (leaveStream b x) : WtProc Unit) :=
  steps_tables env (leaveStream_wtSessions b x)

theorem associateOrBufferStream_steps (goaway : Option VarInt) (k : Nat) (b : Bool) :
    Keeps (Many (WtStep env)) (associateOrBufferStream env goaway x k b) := by
  have hR := wtSteps_composes env
  refine Keeps.get_bind fun w => ?_
  cases hs : w.wtSessions.lookup k with
  | some s =>
    dsimp only
    cases hstate : s.state with
    | established =>
      refine KeepsAt.modify_bind hR (steps_put env hs ?_) (.refl _ true)
      exact SameBuffers.confined ⟨⟨rfl, rfl⟩, rfl, rfl, rfl⟩
    | pending =>
      dsimp only
      split
      · next hbuffer =>
        exact KeepsAt.modify_bind hR (steps_put env hs (confined_bufferStream hbuffer))
          (.refl _ true)
      · exact .refl w true
    | draining | closed => exact .refl w true
  | none =>
    dsimp only
    split
    · exact .refl w true
    split
    · exact .refl w true
    split
    · exact .refl w true
    split
    · exact .refl w true
    · next hclient _ _ _ =>
      have hr : env.role = .server := by
        cases h : env.role
        · exact absurd h hclient
        · rfl
      split
      · next hbuffer =>
        exact KeepsAt.modify_bind hR (.step (.create w k hr hs (confined_bufferStream hbuffer)))
          (.refl _ true)
      · have hcreate : Many (WtStep env) w [] true (putSession k .new w) :=
          .step (.create w k hr hs (SameBuffers.refl _).confined)
        exact KeepsAt.modify_bind hR hcreate (.refl _ true)

theorem associateOrBufferStream_established {goaway : Option VarInt} {k : Nat} {b : Bool}
    {w : WtState}
    (h : (associateOrBufferStream env goaway x k b w).val = .ok (some .established)) :
    ∃ s, (associateOrBufferStream env goaway x k b w).st.wtSessions.lookup k = some s ∧
      s.state = .established := by
  revert h
  unfold associateOrBufferStream
  rw [get_bind]
  cases hs : w.wtSessions.lookup k with
  | some s =>
    dsimp only
    cases hstate : s.state with
    | established => exact fun _ => ⟨_, IdMap.lookup_insert_self _ _ _, hstate⟩
    | pending =>
      cases hb : s.bufferStream x b <;> exact fun h => nomatch h
    | draining | closed => exact fun h => nomatch h
  | none =>
    dsimp only
    repeat' split
    all_goals exact fun h => nomatch h

theorem openStream_steps (goaway : Option VarInt) (b : Bool) (k : Nat)
    (payload : Bytes) : Keeps (Many (WtStep env)) (openStream env goaway b x k payload) := by
  have hR := wtSteps_composes env
  refine Keeps.bind hR (steps_tables env fun w => by simp) fun _ w => ?_
  refine KeepsAt.bind hR (associateOrBufferStream_steps env goaway k b w) fun r hr => ?_
  have hreject : ∀ code, Keeps (Many (WtStep env)) (do
      modify (leaveStream b x)
      rejectStream x code : WtProc Unit) := fun code =>
    .bind hR (leaveStream_steps env b) fun _ => rejectStream_steps env code
  match r, hr with
  | none, _ => exact hreject _ _
  | some .bufferOverflow, _ => exact hreject _ _
  | some .buffered, _ =>
    exact KeepsAt.of_keeps (.ite (fun _ => .ret hR _) fun _ => bufferStreamData_steps env b k _)
  | some .established, hr =>
    obtain ⟨s, hs, hstate⟩ := associateOrBufferStream_established env hr
    generalize (associateOrBufferStream env goaway x k b w).st = w' at hs
    refine KeepsAt.get_bind ?_
    split
    · exact KeepsAt.of_keeps (.bind hR (leaveStream_steps env b) fun _ =>
        terminateFlowControl_steps env k)
    · refine KeepsAt.modify_bind hR
        (steps_update env k (fun s => (sameBuffers_addReceivedStream s b).confined) w') ?_
      refine KeepsAt.emit_bind hR (.step (.opened _ b x k (s := s.addReceivedStream b) ?_ ?_))
        (KeepsAt.of_keeps ?_)
      · simp [hs]
      · rw [(sameBuffers_addReceivedStream s b).state, hstate]
      · exact .ite (fun _ => .ret hR _) fun _ =>
          .bind hR (receiveStreamData_steps env b k _) fun _ => .ret hR _

theorem setPending_steps (b : Bool) (buf : Bytes) :
    Keeps (Many (WtStep env)) (modify (setPending b x buf) : WtProc Unit) :=
  steps_tables env (setPending_wtSessions b x buf)

theorem dropPending_steps (b : Bool) :
    Keeps (Many (WtStep env)) (modify (dropPending b x) : WtProc Unit) :=
  steps_tables env (dropPending_wtSessions b x)

theorem keepPending_steps (b : Bool) (buf : Bytes) (c : WtState → Bool) :
    Keeps (Many (WtStep env))
      (modify fun w => if c w then setPending b x buf w else w : WtProc Unit) :=
  steps_tables env fun w => by
    split
    · exact setPending_wtSessions b x buf w
    · rfl

theorem resolveUni_steps (goaway : Option VarInt) (data : Bytes) :
    Keeps (Many (WtStep env)) (resolveWtUniStreamSessionId env goaway x data) := by
  have hR := wtSteps_composes env
  refine Keeps.get_bind fun w => ?_
  dsimp only
  split
  · exact setPending_steps env false _ w
  · refine KeepsAt.of_keeps (.ite (fun _ => ?_) fun _ => openStream_steps env _ _ _ _)
    exact .bind hR (keepPending_steps env false _ _) fun _ => .throw hR _

theorem resolveBidi_steps (goaway : Option VarInt) (data : Bytes) :
    Keeps (Many (WtStep env)) (resolveWtBidiStreamHeader env goaway x data) := by
  have hR := wtSteps_composes env
  refine Keeps.get_bind fun w => ?_
  dsimp only
  split
  · exact setPending_steps env true _ w
  · split
    · exact KeepsAt.of_keeps (.bind hR (keepPending_steps env true _ _) fun _ => .throw hR _)
    split
    · exact setPending_steps env true _ w
    · refine KeepsAt.of_keeps (.ite (fun _ => ?_) fun _ => openStream_steps env _ _ _ _)
      exact .bind hR (keepPending_steps env true _ _) fun _ => .throw hR _

theorem finish_steps (b : Bool) (k : Nat) :
    Keeps (Many (WtStep env))
      (modify fun w => returnCredit b x k (leaveStream b x w) : WtProc Unit) := fun w =>
  (leaveStream_steps env b w).trans (returnCredit_steps env b k _)

theorem ended_steps (b : Bool) :
    Keeps (Many (WtStep env)) (emit (.wt (endEvent b x)) : WtProc Unit) :=
  steps_aside env (isAside_end b x)

theorem finishBidi_steps (k : Nat) :
    Keeps (Many (WtStep env)) (finishBidi env x k) := by
  refine Keeps.bind (wtSteps_composes env) (fun w => ?_) fun _ => ended_steps env true
  rw [modify_run]
  split
  · exact .refl w true
  · exact finish_steps env true k w

theorem continueWtBidiStream_steps (k : Nat) (data : Bytes) (fin : Bool) :
    Keeps (Many (WtStep env)) (continueWtBidiStream env x k data fin) := by
  have hR := wtSteps_composes env
  have hfin : ∀ goesOn : Bool, Keeps (Many (WtStep env))
      (if goesOn && fin then finishBidi env x k else ret () : WtProc Unit) := fun _ =>
    .ite (fun _ => finishBidi_steps env k) fun _ => .ret hR _
  have hmark : Keeps (Many (WtStep env))
      (if fin then modify (markFin x k) else ret () : WtProc Unit) :=
    .ite (fun _ => markFin_steps env k) fun _ => .ret hR _
  refine Keeps.get_bind fun w => KeepsAt.of_keeps (.ite (fun _ => ?_) fun _ => ?_)
  · exact .ite (fun _ => .bind hR (.ret hR _) fun _ => hmark) fun _ =>
      .bind hR (bufferStreamData_steps env _ _ _) fun _ => hmark
  · exact .ite (fun _ => .bind hR (.ret hR _) hfin) fun _ =>
      .bind hR (receiveStreamData_steps env _ _ _) hfin

theorem finishResolved_steps : Keeps (Many (WtStep env)) (finishResolved x) := by
  have hR := wtSteps_composes env
  have hdrop : Keeps (Many (WtStep env)) (modify (dropPending true x) : WtProc Unit) :=
    dropPending_steps env true
  refine Keeps.get_bind fun w => ?_
  dsimp only
  split
  · refine KeepsAt.of_keeps (.ite (fun _ => ?_) fun _ => ?_)
    · exact .bind hR (markFin_steps env _) fun _ => hdrop
    · refine .bind hR (finish_steps env true _) fun _ => ?_
      exact .bind hR (ended_steps env true) fun _ => hdrop
  · exact KeepsAt.of_keeps (.bind hR (.ret hR _) fun _ => hdrop)

theorem handleWtBidiStream_steps (goaway : Option VarInt) (data : Bytes) (fin : Bool) :
    Keeps (Many (WtStep env)) (handleWtBidiStream env goaway x data fin) := by
  have hR := wtSteps_composes env
  refine Keeps.get_bind fun w => ?_
  split
  · exact continueWtBidiStream_steps env _ _ _ w
  · exact KeepsAt.of_keeps (.bind hR (resolveBidi_steps env _ _) fun _ =>
      .ite (fun _ => finishResolved_steps env) fun _ => .ret hR _)

theorem handleWtUniStreamData_steps (data : Bytes) :
    Keeps (Many (WtStep env)) (handleWtUniStreamData env x data) := by
  have hR := wtSteps_composes env
  refine Keeps.get_bind fun w => ?_
  split
  · exact .refl w true
  · refine KeepsAt.of_keeps (.ite (fun _ => .ret hR _) fun _ => ?_)
    refine .ite (fun _ => bufferStreamData_steps env _ _ _) fun _ => ?_
    exact .bind hR (receiveStreamData_steps env _ _ _) fun _ => .ret hR _

theorem handleWtUniStreamFin_steps :
    Keeps (Many (WtStep env)) (handleWtUniStreamFin env x) := by
  have hR := wtSteps_composes env
  refine Keeps.get_bind fun w => ?_
  cases hk : w.wtUniStreams.lookup x with
  | none => exact .refl w true
  | some k =>
    refine KeepsAt.of_keeps (.ite (fun _ => .ret hR _) fun _ => .ite (fun _ => ?_) fun _ => ?_)
    · intro w
      have hleave : Many (WtStep env) w [] true (leaveStream false x w) :=
        leaveStream_steps env false w
      have hmark : Many (WtStep env) (leaveStream false x w) [] true
          (markFin x k (leaveStream false x w)) := markFin_steps env k _
      exact steps_tables_after env (hleave.trans hmark) (enterStream_wtSessions false x k _)
    · exact .bind hR (finish_steps env false k) fun _ => ended_steps env false

theorem finishNewUni_steps : Keeps (Many (WtStep env)) (finishNewUni x) := by
  have hR := wtSteps_composes env
  have hdrop : Keeps (Many (WtStep env)) (modify (dropPending false x) : WtProc Unit) :=
    dropPending_steps env false
  refine Keeps.get_bind fun w => KeepsAt.of_keeps (.ite (fun _ => ?_) fun _ => ?_)
  · refine .bind hR (leaveStream_steps env false) fun _ => ?_
    exact .bind hR (ended_steps env false) fun _ => hdrop
  · exact .bind hR (.ret hR _) fun _ => hdrop

/-! ## Streams that wait for SETTINGS -/

theorem setDispatch_steps (buf : Bytes) :
    Keeps (Many (WtStep env)) (modify (setDispatch x buf) : WtProc Unit) :=
  steps_tables env fun _ => rfl

theorem dropDispatch_steps :
    Keeps (Many (WtStep env)) (modify (dropDispatch x) : WtProc Unit) :=
  steps_tables env fun _ => rfl

theorem ignorePreNegotiation_steps :
    Keeps (Many (WtStep env)) (ignorePreNegotiation x) :=
  Keeps.bind (wtSteps_composes env) (steps_tables env fun _ => rfl) fun _ =>
    rejectStream_steps env _

theorem bufferPreNegotiationWtBidi_steps (data : Bytes) (fin : Bool) :
    Keeps (Many (WtStep env)) (bufferPreNegotiationWtBidi x data fin) := by
  have hR := wtSteps_composes env
  unfold bufferPreNegotiationWtBidi
  refine Keeps.get_bind fun w => KeepsAt.of_keeps ?_
  refine .ite (fun _ => ignorePreNegotiation_steps env) fun _ => .ite (fun _ => ?_) fun _ => ?_
  · exact .bind hR (steps_tables env fun _ => rfl) fun _ =>
      ignorePreNegotiation_steps env
  · exact steps_tables env fun _ => rfl

end Streams

theorem releaseWaiting_steps {goaway : Option VarInt} {negotiated : Bool}
    {pending : IdMap PendingWtBidiPreNegotiation} (x : Nat) :
    Keeps (Many (WtStep env)) (releaseWaiting env goaway negotiated pending x) := by
  unfold releaseWaiting
  split
  · exact .ret (wtSteps_composes env) _
  · exact .ite (fun _ => handleWtBidiStream_steps env _ _ _) fun _ =>
      ignorePreNegotiation_steps env

theorem releasePreNegotiation_steps (goaway : Option VarInt) (negotiated : Bool) :
    Keeps (Many (WtStep env)) (releasePreNegotiation env goaway negotiated) := by
  have hR := wtSteps_composes env
  refine Keeps.get_bind fun w => KeepsAt.modify_bind hR (.step (.tables rfl)) (KeepsAt.of_keeps ?_)
  exact .each hR _ fun x _ => releaseWaiting_steps env x

/-! ## Resets -/

section Reset

variable {x : Nat}

theorem removeBuffered_steps (w : WtState) (sids : List Nat) (m : IdMap WtSession) :
    Many (WtStep env) { w with wtSessions := m } [] true
      { w with wtSessions := (removeBuffered x sids m).2 } := by
  induction sids generalizing m with
  | nil => exact .refl _ true
  | cons k sids ih =>
    unfold removeBuffered
    cases hs : m.lookup k with
    | none => exact ih m
    | some s =>
      have hremove : Many (WtStep env) { w with wtSessions := m } [] true
          { w with wtSessions := m.insert k (s.removeBufferedStream x).2 } :=
        .step (.change { w with wtSessions := m } k hs (confined_removeBufferedStream s x))
      dsimp only
      split
      · next h => simpa only [h] using hremove
      · next h =>
        rw [h] at hremove
        exact hremove.trans (ih _)

theorem accountWtStreamReset_steps (k finalSize : Nat) :
    Keeps (Many (WtStep env)) (accountWtStreamReset env k x finalSize) := by
  have hR := wtSteps_composes env
  refine Keeps.get_bind fun w => KeepsAt.ofExcept_bind hR fun headerLen _ => ?_
  cases hs : w.wtSessions.lookup k with
  | none => exact .refl w true
  | some s =>
    dsimp only
    split
    · exact KeepsAt.of_keeps (.bind hR (terminateFlowControl_steps env k) fun _ => .ret hR _)
    · refine KeepsAt.modify_bind hR (steps_put env hs ?_) (.refl _ true)
      exact ((sameBuffers_addReceivedData s _).trans (sameBuffers_onDataConsumed _ _)).confined

theorem resetDataStream_steps (k errorCode finalSize : Nat) :
    Keeps (Many (WtStep env)) (resetDataStream env k x errorCode finalSize) := by
  have hR := wtSteps_composes env
  refine Keeps.get_bind fun w => KeepsAt.of_keeps ?_
  refine .bind hR (accountWtStreamReset_steps env k finalSize) fun ended => ?_
  refine .ite (fun _ => .ret hR _) fun _ => .bind hR (fun w' => ?_) fun _ => ?_
  · refine steps_tables_after env (steps_update env k (fun s => ?_) w') rfl
    split
    · exact SameBuffers.confined ⟨⟨rfl, rfl⟩, rfl, rfl, rfl⟩
    · have h := sameBuffers_onRemoteStreamClosed s (w.wtBidiStreams.contains x)
      exact SameBuffers.confined ⟨⟨h.state, h.flowControl⟩, h.streams, h.entries, h.datagrams⟩
  · exact steps_aside env rfl

theorem handleWtStreamReset_steps (errorCode finalSize : Nat) :
    Keeps (Many (WtStep env)) (handleWtStreamReset env x errorCode finalSize) := by
  have hR := wtSteps_composes env
  refine Keeps.get_bind fun w => ?_
  split
  · exact KeepsAt.of_keeps (.bind hR (terminateWtSession_steps env x) fun _ => .ret hR _)
  split
  · exact .refl w true
  split
  · exact KeepsAt.of_keeps (.bind hR (steps_tables env fun _ => rfl) fun _ => .ret hR _)
  split
  · exact KeepsAt.of_keeps (.bind hR (steps_tables env fun _ => rfl) fun _ => .ret hR _)
  split
  · exact .refl w true
  have hremoved := removeBuffered_steps env (x := x) w
    (env.order.walk .wtSessions w.wtSessions.keys) w.wtSessions
  split
  · next h =>
    rw [h] at hremoved
    exact KeepsAt.modify_bind hR hremoved (.refl _ true)
  · next h =>
    rw [h] at hremoved
    refine KeepsAt.modify_bind hR hremoved (KeepsAt.of_keeps ?_)
    split
    · exact .ret hR _
    · exact .ite (fun _ => .ret hR _) fun _ =>
        .bind hR (resetDataStream_steps env _ _ _) fun _ => .ret hR _

theorem handleWtStopSending_steps (errorCode : Nat) :
    Keeps (Many (WtStep env)) (handleWtStopSending env x errorCode) := by
  have hR := wtSteps_composes env
  refine Keeps.get_bind fun w => ?_
  split
  · exact KeepsAt.of_keeps (.bind hR (terminateWtSession_steps env x) fun _ => .ret hR _)
  split
  · exact .refl w true
  split
  · exact .refl w true
  split
  · exact KeepsAt.of_keeps (.bind hR (steps_aside env rfl) fun _ => .ret hR _)
  · exact .refl w true

theorem registerLocal_steps {w : WtState} {k : Nat} {s : WtSession} (b : Bool)
    (hs : w.wtSessions.lookup k = some s) :
    KeepsAt (Many (WtStep env)) w
      (modify fun w => enterStream b x k (putSession k (s.associateStream x) w) : WtProc Unit) :=
  steps_tables_after env (steps_put env hs (t := s.associateStream x)
    (SameBuffers.confined ⟨⟨rfl, rfl⟩, rfl, rfl, rfl⟩))
    (enterStream_wtSessions b x k _)

end Reset

/-! ## Calls of the application -/

theorem wtDataConsumed_steps (k bytes : Nat) :
    Keeps (Many (WtStep env)) (modify (wtDataConsumed k bytes) : WtProc Unit) :=
  steps_update env k fun s => (sameBuffers_onDataConsumed s bytes).confined

theorem takeWtPendingCapsules_steps (k : Nat) :
    Keeps (Many (WtStep env)) (takeWtPendingCapsules k) := by
  refine Keeps.get_bind fun w => ?_
  cases hs : w.wtSessions.lookup k with
  | none => exact .refl w true
  | some s =>
    refine KeepsAt.modify_bind (wtSteps_composes env) (steps_put env hs ?_) (.refl _ true)
    exact SameBuffers.confined ⟨⟨rfl, rfl⟩, rfl, rfl, rfl⟩

theorem setWebtransportTransportVerified_steps (datagrams resetStreamAt : Bool) :
    Keeps (Many (WtStep env)) (setWebtransportTransportVerified datagrams resetStreamAt) := by
  exact Keeps.ite (fun _ => steps_tables env fun _ => rfl) fun _ =>
    .throw (wtSteps_composes env) _

end Steps

/-! ## Calls -/

/-- The tables change by steps; no id of a request is used up. -/
def Traced (env : Env) : Flow Obs Core := fun c o b d =>
  Many (WtStep env) c.wt o b d.wt ∧ d.nextStreamId = c.nextStreamId

section Calls

variable (env : Env)

theorem traced_composes : Composes (Traced env) where
  refl _ b := ⟨.refl _ b, rfl⟩
  trans h h' := ⟨h.1.trans h'.1, h'.2.trans h.2⟩

theorem traced_onWt {α : Type} {c : Core} {x : WtProc α}
    (h : KeepsAt (Many (WtStep env)) c.wt x) : KeepsAt (Traced env) c (onWt x) := ⟨h, rfl⟩

/-- Something else than the tables changes. -/
theorem traced_same {c d : Core} {o : List Obs} {b : Bool} (hwt : d.wt = c.wt)
    (hnext : d.nextStreamId = c.nextStreamId) (ho : ∀ w ∈ o, w.isAside = true) :
    Traced env c o b d := by
  refine ⟨?_, hnext⟩
  rw [hwt]
  exact steps_emitAll env fun w hw => .aside c.wt w (ho w hw)

theorem isAside_of_isPlain {w : Obs} (h : w.isPlain = true) : w.isAside = true := by
  cases w with
  | event e => cases e <;> first | rfl | cases h
  | _ => cases h

theorem isAside_of_isReport {w : Obs} (h : w.isReport = true) : w.isAside = true := by
  cases w with
  | event e => cases e <;> first | rfl | cases h
  | sessionEnded => cases h
  | _ => rfl

theorem registerWtConnectSession_traced (k : Nat) (headers : List Header) :
    Keeps (Traced env) (registerWtConnectSession env k headers) := by
  have hR := traced_composes env
  unfold registerWtConnectSession
  by_cases hr : env.role = .server
  · refine .ite (fun _ => .ret hR _) fun _ => .bind hR (fun c => ?_) fun _ => ?_
    · exact traced_onWt env (registerSession_steps env hr k headers c.wt)
    · exact fun c => traced_same env rfl rfl (by simp)
  · rw [if_pos (by simp [hr])]
    exact .ret hR _

theorem processDeferredWtConnects_traced :
    Keeps (Traced env) (processDeferredWtConnects env) := by
  have hR := traced_composes env
  have hreport : ∀ k headers,
      Keeps (Traced env) (emitAll (headerEvents k headers) : CoreProc Unit) := fun k headers c =>
    traced_same env rfl rfl fun w hw => isAside_of_isReport (isReport_of_mem_headerEvents hw)
  have hone : ∀ k headers, Keeps (Traced env) (processDeferredWtConnect env k headers) := by
    intro k headers
    refine Keeps.get_bind fun c => KeepsAt.ofExcept_bind hR fun _ _ => KeepsAt.of_keeps ?_
    refine .bind hR (registerWtConnectSession_traced env k headers) fun _ => ?_
    split
    · refine .bind hR (fun c => traced_onWt env ?_) fun _ => hreport k headers
      exact steps_update env k (fun s => (sameBuffers_capsuleBuf s _).confined) c.wt
    · exact .bind hR (.ret hR _) fun _ => hreport k headers
  refine Keeps.get_bind fun c => ?_
  refine KeepsAt.bind_keeps hR (traced_onWt env ?_) fun _ => .each hR _ fun k _ => hone k _
  exact .step (.tables rfl)

theorem processData_traced (k bodyLen : Nat) (data : Bytes) :
    Keeps (Traced env) (processData env k bodyLen data) := by
  have hR := traced_composes env
  refine .bind hR (fun c => traced_same env rfl rfl (by simp [Obs.isAside])) fun _ =>
    Keeps.get_bind fun c => KeepsAt.bind_keeps hR
      (traced_onWt env (handleWtDataFrame_steps env _ _ _ _ _)) fun taken => ?_
  exact .ite (fun _ => .ret hR _) fun _ c => traced_same env rfl rfl (by simp [Obs.isAside])

theorem side_traced {c d : Core} {o : List Obs} {b : Bool} (h : Side env c o b d) :
    Traced env c o b d := by
  cases h with
  | plain h ho =>
    exact traced_same env h.wt h.nextStreamId fun w hw => isAside_of_isPlain (ho w hw)
  | deferred => exact processDeferredWtConnects_traced env c
  | wt _ x h =>
    refine traced_onWt env ?_
    cases h with
    | releasePreNegotiation => exact releasePreNegotiation_steps env _ _ _
    | drainSession => exact drainSession_steps env _ _ _
    | resolveUni => exact resolveUni_steps env _ _ _
    | uniData => exact handleWtUniStreamData_steps env _ _
    | uniFin => exact handleWtUniStreamFin_steps env _
    | dropPendingUni => exact dropPending_steps env _ _
    | finishNewUni => exact finishNewUni_steps env _
    | receiveDatagram => exact receiveDatagram_steps env _ _ _ _

theorem move_traced {c d : Core} {o : List Obs} {b : Bool} (h : Move env c o b d) :
    Traced env c o b d := by
  cases h with
  | side h => exact side_traced env h
  | «open» =>
    refine traced_same env ?_ ?_ (by simp)
    all_goals rw [ensureStream_eq]
  | drop =>
    refine traced_same env ?_ ?_ (by simp)
    all_goals rw [removeStreamIfDone_eq]
  | touch | blocked => exact traced_same env rfl rfl (by simp)
  | report _ _ ho => exact traced_same env rfl rfl fun w hw => isAside_of_isReport (ho w hw)
  | wt _ x h =>
    refine traced_onWt env ?_
    cases h with
    | registerSession k headers hr => exact registerSession_steps env hr _ _ _
    | deferSession => exact deferSession_steps env _ _ _
    | connectResponse => exact handleWtConnectResponse_steps env _ _ _ _
    | streamEnd => exact handleWtStreamEnd_steps env _ _
  | data => exact processData_traced env _ _ _ c

theorem feedMove_traced {c d : Core} {o : List Obs} {b : Bool} (h : FeedMove env c o b d) :
    Traced env c o b d := by
  cases h with
  | move h => exact move_traced env h
  | wt _ x h =>
    refine traced_onWt env ?_
    cases h with
    | wtBidi => exact handleWtBidiStream_steps env _ _ _ _
    | bufferPre => exact bufferPreNegotiationWtBidi_steps env _ _ _
    | ignorePre => exact ignorePreNegotiation_steps env _
    | setDispatch => exact setDispatch_steps env _ _
    | dropDispatch => exact dropDispatch_steps env _

theorem callMove_traced {q : Nat → Prop} {c d : Core} {o : List Obs} {b : Bool}
    (h : CallMove env q c o b d) : Traced env c o b d := by
  cases h with
  | move h => exact move_traced env h
  | send | bodyLimit => exact traced_same env rfl rfl (by simp)
  | unblock =>
    unfold clearQpackBlocked
    split <;> exact traced_same env rfl rfl (by simp)
  | wt _ x h =>
    refine traced_onWt env ?_
    cases h with
    | terminate => exact terminateWtSession_steps env _ _
    | reject => exact rejectWtSession_steps env _ _ _
    | establish => exact establishWtSessionServer_steps env _ _ _ _
    | streamReset => exact handleWtStreamReset_steps env _ _ _
    | stopSending => exact handleWtStopSending_steps env _ _
    | dropDispatch => exact dropDispatch_steps env _
    | registerLocal x k s hs => exact registerLocal_steps env _ hs
    | dataConsumed => exact wtDataConsumed_steps env _ _ _
    | takeCapsules => exact takeWtPendingCapsules_steps env _ _
    | previousSettings => exact .step (.tables rfl)
    | transportVerified => exact setWebtransportTransportVerified_steps env _ _ _

/-- Every call but a request works on the tables in steps. -/
theorem body_traced (call : Call) (h : ∀ headers fin, call ≠ .sendRequest headers fin) :
    Keeps (Traced env) (body env call) := by
  have hR := traced_composes env
  have hordinary : isOrdinary call = true → Keeps (Traced env) (body env call) :=
    fun hcall => (body_moves env call hcall).mono fun _ _ _ _ =>
      Many.lift hR fun _ _ _ _ => callMove_traced env
  cases call with
  | feedStream x data fin =>
    refine .bind hR ((feedStreamInner_moves env x data fin).mono fun _ _ _ _ => ?_) fun _ =>
      .ret hR _
    exact Many.lift hR fun _ _ _ _ => feedMove_traced env
  | sendRequest headers fin => exact absurd rfl (h headers fin)
  | _ => exact hordinary rfl

end Calls

end Connection

end Http3
