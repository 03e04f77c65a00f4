import Http3.WebTransport.Sendable
import Http3.Connection.SessionRules
import Http3.Connection.Runs

/-!
# Capsules that a connection queues

A connection queues capsules when a session is established, when a stream of the peer ends and
when data was consumed. Stream limits are capped there and the limit for data is not: it is the
sum of what was consumed and the initial window.
-/

namespace Http3

open WebTransport

namespace WtSession

variable {s t : WtSession}

/-- What waits to be sent is legal. -/
def CapsulesLegal (s : WtSession) : Prop := ∀ c ∈ s.pendingCapsules, c.Legal

/-- Consuming as many bytes announces a window that is in range, if any. -/
def consumptionFits (s : WtSession) (bytes : Nat) : Bool :=
  !s.flowControlEnabled || s.recvDataFc.all fun fc => decide (fc.Fits bytes)

theorem CapsulesLegal.of_eq (hs : s.CapsulesLegal) (h : t.pendingCapsules = s.pendingCapsules) :
    t.CapsulesLegal := by
  unfold CapsulesLegal
  rw [h]
  exact hs

theorem CapsulesLegal.append (hs : s.CapsulesLegal) (queued : List Capsule)
    (h : t.pendingCapsules = s.pendingCapsules ++ queued) (hq : ∀ c ∈ queued, c.Legal) :
    t.CapsulesLegal := by
  intro c hc
  rw [h, List.mem_append] at hc
  exact hc.elim (hs c) (hq c)

theorem setRecvStreamFc_pendingCapsules (b : Bool) (fc : DirectionalStreamFlowControl) :
    (s.setRecvStreamFc b fc).pendingCapsules = s.pendingCapsules := by
  unfold setRecvStreamFc
  split <;> rfl

theorem addReceivedStream_legal (hs : s.CapsulesLegal) (b : Bool) :
    (s.addReceivedStream b).CapsulesLegal := by
  refine hs.of_eq ?_
  unfold addReceivedStream
  split
  · exact setRecvStreamFc_pendingCapsules b _
  · rfl

theorem addReceivedData_legal (hs : s.CapsulesLegal) (bytes : Nat) :
    (s.addReceivedData bytes).CapsulesLegal := by
  refine hs.of_eq ?_
  unfold addReceivedData
  split <;> rfl

theorem onRemoteStreamClosed_legal (hs : s.CapsulesLegal) (b : Bool) :
    (s.onRemoteStreamClosed b).CapsulesLegal := by
  unfold onRemoteStreamClosed
  split
  · split
    · rename_i fc _
      split
      · rename_i newMax fc' hclosed
        refine hs.append [.maxStreams b newMax]
          (congrArg (· ++ _) (setRecvStreamFc_pendingCapsules b fc')) ?_
        rw [Session.forall_legal_singleton]
        exact DirectionalStreamFlowControl.onStreamClosed_legal (congrArg Prod.fst hclosed)
      · exact hs.of_eq (setRecvStreamFc_pendingCapsules b _)
    · exact hs
  · exact hs

theorem onDataConsumed_legal (hs : s.CapsulesLegal) {bytes : Nat}
    (h : s.consumptionFits bytes = true) : (s.onDataConsumed bytes).CapsulesLegal := by
  unfold onDataConsumed
  split
  · rename_i henabled
    split
    · rename_i fc hfc
      have hfits : fc.Fits bytes := by simpa [consumptionFits, henabled, hfc] using h
      have hlegal := (fc.onDataConsumed_legal_iff bytes).mpr hfits
      split
      · rename_i newMax fc' hconsumed
        refine hs.append [.maxData newMax] rfl ?_
        rw [Session.forall_legal_singleton]
        exact hlegal newMax (congrArg Prod.fst hconsumed)
      · exact hs.of_eq rfl
    · exact hs
  · exact hs

theorem consumptionFits_congr (h : SameCredit s t) (bytes : Nat) :
    t.consumptionFits bytes = s.consumptionFits bytes := by
  unfold consumptionFits
  rw [h.flowControlEnabled, h.recvDataFc]

end WtSession

namespace Connection

open Proc WtSession

/-- The windows for streams that an endpoint is configured with. -/
def StreamWindowsFit (cfg : Config) : Prop :=
  ∀ wt, cfg.localSettings.wtSettings = some wt →
    wt.wtInitialMaxStreamsBidi.get ≤ MAX_STREAMS_LIMIT ∧
      wt.wtInitialMaxStreamsUni.get ≤ MAX_STREAMS_LIMIT

section Session

variable {env : Env}

theorem initialCapsules_legal {wt : WtSettings}
    (h : wt.wtInitialMaxStreamsBidi.get ≤ MAX_STREAMS_LIMIT ∧
      wt.wtInitialMaxStreamsUni.get ≤ MAX_STREAMS_LIMIT) :
    ∀ c ∈ WtSession.initialCapsules wt, c.Legal := by
  intro c hc
  simp only [WtSession.initialCapsules, List.mem_filterMap, List.mem_cons, List.not_mem_nil,
    or_false] at hc
  obtain ⟨e, he, hsome⟩ := hc
  rw [Option.ite_none_right_eq_some] at hsome
  obtain ⟨-, hsome⟩ := hsome
  cases hsome
  obtain rfl | rfl | rfl := he
  · exact h.1
  · exact h.2
  · exact wt.wtInitialMaxData.le_max

theorem establishedSession_legal (h : StreamWindowsFit env.toConfig) (peer : Option Settings)
    {s : WtSession} (hs : s.CapsulesLegal) : (establishedSession env peer s).CapsulesLegal := by
  unfold establishedSession
  dsimp only
  cases hwt : env.localSettings.wtSettings with
  | none => exact hs.of_eq rfl
  | some wt =>
    dsimp only
    unfold initializeFlowControl
    dsimp only
    split
    · split
      · exact hs.append _ rfl (initialCapsules_legal (h wt hwt))
      · exact hs.of_eq rfl
    · exact hs.of_eq rfl

/-- The operations of a session keep its capsules legal. -/
theorem capsulesLegal_inherited (h : StreamWindowsFit env.toConfig) :
    Inherited env CapsulesLegal where
  new := nofun
  same hsame hs := hs.of_eq hsame.pendingCapsules
  establishes peer _ hs := establishedSession_legal h peer hs
  opens b _ hs := addReceivedStream_legal hs b
  receives _ n _ hs := (addReceivedData_legal hs n).of_eq rfl
  finishes b hs := onRemoteStreamClosed_legal hs b
  forgets _ hs := hs.of_eq rfl
  hands _ := nofun

end Session

/-! ## One call -/

/-- The data that a RESET_STREAM accounts for fits the next window, if flow control admits it. -/
def resetFits (env : Env) (w : WtState) (streamId finalSize : Nat) : Bool :=
  (sessionOf w streamId).all fun sessionId => (w.wtSessions.lookup sessionId).all fun s =>
    let bytes := resetResidual env w streamId finalSize s
    !s.checkReceivedData bytes || (s.addReceivedData bytes).consumptionFits bytes

/-- What is consumed fits the next window. -/
def consumptionFits (cfg : Config) (c : Connection) (i : Input) : Bool :=
  match i.call with
  | .wtDataConsumed sessionId bytes =>
    (c.core.wt.wtSessions.lookup sessionId).all fun s => s.consumptionFits bytes
  | .streamReset streamId _ finalSize =>
    resetFits (cfg.env i.order) c.core.wt streamId finalSize
  | _ => true

section Calls

variable {env : Env} {w : WtState} {streamId finalSize : Nat}

/-- The flow control of a session that only lost a buffered stream is the same. -/
theorem admitsReset_of_fits (h : resetFits env w streamId finalSize = true) {sessionId : Nat}
    (hof : sessionOf w streamId = some sessionId) {sessions : IdMap WtSession}
    (hsame : ∀ k t, sessions.lookup k = some t →
      ∃ s, w.wtSessions.lookup k = some s ∧ SameCredit s t) :
    AdmitsReset env CapsulesLegal { w with wtSessions := sessions } sessionId streamId
      finalSize := by
  intro t ht hcheck hlegal
  obtain ⟨s, hs, hst⟩ := hsame sessionId t ht
  have hres : resetResidual env { w with wtSessions := sessions } streamId finalSize t =
      resetResidual env w streamId finalSize s := by
    unfold resetResidual getStreamReceivedData
    rw [hst.streamReceivedData]
    rfl
  rw [hres] at hcheck ⊢
  refine onDataConsumed_legal (addReceivedData_legal hlegal _) ?_
  have hcheck' : s.checkReceivedData (resetResidual env w streamId finalSize s) = true := by
    unfold checkReceivedData at hcheck ⊢
    rwa [hst.flowControlEnabled, hst.recvDataFc] at hcheck
  have hadd : ∀ n, SameCredit (s.addReceivedData n) (t.addReceivedData n) := by
    intro n
    unfold addReceivedData
    rw [hst.recvDataFc]
    cases s.recvDataFc with
    | none => exact hst
    | some fc => exact ⟨hst.1, hst.2, hst.3, rfl, hst.5, hst.6⟩
  rw [consumptionFits_congr (hadd _)]
  simpa [resetFits, hof, hs, hcheck'] using h

theorem body_legal {cfg : Config} (hcfg : StreamWindowsFit cfg) {c : Connection} {i : Input}
    (hi : consumptionFits cfg c i = true) :
    KeepsAt (SessionFlow CapsulesLegal) c.core (body (cfg.env i.order) i.call) := by
  have hR := sessionFlow_composes CapsulesLegal
  have hP : Inherited (cfg.env i.order) CapsulesLegal := capsulesLegal_inherited hcfg
  unfold consumptionFits at hi
  cases hcall : i.call with
  | wtDataConsumed sessionId bytes =>
    rw [hcall] at hi
    refine KeepsAt.bind_keeps hR ?_ fun _ => .ret hR _
    intro hc k t ht
    change (c.core.wt.wtSessions.update sessionId fun s => s.onDataConsumed bytes).lookup k = some t
      at ht
    rw [IdMap.lookup_update_eq] at ht
    split at ht
    · rename_i hk
      subst hk
      obtain ⟨s, hs, rfl⟩ := Option.map_eq_some_iff.mp ht
      exact onDataConsumed_legal (hc _ s hs) (by simpa [hs] using hi)
    · exact hc _ _ ht
  | streamReset streamId errorCode finalSize =>
    rw [hcall] at hi
    refine KeepsAt.bind_keeps hR (streamResetInner_flow fun w hw huni hbidi hall => ?_)
      fun _ => .ret hR _
    refine handleWtStreamReset_keeps hP errorCode hall fun sessionId hof sessions hsame => ?_
    refine admitsReset_of_fits (w := w) ?_ hof hsame
    have hlen : resetResidual (cfg.env i.order) w streamId finalSize =
        resetResidual (cfg.env i.order) c.core.wt streamId finalSize := by
      unfold resetResidual resetHeaderLen wtStreamHeaderLen
      rw [huni, hbidi]
    unfold resetFits sessionOf
    rw [hw, huni, hbidi, hlen]
    exact hi
  | _ => exact body_flow hP _ rfl c.core

end Calls

/-! ## Runs -/

theorem feed_legal {cfg : Config} (hcfg : StreamWindowsFit cfg) {c : Connection} {i : Input}
    (hc : AllSessions CapsulesLegal c.core.wt) (hi : consumptionFits cfg c i = true) :
    AllSessions CapsulesLegal (c.feed cfg i).conn.core.wt :=
  step_stays (sessionFlow_composes CapsulesLegal) (body_legal hcfg hi) hc

theorem new_wt {cfg : Config} {c : Connection} (h : Connection.new cfg = .ok c) :
    c.core.wt = .new := by
  simp only [Connection.new, Core.new, bind, Except.bind, pure, Except.pure] at h
  cases hsend : ControlStreamSend.new.sendSettings cfg.localSettings with
  | error e =>
    rw [hsend] at h
    cases h
  | ok control =>
    rw [hsend] at h
    cases h
    rfl

/-- In a run that consumes no more than the windows have room for, all capsules that wait are
legal. -/
theorem after_legal {cfg : Config} (hcfg : StreamWindowsFit cfg) {c : Connection} {is : List Input}
    (hnew : Connection.new cfg = .ok c)
    (h : EveryStep cfg (fun c i => consumptionFits cfg c i = true) c is) :
    AllSessions CapsulesLegal (after cfg c is).core.wt := by
  refine EveryStep.inv (I := fun c => AllSessions CapsulesLegal c.core.wt)
    (fun c i hc hi => feed_legal hcfg hc hi) ?_ h
  rw [new_wt hnew]
  exact IdMap.All.empty

/-- A session is established, a stream of the peer brings bytes, and they are consumed. -/
def consumingCalls : List Call :=
  Sample.serverSetup ++ [.feedStream 0 (Sample.headersBytes Sample.webTransportHeaders) false,
    .sendResponse 0 Sample.okHeaders false, .feedStream 6 ([0x40, 0x54, 0x00] ++ [1, 2, 3]) true,
    .wtDataConsumed 0 600]

/-- A server with the largest window that SETTINGS can carry. -/
def widestServer : Config :=
  ⟨.server, { Sample.settings with
    wtSettings := some { Sample.wtSettings with wtInitialMaxData := .max } }⟩

/-- The peer resets a stream at the largest final size. -/
def resetCalls : List Call :=
  Sample.serverSetup ++ [.feedStream 0 (Sample.headersBytes Sample.webTransportHeaders) false,
    .sendResponse 0 Sample.okHeaders false, .feedStream 6 [0x40, 0x54, 0x00] false,
    .streamReset 6 0 (2 ^ 62 - 1)]

end Connection

end Http3
