import Http3.Connection.Api
import Http3.Connection.Moves

/-!
# The moves of the other calls

`CallMove` adds to the moves of the receive side what the application and resets do. Every call
is a sequence of such moves, but for two that the results about runs look into themselves: bytes
of a stream, which may still have to be classified, and a request, which uses up an id.
-/

namespace Http3.Connection

open Proc

/-- Sending leaves the receive side alone, but for the state after FIN or a reset. -/
@[mk_iff]
structure SendOnly (s t : RequestStream) : Prop where
  streamId : t.streamId = s.streamId
  recvBuf : t.recvBuf = s.recvBuf
  recvState : t.recvState = s.recvState
  recvHeaders : t.recvHeaders = s.recvHeaders
  recvBody : t.recvBody = s.recvBody
  isConnect : t.isConnect = s.isConnect
  isWtConnect : t.isWtConnect = s.isWtConnect
  qpackBlocked : t.qpackBlocked = s.qpackBlocked
  qpackRicnt : t.qpackRicnt = s.qpackRicnt
  qpackBlockedHeader : t.qpackBlockedHeader = s.qpackBlockedHeader

attribute [grind =] sendOnly_iff

/-- What the application and resets do to sessions. -/
inductive WtOuter (env : Env) (w : WtState) : {α : Type} → WtProc α → Prop
  | terminate (sessionId : Nat) : WtOuter env w (terminateWtSession env sessionId)
  | reject (sessionId : Nat) (headers : List Header) :
      WtOuter env w (rejectWtSession sessionId headers)
  | establish (peer : Option Settings) (sessionId : Nat) (headers : List Header) :
      WtOuter env w (establishWtSessionServer env peer sessionId headers)
  | streamReset (streamId errorCode finalSize : Nat) :
      WtOuter env w (handleWtStreamReset env streamId errorCode finalSize)
  | stopSending (streamId errorCode : Nat) :
      WtOuter env w (handleWtStopSending env streamId errorCode)
  | dropDispatch (streamId : Nat) : WtOuter env w (modify (dropDispatch streamId))
  | registerLocal (streamId sessionId : Nat) (session : WtSession)
      (hs : w.wtSessions.lookup sessionId = some session)
      (hstate : session.state = .established)
      (hlocal : isLocalInitiatedBidi env.role (.fromStreamId streamId) = true ∨
        isLocalInitiatedUni env.role (.fromStreamId streamId) = true)
      (hbidi : w.wtBidiStreams.contains streamId = false)
      (huni : w.wtUniStreams.contains streamId = false) :
      WtOuter env w (modify fun w =>
        enterStream (isLocalInitiatedBidi env.role (.fromStreamId streamId)) streamId sessionId
          (putSession sessionId (session.associateStream streamId) w))
  | dataConsumed (sessionId bytes : Nat) : WtOuter env w (modify (wtDataConsumed sessionId bytes))
  | takeCapsules (sessionId : Nat) : WtOuter env w (takeWtPendingCapsules sessionId)
  | previousSettings (settings : WtSettings) :
      WtOuter env w (modify fun w => { w with previousWtSettings := some settings })
  | transportVerified (datagrams resetStreamAt : Bool) :
      WtOuter env w (setWebtransportTransportVerified datagrams resetStreamAt)

attribute [grind ←] WtOuter.terminate WtOuter.reject WtOuter.establish WtOuter.streamReset
  WtOuter.stopSending WtOuter.dropDispatch WtOuter.dataConsumed WtOuter.takeCapsules
  WtOuter.transportVerified

/-- The moves of a call that sends on the streams in `p` only. -/
inductive CallMove (env : Env) (p : Nat → Prop) : Flow Obs Core
  | move {c d : Core} {o : List Obs} {b : Bool} (h : Move env c o b d) : CallMove env p c o b d
  | send {c : Core} {streamId : Nat} {s t : RequestStream} (hp : p streamId)
      (hs : c.streams.lookup streamId = some s) (h : SendOnly s t) (b : Bool) :
      CallMove env p c [] b (putStream streamId t c)
  | unblock (c : Core) (streamId : Nat) (b : Bool) :
      CallMove env p c [] b (clearQpackBlocked streamId c)
  | bodyLimit (c : Core) (size : Nat) (b : Bool) :
      CallMove env p c [] b (setMaxReceivedBodySize size c)
  | wt {α : Type} (c : Core) (x : WtProc α) (h : WtOuter env c.wt x) :
      CallMove env p c (onWt x c).out (succeeded (onWt x c).val) (onWt x c).st

section CallMove

variable (env : Env) (p : Nat → Prop)

@[grind .] theorem callMove_composes : Composes (Many (CallMove env p)) := Many.composes _

theorem Move.many_call {c d : Core} {o : List Obs} {b : Bool} (h : Many (Move env) c o b d) :
    Many (CallMove env p) c o b d :=
  Many.lift (callMove_composes env p) (fun _ _ _ _ h => .step (.move h)) h

theorem Move.keeps_call {α : Type} {x : CoreProc α} (h : Keeps (Many (Move env)) x) :
    Keeps (Many (CallMove env p)) x := h.mono fun _ _ _ _ => Move.many_call env p

@[grind ←] theorem CallMove.many_plain {c d : Core} {o : List Obs} {b : Bool} (h : Plain c d)
    (ho : ∀ w ∈ o, w.isPlain = true) : Many (CallMove env p) c o b d :=
  .step (.move (.side (.plain h ho)))

@[grind ←] theorem CallMove.many_drop (c : Core) (streamId : Nat) (b : Bool) :
    Many (CallMove env p) c [] b (removeStreamIfDone streamId c) :=
  .step (.move (.drop c streamId b))

@[grind ←] theorem CallMove.many_report {w : Obs} (h : w.isReport = true) :
    Keeps (Many (CallMove env p)) (emit w : CoreProc Unit) :=
  fun c => .step (.move (.report c [w] (by simpa using h) true))

theorem CallMove.many_put {c : Core} {streamId : Nat} {s t : RequestStream} (hp : p streamId)
    (hs : c.streams.lookup streamId = some s) (h : SendOnly s t) (b : Bool) :
    Many (CallMove env p) c [] b (putStream streamId t c) := .step (.send hp hs h b)

@[grind ←] theorem CallMove.many_send (c : Core) {streamId : Nat} (hp : p streamId)
    {f : RequestStream → RequestStream} (h : ∀ s, SendOnly s (f s)) (b : Bool) :
    Many (CallMove env p) c [] b (modifyStream streamId f c) := by
  cases hs : c.streams.lookup streamId with
  | none =>
    have hsame : modifyStream streamId f c = c := by
      simp only [modifyStream, IdMap.update, hs]
    rw [hsame]
    exact .refl c b
  | some s =>
    have hput : modifyStream streamId f c = putStream streamId (f s) c := by
      simp only [modifyStream, putStream, IdMap.update, hs]
    rw [hput]
    exact CallMove.many_put env p hp hs (h s) b

@[grind ←] theorem CallMove.many_unblock (c : Core) (streamId : Nat) (b : Bool) :
    Many (CallMove env p) c [] b (clearQpackBlocked streamId c) := .step (.unblock c streamId b)

@[grind ←] theorem CallMove.many_wt {α : Type} {x : WtProc α} (h : ∀ w, WtOuter env w x) :
    Keeps (Many (CallMove env p)) (onWt x) := fun c => .step (.wt c x (h c.wt))

@[grind ←] theorem CallMove.at_wt {α : Type} {c : Core} {x : WtProc α} (h : WtOuter env c.wt x) :
    KeepsAt (Many (CallMove env p)) c (onWt x) := .step (.wt c x h)

/-! ## Calls -/

@[grind →] theorem sendEncodedHeaders_sendOnly {s t : RequestStream} {encoded : Bytes}
    {fin isInterim : Bool} (h : s.sendEncodedHeaders encoded fin isInterim = .ok t) :
    SendOnly s t := by
  cases hcheck : s.checkSendHeaders fin isInterim with
  | error e => simp [RequestStream.sendEncodedHeaders, hcheck, bind, Except.bind] at h
  | ok u =>
    cases hframe : encodeFrame (.headers encoded) with
    | none => simp [RequestStream.sendEncodedHeaders, hcheck, hframe, bind, Except.bind] at h
    | some frame =>
      simp only [RequestStream.sendEncodedHeaders, hcheck, hframe, bind, Except.bind,
        Except.ok.injEq] at h
      cases fin <;> subst h <;> exact ⟨rfl, rfl, rfl, rfl, rfl, rfl, rfl, rfl, rfl, rfl⟩

@[grind →] theorem sendBody_sendOnly {s t : RequestStream} {data : Bytes} {fin : Bool}
    (h : s.sendBody data fin = .ok t) : SendOnly s t := by
  cases hcheck : s.checkSendBody with
  | error e => simp [RequestStream.sendBody, hcheck, bind, Except.bind] at h
  | ok u =>
    have hpush : ∀ u, s.pushBody data = .ok u → SendOnly s u := by
      intro u hu
      unfold RequestStream.pushBody at hu
      split at hu
      · cases hu
        exact ⟨rfl, rfl, rfl, rfl, rfl, rfl, rfl, rfl, rfl, rfl⟩
      · split at hu <;> cases hu
        exact ⟨rfl, rfl, rfl, rfl, rfl, rfl, rfl, rfl, rfl, rfl⟩
    cases hp : s.pushBody data with
    | error e => simp [RequestStream.sendBody, hcheck, hp, bind, Except.bind] at h
    | ok u =>
      simp only [RequestStream.sendBody, hcheck, hp, bind, Except.bind, Except.ok.injEq] at h
      obtain ⟨h₁, h₂, h₃, h₄, h₅, h₆, h₇, h₈, h₉, h₁₀⟩ := hpush u hp
      cases fin <;> subst h <;> exact ⟨h₁, h₂, h₃, h₄, h₅, h₆, h₇, h₈, h₉, h₁₀⟩

@[grind →] theorem consumeSendData_sendOnly {s t : RequestStream} {len : Nat}
    (h : s.consumeSendData len = some t) : SendOnly s t := by
  obtain ⟨sendBuf, -, rfl⟩ := Option.map_eq_some_iff.mp h
  exact ⟨rfl, rfl, rfl, rfl, rfl, rfl, rfl, rfl, rfl, rfl⟩

theorem encodeTries_table (headers : List Header) (blockedCount tries bufSize : Nat)
    (e : Qpack.DynamicEncoder) :
    (encodeTries headers blockedCount tries bufSize e).2.table = e.table := by
  induction tries generalizing bufSize e with
  | zero => rfl
  | succ tries ih =>
    have henc := e.encode_table bufSize headers blockedCount
    unfold encodeTries
    split <;> rename_i e' heq <;> rw [heq] at henc
    · exact henc
    · split
      · exact (ih _ _).trans henc
      · exact henc

theorem isUnidirectional_of_validate {streamId : Nat} {u : Unit}
    (h : validateSelfInitiatedUniStreamId env streamId = .ok u) :
    (StreamKind.fromStreamId streamId).isUnidirectional = true := by
  unfold validateSelfInitiatedUniStreamId ensure isLocalInitiatedUni at h
  cases hrole : env.role <;> cases hkind : StreamKind.fromStreamId streamId <;>
    simp_all [StreamKind.isUnidirectional]

@[grind ←] theorem setControlStreamId_moves (streamId : Nat) :
    Keeps (Many (CallMove env p)) (setControlStreamId env streamId) := by
  refine Keeps.ofExcept_bind (callMove_composes env p) fun _ h => ?_
  have huni := isUnidirectional_of_validate env h
  grind

@[grind ←] theorem setEncoderStreamId_moves (streamId : Nat) :
    Keeps (Many (CallMove env p)) (setEncoderStreamId env streamId) := by
  refine Keeps.ofExcept_bind (callMove_composes env p) fun _ h => ?_
  have huni := isUnidirectional_of_validate env h
  refine Keeps.bind (callMove_composes env p) (by grind) fun _ => ?_
  split
  · grind
  · refine Keeps.bind (callMove_composes env p) (by grind) fun _ => ?_
    split
    · grind
    · split
      · exact Keeps.modify fun c => CallMove.many_plain env p (by grind) (by simp)
      · grind

@[grind ←] theorem setDecoderStreamId_moves (streamId : Nat) :
    Keeps (Many (CallMove env p)) (setDecoderStreamId env streamId) := by
  refine Keeps.ofExcept_bind (callMove_composes env p) fun _ h => ?_
  have huni := isUnidirectional_of_validate env h
  grind

@[grind ←] theorem stopSend_sendOnly (s : RequestStream) : SendOnly s s.stopSend :=
  ⟨rfl, rfl, rfl, rfl, rfl, rfl, rfl, rfl, rfl, rfl⟩

@[grind ←] theorem markFinSent_sendOnly (s : RequestStream) : SendOnly s s.markFinSent :=
  ⟨rfl, rfl, rfl, rfl, rfl, rfl, rfl, rfl, rfl, rfl⟩

section Send

variable {p} {streamId : Nat} (hp : p streamId)

include hp

@[grind ←] theorem getStreamData_moves :
    Keeps (Many (CallMove env p)) (getStreamData env streamId) := by
  unfold getStreamData
  grind

@[grind ←] theorem consumeStreamData_moves (len : Nat) :
    Keeps (Many (CallMove env p)) (consumeStreamData streamId len) := by
  refine Keeps.get_bind fun c => ?_
  split
  · split <;> exact KeepsAt.of_keeps (by grind)
  split
  · exact KeepsAt.of_keeps (by grind)
  split
  · exact KeepsAt.of_keeps (by grind)
  split
  · exact KeepsAt.of_keeps (by grind)
  · rename_i stream hs
    split
    · exact KeepsAt.of_keeps (by grind)
    · exact KeepsAt.modify_bind (callMove_composes env p)
        (CallMove.many_put env p hp hs (consumeSendData_sendOnly ‹_›) true)
        (KeepsAt.of_keeps (by grind))

@[grind ←] theorem takeStreamData_moves :
    Keeps (Many (CallMove env p)) (takeStreamData env streamId) := by
  unfold takeStreamData
  grind

@[grind ←] theorem takeBytes_moves : Keeps (Many (CallMove env p)) (takeBytes env streamId) := by
  unfold takeBytes
  grind

@[grind ←] theorem queueHeaders_moves (encoded : Bytes) (fin isInterim : Bool) :
    Keeps (Many (CallMove env p)) (queueHeaders streamId encoded fin isInterim) := by
  refine Keeps.get_bind fun c => ?_
  split
  · exact KeepsAt.of_keeps (by grind)
  · rename_i stream hs
    refine KeepsAt.ofExcept_bind (callMove_composes env p) fun t ht => KeepsAt.modify ?_
    exact CallMove.many_put env p hp hs (sendEncodedHeaders_sendOnly ht) true

@[grind ←] theorem sendBodyInner_moves (data : Bytes) (fin : Bool) :
    Keeps (Many (CallMove env p)) (sendBodyInner streamId data fin) := by
  refine Keeps.get_bind fun c => ?_
  split
  · exact KeepsAt.of_keeps (by grind)
  · rename_i stream hs
    refine KeepsAt.ofExcept_bind (callMove_composes env p) fun t ht => KeepsAt.modify ?_
    exact CallMove.many_put env p hp hs (sendBody_sendOnly ht) true

end Send

/-- The three ids are unidirectional once they were set. -/
theorem initH3Streams_moves (hp : ∀ x, (StreamKind.fromStreamId x).isUnidirectional = true → p x)
    (control encoder decoder : Nat) :
    Keeps (Many (CallMove env p)) (initH3Streams env control encoder decoder) := by
  have hset : ∀ (f : Nat → CoreProc Unit) {id : Nat} {c : Core},
      (∀ e, validateSelfInitiatedUniStreamId env id = .error e → (f id c).val = .error e) →
      (f id c).val = .ok () → p id := fun _ {id _} herror hok => by
    cases hvalid : validateSelfInitiatedUniStreamId env id with
    | error e =>
      rw [herror e hvalid] at hok
      cases hok
    | ok _ => exact hp id (isUnidirectional_of_validate env hvalid)
  intro c
  refine KeepsAt.bind (callMove_composes env p) (setControlStreamId_moves env p _ _) fun _ hc => ?_
  refine KeepsAt.bind (callMove_composes env p) (setEncoderStreamId_moves env p _ _) fun _ he => ?_
  refine KeepsAt.bind (callMove_composes env p) (setDecoderStreamId_moves env p _ _) fun _ hd => ?_
  have hcontrol := hset (setControlStreamId env)
    (fun e h => by rw [setControlStreamId, h]; rfl) hc
  have hencoder := hset (setEncoderStreamId env)
    (fun e h => by rw [setEncoderStreamId, h]; rfl) he
  have hdecoder := hset (setDecoderStreamId env)
    (fun e h => by rw [setDecoderStreamId, h]; rfl) hd
  exact KeepsAt.of_keeps (by grind)

@[grind ←] theorem encodeQpackHeaders_moves (headers : List Header) :
    Keeps (Many (CallMove env p)) (encodeQpackHeaders headers) := by
  refine Keeps.get_bind fun c => KeepsAt.modify_bind (callMove_composes env p) ?_
    (KeepsAt.of_keeps (by grind))
  refine CallMove.many_plain env p ((plain_modifyQpack _ _).mpr
    ⟨Nat.le_refl _, fun h => ?_, fun h => ⟨h.1, h.2, h.3⟩⟩) (by simp)
  rwa [encodeTries_table]

@[grind =] theorem trackSection_entries (streamId : Nat) (q : QpackState) :
    (trackSection streamId q).encoder.table.entries = q.encoder.table.entries :=
  Qpack.DynamicEncoder.trackSection_entries _ _ _

@[grind ←] theorem trackSection_moves (streamId : Nat) :
    Keeps (Many (CallMove env p)) (modify (modifyQpack (trackSection streamId)) : CoreProc Unit) := by
  refine fun c => CallMove.many_plain env p ((plain_modifyQpack _ _).mpr
    ⟨Nat.le_refl _, fun h => ?_, fun h => ⟨h.1, h.2, h.3⟩⟩) (by simp)
  rwa [trackSection_entries]

@[grind ←] theorem sendResponseInner_moves {streamId : Nat} (hp : p streamId)
    (headers : List Header) (fin : Bool) :
    Keeps (Many (CallMove env p)) (sendResponseInner env streamId headers fin) := by
  refine Keeps.bind (callMove_composes env p) (by grind) fun _ => ?_
  refine Keeps.bind (callMove_composes env p) (by grind) fun _ => ?_
  grind

@[grind ←] theorem sendGoawayInner_moves (id : VarInt) :
    Keeps (Many (CallMove env p)) (sendGoawayInner env id) := by
  refine Keeps.get_bind fun c => ?_
  refine KeepsAt.ofExcept_bind (callMove_composes env p) fun _ _ => ?_
  refine KeepsAt.ofExcept_bind (callMove_composes env p) fun _ _ => ?_
  refine KeepsAt.ofExcept_bind (callMove_composes env p) fun controlSend h => KeepsAt.modify ?_
  have hid := ControlStreamSend.sendGoaway_streamId h
  exact CallMove.many_plain env p (by grind) (by simp)

@[grind ←] theorem registerLocalWtStream_moves (sessionId streamId : Nat) :
    Keeps (Many (CallMove env p)) (registerLocalWtStream env sessionId streamId) := by
  refine Keeps.get_bind fun c => ?_
  dsimp only
  split
  · exact KeepsAt.of_keeps (by grind)
  split
  · exact KeepsAt.of_keeps (by grind)
  split
  · exact KeepsAt.of_keeps (by grind)
  split
  · exact KeepsAt.of_keeps (by grind)
  split
  · exact KeepsAt.of_keeps (by grind)
  · refine CallMove.at_wt env p (.registerLocal streamId sessionId _ ‹_› ?_ ?_ ?_ ?_) <;> grind

theorem sendStreamCancellationIfNeeded_keeps (streamId : Nat) (q : QpackState) :
    (sendStreamCancellationIfNeeded env streamId q).dynamicDecoder = q.dynamicDecoder ∧
      (sendStreamCancellationIfNeeded env streamId q).encoder = q.encoder ∧
      (sendStreamCancellationIfNeeded env streamId q).encoderStreamId = q.encoderStreamId ∧
      (sendStreamCancellationIfNeeded env streamId q).decoderStreamId = q.decoderStreamId := by
  unfold sendStreamCancellationIfNeeded
  repeat' split
  all_goals exact ⟨rfl, rfl, rfl, rfl⟩

@[grind ←] theorem sendStreamCancellationIfNeeded_moves (streamId : Nat) :
    Keeps (Many (CallMove env p))
      (modify (modifyQpack (sendStreamCancellationIfNeeded env streamId)) : CoreProc Unit) := by
  intro c
  have h := sendStreamCancellationIfNeeded_keeps env streamId c.qpack
  refine CallMove.many_plain env p ?_ (by simp)
  rw [modify_run]
  grind

@[grind ←] theorem reportUnless_moves {wt : WtProc Bool} (h : ∀ w, WtOuter env w wt) {e : Event}
    (he : (Obs.event e).isReport = true) :
    Keeps (Many (CallMove env p)) (reportUnless wt e) := by
  unfold reportUnless
  grind

@[grind ←] theorem streamResetInner_moves {streamId : Nat} (hp : p streamId)
    (errorCode finalSize : Nat) :
    Keeps (Many (CallMove env p)) (streamResetInner env streamId errorCode finalSize) := by
  refine Keeps.bind (callMove_composes env p) (by grind) fun _ => ?_
  split
  · grind
  · refine Keeps.bind (callMove_composes env p) (by grind) fun _ => ?_
    refine Keeps.bind (callMove_composes env p) (by grind) fun _ => ?_
    refine Keeps.bind (callMove_composes env p) (by grind) fun _ => ?_
    grind

@[grind ←] theorem stopSendingInner_moves {streamId : Nat} (hp : p streamId) (errorCode : Nat) :
    Keeps (Many (CallMove env p)) (stopSendingInner env streamId errorCode) := by
  refine Keeps.bind (callMove_composes env p) (by grind) fun _ => ?_
  split
  · grind
  · refine Keeps.bind (callMove_composes env p) (by grind) fun _ => ?_
    refine Keeps.bind (callMove_composes env p) (by grind) fun _ => ?_
    refine Keeps.bind (callMove_composes env p) (by grind) fun _ => ?_
    grind

/-- Bytes of a stream and requests are left to the results that need them. -/
def isOrdinary : Call → Bool
  | .feedStream _ _ _ | .sendRequest _ _ => false
  | _ => true

/-- The streams whose send side a call may change. -/
def sendsOn : Call → Nat → Bool
  | .initH3Streams _ _ _, x => (StreamKind.fromStreamId x).isUnidirectional
  | .streamReset streamId _ _, x | .stopSending streamId _, x | .getStreamData streamId, x
  | .takeStreamData streamId, x | .consumeStreamData streamId _, x
  | .sendResponse streamId _ _, x | .sendBody streamId _ _, x => x == streamId
  | _, _ => false

theorem body_moves (call : Call) (h : isOrdinary call = true) :
    Keeps (Many (CallMove env (sendsOn call · = true))) (body env call) := by
  have hblocked := Move.keeps_call env (sendsOn call · = true) (retryBlockedStreams_move env)
  have hdatagram := fun data => Move.keeps_call env (sendsOn call · = true)
    (Side.keeps_move env (feedDatagramInner_side env data))
  cases call with
  | feedStream | sendRequest => cases h
  | initH3Streams control encoder decoder =>
    exact Keeps.bind (callMove_composes env _) (initH3Streams_moves env _ (fun _ h => h) _ _ _)
      (by grind)
  | setPreviousWtSettings settings =>
    refine Keeps.bind (callMove_composes env _) (CallMove.many_wt env _ fun w => ?_) (by grind)
    exact .previousSettings settings
  | setMaxReceivedBodySize size =>
    exact Keeps.bind (callMove_composes env _) (fun c => .step (.bodyLimit c size true)) (by grind)
  | _ =>
    unfold body
    simp only [unit]
    grind [sendsOn]

end CallMove

end Http3.Connection
