import Http3.Connection.CallMoves
import Http3.Connection.ControlStream

/-!
# Who touches the control stream

The receiving half of the control stream, the peer's SETTINGS and the limits that GOAWAY and
MAX_PUSH_ID set are touched by bytes of the control stream only, and by sending GOAWAY.
-/

namespace Http3

namespace Connection

open Proc

/-- The control stream and what its frames left. -/
@[mk_iff]
structure SameControl (c d : Core) : Prop where
  controlRecv : d.controlRecv = c.controlRecv
  peerSettings : d.peerSettings = c.peerSettings
  peerGoawayLastId : d.peerGoawayLastId = c.peerGoawayLastId
  lastSentGoawayId : d.lastSentGoawayId = c.lastSentGoawayId
  maxPushId : d.maxPushId = c.maxPushId

attribute [grind =] sameControl_iff

/-- A procedure that leaves them alone. -/
def Aloof : Flow Obs Core := fun c _ _ d => SameControl c d

attribute [grind =] Aloof

section Aloof

variable (env : Env)

@[grind .] theorem aloof_composes : Composes Aloof where
  refl _ _ := ⟨rfl, rfl, rfl, rfl, rfl⟩
  trans h h' :=
    ⟨h'.1.trans h.1, h'.2.trans h.2, h'.3.trans h.3, h'.4.trans h.4, h'.5.trans h.5⟩

@[grind ←] theorem aloof_onWt {α : Type} (x : WtProc α) : Keeps Aloof (onWt x) :=
  fun _ => ⟨rfl, rfl, rfl, rfl, rfl⟩

@[grind ←] theorem aloof_emit (w : Obs) : Keeps Aloof (emit w : CoreProc Unit) :=
  fun _ => ⟨rfl, rfl, rfl, rfl, rfl⟩

@[grind ←] theorem aloof_emitAll (l : List Obs) : Keeps Aloof (emitAll l : CoreProc Unit) :=
  fun _ => ⟨rfl, rfl, rfl, rfl, rfl⟩

theorem aloof_of_streams {c d : Core} (h : d = { c with streams := d.streams }) :
    SameControl c d := by
  rw [h]
  exact ⟨rfl, rfl, rfl, rfl, rfl⟩

@[grind ←] theorem removeStreamIfDone_same (streamId : Nat) (c : Core) :
    SameControl c (removeStreamIfDone streamId c) := aloof_of_streams (removeStreamIfDone_eq _ c)

@[grind ←] theorem ensureStream_same (streamId : Nat) (c : Core) :
    SameControl c (ensureStream env streamId c) := aloof_of_streams (ensureStream_eq env _ c)

@[grind ←] theorem clearQpackBlocked_same (streamId : Nat) (c : Core) :
    SameControl c (clearQpackBlocked streamId c) := by
  unfold clearQpackBlocked
  split <;> exact ⟨rfl, rfl, rfl, rfl, rfl⟩

@[grind ←] theorem modifyQpack_same (f : QpackState → QpackState) (c : Core) :
    SameControl c (modifyQpack f c) := ⟨rfl, rfl, rfl, rfl, rfl⟩

@[grind ←] theorem modifyStream_same (streamId : Nat) (f : RequestStream → RequestStream)
    (c : Core) : SameControl c (modifyStream streamId f c) := ⟨rfl, rfl, rfl, rfl, rfl⟩

@[grind ←] theorem putStream_same (streamId : Nat) (stream : RequestStream) (c : Core) :
    SameControl c (putStream streamId stream c) := ⟨rfl, rfl, rfl, rfl, rfl⟩

@[grind ←] theorem registerBlocked_same (streamId : Nat) (encoded : Bytes) (isTrailer : Bool)
    (c : Core) : SameControl c (registerBlocked streamId encoded isTrailer c) :=
  ⟨rfl, rfl, rfl, rfl, rfl⟩

/-! ## Request streams -/

@[grind ←] theorem decodeSection_aloof (streamId : Nat) (encoded : Bytes) :
    Keeps Aloof (decodeSection streamId encoded) := by
  unfold decodeSection
  grind

@[grind ←] theorem deferWtConnect_aloof (streamId : Nat) (headers : List Header) :
    Keeps Aloof (deferWtConnect streamId headers) := by
  unfold deferWtConnect
  grind

@[grind ←] theorem registerWtConnectSession_aloof (streamId : Nat) (headers : List Header) :
    Keeps Aloof (registerWtConnectSession env streamId headers) := by
  unfold registerWtConnectSession
  grind

@[grind ←] theorem reportHeaders_aloof (streamId : Nat) (headers : List Header) :
    Keeps Aloof (reportHeaders streamId headers) := by
  unfold reportHeaders
  grind

@[grind ←] theorem noteConnectResponse_aloof (streamId : Nat) (headers : List Header) :
    Keeps Aloof (noteConnectResponse env streamId headers) := by
  unfold noteConnectResponse
  grind

@[grind ←] theorem acceptHeaders_aloof (streamId : Nat) (headers : List Header) :
    Keeps Aloof (acceptHeaders env streamId headers) := by
  unfold acceptHeaders
  grind

@[grind ←] theorem emitHeaderEvents_aloof (streamId : Nat) (headers : List Header)
    (isTrailer : Bool) : Keeps Aloof (emitHeaderEvents env streamId headers isTrailer) := by
  unfold emitHeaderEvents
  grind

@[grind ←] theorem processSection_aloof (streamId : Nat) (encoded : Bytes) (isTrailer : Bool) :
    Keeps Aloof (processSection env streamId encoded isTrailer) := by
  unfold processSection
  grind

@[grind ←] theorem processData_aloof (streamId bodyLen : Nat) (data : Bytes) :
    Keeps Aloof (processData env streamId bodyLen data) := by
  unfold processData
  grind

@[grind ←] theorem processStreamEnd_aloof (streamId : Nat) (stream : RequestStream) :
    Keeps Aloof (processStreamEnd env streamId stream) := by
  unfold processStreamEnd
  grind

@[grind ←] theorem processStreamFrame_aloof (streamId : Nat) :
    Keeps Aloof (processStreamFrame env streamId) := by
  refine Keeps.bind aloof_composes (by grind) fun c => ?_
  split
  · grind
  · refine Keeps.bind aloof_composes (by grind) fun _ => ?_
    refine Keeps.bind aloof_composes (by grind) fun r => ?_
    split <;> grind

@[grind ←] theorem processStreamFrames_aloof (streamId : Nat) :
    Keeps Aloof (processStreamFrames env streamId) := by
  unfold processStreamFrames
  grind

@[grind ←] theorem retryStream_aloof (streamId : Nat) :
    Keeps Aloof (retryStream env streamId) := by
  refine Keeps.bind aloof_composes (by grind) fun c => ?_
  split
  · grind
  · refine Keeps.bind aloof_composes (by grind) fun _ => ?_
    refine Keeps.bind aloof_composes (by grind) fun r => ?_
    split
    · refine Keeps.bind aloof_composes (by grind) fun _ => ?_
      grind
    · grind

@[grind ←] theorem retryBlockedStreams_aloof : Keeps Aloof (retryBlockedStreams env) := by
  unfold retryBlockedStreams
  grind

@[grind ←] theorem handleBidirectionalStream_aloof (streamId : Nat) (data : Bytes) (fin : Bool) :
    Keeps Aloof (handleBidirectionalStream env streamId data fin) := by
  unfold handleBidirectionalStream
  grind

@[grind ←] theorem dispatchWtStream_aloof (streamId : Nat) (buf : Bytes) (fin : Bool) :
    Keeps Aloof (dispatchWtStream env streamId buf fin) := by
  unfold dispatchWtStream
  grind

@[grind ←] theorem dispatchClientBidiStream_aloof (streamId : Nat) (data : Bytes) (fin : Bool) :
    Keeps Aloof (dispatchClientBidiStream env streamId data fin) := by
  unfold dispatchClientBidiStream
  grind

/-! ## QPACK streams and what waits for SETTINGS -/

@[grind ←] theorem processEncoderStream_aloof : Keeps Aloof processEncoderStream := by
  unfold processEncoderStream processEncoderInstruction
  grind

@[grind ←] theorem processDecoderStream_aloof : Keeps Aloof processDecoderStream := by
  have hone : ∀ total, Keeps Aloof (processDecoderInstruction total) := by
    intro total
    refine Keeps.bind aloof_composes (by grind) fun _ => ?_
    refine Keeps.bind aloof_composes (by grind) fun _ => ?_
    split <;> grind
  unfold processDecoderStream
  grind

@[grind ←] theorem receiveEncoderStream_aloof (data : Bytes) :
    Keeps Aloof (receiveEncoderStream data) := by
  unfold receiveEncoderStream
  grind

@[grind ←] theorem receiveDecoderStream_aloof (data : Bytes) :
    Keeps Aloof (receiveDecoderStream data) := by
  unfold receiveDecoderStream
  grind

@[grind ←] theorem processDeferredWtConnects_aloof :
    Keeps Aloof (processDeferredWtConnects env) := by
  have hone : ∀ streamId headers, Keeps Aloof (processDeferredWtConnect env streamId headers) := by
    intro streamId headers
    unfold processDeferredWtConnect
    grind
  unfold processDeferredWtConnects
  grind

@[grind ←] theorem processPendingWtBidiPreNegotiation_aloof :
    Keeps Aloof (processPendingWtBidiPreNegotiation env) := by
  unfold processPendingWtBidiPreNegotiation
  grind

/-! ## Other calls -/

@[grind ←] theorem feedDatagramInner_aloof (data : Bytes) :
    Keeps Aloof (feedDatagramInner env data) := by
  unfold feedDatagramInner
  grind

@[grind ←] theorem reportUnless_aloof (wt : WtProc Bool) (e : Event) :
    Keeps Aloof (reportUnless wt e) := by
  unfold reportUnless
  grind

@[grind ←] theorem streamResetInner_aloof (streamId errorCode finalSize : Nat) :
    Keeps Aloof (streamResetInner env streamId errorCode finalSize) := by
  refine Keeps.bind aloof_composes (by grind) fun _ => ?_
  split
  · grind
  · refine Keeps.bind aloof_composes (by grind) fun _ => ?_
    refine Keeps.bind aloof_composes (by grind) fun _ => ?_
    refine Keeps.bind aloof_composes (by grind) fun _ => ?_
    grind

@[grind ←] theorem stopSendingInner_aloof (streamId errorCode : Nat) :
    Keeps Aloof (stopSendingInner env streamId errorCode) := by
  refine Keeps.bind aloof_composes (by grind) fun _ => ?_
  split
  · grind
  · refine Keeps.bind aloof_composes (by grind) fun _ => ?_
    refine Keeps.bind aloof_composes (by grind) fun _ => ?_
    refine Keeps.bind aloof_composes (by grind) fun _ => ?_
    grind

@[grind ←] theorem setControlStreamId_aloof (streamId : Nat) :
    Keeps Aloof (setControlStreamId env streamId) := by
  unfold setControlStreamId
  grind

@[grind ←] theorem setEncoderStreamId_aloof (streamId : Nat) :
    Keeps Aloof (setEncoderStreamId env streamId) := by
  refine Keeps.bind aloof_composes (by grind) fun _ => ?_
  refine Keeps.bind aloof_composes (by grind) fun c => ?_
  split
  · grind
  · refine Keeps.bind aloof_composes (by grind) fun _ => ?_
    split
    · grind
    · split
      · exact Keeps.modify fun _ => modifyQpack_same _ _
      · grind

@[grind ←] theorem setDecoderStreamId_aloof (streamId : Nat) :
    Keeps Aloof (setDecoderStreamId env streamId) := by
  unfold setDecoderStreamId
  grind

@[grind ←] theorem getStreamData_aloof (streamId : Nat) :
    Keeps Aloof (getStreamData env streamId) := by
  unfold getStreamData
  grind

@[grind ←] theorem consumeStreamData_aloof (streamId len : Nat) :
    Keeps Aloof (consumeStreamData streamId len) := by
  refine Keeps.bind aloof_composes (by grind) fun c => ?_
  split
  · split <;> grind
  split
  · grind
  split
  · grind
  split
  · grind
  · split <;> grind

@[grind ←] theorem takeBytes_aloof (streamId : Nat) : Keeps Aloof (takeBytes env streamId) := by
  unfold takeBytes takeStreamData
  grind

theorem initH3Streams_aloof (control encoder decoder : Nat) :
    Keeps Aloof (initH3Streams env control encoder decoder) := by
  refine Keeps.bind aloof_composes (by grind) fun _ => ?_
  refine Keeps.bind aloof_composes (by grind) fun _ => ?_
  refine Keeps.bind aloof_composes (by grind) fun _ => ?_
  refine Keeps.bind aloof_composes (by grind) fun _ => ?_
  grind

@[grind ←] theorem encodeQpackHeaders_aloof (headers : List Header) :
    Keeps Aloof (encodeQpackHeaders headers) := by
  unfold encodeQpackHeaders
  grind

@[grind ←] theorem queueHeaders_aloof (streamId : Nat) (encoded : Bytes) (fin isInterim : Bool) :
    Keeps Aloof (queueHeaders streamId encoded fin isInterim) := by
  unfold queueHeaders
  grind

@[grind ←] theorem sendRequestInner_aloof (headers : List Header) (fin : Bool) :
    Keeps Aloof (sendRequestInner env headers fin) := by
  refine Keeps.bind aloof_composes (by grind) fun c => ?_
  refine Keeps.bind aloof_composes (by grind) fun _ => ?_
  refine Keeps.bind aloof_composes (by grind) fun encoded => ?_
  refine Keeps.bind aloof_composes (by grind) fun _ => ?_
  split
  · grind
  · refine Keeps.bind aloof_composes (by grind) fun stream => ?_
    refine Keeps.bind aloof_composes (by grind) fun _ => ?_
    refine Keeps.bind aloof_composes (by grind) fun _ => ?_
    grind

@[grind ←] theorem sendResponseInner_aloof (streamId : Nat) (headers : List Header) (fin : Bool) :
    Keeps Aloof (sendResponseInner env streamId headers fin) := by
  refine Keeps.bind aloof_composes (by grind) fun c => ?_
  refine Keeps.bind aloof_composes (by grind) fun _ => ?_
  grind

@[grind ←] theorem sendBodyInner_aloof (streamId : Nat) (data : Bytes) (fin : Bool) :
    Keeps Aloof (sendBodyInner streamId data fin) := by
  unfold sendBodyInner
  grind

@[grind ←] theorem registerLocalWtStream_aloof (sessionId streamId : Nat) :
    Keeps Aloof (registerLocalWtStream env sessionId streamId) := by
  unfold registerLocalWtStream
  grind

/-- The calls that may touch the control stream. -/
def touchesControl : Call → Bool
  | .feedStream _ _ _ | .sendGoaway _ => true
  | _ => false

theorem body_aloof (call : Call) (h : touchesControl call = false) :
    Keeps Aloof (body env call) := by
  cases call with
  | feedStream | sendGoaway => cases h
  | initH3Streams control encoder decoder =>
    exact Keeps.bind aloof_composes (initH3Streams_aloof env _ _ _) (by grind)
  | setMaxReceivedBodySize size =>
    exact Keeps.bind aloof_composes (fun c => ⟨rfl, rfl, rfl, rfl, rfl⟩) (by grind)
  | _ =>
    unfold body
    simp only [unit]
    grind [takeStreamData]

end Aloof

/-! ## Before the control stream is known -/

/-- Without a control stream nothing was received on it. -/
def Unopened (c : Core) : Prop :=
  c.controlRecv.streamId = none →
    c.controlRecv = .new ∧ c.peerSettings = none ∧ c.peerGoawayLastId = none ∧ c.maxPushId = none

/-- A procedure that keeps it so. -/
def KeepsUnopened : Flow Obs Core := fun c _ _ d => Unopened c → Unopened d

section Unopened

variable (env : Env)

theorem keepsUnopened_composes : Composes KeepsUnopened where
  refl _ _ h := h
  trans h h' := fun hc => h' (h hc)

theorem keepsUnopened_of_aloof {α : Type} {x : CoreProc α} (h : Keeps Aloof x) :
    Keeps KeepsUnopened x := by
  refine h.mono fun c _ _ d hsame hc hnone => ?_
  obtain ⟨hrecv, hsettings, hgoaway, -, hpush⟩ := hsame
  rw [hrecv] at hnone ⊢
  rw [hsettings, hgoaway, hpush]
  exact hc hnone

theorem process_streamId (c : ControlStreamRecv) : c.process.2.streamId = c.streamId := by
  have hframe : ∀ c : ControlStreamRecv, c.processFrame.2.streamId = c.streamId := by
    intro c
    rw [ControlStreamRecv.processFrame_eq]
    repeat' split
    all_goals rfl
  unfold ControlStreamRecv.process
  repeat' split
  all_goals first | rfl | exact hframe _

/-- Once the stream is known it stays known. -/
def Known : Flow Obs Core := fun c _ _ d =>
  d.controlRecv.streamId = c.controlRecv.streamId

theorem known_composes : Composes Known where
  refl _ _ := rfl
  trans h h' := h'.trans h

theorem receiveControl_known (data : Bytes) : Keeps Known (receiveControl env data) := by
  have hframe : ∀ frame, Keeps Known (handleControlFrame env frame) := fun frame c =>
    congrArg ControlStreamRecv.streamId (handleControlFrame_aside env frame c).1
  have hone : Keeps Known (processControlFrame env) := by
    refine Keeps.get_bind fun c => ?_
    refine KeepsAt.modify_bind known_composes (process_streamId c.controlRecv) (.of_keeps ?_)
    refine Keeps.bind known_composes (.ofExcept known_composes _) fun r => ?_
    split
    · exact Keeps.bind known_composes (hframe _) fun _ => .ret known_composes _
    · exact .ret known_composes _
  refine Keeps.bind known_composes (.modify fun c => rfl) fun _ => ?_
  exact Keeps.bind known_composes (.get known_composes) fun c => .loop known_composes hone _

theorem unopened_of_some {c : Core} {streamId : Nat} (h : c.controlRecv.streamId = some streamId) :
    Unopened c := by
  intro hnone
  rw [h] at hnone
  cases hnone

theorem receiveControl_unopened {c : Core} {streamId : Nat}
    (h : c.controlRecv.streamId = some streamId) (data : Bytes) :
    KeepsAt KeepsUnopened c (receiveControl env data) := by
  intro _
  have hknown : (receiveControl env data c).st.controlRecv.streamId = c.controlRecv.streamId :=
    receiveControl_known env data c
  exact unopened_of_some (hknown.trans h)

theorem openUniStream_unopened (streamId streamType : Nat) (remaining : Bytes) :
    Keeps KeepsUnopened (openUniStream env streamId streamType remaining) := by
  have hR := keepsUnopened_composes
  refine Keeps.get_bind fun c => ?_
  split
  · split
    · exact .of_keeps (.throw hR _)
    · have hopen : (ControlStreamRecv.skipStreamType
          { c.controlRecv with streamId := some streamId }).streamId = some streamId := by
        unfold ControlStreamRecv.skipStreamType
        split <;> rfl
      refine KeepsAt.modify_bind hR (fun _ => unopened_of_some hopen) ?_
      split
      · exact .of_keeps (.ret hR _)
      · exact receiveControl_unopened env hopen remaining
  all_goals exact .of_keeps (keepsUnopened_of_aloof (by grind))

theorem handleUnidirectionalStream_unopened (streamId : Nat) (data : Bytes) (fin : Bool) :
    Keeps KeepsUnopened (handleUnidirectionalStream env streamId data fin) := by
  have hR := keepsUnopened_composes
  have haloof : ∀ {x : CoreProc Unit}, Keeps Aloof x → Keeps KeepsUnopened x :=
    keepsUnopened_of_aloof
  have hfinish : Keeps KeepsUnopened
      (if fin then finishUni env streamId else ret () : CoreProc Unit) := by
    unfold finishUni
    exact haloof (by grind)
  refine Keeps.get_bind fun c => ?_
  dsimp only
  split
  · exact .of_keeps (.ret hR _)
  split
  · exact .of_keeps (.ret hR _)
  split
  · exact .of_keeps hfinish
  split
  · rename_i hstream
    exact .bind_keeps hR (receiveControl_unopened env hstream data) fun _ => hfinish
  split
  · exact .of_keeps (.bind hR (haloof (by grind)) fun _ => hfinish)
  split
  · exact .of_keeps (.bind hR (haloof (by grind)) fun _ => hfinish)
  split
  · exact .of_keeps (.bind hR (haloof (by grind)) fun _ => hfinish)
  split
  · exact .of_keeps (.bind hR (haloof (by grind)) fun _ => hfinish)
  · refine .get_bind ?_
    dsimp only
    split
    · split <;> exact .of_keeps (haloof (by grind))
    · refine .of_keeps (.bind hR (haloof (by grind)) fun _ => ?_)
      refine .bind hR (openUniStream_unopened env streamId _ _) fun _ => ?_
      exact haloof (by grind)

theorem feedStreamInner_unopened (streamId : Nat) (data : Bytes) (fin : Bool) :
    Keeps KeepsUnopened (feedStreamInner env streamId data fin) := by
  have hrequest : Keeps Aloof (do
      let r ← attempt (handleBidirectionalStream env streamId data fin)
      modify (removeStreamIfDone streamId)
      ofExcept r : CoreProc Unit) :=
    Keeps.attempt aloof_composes (handleBidirectionalStream_aloof env streamId data fin) (by grind)
  refine Keeps.bind keepsUnopened_composes (.get keepsUnopened_composes) fun c => ?_
  dsimp only
  split
  · exact handleUnidirectionalStream_unopened env streamId data fin
  · exact keepsUnopened_of_aloof (by grind)

theorem Unopened.new {cfg : Config} {c : Connection} (hc : Connection.new cfg = .ok c) :
    Unopened c.core := by
  simp only [Connection.new, Core.new, bind, Except.bind, pure, Except.pure] at hc
  split at hc
  · cases hc
  · cases hc
    exact fun _ => ⟨rfl, rfl, rfl, rfl⟩

theorem body_unopened (call : Call) : Keeps KeepsUnopened (body env call) := by
  cases hcall : touchesControl call with
  | false => exact keepsUnopened_of_aloof (body_aloof env call hcall)
  | true =>
    have hR := keepsUnopened_composes
    cases call with
    | feedStream streamId data fin =>
      exact .bind hR (feedStreamInner_unopened env streamId data fin) fun _ => .ret hR _
    | sendGoaway id =>
      refine .bind hR ?_ fun _ => .ret hR _
      refine .bind hR (.get hR) fun c => .bind hR (.ofExcept hR _) fun _ => ?_
      exact .bind hR (.ofExcept hR _) fun _ => .bind hR (.ofExcept hR _) fun _ =>
        .modify fun c hc => hc
    | _ => cases hcall

theorem Reachable.unopened {cfg : Config} {c : Connection} (hc : Reachable cfg c) :
    Unopened c.core := by
  refine hc.rec_on (P := fun c => Unopened c.core) (fun _ h => .new h) fun c i h => ?_
  exact step_stays keepsUnopened_composes (body_unopened (cfg.env i.order) i.call c.core) h

end Unopened

end Connection

end Http3
