import Http3.Connection.Feed

/-!
# What a call is made of

Every call of the receive side is a sequence of few kinds of moves, so that a property of all of
them is proved move by move. `Side` are the moves of control, QPACK and unidirectional streams
and of datagrams; `Move` adds those of request streams.
-/

namespace Http3

/-- Events about no stream and no session. -/
def Obs.isPlain : Obs → Bool
  | .event (.settingsReceived _ _) | .event (.goawayReceived _) => true
  | _ => false

/-- What is reported about a request stream, apart from its data. -/
def Obs.isReport : Obs → Bool
  | .event (.headersBegin _) | .event (.header _ _ _) | .event (.headersEnd _)
  | .event (.streamEnd _) | .event (.streamReset _ _) | .event (.stopSending _ _)
  | .fieldSection _ _ _ | .undecodable _ _ => true
  | _ => false

namespace Connection

open Proc

/-! ## Changes of the stream table alone -/

theorem removeStreamIfDone_eq (streamId : Nat) (c : Core) :
    removeStreamIfDone streamId c =
      { c with streams := (removeStreamIfDone streamId c).streams } := by
  unfold removeStreamIfDone
  split <;> rfl

theorem ensureStream_eq (env : Env) (streamId : Nat) (c : Core) :
    ensureStream env streamId c = { c with streams := (ensureStream env streamId c).streams } := by
  unfold ensureStream
  split <;> rfl

/-! ## Side moves -/

/-- The streams that this end opened for itself are unidirectional. -/
@[mk_iff]
structure LocalUni (c : Core) : Prop where
  control : c.controlSend.streamId.all fun id => (StreamKind.fromStreamId id).isUnidirectional
  encoder : c.qpack.encoderStreamId.all fun id => (StreamKind.fromStreamId id).isUnidirectional
  decoder : c.qpack.decoderStreamId.all fun id => (StreamKind.fromStreamId id).isUnidirectional

attribute [grind =] localUni_iff

/-- Nothing changes about request streams and sessions; the decoder's table only grows, and an
encoder without entries gets none. -/
@[mk_iff]
structure Plain (c d : Core) : Prop where
  streams : d.streams = c.streams
  nextStreamId : d.nextStreamId = c.nextStreamId
  blockedByRicnt : d.blockedByRicnt = c.blockedByRicnt
  ignoredUniStreams : c.ignoredUniStreams ⊆ d.ignoredUniStreams
  wt : d.wt = c.wt
  limits : d.limits = c.limits
  insertCount :
    c.qpack.dynamicDecoder.table.insertCount ≤ d.qpack.dynamicDecoder.table.insertCount
  encoderEntries :
    c.qpack.encoder.table.entries = [] → d.qpack.encoder.table.entries = []
  localUni : LocalUni c → LocalUni d

attribute [grind =] plain_iff

/-- What side streams and datagrams do to sessions. -/
inductive WtSide (env : Env) (w : WtState) : {α : Type} → WtProc α → Prop
  | releasePreNegotiation (goaway : Option VarInt) (negotiated : Bool) :
      WtSide env w (releasePreNegotiation env goaway negotiated)
  | drainSession (id sessionId : Nat) : WtSide env w (drainSession id sessionId)
  | resolveUni (goaway : Option VarInt) (streamId : Nat) (data : Bytes)
      (h : w.wtUniStreams.contains streamId = false) :
      WtSide env w (resolveWtUniStreamSessionId env goaway streamId data)
  | uniData (streamId : Nat) (data : Bytes) : WtSide env w (handleWtUniStreamData env streamId data)
  | uniFin (streamId : Nat) : WtSide env w (handleWtUniStreamFin env streamId)
  | dropPendingUni (streamId : Nat) : WtSide env w (modify (dropPending false streamId))
  | finishNewUni (streamId : Nat) : WtSide env w (finishNewUni streamId)
  | receiveDatagram (goaway : Option VarInt) (sessionId : Nat) (payload : Bytes) :
      WtSide env w (receiveDatagram env goaway sessionId payload)

attribute [grind ←] WtSide.releasePreNegotiation WtSide.drainSession WtSide.resolveUni
  WtSide.uniData WtSide.uniFin WtSide.dropPendingUni WtSide.finishNewUni WtSide.receiveDatagram

inductive Side (env : Env) : Flow Obs Core
  | plain {c d : Core} {o : List Obs} {b : Bool} (h : Plain c d)
      (ho : ∀ w ∈ o, w.isPlain = true) : Side env c o b d
  | wt {α : Type} (c : Core) (x : WtProc α) (h : WtSide env c.wt x) :
      Side env c (onWt x c).out (succeeded (onWt x c).val) (onWt x c).st
  | deferred (c : Core) :
      Side env c (processDeferredWtConnects env c).out
        (succeeded (processDeferredWtConnects env c).val) (processDeferredWtConnects env c).st

section Qpack

variable {q q' : QpackState}

theorem applyDecoderInstruction_entries {i : Qpack.DecoderInstruction}
    {encoder : Qpack.DynamicEncoder} (h : applyDecoderInstruction q i = .ok encoder) :
    encoder.table.entries = q.encoder.table.entries := by
  cases i with
  | insertCountIncrement n => cases h; rfl
  | streamCancellation streamId => cases h; rfl
  | sectionAcknowledgment streamId =>
    simp only [applyDecoderInstruction] at h
    split at h
    · cases h
      exact Qpack.DynamicEncoder.ackSection_entries ‹_›
    · cases h

theorem applyTableCapacity_keeps {limits : Limits} {capacity : Nat}
    (h : applyTableCapacity limits capacity q = .ok q') :
    q'.dynamicDecoder = q.dynamicDecoder ∧
      (q.encoder.table.entries = [] → q'.encoder.table.entries = []) ∧
      q'.encoderStreamId = q.encoderStreamId ∧ q'.decoderStreamId = q.decoderStreamId := by
  simp only [applyTableCapacity, Qpack.DynamicEncoder.setTableCapacity,
    Qpack.DynamicEncoder.setMaxTableCapacity] at h
  have hempty := Qpack.DynamicTable.setCapacity_entries_nil (t := q.encoder.table)
  grind

/-- SETTINGS configure the encoder only. -/
theorem applyQpackSettings_keeps {limits : Limits} {settings : Settings}
    (h : applyQpackSettings limits settings q = .ok q') :
    q'.dynamicDecoder = q.dynamicDecoder ∧
      (q.encoder.table.entries = [] → q'.encoder.table.entries = []) ∧
      q'.encoderStreamId = q.encoderStreamId ∧ q'.decoderStreamId = q.decoderStreamId := by
  have hblocked : ∀ q, (applyBlockedStreams settings q).dynamicDecoder = q.dynamicDecoder ∧
      (applyBlockedStreams settings q).encoder.table = q.encoder.table ∧
      (applyBlockedStreams settings q).encoderStreamId = q.encoderStreamId ∧
      (applyBlockedStreams settings q).decoderStreamId = q.decoderStreamId := by
    intro q
    unfold applyBlockedStreams
    split <;> exact ⟨rfl, rfl, rfl, rfl⟩
  unfold applyQpackSettings at h
  split at h
  · rename_i capacity _
    cases happlied : applyTableCapacity limits capacity.get q with
    | error e => simp [happlied, Except.map] at h
    | ok q₁ =>
      simp only [happlied, Except.map, Except.ok.injEq] at h
      have htable := applyTableCapacity_keeps happlied
      grind
  · cases h
    grind

@[grind =] theorem acknowledgeSection_dynamicDecoder (streamId : Nat) (q : QpackState) :
    (acknowledgeSection streamId q).dynamicDecoder = q.dynamicDecoder := by
  unfold acknowledgeSection
  repeat' split
  all_goals rfl

@[grind =] theorem acknowledgeSection_encoderStreamId (streamId : Nat) (q : QpackState) :
    (acknowledgeSection streamId q).encoderStreamId = q.encoderStreamId := by
  unfold acknowledgeSection
  repeat' split
  all_goals rfl

@[grind =] theorem acknowledgeSection_decoderStreamId (streamId : Nat) (q : QpackState) :
    (acknowledgeSection streamId q).decoderStreamId = q.decoderStreamId := by
  unfold acknowledgeSection
  repeat' split
  all_goals rfl

@[grind =] theorem acknowledgeSection_encoder (streamId : Nat) (q : QpackState) :
    (acknowledgeSection streamId q).encoder = q.encoder := by
  unfold acknowledgeSection
  repeat' split
  all_goals rfl

end Qpack

section Side

variable (env : Env)

@[grind .] theorem side_composes : Composes (Many (Side env)) := Many.composes _

@[grind ←] theorem Side.many_plain {c d : Core} {o : List Obs} {b : Bool} (h : Plain c d)
    (ho : ∀ w ∈ o, w.isPlain = true) : Many (Side env) c o b d := .step (.plain h ho)

@[grind ←] theorem Side.many_emit {w : Obs} (h : w.isPlain = true) :
    Keeps (Many (Side env)) (emit w : CoreProc Unit) :=
  fun _ => Side.many_plain env (by simp [plain_iff]) (by simpa using h)

@[grind ←] theorem Side.many_wt {α : Type} {x : WtProc α} (h : ∀ w, WtSide env w x) :
    Keeps (Many (Side env)) (onWt x) := fun c => .step (.wt c x (h c.wt))

@[grind ←] theorem Side.at_wt {α : Type} {c : Core} {x : WtProc α} (h : WtSide env c.wt x) :
    KeepsAt (Many (Side env)) c (onWt x) := .step (.wt c x h)

@[grind ←] theorem Side.many_deferred : Keeps (Many (Side env)) (processDeferredWtConnects env) :=
  fun c => .step (.deferred c)

@[grind =] theorem plain_modifyQpack (f : QpackState → QpackState) (c : Core) :
    Plain c (modifyQpack f c) ↔
      c.qpack.dynamicDecoder.table.insertCount ≤ (f c.qpack).dynamicDecoder.table.insertCount ∧
      (c.qpack.encoder.table.entries = [] → (f c.qpack).encoder.table.entries = []) ∧
      (LocalUni c → LocalUni (modifyQpack f c)) := by
  simp [plain_iff, modifyQpack]

@[grind =] theorem modifyQpack_controlSend (f : QpackState → QpackState) (c : Core) :
    (modifyQpack f c).controlSend = c.controlSend := rfl

@[grind =] theorem modifyQpack_qpack (f : QpackState → QpackState) (c : Core) :
    (modifyQpack f c).qpack = f c.qpack := rfl

attribute [grind =] Obs.isPlain

@[grind ←] theorem processPendingWtBidiPreNegotiation_side :
    Keeps (Many (Side env)) (processPendingWtBidiPreNegotiation env) := by
  unfold processPendingWtBidiPreNegotiation
  grind

@[grind ←] theorem processEncoderInstruction_side :
    Keeps (Many (Side env)) processEncoderInstruction := by
  refine Keeps.get_bind fun c => KeepsAt.modify_bind (side_composes env) ?_ ?_
  · refine Side.many_plain env
      ((plain_modifyQpack _ _).mpr ⟨?_, fun h => h, fun h => ⟨h.1, h.2, h.3⟩⟩) (by simp)
    exact Qpack.EncoderStreamReceiver.process_insertCount_le _ _
  · grind

@[grind ←] theorem processEncoderStream_side : Keeps (Many (Side env)) processEncoderStream := by
  unfold processEncoderStream
  grind

@[grind ←] theorem processDecoderInstruction_side (total : Nat) :
    Keeps (Many (Side env)) (processDecoderInstruction total) := by
  refine Keeps.get_bind fun c => KeepsAt.modify_bind (side_composes env) (by grind) ?_
  split
  · refine KeepsAt.get_bind (KeepsAt.ofExcept_bind (side_composes env) fun encoder h => ?_)
    refine KeepsAt.modify_bind (side_composes env) (Side.many_plain env ?_ (by simp)) (by grind)
    refine (plain_modifyQpack _ _).mpr
      ⟨Nat.le_refl _, fun he => ?_, fun h => ⟨h.1, h.2, h.3⟩⟩
    exact (applyDecoderInstruction_entries h).trans he
  · grind
  · grind

@[grind ←] theorem processDecoderStream_side : Keeps (Many (Side env)) processDecoderStream := by
  unfold processDecoderStream
  grind

@[grind ←] theorem handleSettings_side (settings : Settings) :
    Keeps (Many (Side env)) (handleSettings env settings) := by
  refine Keeps.get_bind fun c => KeepsAt.ofExcept_bind (side_composes env) fun qpack h => ?_
  refine KeepsAt.modify_bind (side_composes env) (Side.many_plain env ?_ (by simp)) ?_
  · have hq := applyQpackSettings_keeps h
    grind
  · refine KeepsAt.of_keeps (Keeps.bind (side_composes env) (by grind) fun _ => ?_)
    grind

@[grind ←] theorem handleGoaway_side (id : VarInt) :
    Keeps (Many (Side env)) (handleGoaway env id) := by
  unfold handleGoaway
  grind

@[grind ←] theorem handleMaxPushId_side (id : VarInt) :
    Keeps (Many (Side env)) (handleMaxPushId env id) := by
  unfold handleMaxPushId
  grind

@[grind ←] theorem handleControlFrame_side (frame : Frame) :
    Keeps (Many (Side env)) (handleControlFrame env frame) := by
  unfold handleControlFrame
  grind

@[grind ←] theorem processControlFrame_side :
    Keeps (Many (Side env)) (processControlFrame env) := by
  unfold processControlFrame
  grind

@[grind ←] theorem processControlStream_side :
    Keeps (Many (Side env)) (processControlStream env) := by
  unfold processControlStream
  grind

@[grind ←] theorem receiveControl_side (data : Bytes) :
    Keeps (Many (Side env)) (receiveControl env data) := by
  unfold receiveControl
  grind

@[grind ←] theorem receiveEncoderStream_side (data : Bytes) :
    Keeps (Many (Side env)) (receiveEncoderStream data) := by
  unfold receiveEncoderStream
  grind

@[grind ←] theorem receiveDecoderStream_side (data : Bytes) :
    Keeps (Many (Side env)) (receiveDecoderStream data) := by
  unfold receiveDecoderStream
  grind

@[grind ←] theorem feedDatagramInner_side (data : Bytes) :
    Keeps (Many (Side env)) (feedDatagramInner env data) := by
  unfold feedDatagramInner
  grind

@[grind ←] theorem finishUni_side (streamId : Nat) :
    Keeps (Many (Side env)) (finishUni env streamId) := by
  unfold finishUni
  grind

/-- A stream that is opened is not in the table yet. -/
theorem openUniStream_side {c : Core} {streamId : Nat}
    (h : c.wt.wtUniStreams.contains streamId = false) (streamType : Nat) (remaining : Bytes) :
    KeepsAt (Many (Side env)) c (openUniStream env streamId streamType remaining) := by
  refine KeepsAt.get_bind ?_
  split
  case h_5 => grind
  all_goals exact KeepsAt.of_keeps (by grind)

theorem handleNewUnidirectionalStream_side {c : Core} {streamId : Nat}
    (h : c.wt.wtUniStreams.contains streamId = false) (data : Bytes) (fin : Bool) :
    KeepsAt (Many (Side env)) c (handleNewUnidirectionalStream env streamId data fin) := by
  refine KeepsAt.get_bind ?_
  dsimp only
  split
  · exact KeepsAt.of_keeps (by grind)
  · refine KeepsAt.modify_bind (side_composes env) (Side.many_plain env (by grind) (by simp)) ?_
    refine KeepsAt.bind_keeps (side_composes env) ?_ fun _ => by grind
    refine openUniStream_side env ?_ _ _
    exact h

@[grind ←] theorem handleUnidirectionalStream_side (streamId : Nat) (data : Bytes) (fin : Bool) :
    Keeps (Many (Side env)) (handleUnidirectionalStream env streamId data fin) := by
  refine Keeps.get_bind fun c => ?_
  have hfinish : Keeps (Many (Side env))
      (if fin then finishUni env streamId else ret () : CoreProc Unit) := by grind
  have hnew := @handleNewUnidirectionalStream_side env c streamId
  dsimp only
  grind

end Side

/-! ## Moves of request streams -/

/-- Receiving leaves the send side alone, but for the state after FIN of the peer. -/
@[mk_iff]
structure RecvOnly (s t : RequestStream) : Prop where
  sendBuf : t.sendBuf = s.sendBuf
  sendState : t.sendState = s.sendState
  state : t.state = s.state ∨ t.state = s.state.closeRemote

attribute [grind =] recvOnly_iff

namespace RecvOnly

theorem refl (s : RequestStream) : RecvOnly s s := ⟨rfl, rfl, .inl rfl⟩

theorem trans {s t u : RequestStream} (h : RecvOnly s t) (h' : RecvOnly t u) : RecvOnly s u := by
  refine ⟨h'.sendBuf.trans h.sendBuf, h'.sendState.trans h.sendState, ?_⟩
  have hidem : s.state.closeRemote.closeRemote = s.state.closeRemote := by
    cases s.state <;> rfl
  rcases h.state with hs | hs <;> rcases h'.state with ht | ht <;> simp_all

theorem processHeaders (s : RequestStream) (encoded : Bytes) :
    RecvOnly s (s.processHeaders encoded).2 := by
  unfold RequestStream.processHeaders
  repeat' split
  all_goals exact ⟨rfl, rfl, .inl rfl⟩

theorem processData (s : RequestStream) (data : Bytes) : RecvOnly s (s.processData data).2 := by
  unfold RequestStream.processData
  repeat' split
  all_goals exact ⟨rfl, rfl, .inl rfl⟩

theorem processEmpty (s : RequestStream) : RecvOnly s s.processEmpty.2 := by
  unfold RequestStream.processEmpty
  repeat' split
  all_goals first | exact ⟨rfl, rfl, .inl rfl⟩ | exact ⟨rfl, rfl, .inr rfl⟩

theorem nextFrame (s : RequestStream) : RecvOnly s s.nextFrame.2 := by
  unfold RequestStream.nextFrame
  dsimp only
  repeat' split
  all_goals exact ⟨rfl, rfl, .inl rfl⟩

theorem processRawLoop (fuel : Nat) (s : RequestStream) :
    RecvOnly s (RequestStream.processRawLoop fuel s).2 := by
  induction fuel generalizing s with
  | zero => exact refl s
  | succ fuel ih =>
    have hnext := nextFrame s
    unfold RequestStream.processRawLoop
    split
    · exact processEmpty s
    · split <;> (rename_i heq; rw [heq] at hnext)
      · exact hnext
      · exact hnext
      · exact hnext.trans (processHeaders _ _)
      · exact hnext.trans (processData _ _)
      · exact hnext.trans (ih _)
      · exact hnext

@[grind ←] theorem processRaw (s : RequestStream) : RecvOnly s s.processRaw.2 :=
  processRawLoop _ s

@[grind ←] theorem noteHeaders (env : Env) (headers : List Header) (s : RequestStream) :
    RecvOnly s (noteHeaders env headers s) := by
  unfold Connection.noteHeaders RequestStream.notifyInformational
  dsimp only
  repeat' split
  all_goals exact ⟨rfl, rfl, .inl rfl⟩

@[grind ←] theorem receive (s : RequestStream) (data : Bytes) (fin : Bool) :
    RecvOnly s (s.receive data fin) := ⟨rfl, rfl, .inl rfl⟩

@[grind ←] theorem setQpackBlocked (s : RequestStream) (blocked : Bool) (ricnt : Nat)
    (section? : Option (Bytes × Bool)) : RecvOnly s (s.setQpackBlocked blocked ricnt section?) :=
  ⟨rfl, rfl, .inl rfl⟩

end RecvOnly

/-- What the frames of a request stream do to sessions. -/
inductive WtFrame (env : Env) (w : WtState) : {α : Type} → WtProc α → Prop
  | registerSession (streamId : Nat) (headers : List Header) (hr : env.role = .server) :
      WtFrame env w (registerSession streamId headers)
  | deferSession (streamId : Nat) (headers : List Header) :
      WtFrame env w (deferSession streamId headers)
  | connectResponse (peer : Option Settings) (streamId : Nat) (headers : List Header) :
      WtFrame env w (handleWtConnectResponse env peer streamId headers)
  | streamEnd (streamId : Nat) : WtFrame env w (handleWtStreamEnd env streamId)

attribute [grind ←] WtFrame.registerSession WtFrame.deferSession WtFrame.connectResponse
  WtFrame.streamEnd

inductive Move (env : Env) : Flow Obs Core
  | side {c d : Core} {o : List Obs} {b : Bool} (h : Side env c o b d) : Move env c o b d
  | open (c : Core) (streamId : Nat) (b : Bool) : Move env c [] b (ensureStream env streamId c)
  | touch (c : Core) (streamId : Nat) (f : RequestStream → RequestStream)
      (h : ∀ s, RecvOnly s (f s)) (b : Bool) : Move env c [] b (modifyStream streamId f c)
  | drop (c : Core) (streamId : Nat) (b : Bool) : Move env c [] b (removeStreamIfDone streamId c)
  | blocked (c : Core) (set : SortedSet) (b : Bool) :
      Move env c [] b { c with blockedByRicnt := set }
  | report (c : Core) (o : List Obs) (ho : ∀ w ∈ o, w.isReport = true) (b : Bool) :
      Move env c o b c
  | wt {α : Type} (c : Core) (x : WtProc α) (h : WtFrame env c.wt x) :
      Move env c (onWt x c).out (succeeded (onWt x c).val) (onWt x c).st
  | data (c : Core) (streamId bodyLen : Nat) (data : Bytes) :
      Move env c (processData env streamId bodyLen data c).out
        (succeeded (processData env streamId bodyLen data c).val)
        (processData env streamId bodyLen data c).st

section Move

variable (env : Env)

@[grind .] theorem move_composes : Composes (Many (Move env)) := Many.composes _

theorem Side.many_move {c d : Core} {o : List Obs} {b : Bool} (h : Many (Side env) c o b d) :
    Many (Move env) c o b d :=
  Many.lift (move_composes env) (fun _ _ _ _ h => .step (.side h)) h

theorem Side.keeps_move {α : Type} {x : CoreProc α} (h : Keeps (Many (Side env)) x) :
    Keeps (Many (Move env)) x := h.mono fun _ _ _ _ => Side.many_move env

@[grind ←] theorem Move.many_plain {c d : Core} {o : List Obs} {b : Bool} (h : Plain c d)
    (ho : ∀ w ∈ o, w.isPlain = true) : Many (Move env) c o b d := .step (.side (.plain h ho))

@[grind ←] theorem Move.many_touch (c : Core) (streamId : Nat)
    {f : RequestStream → RequestStream} (h : ∀ s, RecvOnly s (f s)) (b : Bool) :
    Many (Move env) c [] b (modifyStream streamId f c) := .step (.touch c streamId f h b)

@[grind ←] theorem Move.many_open (c : Core) (streamId : Nat) (b : Bool) :
    Many (Move env) c [] b (ensureStream env streamId c) := .step (.open c streamId b)

@[grind ←] theorem Move.many_drop (c : Core) (streamId : Nat) (b : Bool) :
    Many (Move env) c [] b (removeStreamIfDone streamId c) := .step (.drop c streamId b)

@[grind ←] theorem Move.many_blocked (c : Core) (set : SortedSet) (b : Bool) :
    Many (Move env) c [] b { c with blockedByRicnt := set } := .step (.blocked c set b)

@[grind ←] theorem Move.many_report {w : Obs} (h : w.isReport = true) :
    Keeps (Many (Move env)) (emit w : CoreProc Unit) :=
  fun c => .step (.report c [w] (by simpa using h) true)

@[grind ←] theorem Move.many_reports {o : List Obs} (h : ∀ w ∈ o, w.isReport = true) :
    Keeps (Many (Move env)) (emitAll o : CoreProc Unit) := fun c => .step (.report c o h true)

@[grind ←] theorem Move.many_wt {α : Type} {x : WtProc α} (h : ∀ w, WtFrame env w x) :
    Keeps (Many (Move env)) (onWt x) := fun c => .step (.wt c x (h c.wt))

@[grind ←] theorem Move.many_data (streamId bodyLen : Nat) (data : Bytes) :
    Keeps (Many (Move env)) (processData env streamId bodyLen data) :=
  fun c => .step (.data c streamId bodyLen data)

attribute [grind =] Obs.isReport

@[grind ←] theorem decodeSection_move (streamId : Nat) (encoded : Bytes) :
    Keeps (Many (Move env)) (decodeSection streamId encoded) := by
  refine Keeps.get_bind fun c => KeepsAt.modify_bind (move_composes env) ?_ ?_
  · refine Move.many_plain env
      ((plain_modifyQpack _ _).mpr ⟨?_, fun h => h, fun h => ⟨h.1, h.2, h.3⟩⟩) (by simp)
    rw [Qpack.DynamicDecoder.decode_table]
  · grind

@[grind ←] theorem registerBlocked_move (streamId : Nat) (encoded : Bytes) (isTrailer : Bool)
    (c : Core) (b : Bool) :
    Many (Move env) c [] b (registerBlocked streamId encoded isTrailer c) := by
  have h := (Move.many_blocked env c
    (c.blockedByRicnt.insert (c.qpack.dynamicDecoder.lastRequiredInsertCount, streamId)) b).trans
    (Move.many_touch env _ streamId (f := fun s => s.setQpackBlocked true
      c.qpack.dynamicDecoder.lastRequiredInsertCount (some (encoded, isTrailer)))
      (fun s => RecvOnly.setQpackBlocked s _ _ _) b)
  rwa [Bool.and_self] at h

@[grind →] theorem isReport_of_mem_headerEvents {streamId : Nat} {headers : List Header} {w : Obs}
    (h : w ∈ headerEvents streamId headers) : w.isReport = true := by
  simp only [headerEvents, List.cons_append, List.mem_cons, List.mem_append, List.mem_map,
    List.not_mem_nil, or_false] at h
  obtain rfl | ⟨header, -, rfl⟩ | rfl := h <;> rfl

@[grind ←] theorem acknowledgeSection_move (streamId : Nat) :
    Keeps (Many (Move env)) (modify (modifyQpack (acknowledgeSection streamId)) : CoreProc Unit) := by
  grind

@[grind ←] theorem deferWtConnect_move (streamId : Nat) (headers : List Header) :
    Keeps (Many (Move env)) (deferWtConnect streamId headers) := by
  unfold deferWtConnect
  grind

@[grind ←] theorem registerWtConnectSession_move (streamId : Nat) (headers : List Header) :
    Keeps (Many (Move env)) (registerWtConnectSession env streamId headers) := by
  unfold registerWtConnectSession
  grind

@[grind ←] theorem reportHeaders_move (streamId : Nat) (headers : List Header) :
    Keeps (Many (Move env)) (reportHeaders streamId headers) := by
  unfold reportHeaders
  grind

@[grind ←] theorem noteConnectResponse_move (streamId : Nat) (headers : List Header) :
    Keeps (Many (Move env)) (noteConnectResponse env streamId headers) := by
  unfold noteConnectResponse
  grind

@[grind ←] theorem acceptHeaders_move (streamId : Nat) (headers : List Header) :
    Keeps (Many (Move env)) (acceptHeaders env streamId headers) := by
  unfold acceptHeaders
  grind

@[grind ←] theorem emitHeaderEvents_move (streamId : Nat) (headers : List Header)
    (isTrailer : Bool) : Keeps (Many (Move env)) (emitHeaderEvents env streamId headers isTrailer) := by
  unfold emitHeaderEvents
  grind

@[grind ←] theorem processSection_move (streamId : Nat) (encoded : Bytes) (isTrailer : Bool) :
    Keeps (Many (Move env)) (processSection env streamId encoded isTrailer) := by
  unfold processSection
  grind

@[grind ←] theorem processStreamEnd_move (streamId : Nat) (stream : RequestStream) :
    Keeps (Many (Move env)) (processStreamEnd env streamId stream) := by
  unfold processStreamEnd
  grind

@[grind ←] theorem processStreamFrame_move (streamId : Nat) :
    Keeps (Many (Move env)) (processStreamFrame env streamId) := by
  refine Keeps.get_bind fun c => ?_
  split
  · exact KeepsAt.of_keeps (by grind)
  · rename_i stream hstream
    have hput : putStream streamId stream.processRaw.2 c =
        modifyStream streamId (fun s => s.processRaw.2) c := by
      simp only [putStream, modifyStream, IdMap.update, hstream]
    refine KeepsAt.modify_bind (move_composes env) ?_ ?_
    · rw [hput]
      exact Move.many_touch env c streamId RecvOnly.processRaw true
    · refine KeepsAt.ofExcept_bind (move_composes env) fun r _ => KeepsAt.of_keeps ?_
      grind

@[grind ←] theorem processStreamFrames_move (streamId : Nat) :
    Keeps (Many (Move env)) (processStreamFrames env streamId) := by
  unfold processStreamFrames
  grind

@[grind ←] theorem retryStream_move (streamId : Nat) :
    Keeps (Many (Move env)) (retryStream env streamId) := by
  refine Keeps.bind (move_composes env) (by grind) fun c => ?_
  split
  · grind
  · refine Keeps.bind (move_composes env) (by grind) fun _ => ?_
    refine Keeps.bind (move_composes env) (by grind) fun r => ?_
    split
    · refine Keeps.bind (move_composes env) (by grind) fun _ => ?_
      grind
    · grind

@[grind ←] theorem retryBlockedStreams_move :
    Keeps (Many (Move env)) (retryBlockedStreams env) := by
  unfold retryBlockedStreams
  grind

@[grind ←] theorem handleBidirectionalStream_move (streamId : Nat) (data : Bytes) (fin : Bool) :
    Keeps (Many (Move env)) (handleBidirectionalStream env streamId data fin) := by
  unfold handleBidirectionalStream
  grind

end Move

/-! ## Moves of all bytes -/

/-- What the classification of bidirectional streams does to sessions. -/
inductive WtDispatch (env : Env) (w : WtState) : {α : Type} → WtProc α → Prop
  | wtBidi (goaway : Option VarInt) (streamId : Nat) (data : Bytes) (fin : Bool)
      (hbidi : (StreamKind.fromStreamId streamId).isUnidirectional = false) :
      WtDispatch env w (handleWtBidiStream env goaway streamId data fin)
  | bufferPre (streamId : Nat) (data : Bytes) (fin : Bool) :
      WtDispatch env w (bufferPreNegotiationWtBidi streamId data fin)
  | ignorePre (streamId : Nat) : WtDispatch env w (ignorePreNegotiation streamId)
  | setDispatch (streamId : Nat) (buf : Bytes) : WtDispatch env w (modify (setDispatch streamId buf))
  | dropDispatch (streamId : Nat) : WtDispatch env w (modify (dropDispatch streamId))

attribute [grind ←] WtDispatch.wtBidi WtDispatch.bufferPre WtDispatch.ignorePre
  WtDispatch.setDispatch WtDispatch.dropDispatch

inductive FeedMove (env : Env) : Flow Obs Core
  | move {c d : Core} {o : List Obs} {b : Bool} (h : Move env c o b d) : FeedMove env c o b d
  | wt {α : Type} (c : Core) (x : WtProc α) (h : WtDispatch env c.wt x) :
      FeedMove env c (onWt x c).out (succeeded (onWt x c).val) (onWt x c).st

section FeedMove

variable (env : Env)

@[grind .] theorem feedMove_composes : Composes (Many (FeedMove env)) := Many.composes _

theorem Move.keeps_feed {α : Type} {x : CoreProc α} (h : Keeps (Many (Move env)) x) :
    Keeps (Many (FeedMove env)) x :=
  h.mono fun _ _ _ _ h =>
    Many.lift (feedMove_composes env) (fun _ _ _ _ h => .step (.move h)) h

@[grind ←] theorem FeedMove.many_drop (c : Core) (streamId : Nat) (b : Bool) :
    Many (FeedMove env) c [] b (removeStreamIfDone streamId c) :=
  .step (.move (.drop c streamId b))

@[grind ←] theorem FeedMove.many_wt {α : Type} {x : WtProc α} (h : ∀ w, WtDispatch env w x) :
    Keeps (Many (FeedMove env)) (onWt x) := fun c => .step (.wt c x (h c.wt))

/-- A clean-up after bytes of a request stream; whether they failed does not matter for it. -/
theorem FeedMove.many_attempt {x : CoreProc Unit} (streamId : Nat)
    (h : Keeps (Many (FeedMove env)) x) :
    Keeps (Many (FeedMove env)) (attempt x >>= fun r =>
      modify (removeStreamIfDone streamId) >>= fun _ => Proc.ofExcept r) :=
  Keeps.attempt (feedMove_composes env) h (by grind)

section Bidi

variable {streamId : Nat} (hbidi : (StreamKind.fromStreamId streamId).isUnidirectional = false)

include hbidi

theorem dispatchWtStream_moves (buf : Bytes) (fin : Bool) :
    Keeps (Many (FeedMove env)) (dispatchWtStream env streamId buf fin) := by
  unfold dispatchWtStream
  grind

variable (streamId) in
theorem dispatchClientBidiStream_moves (data : Bytes) (fin : Bool) :
    Keeps (Many (FeedMove env)) (dispatchClientBidiStream env streamId data fin) := by
  have hrequest := fun buf =>
    Move.keeps_feed env (handleBidirectionalStream_move env streamId buf fin)
  have hwt := fun buf => dispatchWtStream_moves env hbidi buf fin
  refine Keeps.bind (feedMove_composes env) (by grind) fun _ => ?_
  dsimp only
  split
  · grind
  split
  · grind
  · split <;> grind

end Bidi

theorem feedStreamInner_moves (streamId : Nat) (data : Bytes) (fin : Bool) :
    Keeps (Many (FeedMove env)) (feedStreamInner env streamId data fin) := by
  have huni := Move.keeps_feed env
    (Side.keeps_move env (handleUnidirectionalStream_side env streamId data fin))
  have hrequest := FeedMove.many_attempt env streamId
    (Move.keeps_feed env (handleBidirectionalStream_move env streamId data fin))
  have hdispatch := fun h => dispatchClientBidiStream_moves env streamId h data fin
  unfold feedStreamInner
  grind

end FeedMove

end Connection

end Http3
