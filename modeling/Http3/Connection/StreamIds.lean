import Http3.Connection.CallMoves
import Http3.Connection.SessionIds

/-!
# Stream ids in the range of QUIC

A stream is looked up again after each of its frames, and a capacity is clamped before it is set.
Neither fails: streams leave the table at the end of a call only. Together with the ids of
sessions this is why no bytes from the peer make the connection panic.
-/

namespace Http3

namespace Connection

open Proc

/-! ## Checks -/

/-- A check that may fail, but does not panic. -/
def PanicFree {α : Type} (r : Except Error α) : Prop := ∀ e, r = .error e → ¬IsPanic e

section PanicFree

variable {α β : Type}

@[grind ←] theorem PanicFree.ok (a : α) : PanicFree (.ok a) := fun _ h => by cases h

@[grind ←] theorem PanicFree.pure (a : α) : PanicFree (pure a : Except Error α) := fun _ h => by cases h

@[grind ←] theorem PanicFree.error {e : Error} (h : e ≠ .panicked) :
    PanicFree (.error e : Except Error α) := by
  rintro _ ⟨⟩
  exact h

@[grind ←] theorem PanicFree.bind {r : Except Error α} {f : α → Except Error β} (h : PanicFree r)
    (hf : ∀ a, PanicFree (f a)) : PanicFree (r >>= f) := by
  cases r with
  | ok a => exact hf a
  | error e =>
    rintro _ ⟨⟩
    exact h e rfl

@[grind ←] theorem PanicFree.ensure (c : Bool) {e : Error} (h : e ≠ .panicked) :
    PanicFree (ensure c e) := by
  unfold Connection.ensure
  split <;> grind

@[grind ←] theorem PanicFree.require (c : Bool) : PanicFree (Validation.require c) := by
  unfold Validation.require Validation.messageError
  split <;> grind

theorem PanicFree.passOn {r : Except Error α} {e : Error} (h : PanicFree r) (hr : r = .error e) :
    PanicFree (.error e : Except Error β) := .error (h e hr)

theorem checkRegular_panicFree (h : Header) : PanicFree (Validation.checkRegular h) := by
  unfold Validation.checkRegular
  grind

theorem scanRequest_panicFree (f : Validation.RequestFields) (headers : List Header) :
    PanicFree (Validation.scanRequest f headers) := by
  induction headers generalizing f with
  | nil => exact .ok f
  | cons h headers ih =>
    have hfield : PanicFree
        (if Validation.isPseudo h then Validation.scanPseudo f h else Validation.scanRegular f h) := by
      unfold Validation.scanPseudo Validation.scanRegular Validation.messageError
      split
      · refine PanicFree.bind (.require _) fun _ => PanicFree.bind (.require _) fun _ => ?_
        repeat' split
        all_goals first | exact .error (by decide) | exact .bind (.require _) fun _ => .pure _
      · dsimp only
        grind
    unfold Validation.scanRequest
    split
    · exact hfield.passOn ‹_›
    · exact ih _

theorem validateRequestHeaders_panicFree (headers : List Header) :
    PanicFree (Validation.validateRequestHeaders headers) := by
  refine .bind (scanRequest_panicFree _ _) fun f => ?_
  split
  · exact .error (by decide)
  · have hauthority : ∀ f method, PanicFree (Validation.checkAuthority f method) := fun _ _ => by
      unfold Validation.checkAuthority
      dsimp only
      grind
    have hextended : ∀ f method, PanicFree (Validation.checkExtendedConnect f method) := fun _ _ => by
      unfold Validation.checkExtendedConnect
      grind
    have hordinary : ∀ f method, PanicFree (Validation.checkOrdinary f method) := fun _ _ => by
      unfold Validation.checkOrdinary
      grind
    have hplain : ∀ f, PanicFree (Validation.checkPlainConnect f) := fun _ => by
      refine .bind (.require _) fun _ => ?_
      split
      · exact .error (by decide)
      · exact .require _
    dsimp only
    grind

theorem scanResponse_panicFree (status pseudoDone : Bool) (headers : List Header) :
    PanicFree (Validation.scanResponse status pseudoDone headers) := by
  induction headers generalizing status pseudoDone with
  | nil => exact .ok status
  | cons h headers ih =>
    unfold Validation.scanResponse
    have hstatus : PanicFree (Validation.checkStatusField h) := by
      unfold Validation.checkStatusField
      grind
    split
    · split
      · exact PanicFree.passOn (.bind (.require _) fun _ => .bind (.require _) fun _ => hstatus) ‹_›
      · exact ih _ _
    · split
      · exact (checkRegular_panicFree h).passOn ‹_›
      · exact ih _ _

theorem validateResponseHeaders_panicFree (headers : List Header) :
    PanicFree (Validation.validateResponseHeaders headers) :=
  .bind (scanResponse_panicFree _ _ _) fun _ => .require _

theorem validateHeaders_panicFree (headers : List Header) (role : Role) :
    PanicFree (Validation.validateHeaders headers role) := by
  cases role with
  | server => exact validateRequestHeaders_panicFree headers
  | client => exact validateResponseHeaders_panicFree headers

theorem validateTrailerHeaders_panicFree (headers : List Header) :
    PanicFree (Validation.validateTrailerHeaders headers) := by
  induction headers with
  | nil => exact .ok ()
  | cons h headers ih =>
    unfold Validation.validateTrailerHeaders
    split
    · exact .error (by decide)
    · split
      · exact (checkRegular_panicFree h).passOn ‹_›
      · exact ih

theorem validateContentLength_panicFree (headers : List Header) (size : Nat) (skip : Bool) :
    PanicFree (Validation.validateContentLength headers size skip) := by
  have hscan : ∀ found, PanicFree (Validation.scanContentLength found headers) := by
    induction headers with
    | nil => exact fun found => .ok found
    | cons h headers ih =>
      intro found
      unfold Validation.scanContentLength Validation.messageError
      split
      · split
        · exact .error (by decide)
        · split
          · exact .error (by decide)
          · exact ih _
      · exact ih found
  refine .bind (hscan none) fun found => ?_
  split
  · exact .pure ()
  · exact .require _

theorem checkFieldSectionSize_panicFree (headers : List Header) (peerMax : Option Nat) :
    PanicFree (Validation.checkFieldSectionSize headers peerMax) := by
  unfold Validation.checkFieldSectionSize
  grind

theorem validateWtConnectRequestServer_panicFree (env : Env) (peer : Option Settings) (w : WtState)
    (streamId : Nat) (headers : List Header) :
    PanicFree (validateWtConnectRequestServer env peer w streamId headers) := by
  unfold validateWtConnectRequestServer messageError
  split
  · exact .ok ()
  · refine .bind (.ensure _ (by decide)) fun _ => .bind (.ensure _ (by decide)) fun _ => ?_
    split
    · exact .ok ()
    · refine .bind (.ensure _ (by decide)) fun _ => .bind (.ensure _ (by decide)) fun _ =>
        .bind (.ensure _ (by decide)) fun _ => ?_
      dsimp only
      split
      · grind
      · refine .bind (.ensure _ (by decide)) fun _ => ?_
        split <;> grind

theorem validateWtConnectRequest_panicFree (env : Env) (peer : Option Settings) (w : WtState)
    (headers : List Header) : PanicFree (validateWtConnectRequest env peer w headers) := by
  unfold validateWtConnectRequest messageError
  split
  · exact .ok ()
  · refine .bind (.ensure _ (by decide)) fun _ => ?_
    split
    · exact .error (by decide)
    · refine .bind (.ensure _ (by decide)) fun _ => ?_
      split
      · exact .error (by decide)
      · grind

theorem validateWtResponseProtocol_panicFree (w : WtState) (streamId : Nat) (headers : List Header) :
    PanicFree (validateWtResponseProtocol w streamId headers) := by
  unfold validateWtResponseProtocol messageError
  grind

end PanicFree

/-! ## The ids of a connection -/

/-- Requests are bidirectional streams. -/
def RequestIds {α : Type} (m : IdMap α) : Prop :=
  ∀ k, m.contains k = true → (StreamKind.fromStreamId k).isBidirectional = true

/-- `here` is a stream that is known to be in the table. -/
@[mk_iff]
structure IdsFit (here : Option Nat) (c : Core) : Prop where
  wt : WtFits c.wt
  streams : KeysFit c.streams
  requests : RequestIds c.streams
  next : (StreamKind.fromStreamId c.nextStreamId).isBidirectional = true
  control : ∀ id ∈ c.controlSend.streamId, (StreamKind.fromStreamId id).isUnidirectional = true ∧
    c.qpack.encoderStreamId ≠ some id ∧ c.qpack.decoderStreamId ≠ some id
  present : ∀ x ∈ here, c.streams.contains x = true

abbrev CoreSafe {α : Type} (here : Option Nat) (x : CoreProc α) : Prop :=
  Safe IsPanic (IdsFit here) x

section Core

variable (env : Env) {here : Option Nat} {c : Core}

theorem IdsFit.forget (h : IdsFit here c) : IdsFit none c := { h with present := by simp }

theorem IdsFit.found {streamId : Nat} {stream : RequestStream} (h : IdsFit here c)
    (hs : c.streams.lookup streamId = some stream) : IdsFit (some streamId) c :=
  { h with
    present := by
      rintro x ⟨⟩
      exact (IdMap.contains_iff _ _).mpr ⟨_, hs⟩ }

theorem IdsFit.le_max {streamId : Nat} (h : IdsFit (some streamId) c) :
    streamId ≤ VarInt.max.get := h.streams _ (h.present _ rfl)

/-- A table with the same keys. -/
theorem IdsFit.sameKeys (h : IdsFit here c) {m : IdMap RequestStream}
    (hm : ∀ k, m.contains k = c.streams.contains k) : IdsFit here { c with streams := m } :=
  { h with
    streams := fun k hk => h.streams k (by rw [← hm]; exact hk)
    requests := fun k hk => h.requests k (by rw [← hm]; exact hk)
    present := fun x hx => by
      rw [hm]
      exact h.present x hx }

@[grind ←] theorem IdsFit.modifyStream (h : IdsFit here c) (streamId : Nat)
    (f : RequestStream → RequestStream) : IdsFit here (modifyStream streamId f c) :=
  h.sameKeys fun _ => IdMap.contains_update _ _ _ _

@[grind ←] theorem IdsFit.modifyQpack (h : IdsFit here c) {f : QpackState → QpackState}
    (he : (f c.qpack).encoderStreamId = c.qpack.encoderStreamId)
    (hd : (f c.qpack).decoderStreamId = c.qpack.decoderStreamId) :
    IdsFit here (modifyQpack f c) :=
  { h with
    control := by simpa only [modifyQpack_qpack, modifyQpack_controlSend, he, hd] using h.control }

theorem IdsFit.putStream (h : IdsFit here c) {streamId : Nat} (hle : streamId ≤ VarInt.max.get)
    (hbidi : (StreamKind.fromStreamId streamId).isBidirectional = true) (stream : RequestStream) :
    IdsFit here (putStream streamId stream c) :=
  { h with
    streams := h.streams.insert hle stream
    requests := fun k hk => by
      simp only [Connection.putStream, IdMap.contains_insert, Bool.or_eq_true,
        decide_eq_true_eq] at hk
      rcases hk with rfl | hk
      · exact hbidi
      · exact h.requests k hk
    present := fun x hx => by
      simp only [Connection.putStream, IdMap.contains_insert, h.present x hx, Bool.or_true] }

theorem IdsFit.putHere {streamId : Nat} (h : IdsFit (some streamId) c) (stream : RequestStream) :
    IdsFit (some streamId) (Connection.putStream streamId stream c) :=
  h.putStream h.le_max (h.requests _ (h.present _ rfl)) stream

theorem IdsFit.removeStreamIfDone (h : IdsFit here c) (streamId : Nat) :
    IdsFit none (removeStreamIfDone streamId c) := by
  unfold Connection.removeStreamIfDone
  split
  · refine { h.forget with
      streams := h.streams.erase streamId, requests := fun k hk => ?_, present := by simp }
    rw [IdMap.contains_erase, Bool.and_eq_true] at hk
    exact h.requests k hk.2
  · exact h.forget

@[grind ←] theorem onWt_safe {α : Type} {x : WtProc α} (h : WtSafe x) : CoreSafe here (onWt x) :=
  Safe.zoom (fun _ hc => hc.wt) (fun _ _ hw hc => { hc with wt := hw }) h

/-! ## Frames -/

theorem acknowledgeSection_ids (streamId : Nat) (q : QpackState) :
    (acknowledgeSection streamId q).encoderStreamId = q.encoderStreamId ∧
      (acknowledgeSection streamId q).decoderStreamId = q.decoderStreamId := by
  unfold acknowledgeSection
  split
  · split <;> exact ⟨rfl, rfl⟩
  · exact ⟨rfl, rfl⟩

@[grind ←] theorem decodeSection_safe (streamId : Nat) (encoded : Bytes) :
    CoreSafe here (decodeSection streamId encoded) := by
  unfold decodeSection
  grind

@[grind ←] theorem registerBlocked_fits (h : IdsFit here c) (streamId : Nat) (encoded : Bytes)
    (isTrailer : Bool) : IdsFit here (registerBlocked streamId encoded isTrailer c) :=
  IdsFit.modifyStream (c := { c with
    blockedByRicnt := c.blockedByRicnt.insert
      (c.qpack.dynamicDecoder.lastRequiredInsertCount, streamId) }) { h with } streamId _

@[grind ←] theorem deferWtConnect_safe {streamId : Nat} (headers : List Header) :
    CoreSafe (some streamId) (deferWtConnect streamId headers) := by
  refine Safe.get_bind fun c hc => ?_
  have hle := hc.le_max
  split
  · grind [messageError]
  · refine Safe.bind (by grind) fun _ => ?_
    refine Safe.bind (.modify fun c hc => ?_) fun _ => by grind
    exact hc.modifyQpack (acknowledgeSection_ids _ _).1 (acknowledgeSection_ids _ _).2

@[grind ←] theorem registerWtConnectSession_safe {streamId : Nat} (hs : streamId ≤ VarInt.max.get)
    (headers : List Header) : CoreSafe here (registerWtConnectSession env streamId headers) := by
  unfold registerWtConnectSession
  grind

@[grind ←] theorem reportHeaders_safe (streamId : Nat) (headers : List Header) :
    CoreSafe here (reportHeaders streamId headers) := by
  refine Safe.bind (.modify fun c hc => ?_) fun _ => by grind
  exact hc.modifyQpack (acknowledgeSection_ids _ _).1 (acknowledgeSection_ids _ _).2

@[grind ←] theorem noteConnectResponse_safe (streamId : Nat) (headers : List Header) :
    CoreSafe here (noteConnectResponse env streamId headers) := by
  unfold noteConnectResponse
  grind

@[grind ←] theorem acceptHeaders_safe {streamId : Nat} (hs : streamId ≤ VarInt.max.get)
    (headers : List Header) : CoreSafe here (acceptHeaders env streamId headers) := by
  unfold acceptHeaders
  grind

@[grind ←] theorem emitHeaderEvents_safe (streamId : Nat) (headers : List Header)
    (isTrailer : Bool) :
    CoreSafe (some streamId) (emitHeaderEvents env streamId headers isTrailer) := by
  unfold emitHeaderEvents
  split
  · exact Safe.bind (.ofExcept (validateTrailerHeaders_panicFree headers)) fun _ => by grind
  · refine Safe.bind (.ofExcept (validateHeaders_panicFree headers _)) fun _ => ?_
    refine Safe.get_bind fun c hc => ?_
    have hle := hc.le_max
    refine Safe.bind (.ofExcept (validateWtConnectRequestServer_panicFree _ _ _ _ _)) fun _ => ?_
    split <;> grind

@[grind ←] theorem processSection_safe (streamId : Nat) (encoded : Bytes) (isTrailer : Bool) :
    CoreSafe (some streamId) (processSection env streamId encoded isTrailer) := by
  unfold processSection
  refine Safe.bind (by grind) fun output => ?_
  split
  · grind
  · refine Safe.get_bind fun c hc => ?_
    split
    · grind
    · exact Safe.bind (.modify fun c hc => registerBlocked_fits hc _ _ _) fun _ => by grind

@[grind ←] theorem processData_safe (streamId bodyLen : Nat) (data : Bytes) :
    CoreSafe here (processData env streamId bodyLen data) := by
  unfold processData
  grind

@[grind ←] theorem processStreamEnd_safe (streamId : Nat) (stream : RequestStream) :
    CoreSafe here (processStreamEnd env streamId stream) := by
  unfold processStreamEnd
  refine Safe.bind (.ofExcept (validateContentLength_panicFree _ _ _)) fun _ => ?_
  grind

theorem processHeaders_panicFree (s : RequestStream) (encoded : Bytes) :
    PanicFree (s.processHeaders encoded).1 := by
  unfold RequestStream.processHeaders
  repeat' split
  all_goals first | exact .ok _ | exact .error (by decide)

theorem processData_panicFree (s : RequestStream) (data : Bytes) : PanicFree (s.processData data).1 := by
  unfold RequestStream.processData
  repeat' split
  all_goals first | exact .ok _ | exact .error (by decide)

theorem processEmpty_panicFree (s : RequestStream) : PanicFree s.processEmpty.1 := by
  unfold RequestStream.processEmpty
  repeat' split
  all_goals first | exact .ok _ | exact .error (by decide)

theorem nextFrame_panicFree (s : RequestStream) : PanicFree s.nextFrame.1 := by
  unfold RequestStream.nextFrame RequestStream.frameError ControlStreamRecv.frameHeaderError
  dsimp only
  repeat' split
  all_goals first | exact .ok _ | exact .error (by simp)

theorem processRaw_panicFree (s : RequestStream) : PanicFree s.processRaw.1 := by
  have hloop : ∀ fuel s, PanicFree (RequestStream.processRawLoop fuel s).1 := by
    intro fuel
    induction fuel with
    | zero => exact fun s => .ok none
    | succ fuel ih =>
      intro s
      have hnext := nextFrame_panicFree s
      unfold RequestStream.processRawLoop
      split
      · exact processEmpty_panicFree s
      · split <;> (rename_i heq; rw [heq] at hnext)
        · exact hnext.passOn rfl
        · exact .ok none
        · exact processHeaders_panicFree _ _
        · exact processData_panicFree _ _
        · exact ih _
        · exact .error (by decide)
  exact hloop _ s

@[grind ←] theorem processStreamFrame_safe (streamId : Nat) :
    CoreSafe (some streamId) (processStreamFrame env streamId) := by
  refine Safe.get_bind fun c hc => ?_
  obtain ⟨stream, hstream⟩ := (IdMap.contains_iff _ _).mp (hc.present streamId rfl)
  rw [hstream]
  dsimp only
  refine Safe.bind (.modify fun c hc => hc.putHere _) fun _ => ?_
  refine Safe.bind (.ofExcept (processRaw_panicFree stream)) fun r => ?_
  split <;> grind

/-- The stream may leave the table at the end. -/
theorem processStreamFrames_leads (streamId : Nat) :
    Leads IsPanic (IdsFit (some streamId)) (IdsFit none) (processStreamFrames env streamId) := by
  refine .bind (fun _ h => h.forget) (by grind) fun c => ?_
  refine .bind (fun _ h => h.forget) (by grind) fun _ => ?_
  exact .modify fun c hc => hc.removeStreamIfDone streamId

theorem checkRetriedBody_panicFree (c : Core) (streamId : Nat) (headers : List Header)
    (isTrailer : Bool) : PanicFree (checkRetriedBody env c streamId headers isTrailer) := by
  unfold checkRetriedBody
  split
  · split
    · exact validateContentLength_panicFree _ _ _
    · exact .ok ()
  · exact .ok ()

@[grind ←] theorem retryStream_safe (streamId : Nat) :
    CoreSafe none (retryStream env streamId) := by
  refine Safe.of_leads (.get_bind fun c hc => ?_)
  split
  · exact ⟨IdsFit none, hc, .of_safe (by grind) fun _ h => h⟩
  · rename_i encoded isTrailer hblocked
    obtain ⟨stream, hs, -⟩ := Option.bind_eq_some_iff.mp hblocked
    refine ⟨IdsFit (some streamId), hc.found hs, ?_⟩
    refine .bind (fun _ h => h.forget) (by grind) fun _ => ?_
    refine .bind (fun _ h => h.forget) (by grind) fun output => ?_
    split
    · refine .bind (fun _ h => h.forget) (by grind) fun _ => ?_
      refine .bind (fun _ h => h.forget) (by grind) fun _ => ?_
      refine .bind (fun _ h => h.forget) (by grind) fun c => ?_
      refine .bind (fun _ h => h.forget) 
        (.ofExcept (checkRetriedBody_panicFree env c _ _ _)) fun _ => ?_
      exact .bind (fun _ h => h.forget) (by grind) fun _ => processStreamFrames_leads env streamId
    · exact .modify fun c hc => (registerBlocked_fits hc _ _ _).forget

@[grind ←] theorem retryBlockedStreams_safe : CoreSafe none (retryBlockedStreams env) := by
  refine Safe.bind (by grind) fun c => Safe.bind (.modify fun c hc => { hc with }) fun _ => ?_
  exact Safe.each _ fun e _ => retryStream_safe env e.2

/-! ## The other streams of the peer -/

@[grind ←] theorem processEncoderStream_safe : CoreSafe here processEncoderStream := by
  unfold processEncoderStream processEncoderInstruction
  grind

@[grind ←] theorem processDecoderStream_safe : CoreSafe here processDecoderStream := by
  have hchecked : ∀ q i, PanicFree (applyDecoderInstruction q i) := by
    intro q i
    unfold applyDecoderInstruction
    repeat' split
    all_goals first | exact .ok _ | exact .error (by decide)
  have hone : ∀ n, CoreSafe here (processDecoderInstruction n) := by
    intro n
    unfold processDecoderInstruction
    refine Safe.bind (by grind) fun c => Safe.bind (by grind) fun _ => ?_
    split
    · refine Safe.bind (by grind) fun c => ?_
      exact Safe.bind (.ofExcept (hchecked _ _)) fun _ => by grind
    · grind
    · grind
  unfold processDecoderStream
  grind

/-- The capacity is clamped, so it can be set. -/
theorem applyTableCapacity_ok (limits : Limits) (capacity : Nat) (q : QpackState) :
    ∃ r, applyTableCapacity limits capacity q = .ok r := by
  have hle : min capacity limits.qpackMaxTableCapacity ≤ capacity := Nat.min_le_left _ _
  have hset : ¬min capacity limits.qpackMaxTableCapacity >
      (q.encoder.setMaxTableCapacity capacity).maxTableCapacity := Nat.not_lt.mpr hle
  unfold applyTableCapacity
  simp only [Qpack.DynamicEncoder.setTableCapacity, if_neg hset]
  split
  · rename_i hpos
    have hencode : ∃ s, (q.encoderStream.setMaxTableCapacity capacity).encodeSetCapacity
        (min capacity limits.qpackMaxTableCapacity) = .ok s := by
      have hmax : ¬((q.encoderStream.setMaxTableCapacity capacity).maxTableCapacity ≠ 0 ∧
          min capacity limits.qpackMaxTableCapacity >
            (q.encoderStream.setMaxTableCapacity capacity).maxTableCapacity) :=
        fun h => absurd h.2 (Nat.not_lt.mpr hle)
      have henabled : (q.encoderStream.setMaxTableCapacity capacity).maxTableCapacity ≠ 0 :=
        Nat.ne_of_gt (Nat.lt_of_lt_of_le hpos hle)
      rw [Qpack.EncoderStream.encodeSetCapacity, if_neg hmax, Qpack.EncoderStream.push,
        if_neg henabled]
      exact ⟨_, rfl⟩
    obtain ⟨s, hs⟩ := hencode
    split
    · rw [hs]
      exact ⟨_, rfl⟩
    · exact ⟨_, rfl⟩
  · exact ⟨_, rfl⟩

theorem applyQpackSettings_ok (limits : Limits) (settings : Settings) (q : QpackState) :
    ∃ r, applyQpackSettings limits settings q = .ok r := by
  unfold applyQpackSettings
  split
  · rename_i capacity _
    obtain ⟨r, hr⟩ := applyTableCapacity_ok limits capacity.get q
    rw [hr]
    exact ⟨_, rfl⟩
  · exact ⟨_, rfl⟩

theorem applyQpackSettings_panicFree (limits : Limits) (settings : Settings) (q : QpackState) :
    PanicFree (applyQpackSettings limits settings q) := by
  obtain ⟨r, hr⟩ := applyQpackSettings_ok limits settings q
  rw [hr]
  exact .ok r

theorem applyBlockedStreams_ids (settings : Settings) (q : QpackState) :
    (applyBlockedStreams settings q).encoderStreamId = q.encoderStreamId ∧
      (applyBlockedStreams settings q).decoderStreamId = q.decoderStreamId := by
  unfold applyBlockedStreams
  split <;> exact ⟨rfl, rfl⟩

theorem applyQpackSettings_ids {limits : Limits} {settings : Settings} {q r : QpackState}
    (h : applyQpackSettings limits settings q = .ok r) :
    r.encoderStreamId = q.encoderStreamId ∧ r.decoderStreamId = q.decoderStreamId := by
  have hcapacity : ∀ capacity t, applyTableCapacity limits capacity q = .ok t →
      t.encoderStreamId = q.encoderStreamId ∧ t.decoderStreamId = q.decoderStreamId := by
    intro capacity t ht
    unfold applyTableCapacity at ht
    dsimp only at ht
    repeat' split at ht
    all_goals
      cases ht
      try exact ⟨rfl, rfl⟩
  unfold applyQpackSettings at h
  split at h
  · rename_i capacity _
    cases hq : applyTableCapacity limits capacity.get q with
    | ok t =>
      rw [hq] at h
      cases h
      have ht := hcapacity _ t hq
      rw [(applyBlockedStreams_ids settings t).1, (applyBlockedStreams_ids settings t).2]
      exact ht
    | error e =>
      rw [hq] at h
      cases h
  · cases h
    exact applyBlockedStreams_ids settings q

@[grind ←] theorem processDeferredWtConnect_safe {streamId : Nat}
    (hs : streamId ≤ VarInt.max.get) (headers : List Header) :
    CoreSafe here (processDeferredWtConnect env streamId headers) := by
  refine Safe.bind (by grind) fun c => ?_
  refine Safe.bind (.ofExcept (validateWtConnectRequestServer_panicFree _ _ _ _ _)) fun _ => ?_
  grind

@[grind ←] theorem processDeferredWtConnects_safe :
    CoreSafe here (processDeferredWtConnects env) := by
  refine Safe.get_bind fun c hc => ?_
  dsimp only
  refine Safe.bind (onWt_safe (.modify fun w hw => { hw with deferred := .empty })) fun _ => ?_
  refine Safe.each _ fun streamId hid => processDeferredWtConnect_safe env ?_ _
  exact hc.wt.deferred streamId
    ((IdMap.contains_iff_mem_keys _ _).mpr ((env.order.perm _ _).mem_iff.mp hid))

@[grind ←] theorem processPendingWtBidiPreNegotiation_safe :
    CoreSafe here (processPendingWtBidiPreNegotiation env) := by
  unfold processPendingWtBidiPreNegotiation
  grind

theorem checkWtSettings_panicFree (w : WtState) (settings : Settings) :
    PanicFree (checkWtSettings env w settings) := by
  unfold checkWtSettings
  grind

@[grind ←] theorem handleSettings_safe (settings : Settings) :
    CoreSafe here (handleSettings env settings) := by
  have hrest : CoreSafe here (processDeferredWtConnects env >>= fun _ =>
      processPendingWtBidiPreNegotiation env) := by grind
  refine Safe.of_leads (.get_bind fun c hc => ⟨fun d => d = c, rfl, ?_⟩)
  refine .ofExcept_bind (fun d hd => hd ▸ hc) (applyQpackSettings_panicFree _ _ _) fun q hq => ?_
  refine .modify_bind (K := IdsFit here) (fun d hd => ?_) (.of_safe ?_ fun _ h => h)
  · have hids := applyQpackSettings_ids hq
    subst hd
    exact hc.modifyQpack (f := fun _ => q) hids.1 hids.2
  · refine Safe.bind (.ofExcept (checkWtSettings_panicFree env _ _)) fun _ => ?_
    exact Safe.bind (.modify fun c hc => { hc with }) fun _ => Safe.bind (.emit _) fun _ => hrest

@[grind ←] theorem handleGoaway_safe (id : VarInt) : CoreSafe here (handleGoaway env id) := by
  have hmodify : CoreSafe here (modify fun c => { c with peerGoawayLastId := some id }) :=
    .modify fun c hc => { hc with }
  unfold handleGoaway
  grind

@[grind ←] theorem handleMaxPushId_safe (id : VarInt) :
    CoreSafe here (handleMaxPushId env id) := by
  have hmodify : CoreSafe here (modify fun c => { c with maxPushId := some id }) :=
    .modify fun c hc => { hc with }
  unfold handleMaxPushId
  grind

theorem controlProcess_panicFree (s : ControlStreamRecv) : PanicFree s.process.1 := by
  unfold ControlStreamRecv.process ControlStreamRecv.processFrame ControlStreamRecv.frameError
    ControlStreamRecv.frameHeaderError
  dsimp only
  repeat' split
  all_goals first | exact .ok _ | exact .error (by simp)

@[grind ←] theorem processControlStream_safe : CoreSafe here (processControlStream env) := by
  have hone : CoreSafe here (processControlFrame env) := by
    refine Safe.bind (by grind) fun c => ?_
    refine Safe.bind (.modify fun c hc => { hc with }) fun _ => ?_
    refine Safe.bind (.ofExcept (controlProcess_panicFree _)) fun r => ?_
    unfold handleControlFrame
    split
    · refine Safe.bind ?_ fun _ => by grind
      split <;> grind
    · grind
  unfold processControlStream
  grind

/-! ## Bytes from QUIC -/

theorem ensureStream_fits {streamId : Nat} (hc : IdsFit none c) (hle : streamId ≤ VarInt.max.get)
    (hbidi : (StreamKind.fromStreamId streamId).isBidirectional = true) :
    IdsFit (some streamId) (ensureStream env streamId c) := by
  unfold ensureStream
  split
  · rename_i h
    exact { hc with present := by rintro x ⟨⟩; exact h }
  · refine { hc.putStream hle hbidi _ with present := ?_ }
    rintro x ⟨⟩
    simp [putStream]

@[grind ←] theorem handleBidirectionalStream_safe {streamId : Nat}
    (hle : streamId ≤ VarInt.max.get)
    (hbidi : (StreamKind.fromStreamId streamId).isBidirectional = true) (data : Bytes)
    (fin : Bool) : CoreSafe none (handleBidirectionalStream env streamId data fin) := by
  refine Safe.bind (by grind) fun c => ?_
  split
  · grind [messageError]
  split
  · grind
  · refine Safe.of_leads (.modify_bind (K := IdsFit (some streamId))
      (fun c hc => ensureStream_fits env hc hle hbidi) ?_)
    refine .bind (fun _ h => h.forget) (by grind) fun _ => ?_
    refine .bind (fun _ h => h.forget) (by grind) fun c => ?_
    split
    · exact .of_safe (.ret ()) fun _ h => h.forget
    · exact processStreamFrames_leads env streamId

theorem dispatch_safe (streamId : Nat) (buf : Bytes) :
    WtSafe (modify (setDispatch streamId buf)) ∧ WtSafe (modify (dropDispatch streamId)) :=
  ⟨.modify fun _ hw => { hw with }, .modify fun _ hw => { hw with }⟩

@[grind ←] theorem dispatchWtStream_safe (streamId : Nat) (buf : Bytes) (fin : Bool) :
    CoreSafe here (dispatchWtStream env streamId buf fin) := by
  unfold dispatchWtStream
  grind

@[grind ←] theorem dispatchClientBidiStream_safe {streamId : Nat}
    (hle : streamId ≤ VarInt.max.get)
    (hbidi : (StreamKind.fromStreamId streamId).isBidirectional = true) (data : Bytes)
    (fin : Bool) : CoreSafe none (dispatchClientBidiStream env streamId data fin) := by
  have hset := fun buf => (dispatch_safe streamId buf).1
  have hdrop := (dispatch_safe streamId []).2
  refine Safe.bind (by grind) fun c => ?_
  dsimp only
  split
  · grind
  · split
    · grind
    · split <;> grind

@[grind ←] theorem checkCriticalFin_panicFree (streamId : Nat) (c : Core) :
    PanicFree (checkCriticalFin streamId c) := by
  unfold checkCriticalFin
  grind

@[grind ←] theorem receiveControl_safe (data : Bytes) :
    CoreSafe here (receiveControl env data) :=
  Safe.bind (.modify fun _ hc => { hc with }) fun _ => processControlStream_safe env

@[grind ←] theorem receiveEncoderStream_safe (data : Bytes) :
    CoreSafe here (receiveEncoderStream data) := by
  unfold receiveEncoderStream
  grind

@[grind ←] theorem receiveDecoderStream_safe (data : Bytes) :
    CoreSafe here (receiveDecoderStream data) := by
  unfold receiveDecoderStream
  grind

@[grind ←] theorem openUniStream_safe (streamId streamType : Nat) (remaining : Bytes) :
    CoreSafe here (openUniStream env streamId streamType remaining) := by
  refine Safe.bind (by grind) fun c => ?_
  split
  · split
    · grind
    · exact Safe.bind (.modify fun _ hc => { hc with }) fun _ => by grind
  · grind
  · grind
  · grind
  · grind
  · exact .modify fun c hc => { hc with }

@[grind ←] theorem handleNewUnidirectionalStream_safe (streamId : Nat) (data : Bytes)
    (fin : Bool) : CoreSafe here (handleNewUnidirectionalStream env streamId data fin) := by
  have hset : ∀ f : Core → IdMap Bytes,
      CoreSafe here (modify fun c => { c with pendingUniStreams := f c }) :=
    fun f => .modify fun c hc => { hc with }
  refine Safe.bind (by grind) fun c => ?_
  dsimp only
  split
  · split
    · exact hset fun c => c.pendingUniStreams.erase streamId
    · exact hset fun c => c.pendingUniStreams.insert streamId _
  · refine Safe.bind (hset fun c => c.pendingUniStreams.erase streamId) fun _ => ?_
    refine Safe.bind (by grind) fun _ => ?_
    split
    · refine Safe.bind (by grind) fun c => ?_
      exact Safe.bind (.ofExcept (checkCriticalFin_panicFree streamId c)) fun _ => by grind
    · grind

@[grind ←] theorem finishUni_safe (streamId : Nat) : CoreSafe here (finishUni env streamId) := by
  refine Safe.bind (by grind) fun c => ?_
  refine Safe.bind (.ofExcept (checkCriticalFin_panicFree streamId c)) fun _ => ?_
  refine Safe.bind (by grind) fun _ => Safe.bind (by grind) fun _ => ?_
  exact .modify fun c hc => { hc with }

@[grind ←] theorem handleUnidirectionalStream_safe (streamId : Nat) (data : Bytes) (fin : Bool) :
    CoreSafe here (handleUnidirectionalStream env streamId data fin) := by
  have hfinish : CoreSafe here (if fin then finishUni env streamId else ret () : CoreProc Unit) := by
    grind
  unfold handleUnidirectionalStream
  grind

theorem isBidirectional_of_not_uni {kind : StreamKind} (h : ¬kind.isUnidirectional = true) :
    kind.isBidirectional = true := by
  cases kind <;> first | rfl | exact absurd rfl h

theorem feedStreamInner_safe {streamId : Nat} (hle : streamId ≤ VarInt.max.get) (data : Bytes)
    (fin : Bool) : CoreSafe none (feedStreamInner env streamId data fin) := by
  refine Safe.bind (by grind) fun c => ?_
  dsimp only
  split
  · grind
  · have hbidi := isBidirectional_of_not_uni ‹_›
    have hrequest : CoreSafe none (attempt (handleBidirectionalStream env streamId data fin) >>=
        fun r => modify (removeStreamIfDone streamId) >>= fun _ => Proc.ofExcept r) :=
      Safe.attempt (by grind) fun r hr =>
        Safe.bind (.modify fun c hc => hc.removeStreamIfDone streamId) fun _ => .ofExcept hr
    grind

theorem feedDatagramInner_safe (data : Bytes) : CoreSafe here (feedDatagramInner env data) := by
  refine Safe.bind (by grind) fun c => ?_
  split
  · split
    · grind
    · rename_i d hd
      have hle := decode_sessionId_le hd
      grind
  · grind

/-! ## RESET_STREAM and STOP_SENDING -/

@[grind ←] theorem clearQpackBlocked_fits (hc : IdsFit here c) (streamId : Nat) :
    IdsFit here (clearQpackBlocked streamId c) := by
  unfold clearQpackBlocked
  split
  · rename_i stream hs
    refine { hc.sameKeys fun k => ?_ with }
    by_cases hk : k = streamId
    · subst hk
      simp only [IdMap.contains_insert, decide_true, Bool.true_or]
      exact ((IdMap.contains_iff _ _).mpr ⟨_, hs⟩).symm
    · rw [IdMap.contains_insert, decide_eq_false hk, Bool.false_or]
  · exact hc

@[grind ←] theorem sendStreamCancellation_safe (streamId : Nat) :
    CoreSafe here (modify (modifyQpack (sendStreamCancellationIfNeeded env streamId))) := by
  refine .modify fun c hc => hc.modifyQpack ?_ ?_ <;>
    (unfold sendStreamCancellationIfNeeded; repeat' split) <;> rfl

@[grind ←] theorem reportUnless_safe {wt : WtProc Bool} (h : WtSafe wt) (e : Event) :
    CoreSafe here (reportUnless wt e) := by
  unfold reportUnless
  grind

theorem streamResetInner_safe (streamId errorCode finalSize : Nat) :
    CoreSafe none (streamResetInner env streamId errorCode finalSize) := by
  have hdrop := (dispatch_safe streamId []).2
  have hremove : CoreSafe none (modify (removeStreamIfDone streamId)) :=
    .modify fun c hc => hc.removeStreamIfDone streamId
  unfold streamResetInner
  grind

theorem stopSendingInner_safe (streamId errorCode : Nat) :
    CoreSafe none (stopSendingInner env streamId errorCode) := by
  have hremove : CoreSafe none (modify (removeStreamIfDone streamId)) :=
    .modify fun c hc => hc.removeStreamIfDone streamId
  unfold stopSendingInner
  grind

end Core

end Connection

end Http3
