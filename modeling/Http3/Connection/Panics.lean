import Http3.Framing
import Http3.Qpack.Section
import Http3.Qpack.Instruction
import Http3.Connection.StreamIds

/-!
# Calls that cannot panic

What the peer sends never makes the connection panic. What remains are the lengths that the
application passes in: `consumeStreamData` checks its length on the QPACK streams only, and a
frame has to have a length that a QUIC integer can hold.
-/

namespace Http3

namespace Connection

open Proc

section Calls

variable (env : Env) {c : Core}

/-! ## The local streams -/

@[grind ←] theorem setControlStreamId_safe (streamId : Nat) :
    CoreSafe none (setControlStreamId env streamId) := by
  refine Safe.ofExcept_bind (PanicFree.ensure _ (by decide)) fun _ h => ?_
  have huni := isUnidirectional_of_validate env h
  refine Safe.of_leads (.get_bind fun c hc => ⟨fun d => d = c, rfl, ?_⟩)
  split
  · exact .of_safe (.throw (by simp [IsPanic])) fun d hd => hd ▸ hc
  · rename_i hfree
    refine .modify fun d hd => ?_
    subst hd
    refine { hc with control := ?_ }
    rintro id ⟨⟩
    simp only [Bool.or_eq_true, decide_eq_true_eq, not_or] at hfree
    exact ⟨huni, hfree.1.2, hfree.2⟩

/-- The state of the encoder stream does not matter for ids. -/
theorem encoderStream_fits {here : Option Nat} (hc : IdsFit here c)
    (stream : Qpack.EncoderStream) :
    IdsFit here (modifyQpack (fun q => { q with encoderStream := stream }) c) :=
  hc.modifyQpack rfl rfl

@[grind ←] theorem setEncoderStreamId_safe (streamId : Nat) :
    CoreSafe none (setEncoderStreamId env streamId) := by
  refine Safe.ofExcept_bind (PanicFree.ensure _ (by decide)) fun _ _ => ?_
  refine Safe.of_leads (.get_bind fun c hc => ⟨fun d => d = c, rfl, ?_⟩)
  split
  · exact .of_safe (.throw (by simp [IsPanic])) fun d hd => hd ▸ hc
  · rename_i hfree
    simp only [Bool.or_eq_true, decide_eq_true_eq, not_or] at hfree
    refine .modify_bind (K := IdsFit none) (fun d hd => ?_) (.of_safe ?_ fun _ h => h)
    · subst hd
      refine { hc with control := fun id hid => ⟨(hc.control id hid).1, ?_, (hc.control id hid).2.2⟩ }
      rintro ⟨⟩
      exact hfree.1.2 hid
    · split
      · exact .ret ()
      · split
        · exact .modify fun c hc => encoderStream_fits hc _
        · exact .throw (by simp [IsPanic])

@[grind ←] theorem setDecoderStreamId_safe (streamId : Nat) :
    CoreSafe none (setDecoderStreamId env streamId) := by
  refine Safe.ofExcept_bind (PanicFree.ensure _ (by decide)) fun _ _ => ?_
  refine Safe.of_leads (.get_bind fun c hc => ⟨fun d => d = c, rfl, ?_⟩)
  split
  · exact .of_safe (.throw (by simp [IsPanic])) fun d hd => hd ▸ hc
  · rename_i hfree
    simp only [Bool.or_eq_true, decide_eq_true_eq, not_or] at hfree
    refine .modify fun d hd => ?_
    subst hd
    refine { hc with control := fun id hid => ⟨(hc.control id hid).1, (hc.control id hid).2.1, ?_⟩ }
    rintro ⟨⟩
    exact hfree.1.2 hid

/-! ## Taking queued bytes -/

/-- Is the length within what is queued? On the QPACK streams any length will do. -/
def consumable (c : Core) (streamId len : Nat) : Bool :=
  if c.controlSend.streamId = some streamId then len ≤ c.controlSend.sendBuf.peek.length
  else if c.qpack.encoderStreamId = some streamId || c.qpack.decoderStreamId = some streamId then
    true
  else (c.streams.lookup streamId).all fun s => len ≤ s.sendBuf.peek.length

theorem consumable_zero (c : Core) (streamId : Nat) : consumable c streamId 0 = true := by
  unfold consumable
  repeat' split
  all_goals simp

/-- The bytes that are handed out can be consumed at once. -/
theorem consumable_of_queued {streamId : Nat} {data : Bytes} (hc : IdsFit none c)
    (h : queuedData c streamId = some data) : consumable c streamId data.length = true := by
  unfold consumable
  by_cases hcontrol : c.controlSend.streamId = some streamId
  · obtain ⟨huni, hencoder, hdecoder⟩ := hc.control streamId hcontrol
    have hnone : c.streams.lookup streamId = none := by
      rw [← Option.not_isSome_iff_eq_none]
      intro hs
      have hbidi := hc.requests streamId hs
      cases hkind : StreamKind.fromStreamId streamId <;>
        simp [hkind, StreamKind.isUnidirectional, StreamKind.isBidirectional] at huni hbidi
    have hdata : c.controlSend.sendBuf.peek = data := by
      simp only [queuedData, hcontrol, hencoder, hdecoder, hnone, if_true, if_false,
        Option.bind_none] at h
      split at h
      · cases h
      · cases h
        rfl
    rw [if_pos hcontrol, hdata]
    exact decide_eq_true (Nat.le_refl _)
  · rw [if_neg hcontrol]
    split
    · rfl
    · rename_i hqpack
      simp only [Bool.or_eq_true, decide_eq_true_eq, not_or] at hqpack
      simp only [queuedData, hcontrol, hqpack.1, hqpack.2, if_false] at h
      cases hs : c.streams.lookup streamId with
      | none => rfl
      | some stream =>
        have hdata : stream.sendBuf.peek = data := by
          simp only [hs] at h
          change (if stream.sendBuf.peek.isEmpty then none else some stream.sendBuf.peek) = _ at h
          split at h
          · cases h
          · cases h
            rfl
        rw [Option.all_some, hdata]
        exact decide_eq_true (Nat.le_refl _)

theorem consume_some {b : SendBuffer} {len : Nat} (h : len ≤ b.peek.length) :
    ∃ d, b.consume len = some d := ⟨_, if_pos h⟩

theorem consumeStreamData_leads (streamId len : Nat) :
    Leads IsPanic (fun c => IdsFit none c ∧ consumable c streamId len = true) (IdsFit none)
      (consumeStreamData streamId len) := by
  refine .get_bind fun c hc => ⟨fun d => d = c, rfl, ?_⟩
  obtain ⟨hc, hlen⟩ := hc
  unfold consumable at hlen
  split
  · rename_i hcontrol
    rw [if_pos hcontrol, decide_eq_true_eq] at hlen
    obtain ⟨sendBuf, hsend⟩ := consume_some hlen
    rw [hsend]
    exact .modify fun d hd => hd ▸ { hc with }
  rename_i hcontrol
  rw [if_neg hcontrol] at hlen
  split
  · exact .modify fun d hd => hd ▸ hc.modifyQpack rfl rfl
  split
  · exact .modify fun d hd => hd ▸ hc.modifyQpack rfl rfl
  rename_i hencoder hdecoder
  simp only [hencoder, hdecoder, decide_false, Bool.or_false, Bool.false_eq_true, if_false] at hlen
  split
  · exact .of_safe (.ret ()) fun d hd => hd ▸ hc
  · rename_i stream hs
    rw [hs, Option.all_some, decide_eq_true_eq] at hlen
    obtain ⟨sendBuf, hsend⟩ := consume_some hlen
    rw [RequestStream.consumeSendData, hsend]
    refine .modify_bind (K := IdsFit none) (fun d hd => hd ▸ ?_) (.modify fun d hd => ?_)
    · exact ((hc.found hs).putHere _).forget
    · exact hd.removeStreamIfDone streamId

theorem getStreamData_consumable (streamId : Nat) (hc : IdsFit none c) :
    (IdsFit none (getStreamData env streamId c).st ∧
      ∀ e, (getStreamData env streamId c).val = .error e → ¬IsPanic e) ∧
    ∀ data fin, (getStreamData env streamId c).val = .ok (some (data, fin)) →
      consumable (getStreamData env streamId c).st streamId data.length = true := by
  have hsafe : CoreSafe none (getStreamData env streamId) := by
    unfold getStreamData
    grind
  refine ⟨hsafe c hc, fun data fin h => ?_⟩
  unfold getStreamData at h ⊢
  simp only [get_bind] at h ⊢
  split at h
  · have hdata : data = [] := by
      simp only [bind_run, modify_run] at h
      split at h
      · cases h
      · cases h
        rfl
    rw [hdata]
    exact consumable_zero _ _
  · rename_i hfin
    rw [if_neg hfin]
    obtain ⟨bytes, hbytes, hpair⟩ := Option.map_eq_some_iff.mp (Except.ok.inj h)
    cases hpair
    exact consumable_of_queued hc hbytes

@[grind ←] theorem takeStreamData_safe (streamId : Nat) :
    CoreSafe none (takeStreamData env streamId) := by
  intro c hc
  obtain ⟨hsafe, hlen⟩ := getStreamData_consumable env streamId hc
  unfold takeStreamData
  rw [bind_run]
  rcases hx : getStreamData env streamId c with ⟨val, d, out⟩
  rw [hx] at hsafe hlen
  cases val with
  | error e => exact hsafe
  | ok r =>
    rcases r with _ | ⟨data, fin⟩
    · exact ⟨hsafe.1, nofun⟩
    · dsimp only
      split
      · exact ⟨hsafe.1, nofun⟩
      · have hconsume := consumeStreamData_leads streamId data.length d ⟨hsafe.1, hlen _ _ rfl⟩
        rw [bind_run]
        rcases hy : consumeStreamData streamId data.length d with ⟨val, d', out'⟩
        rw [hy] at hconsume
        cases val with
        | error e => exact ⟨hconsume.1, fun e' he => hconsume.2 e' (by cases he; rfl)⟩
        | ok _ => exact ⟨hconsume.1, nofun⟩

@[grind ←] theorem takeBytes_safe (streamId : Nat) : CoreSafe none (takeBytes env streamId) := by
  unfold takeBytes
  grind

theorem initH3Streams_safe (control encoder decoder : Nat) :
    CoreSafe none (initH3Streams env control encoder decoder) := by
  unfold initH3Streams
  grind

/-! ## Field sections and bodies -/

/-- The largest buffer into which a field section is encoded. -/
def sectionLimit (headers : List Header) : Nat := (Qpack.estimateEncodedSize headers + 64) * 8

theorem encodeTries_length {headers : List Header} {blocked tries bufSize : Nat}
    {e : Qpack.DynamicEncoder} {encoded : Bytes}
    (h : (encodeTries headers blocked tries bufSize e).1 = .ok encoded) :
    encoded.length * 2 ≤ bufSize * 2 ^ tries := by
  induction tries generalizing bufSize e with
  | zero => cases h
  | succ tries ih =>
    unfold encodeTries at h
    split at h
    · rename_i bytes _ hencode
      cases h
      have hfit : encoded.length ≤ bufSize := by
        unfold Qpack.DynamicEncoder.encode at hencode
        split at hencode <;> obtain ⟨rfl, hle⟩ := Qpack.fit_eq_some (congrArg Prod.fst hencode) <;>
          exact hle
      rw [Nat.pow_succ]
      exact (Nat.mul_le_mul_right 2 hfit).trans
        (Nat.mul_le_mul_left bufSize (Nat.le_mul_of_pos_left 2 (Nat.two_pow_pos tries)))
    · split at h
      · rw [Nat.pow_succ', ← Nat.mul_assoc]
        exact ih h
      · cases h

theorem encodeQpackHeaders_length {headers : List Header} {encoded : Bytes}
    (h : (encodeQpackHeaders headers c).val = .ok encoded) :
    encoded.length ≤ sectionLimit headers := by
  have hlen := encodeTries_length (by simpa only [encodeQpackHeaders, get_bind, modify_bind,
    ofExcept_run] using h)
  unfold sectionLimit
  omega

theorem encodeTries_panicFree (headers : List Header) (blocked tries bufSize : Nat)
    (e : Qpack.DynamicEncoder) : PanicFree (encodeTries headers blocked tries bufSize e).1 := by
  induction tries generalizing bufSize e with
  | zero => exact .error (by decide)
  | succ tries ih =>
    unfold encodeTries
    split
    · exact .ok _
    · split
      · exact ih _ _
      · exact .error (by decide)

@[grind ←] theorem encodeQpackHeaders_safe (headers : List Header) :
    CoreSafe none (encodeQpackHeaders headers) := by
  refine Safe.bind .get fun c => Safe.bind (.modify fun c hc => ?_) fun _ => ?_
  · exact hc.modifyQpack rfl rfl
  · exact .ofExcept (encodeTries_panicFree _ _ _ _ _)

/-- A payload whose length a QUIC integer can hold. -/
theorem encodeWithHeader_some {payload : Bytes} (h : payload.length ≤ VarInt.max.get)
    (frameType : VarInt) : ∃ frame, encodeWithHeader frameType payload = some frame := by
  unfold encodeWithHeader
  rw [show VarInt.new payload.length = .ok ⟨payload.length, h⟩ from dif_neg (Nat.not_lt.mpr h)]
  exact ⟨_, rfl⟩

theorem sendEncodedHeaders_panicFree {encoded : Bytes} (h : encoded.length ≤ VarInt.max.get)
    (s : RequestStream) (fin isInterim : Bool) : PanicFree (s.sendEncodedHeaders encoded fin isInterim) := by
  obtain ⟨frame, hframe⟩ := encodeWithHeader_some h FrameType.headers.code
  refine .bind ?_ fun _ => ?_
  · unfold RequestStream.checkSendHeaders
    repeat' split
    all_goals first | exact .ok _ | exact .error (by simp)
  · rw [encodeFrame, hframe]
    exact .ok _

theorem sendBody_panicFree {data : Bytes} (h : data.length ≤ VarInt.max.get) (s : RequestStream)
    (fin : Bool) : PanicFree (s.sendBody data fin) := by
  obtain ⟨frame, hframe⟩ := encodeWithHeader_some h FrameType.data.code
  refine .bind ?_ fun _ => .bind ?_ fun _ => .ok _
  · unfold RequestStream.checkSendBody
    repeat' split
    all_goals first | exact .ok _ | exact .error (by simp)
  · unfold RequestStream.pushBody
    rw [encodeFrame, hframe]
    split <;> exact .ok _

/-! ## Requests and responses -/

theorem checkRequest_panicFree (c : Core) (headers : List Header) :
    PanicFree (checkRequest env c headers) :=
  .bind (.ensure _ (by decide)) fun _ => .bind (.ensure _ (by decide)) fun _ =>
    .bind (validateRequestHeaders_panicFree _) fun _ => .bind (checkFieldSectionSize_panicFree _ _) fun _ =>
    .bind (validateWtConnectRequest_panicFree _ _ _ _) fun _ => .ensure _ (by decide)

theorem checkResponse_panicFree (c : Core) (streamId : Nat) (headers : List Header) :
    PanicFree (checkResponse env c streamId headers) :=
  .bind (.ensure _ (by decide)) fun _ => .bind (validateResponseHeaders_panicFree _) fun _ =>
    .bind (checkFieldSectionSize_panicFree _ _) fun _ => validateWtResponseProtocol_panicFree _ _ _

@[grind ←] theorem trackSection_safe (streamId : Nat) :
    CoreSafe none (modify (modifyQpack (trackSection streamId))) :=
  .modify fun _ hc => hc.modifyQpack rfl rfl

theorem fromStreamId_next (id : Nat) :
    StreamKind.fromStreamId (id + 4) = StreamKind.fromStreamId id := by
  unfold StreamKind.fromStreamId
  rw [Nat.add_mod_right]

theorem sendRequestInner_leads {headers : List Header} (hlen : sectionLimit headers ≤ VarInt.max.get)
    (fin : Bool) :
    Leads IsPanic (fun c => IdsFit none c ∧ c.nextStreamId ≤ VarInt.max.get) (IdsFit none)
      (sendRequestInner env headers fin) := by
  refine .get_bind fun c hc => ⟨IdsFit none, hc.1, .of_safe ?_ fun _ h => h⟩
  obtain ⟨hc, hle⟩ := hc
  refine Safe.bind (.ofExcept (checkRequest_panicFree env c headers)) fun _ => ?_
  refine Safe.bind_of (by grind) (fun _ _ h => encodeQpackHeaders_length h) fun encoded hencoded => ?_
  dsimp only
  refine Safe.bind (.modify fun d hd => ?_) fun _ => ?_
  · exact { hd with next := by rw [fromStreamId_next]; exact hd.next }
  split
  · exact .throw (by simp [IsPanic])
  · refine Safe.bind (.ofExcept (sendEncodedHeaders_panicFree (hencoded.trans hlen) _ _ _)) fun s => ?_
    refine Safe.bind (by grind) fun _ => ?_
    refine Safe.bind (.modify fun d hd => hd.putStream hle hc.next s) fun _ => ?_
    grind

theorem queueHeaders_safe (streamId : Nat) {encoded : Bytes} (h : encoded.length ≤ VarInt.max.get)
    (fin isInterim : Bool) : CoreSafe none (queueHeaders streamId encoded fin isInterim) := by
  refine Safe.of_leads (.get_bind fun c hc => ?_)
  split
  · exact ⟨IdsFit none, hc, .of_safe (.throw (by simp [IsPanic])) fun _ h => h⟩
  · rename_i stream hs
    refine ⟨IdsFit (some streamId), hc.found hs, ?_⟩
    refine .ofExcept_bind (fun _ h => h.forget) (sendEncodedHeaders_panicFree h _ _ _) fun s _ => ?_
    exact .modify fun d hd => (hd.putHere s).forget

theorem sendResponseInner_safe (streamId : Nat) {headers : List Header}
    (hlen : sectionLimit headers ≤ VarInt.max.get) (fin : Bool) :
    CoreSafe none (sendResponseInner env streamId headers fin) := by
  refine Safe.bind (by grind) fun c => ?_
  refine Safe.bind (.ofExcept (checkResponse_panicFree env c streamId headers)) fun _ => ?_
  refine Safe.bind_of (by grind) (fun _ _ h => encodeQpackHeaders_length h) fun encoded hencoded => ?_
  refine Safe.bind (queueHeaders_safe streamId (hencoded.trans hlen) fin _) fun _ => ?_
  grind

theorem sendBodyInner_safe (streamId : Nat) {data : Bytes} (h : data.length ≤ VarInt.max.get)
    (fin : Bool) : CoreSafe none (sendBodyInner streamId data fin) := by
  refine Safe.of_leads (.get_bind fun c hc => ?_)
  split
  · exact ⟨IdsFit none, hc, .of_safe (.throw (by simp [IsPanic])) fun _ h => h⟩
  · rename_i stream hs
    refine ⟨IdsFit (some streamId), hc.found hs, ?_⟩
    refine .ofExcept_bind (fun _ h => h.forget) (sendBody_panicFree h _ _) fun s _ => ?_
    exact .modify fun d hd => (hd.putHere s).forget

theorem sendGoawayInner_safe (id : VarInt) : CoreSafe none (sendGoawayInner env id) := by
  have hlen : id.encode.length ≤ VarInt.max.get := by
    rw [VarInt.encode_length, VarInt.encodedLen]
    split_ifs <;> decide
  obtain ⟨frame, hframe⟩ := encodeWithHeader_some hlen FrameType.goaway.code
  refine Safe.of_leads (.get_bind fun c hc => ⟨fun d => d = c, rfl, ?_⟩)
  refine .ofExcept_bind (fun d hd => hd ▸ hc) (PanicFree.ensure _ (by decide)) fun _ _ => ?_
  refine .ofExcept_bind (fun d hd => hd ▸ hc) (PanicFree.ensure _ (by decide)) fun _ _ => ?_
  refine .ofExcept_bind (fun d hd => hd ▸ hc) ?_ fun control hcontrol => ?_
  · show PanicFree _
    unfold ControlStreamSend.sendGoaway
    rw [encodeFrame, hframe]
    split
    · exact .ok _
    · exact .error (by decide)
  · have hid := ControlStreamSend.sendGoaway_streamId hcontrol
    refine .modify fun d hd => ?_
    subst hd
    exact { hc with control := fun id h => hc.control id (by rw [← hid]; exact h) }

/-! ## Sessions -/

theorem registerLocalWtStream_safe (sessionId streamId : Nat) :
    CoreSafe none (registerLocalWtStream env sessionId streamId) := by
  refine Safe.get_bind fun c hc => ?_
  dsimp only
  split
  · grind
  split
  · grind
  split
  · grind
  split
  · grind
  · rename_i session hs
    have hle := hc.wt.sessions.le_of_lookup hs
    grind

theorem sendDatagram_panicFree (c : Core) (sessionId : Nat) (payload : Bytes) :
    PanicFree (sendDatagram env c sessionId payload) := by
  refine .bind (.ensure _ (by decide)) fun _ => .bind (.ensure _ (by decide)) fun _ => ?_
  split
  · exact .error (by decide)
  · split
    · exact .error (by simp)
    · exact .error (by decide)
    · exact .error (by decide)
    · split
      · exact .error (by decide)
      · rename_i d hd
        have hle : d.quarterStreamId ≤ VarInt.max.get := by
          unfold Datagram.new at hd
          split at hd
          · cases hd
          · split at hd
            · cases hd
            · cases hd
              have := Nat.div_le_self sessionId 4
              unfold Datagram.quarterStreamId
              simp only
              omega
        rw [Datagram.encode, show VarInt.new d.quarterStreamId = .ok ⟨_, hle⟩ from
          dif_neg (Nat.not_lt.mpr hle)]
        exact .ok _

/-! ## One call -/

/-- What a call may be given: ids of QUIC streams, lengths that a QUIC integer can hold, and no more
to consume than is queued. -/
def withinLimits (c : Connection) : Call → Bool
  | .feedStream streamId _ _ => streamId ≤ VarInt.max.get
  | .consumeStreamData streamId len => consumable c.core streamId len
  | .sendRequest headers _ =>
    c.core.nextStreamId ≤ VarInt.max.get && sectionLimit headers ≤ VarInt.max.get
  | .sendResponse _ headers _ => sectionLimit headers ≤ VarInt.max.get
  | .sendBody _ data _ => data.length ≤ VarInt.max.get
  | _ => true

theorem setMaxReceivedBodySize_fits (hc : IdsFit none c) (size : Nat) :
    IdsFit none (setMaxReceivedBodySize size c) := by
  have hkeys : ∀ k, (setMaxReceivedBodySize size c).streams.contains k = c.streams.contains k :=
    fun k => IdMap.contains_updateEach c.streams k _ c.streams.keys
  exact { hc.sameKeys hkeys with }

theorem body_leads {c : Connection} {call : Call} (hcall : withinLimits c call = true) :
    Leads IsPanic (fun d => IdsFit none d ∧ d = c.core) (IdsFit none) (body env call) := by
  have hsafe : ∀ {x : CoreProc Response}, CoreSafe none x →
      Leads IsPanic (fun d => IdsFit none d ∧ d = c.core) (IdsFit none) x :=
    fun h d hd => h d hd.1
  cases call with
  | setControlStreamId streamId => exact hsafe (Leads.map (setControlStreamId_safe env streamId) _)
  | setEncoderStreamId streamId => exact hsafe (Leads.map (setEncoderStreamId_safe env streamId) _)
  | setDecoderStreamId streamId => exact hsafe (Leads.map (setDecoderStreamId_safe env streamId) _)
  | initH3Streams control encoder decoder =>
    exact hsafe (Safe.bind (initH3Streams_safe env _ _ _) fun _ => .ret _)
  | setMaxReceivedBodySize size =>
    exact hsafe (Leads.map (.modify fun _ hd => setMaxReceivedBodySize_fits hd size) _)
  | setPreviousWtSettings settings =>
    have hwt : WtSafe (modify fun w => { w with previousWtSettings := some settings }) :=
      .modify fun _ hw => { hw with }
    exact hsafe (Leads.map (onWt_safe hwt) _)
  | setWebtransportTransportVerified datagrams resetStreamAt =>
    refine hsafe (Leads.map (onWt_safe ?_) _)
    unfold setWebtransportTransportVerified
    split
    · exact .modify fun _ hw => { hw with }
    · exact .throw (by simp [IsPanic])
  | feedStream streamId data fin =>
    exact hsafe (Leads.map (feedStreamInner_safe env (of_decide_eq_true hcall) data fin) _)
  | feedDatagram data => exact hsafe (Leads.map (feedDatagramInner_safe env data) _)
  | streamReset streamId errorCode finalSize =>
    exact hsafe (Leads.map (streamResetInner_safe env _ _ _) _)
  | stopSending streamId errorCode => exact hsafe (Leads.map (stopSendingInner_safe env _ _) _)
  | pollEvent | drainEvents => exact hsafe (Leads.map (retryBlockedStreams_safe env) _)
  | getStreamData streamId =>
    exact hsafe (Safe.bind (fun d hd => (getStreamData_consumable env streamId hd).1) fun _ => .ret _)
  | takeStreamData streamId =>
    exact hsafe (Safe.bind (takeStreamData_safe env streamId) fun _ => .ret _)
  | consumeStreamData streamId len =>
    refine Leads.map (fun d hd => ?_) _
    exact consumeStreamData_leads streamId len d ⟨hd.1, hd.2 ▸ hcall⟩
  | sendRequest headers fin =>
    obtain ⟨hid, hlen⟩ := Bool.and_eq_true_iff.mp hcall
    refine Leads.map (fun d hd => ?_) _
    exact sendRequestInner_leads env (of_decide_eq_true hlen) fin d
      ⟨hd.1, hd.2 ▸ of_decide_eq_true hid⟩
  | sendResponse streamId headers fin =>
    exact hsafe (Leads.map (sendResponseInner_safe env streamId (of_decide_eq_true hcall) fin) _)
  | sendBody streamId data fin =>
    exact hsafe (Leads.map (sendBodyInner_safe streamId (of_decide_eq_true hcall) fin) _)
  | sendGoaway id => exact hsafe (Leads.map (sendGoawayInner_safe env id) _)
  | registerLocalWtStream sessionId streamId =>
    exact hsafe (Leads.map (registerLocalWtStream_safe env _ _) _)
  | wtDataConsumed sessionId bytes =>
    exact hsafe (Leads.map (onWt_safe (.modify fun w hw => hw.update _ sessionId _)) _)
  | takeWtPendingCapsules sessionId =>
    exact hsafe (Safe.bind (onWt_safe (takeWtPendingCapsules_safe sessionId)) fun _ => .ret _)
  | sendDatagram sessionId payload =>
    refine hsafe (Safe.bind .get fun core => .ofExcept fun e he => ?_)
    cases hd : sendDatagram env core sessionId payload with
    | ok bytes =>
      rw [hd] at he
      cases he
    | error e' =>
      rw [hd] at he
      cases he
      exact sendDatagram_panicFree env core sessionId payload _ hd

end Calls

/-! ## Runs -/

/-- The ids of a connection are in range, and it recorded no panic. -/
structure Sound (c : Connection) : Prop where
  ids : IdsFit none c.core
  recorded : c.error ≠ some .panicked

def Step.Sound (s : Step) : Prop := Connection.Sound s.conn ∧ s.result ≠ .error .panicked

section Steps

variable {c : Connection} {s : Step}

theorem exec_sound (hc : Sound c) {x : CoreProc Response}
    (hx : Leads IsPanic (fun d => IdsFit none d ∧ d = c.core) (IdsFit none) x) :
    Step.Sound (c.exec x) := by
  obtain ⟨hfits, herror⟩ := hx c.core ⟨hc.ids, rfl⟩
  exact ⟨⟨hfits, hc.recorded⟩, fun h => herror _ h rfl⟩

theorem guarded_sound (hc : Sound c) {x : CoreProc Response}
    (hx : Leads IsPanic (fun d => IdsFit none d ∧ d = c.core) (IdsFit none) x) :
    Step.Sound (c.guarded x) := by
  unfold guarded
  split
  · rename_i e he
    exact ⟨hc, fun h => hc.recorded (by cases h; exact he)⟩
  · exact exec_sound hc hx

theorem remember_sound (h : Step.Sound s) : Step.Sound (remember s) := by
  unfold remember
  split
  · exact ⟨⟨h.1.ids, nofun⟩, h.2⟩
  · exact h

theorem popEvent_sound (h : Step.Sound s) : Step.Sound (popEvent s) := by
  rcases s with ⟨r, d, o⟩
  cases r with
  | error e => exact h
  | ok _ => exact ⟨⟨h.1.ids, h.1.recorded⟩, nofun⟩

theorem takeEvents_sound (h : Step.Sound s) : Step.Sound (takeEvents s) := by
  rcases s with ⟨r, d, o⟩
  cases r with
  | error e => exact h
  | ok _ => exact ⟨⟨h.1.ids, h.1.recorded⟩, nofun⟩

/-- A call within its limits does not panic. -/
theorem feed_sound (hc : Sound c) {cfg : Config} {i : Input}
    (hi : withinLimits c i.call = true) : Step.Sound (c.feed cfg i) := by
  have hbody := body_leads (cfg.env i.order) hi
  rcases i with ⟨order, call⟩
  cases call with
  | feedStream | streamReset | stopSending | sendBody | sendGoaway =>
    exact remember_sound (guarded_sound hc hbody)
  | pollEvent => exact remember_sound (popEvent_sound (guarded_sound hc hbody))
  | drainEvents => exact remember_sound (takeEvents_sound (guarded_sound hc hbody))
  | feedDatagram | sendRequest | sendResponse => exact guarded_sound hc hbody
  | _ => exact exec_sound (x := body (cfg.env order) _) hc hbody

theorem Sound.new {cfg : Config} (hc : Connection.new cfg = .ok c) : Sound c := by
  simp only [Connection.new, Core.new, bind, Except.bind, pure, Except.pure] at hc
  cases hsend : ControlStreamSend.new.sendSettings cfg.localSettings with
  | error e =>
    rw [hsend] at hc
    cases hc
  | ok control =>
    rw [hsend] at hc
    cases hc
    refine ⟨⟨⟨.empty, .empty, .empty, .empty⟩, .empty, ?_, ?_, ?_, nofun⟩, nofun⟩
    · intro k hk
      simp only [IdMap.contains_empty] at hk
      cases hk
    · simp only
      cases cfg.role <;> rfl
    · intro id hid
      simp only [ControlStreamSend.sendSettings_streamId hsend] at hid
      cases hid

end Steps

/-- No decoder reports more than it was shown, so what is cut off or drained is there. -/
structure DecodersFit : Prop where
  integer : ∀ buf v n, VarInt.decode buf = .ok (v, n) → n ≤ buf.length
  frameHeader : ∀ buf h, decodeFrameHeader buf = .ok h → h.headerLen ≤ buf.length
  frame : ∀ buf f n, decodeFrame buf = .ok (f, n) → n ≤ buf.length
  capsule : ∀ buf c n, Capsule.decode buf = .ok (some (c, n)) → n ≤ buf.length
  prefixInteger : ∀ buf prefixBits v n,
    Qpack.decodeInteger buf prefixBits = .ok (v, n) → n ≤ buf.length
  prefixString : ∀ buf prefixBits s n,
    Qpack.decodeStringWithPrefix buf prefixBits = .ok (s, n) → n ≤ buf.length

theorem decodersFit : DecodersFit where
  integer _ _ _ h := VarInt.decode_stable.fits h
  frameHeader _ _ h := (decodeFrameHeader_bounds h).2
  frame _ _ _ h := (decodeFrame_bounds h).2
  capsule _ _ _ h := (Capsule.decode_bounds h).2
  prefixInteger _ prefixBits _ _ h := (Qpack.decodeInteger_stable prefixBits).fits h
  prefixString _ prefixBits _ _ h := (Qpack.decodeStringWithPrefix_stable prefixBits).fits h

/-- No call panics in a run that consumes no more than is queued. -/
theorem calls_never_panic {cfg : Config} {c : Connection} {is : List Input}
    (hnew : Connection.new cfg = .ok c)
    (h : EveryStep cfg (fun c i => withinLimits c i.call = true) c is) :
    (∀ s ∈ c.steps cfg is, s.result ≠ .error .panicked) ∧ DecodersFit := by
  refine ⟨?_, decodersFit⟩
  have hc := Sound.new hnew
  clear hnew
  induction is generalizing c with
  | nil =>
    intro s hs
    rw [steps] at hs
    cases hs
  | cons i is ih =>
    have hstep : Step.Sound (c.feed cfg i) := feed_sound hc h.1
    intro s hs
    rcases List.mem_cons.mp hs with rfl | hs
    · exact hstep.2
    · exact ih h.2 hstep.1 s hs

/-- The lengths that `getStreamData` returned last. -/
def offersAfter (offers : Nat → Nat) (call : Call) (r : Except Error Response) : Nat → Nat :=
  match call, r with
  | .getStreamData streamId, .ok (.streamData d) =>
    fun s => if s = streamId then (d.map fun p => p.1.length).getD 0 else offers s
  | _, _ => offers

/-- Does a run consume no more than it was offered last on the same stream? -/
def respectsOffers (cfg : Config) (c : Connection) (offers : Nat → Nat) : List Input → Bool
  | [] => true
  | i :: is =>
    (match i.call with
      | .consumeStreamData streamId len => len ≤ offers streamId
      | _ => true) &&
    respectsOffers cfg (c.feed cfg i).conn (offersAfter offers i.call (c.feed cfg i).result) is

/-- A request is taken and consumed up to its last byte. -/
def consumedRun : List Input :=
  [Call.setControlStreamId 2, .sendRequest Sample.getHeaders false, .getStreamData 0,
    .consumeStreamData 0 4, .getStreamData 0, .consumeStreamData 0 6].map Call.listed

theorem calls_never_panic_after_consuming :
    ∃ c, Connection.new Sample.client = .ok c ∧
      (∀ s ∈ c.steps Sample.client consumedRun, s.result ≠ .error .panicked) ∧ DecodersFit := by
  obtain ⟨c, hc, h⟩ := Sample.of_holdsAfter Sample.client []
    (p := fun c => decide (EveryStep Sample.client (fun c i => withinLimits c i.call = true) c
      consumedRun)) (by decide +kernel)
  exact ⟨c, hc, calls_never_panic hc (of_decide_eq_true h)⟩

/-- The peer stops a stream between the offer and its consumption. -/
def stoppedRun : List Input :=
  [Call.setControlStreamId 2, .sendRequest Sample.getHeaders false, .getStreamData 0,
    .stopSending 0 0x10c, .consumeStreamData 0 10].map Call.listed

theorem consuming_may_panic :
    ¬∀ cfg c is, Connection.new cfg = .ok c → respectsOffers cfg c (fun _ => 0) is = true →
      ∀ s ∈ c.steps cfg is, s.result ≠ .error .panicked := by
  intro hall
  obtain ⟨c, hc, h⟩ := Sample.of_holdsAfter Sample.client []
    (p := fun c => respectsOffers Sample.client c (fun _ => 0) stoppedRun &&
      (c.steps Sample.client stoppedRun).any fun s => s.result == .error .panicked)
    (by decide +kernel)
  obtain ⟨hoffers, hpanic⟩ := Bool.and_eq_true_iff.mp h
  obtain ⟨s, hs, hresult⟩ := List.any_eq_true.mp hpanic
  exact hall _ c _ hc hoffers s hs (eq_of_beq hresult)

end Connection

end Http3
