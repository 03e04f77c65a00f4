import Http3.Connection.Answers
import Http3.Lib.Pieces
import Http3.Stream.Reading

/-!
# A message as it arrives

A stream that is read frame by frame tells its application what the reader of the message makes of
it: of each frame once it is complete, in order, and of the end when FIN has come. Neither the
division of the bytes nor the calls in between matter.
-/

namespace Http3

namespace Connection

open Proc

/-- Is the application told this of the stream? -/
def isReport (s : Nat) : Obs → Bool
  | .event e => (Obs.event e).isOf s
  | _ => false

/-- What the application is told of the stream. -/
def reports (s : Nat) (out : List Obs) : List Obs := out.filter (isReport s)

theorem reports_append (s : Nat) (o o' : List Obs) :
    reports s (o ++ o') = reports s o ++ reports s o' := List.filter_append ..

theorem reports_of_others {s : Nat} {o : List Obs} (h : ∀ w ∈ o, w.isOf s = false) :
    reports s o = [] := by
  refine List.filter_eq_nil_iff.mpr fun w hw => ?_
  have hother := h w hw
  cases w with
  | event e => exact fun hreport => Bool.false_ne_true (hother.symm.trans hreport)
  | _ => exact Bool.false_ne_true

theorem reports_part (s : Nat) (part : Part) : reports s (part.events s) = part.events s := by
  refine List.filter_eq_self.mpr fun w hw => ?_
  cases part with
  | «section» headers =>
    simp only [Part.events, headerEvents, List.cons_append, List.mem_cons, List.mem_append,
      List.mem_map, List.mem_nil_iff, or_false] at hw
    obtain rfl | ⟨x, -, rfl⟩ | rfl := hw <;> simp [isReport, Obs.isOf]
  | data payload =>
    obtain rfl := List.mem_singleton.mp hw
    simp [isReport, Obs.isOf]

/-! ## One section -/

section Section

variable (env : Env) {s : Nat} {c : Core} {stream : RequestStream} {headers : List Header}

theorem decodeSection_run {encoded : Bytes} {output : Qpack.DecodeOutput}
    {decoder : Qpack.DynamicDecoder}
    (h : c.qpack.dynamicDecoder.decode encoded = (.ok output, decoder)) :
    decodeSection s encoded c =
      ⟨.ok output, modifyQpack (fun q => { q with dynamicDecoder := decoder }) c, []⟩ := by
  rw [decodeSection, get_bind, modify_bind, h]
  rfl

/-- A section that did not use the table is not acknowledged. -/
theorem reportHeaders_run (hric : c.qpack.dynamicDecoder.lastRequiredInsertCount = 0) :
    reportHeaders s headers c = ⟨.ok (), c, headerEvents s headers⟩ := by
  have hack : acknowledgeSection s c.qpack = c.qpack := by
    rw [acknowledgeSection, hric, if_neg (Nat.lt_irrefl 0)]
  rw [reportHeaders, modify_bind, emitAll_run, modifyQpack, hack]

/-- What the record notes of a header section. -/
theorem noteHeaders_eq : noteHeaders env headers stream = { stream with
    recvState :=
      if env.role = .client && isInformationalStatus headers && stream.recvState = .receivingBody then
        .waitingHeaders
      else stream.recvState
    isConnect := stream.isConnect || (env.role = .server && isPlainConnect headers) ||
      (env.role = .client && isSuccessStatus headers && stream.isConnectRequest) } := by
  rcases stream with ⟨_, _, _, _, _, _, _, _, _, _, asked⟩
  unfold noteHeaders RequestStream.notifyInformational
  cases env.role <;> cases isInformationalStatus headers <;> cases isSuccessStatus headers <;>
    cases isPlainConnect headers <;> cases asked <;> simp <;> split <;> simp_all

/-- The record of the stream with a header section. -/
def withHeaders (headers : List Header) (stream : RequestStream) : RequestStream :=
  { noteHeaders env headers stream with recvHeaders := headers }

theorem acceptHeaders_run (halone : Alone s c)
    (hric : c.qpack.dynamicDecoder.lastRequiredInsertCount = 0)
    (hask : env.role = .server → isWebtransportConnect headers = false)
    (hs : c.streams.lookup s = some stream) :
    ∃ d, acceptHeaders env s headers c = ⟨.ok (), d, headerEvents s headers⟩ ∧ d.wt = c.wt ∧
      d.qpack = c.qpack ∧ d.streams.lookup s = some (withHeaders env headers stream) := by
  have hno : registerWtConnectSession env s headers = ret () := by
    unfold registerWtConnectSession
    cases hrole : env.role with
    | client => rfl
    | server => rw [hask hrole]; rfl
  have hnoted : Alone s (modifyStream s (noteHeaders env headers) c) :=
    ⟨halone.sessions, halone.closed⟩
  refine ⟨modifyStream s (fun x => { x with recvHeaders := headers })
    (modifyStream s (noteHeaders env headers) c), ?_, rfl, rfl, ?_⟩
  · have hreport := @reportHeaders_run s (modifyStream s (fun x => { x with recvHeaders := headers })
      (modifyStream s (noteHeaders env headers) c)) headers hric
    rw [acceptHeaders, hno, ret_bind, modify_bind,
      bind_ok _ _ _ (noteConnectResponse_alone env hnoted headers)]
    simp only [modify_bind, hreport, List.nil_append]
  · simp only [modifyStream, IdMap.lookup_update_self, hs, Option.map_some]
    rfl

theorem emitHeaderEvents_run (halone : Alone s c)
    (hric : c.qpack.dynamicDecoder.lastRequiredInsertCount = 0)
    (hvalid : Validation.validateHeaders headers env.role = .ok ())
    (hask : env.role = .server → isWebtransportConnect headers = false)
    (hs : c.streams.lookup s = some stream) :
    ∃ d, emitHeaderEvents env s headers false c = ⟨.ok (), d, headerEvents s headers⟩ ∧
      d.wt = c.wt ∧ d.qpack = c.qpack ∧
      d.streams.lookup s = some (withHeaders env headers stream) := by
  obtain ⟨d, hrun, hd⟩ := acceptHeaders_run env halone hric hask hs
  refine ⟨d, ?_, hd⟩
  have hrequest : validateWtConnectRequestServer env c.peerSettings c.wt s headers = .ok () := by
    unfold validateWtConnectRequestServer
    cases hrole : env.role with
    | client => rfl
    | server => rw [hask hrole]; rfl
  have hdefer : (env.role = .server && c.peerSettings.isNone && isWebtransportConnect headers) =
      false := by
    cases hrole : env.role with
    | client => rfl
    | server => rw [hask hrole, Bool.and_false]
  rw [emitHeaderEvents, if_neg Bool.false_ne_true, hvalid, ofExcept_ok, ret_bind, get_bind, hrequest,
    ofExcept_ok, ret_bind, hdefer, if_neg Bool.false_ne_true]
  exact hrun

theorem emitTrailerEvents_run (hric : c.qpack.dynamicDecoder.lastRequiredInsertCount = 0)
    (hvalid : Validation.validateTrailerHeaders headers = .ok ()) :
    emitHeaderEvents env s headers true c = ⟨.ok (), c, headerEvents s headers⟩ := by
  rw [emitHeaderEvents, if_pos rfl, hvalid, ofExcept_ok, ret_bind, reportHeaders_run hric]

/-- The core behind a section that was decoded without the table. -/
def behindSection (c : Core) : Core :=
  modifyQpack (fun q => { q with
    dynamicDecoder := { c.qpack.dynamicDecoder with lastRequiredInsertCount := 0 } }) c

theorem processSection_run {encoded : Bytes} {isTrailer : Bool} {d : Core}
    (hlegible : Legible encoded headers)
    (hroom : (headers.map Header.size).sum ≤ c.qpack.dynamicDecoder.maxFieldSectionSize)
    (htell : emitHeaderEvents env s headers isTrailer (behindSection c) =
      ⟨.ok (), d, headerEvents s headers⟩) :
    processSection env s encoded isTrailer c =
      ⟨.ok true, d, .fieldSection s headers isTrailer :: headerEvents s headers⟩ := by
  have hdecode : decodeSection s encoded c = ⟨.ok (.decoded headers), behindSection c, []⟩ :=
    decodeSection_run (hlegible _ hroom)
  rw [processSection, bind_ok _ _ _ hdecode]
  dsimp only
  rw [emit_bind, bind_ok _ _ _ htell]
  simp only [ret_run, List.append_nil, List.nil_append]

end Section

/-! ## One frame -/

/-- The record of a stream that is read as `r` says, and goes on. -/
structure Mirrors (p : Recipient) (r : Reading) (stream : RequestStream) : Prop where
  recvState : stream.recvState = r.recvState
  recvHeaders : stream.recvHeaders = r.headers
  recvBody : stream.recvBody = r.body
  isConnect : stream.isConnect = r.isConnect
  isHeadRequest : stream.isHeadRequest = p.isHeadRequest
  isConnectRequest : stream.isConnectRequest = p.isConnectRequest
  isWtConnect : stream.isWtConnect = false
  room : p.maxReceivedBodySize ≤ stream.maxReceivedBodySize
  unblocked : stream.qpackBlocked = false ∧ stream.qpackBlockedHeader = none
  goesOn : stream.state = .open ∨ stream.state = .localClosed

/-- A stream whose message has come as far as `r` says. -/
structure Attending (p : Recipient) (s : Nat) (r : Reading) (stream : RequestStream) (c : Core) :
    Prop where
  plainly : Plainly s c
  alone : Alone s c
  hasStream : c.streams.lookup s = some stream
  follows : Mirrors p r stream
  room : p.maxFieldSectionSize ≤ c.qpack.dynamicDecoder.maxFieldSectionSize

section Frame

variable {env : Env} {p : Recipient} {s : Nat} {r r' : Reading} {stream stream' : RequestStream}
  {c d : Core}

theorem Attending.next (h : Attending p s r stream c) (hwt : d.wt = c.wt)
    (hs : d.streams.lookup s = some stream') (hfollows : Mirrors p r' stream')
    (hroom : d.qpack.dynamicDecoder.maxFieldSectionSize =
      c.qpack.dynamicDecoder.maxFieldSectionSize) : Attending p s r' stream' d := by
  refine ⟨⟨?_, ?_, ?_⟩, h.alone.of_wt hwt, hs, hfollows, hroom ▸ h.room⟩
  · rw [hwt]; exact h.plainly.deferred
  · rw [hs]; exact hfollows.unblocked.2
  · rw [hwt]; exact h.plainly.clear

theorem Mirrors.notDone (h : Mirrors p r stream) : isStreamDone stream = false := by
  unfold isStreamDone
  obtain hstate | hstate := h.goesOn <;> rw [hstate] <;> rfl

theorem Mirrors.dropFrame (h : Mirrors p r stream) (rest : Bytes) :
    Mirrors p r (stream.dropFrame rest) := by
  obtain ⟨h₁, h₂, h₃, h₄, h₅, h₆, h₇, h₈, h₉, h₁₀⟩ := h
  exact ⟨h₁, h₂, h₃, h₄, h₅, h₆, h₇, h₈, h₉, h₁₀⟩

theorem Mirrors.receive (h : Mirrors p r stream) (data : Bytes) (fin : Bool) :
    Mirrors p r (stream.receive data fin) := by
  obtain ⟨h₁, h₂, h₃, h₄, h₅, h₆, h₇, h₈, h₉, h₁₀⟩ := h
  exact ⟨h₁, h₂, h₃, h₄, h₅, h₆, h₇, h₈, h₉, h₁₀⟩

/-- The record notes of a header section what the reader notes. -/
theorem Mirrors.withHeaders (h : Mirrors p r stream) (hrole : env.role = p.role)
    (headers : List Header) :
    Mirrors p (p.begin r headers)
      (withHeaders env headers { stream with recvState := .receivingBody }) := by
  obtain ⟨-, h₂, h₃, h₄, h₅, h₆, h₇, h₈, h₉, h₁₀⟩ := h
  unfold Connection.withHeaders
  rw [noteHeaders_eq]
  refine ⟨?_, rfl, h₃, ?_, h₅, h₆, h₇, h₈, h₉, h₁₀⟩
  · simp only [Recipient.begin, hrole, decide_true, Bool.and_true]
  · simp only [Recipient.begin, hrole, h₄, h₆]

/-- The stream takes a frame that is complete as the reader takes the part. -/
theorem processStreamFrame_part (h : Attending p s r stream c) (hrole : env.role = p.role)
    (f : PartFrame) {rest : Bytes}
    (hbuf : stream.recvBuf.data = f.bytes ++ rest) (hhear : p.hear r f.part = some r') :
    ∃ d o stream', processStreamFrame env s c = ⟨.ok true, d, o⟩ ∧
      reports s o = f.part.events s ∧ Attending p s r' stream' d ∧
      stream'.recvBuf = { stream.recvBuf with data := rest } := by
  obtain ⟨bytes, part, written⟩ := f
  have hdrop := h.follows.dropFrame rest
  have hput : ∀ stream₁ : RequestStream, Alone s (behindSection (putStream s stream₁ c)) :=
    fun _ => ⟨h.alone.sessions, h.alone.closed⟩
  have hlookup : ∀ stream₁ : RequestStream,
      (behindSection (putStream s stream₁ c)).streams.lookup s = some stream₁ :=
    fun stream₁ => IdMap.lookup_insert_self _ _ _
  cases written with
  | @«section» encoded headers reads legible =>
    have hraw := RequestStream.processRaw_of_frame reads rfl hbuf
    have hevents : ∀ isTrailer, reports s (.fieldSection s headers isTrailer ::
        headerEvents s headers) = headerEvents s headers :=
      fun isTrailer => reports_part s (.section headers)
    obtain ⟨hsize, hcases⟩ := p.hear_section hhear
    have hroom := hsize.trans h.room
    obtain ⟨hstate, hvalid, hask, rfl⟩ | ⟨hstate, hconnect, hvalid, rfl⟩ := hcases
    · have hfirst : stream.processRaw = (.ok (some (.headers encoded)),
          { stream.dropFrame rest with recvState := .receivingBody }) := by
        rw [hraw]
        dsimp only
        rw [RequestStream.processHeaders, hdrop.recvState, hstate]
      obtain ⟨d, htell, hwt, hqpack, hs⟩ := emitHeaderEvents_run env (hput _) rfl
        (hrole ▸ hvalid) (hrole ▸ hask) (hlookup _)
      refine ⟨d, _, _, ?_, hevents false, h.next hwt hs (hdrop.withHeaders hrole headers) ?_, ?_⟩
      · rw [processStreamFrame, get_bind]
        simp only [h.hasStream, hfirst, modify_bind, ofExcept_ok, ret_bind,
          processSection_run env legible (c := putStream s _ c) hroom htell]
      · rw [hqpack]
        rfl
      · unfold withHeaders
        rw [noteHeaders_eq]
        rfl
    · have htrailers : stream.processRaw = (.ok (some (.trailers encoded)),
          { stream.dropFrame rest with recvState := .trailersReceived }) := by
        rw [hraw]
        dsimp only
        rw [RequestStream.processHeaders, hdrop.recvState, hstate]
        dsimp only
        rw [hdrop.isConnect, hconnect, if_neg Bool.false_ne_true]
      have htell := @emitTrailerEvents_run env s (behindSection (putStream s
        { stream.dropFrame rest with recvState := .trailersReceived } c)) headers rfl hvalid
      refine ⟨_, _, { stream.dropFrame rest with recvState := .trailersReceived }, ?_,
        hevents true, h.next ?_ (hlookup _) ?_ ?_, rfl⟩
      · rw [processStreamFrame, get_bind]
        simp only [h.hasStream, htrailers, modify_bind, ofExcept_ok, ret_bind,
          processSection_run env legible (c := putStream s _ c) hroom htell]
      · rfl
      · obtain ⟨-, h₂, h₃, h₄, h₅, h₆, h₇, h₈, h₉, h₁₀⟩ := hdrop
        exact ⟨rfl, h₂, h₃, h₄, h₅, h₆, h₇, h₈, h₉, h₁₀⟩
      · rfl
  | @data payload reads =>
    obtain ⟨hstate, hsize, rfl⟩ := p.hear_data hhear
    have hbody : stream.recvState = .receivingBody := h.follows.recvState.trans hstate
    have hkeep : (stream.dropFrame rest).keepBody payload =
        { stream.dropFrame rest with recvBody := stream.recvBody ++ payload } :=
      if_neg (Bool.eq_false_iff.mp hdrop.isWtConnect)
    have hroom : stream.recvBody.length + payload.length ≤ stream.maxReceivedBodySize := by
      have hmax := h.follows.room
      rw [h.follows.recvBody]
      omega
    have hraw := RequestStream.processRaw_data reads hbuf hbody (.inr hroom)
    rw [hkeep] at hraw
    have hfollows : Mirrors p { r with body := r.body ++ payload }
        { stream.dropFrame rest with recvBody := stream.recvBody ++ payload } := by
      obtain ⟨h₁, h₂, h₃, h₄, h₅, h₆, h₇, h₈, h₉, h₁₀⟩ := hdrop
      exact ⟨h₁, h₂, congrArg (· ++ payload) h₃, h₄, h₅, h₆, h₇, h₈, h₉, h₁₀⟩
    have hnext := h.next (d := putStream s _ c) rfl (IdMap.lookup_insert_self _ _ _) hfollows rfl
    refine ⟨_, [.dataReceived s payload, .event (.data s payload)], _, ?_,
      reports_part s (.data payload), hnext, rfl⟩
    rw [processStreamFrame, get_bind]
    simp only [h.hasStream, hraw, modify_bind, ofExcept_ok, ret_bind]
    rw [bind_ok _ _ _ (processData_alone env hnext.plainly.deferred hnext.alone _ payload)]
    rfl

variable (env) in
/-- With nothing to take the loop stops. -/
theorem processStreamFrame_none (hs : c.streams.lookup s = some stream)
    (hraw : stream.processRaw = (.ok none, stream)) :
    processStreamFrame env s c = ⟨.ok false, putStream s stream c, []⟩ := by
  rw [processStreamFrame, get_bind]
  simp only [hs, hraw, modify_bind, ofExcept_ok, ret_bind]
  rfl

/-- The stream behind its end. -/
def atEnd (stream : RequestStream) : RequestStream :=
  { stream with state := stream.state.closeRemote, recvState := .complete }

/-- FIN is told once everything before it was taken, if the message may end there. -/
theorem processStreamFrame_end (h : Attending p s r stream c) (hrole : env.role = p.role)
    (hbuf : stream.recvBuf.data = []) (hfin : stream.recvBuf.fin = true)
    (hend : p.mayEnd r = true) :
    processStreamFrame env s c =
      ⟨.ok true, putStream s (atEnd stream) c, [.event (.streamEnd s)]⟩ := by
  simp only [Recipient.mayEnd, Bool.and_eq_true, Bool.or_eq_true, decide_eq_true_eq] at hend
  obtain ⟨hstate, hlength⟩ := hend
  have hopen : stream.recvState ≠ .complete ∧ stream.recvState ≠ .waitingHeaders := by
    rw [h.follows.recvState]
    obtain hstate | hstate := hstate <;> rw [hstate] <;> exact ⟨nofun, nofun⟩
  have hraw : stream.processRaw = (.ok (some .streamEnd), atEnd stream) := by
    have hempty : stream.recvBuf.peek.isEmpty = true := by rw [RecvBuffer.peek, hbuf]; rfl
    simp only [RequestStream.processRaw, RequestStream.processRawLoop, hempty, if_true,
      RequestStream.processEmpty, RecvBuffer.isFin, hfin, hopen.1, hopen.2, decide_true,
      Bool.and_true, ne_eq, not_false_eq_true, if_false, atEnd]
  have hcheck : checkBody env (atEnd stream) (atEnd stream).recvHeaders = .ok () := by
    have hsame : checkBody env (atEnd stream) (atEnd stream).recvHeaders =
        Validation.validateContentLength r.headers r.body.length
          (p.role = .client && (p.isHeadRequest || isNoBodyStatus r.headers)) := by
      simp only [checkBody, atEnd, h.follows.recvHeaders, h.follows.recvBody,
        h.follows.isHeadRequest, hrole]
    rw [hsame]
    cases hv : Validation.validateContentLength r.headers r.body.length
        (p.role = .client && (p.isHeadRequest || isNoBodyStatus r.headers)) with
    | ok u => rfl
    | error e =>
      rw [hv] at hlength
      cases hlength
  have hrun := @processStreamEnd_alone env s (putStream s (atEnd stream) c) h.plainly.deferred
    ⟨h.alone.sessions, h.alone.closed⟩ (atEnd stream)
  rw [hcheck] at hrun
  rw [processStreamFrame, get_bind]
  simp only [h.hasStream, hraw, modify_bind, ofExcept_ok, ret_bind]
  rw [bind_ok _ _ _ hrun]
  rfl

end Frame

/-! ## All frames that are there -/

/-- What is told of the frames. -/
def toldOf (s : Nat) (fs : List PartFrame) : List Obs :=
  fs.flatMap fun f => f.part.events s

section Frames

variable {env : Env} {p : Recipient} {s : Nat} {r r' : Reading} {stream : RequestStream} {c : Core}

theorem Attending.put (h : Attending p s r stream c) :
    Attending p s r stream (putStream s stream c) :=
  h.next rfl (IdMap.lookup_insert_self _ _ _) h.follows rfl

/-- The frames of a message that are there, and a part of the next one, while more may come. -/
theorem frames_heard (fs : List PartFrame) (fuel : Nat) (more : Bytes)
    (h : Attending p s r stream c) (hrole : env.role = p.role)
    (hfin : stream.recvBuf.fin = false) (hfuel : stream.recvBuf.data.length < fuel)
    (hwire : stream.recvBuf.data ++ more = fs.flatMap PartFrame.bytes)
    (hhears : p.hears r (fs.map PartFrame.part) = some r') :
    ∃ d o done rest stream' t, loop (processStreamFrame env s) fuel c = ⟨.ok (), d, o⟩ ∧
      reports s o = toldOf s done ∧ Attending p s t stream' d ∧
      p.hears t (rest.map PartFrame.part) = some r' ∧ stream'.recvBuf.fin = false ∧
      stream'.recvBuf.data ++ more = rest.flatMap PartFrame.bytes ∧
      Arrived PartFrame.bytes fs stream.recvBuf.data done rest stream'.recvBuf.data := by
  induction fs generalizing fuel stream c r with
  | nil =>
    obtain ⟨hbuf, hmore⟩ := List.append_eq_nil_iff.mp hwire
    cases fuel with
    | zero => omega
    | succ fuel =>
      have hrun := processStreamFrame_none env h.hasStream
        (RequestStream.processRaw_waits hfin (.inl hbuf))
      refine ⟨_, [], [], [], stream, r, ?_, rfl, h.put, hhears, hfin, hwire, .none nofun⟩
      rw [loop, bind_ok _ _ _ hrun]
      rfl
  | cons f fs ih =>
    cases fuel with
    | zero => omega
    | succ fuel =>
      obtain ⟨frame, hreads, hmessage⟩ := f.written.reads
      obtain ⟨rest, hbuf, hrest⟩ | ⟨m, hm, hbuf, hmore⟩ := Arrived.first_or_part hwire
      · obtain ⟨t, hhear, hhears⟩ := p.hears_cons hhears
        obtain ⟨d, o, stream₁, hrun, hevents, hnext, hrecv⟩ :=
          processStreamFrame_part h hrole f hbuf hhear
        have hdata : stream₁.recvBuf.data = rest := by rw [hrecv]
        have hshort : stream₁.recvBuf.data.length < fuel := by
          have hbytes := (decodeFrame_bounds hreads).1
          rw [hbuf, List.length_append] at hfuel
          rw [hdata]
          omega
        obtain ⟨d', o', done, left, stream', t', hrun', hevents', hlast, hhears', hfin', hwire',
            harrived⟩ := ih fuel hnext (by rw [hrecv]; exact hfin) hshort
          (by rw [hdata]; exact hrest) hhears
        rw [hdata] at harrived
        refine ⟨d', o ++ o', f :: done, left, stream', t', ?_, ?_, hlast, hhears', hfin', hwire', ?_⟩
        · rw [loop, bind_ok _ _ _ hrun, if_pos rfl, hrun']
        · rw [reports_append, hevents, hevents']
          rfl
        · rw [hbuf]
          exact harrived.cons
      · have hnext := RequestStream.nextFrame_partial hreads hmessage hfin hbuf hm
        have hrun := processStreamFrame_none env h.hasStream
          (RequestStream.processRaw_waits hfin (.inr hnext))
        refine ⟨_, [], [], f :: fs, stream, r, ?_, rfl, h.put, hhears, hfin, hwire, .none ?_⟩
        · rw [loop, bind_ok _ _ _ hrun]
          rfl
        · intro b hb
          cases hb
          rw [← hbuf, List.length_append]
          have := List.length_pos_iff.mpr hm
          omega

/-- Behind the last frame the message ends. -/
theorem frames_end (fs : List PartFrame) (fuel : Nat)
    (h : Attending p s r stream c) (hrole : env.role = p.role)
    (hfin : stream.recvBuf.fin = true) (hfuel : stream.recvBuf.data.length + 1 < fuel)
    (hwire : stream.recvBuf.data = fs.flatMap PartFrame.bytes)
    (hhears : p.hears r (fs.map PartFrame.part) = some r') (hend : p.mayEnd r' = true) :
    ∃ d o, loop (processStreamFrame env s) fuel c = ⟨.ok (), d, o⟩ ∧
      reports s o = toldOf s fs ++ [.event (.streamEnd s)] ∧ Plainly s d ∧ Alone s d := by
  induction fs generalizing fuel stream c r with
  | nil =>
    obtain rfl : r = r' := Option.some.inj hhears
    obtain ⟨fuel, rfl⟩ : ∃ n, fuel = n + 2 := ⟨fuel - 2, by omega⟩
    have hrun := processStreamFrame_end h hrole hwire hfin hend
    have hlookup : (putStream s (atEnd stream) c).streams.lookup s = some (atEnd stream) :=
      IdMap.lookup_insert_self _ _ _
    have hraw : (atEnd stream).processRaw = (.ok none, atEnd stream) := by
      have hempty : stream.recvBuf.peek.isEmpty = true := by rw [RecvBuffer.peek, hwire]; rfl
      simp only [RequestStream.processRaw, RequestStream.processRawLoop, hempty, if_true,
        RequestStream.processEmpty, atEnd, ne_eq, not_true, decide_false, Bool.and_false,
        Bool.false_eq_true, if_false]
    have hstop := processStreamFrame_none env hlookup hraw
    refine ⟨putStream s (atEnd stream) (putStream s (atEnd stream) c), [.event (.streamEnd s)], ?_, ?_,
      ⟨h.plainly.deferred, ?_, h.plainly.clear⟩, h.alone.sessions, h.alone.closed⟩
    · rw [loop, bind_ok _ _ _ hrun, if_pos rfl, loop, bind_ok _ _ _ hstop]
      rfl
    · simp [reports, isReport, Obs.isOf, toldOf]
    · rw [show (putStream s (atEnd stream) (putStream s (atEnd stream) c)).streams.lookup s =
        some (atEnd stream) from IdMap.lookup_insert_self _ _ _]
      exact h.follows.unblocked.2
  | cons f fs ih =>
    rw [List.flatMap_cons] at hwire
    obtain ⟨frame, hreads, -⟩ := f.written.reads
    obtain ⟨t, hhear, hhears⟩ := p.hears_cons hhears
    obtain ⟨d, o, stream₁, hrun, hevents, hnext, hrecv⟩ :=
      processStreamFrame_part h hrole f hwire hhear
    have hdata : stream₁.recvBuf.data = fs.flatMap PartFrame.bytes := by rw [hrecv]
    have hbytes := (decodeFrame_bounds hreads).1
    rw [hwire, List.length_append] at hfuel
    obtain ⟨fuel, rfl⟩ : ∃ n, fuel = n + 1 := ⟨fuel - 1, by omega⟩
    obtain ⟨d', o', hrun', hevents', hlast⟩ := ih fuel hnext (by rw [hrecv]; exact hfin)
      (by rw [hdata]; omega) hdata hhears
    refine ⟨d', o ++ o', ?_, ?_, hlast⟩
    · rw [loop, bind_ok _ _ _ hrun, if_pos rfl, hrun']
    · rw [reports_append, hevents, hevents', ← List.append_assoc]
      rfl

end Frames

/-! ## A piece of the stream -/

/-- Of a message the parts `rest` are left, and a part of the first of them is in the buffer. -/
def Midway (p : Recipient) (s : Nat) (last : Reading)
    (rest : List PartFrame) (part : Bytes) (c : Core) : Prop :=
  ∃ stream r, Attending p s r stream c ∧ p.hears r (rest.map PartFrame.part) = some last ∧
    stream.recvBuf = ⟨part, false⟩

/-- Nothing of the stream is left to read. -/
structure Over (s : Nat) (c : Core) : Prop where
  plainly : Plainly s c
  alone : Alone s c

section Pieces

variable {env : Env} {p : Recipient} {s : Nat} {r last : Reading} {stream : RequestStream}
  {c d : Core} {o : List Obs} {fs : List PartFrame} {piece : Bytes}

theorem removeStreamIfDone_attending (h : Attending p s r stream c) :
    removeStreamIfDone s c = c := by
  rw [removeStreamIfDone, h.hasStream, h.alone.closed, Option.any_some, h.follows.notDone]
  rfl

theorem Over.removeStreamIfDone (h : Over s c) : Over s (removeStreamIfDone s c) := by
  obtain heq | ⟨-, heq⟩ := removeStreamIfDone_alone h.alone
  · rw [heq]
    exact h
  · have hgone : (c.streams.erase s).lookup s = none := IdMap.lookup_erase_self _ _
    rw [heq]
    refine ⟨⟨h.plainly.deferred, ?_, h.plainly.clear⟩, h.alone.sessions, h.alone.closed⟩
    rw [hgone]
    rfl

theorem frameFuel_attending (h : Attending p s r stream c) :
    frameFuel c s = stream.recvBuf.data.length + 2 := by
  rw [frameFuel, h.hasStream]
  rfl

/-- While more may come, a part of the next frame is kept. -/
theorem processStreamFrames_heard (h : Attending p s r stream c) (hrole : env.role = p.role)
    (hfin : stream.recvBuf.fin = false) {more : Bytes}
    (hwire : stream.recvBuf.data ++ more = fs.flatMap PartFrame.bytes)
    (hhears : p.hears r (fs.map PartFrame.part) = some last) :
    ∃ d o done rest part, processStreamFrames env s c = ⟨.ok (), d, o⟩ ∧
      reports s o = toldOf s done ∧ Midway p s last rest part d ∧
      Arrived PartFrame.bytes fs stream.recvBuf.data done rest part := by
  obtain ⟨d, o, done, rest, stream', t, hrun, hevents, hlast, hhears', hfin', -, harrived⟩ :=
    frames_heard fs (frameFuel c s) more h hrole hfin (by rw [frameFuel_attending h]; omega) hwire
      hhears
  refine ⟨d, o, done, rest, stream'.recvBuf.data, ?_, hevents, ⟨stream', t, hlast, hhears', ?_⟩,
    harrived⟩
  · rw [processStreamFrames, get_bind, bind_ok _ _ _ hrun]
    simp only [modify_run, removeStreamIfDone_attending hlast, List.append_nil]
  · rw [← hfin']

theorem processStreamFrames_end (h : Attending p s r stream c) (hrole : env.role = p.role)
    (hfin : stream.recvBuf.fin = true)
    (hwire : stream.recvBuf.data = fs.flatMap PartFrame.bytes)
    (hhears : p.hears r (fs.map PartFrame.part) = some last) (hend : p.mayEnd last = true) :
    ∃ d o, processStreamFrames env s c = ⟨.ok (), d, o⟩ ∧
      reports s o = toldOf s fs ++ [.event (.streamEnd s)] ∧ Over s d := by
  obtain ⟨d, o, hrun, hevents, hplainly, halone⟩ := frames_end fs (frameFuel c s) h hrole hfin
    (by rw [frameFuel_attending h]; omega) hwire hhears hend
  refine ⟨removeStreamIfDone s d, o, ?_, hevents, Over.removeStreamIfDone ⟨hplainly, halone⟩⟩
  rw [processStreamFrames, get_bind, bind_ok _ _ _ hrun]
  simp only [modify_run, List.append_nil]

theorem Attending.receive (h : Attending p s r stream c) (piece : Bytes) (fin : Bool) :
    Attending p s r (stream.receive piece fin)
      (modifyStream s (fun x => x.receive piece fin) c) := by
  refine h.next rfl ?_ (h.follows.receive piece fin) rfl
  simp only [modifyStream, IdMap.lookup_update_self, h.hasStream, Option.map_some]

/-- Bytes of a stream that is there go to its frames. -/
theorem feedStreamInner_next (h : Attending p s r stream c)
    (hkind : StreamKind.fromStreamId s = .clientBidi) {fin : Bool}
    (hframes : processStreamFrames env s (modifyStream s (fun x => x.receive piece fin) c) =
      ⟨.ok (), d, o⟩) :
    feedStreamInner env s piece fin c = ⟨.ok (), removeStreamIfDone s d, o⟩ := by
  have hcontains : c.streams.contains s = true := (IdMap.contains_iff _ _).mpr ⟨stream, h.hasStream⟩
  have hreceive := h.receive piece fin
  have hblocked := hreceive.follows.unblocked.1
  have hclear := h.plainly.clear
  have hdata := hclear.data
  have haside := hclear.aside
  simp only [isDataStream, Bool.or_eq_false_iff] at hdata
  simp only [isSetAside, Bool.or_eq_false_iff] at haside
  have hbidi : handleBidirectionalStream env s piece fin c = ⟨.ok (), d, o⟩ := by
    simp only [handleBidirectionalStream, get_bind, h.alone.closed, hcontains, Bool.not_true,
      Bool.and_false, Bool.false_and, Bool.false_eq_true, if_false, modify_bind, ensureStream,
      if_true, hreceive.hasStream, Option.any_some, hblocked, hframes]
  have hinner : feedStreamInner env s piece fin c =
      (attempt (handleBidirectionalStream env s piece fin) >>= fun r =>
        modify (removeStreamIfDone s) >>= fun _ => ofExcept r) c := by
    simp only [feedStreamInner, get_bind, hkind, hdata.1, hdata.2, hclear.dispatch, haside.1,
      haside.2, hcontains, StreamKind.isUnidirectional, StreamKind.isServerInitiated,
      Bool.and_false, Bool.or_self, Bool.not_true, Bool.false_eq_true, if_false]
  rw [hinner, bind_run, attempt_run, hbidi]
  simp only [modify_bind, ofExcept_run, List.append_nil]

/-! ### The first piece -/

/-- There is room for the message, and no session of its stream. -/
@[mk_iff]
structure Hosts (p : Recipient) (s : Nat) (c : Core) : Prop where
  alone : Alone s c
  fields : p.maxFieldSectionSize ≤ c.qpack.dynamicDecoder.maxFieldSectionSize
  body : p.maxReceivedBodySize ≤ c.limits.maxReceivedBodySize
  goaway : p.role = .server → (c.lastSentGoawayId.any fun id => id.get ≤ s) = false

instance (p : Recipient) (s : Nat) (c : Core) : Decidable (Hosts p s c) :=
  decidable_of_iff _ (hosts_iff p s c).symm

/-- The message of a request, before anything of it was received. -/
structure Expected (p : Recipient) (s : Nat) (last : Reading)
    (fs : List PartFrame) (c : Core) : Prop where
  server : p.role = .server
  request : p.isHeadRequest = false ∧ p.isConnectRequest = false
  plainly : Plainly s c
  noStream : c.streams.lookup s = none
  hosts : Hosts p s c
  hears : p.hears .new (fs.map PartFrame.part) = some last
  shortType : ∀ b ∈ (fs.flatMap PartFrame.bytes).head?, b < 0x40

/-- The core in which the stream of a request is made. -/
def opening (env : Env) (s : Nat) (piece : Bytes) (fin : Bool) (c : Core) : Core :=
  modifyStream s (fun x => x.receive piece fin)
    (ensureStream env s { c with wt := dropDispatch s c.wt })

/-- The stream as it is made, with its first bytes. -/
def opened (env : Env) (s : Nat) (piece : Bytes) (fin : Bool) (c : Core) : RequestStream :=
  { RequestStream.new s env.role with
    maxReceivedBodySize := c.limits.maxReceivedBodySize }.receive piece fin

variable (env piece) in
theorem Expected.attending (h : Expected p s last fs c) (fin : Bool) :
    Attending p s .new (opened env s piece fin c) (opening env s piece fin c) := by
  have hno : c.streams.contains s = false := by
    rw [IdMap.contains, h.noStream]
    rfl
  have hlookup : (opening env s piece fin c).streams.lookup s = some (opened env s piece fin c) := by
    simp only [opening, ensureStream, hno, Bool.false_eq_true, if_false, modifyStream, putStream,
      IdMap.lookup_update_self, IdMap.lookup_insert_self, Option.map_some, opened]
  have hsame : (opening env s piece fin c).wt = dropDispatch s c.wt ∧
      (opening env s piece fin c).qpack = c.qpack := by
    simp only [opening, ensureStream, hno, Bool.false_eq_true, if_false, modifyStream, putStream,
      and_self]
  obtain ⟨hwt, hqpack⟩ := hsame
  have hclear : Clear s (dropDispatch s c.wt) := dropDispatch_clears c.wt h.plainly.clear
  refine ⟨⟨?_, ?_, ?_⟩, ⟨?_, ?_⟩, hlookup, ?_, ?_⟩
  · rw [hwt]; exact h.plainly.deferred
  · rw [hlookup]; rfl
  · rw [hwt]; exact hclear
  · rw [hwt]; exact h.hosts.alone.sessions
  · rw [hwt]; exact h.hosts.alone.closed
  · exact ⟨rfl, rfl, rfl, rfl, h.request.1.symm, h.request.2.symm, rfl, h.hosts.body, ⟨rfl, rfl⟩,
      .inl rfl⟩
  · rw [hqpack]; exact h.hosts.fields

/-- The first bytes make the stream. -/
theorem feedStreamInner_first (h : Expected p s last fs c) (hrole : env.role = p.role)
    (hkind : StreamKind.fromStreamId s = .clientBidi) (hpiece : piece ≠ []) {more : Bytes}
    (hwire : piece ++ more = fs.flatMap PartFrame.bytes) {fin : Bool}
    (hframes : processStreamFrames env s (opening env s piece fin c) = ⟨.ok (), d, o⟩) :
    feedStreamInner env s piece fin c = ⟨.ok (), d, o⟩ := by
  have hserver := hrole.trans h.server
  have hno : c.streams.contains s = false := by
    rw [IdMap.contains, h.noStream]
    rfl
  have hclear := h.plainly.clear
  have hdata := hclear.data
  have haside := hclear.aside
  simp only [isDataStream, Bool.or_eq_false_iff] at hdata
  simp only [isSetAside, Bool.or_eq_false_iff] at haside
  obtain ⟨first, tail, rfl⟩ := List.exists_cons_of_ne_nil hpiece
  have hshort : first < 0x40 := h.shortType first (by rw [← hwire]; rfl)
  have hbuf : pendingWith c.wt.pendingBidiDispatch s (first :: tail) = first :: tail := by
    have hnone : c.wt.pendingBidiDispatch.lookup s = none :=
      Option.isNone_iff_eq_none.mp (Option.isSome_eq_false_iff.mp hclear.dispatch)
    unfold pendingWith
    rw [hnone]
    rfl
  have hattending := h.attending env (first :: tail) fin
  have hbidi : handleBidirectionalStream env s (first :: tail) fin
      { c with wt := dropDispatch s c.wt } = ⟨.ok (), d, o⟩ := by
    have hopened := hattending.hasStream
    have hblocked := hattending.follows.unblocked.1
    unfold opening at hopened hframes
    simp only [handleBidirectionalStream, get_bind, show c.wt.closedWtSessions.contains s = false
      from h.hosts.alone.closed, dropDispatch, hno, h.hosts.goaway h.server, Bool.and_false,
      Bool.false_eq_true, if_false, modify_bind]
    simp only [dropDispatch] at hopened hframes
    simp only [hopened, Option.any_some, hblocked, Bool.false_eq_true, if_false, hframes]
  have hdispatch : feedStreamInner env s (first :: tail) fin c =
      dispatchClientBidiStream env s (first :: tail) fin c := by
    simp only [feedStreamInner, get_bind, hkind, hserver, hdata.1, hdata.2, hclear.dispatch,
      haside.1, haside.2, hno, StreamKind.isUnidirectional, StreamKind.isServerInitiated,
      StreamKind.isClientInitiated, Bool.and_false, Bool.or_self, Bool.not_false,
      Bool.false_eq_true, if_false, decide_true, Bool.and_self, if_true]
  rw [hdispatch]
  simp only [dispatchClientBidiStream, get_bind, hbuf, if_pos hshort]
  exact hbidi

/-- The message is as far as its bytes. -/
inductive Awaits (p : Recipient) (s : Nat) (last : Reading)
    (rest : List PartFrame) : Bytes → Core → Prop
  | midway {part : Bytes} {c : Core} (h : Midway p s last rest part c) : Awaits p s last rest part c
  | first {c : Core} (h : Expected p s last rest c) : Awaits p s last rest [] c

variable {rest : List PartFrame} {part : Bytes}

variable (env) in
/-- A piece of a message. -/
theorem feed_heard (h : Awaits p s last rest part c) (hrole : env.role = p.role)
    (hkind : StreamKind.fromStreamId s = .clientBidi) (hpiece : piece ≠ []) {more : Bytes}
    (hwire : part ++ piece ++ more = rest.flatMap PartFrame.bytes) :
    ∃ d o done left part', feedStreamInner env s piece false c = ⟨.ok (), d, o⟩ ∧
      reports s o = toldOf s done ∧ Midway p s last left part' d ∧
      Arrived PartFrame.bytes rest (part ++ piece) done left part' := by
  cases h with
  | midway h =>
    obtain ⟨stream, r, hattending, hhears, hbuf⟩ := h
    have hdata : (stream.receive piece false).recvBuf = ⟨part ++ piece, false⟩ := by
      simp only [RequestStream.receive, Bool.false_eq_true, if_false, RecvBuffer.push, hbuf]
    obtain ⟨d, o, done, left, part', hrun, hevents, hmid, harrived⟩ := processStreamFrames_heard
      (hattending.receive piece false) hrole (by rw [hdata]) (by rw [hdata]; exact hwire) hhears
    rw [hdata] at harrived
    obtain ⟨stream', t, hlast, -⟩ := id hmid
    refine ⟨d, o, done, left, part', ?_, hevents, hmid, harrived⟩
    rw [feedStreamInner_next hattending hkind hrun, removeStreamIfDone_attending hlast]
  | first h =>
    rw [List.nil_append] at hwire
    obtain ⟨d, o, done, left, part', hrun, hevents, hmid, harrived⟩ := processStreamFrames_heard
      (h.attending env piece false) hrole rfl hwire h.hears
    exact ⟨d, o, done, left, part', feedStreamInner_first h hrole hkind hpiece hwire hrun, hevents,
      hmid, harrived⟩

variable (env) in
/-- The last piece, with FIN. -/
theorem feed_end (h : Awaits p s last rest part c) (hrole : env.role = p.role)
    (hkind : StreamKind.fromStreamId s = .clientBidi)
    (hwire : part ++ piece = rest.flatMap PartFrame.bytes) (hend : p.mayEnd last = true) :
    ∃ d o, feedStreamInner env s piece true c = ⟨.ok (), d, o⟩ ∧
      reports s o = toldOf s rest ++ [.event (.streamEnd s)] ∧ Over s d := by
  cases h with
  | midway h =>
    obtain ⟨stream, r, hattending, hhears, hbuf⟩ := h
    have hdata : (stream.receive piece true).recvBuf = ⟨part ++ piece, true⟩ := by
      simp only [RequestStream.receive, if_true, RecvBuffer.push, RecvBuffer.setFin, hbuf]
    obtain ⟨d, o, hrun, hevents, hover⟩ := processStreamFrames_end
      (hattending.receive piece true) hrole (by rw [hdata]) (by rw [hdata]; exact hwire) hhears hend
    exact ⟨_, o, feedStreamInner_next hattending hkind hrun, hevents, hover.removeStreamIfDone⟩
  | first h =>
    rw [List.nil_append] at hwire
    have hpiece : piece ≠ [] := by
      rintro rfl
      cases rest with
      | nil =>
        obtain rfl : Reading.new = last := Option.some.inj h.hears
        cases hend
      | cons f rest =>
        obtain ⟨frame, hreads, -⟩ := f.written.reads
        have hbytes := (decodeFrame_bounds hreads).1
        rw [List.flatMap_cons] at hwire
        rw [(List.append_eq_nil_iff.mp hwire.symm).1] at hbytes
        cases hbytes
    obtain ⟨d, o, hrun, hevents, hover⟩ := processStreamFrames_end
      (h.attending env piece true) hrole rfl hwire h.hears hend
    exact ⟨d, o, feedStreamInner_first h hrole hkind hpiece (by rw [List.append_nil]; exact hwire)
      hrun, hevents, hover⟩

end Pieces

end Connection

end Http3
