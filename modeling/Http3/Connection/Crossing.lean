import Http3.Connection.Arrivals
import Http3.Connection.SentMessage

/-!
# From one application to the other

What is handed out at one end of a stream is fed at the other end, as far as it has come and in
whatever pieces. What the calls at the one end queue is what the application at the other end is
told.
-/

namespace Http3

open Qpack

namespace Connection

open Proc

/-! ## What has come over -/

/-- The parts of a message, written as these marks, are told as far as the marks have come. -/
structure Conveyed (cfg : Config) (s : Nat) (c : Connection) (js : List Input) (parts : List Part)
    (marks : List Mark) : Prop where
  told : ∃ done, done <+: parts ∧ (fed s js = marks → done = parts) ∧
    reports s (c.trace cfg js) = done.flatMap (Part.events s) ++ endOf s (decide (none ∈ fed s js))
  whole : none ∈ fed s js → fed s js = marks
  accepted : EveryStep cfg (fun c i => isPiece s i.call = true →
    (c.feed cfg i).result = .ok .done) c js

theorem none_mem_marks {x : Bytes} {fin : Bool} :
    none ∈ bytesOf x ++ finMark fin ↔ fin = true := by
  rw [List.mem_append]
  constructor
  · rintro (h | h)
    · obtain ⟨b, -, hb⟩ := List.mem_map.mp h
      cases hb
    · cases fin with
      | false => cases h
      | true => rfl
  · rintro rfl
    exact .inr List.mem_cons_self

/-- A beginning of some bytes and FIN is a beginning of the bytes, or it is everything. -/
theorem prefix_marks {l : List Mark} {y : Bytes} {fin : Bool}
    (h : l <+: bytesOf y ++ finMark fin) :
    ∃ x more fin', l = bytesOf x ++ finMark fin' ∧ x ++ more = y ∧
      (fin' = true → more = [] ∧ fin = true) := by
  obtain ⟨t, ht⟩ := h
  obtain ⟨m, hbytes, -⟩ | ⟨m, hl, hmark⟩ := List.append_eq_append_iff.mp ht
  · obtain ⟨x, more, rfl, hx, -⟩ := List.map_eq_append_iff.mp hbytes
    exact ⟨x, more, false, by rw [← hx]; exact (List.append_nil _).symm, rfl, nofun⟩
  · refine ⟨y, [], m == finMark true, ?_, List.append_nil y, fun hm => ⟨rfl, ?_⟩⟩
    · rw [hl]
      cases fin with
      | false =>
        obtain rfl := (List.append_eq_nil_iff.mp hmark.symm).1
        rfl
      | true =>
        cases m with
        | nil => rfl
        | cons a m =>
          obtain ⟨rfl, hm⟩ := List.cons.inj hmark
          obtain rfl := (List.append_eq_nil_iff.mp hm.symm).1
          rfl
    · rw [beq_iff_eq.mp hm] at hmark
      cases fin with
      | false => cases hmark
      | true => rfl

/-- The marks of all bytes are those of no others. -/
theorem marks_injective {x y : Bytes} {fin fin' : Bool}
    (h : bytesOf x ++ finMark fin = bytesOf y ++ finMark fin') : x = y ∧ fin = fin' := by
  obtain ⟨z, rfl, hz⟩ := bytesOf_split h
  cases z with
  | nil =>
    cases fin <;> cases fin' <;> first | exact ⟨(List.append_nil x).symm, rfl⟩ | cases hz
  | cons b z => cases fin <;> cases hz

/-- A message that was written is told as its marks come. -/
theorem Writes.conveyed {cfg : Config} {p : Recipient} {s : Nat} {c : Connection} {js : List Input}
    {last : Reading} {parts : List Part} {marks : List Mark} (hwrites : Writes marks parts)
    (hfed : fed s js <+: marks) (hrole : cfg.role = p.role)
    (hkind : StreamKind.fromStreamId s = .clientBidi) (hnoError : c.error = none)
    (hready : ∀ fs : List PartFrame, fs.map PartFrame.part = parts →
      (∀ f ∈ fs, f.HasShortType) → Awaits p s last fs [] c.core)
    (hjs : EveryStep cfg (Accommodates cfg p s) c js)
    (hend : none ∈ fed s js → p.mayEnd last = true) : Conveyed cfg s c js parts marks := by
  obtain ⟨fs, fin, rfl, hshort, rfl⟩ := hwrites
  obtain ⟨x, more, fin', hx, hwire, hwhole⟩ := prefix_marks hfed
  have hnone : none ∈ fed s js ↔ fin' = true := by rw [hx]; exact none_mem_marks
  obtain ⟨done, left, part, harrived, htold, haccepted⟩ := message_run hrole hkind hnoError
    (hready fs rfl hshort) hjs hx (shorter_of_frames fs) hwire
    fun hfin => ⟨(hwhole hfin).1, hend (hnone.mpr hfin)⟩
  refine ⟨⟨done.map PartFrame.part, ?_, fun hall => ?_, ?_⟩, fun hfin => ?_, haccepted⟩
  · exact ⟨left.map PartFrame.part, by rw [← List.map_append, ← harrived.split]⟩
  · obtain ⟨rfl, -⟩ := marks_injective (hx.symm.trans hall)
    rw [harrived.all.2]
  · have hdecide : decide (none ∈ fed s js) = fin' := by
      rw [Bool.eq_iff_iff, decide_eq_true_iff]
      exact hnone
    rw [htold, hdecide, List.flatMap_map]
    rfl
  · obtain ⟨rfl, rfl⟩ := hwhole (hnone.mp hfin)
    obtain rfl := hnone.mp hfin
    rw [hx, ← hwire, List.append_nil]

/-! ## What a client says -/

/-- The body of a message. -/
def bodySaid (parts : List Part) : Bytes :=
  parts.flatMap fun
    | .section _ => []
    | .data payload => payload

theorem bodySaid_data (payloads : List Bytes) : bodySaid (payloads.map .data) = payloads.flatten := by
  rw [bodySaid, List.flatMap_map]
  exact List.flatMap_id'

/-- Validation does not ask whether a field may be indexed. -/
theorem validateRequestHeaders_readBack (headers : List Header) :
    Validation.validateRequestHeaders (headers.map readBack) =
      Validation.validateRequestHeaders headers := by
  have hscan : ∀ f, Validation.scanRequest f (headers.map readBack) =
      Validation.scanRequest f headers := by
    induction headers with
    | nil => exact fun f => rfl
    | cons h headers ih =>
      intro f
      have hstep : (if Validation.isPseudo (readBack h) then Validation.scanPseudo f (readBack h)
          else Validation.scanRegular f (readBack h)) =
          if Validation.isPseudo h then Validation.scanPseudo f h
          else Validation.scanRegular f h := rfl
      rw [List.map_cons, Validation.scanRequest, Validation.scanRequest, hstep]
      split
      · rfl
      · exact ih _
  unfold Validation.validateRequestHeaders
  rw [hscan]

theorem validateContentLength_readBack (headers : List Header) (size : Nat) (skip : Bool) :
    Validation.validateContentLength (headers.map readBack) size skip =
      Validation.validateContentLength headers size skip := by
  have hscan : ∀ found, Validation.scanContentLength found (headers.map readBack) =
      Validation.scanContentLength found headers := by
    induction headers with
    | nil => exact fun found => rfl
    | cons h headers ih =>
      intro found
      have hname : (readBack h).name = h.name := rfl
      have hvalue : (readBack h).value = h.value := rfl
      rw [List.map_cons, Validation.scanContentLength, Validation.scanContentLength, hname, hvalue,
        ih]
      split
      · split
        · rfl
        · split
          · rfl
          · exact ih _
      · rfl
  unfold Validation.validateContentLength
  rw [hscan]

theorem isWebtransportConnect_readBack (headers : List Header) :
    isWebtransportConnect (headers.map readBack) = isWebtransportConnect headers := by
  unfold isWebtransportConnect hasHeader
  rw [List.any_map, List.any_map, List.any_map]
  rfl

section Client

variable {cfg : Config} {s : Nat} {c : Connection} {i : Input}

/-- A client queues no response. -/
theorem queuedBy_response (hclient : cfg.role = .client) {x : Nat} {headers : List Header}
    {fin : Bool} (hi : i.call = .sendResponse x headers fin) : queuedBy cfg s c i = [] := by
  have hcheck : checkResponse (cfg.env i.order) c.core s headers =
      .error (.connectionError .internalError) := by
    have hrole : (cfg.env i.order).role = .client := hclient
    simp only [checkResponse, hrole, ensure, bind, Except.bind]
    rfl
  simp only [queuedBy, hi, responseMarks, hcheck, ite_self]

theorem saidBy_nothing (h : queuedBy cfg s c i = []) : saidBy cfg s c i = [] := by
  rw [saidBy, h]
  rfl

/-- The id that a request gets is the next one. -/
theorem request_id {headers : List Header} {fin : Bool} {id : Nat}
    (hi : i.call = .sendRequest headers fin) (hid : (c.feed cfg i).result = .ok (.streamId id))
    (he : c.core.qpack.encoder.table.entries = []) :
    id = c.core.nextStreamId ∧ (c.feed cfg i).conn.core.nextStreamId = id + 4 := by
  have hout := feed_request cfg hi he
  generalize losesId cfg c i = loses at hout
  cases hout with
  | refused e hr | lost hr | panicked hr => cases hr.symm.trans hid
  | sent hr hnext =>
    cases hr.symm.trans hid
    exact ⟨rfl, hnext⟩

/-- A request that is sent has passed its checks. -/
theorem request_valid {headers : List Header} {fin : Bool} {r : Response}
    (hi : i.call = .sendRequest headers fin) (hok : (c.feed cfg i).result = .ok r) :
    Validation.validateRequestHeaders headers = .ok () := by
  rcases i with ⟨order, call⟩
  obtain rfl : call = .sendRequest headers fin := hi
  cases herror : c.error with
  | some e =>
    rw [show c.feed cfg ⟨order, .sendRequest headers fin⟩ = ⟨.error e, c, []⟩ from
      guarded_of_some herror _] at hok
    cases hok
  | none =>
    cases hcheck : checkRequest (cfg.env order) c.core headers with
    | error e =>
      have hrun := (guarded_run herror
        (wrapped_run (sendRequestInner_refused hcheck fin) Response.streamId)).1
      rw [show (c.feed cfg ⟨order, .sendRequest headers fin⟩).result = _ from hrun] at hok
      cases hok
    | ok u =>
      cases hvalid : Validation.validateRequestHeaders headers with
      | ok u => rfl
      | error e =>
        simp only [checkRequest, hvalid, bind, Except.bind] at hcheck
        split at hcheck
        · cases hcheck
        · split at hcheck <;> cases hcheck

theorem after_raises (cfg : Config) (c : Connection) (is : List Input) :
    c.core.nextStreamId ≤ (after cfg c is).core.nextStreamId := by
  induction is generalizing c with
  | nil => exact Nat.le_refl _
  | cons i is ih => exact (feed_raises cfg c i).1.trans (ih _)

/-- The request on the stream was sent: what follows is its body. -/
theorem later_says (hclient : cfg.role = .client) (he : c.core.qpack.encoder.table.entries = [])
    (hid : s < c.core.nextStreamId) (is : List Input) :
    ∃ payloads : List Bytes, said cfg s c is = payloads.map .data := by
  induction is generalizing c with
  | nil => exact ⟨[], rfl⟩
  | cons i is ih =>
    obtain ⟨payloads, hlater⟩ := ih (feed_entries he) (hid.trans_le (feed_raises cfg c i).1)
    have hnow : ∃ now : List Bytes, saidBy cfg s c i = now.map .data := by
      cases hcall : i.call with
      | sendRequest headers fin =>
        refine ⟨[], saidBy_nothing ?_⟩
        simp only [queuedBy, hcall]
        refine if_neg fun hresult => ?_
        obtain ⟨rfl, -⟩ := request_id hcall hresult he
        exact Nat.lt_irrefl _ hid
      | sendResponse x headers fin => exact ⟨[], saidBy_nothing (queuedBy_response hclient hcall)⟩
      | sendBody x data fin =>
        simp only [saidBy, hcall]
        split
        · exact ⟨[], rfl⟩
        split
        · exact ⟨[], rfl⟩
        · exact ⟨[data], rfl⟩
      | _ => exact ⟨[], saidBy_nothing (by simp only [queuedBy, hcall])⟩
    obtain ⟨now, hnow⟩ := hnow
    exact ⟨now ++ payloads, by rw [said, hnow, hlater, List.map_append]⟩

/-- Before its request is sent, nothing is queued on a stream. -/
theorem queuedBy_before (hclient : cfg.role = .client) (hc : Sending cfg.role s c.core)
    (he : c.core.qpack.encoder.table.entries = [])
    (hid : (c.feed cfg i).conn.core.nextStreamId ≤ s) : queuedBy cfg s c i = [] := by
  cases hcall : i.call with
  | sendRequest headers fin =>
    simp only [queuedBy, hcall]
    refine if_neg fun hresult => ?_
    obtain ⟨rfl, hnext⟩ := request_id hcall hresult he
    omega
  | sendResponse x headers fin => exact queuedBy_response hclient hcall
  | sendBody x data fin =>
    simp only [queuedBy, hcall]
    refine if_neg ?_
    rintro ⟨rfl, hok⟩
    obtain ⟨stream, t, hs, hsend⟩ := sendBody_succeeds hcall hok
    have hinitial := (hc.unopened hclient ((feed_raises cfg c i).1.trans hid) stream hs).1
    unfold RequestStream.sendBody RequestStream.checkSendBody at hsend
    rw [hinitial] at hsend
    split at hsend <;> cases hsend
  | _ => simp only [queuedBy, hcall]

theorem before_says (hclient : cfg.role = .client)
    (hbidi : (StreamKind.fromStreamId s).isUnidirectional = false)
    (hc : Sending cfg.role s c.core) (he : c.core.qpack.encoder.table.entries = []) {is : List Input}
    (h : EveryStep cfg (Delivers cfg s) c is) (hid : (after cfg c is).core.nextStreamId ≤ s) :
    said cfg s c is = [] := by
  induction is generalizing c with
  | nil => rfl
  | cons i is ih =>
    have hnow := saidBy_nothing (queuedBy_before hclient hc he
      ((after_raises cfg _ is).trans hid))
    rw [said, hnow, ih (accounted hbidi hc h.1).sending (feed_entries he) h.2 hid]
    rfl

theorem said_append (cfg : Config) (s : Nat) (c : Connection) (is js : List Input) :
    said cfg s c (is ++ js) = said cfg s c is ++ said cfg s (after cfg c is) js := by
  induction is generalizing c with
  | nil => rfl
  | cons i is ih => rw [List.cons_append, said, ih, said, List.append_assoc, after]

/-- A client says its headers, then its body. -/
theorem client_says (hclient : cfg.role = .client)
    (hbidi : (StreamKind.fromStreamId s).isUnidirectional = false)
    (hc : Sending cfg.role s c.core) (he : c.core.qpack.encoder.table.entries = [])
    {is : List Input} {headers : List Header} {fin : Bool}
    (h : EveryStep cfg (Delivers cfg s) c is) (hi : i.call = .sendRequest headers fin)
    (hid : ((after cfg c is).feed cfg i).result = .ok (.streamId s)) (js : List Input) :
    ∃ payloads : List Bytes, said cfg s c (is ++ i :: js) =
      .section (headers.map readBack) :: payloads.map .data := by
  have hentries : (after cfg c is).core.qpack.encoder.table.entries = [] :=
    h.inv (I := fun c => c.core.qpack.encoder.table.entries = []) (fun _ _ he _ => feed_entries he) he
  obtain ⟨hs, hnext⟩ := request_id hi hid hentries
  obtain ⟨payloads, hlater⟩ := later_says hclient (feed_entries hentries)
    (show s < ((after cfg c is).feed cfg i).conn.core.nextStreamId by omega) js
  have hframe := sendRequest_frame hentries hi (by rw [hid]; rfl)
  have hnow : saidBy cfg s (after cfg c is) i = [.section (headers.map readBack)] := by
    obtain ⟨bytes, hbytes⟩ := Option.isSome_iff_exists.mp hframe
    have hhead : bytes.head? = some 1 := encodeWithHeader_head hbytes
    have hqueues : (queuedBy cfg s (after cfg c is) i).isEmpty = false := by
      rw [queuedBy, hi]
      dsimp only
      rw [if_pos hid, requestMarks, encodedSection_static hentries]
      dsimp only
      rw [headersFrame, hbytes]
      cases bytes with
      | nil => cases hhead
      | cons b bytes => rfl
    rw [saidBy, hqueues, if_neg Bool.false_ne_true, hi]
  refine ⟨payloads, ?_⟩
  rw [said_append, before_says hclient hbidi hc he h hs.ge, said, hnow, hlater]
  rfl

end Client

/-! ## What a server takes -/

theorem Recipient.hears_data (p : Recipient) {r : Reading} {payloads : List Bytes}
    (hstate : r.recvState = .receivingBody)
    (hroom : r.body.length + payloads.flatten.length ≤ p.maxReceivedBodySize) :
    p.hears r (payloads.map .data) = some { r with body := r.body ++ payloads.flatten } := by
  induction payloads generalizing r with
  | nil => rw [List.flatten_nil, List.append_nil]; rfl
  | cons payload payloads ih =>
    rw [List.flatten_cons, List.length_append] at hroom
    have hone : p.hear r (.data payload) = some { r with body := r.body ++ payload } := by
      refine if_pos ?_
      simp only [hstate, decide_true, Bool.true_and, decide_eq_true_eq]
      omega
    have hrest := ih (r := { r with body := r.body ++ payload }) hstate
      (by rw [List.length_append]; omega)
    rw [List.append_assoc] at hrest
    rw [List.flatten_cons, ← hrest, Recipient.hears, List.map_cons, List.foldlM_cons, hone]
    rfl

/-- A request that fits is heard to its end. -/
theorem hears_request {headers : List Header} {payloads : List Bytes}
    {maxFieldSectionSize maxReceivedBodySize : Nat}
    (hvalid : Validation.validateRequestHeaders headers = .ok ())
    (hplain : isWebtransportConnect headers = false)
    (hfields : (headers.map Header.size).sum ≤ maxFieldSectionSize)
    (hbody : payloads.flatten.length ≤ maxReceivedBodySize) :
    (Recipient.ofRequests maxFieldSectionSize maxReceivedBodySize).hears .new
        (.section (headers.map readBack) :: payloads.map .data) =
      some ⟨.receivingBody, headers.map readBack, payloads.flatten,
        isPlainConnect (headers.map readBack)⟩ := by
  have hfirst : (Recipient.ofRequests maxFieldSectionSize maxReceivedBodySize).hear .new
      (.section (headers.map readBack)) =
      some ⟨.receivingBody, headers.map readBack, [], isPlainConnect (headers.map readBack)⟩ := by
    have hserver : Validation.validateHeaders (headers.map readBack) .server = .ok () :=
      (validateRequestHeaders_readBack headers).trans hvalid
    simp only [Recipient.hear, Recipient.ofRequests, readBack_size, Reading.new, hserver,
      isWebtransportConnect_readBack, hplain, Nat.not_lt.mpr hfields, if_false]
    simp [Recipient.begin, Except.toBool]
  have hrest := @Recipient.hears_data (.ofRequests maxFieldSectionSize maxReceivedBodySize)
    ⟨.receivingBody, headers.map readBack, [], isPlainConnect (headers.map readBack)⟩ payloads rfl
    (by rw [List.length_nil, Nat.zero_add]; exact hbody)
  rw [Recipient.hears, List.foldlM_cons, hfirst]
  exact hrest

/-! ## Both directions -/

theorem taken_begins_queued {cfg : Config} {s : Nat} {c₀ : Connection}
    (hnew : Connection.new cfg = .ok c₀)
    (hbidi : (StreamKind.fromStreamId s).isUnidirectional = false) {is : List Input}
    (h : EveryStep cfg (Delivers cfg s) c₀ is) : taken cfg s c₀ is <+: queued cfg s c₀ is := by
  have hempty : outstanding c₀.core s = [] := by
    simp only [Connection.new, Core.new, bind, Except.bind, pure, Except.pure] at hnew
    split at hnew <;> cases hnew
    rfl
  have haccount := account_run hbidi (Sending.new hnew) h
  rw [hempty, List.nil_append] at haccount
  exact ⟨_, haccount⟩

theorem bidi_of_kind {s : Nat} (h : StreamKind.fromStreamId s = .clientBidi) :
    (StreamKind.fromStreamId s).isUnidirectional = false := by
  rw [h]
  rfl

/-- A request whose stream is emptied three times. -/
def postedRequest : List Input :=
  [Call.setControlStreamId 2].map Call.listed ++
    (Call.sendRequest Sample.getHeaders false).listed ::
    [Call.takeStreamData 0, .sendBody 0 [1, 2] true, .takeStreamData 0, .takeStreamData 0].map
      Call.listed

/-- A response in three parts, whose stream is emptied at the end. -/
def reply : List Input :=
  (Sample.serverSetup ++ [Call.feedStream 0 (Sample.headersBytes Sample.getHeaders) true,
    .sendResponse 0 hintHeaders false, .sendResponse 0 Sample.okHeaders false,
    .sendBody 0 [1, 2] true, .takeStreamData 0, .takeStreamData 0]).map Call.listed

end Connection

end Http3
