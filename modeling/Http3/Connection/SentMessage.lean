import Http3.Connection.MessageRun
import Http3.Connection.Requests
import Http3.Qpack.Section

/-!
# What is queued is a message

The encoder of a connection has no entries, so a section that is sent is written with the static
table alone and read by any decoder. What calls queue on a stream are frames of a message: a section
for a request or a response, and a DATA frame for each piece of a body.
-/

namespace Http3

open Qpack

namespace Connection

open Proc

theorem encodedSection_static {c : Core} (he : c.qpack.encoder.table.entries = [])
    (headers : List Header) :
    encodedSection c headers = .ok (c.qpack.encoder.encodeStaticOnly headers) := by
  rw [encodedSection, encodeTries, DynamicEncoder.encode_of_entries_nil he (by omega)]

/-! ## One call -/

/-- The part of a message that a call queues on the stream. -/
def saidBy (cfg : Config) (s : Nat) (c : Connection) (i : Input) : List Part :=
  if (queuedBy cfg s c i).isEmpty then []
  else
    match i.call with
    | .sendRequest headers _ | .sendResponse _ headers _ => [.section (headers.map readBack)]
    | .sendBody _ data _ => if data.isEmpty then [] else [.data data]
    | _ => []

/-- What a run says on the stream. -/
def said (cfg : Config) (s : Nat) (c : Connection) : List Input → List Part
  | [] => []
  | i :: is => saidBy cfg s c i ++ said cfg s (c.feed cfg i).conn is

/-- The marks are frames with these parts, and maybe FIN. -/
def Writes (marks : List Mark) (parts : List Part) : Prop :=
  ∃ (fs : List PartFrame) (fin : Bool), fs.map PartFrame.part = parts ∧
    (∀ f ∈ fs, f.HasShortType) ∧ marks = bytesOf (fs.flatMap PartFrame.bytes) ++ finMark fin

theorem Writes.nothing (fin : Bool) : Writes (finMark fin) [] := ⟨[], fin, rfl, nofun, rfl⟩

theorem Writes.frame (f : PartFrame) (hshort : f.HasShortType) (fin : Bool) :
    Writes (bytesOf f.bytes ++ finMark fin) [f.part] := by
  refine ⟨[f], fin, rfl, fun g hg => List.mem_singleton.mp hg ▸ hshort, ?_⟩
  rw [List.flatMap_cons, List.flatMap_nil, List.append_nil]

/-- A section that was written without entries. -/
theorem Writes.section {c : Core} {headers : List Header} (fin : Bool)
    (h : (encodeFrame (.headers (c.qpack.encoder.encodeStaticOnly headers))).isSome) :
    Writes (bytesOf (headersFrame (c.qpack.encoder.encodeStaticOnly headers)) ++ finMark fin)
      [.section (headers.map readBack)] := by
  obtain ⟨bytes, hbytes⟩ := Option.isSome_iff_exists.mp h
  rw [headersFrame, hbytes]
  exact .frame (.ofSection hbytes) (PartFrame.ofSection_shortType hbytes) fin

theorem sendEncodedHeaders_frame {r : RequestStream} {encoded : Bytes} {fin isInterim : Bool}
    (h : succeeded (r.sendEncodedHeaders encoded fin isInterim) = true) :
    (encodeFrame (.headers encoded)).isSome := by
  unfold RequestStream.sendEncodedHeaders at h
  cases hcheck : r.checkSendHeaders fin isInterim with
  | error e => simp [hcheck, bind, Except.bind, succeeded] at h
  | ok u =>
    cases hframe : encodeFrame (.headers encoded) with
    | none => simp [hcheck, hframe, bind, Except.bind, succeeded] at h
    | some frame => rfl

theorem sendBody_frame {r t : RequestStream} {data : Bytes} {fin : Bool}
    (h : r.sendBody data fin = .ok t) (hdata : data.isEmpty = false) :
    (encodeFrame (.data data)).isSome := by
  unfold RequestStream.sendBody RequestStream.pushBody at h
  rw [hdata] at h
  cases hcheck : r.checkSendBody with
  | error e => simp [hcheck, bind, Except.bind] at h
  | ok u =>
    cases hframe : encodeFrame (.data data) with
    | none => simp [hcheck, hframe, bind, Except.bind] at h
    | some frame => rfl

/-- A request that is sent has a frame. -/
theorem sendRequestInner_frame {env : Env} {c : Core} {headers : List Header} {fin : Bool}
    (he : c.qpack.encoder.table.entries = [])
    (h : succeeded (sendRequestInner env headers fin c).val = true) :
    (encodeFrame (.headers (c.qpack.encoder.encodeStaticOnly headers))).isSome := by
  unfold sendRequestInner at h
  rw [get_bind] at h
  cases hcheck : checkRequest env c headers with
  | error e =>
    rw [hcheck] at h
    cases h
  | ok u =>
    rw [hcheck, ofExcept_ok, ret_bind, bind_ok _ _ _ (encodeQpackHeaders_static he headers),
      modify_bind] at h
    split at h
    · cases h
    · cases hsend : (requestStream env c c.nextStreamId headers).sendEncodedHeaders
          (c.qpack.encoder.encodeStaticOnly headers) fin false with
      | error e =>
        rw [hsend] at h
        cases h
      | ok t => exact sendEncodedHeaders_frame (by rw [hsend]; rfl)

section Call

variable {cfg : Config} {s : Nat} {c : Connection} {i : Input}

theorem sendRequest_frame {headers : List Header} {fin : Bool}
    (he : c.core.qpack.encoder.table.entries = []) (hi : i.call = .sendRequest headers fin)
    (hok : succeeded (c.feed cfg i).result = true) :
    (encodeFrame (.headers (c.core.qpack.encoder.encodeStaticOnly headers))).isSome := by
  rcases i with ⟨order, call⟩
  obtain rfl : call = .sendRequest headers fin := hi
  suffices hsent : succeeded (sendRequestInner (cfg.env order) headers fin c.core).val = true from
    sendRequestInner_frame he hsent
  cases herror : c.error with
  | some e =>
    rw [feed, step, guarded_of_some herror] at hok
    cases hok
  | none =>
    rcases hx : sendRequestInner (cfg.env order) headers fin c.core with ⟨val, st, out⟩
    have hrun := (guarded_run herror (wrapped_run hx .streamId)).1
    rw [show (c.feed cfg ⟨order, .sendRequest headers fin⟩).result = _ from hrun] at hok
    cases val with
    | error e => cases hok
    | ok id => rfl

/-- A call queues the frame of a part, FIN, both or nothing. -/
theorem queuedBy_writes (he : c.core.qpack.encoder.table.entries = []) :
    Writes (queuedBy cfg s c i) (saidBy cfg s c i) := by
  rcases hempty : (queuedBy cfg s c i).isEmpty with _ | _
  swap
  · rw [saidBy, hempty, if_pos rfl, List.isEmpty_iff.mp hempty]
    exact .nothing false
  rw [saidBy, hempty, if_neg Bool.false_ne_true]
  rcases i with ⟨order, call⟩
  cases call with
  | sendRequest headers fin =>
    simp only [queuedBy] at hempty ⊢
    split at hempty
    · rename_i hresult
      rw [if_pos hresult, requestMarks, encodedSection_static he]
      exact .section fin (sendRequest_frame he rfl (by rw [hresult]; rfl))
    · cases hempty
  | sendResponse x headers fin =>
    simp only [queuedBy] at hempty ⊢
    split at hempty
    · rename_i hx
      rw [if_pos hx]
      simp only [responseMarks, encodedSection_static he] at hempty ⊢
      cases hcheck : checkResponse (cfg.env order) c.core s headers with
      | error e =>
        rw [hcheck] at hempty
        cases hempty
      | ok u =>
        rw [hcheck] at hempty
        dsimp only at hempty ⊢
        split at hempty
        · rename_i htakes
          rw [if_pos htakes]
          obtain ⟨stream, -, hsend⟩ := (Option.any_eq_true _ _).mp htakes
          exact .section fin (sendEncodedHeaders_frame hsend)
        · cases hempty
    · cases hempty
  | sendBody x data fin =>
    simp only [queuedBy] at hempty ⊢
    split at hempty
    · rename_i hx
      rw [if_pos hx, bodyFrame]
      cases hdata : data.isEmpty with
      | true => exact .nothing fin
      | false =>
        obtain ⟨rfl, hok⟩ := hx
        obtain ⟨stream, t, -, hsend⟩ := sendBody_succeeds rfl hok
        obtain ⟨bytes, hbytes⟩ := Option.isSome_iff_exists.mp (sendBody_frame hsend hdata)
        rw [if_neg Bool.false_ne_true, hbytes]
        exact .frame (.ofData hbytes) (PartFrame.ofData_shortType hbytes) fin
    · cases hempty
  | _ => cases hempty

end Call

/-! ## A run -/

/-- Once FIN is queued the stream is not opened again. -/
def EndsOnce (cfg : Config) (s : Nat) (c : Connection) : List Input → Prop
  | [] => True
  | i :: is => (none ∈ queuedBy cfg s c i →
      EveryStep cfg (fun c i => ¬Opens cfg s c i) (c.feed cfg i).conn is) ∧
    EndsOnce cfg s (c.feed cfg i).conn is

instance EndsOnce.decidable (cfg : Config) (s : Nat) : ∀ c is, Decidable (EndsOnce cfg s c is)
  | _, [] => .isTrue trivial
  | c, i :: is =>
    have : Decidable (EndsOnce cfg s (c.feed cfg i).conn is) := EndsOnce.decidable cfg s _ is
    inferInstanceAs (Decidable ((none ∈ queuedBy cfg s c i → _) ∧ _))

theorem said_of_queued {cfg : Config} {s : Nat} {c : Connection} {is : List Input}
    (h : queued cfg s c is = []) : said cfg s c is = [] := by
  induction is generalizing c with
  | nil => rfl
  | cons i is ih =>
    obtain ⟨hnow, hlater⟩ := List.append_eq_nil_iff.mp h
    rw [said, ih hlater, List.append_nil, saidBy, hnow]
    rfl

theorem Writes.append {marks marks' : List Mark} {parts parts' : List Part}
    (h : Writes marks parts) (h' : Writes marks' parts') (hfin : none ∉ marks) :
    Writes (marks ++ marks') (parts ++ parts') := by
  obtain ⟨fs, fin, rfl, hshort, rfl⟩ := h
  obtain ⟨fs', fin', rfl, hshort', rfl⟩ := h'
  cases fin with
  | true => exact absurd (List.mem_append_right _ List.mem_cons_self) hfin
  | false =>
    refine ⟨fs ++ fs', fin', List.map_append, List.forall_mem_append.mpr ⟨hshort, hshort'⟩, ?_⟩
    rw [List.flatMap_append, bytesOf_append, finMark, if_neg Bool.false_ne_true, List.append_nil,
      List.append_assoc]

/-- What a run queues on a stream is a message, as far as it goes. -/
theorem queued_writes {cfg : Config} {s : Nat} {c : Connection}
    (hbidi : (StreamKind.fromStreamId s).isUnidirectional = false)
    (hc : Sending cfg.role s c.core) (he : c.core.qpack.encoder.table.entries = [])
    {is : List Input} (h : EveryStep cfg (Delivers cfg s) c is) (hends : EndsOnce cfg s c is) :
    Writes (queued cfg s c is) (said cfg s c is) := by
  induction is generalizing c with
  | nil => exact .nothing false
  | cons i is ih =>
    have hnext := (accounted hbidi hc h.1).sending
    rw [queued, said]
    by_cases hfin : none ∈ queuedBy cfg s c i
    · have hrest := queued_ended hbidi hnext (ended_of_queued hbidi hc h.1 hfin) h.2 (hends.1 hfin)
      rw [hrest, said_of_queued hrest, List.append_nil, List.append_nil]
      exact queuedBy_writes he
    · exact (queuedBy_writes he).append (ih hnext (feed_entries he) h.2 hends.2) hfin

end Connection

end Http3
