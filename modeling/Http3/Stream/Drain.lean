import Http3.Lib.Consumer
import Http3.Stream.Arrival

/-!
# A request stream in pieces

QUIC delivers a stream in pieces, and after each of them the connection takes out what is ready.
What is taken out, and the error that ends it, depend on the bytes only.
-/

namespace Http3

open Bytes

namespace RequestStream

/-! ## Taking out what is ready -/

/-- What was taken out, and the stream or the error that ended it. -/
abbrev Received : Type := List RawReceivedData × Except Error RequestStream

variable (informational : List RawReceivedData → Bool)

/-- After a header block the connection says whether it was an informational response. -/
def inform (s : RequestStream) (log : List RawReceivedData) : RawReceivedData → RequestStream
  | .headers _ => if informational log then s.notifyInformational else s
  | _ => s

def drainWith : Nat → RequestStream → List RawReceivedData → Received
  | 0, s, log => (log, .ok s)
  | fuel + 1, s, log =>
    match s.processRaw with
    | (.error e, _) => (log, .error e)
    | (.ok none, s) => (log, .ok s)
    | (.ok (some item), s) =>
      drainWith fuel (inform informational s (log ++ [item]) item) (log ++ [item])

/-- Everything but the end of the stream takes bytes. -/
def drain (s : RequestStream) (log : List RawReceivedData) : Received :=
  drainWith informational (s.recvBuf.peek.length + 2) s log

/-- One piece arrives; after an error nothing is read. -/
def arrive (r : Received) (data : Bytes) (fin : Bool) : Received :=
  match r with
  | (_, .error _) => r
  | (log, .ok s) => drain informational (s.receive data fin) log

/-- FIN comes with the last piece, which may be empty. -/
def arriveAll (s : RequestStream) (pieces : List Bytes) (last : Bytes) : Received :=
  arrive informational (pieces.foldl (fun r piece => arrive informational r piece false)
    ([], .ok s)) last true

/-- A stream that nothing has arrived on. -/
def opened (streamId : Nat) (role : Role) (maxReceivedBodySize : Nat)
    (isConnect isWtConnect : Bool) : RequestStream :=
  { RequestStream.new streamId role with maxReceivedBodySize, isConnect, isWtConnect }

/-! ## The stream as a consumer -/

/-- The stream with this in its buffer. -/
def holding (s : RequestStream) (data : Bytes) (fin : Bool) : RequestStream :=
  { s with recvBuf := ⟨data, fin⟩ }

/-- The first frame was seen. -/
def seen (s : RequestStream) : RequestStream := { s with firstFrameProcessed := true }

def consumer : Consumer Error (RequestStream × List RawReceivedData) UInt8 := fun (s, log) data =>
  match frameAt s.frameRules data with
  | none => .wait
  | some (.error e) => .fail e (s, log)
  | some (.ok (frame, n)) =>
    match s.seen.processFrame frame with
    | (.error e, _) => .fail e (s, log)
    | (.ok none, t) => .take n (t, log)
    | (.ok (some item), t) =>
      .take n (inform informational t (log ++ [item]) item, log ++ [item])

theorem consumer_stable : (consumer informational).Stable where
  bounds {s data n t} h := by
    unfold consumer at h
    rcases hframe : frameAt s.1.frameRules data with _ | e | ⟨frame, k⟩ <;>
      simp only [hframe] at h
    · cases h
    · cases h
    · have hk := frameAt_bounds hframe
      split at h <;> cases h <;> omega
  append {s data} h more := by
    unfold consumer at h ⊢
    have hne : frameAt s.1.frameRules data ≠ none := by
      intro hnone
      simp only [hnone] at h
      exact h rfl
    simp only [frameAt_append hne more]

theorem consumer_wait {s : RequestStream} {log : List RawReceivedData} {data : Bytes} :
    consumer informational (s, log) data = .wait ↔ frameAt s.frameRules data = none := by
  unfold consumer
  rcases hframe : frameAt s.frameRules data with _ | e | ⟨frame, n⟩
  · simp [hframe]
  · simp [hframe]
  · rcases hp : s.seen.processFrame frame with ⟨e | _ | item, t⟩ <;> simp [hframe, hp]

theorem consumer_fail {s : RequestStream} {log : List RawReceivedData} {data : Bytes} {e : Error}
    {r : RequestStream × List RawReceivedData}
    (h : consumer informational (s, log) data = .fail e r) :
    r = (s, log) ∧ (frameAt s.frameRules data = some (.error e) ∨
      ∃ frame n, frameAt s.frameRules data = some (.ok (frame, n)) ∧
        (s.seen.processFrame frame).1 = .error e) := by
  unfold consumer at h
  rcases hframe : frameAt s.frameRules data with _ | e | ⟨frame, n⟩ <;> simp only [hframe] at h
  · cases h
  · cases h
    exact ⟨rfl, .inl rfl⟩
  · rcases hp : s.seen.processFrame frame with ⟨e | _ | item, t⟩ <;> simp only [hp] at h <;> cases h
    exact ⟨rfl, .inr ⟨frame, n, rfl, by rw [hp]⟩⟩

theorem consumer_take {s : RequestStream} {log : List RawReceivedData} {data : Bytes} {n : Nat}
    {r : RequestStream × List RawReceivedData}
    (h : consumer informational (s, log) data = .take n r) :
    ∃ frame t, frameAt s.frameRules data = some (.ok (frame, n)) ∧
      ((s.seen.processFrame frame = (.ok none, t) ∧ r = (t, log)) ∨
        ∃ item, s.seen.processFrame frame = (.ok (some item), t) ∧
          r = (inform informational t (log ++ [item]) item, log ++ [item])) := by
  unfold consumer at h
  rcases hframe : frameAt s.frameRules data with _ | e | ⟨frame, n⟩ <;> simp only [hframe] at h
  · cases h
  · cases h
  · rcases hp : s.seen.processFrame frame with ⟨e | _ | item, t⟩ <;> simp only [hp] at h <;> cases h
    · exact ⟨frame, t, rfl, .inl ⟨hp, rfl⟩⟩
    · exact ⟨frame, t, rfl, .inr ⟨item, hp, rfl⟩⟩

theorem processFrame_holding (s : RequestStream) (data : Bytes) (fin : Bool) (frame : Frame) :
    (s.holding data fin).processFrame frame =
      ((s.processFrame frame).1, (s.processFrame frame).2.holding data fin) := by
  cases frame with
  | headers encoded =>
    cases hstate : s.recvState with
    | receivingBody =>
      have hstate' : (s.holding data fin).recvState = .receivingBody := hstate
      simp only [processFrame, processHeaders, hstate, hstate']
      by_cases hconnect : s.isConnect = true
      · have hconnect' : (s.holding data fin).isConnect = true := hconnect
        rw [if_pos hconnect, if_pos hconnect']
      · have hconnect' : ¬(s.holding data fin).isConnect = true := hconnect
        rw [if_neg hconnect, if_neg hconnect']
        rfl
    | _ =>
      simp only [processFrame, processHeaders, holding, hstate]
  | data payload =>
    show (if s.recvState = .waitingHeaders || s.recvState = .trailersReceived then _
      else if s.isWtConnect then _
      else if s.maxReceivedBodySize < s.recvBody.length + payload.length then _ else _) = _
    simp only [processFrame, processData]
    split
    · rfl
    · split
      · rfl
      · split <;> rfl
  | _ => rfl

theorem notifyInformational_holding (s : RequestStream) (data : Bytes) (fin : Bool) :
    (s.holding data fin).notifyInformational = s.notifyInformational.holding data fin := by
  show (if s.recvState = .receivingBody then _ else _) = _
  simp only [notifyInformational]
  split <;> rfl

theorem inform_holding (s : RequestStream) (data : Bytes) (fin : Bool)
    (log : List RawReceivedData) (item : RawReceivedData) :
    inform informational (s.holding data fin) log item =
      (inform informational s log item).holding data fin := by
  cases item with
  | headers encoded =>
    simp only [inform]
    split
    · exact notifyInformational_holding s data fin
    · rfl
  | _ => rfl

/-- The end of the stream. -/
def ended (s : RequestStream) : RequestStream :=
  { s.holding [] true with state := s.state.closeRemote, recvState := .complete }

/-- FIN on what is left. -/
def finishAt (s : RequestStream) (log : List RawReceivedData) (rest : Bytes) : Received :=
  if rest.isEmpty then
    if s.recvState = .complete then (log, .ok (s.holding rest true))
    else if s.recvState = .waitingHeaders then (log, .error (.streamError .messageError))
    else (log ++ [.streamEnd], .ok s.ended)
  else (log, .error (.connectionError .frameError))

/-- What the connection sees of a consumer that came so far. -/
def settle (fin : Bool)
    (p : Consumer.Progress Error (RequestStream × List RawReceivedData) UInt8) : Received :=
  match p.failure with
  | some e => (p.state.2, .error e)
  | none =>
    if fin then finishAt p.state.1 p.state.2 p.rest
    else (p.state.2, .ok (p.state.1.holding p.rest false))

/-! ## Draining is consuming -/

theorem drainWith_congr {s t : RequestStream} (h : s.processRaw = t.processRaw) (fuel : Nat)
    (log : List RawReceivedData) :
    drainWith informational (fuel + 1) s log = drainWith informational (fuel + 1) t log := by
  simp only [drainWith, h]

theorem processRaw_empty (s : RequestStream) (fin : Bool) :
    (s.holding [] fin).processRaw =
      if fin && s.recvState ≠ .complete then
        if s.recvState = .waitingHeaders then
          (.error (.streamError .messageError), s.holding [] fin)
        else (.ok (some .streamEnd),
          { s.holding [] fin with state := s.state.closeRemote, recvState := .complete })
      else (.ok none, s.holding [] fin) := by
  rw [processRaw_eq]
  rfl

theorem processRaw_incomplete {s : RequestStream} {rest : Bytes}
    (h : frameAt s.frameRules rest = none) (hrest : rest ≠ []) (fin : Bool) :
    (s.holding rest fin).processRaw =
      (if fin then .error (.connectionError .frameError) else .ok none, s.holding rest fin) := by
  have hnone : frameAt (s.holding rest fin).frameRules (s.holding rest fin).recvBuf.peek = none := h
  have hempty : ¬(s.holding rest fin).recvBuf.peek.isEmpty = true := by
    simpa [holding, RecvBuffer.peek] using hrest
  rw [processRaw_eq, if_neg hempty, hnone]
  rfl

theorem processRaw_error {s : RequestStream} {data : Bytes} {e : Error}
    (h : frameAt s.frameRules data = some (.error e)) (fin : Bool) :
    (s.holding data fin).processRaw = (.error e, s.holding data fin) := by
  have hframe : frameAt (s.holding data fin).frameRules (s.holding data fin).recvBuf.peek =
      some (.error e) := h
  have hempty : ¬(s.holding data fin).recvBuf.peek.isEmpty = true := by
    intro hnil
    rw [List.isEmpty_iff.mp hnil] at hframe
    cases hframe
  rw [processRaw_eq, if_neg hempty, hframe]

theorem processRaw_frame {s : RequestStream} {data : Bytes} {frame : Frame} {n : Nat}
    (h : frameAt s.frameRules data = some (.ok (frame, n))) (fin : Bool) :
    (s.holding data fin).processRaw =
      match s.seen.processFrame frame with
      | (.ok none, t) => (t.holding (data.drop n) fin).processRaw
      | (r, t) => (r, t.holding (data.drop n) fin) := by
  have hframe : frameAt (s.holding data fin).frameRules (s.holding data fin).recvBuf.peek =
      some (.ok (frame, n)) := h
  have hempty : ¬(s.holding data fin).recvBuf.peek.isEmpty = true := by
    intro hnil
    rw [List.isEmpty_iff.mp hnil] at hframe
    cases hframe
  have htake : (s.holding data fin).take n = s.seen.holding (data.drop n) fin := rfl
  rw [processRaw_eq, if_neg hempty, hframe]
  simp only [htake, processFrame_holding]
  rcases s.seen.processFrame frame with ⟨e | _ | item, t⟩ <;> rfl

/-- Without a frame the stream ends or waits. -/
theorem drainWith_wait {s : RequestStream} {log : List RawReceivedData} {rest : Bytes}
    (h : frameAt s.frameRules rest = none) (fuel : Nat) (fin : Bool) :
    drainWith informational (fuel + 2) (s.holding rest fin) log =
      settle fin ⟨(s, log), rest, none⟩ := by
  by_cases hrest : rest = []
  · subst hrest
    cases fin with
    | false => simp [drainWith, processRaw_empty, settle]
    | true =>
      by_cases hcomplete : s.recvState = .complete
      · simp [drainWith, processRaw_empty, settle, finishAt, hcomplete]
      · by_cases hwaiting : s.recvState = .waitingHeaders
        · simp [drainWith, processRaw_empty, settle, finishAt, hwaiting]
        · have hend : (s.holding [] true).processRaw = (.ok (some .streamEnd), s.ended) := by
            simp [processRaw_empty, hcomplete, hwaiting, ended]
          have hnext : s.ended.processRaw = (.ok none, s.ended) := processRaw_empty s.ended true
          simp [drainWith, hend, inform, hnext, settle, finishAt, hcomplete, hwaiting]
  · cases fin with
    | false => simp [drainWith, processRaw_incomplete h hrest, settle]
    | true => simp [drainWith, processRaw_incomplete h hrest, settle, finishAt, hrest]

/-- What the consumer says of what is in the buffer is what the stream does. -/
theorem drainWith_eq (s : RequestStream) (log : List RawReceivedData) (data : Bytes) (fin : Bool)
    (fuel : Nat) (h : data.length + 1 < fuel) :
    drainWith informational fuel (s.holding data fin) log =
      settle fin ((consumer informational).run (s, log) data) := by
  refine Consumer.run_induct (consumer_stable informational)
    (P := fun s data p => ∀ fuel, data.length + 1 < fuel →
      drainWith informational fuel (s.1.holding data fin) s.2 = settle fin p)
    ?_ ?_ ?_ (s, log) data fuel h
  · rintro ⟨s, log⟩ data hwait fuel hfuel
    obtain ⟨fuel, rfl⟩ := Nat.exists_eq_add_of_le' (show 2 ≤ fuel by omega)
    exact drainWith_wait informational ((consumer_wait informational).mp hwait) fuel fin
  · rintro ⟨s, log⟩ data e r hfail fuel hfuel
    obtain ⟨fuel, rfl⟩ := Nat.exists_eq_add_of_le' (show 1 ≤ fuel by omega)
    obtain ⟨rfl, hframe | ⟨frame, n, hframe, he⟩⟩ := consumer_fail informational hfail
    · simp only [drainWith, processRaw_error hframe, settle]
    · rcases hp : s.seen.processFrame frame with ⟨r, t⟩
      rw [hp] at he
      dsimp only at he
      subst he
      simp only [drainWith, processRaw_frame hframe, hp, settle]
  · rintro ⟨s, log⟩ data n r htake ih fuel hfuel
    obtain ⟨fuel, rfl⟩ := Nat.exists_eq_add_of_le' (show 1 ≤ fuel by omega)
    have hn := (consumer_stable informational).bounds htake
    have hdrop : (data.drop n).length = data.length - n := List.length_drop
    obtain ⟨frame, t, hframe, ⟨hp, rfl⟩ | ⟨item, hp, rfl⟩⟩ := consumer_take informational htake
    · have hraw : (s.holding data fin).processRaw = (t.holding (data.drop n) fin).processRaw := by
        rw [processRaw_frame hframe, hp]
      rw [drainWith_congr informational hraw]
      exact ih (fuel + 1) (by omega)
    · simp only [drainWith, processRaw_frame hframe, hp, inform_holding]
      exact ih fuel (by omega)

/-! ## Pieces -/

theorem drain_eq (s : RequestStream) (log : List RawReceivedData) (data : Bytes) (fin : Bool) :
    drain informational (s.holding data fin) log =
      settle fin ((consumer informational).run (s, log) data) :=
  drainWith_eq informational s log data fin _ (Nat.lt_succ_self _)

/-- Draining stops where nothing is ready. -/
theorem drain_done {s t : RequestStream} {log log' : List RawReceivedData}
    (h : drain informational s log = (log', .ok t)) : t.processRaw = (.ok none, t) := by
  have hs : s.holding s.recvBuf.data s.recvBuf.fin = s := rfl
  rw [← hs, drain_eq] at h
  have hrest := Consumer.run_rest (consumer_stable informational) (s, log) s.recvBuf.data
  rcases hp : (consumer informational).run (s, log) s.recvBuf.data with ⟨⟨u, log''⟩, rest, failure⟩
  rw [hp] at h hrest
  cases failure with
  | some e => cases h
  | none =>
    have hnone := (consumer_wait informational).mp (hrest rfl)
    by_cases hempty : rest = []
    · subst hempty
      cases hfin : s.recvBuf.fin with
      | false =>
        rw [hfin] at h
        cases h
        simp [processRaw_empty]
      | true =>
        simp only [settle, hfin, if_true, finishAt, List.isEmpty_nil] at h
        split at h
        · cases h
          simp [processRaw_empty, *]
        · split at h <;> cases h
          exact processRaw_empty u.ended true
    · cases hfin : s.recvBuf.fin with
      | false =>
        rw [hfin] at h
        cases h
        simp [processRaw_incomplete hnone hempty]
      | true =>
        simp [settle, hfin, finishAt, hempty] at h

theorem arrive_settle (p : Consumer.Progress Error (RequestStream × List RawReceivedData) UInt8)
    (data : Bytes) (fin : Bool) :
    arrive informational (settle false p) data fin =
      settle fin ((consumer informational).feed p data) := by
  obtain ⟨⟨s, log⟩, rest, failure⟩ := p
  cases failure with
  | some e => rfl
  | none =>
    have hmore : (s.holding rest false).receive data fin = s.holding (rest ++ data) fin := by
      cases fin <;> rfl
    simp only [settle, arrive, Bool.false_eq_true, if_false, hmore, Consumer.feed]
    exact drain_eq informational s log (rest ++ data) fin

theorem arrive_pieces (p : Consumer.Progress Error (RequestStream × List RawReceivedData) UInt8)
    (pieces : List Bytes) :
    pieces.foldl (fun r piece => arrive informational r piece false) (settle false p) =
      settle false (pieces.foldl (consumer informational).feed p) := by
  induction pieces generalizing p with
  | nil => rfl
  | cons piece pieces ih => rw [List.foldl_cons, List.foldl_cons, arrive_settle, ih]

/-- What the connection sees depends on the bytes only. -/
theorem arriveAll_eq {s : RequestStream} (hfin : s.recvBuf.fin = false) (pieces : List Bytes)
    (last : Bytes) :
    arriveAll informational s pieces last =
      settle true ((consumer informational).run (s, [])
        (s.recvBuf.data ++ (pieces.flatten ++ last))) := by
  have hstart : (([], .ok s) : Received) = settle false ⟨(s, []), s.recvBuf.data, none⟩ := by
    have hs : s.holding s.recvBuf.data false = s := by
      rw [← hfin]
      rfl
    simp only [settle, Bool.false_eq_true, if_false, hs]
  rw [arriveAll, hstart, arrive_pieces, arrive_settle,
    Consumer.feed_pieces (consumer_stable informational)]
  rfl

end RequestStream

end Http3
