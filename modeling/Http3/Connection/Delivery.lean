import Http3.Connection.CallMoves
import Http3.Connection.Runs

/-!
# What is queued is handed out

The bytes and the FIN that calls queue on a stream come out of `takeStreamData` in the same order,
each of them once. Every step keeps the account: what was handed out, followed by what is still
outstanding, is what was queued.
-/

namespace Http3

/-- A byte of a stream, or its end. -/
abbrev Mark := Option UInt8

def bytesOf (data : Bytes) : List Mark := data.map some

def finMark (fin : Bool) : List Mark := if fin then [none] else []

/-- What the buffer has not handed out. -/
def SendBuffer.outstanding (b : SendBuffer) : List Mark :=
  bytesOf b.data ++ finMark (b.fin && !b.finSent)

namespace Connection

open Proc

/-- What is queued on a stream and not handed out. -/
def outstanding (c : Core) (s : Nat) : List Mark :=
  ((c.streams.lookup s).map fun stream => stream.sendBuf.outstanding).getD []

/-! ## The invariant -/

/-- FIN ends the send direction, and goes out last. -/
structure Orderly (stream : RequestStream) : Prop where
  finLast : stream.sendBuf.fin = true → stream.state.canSend = false
  finSent : stream.sendBuf.finSent = true →
    stream.sendBuf.fin = true ∧ stream.sendBuf.data = []

/-- The send side of a stream in a connection. A client has queued nothing on a stream whose id was
not handed out yet. -/
structure Sending (role : Role) (s : Nat) (c : Core) : Prop where
  localUni : LocalUni c
  orderly : ∀ stream, c.streams.lookup s = some stream → Orderly stream
  unopened : role = .client → c.nextStreamId ≤ s → ∀ stream, c.streams.lookup s = some stream →
    stream.sendState = .initial ∧ stream.sendBuf = .new

theorem Orderly.new {stream : RequestStream} (h : stream.sendBuf = .new) : Orderly stream :=
  ⟨fun hf => (by rw [h] at hf; cases hf), fun hf => (by rw [h] at hf; cases hf)⟩

theorem canSend_closeRemote (s : StreamState) : s.closeRemote.canSend = s.canSend := by
  cases s <;> rfl

theorem Orderly.recvOnly {s t : RequestStream} (hs : Orderly s) (h : RecvOnly s t) : Orderly t := by
  have hstate : t.state.canSend = s.state.canSend := by
    rcases h.state with hst | hst
    · rw [hst]
    · rw [hst, canSend_closeRemote]
  refine ⟨fun hf => ?_, fun hf => ?_⟩
  · rw [h.sendBuf] at hf
    exact hstate.trans (hs.finLast hf)
  · rw [h.sendBuf] at hf ⊢
    exact hs.finSent hf

/-- The send side stays as it is, unless all that is outstanding is dropped. -/
def Untaken (role : Role) (s : Nat) : Flow Obs Core := fun c _ _ d =>
  Sending role s c →
    Sending role s d ∧ (outstanding d s = outstanding c s ∨ outstanding d s = [])

section Untaken

variable {env : Env} {role : Role} {s : Nat}

@[grind .] theorem untaken_composes (role : Role) (s : Nat) : Composes (Untaken role s) where
  refl _ _ hc := ⟨hc, .inl rfl⟩
  trans h h' hc := by
    obtain ⟨hd, hout⟩ := h hc
    obtain ⟨he, hout'⟩ := h' hd
    refine ⟨he, ?_⟩
    rcases hout' with hout' | hout'
    · rw [hout']
      exact hout
    · exact .inr hout'

/-- The stream of the result comes from the one before, as far as sending goes. -/
theorem untaken_of_lookup {c d : Core} {o : List Obs} {b : Bool} (huni : LocalUni c → LocalUni d)
    (hid : d.nextStreamId = c.nextStreamId)
    (h : ∀ t, d.streams.lookup s = some t →
      (∃ t₀, c.streams.lookup s = some t₀ ∧ RecvOnly t₀ t) ∨
        (t.sendState = .initial ∧ t.sendBuf = .new)) : Untaken role s c o b d := by
  intro hc
  refine ⟨⟨huni hc.localUni, fun t ht => ?_, fun hrole hle t ht => ?_⟩, ?_⟩
  · rcases h t ht with ⟨t₀, ht₀, hrecv⟩ | ⟨_, hnew⟩
    · exact (hc.orderly t₀ ht₀).recvOnly hrecv
    · exact Orderly.new hnew
  · rcases h t ht with ⟨t₀, ht₀, hrecv⟩ | hnew
    · obtain ⟨hstate, hbuf⟩ := hc.unopened hrole (hid ▸ hle) t₀ ht₀
      exact ⟨hrecv.sendState.trans hstate, hrecv.sendBuf.trans hbuf⟩
    · exact hnew
  · unfold outstanding
    cases ht : d.streams.lookup s with
    | none => exact .inr rfl
    | some t =>
      rcases h t ht with ⟨t₀, ht₀, hrecv⟩ | ⟨_, hnew⟩
      · refine .inl ?_
        simp only [ht₀, Option.map_some, hrecv.sendBuf]
      · refine .inr ?_
        simp only [Option.map_some, hnew]
        rfl

theorem untaken_of_streams {c d : Core} {o : List Obs} {b : Bool} (huni : LocalUni c → LocalUni d)
    (hid : d.nextStreamId = c.nextStreamId) (h : d.streams = c.streams) :
    Untaken role s c o b d :=
  untaken_of_lookup huni hid fun t ht => .inl ⟨t, h ▸ ht, RecvOnly.refl t⟩

@[grind ←] theorem untaken_onWt {α : Type} (x : WtProc α) : Keeps (Untaken role s) (onWt x) :=
  fun _ => untaken_of_streams (fun h => ⟨h.1, h.2, h.3⟩) rfl rfl

@[grind ←] theorem untaken_emit (o : Obs) : Keeps (Untaken role s) (emit o : CoreProc Unit) :=
  fun _ hc => ⟨hc, .inl rfl⟩

@[grind ←] theorem untaken_emitAll (o : List Obs) :
    Keeps (Untaken role s) (emitAll o : CoreProc Unit) :=
  fun _ hc => ⟨hc, .inl rfl⟩

@[grind ←] theorem untaken_modifyStream (x : Nat) {f : RequestStream → RequestStream}
    (h : ∀ t, RecvOnly t (f t)) (c : Core) (o : List Obs) (b : Bool) :
    Untaken role s c o b (modifyStream x f c) := by
  refine untaken_of_lookup (fun h => ⟨h.1, h.2, h.3⟩) rfl fun t ht => .inl ?_
  simp only [modifyStream, IdMap.lookup_update_eq] at ht
  split at ht
  · obtain ⟨t₀, ht₀, rfl⟩ := Option.map_eq_some_iff.mp ht
    exact ⟨t₀, ht₀, h t₀⟩
  · exact ⟨t, ht, RecvOnly.refl t⟩

theorem untaken_ensureStream (x : Nat) (c : Core) (o : List Obs) (b : Bool) :
    Untaken role s c o b (ensureStream env x c) := by
  unfold ensureStream
  split
  · exact fun hc => ⟨hc, .inl rfl⟩
  · refine untaken_of_lookup (fun h => ⟨h.1, h.2, h.3⟩) rfl fun t ht => ?_
    simp only [putStream, IdMap.lookup_insert_eq] at ht
    split at ht
    · cases ht
      exact .inr ⟨rfl, rfl⟩
    · exact .inl ⟨t, ht, RecvOnly.refl t⟩

theorem untaken_removeStreamIfDone (x : Nat) (c : Core) (o : List Obs) (b : Bool) :
    Untaken role s c o b (removeStreamIfDone x c) := by
  unfold removeStreamIfDone
  split
  · refine untaken_of_lookup (fun h => ⟨h.1, h.2, h.3⟩) rfl fun t ht => ?_
    simp only [IdMap.lookup_erase_eq] at ht
    split at ht
    · cases ht
    · exact .inl ⟨t, ht, RecvOnly.refl t⟩
  · exact fun hc => ⟨hc, .inl rfl⟩

theorem untaken_clearQpackBlocked (x : Nat) (c : Core) (o : List Obs) (b : Bool) :
    Untaken role s c o b (clearQpackBlocked x c) := by
  unfold clearQpackBlocked
  split
  · rename_i stream hstream
    refine untaken_of_lookup (fun h => ⟨h.1, h.2, h.3⟩) rfl fun t ht => .inl ?_
    simp only [IdMap.lookup_insert_eq] at ht
    split at ht
    · rename_i hsx
      subst hsx
      cases ht
      exact ⟨stream, hstream, RecvOnly.setQpackBlocked ..⟩
    · exact ⟨t, ht, RecvOnly.refl t⟩
  · exact fun hc => ⟨hc, .inl rfl⟩

theorem untaken_setMaxReceivedBodySize (size : Nat) (c : Core) (o : List Obs) (b : Bool) :
    Untaken role s c o b (setMaxReceivedBodySize size c) := by
  refine untaken_of_lookup (fun h => ⟨h.1, h.2, h.3⟩) rfl fun t ht => .inl ?_
  apply IdMap.lookup_updateEach RecvOnly.refl _ c.streams.keys ht
  intro r t h
  exact ⟨h.sendBuf, h.sendState, h.state⟩

theorem untaken_deferred : Keeps (Untaken role s) (processDeferredWtConnects env) := by
  have hregister : ∀ streamId headers,
      Keeps (Untaken role s) (registerWtConnectSession env streamId headers) := by
    intro streamId headers
    unfold registerWtConnectSession
    grind
  have hone : ∀ streamId headers,
      Keeps (Untaken role s) (processDeferredWtConnect env streamId headers) := by
    intro streamId headers
    unfold processDeferredWtConnect
    grind
  unfold processDeferredWtConnects
  grind

theorem untaken_data (streamId bodyLen : Nat) (data : Bytes) :
    Keeps (Untaken role s) (processData env streamId bodyLen data) := by
  unfold processData
  grind

theorem untaken_move {c d : Core} {o : List Obs} {b : Bool} (h : Move env c o b d) :
    Untaken role s c o b d := by
  cases h with
  | side h =>
    cases h with
    | plain h _ => exact untaken_of_streams h.localUni h.nextStreamId h.streams
    | wt _ x _ => exact untaken_onWt x c
    | deferred => exact untaken_deferred c
  | «open» => exact untaken_ensureStream _ _ _ _
  | touch _ _ _ h => exact untaken_modifyStream _ h _ _ _
  | drop => exact untaken_removeStreamIfDone _ _ _ _
  | blocked => exact untaken_of_streams (fun h => ⟨h.1, h.2, h.3⟩) rfl rfl
  | report => exact untaken_of_streams (fun h => h) rfl rfl
  | wt _ x _ => exact untaken_onWt x c
  | data => exact untaken_data _ _ _ c

theorem untaken_callMove {p : Nat → Prop} (hp : ¬p s) {c d : Core} {o : List Obs} {b : Bool}
    (h : CallMove env p c o b d) : Untaken role s c o b d := by
  cases h with
  | move h => exact untaken_move h
  | send hx hs =>
    refine untaken_of_lookup (fun h => ⟨h.1, h.2, h.3⟩) rfl fun t ht => .inl ?_
    simp only [putStream, IdMap.lookup_insert_eq] at ht
    split at ht
    · rename_i hsx
      exact absurd (hsx ▸ hx) hp
    · exact ⟨t, ht, RecvOnly.refl t⟩
  | unblock => exact untaken_clearQpackBlocked _ _ _ _
  | bodyLimit => exact untaken_setMaxReceivedBodySize _ _ _ _
  | wt _ x _ => exact untaken_onWt x c

theorem untaken_feedMove {c d : Core} {o : List Obs} {b : Bool} (h : FeedMove env c o b d) :
    Untaken role s c o b d := by
  cases h with
  | move h => exact untaken_move h
  | wt _ x _ => exact untaken_onWt x c

/-- Calls that do not send on the stream. -/
theorem untaken_body (call : Call) (hsends : sendsOn call s = false)
    (hrequest : ∀ headers fin, call ≠ .sendRequest headers fin) :
    Keeps (Untaken role s) (body env call) := by
  cases call with
  | sendRequest headers fin => exact absurd rfl (hrequest headers fin)
  | feedStream x data fin =>
    refine Keeps.bind (untaken_composes role s) ?_ fun _ => Keeps.ret (untaken_composes role s) _
    exact (feedStreamInner_moves env x data fin).mono fun _ _ _ _ =>
      Many.lift (untaken_composes role s) fun _ _ _ _ => untaken_feedMove
  | _ =>
    exact (body_moves env _ rfl).mono fun _ _ _ _ => Many.lift (untaken_composes role s)
      fun _ _ _ _ => untaken_callMove (by rw [hsends]; decide)

end Untaken

/-! ## Queueing -/

theorem bytesOf_append (a b : Bytes) : bytesOf (a ++ b) = bytesOf a ++ bytesOf b := List.map_append

theorem outstanding_lookup {c : Core} {s : Nat} {stream : RequestStream}
    (h : c.streams.lookup s = some stream) : outstanding c s = stream.sendBuf.outstanding := by
  simp only [outstanding, h, Option.map_some, Option.getD_some]

theorem outstanding_put (c : Core) (s : Nat) (stream : RequestStream) :
    outstanding (putStream s stream c) s = stream.sendBuf.outstanding :=
  outstanding_lookup (IdMap.lookup_insert_self ..)

/-- The frame of a field section. -/
def headersFrame (encoded : Bytes) : Bytes := (encodeFrame (.headers encoded)).getD []

/-- The frame of a body; none for no data. -/
def bodyFrame (data : Bytes) : Bytes :=
  if data.isEmpty then [] else (encodeFrame (.data data)).getD []

/-- A call queues bytes and maybe FIN on a stream that may send. -/
structure Queues (s t : RequestStream) (frame : Bytes) (fin : Bool) : Prop where
  canSend : s.state.canSend = true
  outstanding : t.sendBuf.outstanding = s.sendBuf.outstanding ++ bytesOf frame ++ finMark fin
  orderly : Orderly t

/-- Bytes at the end of a buffer without FIN, and FIN behind them. -/
theorem queues_of_push {s t : RequestStream} (hs : Orderly s) (hsend : s.state.canSend = true)
    {frame : Bytes} {fin : Bool}
    (ht : t.sendBuf = { s.sendBuf with data := s.sendBuf.data ++ frame, fin := s.sendBuf.fin || fin })
    (hstate : t.state = if fin then s.state.closeLocal else s.state) : Queues s t frame fin := by
  have hfin : s.sendBuf.fin = false := Bool.eq_false_iff.mpr fun h => by
    rw [hs.finLast h] at hsend
    cases hsend
  have hsent : s.sendBuf.finSent = false := Bool.eq_false_iff.mpr fun h => by
    rw [(hs.finSent h).1] at hfin
    cases hfin
  have hclosed : s.state.closeLocal.canSend = false := by
    cases hst : s.state <;> simp_all [StreamState.canSend, StreamState.closeLocal]
  refine ⟨hsend, ?_, fun h => ?_, fun h => ?_⟩
  · simp [ht, SendBuffer.outstanding, hfin, hsent, bytesOf_append, finMark]
  · rw [ht, hfin, Bool.false_or] at h
    rw [hstate, if_pos h, hclosed]
  · rw [ht, hsent] at h
    cases h

theorem sendEncodedHeaders_queues {s t : RequestStream} (hs : Orderly s) {encoded : Bytes}
    {fin isInterim : Bool} (h : s.sendEncodedHeaders encoded fin isInterim = .ok t) :
    Queues s t (headersFrame encoded) fin := by
  cases hcheck : s.checkSendHeaders fin isInterim with
  | error e => simp [RequestStream.sendEncodedHeaders, hcheck, bind, Except.bind] at h
  | ok u =>
    have hsend : s.state.canSend = true := by
      unfold RequestStream.checkSendHeaders at hcheck
      split at hcheck
      · cases hcheck
      · simpa using ‹¬(!s.state.canSend) = true›
    cases hframe : encodeFrame (.headers encoded) with
    | none => simp [RequestStream.sendEncodedHeaders, hcheck, hframe, bind, Except.bind] at h
    | some frame =>
      simp only [RequestStream.sendEncodedHeaders, hcheck, hframe, bind, Except.bind,
        Except.ok.injEq] at h
      have hbytes : headersFrame encoded = frame := by rw [headersFrame, hframe, Option.getD_some]
      rw [hbytes]
      cases fin <;> subst h
      · exact queues_of_push hs hsend (by simp [SendBuffer.push]) rfl
      · exact queues_of_push hs hsend (by simp [RequestStream.finish, SendBuffer.push,
          SendBuffer.setFin]) rfl

theorem sendBody_queues {s t : RequestStream} (hs : Orderly s) {data : Bytes} {fin : Bool}
    (h : s.sendBody data fin = .ok t) : Queues s t (bodyFrame data) fin := by
  cases hcheck : s.checkSendBody with
  | error e => simp [RequestStream.sendBody, hcheck, bind, Except.bind] at h
  | ok u =>
    have hsend : s.state.canSend = true := by
      unfold RequestStream.checkSendBody at hcheck
      split at hcheck
      · cases hcheck
      · simpa using ‹¬(!s.state.canSend) = true›
    have hpush : ∀ u, s.pushBody data = .ok u →
        u.sendBuf = { s.sendBuf with data := s.sendBuf.data ++ bodyFrame data } ∧
          u.state = s.state := by
      intro u hu
      unfold RequestStream.pushBody at hu
      unfold bodyFrame
      split at hu
      · cases hu
        rw [if_pos ‹_›, List.append_nil]
        exact ⟨rfl, rfl⟩
      · split at hu
        · cases hu
        · rename_i frame hframe
          cases hu
          rw [if_neg ‹_›, hframe, Option.getD_some]
          exact ⟨rfl, rfl⟩
    cases hp : s.pushBody data with
    | error e => simp [RequestStream.sendBody, hcheck, hp, bind, Except.bind] at h
    | ok u =>
      simp only [RequestStream.sendBody, hcheck, hp, bind, Except.bind, Except.ok.injEq] at h
      obtain ⟨hbuf, hstate⟩ := hpush u hp
      cases fin <;> subst h
      · exact queues_of_push hs hsend (by simp [hbuf]) (by simp [hstate])
      · exact queues_of_push hs hsend (by simp [RequestStream.finish, SendBuffer.setFin, hbuf])
          (by simp [RequestStream.finish, hstate])

/-! ## The calls that send -/

/-- The field section of the headers, from the encoder as it is. -/
def encodedSection (c : Core) (headers : List Header) : Except Error Bytes :=
  (encodeTries headers c.qpack.encoder.blockedStreamsCount 4
    (Qpack.estimateEncodedSize headers + 64) c.qpack.encoder).1

/-- What a request queues, once its field section is encoded. -/
def requestMarks (c : Core) (headers : List Header) (fin : Bool) : List Mark :=
  match encodedSection c headers with
  | .ok encoded => bytesOf (headersFrame encoded) ++ finMark fin
  | .error _ => []

/-- Does the stream exist and take the field section? -/
def takesHeaders (c : Core) (s : Nat) (encoded : Bytes) (fin isInterim : Bool) : Bool :=
  (c.streams.lookup s).any fun stream =>
    succeeded (stream.sendEncodedHeaders encoded fin isInterim)

/-- What a response queues: its frame, as soon as the checks have passed and the stream takes it. -/
def responseMarks (env : Env) (c : Core) (s : Nat) (headers : List Header) (fin : Bool) :
    List Mark :=
  match checkResponse env c s headers, encodedSection c headers with
  | .ok _, .ok encoded =>
    if takesHeaders c s encoded fin (isInterimResponse headers) then
      bytesOf (headersFrame encoded) ++ finMark fin
    else []
  | _, _ => []

/-- Sending on a stream: the invariant stays, and the marks come behind what is outstanding. -/
def Sent (role : Role) (s : Nat) (marks : List Mark) (c d : Core) : Prop :=
  Sending role s c → Sending role s d ∧ outstanding d s = outstanding c s ++ marks

/-- The request streams stay as they are. -/
def StreamsKept : Flow Obs Core := fun c _ _ d =>
  (LocalUni c → LocalUni d) ∧ d.nextStreamId = c.nextStreamId ∧ d.streams = c.streams

@[grind .] theorem streamsKept_composes : Composes StreamsKept where
  refl _ _ := ⟨fun h => h, rfl, rfl⟩
  trans h h' := ⟨fun hc => h'.1 (h.1 hc), h'.2.1.trans h.2.1, h'.2.2.trans h.2.2⟩

@[grind ←] theorem streamsKept_onWt {α : Type} (x : WtProc α) : Keeps StreamsKept (onWt x) :=
  fun _ => ⟨fun h => ⟨h.1, h.2, h.3⟩, rfl, rfl⟩

theorem streamsKept_modifyQpack (c : Core) (o : List Obs) (b : Bool) (f : QpackState → QpackState)
    (he : (f c.qpack).encoderStreamId = c.qpack.encoderStreamId)
    (hd : (f c.qpack).decoderStreamId = c.qpack.decoderStreamId) :
    StreamsKept c o b (modifyQpack f c) := by
  refine ⟨fun h => ⟨h.control, ?_, ?_⟩, rfl, rfl⟩
  · rw [modifyQpack_qpack, he]
    exact h.encoder
  · rw [modifyQpack_qpack, hd]
    exact h.decoder

section Calls

variable {env : Env} {role : Role} {s : Nat} {c d : Core}

variable (role) in
theorem Sent.nothing {o : List Obs} {b : Bool} (h : StreamsKept c o b d) : Sent role s [] c d := by
  obtain ⟨huni, hid, hstreams⟩ := h
  intro hc
  refine ⟨⟨huni hc.localUni, ?_, ?_⟩, ?_⟩
  · rw [hstreams]
    exact hc.orderly
  · rw [hid, hstreams]
    exact hc.unopened
  · rw [outstanding, hstreams, List.append_nil]
    rfl

theorem Sent.same (c : Core) : Sent role s [] c c := Sent.nothing _ (streamsKept_composes.refl c true)

theorem Sent.trans {marks marks' : List Mark} {e : Core} (h : Sent role s marks c d)
    (h' : Sent role s marks' d e) : Sent role s (marks ++ marks') c e := by
  intro hc
  obtain ⟨hd, hout⟩ := h hc
  obtain ⟨he, hout'⟩ := h' hd
  exact ⟨he, by rw [hout', hout, List.append_assoc]⟩

/-- A stream that exists takes a frame. The client has handed out its id. -/
theorem sent_put {stream t : RequestStream} {frame : Bytes} {fin : Bool}
    (hs : c.streams.lookup s = some stream) (hq : Orderly stream → Queues stream t frame fin)
    (hopened : role = .client → c.nextStreamId ≤ s → stream.sendState ≠ .initial) :
    Sent role s (bytesOf frame ++ finMark fin) c (putStream s t c) := by
  intro hc
  have hq := hq (hc.orderly stream hs)
  refine ⟨⟨⟨hc.localUni.1, hc.localUni.2, hc.localUni.3⟩, fun u hu => ?_, fun hrole hle u _ => ?_⟩, ?_⟩
  · simp only [putStream, IdMap.lookup_insert_self, Option.some.injEq] at hu
    exact hu ▸ hq.orderly
  · exact absurd (hc.unopened hrole hle stream hs).1 (hopened hrole hle)
  · rw [outstanding_put, outstanding_lookup hs, hq.outstanding, List.append_assoc]

variable (role) in
theorem sendBodyInner_sent (data : Bytes) (fin : Bool) (c : Core) :
    Post (fun r => Sent role s (if succeeded r.val then bytesOf (bodyFrame data) ++ finMark fin
      else []) c r.st) c (sendBodyInner s data fin) := by
  refine Post.get_bind ?_
  split
  · exact Post.throw (Sent.same c)
  · rename_i stream hs
    refine Post.ofExcept_bind (fun _ _ => Sent.same c) fun t ht => Post.modify ?_
    refine sent_put hs (fun ho => sendBody_queues ho ht) fun _ _ hstate => ?_
    have hcheck : stream.checkSendBody = .ok () := by
      cases hcheck : stream.checkSendBody with
      | error e => simp [RequestStream.sendBody, hcheck, bind, Except.bind] at ht
      | ok _ => rfl
    unfold RequestStream.checkSendBody at hcheck
    split at hcheck
    · cases hcheck
    · rw [hstate] at hcheck
      cases hcheck

theorem encodeQpackHeaders_run (headers : List Header) (c : Core) :
    encodeQpackHeaders headers c = ⟨encodedSection c headers,
      modifyQpack (fun q => { q with
        encoder := (encodeTries headers c.qpack.encoder.blockedStreamsCount 4
          (Qpack.estimateEncodedSize headers + 64) c.qpack.encoder).2 }) c, []⟩ := by
  rw [encodeQpackHeaders, get_bind, modify_bind, ofExcept_run, encodedSection]

theorem queueHeaders_sent (hserver : role = .server) (encoded : Bytes) (fin isInterim : Bool)
    (c : Core) :
    Post (fun r => succeeded r.val = takesHeaders c s encoded fin isInterim ∧
      Sent role s (if takesHeaders c s encoded fin isInterim then
        bytesOf (headersFrame encoded) ++ finMark fin else []) c r.st) c
      (queueHeaders s encoded fin isInterim) := by
  refine Post.get_bind ?_
  cases hs : c.streams.lookup s with
  | none =>
    refine Post.throw ?_
    simp only [takesHeaders, hs, Option.any_none]
    exact ⟨rfl, Sent.same c⟩
  | some stream =>
    refine Post.ofExcept_bind (fun e he => ?_) fun t ht => Post.modify ?_
    · simp only [takesHeaders, hs, Option.any_some, he, succeeded_error]
      exact ⟨trivial, Sent.same c⟩
    · simp only [takesHeaders, hs, Option.any_some, ht, succeeded_ok, if_true]
      refine ⟨trivial, sent_put hs (fun ho => sendEncodedHeaders_queues ho ht) fun hclient => ?_⟩
      rw [hserver] at hclient
      cases hclient

variable (env) in
theorem sendResponseInner_sent (headers : List Header) (fin : Bool) (c : Core) :
    Post (fun r => Sent env.role s (responseMarks env c s headers fin) c r.st) c
      (sendResponseInner env s headers fin) := by
  refine Post.get_bind (Post.ofExcept_bind (fun e h => ?_) fun _ hcheck => ?_)
  · simp only [responseMarks, h]
    exact Sent.same c
  have hkept := fun o b => streamsKept_modifyQpack c o b
    (fun q => { q with
      encoder := (encodeTries headers c.qpack.encoder.blockedStreamsCount 4
        (Qpack.estimateEncodedSize headers + 64) c.qpack.encoder).2 }) rfl rfl
  have hserver : env.role = .server := by
    by_contra hne
    simp [checkResponse, ensure, hne, bind, Except.bind] at hcheck
  refine Post.bind (fun e t o hx => ?_) fun encoded t o hx => ?_
  · rw [encodeQpackHeaders_run, Outcome.mk.injEq] at hx
    obtain ⟨hencoded, rfl, -⟩ := hx
    simp only [responseMarks, hcheck, hencoded]
    exact Sent.nothing _ (hkept [] false)
  · rw [encodeQpackHeaders_run, Outcome.mk.injEq] at hx
    obtain ⟨hencoded, ht, -⟩ := hx
    have hkept : StreamsKept c [] true t := ht ▸ hkept [] true
    have htail : Keeps StreamsKept (do
        onWt (rejectWtSession s headers)
        onWt (establishWtSessionServer env c.peerSettings s headers)
        modify (modifyQpack (trackSection s)) : CoreProc Unit) := by
      refine Keeps.bind streamsKept_composes (by grind) fun _ => ?_
      refine Keeps.bind streamsKept_composes (by grind) fun _ => ?_
      exact fun c => streamsKept_modifyQpack c [] true (trackSection s) rfl rfl
    have hqueue := queueHeaders_sent (s := s) hserver encoded fin (isInterimResponse headers) t
    have htakes : takesHeaders t s encoded fin (isInterimResponse headers) =
        takesHeaders c s encoded fin (isInterimResponse headers) := by
      rw [takesHeaders, hkept.2.2, takesHeaders]
    rw [htakes] at hqueue
    simp only [responseMarks, hcheck, hencoded]
    refine Post.bind (fun e u o' hx => ?_) fun _ u o' hx => ?_
    · rw [Post, hx] at hqueue
      exact (Sent.nothing _ hkept).trans hqueue.2
    · rw [Post, hx] at hqueue
      have hsent := ((Sent.nothing _ hkept).trans hqueue.2).trans (Sent.nothing _ (htail u))
      rwa [List.append_nil] at hsent

theorem sent_raise (c : Core) :
    Sent role s [] c { c with nextStreamId := c.nextStreamId + 4 } := by
  intro hc
  refine ⟨⟨⟨hc.localUni.1, hc.localUni.2, hc.localUni.3⟩, hc.orderly, fun hrole hle => ?_⟩,
    (List.append_nil _).symm⟩
  exact hc.unopened hrole (Nat.le_of_add_right_le hle)

theorem sent_put_other {x : Nat} (hx : s ≠ x) (t : RequestStream) (c : Core) :
    Sent role s [] c (putStream x t c) := by
  have hlookup : (putStream x t c).streams.lookup s = c.streams.lookup s :=
    IdMap.lookup_insert_of_ne _ _ hx
  intro hc
  refine ⟨⟨⟨hc.localUni.1, hc.localUni.2, hc.localUni.3⟩, ?_, ?_⟩, ?_⟩
  · rw [hlookup]
    exact hc.orderly
  · rw [hlookup]
    exact hc.unopened
  · rw [outstanding, hlookup, List.append_nil]
    rfl

/-- Nothing is queued on a stream whose id is yet to be handed out. -/
theorem outstanding_unopened (hc : Sending role s c) (hrole : role = .client)
    (hle : c.nextStreamId ≤ s) : outstanding c s = [] := by
  unfold outstanding
  cases hs : c.streams.lookup s with
  | none => rfl
  | some stream =>
    simp only [Option.map_some, (hc.unopened hrole hle stream hs).2]
    rfl

/-- A request opens the stream of the id that it uses up. -/
theorem sent_open (hrole : role = .client) {t : RequestStream} {marks : List Mark}
    (ht : t.sendBuf.outstanding = marks) (horderly : Orderly t) (hs : s < d.nextStreamId)
    (hle : c.nextStreamId ≤ s) (h : Sent role s [] c d) : Sent role s marks c (putStream s t d) := by
  intro hc
  obtain ⟨hd, -⟩ := h hc
  refine ⟨⟨⟨hd.localUni.1, hd.localUni.2, hd.localUni.3⟩, fun u hu => ?_, fun _ hle' => ?_⟩, ?_⟩
  · simp only [putStream, IdMap.lookup_insert_self, Option.some.injEq] at hu
    exact hu ▸ horderly
  · exact absurd hle' (by simpa [putStream] using hs)
  · rw [outstanding_put, ht, outstanding_unopened hc hrole hle, List.nil_append]

variable (env) in
theorem sendRequestInner_sent (headers : List Header) (fin : Bool) (c : Core) :
    Post (fun r => Sent env.role s (match r.val with
      | .ok id => if id = s then requestMarks c headers fin else []
      | .error _ => []) c r.st) c (sendRequestInner env headers fin) := by
  refine Post.get_bind (Post.ofExcept_bind (fun e h => Sent.same c) fun _ hcheck => ?_)
  have hclient : env.role = .client := by
    by_contra hne
    simp [checkRequest, ensure, hne, bind, Except.bind] at hcheck
  have hkept := fun o b => streamsKept_modifyQpack c o b
    (fun q => { q with
      encoder := (encodeTries headers c.qpack.encoder.blockedStreamsCount 4
        (Qpack.estimateEncodedSize headers + 64) c.qpack.encoder).2 }) rfl rfl
  refine Post.bind (fun e t o hx => ?_) fun encoded t o hx => ?_
  · rw [encodeQpackHeaders_run, Outcome.mk.injEq] at hx
    obtain ⟨-, rfl, -⟩ := hx
    exact Sent.nothing _ (hkept [] false)
  rw [encodeQpackHeaders_run, Outcome.mk.injEq] at hx
  obtain ⟨hencoded, ht, -⟩ := hx
  have hkept : StreamsKept c [] true t := ht ▸ hkept [] true
  have hraise := (Sent.nothing env.role (s := s) hkept).trans (sent_raise t)
  refine Post.modify_bind ?_
  split
  · exact Post.throw hraise
  refine Post.ofExcept_bind (fun _ _ => hraise) fun stream hstream => ?_
  refine Post.modify_bind (Post.modify_bind ?_)
  have htrack := streamsKept_modifyQpack { t with nextStreamId := t.nextStreamId + 4 } [] true
    (trackSection c.nextStreamId) rfl rfl
  have hbefore := hraise.trans (Sent.nothing _ htrack)
  have hput : Sent env.role s (if c.nextStreamId = s then requestMarks c headers fin else []) c
      (putStream c.nextStreamId stream (modifyQpack (trackSection c.nextStreamId)
        { t with nextStreamId := t.nextStreamId + 4 })) := by
    split
    · rename_i hid
      have hq := sendEncodedHeaders_queues (Orderly.new rfl) hstream
      subst hid
      refine sent_open hclient ?_ hq.orderly ?_ (Nat.le_refl _) hbefore
      · rw [hq.outstanding, requestMarks, hencoded]
        rfl
      · rw [htrack.2.1, hkept.2.1]
        exact Nat.lt_add_of_pos_right (by decide)
    · rename_i hid
      exact hbefore.trans (sent_put_other (fun h => hid h.symm) _ _)
  split
  · have hsession := hput.trans (Sent.nothing _ (streamsKept_onWt
      (modify (putSession c.nextStreamId (WtSession.new.offer headers))) _))
    rwa [List.append_nil] at hsession
  · exact hput

end Calls

/-! ## Taking -/

theorem mapM_error {α β ε : Type} {f : α → Except ε β} {l : List α} {e : ε}
    (h : l.mapM f = .error e) : ∃ a ∈ l, f a = .error e := by
  induction l with
  | nil => cases h
  | cons a l ih =>
    rw [List.mapM_cons] at h
    cases ha : f a with
    | error e' =>
      simp only [ha, bind, Except.bind, Except.error.injEq] at h
      exact ⟨a, List.mem_cons_self, h ▸ ha⟩
    | ok b =>
      cases hl : l.mapM f with
      | error e' =>
        simp only [ha, hl, bind, Except.bind, Except.error.injEq] at h
        obtain ⟨a', ha', he⟩ := ih (h ▸ hl)
        exact ⟨a', List.mem_cons_of_mem a ha', he⟩
      | ok bs => simp [ha, hl, bind, Except.bind, pure, Except.pure] at h

/-- Ending a session fails only where the length of a stream header is not representable. -/
theorem terminateWtSessionWith_error (env : Env) (sessionId errorCode closeCode : Nat)
    (message : Bytes) (w : WtState) :
    Post (fun r => ∀ e, r.val = .error e → e = .panicked) w
      (terminateWtSessionWith env sessionId errorCode closeCode message) := by
  refine Post.get_bind ?_
  split
  · exact Post.ret fun _ h => by cases h
  · split
    · exact Post.ret fun _ h => by cases h
    · refine Post.ofExcept_bind (fun e he e' h => ?_) fun resets _ e h => by cases h
      cases h
      obtain ⟨x, -, hx⟩ := mapM_error he
      unfold resetOf wtStreamHeaderLen at hx
      split at hx
      · cases hx
      · split at hx <;> cases hx
        rfl

section Take

variable {env : Env} {role : Role} {s : Nat} {c : Core}
  (hbidi : (StreamKind.fromStreamId s).isUnidirectional = false)

include hbidi

theorem ne_local (h : LocalUni c) : c.controlSend.streamId ≠ some s ∧
    c.qpack.encoderStreamId ≠ some s ∧ c.qpack.decoderStreamId ≠ some s := by
  refine ⟨fun hs => ?_, fun hs => ?_, fun hs => ?_⟩
  · have := h.control
    rw [hs, Option.all_some, hbidi] at this
    cases this
  · have := h.encoder
    rw [hs, Option.all_some, hbidi] at this
    cases this
  · have := h.decoder
    rw [hs, Option.all_some, hbidi] at this
    cases this

/-- Consuming on a request stream drops bytes off its buffer. -/
theorem consumeStreamData_run (h : LocalUni c) {stream : RequestStream}
    (hs : c.streams.lookup s = some stream) {len : Nat} (hlen : len ≤ stream.sendBuf.data.length) :
    consumeStreamData s len c = ⟨.ok (), removeStreamIfDone s (putStream s
      { stream with sendBuf := { stream.sendBuf with data := stream.sendBuf.data.drop len } } c),
      []⟩ := by
  obtain ⟨hcontrol, hencoder, hdecoder⟩ := ne_local hbidi h
  have hconsume : stream.consumeSendData len = some
      { stream with sendBuf := { stream.sendBuf with data := stream.sendBuf.data.drop len } } := by
    simp only [RequestStream.consumeSendData, SendBuffer.consume, if_pos hlen, Option.map_some]
  rw [consumeStreamData, get_bind, if_neg hcontrol, if_neg hencoder, if_neg hdecoder, hs]
  simp only [hconsume]
  rfl

theorem queuedData_eq (h : LocalUni c) : queuedData c s = (c.streams.lookup s).bind fun stream =>
    if stream.sendBuf.data.isEmpty then none else some stream.sendBuf.data := by
  obtain ⟨hcontrol, hencoder, hdecoder⟩ := ne_local hbidi h
  simp only [queuedData, if_neg hcontrol, if_neg hencoder, if_neg hdecoder]
  rfl

/-- What a call of `takeStreamData` does to what is outstanding. -/
structure Takes (role : Role) (s : Nat) (c d : Core) (taken : List Mark) : Prop where
  sending : Sending role s d
  rest : ∃ rest, outstanding c s = taken ++ rest ∧ (outstanding d s = rest ∨ outstanding d s = [])

theorem takes_consume (hc : Sending role s c) {stream : RequestStream}
    (hs : c.streams.lookup s = some stream) :
    Post (fun r => r.val = .ok () ∧ Takes role s c r.st (bytesOf stream.sendBuf.data)) c
      (consumeStreamData s stream.sendBuf.data.length) := by
  rw [Post, consumeStreamData_run hbidi hc.localUni hs (Nat.le_refl _)]
  refine ⟨rfl, ?_⟩
  have ho := hc.orderly stream hs
  have hput : Sending role s (putStream s { stream with
      sendBuf := { stream.sendBuf with
        data := stream.sendBuf.data.drop stream.sendBuf.data.length } } c) := by
    refine ⟨⟨hc.localUni.1, hc.localUni.2, hc.localUni.3⟩, fun t ht => ?_, fun hrole hle t ht => ?_⟩
    · simp only [putStream, IdMap.lookup_insert_self, Option.some.injEq] at ht
      subst ht
      exact ⟨ho.finLast, fun h => ⟨(ho.finSent h).1, List.drop_length⟩⟩
    · simp only [putStream, IdMap.lookup_insert_self, Option.some.injEq] at ht
      subst ht
      obtain ⟨hstate, hbuf⟩ := hc.unopened hrole hle stream hs
      refine ⟨hstate, ?_⟩
      simp only [hbuf]
      rfl
  obtain ⟨hd, hout⟩ := untaken_removeStreamIfDone s _ [] true hput
  refine ⟨hd, finMark (stream.sendBuf.fin && !stream.sendBuf.finSent), ?_, ?_⟩
  · rw [outstanding_lookup hs, SendBuffer.outstanding]
  · rw [outstanding_put] at hout
    simpa [SendBuffer.outstanding, bytesOf] using hout

/-- FIN is handed over when all bytes were taken; until then nothing changes. -/
inductive Gets (role : Role) (s : Nat) (c : Core) :
    Except Error (Option (Bytes × Bool)) → Core → Prop
  | panicked (d : Core) : Gets role s c (.error .panicked) d
  | nothing (h : outstanding c s = []) : Gets role s c (.ok none) c
  | fin {d : Core} {stream : RequestStream} (h : outstanding c s = [none]) (hd : Sending role s d)
      (hout : outstanding d s = []) (hs : d.streams.lookup s = some stream)
      (hdata : stream.sendBuf.data = []) : Gets role s c (.ok (some ([], true))) d
  | data {stream : RequestStream} (hs : c.streams.lookup s = some stream)
      (hne : stream.sendBuf.data ≠ []) : Gets role s c (.ok (some (stream.sendBuf.data, false))) c

variable (env) in
theorem getStreamData_gets (hc : Sending role s c) :
    Post (fun r => Gets role s c r.val r.st) c (getStreamData env s) := by
  refine Post.get_bind ?_
  cases hs : c.streams.lookup s with
  | none =>
    refine Post.ret ?_
    simp only [queuedData_eq hbidi hc.localUni, hs, Option.bind_none, Option.map_none]
    exact .nothing (by simp only [outstanding, hs]; rfl)
  | some stream =>
    have hout := outstanding_lookup hs
    have ho := hc.orderly stream hs
    rw [Option.any_some]
    split
    · rename_i hfin
      simp only [RequestStream.hasFinPending, SendBuffer.isFin, SendBuffer.isDataConsumed,
        SendBuffer.isFinSent, Bool.and_eq_true, List.isEmpty_iff, Bool.not_eq_true'] at hfin
      obtain ⟨⟨hisFin, hdata⟩, hsent⟩ := hfin
      have hlookup : (modifyStream s RequestStream.markFinSent c).streams.lookup s =
          some stream.markFinSent := by
        rw [modifyStream, IdMap.lookup_update_self, hs, Option.map_some]
      refine Post.modify_bind (Post.zoom_bind (fun e t o hx => ?_) fun _ t o hx => Post.ret ?_)
      · have herror := terminateWtSessionWith_error env s WtErrorCode.sessionGone.code 0 []
          (modifyStream s RequestStream.markFinSent c).wt
        rw [herror e (congrArg Outcome.val hx)]
        exact .panicked _
      · refine .fin ?_ ⟨?_, fun u hu => ?_, fun hrole hle u _ => ?_⟩ ?_ hlookup hdata
        · simp [hout, SendBuffer.outstanding, hdata, hisFin, hsent, bytesOf, finMark]
        · exact ⟨hc.localUni.1, hc.localUni.2, hc.localUni.3⟩
        · cases hlookup.symm.trans hu
          exact ⟨ho.finLast, fun _ => ⟨hisFin, hdata⟩⟩
        · have hnew := (hc.unopened hrole hle stream hs).2
          rw [hnew] at hisFin
          cases hisFin
        · refine (outstanding_lookup hlookup).trans ?_
          simp [SendBuffer.outstanding, RequestStream.markFinSent, SendBuffer.markFinSent, hdata,
            bytesOf, finMark]
    · rename_i hfin
      refine Post.ret ?_
      simp only [queuedData_eq hbidi hc.localUni, hs, Option.bind_some]
      by_cases hdata : stream.sendBuf.data = []
      · rw [hdata]
        refine .nothing ?_
        simp only [RequestStream.hasFinPending, SendBuffer.isFin, SendBuffer.isDataConsumed,
          SendBuffer.isFinSent, hdata, List.isEmpty_nil, Bool.and_true] at hfin
        rw [hout, SendBuffer.outstanding, hdata, Bool.eq_false_iff.mpr hfin]
        rfl
      · rw [if_neg (by simpa using hdata)]
        exact .data hs hdata

/-- The outcome of a call of `takeStreamData`. -/
inductive TakeOutcome (role : Role) (s : Nat) (c : Core) :
    Except Error (Option (Bytes × Bool)) → Core → Prop
  | panicked (d : Core) : TakeOutcome role s c (.error .panicked) d
  | nothing {d : Core} (h : outstanding c s = []) (hd : Takes role s c d []) :
      TakeOutcome role s c (.ok none) d
  | fin {d : Core} (hd : Takes role s c d [none]) : TakeOutcome role s c (.ok (some ([], true))) d
  | data {d : Core} (data : Bytes) (hd : Takes role s c d (bytesOf data)) :
      TakeOutcome role s c (.ok (some (data, false))) d

variable (env) in
theorem takeStreamData_takes (hc : Sending role s c) :
    Post (fun r => TakeOutcome role s c r.val r.st) c (takeStreamData env s) := by
  have hget := getStreamData_gets env hbidi hc
  refine Post.bind (fun e t o hx => ?_) fun d t o hx => ?_ <;> rw [Post, hx] at hget
  · cases hget with
    | panicked => exact .panicked _
  · cases hget with
    | nothing h => exact Post.ret (.nothing h ⟨hc, [], h, .inl h⟩)
    | @fin _ stream h hd hout hs hdata =>
      simp only [List.isEmpty_nil, Bool.not_true, Bool.and_false]
      have hconsume := takes_consume hbidi hd hs
      rw [hdata] at hconsume
      refine Post.bind (fun e u o' hu => ?_) fun _ u o' hu => ?_ <;> rw [Post, hu] at hconsume
      · cases hconsume.1
      · obtain ⟨-, hu, rest, hrest, hrest'⟩ := hconsume
        rw [hout, List.nil_eq, List.append_eq_nil_iff] at hrest
        rw [hrest.2, or_self] at hrest'
        exact Post.ret (.fin ⟨hu, [], h, .inl hrest'⟩)
    | @data stream hs hne =>
      have hempty : stream.sendBuf.data.isEmpty = false := by simpa using hne
      simp only [hempty, Bool.false_and]
      have hconsume := takes_consume hbidi hc hs
      refine Post.bind (fun e u o' hu => ?_) fun _ u o' hu => ?_ <;> rw [Post, hu] at hconsume
      · cases hconsume.1
      · exact Post.ret (.data _ hconsume.2)

end Take

/-! ## The account of a run -/

section Account

variable (cfg : Config) (s : Nat) (c : Connection) (i : Input)

/-- The bytes and the FIN that a call hands out on the stream. -/
def takenBy : List Mark :=
  match i.call, (c.feed cfg i).result with
  | .takeStreamData x, .ok (.streamData (some (data, fin))) =>
    if x = s then bytesOf data ++ finMark fin else []
  | _, _ => []

/-- The bytes and the FIN that a call queues on the stream. A response is queued before its session
is established, and stays queued where that fails. -/
def queuedBy : List Mark :=
  match i.call with
  | .sendRequest headers fin =>
    if (c.feed cfg i).result = .ok (.streamId s) then requestMarks c.core headers fin else []
  | .sendResponse x headers fin =>
    if x = s ∧ c.error = none then responseMarks (cfg.env i.order) c.core s headers fin else []
  | .sendBody x data fin =>
    if x = s ∧ succeeded (c.feed cfg i).result then bytesOf (bodyFrame data) ++ finMark fin else []
  | _ => []

/-- The call drops what is outstanding and was not taken: it removes the stream of a session that
has ended. -/
def Drops : Prop :=
  (takenBy cfg s c i).length < (outstanding c.core s).length ∧
    outstanding (c.feed cfg i).conn.core s = []

/-- Calls that do not belong on a stream driven by `takeStreamData`: the peer resets it or asks to
stop sending, or its data is read and consumed by hand. -/
def bypasses (s : Nat) : Call → Bool
  | .streamReset x _ _ | .stopSending x _ | .getStreamData x | .consumeStreamData x _ => s == x
  | _ => false

/-- A step of a run that is driven through `takeStreamData`. -/
def Delivers : Prop :=
  bypasses s i.call = false ∧ (c.feed cfg i).result ≠ .error .panicked ∧ ¬Drops cfg s c i

instance : Decidable (Drops cfg s c i) := inferInstanceAs (Decidable (_ ∧ _))

instance : Decidable (Delivers cfg s c i) := inferInstanceAs (Decidable (_ ∧ _ ∧ ¬_))

/-- What a run hands out on the stream. -/
def taken (cfg : Config) (s : Nat) (c : Connection) : List Input → List Mark
  | [] => []
  | i :: is => takenBy cfg s c i ++ taken cfg s (c.feed cfg i).conn is

/-- What a run queues on the stream. -/
def queued (cfg : Config) (s : Nat) (c : Connection) : List Input → List Mark
  | [] => []
  | i :: is => queuedBy cfg s c i ++ queued cfg s (c.feed cfg i).conn is

end Account

section Run

variable {cfg : Config} {s : Nat} {c : Connection}

/-- What was handed out and what is outstanding is what was outstanding and what was queued. -/
structure Accounted (cfg : Config) (s : Nat) (c : Connection) (i : Input) : Prop where
  sending : Sending cfg.role s (c.feed cfg i).conn.core
  account : takenBy cfg s c i ++ outstanding (c.feed cfg i).conn.core s =
    outstanding c.core s ++ queuedBy cfg s c i

theorem accounted_untaken {i : Input} (hc : Sending cfg.role s c.core)
    (hdrops : ¬Drops cfg s c i) (hsends : sendsOn i.call s = false)
    (hrequest : ∀ headers fin, i.call ≠ .sendRequest headers fin)
    (htaken : takenBy cfg s c i = []) (hqueued : queuedBy cfg s c i = []) :
    Accounted cfg s c i := by
  obtain ⟨hd, hout⟩ := step_stays (untaken_composes (cfg.env i.order).role s)
    (untaken_body i.call hsends hrequest c.core) hc
  refine ⟨hd, ?_⟩
  rw [htaken, hqueued, List.nil_append, List.append_nil]
  rcases hout with hout | hout
  · exact hout
  · by_contra hne
    refine hdrops ⟨?_, hout⟩
    rw [htaken]
    exact List.length_pos_iff.mpr fun h => hne (hout.trans h.symm)

/-- A procedure whose result is wrapped. -/
theorem wrapped_run {α : Type} {x : CoreProc α} {core st : Core} {val : Except Error α}
    {out : List Obs} (hx : x core = ⟨val, st, out⟩) (f : α → Response) :
    (x >>= fun a => ret (f a) : CoreProc Response) core = ⟨val.map f, st, out⟩ := by
  rw [bind_run, hx]
  cases val with
  | error e => rfl
  | ok a => simp [Except.map, ret]

/-- The result and the core of a call that looks at the recorded error. -/
theorem guarded_run (hc : c.error = none) {x : CoreProc Response} {val : Except Error Response}
    {st : Core} {out : List Obs} (hx : x c.core = ⟨val, st, out⟩) :
    (c.guarded x).result = val ∧ (c.guarded x).conn.core = st := by
  simp only [guarded, hc, exec, hx, and_self]

theorem guarded_of_some {e : Error} (hc : c.error = some e) (x : CoreProc Response) :
    c.guarded x = ⟨.error e, c, []⟩ := by
  simp only [guarded, hc]

theorem accounted_take (hbidi : (StreamKind.fromStreamId s).isUnidirectional = false)
    {order : HashOrder} (hc : Sending cfg.role s c.core)
    (hi : Delivers cfg s c ⟨order, .takeStreamData s⟩) :
    Accounted cfg s c ⟨order, .takeStreamData s⟩ := by
  have htakes := takeStreamData_takes (cfg.env order) hbidi hc
  obtain ⟨-, hpanic, hdrops⟩ := hi
  rcases hx : takeStreamData (cfg.env order) s c.core with ⟨val, st, out⟩
  rw [Post, hx] at htakes
  have hrun : c.feed cfg ⟨order, .takeStreamData s⟩ =
      ⟨val.map .streamData, { c with core := st, events := c.events ++ eventsOf out }, out⟩ := by
    simp only [feed, step, exec, body, wrapped_run hx]
  have hnone : val.toOption.join = none → takenBy cfg s c ⟨order, .takeStreamData s⟩ = [] := by
    simp only [takenBy, hrun]
    rcases val with e | _ | ⟨data, fin⟩
    · exact fun _ => rfl
    · exact fun _ => rfl
    · exact fun h => by cases h
  have hsome : ∀ data fin, val = .ok (some (data, fin)) →
      takenBy cfg s c ⟨order, .takeStreamData s⟩ = bytesOf data ++ finMark fin := by
    rintro data fin rfl
    simp only [takenBy, hrun]
    exact if_pos rfl
  have hall : ∀ marks, Takes cfg.role s c.core st marks →
      takenBy cfg s c ⟨order, .takeStreamData s⟩ = marks →
      Accounted cfg s c ⟨order, .takeStreamData s⟩ := by
    rintro _ ⟨hd, rest, hrest, hout⟩ rfl
    refine ⟨by rwa [hrun], ?_⟩
    rw [hrest, hrun, queuedBy, List.append_nil]
    rcases hout with hout | hout
    · rw [hout]
    · by_contra hne
      have hrest' : rest ≠ [] := fun h => hne (by rw [hout, h])
      refine hdrops ⟨?_, by rw [hrun, hout]⟩
      rw [hrest, List.length_append]
      exact Nat.lt_add_of_pos_right (List.length_pos_iff.mpr hrest')
  cases htakes with
  | panicked => exact absurd (by rw [hrun]; rfl) hpanic
  | nothing h hd => exact hall [] hd (hnone rfl)
  | fin hd => exact hall [none] hd (hsome [] true rfl)
  | data data hd => exact hall _ hd ((hsome data false rfl).trans (List.append_nil _))

/-- A call that fails without touching the stream. -/
theorem accounted_same {i : Input} (hc : Sending cfg.role s c.core)
    (hcore : (c.feed cfg i).conn.core = c.core) (htaken : takenBy cfg s c i = [])
    (hqueued : queuedBy cfg s c i = []) : Accounted cfg s c i :=
  ⟨hcore ▸ hc, by rw [hcore, htaken, hqueued, List.nil_append, List.append_nil]⟩

theorem accounted_sent {i : Input} {marks : List Mark} (hc : Sending cfg.role s c.core)
    (h : Sent cfg.role s marks c.core (c.feed cfg i).conn.core) (htaken : takenBy cfg s c i = [])
    (hqueued : queuedBy cfg s c i = marks) : Accounted cfg s c i := by
  obtain ⟨hd, hout⟩ := h hc
  exact ⟨hd, by rw [htaken, hqueued, List.nil_append, hout]⟩

theorem accounted (hbidi : (StreamKind.fromStreamId s).isUnidirectional = false) {i : Input}
    (hc : Sending cfg.role s c.core) (hi : Delivers cfg s c i) : Accounted cfg s c i := by
  have hother := accounted_untaken hc hi.2.2
  rcases i with ⟨order, call⟩
  cases call with
  | takeStreamData x =>
    by_cases hx : s = x
    · subst hx
      exact accounted_take hbidi hc hi
    · refine hother (by simpa [sendsOn] using hx) (by simp) ?_ rfl
      simp only [takenBy]
      split
      · rename_i heq _
        cases heq
        rw [if_neg fun h => hx h.symm]
      · rfl
  | sendRequest headers fin =>
    cases herror : c.error with
    | some e =>
      have hrun : c.feed cfg ⟨order, .sendRequest headers fin⟩ = ⟨.error e, c, []⟩ :=
        guarded_of_some herror _
      refine accounted_same hc (by rw [hrun]) rfl ?_
      simp only [queuedBy, hrun]
      exact if_neg (by simp)
    | none =>
      have hsent := sendRequestInner_sent (cfg.env order) (s := s) headers fin c.core
      rcases hx : sendRequestInner (cfg.env order) headers fin c.core with ⟨val, st, out⟩
      rw [Post, hx] at hsent
      obtain ⟨hresult, hcore⟩ := guarded_run herror (wrapped_run hx .streamId)
      have hresult : (c.feed cfg ⟨order, .sendRequest headers fin⟩).result = _ := hresult
      cases val with
      | error e => exact accounted_sent hc (hcore.symm ▸ hsent) rfl (by simp [queuedBy, hresult, Except.map])
      | ok id =>
        exact accounted_sent hc (hcore.symm ▸ hsent) rfl (by simp [queuedBy, hresult, Except.map])
  | sendResponse x headers fin =>
    by_cases hx : s = x
    · subst hx
      cases herror : c.error with
      | some e =>
        have hrun : c.feed cfg ⟨order, .sendResponse s headers fin⟩ = ⟨.error e, c, []⟩ :=
          guarded_of_some herror _
        exact accounted_same hc (by rw [hrun]) rfl (by simp [queuedBy, herror])
      | none =>
        have hsent := sendResponseInner_sent (cfg.env order) (s := s) headers fin c.core
        rcases hx : sendResponseInner (cfg.env order) s headers fin c.core with ⟨val, st, out⟩
        rw [Post, hx] at hsent
        have hcore := (guarded_run herror (wrapped_run hx fun _ => .done)).2
        exact accounted_sent hc (hcore.symm ▸ hsent) rfl (by simp [queuedBy, herror])
    · exact hother (by simpa [sendsOn] using hx) (by simp) rfl
        (if_neg fun h => hx h.1.symm)
  | sendBody x data fin =>
    by_cases hx : s = x
    · subst hx
      obtain ⟨hresult, hcore⟩ := remember_run (c.guarded (unit (sendBodyInner s data fin)))
      cases herror : c.error with
      | some e =>
        rw [guarded_of_some herror] at hresult hcore
        have hrun : (c.feed cfg ⟨order, .sendBody s data fin⟩) =
            remember ⟨.error e, c, []⟩ := congrArg remember (guarded_of_some herror _)
        refine accounted_same hc (by rw [hrun, hcore]) rfl ?_
        simp only [queuedBy, hrun, hresult, succeeded_error]
        exact if_neg (by simp)
      | none =>
        have hsent := sendBodyInner_sent cfg.role (s := s) data fin c.core
        rcases hx : sendBodyInner s data fin c.core with ⟨val, st, out⟩
        rw [Post, hx] at hsent
        obtain ⟨hresult', hcore'⟩ := guarded_run herror (wrapped_run hx fun _ => .done)
        have hresult : (c.feed cfg ⟨order, .sendBody s data fin⟩).result = _ :=
          hresult.trans hresult'
        refine accounted_sent hc ((hcore.trans hcore').symm ▸ hsent) rfl ?_
        simp only [queuedBy, true_and, hresult]
        cases val <;> rfl
    · exact hother (by simpa [sendsOn] using hx) (by simp) rfl
        (if_neg fun h => hx h.1.symm)
  | initH3Streams => exact hother hbidi (by simp) rfl rfl
  | streamReset x | stopSending x | getStreamData x | consumeStreamData x =>
    exact hother hi.1 (by simp) rfl rfl
  | _ => exact hother rfl (by simp) rfl rfl

theorem Sending.new (hc : Connection.new cfg = .ok c) : Sending cfg.role s c.core := by
  simp only [Connection.new, Core.new, bind, Except.bind, pure, Except.pure] at hc
  cases hsend : ControlStreamSend.new.sendSettings cfg.localSettings with
  | error e =>
    rw [hsend] at hc
    cases hc
  | ok control =>
    rw [hsend] at hc
    cases hc
    refine ⟨⟨?_, rfl, rfl⟩, fun t ht => by simp at ht, fun _ _ t ht => by simp at ht⟩
    simp only [ControlStreamSend.sendSettings_streamId hsend]
    rfl

variable (hbidi : (StreamKind.fromStreamId s).isUnidirectional = false)

include hbidi

theorem Sending.run (hc : Sending cfg.role s c.core) {is : List Input}
    (h : EveryStep cfg (Delivers cfg s) c is) : Sending cfg.role s (after cfg c is).core :=
  h.inv (I := fun c => Sending cfg.role s c.core)
    (fun _ _ hc hi => (accounted hbidi hc hi).sending) hc

/-- The accounts of the steps add up. -/
theorem account_run (hc : Sending cfg.role s c.core) {is : List Input}
    (h : EveryStep cfg (Delivers cfg s) c is) :
    taken cfg s c is ++ outstanding (after cfg c is).core s =
      outstanding c.core s ++ queued cfg s c is := by
  induction is generalizing c with
  | nil => rw [taken, queued, List.nil_append, List.append_nil, after]
  | cons i is ih =>
    have hstep := accounted hbidi hc h.1
    rw [taken, queued, after, List.append_assoc, ih hstep.sending h.2, ← List.append_assoc,
      hstep.account, List.append_assoc]

/-- Nothing is left when a call hands nothing out. -/
theorem take_result (hc : Sending cfg.role s c.core) {order : HashOrder} :
    ((c.feed cfg ⟨order, .takeStreamData s⟩).result = .ok (.streamData none) →
        outstanding c.core s = []) ∧
      ∀ data, (c.feed cfg ⟨order, .takeStreamData s⟩).result = .ok (.streamData (some (data, true))) →
        data = [] := by
  have htakes := takeStreamData_takes (cfg.env order) hbidi hc
  rcases hx : takeStreamData (cfg.env order) s c.core with ⟨val, st, out⟩
  rw [Post, hx] at htakes
  have hrun : (c.feed cfg ⟨order, .takeStreamData s⟩).result = val.map .streamData := by
    simp only [feed, step, exec, body, wrapped_run hx]
  rw [hrun]
  cases htakes with
  | nothing h => exact ⟨fun _ => h, fun _ h => by cases h⟩
  | fin =>
    refine ⟨fun h => (by cases h), fun _ h => ?_⟩
    cases h
    rfl
  | panicked | data => exact ⟨fun h => (by cases h), fun _ h => by cases h⟩

end Run

/-! ## FIN ends what is queued -/

/-- Was FIN queued on the stream, if it exists? -/
def ended (c : Core) (s : Nat) : Bool := (c.streams.lookup s).all fun stream => stream.sendBuf.fin

/-- The step opens the stream: a request gets its id, or there is a new stream in place of none or
of one whose FIN was queued. -/
def Opens (cfg : Config) (s : Nat) (c : Connection) (i : Input) : Prop :=
  (c.feed cfg i).result = .ok (.streamId s) ∨
    ended c.core s = true ∧ ended (c.feed cfg i).conn.core s = false

instance (cfg : Config) (s : Nat) (c : Connection) (i : Input) : Decidable (Opens cfg s c i) :=
  inferInstanceAs (Decidable (_ ∨ _ ∧ _))

section Ended

variable {cfg : Config} {s : Nat} {c : Connection}

theorem ended_of_outstanding {core : Core} (h : none ∈ outstanding core s) :
    ended core s = true := by
  unfold outstanding at h
  unfold ended
  cases hs : core.streams.lookup s with
  | none => rfl
  | some stream =>
    simp only [hs, Option.map_some, Option.getD_some, SendBuffer.outstanding, bytesOf, finMark,
      List.mem_append, List.mem_map, reduceCtorEq, and_false, exists_false, false_or] at h
    rw [Option.all_some]
    cases hfin : stream.sendBuf.fin with
    | true => rfl
    | false => simp [hfin] at h

theorem sendBody_succeeds {i : Input} {data : Bytes} {fin : Bool} (hi : i.call = .sendBody s data fin)
    (hok : succeeded (c.feed cfg i).result = true) :
    ∃ stream t, c.core.streams.lookup s = some stream ∧ stream.sendBody data fin = .ok t := by
  rcases i with ⟨order, call⟩
  obtain rfl : call = .sendBody s data fin := hi
  have hpost : Post (fun r => succeeded r.val = true → ∃ stream t,
      c.core.streams.lookup s = some stream ∧ stream.sendBody data fin = .ok t) c.core
      (sendBodyInner s data fin) := by
    refine Post.get_bind ?_
    split
    · exact Post.throw fun h => by cases h
    · rename_i stream hs
      exact Post.ofExcept_bind (fun _ _ h => by cases h) fun t ht =>
        Post.modify fun _ => ⟨stream, t, hs, ht⟩
  have hresult := (remember_run (c.guarded (unit (sendBodyInner s data fin)))).1
  have hresult : (c.feed cfg ⟨order, .sendBody s data fin⟩).result = _ := hresult
  rw [hresult] at hok
  cases herror : c.error with
  | some e =>
    rw [guarded_of_some herror] at hok
    cases hok
  | none =>
    rcases hx : sendBodyInner s data fin c.core with ⟨val, st, out⟩
    rw [Post, hx] at hpost
    have hrun := (guarded_run herror (wrapped_run hx fun _ => .done)).1
    rw [show (c.guarded (unit (sendBodyInner s data fin))).result = _ from hrun] at hok
    refine hpost ?_
    cases val with
    | error e => cases hok
    | ok u => rfl

/-- Once FIN is queued, a call queues something only where it opens the stream. -/
theorem queuedBy_ended {i : Input} (hc : Sending cfg.role s c.core) (hended : ended c.core s = true)
    (hopens : ¬Opens cfg s c i) : queuedBy cfg s c i = [] := by
  have hclosed : ∀ stream, c.core.streams.lookup s = some stream → stream.state.canSend = false := by
    intro stream hs
    refine (hc.orderly stream hs).finLast ?_
    simpa only [ended, hs, Option.all_some] using hended
  unfold queuedBy
  split
  · exact if_neg fun h => hopens (.inl h)
  · rename_i x headers fin _
    split
    · unfold responseMarks
      split
      · rename_i encoded _ _
        refine if_neg fun htakes => ?_
        obtain ⟨stream, hs, htake⟩ := (Option.any_eq_true ..).mp htakes
        cases hsend : stream.sendEncodedHeaders encoded fin (isInterimResponse headers) with
        | error e => rw [hsend] at htake; cases htake
        | ok t =>
          have := (sendEncodedHeaders_queues (hc.orderly stream hs) hsend).canSend
          rw [hclosed stream hs] at this
          cases this
      · rfl
    · rfl
  · rename_i x data fin hcall
    refine if_neg fun ⟨hx, hok⟩ => ?_
    obtain ⟨stream, t, hs, hsend⟩ := sendBody_succeeds (hx ▸ hcall) hok
    have := (sendBody_queues (hc.orderly stream hs) hsend).canSend
    rw [hclosed stream hs] at this
    cases this
  · rfl

/-- A call that queues FIN leaves it outstanding. -/
theorem ended_of_queued (hbidi : (StreamKind.fromStreamId s).isUnidirectional = false) {i : Input}
    (hc : Sending cfg.role s c.core) (hi : Delivers cfg s c i)
    (hnone : none ∈ queuedBy cfg s c i) : ended (c.feed cfg i).conn.core s = true := by
  have haccount := (accounted hbidi hc hi).account
  have htaken : takenBy cfg s c i = [] := by
    unfold takenBy
    unfold queuedBy at hnone
    split at hnone <;> simp_all
  rw [htaken, List.nil_append] at haccount
  exact ended_of_outstanding (haccount ▸ List.mem_append_right _ hnone)

/-- Behind FIN nothing is queued until the stream is opened again. -/
theorem queued_ended (hbidi : (StreamKind.fromStreamId s).isUnidirectional = false)
    (hc : Sending cfg.role s c.core) (hended : ended c.core s = true) {is : List Input}
    (h : EveryStep cfg (Delivers cfg s) c is)
    (hopens : EveryStep cfg (fun c i => ¬Opens cfg s c i) c is) : queued cfg s c is = [] := by
  induction is generalizing c with
  | nil => rfl
  | cons i is ih =>
    have hstays : ended (c.feed cfg i).conn.core s = true := by
      by_contra hne
      exact hopens.1 (.inr ⟨hended, by simpa using hne⟩)
    rw [queued, queuedBy_ended hc hended hopens.1,
      ih (accounted hbidi hc h.1).sending hstays h.2 hopens.2, List.append_nil]

end Ended

/-! ## The result -/

/-- A request is answered in two parts, and its stream is emptied meanwhile. -/
def answerRun : List Input :=
  [Call.setControlStreamId 3, .feedStream 0 (Sample.headersBytes Sample.getHeaders) true,
    .sendResponse 0 Sample.okHeaders false, .takeStreamData 0, .sendBody 0 [1, 2] true,
    .takeStreamData 0, .takeStreamData 0].map Call.listed

/-- What a call queues that succeeds. -/
def sentBy (cfg : Config) (s : Nat) (c : Connection) (i : Input) : List Mark :=
  if succeeded (c.feed cfg i).result then queuedBy cfg s c i else []

def sent (cfg : Config) (s : Nat) (c : Connection) : List Input → List Mark
  | [] => []
  | i :: is => sentBy cfg s c i ++ sent cfg s (c.feed cfg i).conn is

/-- A CONNECT whose session is closed by a capsule that came too early, with a byte behind it. -/
def brokenSessionCalls : List Call :=
  Sample.serverSetup ++ [.feedStream 0 (Sample.headersBytes Sample.webTransportHeaders) false,
    .feedStream 0 [0, 8, 0x68, 0x43, 4, 0, 0, 0, 0, 9] false,
    .sendResponse 0 Sample.okHeaders false, .takeStreamData 0]

end Connection

end Http3
