import Http3.Connection.ControlFields
import Http3.Connection.EarlySessions

/-!
# GOAWAY

The ids of the GOAWAYs that are sent never increase. A client opens no request at or above one that
it received; a server that sent one reports nothing of requests at or above it, but for those that
were open, and creates no session there for a stream or datagram that came early.
-/

namespace Http3

/-- The request stream whose message an event is about. -/
def Event.requestStream? : Event → Option Nat
  | .headersBegin streamId | .header streamId _ _ | .headersEnd streamId | .data streamId _
  | .streamEnd streamId => some streamId
  | _ => none

/-- What is told of requests is about streams in `p`. -/
def Obs.Allowed (p : Nat → Prop) : Obs → Prop
  | .event e => ∀ x, e.requestStream? = some x → p x
  | .wtConnect streamId => p streamId
  | _ => True

/-- Does it tell of a GOAWAY of the peer? -/
def Obs.isGoaway : Obs → Bool
  | .event (.goawayReceived _) => true
  | _ => false

theorem Obs.IsWt.allowed {p : Nat → Prop} {o : Obs} (h : o.IsWt p) : o.Allowed p := by
  rcases o with e | _ | _ | _ | _ | _
  · cases e with
    | webTransport e =>
      intro x hx
      cases hx
    | _ => exact h.elim
  · exact h.elim
  · exact h.elim
  · exact h
  · exact h.elim
  · trivial

theorem Obs.IsWt.not_goaway {p : Nat → Prop} {o : Obs} (h : o.IsWt p) : o.isGoaway = false := by
  rcases o with e | _ | _ | _ | _ | _
  · cases e with
    | webTransport e => rfl
    | _ => exact h.elim
  all_goals rfl

namespace Connection

open Proc

/-- Requests are in `p`, and so are CONNECTs that wait; a server creates sessions in `q` only. -/
structure Within (role : Role) (p q : Nat → Prop) (c : Core) : Prop where
  goaway : role = .server → ∃ id ∈ c.lastSentGoawayId, ∀ x, x < id.get → q x
  streams : ∀ x, c.streams.contains x = true → p x
  waiting : ∀ x, c.wt.deferredWtConnects.contains x = true → p x

/-- Below the last GOAWAY, or without one, everything is in `q`. -/
theorem Within.below {role : Role} {p q : Nat → Prop} {c : Core} (hc : Within role p q c)
    (hrole : role = .server) (x : Nat)
    (hx : ¬(c.lastSentGoawayId.any fun lastId => lastId.get ≤ x) = true) : q x := by
  obtain ⟨id, hid, hq⟩ := hc.goaway hrole
  rw [Option.mem_def] at hid
  simp only [hid, Option.any_some, decide_eq_true_eq, Nat.not_le] at hx
  exact hq x hx

/-- What is reported on the way. -/
structure Minded (p q : Nat → Prop) (c : Core) (o : List Obs) (d : Core) : Prop where
  sessions : ∀ x, d.wt.wtSessions.contains x = true → Due q c.wt o x
  told : ∀ e ∈ o, ∀ x, e.session? = some x → Due q c.wt o x
  allowed : ∀ e ∈ o, e.Allowed p
  heard : ∀ id, Obs.event (.goawayReceived id) ∈ o →
    ∃ prev ∈ d.peerGoawayLastId, prev.get ≤ id.get
  falls : ∀ prev ∈ c.peerGoawayLastId, ∃ next ∈ d.peerGoawayLastId, next.get ≤ prev.get

def Minds (role : Role) (p q : Nat → Prop) : Flow Obs Core := fun c o _ d =>
  Within role p q c → Within role p q d ∧ Minded p q c o d

/-- Only streams in `p` are opened, and what else changes does not matter. -/
@[mk_iff]
structure OpensIn (p : Nat → Prop) (c d : Core) : Prop where
  streams : ∀ x, d.streams.contains x = true → c.streams.contains x = true ∨ p x
  wt : d.wt = c.wt
  lastSentGoawayId : d.lastSentGoawayId = c.lastSentGoawayId
  peerGoawayLastId : d.peerGoawayLastId = c.peerGoawayLastId

section OpensIn

variable {p : Nat → Prop}

theorem OpensIn.of_streams {c d : Core} (h : d = { c with streams := d.streams })
    (hstreams : ∀ x, d.streams.contains x = true → c.streams.contains x = true ∨ p x) :
    OpensIn p c d := by
  rw [h]
  exact ⟨hstreams, rfl, rfl, rfl⟩

theorem opensIn_rest {c d : Core} (hstreams : d.streams = c.streams) (hwt : d.wt = c.wt)
    (hlast : d.lastSentGoawayId = c.lastSentGoawayId)
    (hpeer : d.peerGoawayLastId = c.peerGoawayLastId) : OpensIn p c d := by
  refine ⟨fun x hx => .inl ?_, hwt, hlast, hpeer⟩
  rwa [hstreams] at hx

@[grind ←] theorem opensIn_modifyStream (streamId : Nat) (f : RequestStream → RequestStream)
    (c : Core) : OpensIn p c (modifyStream streamId f c) := by
  refine ⟨fun x hx => .inl ?_, rfl, rfl, rfl⟩
  have hmore : IdMap.contains (c.streams.update streamId f) x = true := hx
  rwa [IdMap.contains_update] at hmore

@[grind ←] theorem opensIn_modifyQpack (f : QpackState → QpackState) (c : Core) :
    OpensIn p c (modifyQpack f c) := opensIn_rest rfl rfl rfl rfl

theorem opensIn_putStream {streamId : Nat} {c : Core}
    (hs : c.streams.contains streamId = true ∨ p streamId) (stream : RequestStream) :
    OpensIn p c (putStream streamId stream c) := by
  refine ⟨fun x hx => ?_, rfl, rfl, rfl⟩
  have hmore : IdMap.contains (c.streams.insert streamId stream) x = true := hx
  rw [IdMap.contains_insert] at hmore
  obtain heq | hold := Bool.or_eq_true_iff.mp hmore
  · rwa [of_decide_eq_true heq]
  · exact .inl hold

theorem opensIn_ensureStream (env : Env) {streamId : Nat} (hp : p streamId) (c : Core) :
    OpensIn p c (ensureStream env streamId c) := by
  unfold ensureStream
  split
  · exact opensIn_rest rfl rfl rfl rfl
  · exact opensIn_putStream (.inr hp) _

@[grind ←] theorem opensIn_removeStreamIfDone (streamId : Nat) (c : Core) :
    OpensIn p c (removeStreamIfDone streamId c) := by
  refine .of_streams (removeStreamIfDone_eq _ c) fun x hx => .inl ?_
  unfold removeStreamIfDone at hx
  split at hx
  · have hmore : IdMap.contains (c.streams.erase streamId) x = true := hx
    rw [IdMap.contains_erase] at hmore
    exact (Bool.and_eq_true_iff.mp hmore).2
  · exact hx

theorem contains_of_stream {c : Core} {streamId : Nat} {stream : RequestStream}
    (hs : c.streams.lookup streamId = some stream) : c.streams.contains streamId = true :=
  (IdMap.contains_iff _ _).mpr ⟨stream, hs⟩

@[grind ←] theorem opensIn_clearQpackBlocked (streamId : Nat) (c : Core) :
    OpensIn p c (clearQpackBlocked streamId c) := by
  unfold clearQpackBlocked
  split
  · rename_i stream hs
    have hput := @opensIn_putStream p streamId c (.inl (contains_of_stream hs))
      (stream.setQpackBlocked false 0 none)
    exact ⟨hput.streams, rfl, rfl, rfl⟩
  · exact opensIn_rest rfl rfl rfl rfl

@[grind ←] theorem opensIn_registerBlocked (streamId : Nat) (encoded : Bytes)
    (isTrailer : Bool) (c : Core) : OpensIn p c (registerBlocked streamId encoded isTrailer c) := by
  have hmodify := @opensIn_modifyStream p streamId
    (fun s => s.setQpackBlocked true c.qpack.dynamicDecoder.lastRequiredInsertCount
      (some (encoded, isTrailer))) c
  exact ⟨hmodify.streams, rfl, rfl, rfl⟩

@[grind ←] theorem opensIn_setMaxReceivedBodySize (size : Nat) (c : Core) :
    OpensIn p c (setMaxReceivedBodySize size c) := by
  refine ⟨fun x hx => .inl ?_, rfl, rfl, rfl⟩
  rwa [setMaxReceivedBodySize, IdMap.contains_updateEach] at hx

end OpensIn

section Minds

variable (env : Env) {p q : Nat → Prop}

/-! ## Rules -/

theorem minded_refl (p q : Nat → Prop) (c : Core) : Minded p q c [] c :=
  ⟨fun _ h => .inl h, fun _ he => absurd he List.not_mem_nil,
    fun _ he => absurd he List.not_mem_nil, fun _ he => absurd he List.not_mem_nil,
    fun prev h => ⟨prev, h, Nat.le_refl _⟩⟩

theorem Minded.trans {c d e : Core} {o o' : List Obs} (h : Minded p q c o d)
    (h' : Minded p q d o' e) : Minded p q c (o ++ o') e := by
  have hleft : ∀ x, Due q c.wt o x → Due q c.wt (o ++ o') x := by
    rintro x (hold | hconnect | hq)
    · exact .inl hold
    · exact .inr (.inl (List.mem_append_left o' hconnect))
    · exact .inr (.inr hq)
  have hright : ∀ x, Due q d.wt o' x → Due q c.wt (o ++ o') x := by
    rintro x (hold | hconnect | hq)
    · exact hleft x (h.sessions x hold)
    · exact .inr (.inl (List.mem_append_right o hconnect))
    · exact .inr (.inr hq)
  refine ⟨fun x hx => hright x (h'.sessions x hx), fun e he x hx => ?_, fun e he => ?_,
    fun id hid => ?_, fun prev hprev => ?_⟩
  · obtain he | he := List.mem_append.mp he
    · exact hleft x (h.told e he x hx)
    · exact hright x (h'.told e he x hx)
  · exact (List.mem_append.mp he).elim (h.allowed e) (h'.allowed e)
  · obtain hid | hid := List.mem_append.mp hid
    · obtain ⟨prev, hprev, hle⟩ := h.heard id hid
      obtain ⟨next, hnext, hle'⟩ := h'.falls prev hprev
      exact ⟨next, hnext, Nat.le_trans hle' hle⟩
    · exact h'.heard id hid
  · obtain ⟨next, hnext, hle⟩ := h.falls prev hprev
    obtain ⟨last, hlast, hle'⟩ := h'.falls next hnext
    exact ⟨last, hlast, Nat.le_trans hle' hle⟩

variable (p q) in
@[grind .] theorem minds_composes (role : Role) : Composes (Minds role p q) where
  refl c _ hc := ⟨hc, minded_refl p q c⟩
  trans h h' hc := by
    obtain ⟨hd, hfirst⟩ := h hc
    obtain ⟨he, hsecond⟩ := h' hd
    exact ⟨he, hfirst.trans hsecond⟩

theorem OpensIn.within {role : Role} {c d : Core} (h : OpensIn p c d)
    (hc : Within role p q c) : Within role p q d := by
  refine ⟨?_, fun x hx => (h.streams x hx).elim (hc.streams x) id, ?_⟩
  · rw [h.lastSentGoawayId]
    exact hc.goaway
  · rw [h.wt]
    exact hc.waiting

theorem OpensIn.minded {c d : Core} (h : OpensIn p c d) : Minded p q c [] d := by
  have hsame := minded_refl p q c
  refine ⟨?_, hsame.told, hsame.allowed, ?_, ?_⟩
  · rw [h.wt]
    exact hsame.sessions
  · rw [h.peerGoawayLastId]
    exact hsame.heard
  · rw [h.peerGoawayLastId]
    exact hsame.falls

@[grind ←] theorem minds_modify {role : Role} {f : Core → Core} (h : ∀ c, OpensIn p c (f c)) :
    Keeps (Minds role p q) (modify f : CoreProc Unit) :=
  fun c hc => ⟨(h c).within hc, (h c).minded⟩

theorem minds_modify_at {role : Role} {c : Core} {f : Core → Core} (h : OpensIn p c (f c)) :
    KeepsAt (Minds role p q) c (modify f : CoreProc Unit) :=
  fun hc => ⟨h.within hc, h.minded⟩

theorem minds_emitAll {role : Role} {l : List Obs} (hl : ∀ e ∈ l, e.Allowed p)
    (hsession : ∀ e ∈ l, e.session? = none) (hgoaway : ∀ e ∈ l, e.isGoaway = false) :
    Keeps (Minds role p q) (emitAll l : CoreProc Unit) := by
  refine fun c hc => ⟨hc, fun _ h => .inl h, fun e he x hx => ?_, hl, fun id hid => ?_,
    fun prev h => ⟨prev, h, Nat.le_refl _⟩⟩
  · rw [hsession e he] at hx
    cases hx
  · cases hgoaway _ hid

theorem minds_emit {role : Role} {e : Obs} (he : e.Allowed p) (hsession : e.session? = none)
    (hgoaway : e.isGoaway = false) : Keeps (Minds role p q) (emit e : CoreProc Unit) := by
  have hone : ∀ e' ∈ [e], e' = e := fun e' h => List.mem_singleton.mp h
  refine minds_emitAll (fun e' h => ?_) (fun e' h => ?_) fun e' h => ?_ <;> rw [hone e' h]
  · exact he
  · exact hsession
  · exact hgoaway

/-- A procedure of WebTransport, given what holds before it. -/
theorem minds_onWt_at {role : Role} {α : Type} {c : Core} {x : WtProc α}
    (h : Within role p q c → KeepsAt (Heeds p q) c.wt x) :
    KeepsAt (Minds role p q) c (onWt x) := by
  intro hc
  obtain ⟨hsessions, hwaiting, htold, hkinds⟩ := h hc
  refine ⟨⟨hc.goaway, hc.streams, fun y hy => ?_⟩, hsessions, htold,
    fun e he => (hkinds e he).allowed, fun id hid => ?_, fun prev h => ⟨prev, h, Nat.le_refl _⟩⟩
  · exact (hwaiting y hy).elim (hc.waiting y) id
  · have hnot := (hkinds _ hid).not_goaway
    cases hnot

@[grind ←] theorem minds_onWt {role : Role} {α : Type} {x : WtProc α} (h : Keeps (Heeds p q) x) :
    Keeps (Minds role p q) (onWt x) := fun c => minds_onWt_at fun _ => h c.wt

/-- What holds before may be used. -/
theorem minds_at {role : Role} {α : Type} {c : Core} {x : CoreProc α}
    (h : Within role p q c → KeepsAt (Minds role p q) c x) : KeepsAt (Minds role p q) c x :=
  fun hc => h hc hc

/-! ## Request streams -/

section Stream

variable {streamId : Nat} (hp : p streamId)

@[grind ←] theorem decodeSection_minds (encoded : Bytes) :
    Keeps (Minds env.role p q) (decodeSection streamId encoded) := by
  have hR := minds_composes p q env.role
  refine Keeps.bind hR (.get hR) fun c => .bind hR (minds_modify fun c => by grind) fun _ => ?_
  split
  · exact .ret hR _
  · exact .bind hR (minds_emit trivial rfl rfl) fun _ => .throw hR _

include hp

theorem headerEvents_minds (headers : List Header) :
    Keeps (Minds env.role p q) (emitAll (headerEvents streamId headers) : CoreProc Unit) := by
  have hall : ∀ e ∈ headerEvents streamId headers,
      e.Allowed p ∧ e.session? = none ∧ e.isGoaway = false := by
    intro e he
    simp only [headerEvents, List.cons_append, List.mem_cons, List.mem_append, List.mem_map,
      List.not_mem_nil, or_false] at he
    obtain rfl | ⟨header, -, rfl⟩ | rfl := he
    all_goals
      refine ⟨fun x hx => ?_, rfl, rfl⟩
      cases hx
      exact hp
  exact minds_emitAll (fun e he => (hall e he).1) (fun e he => (hall e he).2.1)
    fun e he => (hall e he).2.2

@[grind ←] theorem reportHeaders_minds (headers : List Header) :
    Keeps (Minds env.role p q) (reportHeaders streamId headers) := by
  have hevents := @headerEvents_minds env p q streamId hp headers
  unfold reportHeaders
  grind

@[grind ←] theorem deferWtConnect_minds (headers : List Header) :
    Keeps (Minds env.role p q) (deferWtConnect streamId headers) := by
  unfold deferWtConnect
  grind

@[grind ←] theorem registerWtConnectSession_minds (headers : List Header) :
    Keeps (Minds env.role p q) (registerWtConnectSession env streamId headers) := by
  unfold registerWtConnectSession
  grind

@[grind ←] theorem acceptHeaders_minds (headers : List Header) :
    Keeps (Minds env.role p q) (acceptHeaders env streamId headers) := by
  unfold acceptHeaders noteConnectResponse
  grind

@[grind ←] theorem emitHeaderEvents_minds (headers : List Header) (isTrailer : Bool) :
    Keeps (Minds env.role p q) (emitHeaderEvents env streamId headers isTrailer) := by
  unfold emitHeaderEvents
  grind

@[grind ←] theorem processSection_minds (encoded : Bytes) (isTrailer : Bool) :
    Keeps (Minds env.role p q) (processSection env streamId encoded isTrailer) := by
  have hR := minds_composes p q env.role
  have hsection : ∀ headers, Keeps (Minds env.role p q)
      (emit (.fieldSection streamId headers isTrailer) : CoreProc Unit) :=
    fun headers => minds_emit trivial rfl rfl
  unfold processSection
  grind

@[grind ←] theorem processData_minds (bodyLen : Nat) (data : Bytes) :
    Keeps (Minds env.role p q) (processData env streamId bodyLen data) := by
  have hreceived : Keeps (Minds env.role p q)
      (emit (.dataReceived streamId data) : CoreProc Unit) := minds_emit trivial rfl rfl
  have hdata : Keeps (Minds env.role p q)
      (emit (.event (.data streamId data)) : CoreProc Unit) := by
    refine minds_emit (fun x hx => ?_) rfl rfl
    cases hx
    exact hp
  unfold processData
  grind

@[grind ←] theorem processStreamEnd_minds (stream : RequestStream) :
    Keeps (Minds env.role p q) (processStreamEnd env streamId stream) := by
  have hend : Keeps (Minds env.role p q)
      (emit (.event (.streamEnd streamId)) : CoreProc Unit) := by
    refine minds_emit (fun x hx => ?_) rfl rfl
    cases hx
    exact hp
  unfold processStreamEnd
  grind

@[grind ←] theorem processStreamFrames_minds :
    Keeps (Minds env.role p q) (processStreamFrames env streamId) := by
  have hR := minds_composes p q env.role
  have hone : Keeps (Minds env.role p q) (processStreamFrame env streamId) := by
    refine Keeps.get_bind fun c => ?_
    split
    · exact .of_keeps (.throw hR _)
    rename_i stream hs
    have hput := @opensIn_putStream p streamId c (.inl (contains_of_stream hs))
      stream.processRaw.2
    refine KeepsAt.modify_bind hR (minds_modify_at hput) (.of_keeps ?_)
    refine .bind hR (.ofExcept hR _) fun r => ?_
    split <;> grind
  unfold processStreamFrames
  grind

end Stream

@[grind ←] theorem retryStream_minds (streamId : Nat) :
    Keeps (Minds env.role p q) (retryStream env streamId) := by
  have hR := minds_composes p q env.role
  refine Keeps.get_bind fun c => minds_at fun hc => ?_
  cases hs : c.streams.lookup streamId with
  | none => exact .of_keeps (.ret hR _)
  | some stream =>
    have hp : p streamId := hc.streams streamId (contains_of_stream hs)
    have hsection : ∀ headers isTrailer, Keeps (Minds env.role p q)
        (emit (.fieldSection streamId headers isTrailer) : CoreProc Unit) :=
      fun headers isTrailer => minds_emit trivial rfl rfl
    refine .of_keeps ?_
    split
    · exact .ret hR _
    · refine .bind hR (by grind) fun _ => .bind hR (by grind) fun r => ?_
      split
      · refine .bind hR (hsection _ _) fun _ => .bind hR (by grind) fun _ => ?_
        grind
      · grind

@[grind ←] theorem retryBlockedStreams_minds :
    Keeps (Minds env.role p q) (retryBlockedStreams env) := by
  have hR := minds_composes p q env.role
  refine Keeps.bind hR (.get hR) fun c => ?_
  refine .bind hR (minds_modify fun c => opensIn_rest rfl rfl rfl rfl) fun _ => ?_
  exact .each hR _ fun e _ => retryStream_minds env e.2

section Bytes

variable (hqp : ∀ x, q x → p x) (hclient : env.role = .client → ∀ x, p x)

include hqp hclient

/-- Streams that a server has not seen are refused at or above its GOAWAY. -/
theorem mayOpen {c : Core} (hc : Within env.role p q c) {streamId : Nat}
    (h : ¬(env.role = .server && !c.streams.contains streamId &&
      c.lastSentGoawayId.any fun id => id.get ≤ streamId) = true) : p streamId := by
  cases hrole : env.role with
  | client => exact hclient hrole streamId
  | server =>
    obtain ⟨id, hid, hq⟩ := hc.goaway hrole
    rw [Option.mem_def] at hid
    cases hs : c.streams.contains streamId with
    | true => exact hc.streams streamId hs
    | false =>
      rw [hrole, hs, hid] at h
      simp only [Option.any_some, decide_eq_true_eq, Bool.not_false, Bool.and_true, decide_true,
        Bool.true_and, Nat.not_le] at h
      exact hqp streamId (hq streamId h)

@[grind ←] theorem handleBidirectionalStream_minds (streamId : Nat) (data : Bytes) (fin : Bool) :
    Keeps (Minds env.role p q) (handleBidirectionalStream env streamId data fin) := by
  have hR := minds_composes p q env.role
  refine Keeps.get_bind fun c => minds_at fun hc => ?_
  split
  · exact .of_keeps (by grind)
  split
  · exact .of_keeps (.throw hR _)
  rename_i hopen
  have hp := mayOpen env hqp hclient hc hopen
  refine KeepsAt.modify_bind hR (minds_modify_at (opensIn_ensureStream env hp c)) (.of_keeps ?_)
  grind

/-! ## Bytes of all streams -/

omit hqp hclient in
@[grind ←] theorem dispatchWtStream_minds (streamId : Nat) (buf : Bytes) (fin : Bool) :
    Keeps (Minds env.role p q) (dispatchWtStream env streamId buf fin) := by
  refine Keeps.get_bind fun c => ?_
  split
  · exact minds_onWt_at fun hc => .of_keeps (handleWtBidiStream_heeds env p q hc.below _ _ _)
  · exact .of_keeps (by grind)

@[grind ←] theorem dispatchClientBidiStream_minds (streamId : Nat) (data : Bytes) (fin : Bool) :
    Keeps (Minds env.role p q) (dispatchClientBidiStream env streamId data fin) := by
  have hR := minds_composes p q env.role
  have hset : ∀ buf, Keeps (Minds env.role p q) (onWt (modify (setDispatch streamId buf))) :=
    fun buf => minds_onWt (heeds_modify p q fun w => .of_eq rfl rfl)
  have hdrop : Keeps (Minds env.role p q) (onWt (modify (dropDispatch streamId))) :=
    minds_onWt (heeds_modify p q fun w => .of_eq rfl rfl)
  refine Keeps.bind hR (.get hR) fun c => ?_
  dsimp only
  split
  · grind
  split
  · grind
  · split <;> grind

end Bytes

@[grind ←] theorem receiveEncoderStream_minds (data : Bytes) :
    Keeps (Minds env.role p q) (receiveEncoderStream data) := by
  have hR := minds_composes p q env.role
  have hone : Keeps (Minds env.role p q) processEncoderInstruction := by
    refine Keeps.bind hR (.get hR) fun c => .bind hR (by grind) fun _ => ?_
    split <;> grind
  unfold receiveEncoderStream processEncoderStream
  grind

@[grind ←] theorem receiveDecoderStream_minds (data : Bytes) :
    Keeps (Minds env.role p q) (receiveDecoderStream data) := by
  have hR := minds_composes p q env.role
  have hone : ∀ total, Keeps (Minds env.role p q) (processDecoderInstruction total) := by
    intro total
    refine Keeps.bind hR (.get hR) fun c => .bind hR (by grind) fun _ => ?_
    split <;> grind
  unfold receiveDecoderStream processDecoderStream
  grind

/-! ## The control stream -/

theorem processDeferredWtConnects_minds :
    Keeps (Minds env.role p q) (processDeferredWtConnects env) := by
  have hR := minds_composes p q env.role
  have hone : ∀ streamId, p streamId → ∀ headers,
      Keeps (Minds env.role p q) (processDeferredWtConnect env streamId headers) := by
    intro streamId hp headers
    have hevents := @headerEvents_minds env p q streamId hp headers
    refine Keeps.bind hR (.get hR) fun c => .bind hR (.ofExcept hR _) fun _ => ?_
    refine .bind hR (by grind) fun _ => ?_
    split
    · refine .bind hR (minds_onWt (heeds_modify p q fun w => ?_)) fun _ => hevents
      exact (Shrinks.refl w).update _ _
    · exact .bind hR (.ret hR _) fun _ => hevents
  refine Keeps.get_bind fun c => minds_at fun hc => ?_
  have hclear : Keeps (Minds env.role p q)
      (onWt (modify fun w => { w with deferredWtConnects := ∅ })) := by
    refine minds_onWt (heeds_modify p q fun w => ⟨fun _ h => h, fun x hx => ?_⟩)
    rw [IdMap.contains_empty] at hx
    cases hx
  refine .of_keeps (.bind hR hclear fun _ => .each hR _ fun streamId hmem => hone streamId ?_ _)
  have hkey := (env.order.perm .deferredWtConnects c.wt.deferredWtConnects.keys).mem_iff.mp hmem
  exact hc.waiting streamId ((IdMap.contains_iff_mem_keys _ _).mpr hkey)

theorem handleSettings_minds (settings : Settings) :
    Keeps (Minds env.role p q) (handleSettings env settings) := by
  have hR := minds_composes p q env.role
  have hreceived : Keeps (Minds env.role p q)
      (emit (.event (.settingsReceived settings settings.wtSettings)) : CoreProc Unit) := by
    refine minds_emit (fun x hx => ?_) rfl rfl
    cases hx
  have hrelease : Keeps (Minds env.role p q) (processPendingWtBidiPreNegotiation env) := by
    refine Keeps.get_bind fun c => minds_onWt_at fun hc => ?_
    exact releasePreNegotiation_heeds env p q hc.below _ c.wt
  refine Keeps.bind hR (.get hR) fun c => .bind hR (.ofExcept hR _) fun _ => ?_
  refine .bind hR (minds_modify fun c => opensIn_rest rfl rfl rfl rfl) fun _ => ?_
  refine .bind hR (.ofExcept hR _) fun _ => ?_
  refine .bind hR (minds_modify fun c => opensIn_rest rfl rfl rfl rfl) fun _ => ?_
  refine .bind hR hreceived fun _ => .bind hR (processDeferredWtConnects_minds env) fun _ => ?_
  exact hrelease

theorem handleGoaway_minds (id : VarInt) :
    Keeps (Minds env.role p q) (handleGoaway env id) := by
  have hR := minds_composes p q env.role
  refine Keeps.get_bind fun c => ?_
  split
  · exact .of_keeps (.throw hR _)
  split
  · exact .of_keeps (.throw hR _)
  rename_i hmonotone
  have hle : ∀ prev ∈ c.peerGoawayLastId, id.get ≤ prev.get := by
    intro prev hprev
    rw [Option.mem_def] at hprev
    simp only [hprev, Option.any_some, decide_eq_true_eq] at hmonotone
    omega
  refine KeepsAt.modify_bind hR (fun hc => ⟨⟨hc.goaway, hc.streams, hc.waiting⟩, ?_⟩) ?_
  · exact ⟨fun _ h => .inl h, fun _ he => absurd he List.not_mem_nil,
      fun _ he => absurd he List.not_mem_nil, fun _ he => absurd he List.not_mem_nil,
      fun prev hprev => ⟨id, rfl, hle prev hprev⟩⟩
  refine KeepsAt.emit_bind hR (fun hc => ⟨hc, fun _ h => .inl h, fun e he x hx => ?_,
    fun e he => ?_, fun id' hid => ?_, fun prev h => ⟨prev, h, Nat.le_refl _⟩⟩) ?_
  · rw [List.mem_singleton.mp he] at hx
    cases hx
  · rw [List.mem_singleton.mp he]
    intro x hx
    cases hx
  · cases List.mem_singleton.mp hid
    exact ⟨id, rfl, Nat.le_refl _⟩
  · exact .of_keeps (by grind)

@[grind ←] theorem receiveControl_minds (data : Bytes) :
    Keeps (Minds env.role p q) (receiveControl env data) := by
  have hR := minds_composes p q env.role
  have hframe : ∀ frame, Keeps (Minds env.role p q) (handleControlFrame env frame) := by
    intro frame
    cases frame with
    | settings payload => exact handleSettings_minds env _
    | goaway id => exact handleGoaway_minds env id
    | maxPushId id =>
      refine Keeps.bind hR (.get hR) fun c => ?_
      refine .ite (fun _ => .throw hR _) fun _ => .ite (fun _ => .throw hR _) fun _ => ?_
      exact minds_modify fun c => opensIn_rest rfl rfl rfl rfl
    | _ => exact .ret hR _
  have hone : Keeps (Minds env.role p q) (processControlFrame env) := by
    refine Keeps.bind hR (.get hR) fun c => ?_
    refine .bind hR (minds_modify fun c => opensIn_rest rfl rfl rfl rfl) fun _ => ?_
    refine .bind hR (.ofExcept hR _) fun r => ?_
    split
    · exact .bind hR (hframe _) fun _ => .ret hR _
    · exact .ret hR _
  refine Keeps.bind hR (minds_modify fun c => opensIn_rest rfl rfl rfl rfl) fun _ => ?_
  exact .bind hR (.get hR) fun c => .loop hR hone _

/-! ## Unidirectional streams -/

theorem openUniStream_minds (streamId streamType : Nat) (remaining : Bytes) :
    Keeps (Minds env.role p q) (openUniStream env streamId streamType remaining) := by
  have hR := minds_composes p q env.role
  have hrest : ∀ {f : Core → Core}, (∀ c, (f c).streams = c.streams) → (∀ c, (f c).wt = c.wt) →
      (∀ c, (f c).lastSentGoawayId = c.lastSentGoawayId) →
      (∀ c, (f c).peerGoawayLastId = c.peerGoawayLastId) →
      Keeps (Minds env.role p q) (modify f : CoreProc Unit) :=
    fun h₁ h₂ h₃ h₄ => minds_modify fun c => opensIn_rest (h₁ c) (h₂ c) (h₃ c) (h₄ c)
  refine Keeps.get_bind fun c => ?_
  split
  · refine .of_keeps (.ite (fun _ => .throw hR _) fun _ => ?_)
    refine .bind hR (hrest ?_ ?_ ?_ ?_) fun _ => .ite (fun _ => .ret hR _) fun _ => by grind
    all_goals exact fun c => rfl
  · refine .of_keeps (.ite (fun _ => .throw hR _) fun _ => ?_)
    exact .bind hR (by grind) fun _ => .ite (fun _ => .ret hR _) fun _ => by grind
  · refine .of_keeps (.ite (fun _ => .throw hR _) fun _ => ?_)
    exact .bind hR (by grind) fun _ => .ite (fun _ => .ret hR _) fun _ => by grind
  · exact .of_keeps (.throw hR _)
  · split
    · exact minds_onWt_at fun hc =>
        .of_keeps (resolveWtUniStreamSessionId_heeds env p q hc.below _ _)
    · exact .of_keeps (.throw hR _)
  · refine .of_keeps (hrest ?_ ?_ ?_ ?_)
    all_goals exact fun c => rfl

theorem handleUnidirectionalStream_minds (streamId : Nat) (data : Bytes) (fin : Bool) :
    Keeps (Minds env.role p q) (handleUnidirectionalStream env streamId data fin) := by
  have hR := minds_composes p q env.role
  have hpending : ∀ f : IdMap Bytes → IdMap Bytes, Keeps (Minds env.role p q)
      (modify fun c => { c with pendingUniStreams := f c.pendingUniStreams } : CoreProc Unit) :=
    fun f => minds_modify fun c => opensIn_rest rfl rfl rfl rfl
  have hfinish : Keeps (Minds env.role p q)
      (if fin then finishUni env streamId else ret () : CoreProc Unit) := by
    refine .ite (fun _ => ?_) fun _ => .ret hR _
    refine Keeps.bind hR (.get hR) fun c => .bind hR (.ofExcept hR _) fun _ => ?_
    refine .bind hR (by grind) fun _ => .bind hR (minds_onWt ?_) fun _ => hpending _
    exact heeds_modify p q fun w => (Shrinks.refl w).dropPending _ _
  refine Keeps.get_bind fun c => ?_
  dsimp only
  split
  · exact .of_keeps (.ret hR _)
  split
  · exact .of_keeps (.ret hR _)
  split
  · exact .of_keeps hfinish
  split
  · exact .of_keeps (.bind hR (by grind) fun _ => hfinish)
  split
  · exact .of_keeps (.bind hR (by grind) fun _ => hfinish)
  split
  · exact .of_keeps (.bind hR (by grind) fun _ => hfinish)
  split
  · exact .of_keeps (.bind hR (by grind) fun _ => hfinish)
  split
  · refine .bind_keeps hR (minds_onWt_at fun hc => ?_) fun _ => hfinish
    exact .of_keeps (resolveWtUniStreamSessionId_heeds env p q hc.below _ _)
  · refine .get_bind (.of_keeps ?_)
    dsimp only
    split
    · exact .ite (fun _ => hpending _) fun _ => hpending _
    · refine .bind hR (hpending _) fun _ => ?_
      refine .bind hR (openUniStream_minds env streamId _ _) fun _ => ?_
      refine .ite (fun _ => ?_) fun _ => .ret hR _
      exact .bind hR (.get hR) fun c => .bind hR (.ofExcept hR _) fun _ => by grind

/-! ## The other calls -/

@[grind ←] theorem feedDatagramInner_minds (data : Bytes) :
    Keeps (Minds env.role p q) (feedDatagramInner env data) := by
  have hR := minds_composes p q env.role
  refine Keeps.get_bind fun c => ?_
  split
  · split
    · exact .of_keeps (.throw hR _)
    · split
      · exact .of_keeps (.throw hR _)
      · exact minds_onWt_at fun hc => .of_keeps (receiveDatagram_heeds env p q hc.below _ _)
  · exact .of_keeps (.ret hR _)

theorem reportUnless_minds {wt : WtProc Bool} (h : Keeps (Heeds p q) wt) {e : Event}
    (he : e.requestStream? = none) (hsession : (Obs.event e).session? = none)
    (hgoaway : (Obs.event e).isGoaway = false) :
    Keeps (Minds env.role p q) (reportUnless wt e) := by
  have hR := minds_composes p q env.role
  refine Keeps.bind hR (minds_onWt h) fun taken => .ite (fun _ => .ret hR _) fun _ => ?_
  refine minds_emit (fun x hx => ?_) hsession hgoaway
  rw [he] at hx
  cases hx

@[grind ←] theorem streamResetInner_minds (streamId errorCode finalSize : Nat) :
    Keeps (Minds env.role p q) (streamResetInner env streamId errorCode finalSize) := by
  have hR := minds_composes p q env.role
  have hdrop : Keeps (Minds env.role p q) (onWt (modify (dropDispatch streamId))) :=
    minds_onWt (heeds_modify p q fun w => .of_eq rfl rfl)
  have hreport : Keeps (Minds env.role p q)
      (reportUnless (handleWtStreamReset env streamId errorCode finalSize)
        (.streamReset streamId errorCode)) := reportUnless_minds env (by grind) rfl rfl rfl
  refine Keeps.bind hR (.get hR) fun c => .ite (fun _ => .throw hR _) fun _ => ?_
  refine .bind hR (by grind) fun _ => .bind hR hdrop fun _ => .bind hR (by grind) fun _ => ?_
  exact .bind hR (by grind) fun _ => .bind hR hreport fun _ => by grind

@[grind ←] theorem stopSendingInner_minds (streamId errorCode : Nat) :
    Keeps (Minds env.role p q) (stopSendingInner env streamId errorCode) := by
  have hR := minds_composes p q env.role
  have hreport : Keeps (Minds env.role p q)
      (reportUnless (handleWtStopSending env streamId errorCode)
        (.stopSending streamId errorCode)) := reportUnless_minds env (by grind) rfl rfl rfl
  refine Keeps.bind hR (.get hR) fun c => .ite (fun _ => .throw hR _) fun _ => ?_
  refine .bind hR (by grind) fun _ => .bind hR (by grind) fun _ => .bind hR (by grind) fun _ => ?_
  exact .bind hR hreport fun _ => by grind

@[grind ←] theorem setControlStreamId_minds (streamId : Nat) :
    Keeps (Minds env.role p q) (setControlStreamId env streamId) := by
  have hR := minds_composes p q env.role
  refine Keeps.bind hR (.ofExcept hR _) fun _ => .bind hR (.get hR) fun c => ?_
  exact .ite (fun _ => .throw hR _) fun _ => minds_modify fun c => opensIn_rest rfl rfl rfl rfl

@[grind ←] theorem setEncoderStreamId_minds (streamId : Nat) :
    Keeps (Minds env.role p q) (setEncoderStreamId env streamId) := by
  have hR := minds_composes p q env.role
  refine Keeps.bind hR (.ofExcept hR _) fun _ => .bind hR (.get hR) fun c => ?_
  refine .ite (fun _ => .throw hR _) fun _ => .bind hR (by grind) fun _ => ?_
  split
  · exact .ret hR _
  · split
    · exact minds_modify fun c => opensIn_modifyQpack _ c
    · exact .throw hR _

@[grind ←] theorem setDecoderStreamId_minds (streamId : Nat) :
    Keeps (Minds env.role p q) (setDecoderStreamId env streamId) := by
  have hR := minds_composes p q env.role
  refine Keeps.bind hR (.ofExcept hR _) fun _ => .bind hR (.get hR) fun c => ?_
  exact .ite (fun _ => .throw hR _) fun _ => minds_modify fun c => opensIn_modifyQpack _ c

@[grind ←] theorem getStreamData_minds (streamId : Nat) :
    Keeps (Minds env.role p q) (getStreamData env streamId) := by
  unfold getStreamData
  grind

@[grind ←] theorem consumeStreamData_minds (streamId len : Nat) :
    Keeps (Minds env.role p q) (consumeStreamData streamId len) := by
  have hR := minds_composes p q env.role
  refine Keeps.get_bind fun c => ?_
  split
  · split
    · exact .of_keeps (minds_modify fun c => opensIn_rest rfl rfl rfl rfl)
    · exact .of_keeps (.throw hR _)
  split
  · exact .of_keeps (by grind)
  split
  · exact .of_keeps (by grind)
  split
  · exact .of_keeps (.ret hR _)
  · rename_i stream hs
    split
    · exact .of_keeps (.throw hR _)
    · have hput := fun stream => @opensIn_putStream p streamId c (.inl (contains_of_stream hs)) stream
      exact KeepsAt.modify_bind hR (minds_modify_at (hput _)) (.of_keeps (by grind))

@[grind ←] theorem takeStreamData_minds (streamId : Nat) :
    Keeps (Minds env.role p q) (takeStreamData env streamId) := by
  unfold takeStreamData
  grind

theorem initH3Streams_minds (control encoder decoder : Nat) :
    Keeps (Minds env.role p q) (initH3Streams env control encoder decoder) := by
  have hR := minds_composes p q env.role
  have htake : ∀ streamId, Keeps (Minds env.role p q) (takeBytes env streamId) := by
    intro streamId
    unfold takeBytes
    grind
  refine Keeps.bind hR (by grind) fun _ => .bind hR (by grind) fun _ => .bind hR (by grind) fun _ => ?_
  refine .bind hR (htake _) fun _ => .bind hR (htake _) fun _ => .bind hR (htake _) fun _ => ?_
  exact .ret hR _

@[grind ←] theorem encodeQpackHeaders_minds (headers : List Header) :
    Keeps (Minds env.role p q) (encodeQpackHeaders headers) := by
  unfold encodeQpackHeaders
  grind

/-- A stream that is there is changed. -/
theorem putStream_minds {streamId : Nat} {f : RequestStream → Except Error RequestStream} :
    Keeps (Minds env.role p q) (do
      let c ← get
      match c.streams.lookup streamId with
      | none => throw (.streamNotFound streamId)
      | some stream =>
        let stream ← ofExcept (f stream)
        modify (putStream streamId stream) : CoreProc Unit) := by
  have hR := minds_composes p q env.role
  refine Keeps.get_bind fun c => ?_
  split
  · exact .of_keeps (.throw hR _)
  · rename_i stream hs
    refine KeepsAt.ofExcept_bind hR fun t _ => minds_modify_at ?_
    exact opensIn_putStream (.inl (contains_of_stream hs)) t

@[grind ←] theorem sendResponseInner_minds (streamId : Nat) (headers : List Header) (fin : Bool) :
    Keeps (Minds env.role p q) (sendResponseInner env streamId headers fin) := by
  have hR := minds_composes p q env.role
  have hqueue : ∀ encoded isInterim,
      Keeps (Minds env.role p q) (queueHeaders streamId encoded fin isInterim) :=
    fun encoded isInterim => putStream_minds env
  refine Keeps.bind hR (.get hR) fun c => .bind hR (.ofExcept hR _) fun _ => ?_
  refine .bind hR (by grind) fun encoded => .bind hR (hqueue _ _) fun _ => ?_
  grind

@[grind ←] theorem sendBodyInner_minds (streamId : Nat) (data : Bytes) (fin : Bool) :
    Keeps (Minds env.role p q) (sendBodyInner streamId data fin) := putStream_minds env

/-- The check of `sendGoaway`. -/
theorem goaway_falls {c : Core} {id : VarInt} {u : Unit}
    (h : ensure (!c.lastSentGoawayId.any fun last => last.get < id.get)
      (.connectionError .idError) = .ok u) : ∀ last ∈ c.lastSentGoawayId, id.get ≤ last.get := by
  intro last hlast
  rw [Option.mem_def] at hlast
  have hcheck := ensure_eq_ok.mp h
  simp only [hlast, Option.any_some, Bool.not_eq_true', decide_eq_false_iff_not] at hcheck
  omega

/-- A GOAWAY lowers what may be opened. -/
@[grind ←] theorem sendGoawayInner_minds (id : VarInt) :
    Keeps (Minds env.role p q) (sendGoawayInner env id) := by
  have hR := minds_composes p q env.role
  refine Keeps.get_bind fun c => KeepsAt.ofExcept_bind hR fun _ _ => ?_
  refine KeepsAt.ofExcept_bind hR fun _ hmonotone => ?_
  have hsame := minded_refl p q c
  refine KeepsAt.ofExcept_bind hR fun controlSend _ hc => ⟨⟨fun hserver => ?_, hc.streams,
    hc.waiting⟩, hsame.sessions, hsame.told, hsame.allowed, hsame.heard, hsame.falls⟩
  obtain ⟨last, hlast, hq⟩ := hc.goaway hserver
  have hle := goaway_falls hmonotone last hlast
  exact ⟨id, rfl, fun x hx => hq x (Nat.lt_of_lt_of_le hx hle)⟩

@[grind ←] theorem registerLocalWtStream_minds (sessionId streamId : Nat) :
    Keeps (Minds env.role p q) (registerLocalWtStream env sessionId streamId) := by
  have hR := minds_composes p q env.role
  refine Keeps.get_bind fun c => ?_
  dsimp only
  split
  · exact .of_keeps (.throw hR _)
  split
  · exact .of_keeps (.throw hR _)
  split
  · exact .of_keeps (.throw hR _)
  split
  · exact .of_keeps (.throw hR _)
  rename_i session hs
  split
  · exact .of_keeps (.throw hR _)
  · refine minds_onWt_at fun hc => heeds_modify_at p q ?_
    exact ((Shrinks.refl c.wt).putSession (contains_of_lookup hs) _).enterStream _ _ _

/-- Only clients send requests, below the GOAWAY that they received. -/
theorem checkRequest_client {c : Core} {headers : List Header} {u : Unit}
    (h : checkRequest env c headers = .ok u) : env.role = .client := by
  by_contra hrole
  rw [checkRequest, ensure, decide_eq_false hrole] at h
  cases h

section Body

variable (hqp : ∀ x, q x → p x) (hclient : env.role = .client → ∀ x, p x ∧ q x)

include hqp hclient

@[grind ←] theorem feedStreamInner_minds (streamId : Nat) (data : Bytes) (fin : Bool) :
    Keeps (Minds env.role p q) (feedStreamInner env streamId data fin) := by
  have hR := minds_composes p q env.role
  have hall : env.role = .client → ∀ x, p x := fun hrole x => (hclient hrole x).1
  have hrequest : Keeps (Minds env.role p q) (do
      let r ← attempt (handleBidirectionalStream env streamId data fin)
      modify (removeStreamIfDone streamId)
      ofExcept r : CoreProc Unit) :=
    Keeps.attempt hR (handleBidirectionalStream_minds env hqp hall streamId data fin) (by grind)
  have hwt : ∀ c : Core, KeepsAt (Minds env.role p q) c
      (onWt (handleWtBidiStream env c.lastSentGoawayId streamId data fin)) := fun c =>
    minds_onWt_at fun hc => .of_keeps (handleWtBidiStream_heeds env p q hc.below _ _ _)
  have hdispatch := dispatchClientBidiStream_minds env hqp hall streamId data fin
  refine Keeps.get_bind fun c => ?_
  dsimp only
  split
  · exact .of_keeps (handleUnidirectionalStream_minds env streamId data fin)
  split
  · split
    · exact hwt c
    · exact .of_keeps (.throw hR _)
  split
  · exact hwt c
  split
  · exact .of_keeps hdispatch
  split
  · exact .of_keeps (.ret hR _)
  split
  · exact .of_keeps (by grind)
  split
  · exact .of_keeps hdispatch
  · exact .of_keeps hrequest

omit hqp in
@[grind ←] theorem sendRequestInner_minds (headers : List Header) (fin : Bool) :
    Keeps (Minds env.role p q) (sendRequestInner env headers fin) := by
  have hR := minds_composes p q env.role
  refine Keeps.bind hR (.get hR) fun c => Keeps.ofExcept_bind hR fun _ hcheck => ?_
  have hall := hclient (checkRequest_client env hcheck)
  have hput : ∀ streamId stream, Keeps (Minds env.role p q)
      (modify (putStream streamId stream) : CoreProc Unit) := fun streamId stream =>
    minds_modify fun c => opensIn_putStream (.inr (hall streamId).1) stream
  have hsession : ∀ streamId session, Keeps (Minds env.role p q)
      (onWt (modify (putSession streamId session))) := fun streamId session =>
    minds_onWt fun w => ⟨fun x _ => .inr (.inr (hall x).2), fun x hx => .inl hx,
      fun _ he => absurd he List.not_mem_nil, fun _ he => absurd he List.not_mem_nil⟩
  refine .bind hR (by grind) fun encoded => ?_
  refine .bind hR (minds_modify fun c => opensIn_rest rfl rfl rfl rfl) fun _ => ?_
  refine .ite (fun _ => .throw hR _) fun _ => .bind hR (.ofExcept hR _) fun stream => ?_
  refine .bind hR (by grind) fun _ => .bind hR (hput _ _) fun _ => ?_
  grind

theorem body_minds (call : Call) : Keeps (Minds env.role p q) (body env call) := by
  have hR := minds_composes p q env.role
  cases call with
  | initH3Streams control encoder decoder =>
    exact Keeps.bind hR (initH3Streams_minds env _ _ _) fun _ => .ret hR _
  | setPreviousWtSettings settings =>
    exact Keeps.bind hR (minds_onWt (heeds_modify p q fun w => .of_eq rfl rfl)) fun _ => .ret hR _
  | setWebtransportTransportVerified datagrams resetStreamAt =>
    refine Keeps.bind hR (minds_onWt ?_) fun _ => .ret hR _
    refine .ite (fun _ => heeds_modify p q fun w => .of_eq rfl rfl) fun _ => ?_
    exact .throw (heeds_composes p q) _
  | wtDataConsumed sessionId bytes =>
    refine Keeps.bind hR (minds_onWt (heeds_modify p q fun w => ?_)) fun _ => .ret hR _
    exact (Shrinks.refl w).update _ _
  | _ =>
    unfold body
    simp only [unit]
    grind

end Body

end Minds

/-! ## Runs -/

/-- The input sends a GOAWAY with this id. -/
def SendsGoaway (cfg : Config) (c : Connection) (i : Input) (id : VarInt) : Prop :=
  i.call = .sendGoaway id ∧ (c.feed cfg i).result = .ok .done

/-- A request stream that is in the table, or whose CONNECT waits for SETTINGS. -/
def IsOpen (c : Connection) (streamId : Nat) : Prop :=
  c.core.streams.contains streamId = true ∨
    c.core.wt.deferredWtConnects.contains streamId = true

section Run

variable {cfg : Config} {p q : Nat → Prop} (hqp : ∀ x, q x → p x)
  (hclient : cfg.role = .client → ∀ x, p x ∧ q x)

include hqp hclient

theorem feed_minds {c : Connection} (hc : Within cfg.role p q c.core) (i : Input) :
    Within cfg.role p q (c.feed cfg i).conn.core ∧
      Minded p q c.core (c.feed cfg i).obs (c.feed cfg i).conn.core :=
  step_stays (minds_composes p q cfg.role) (body_minds (cfg.env i.order) hqp hclient i.call c.core)
    hc

theorem run_minds {c : Connection} (hc : Within cfg.role p q c.core) (is : List Input) :
    Within cfg.role p q (after cfg c is).core ∧
      Minded p q c.core (trace cfg c is) (after cfg c is).core := by
  induction is generalizing c with
  | nil => exact ⟨hc, minded_refl p q c.core⟩
  | cons i is ih =>
    obtain ⟨hd, hfirst⟩ := feed_minds hqp hclient hc i
    obtain ⟨he, hrest⟩ := ih hd
    exact ⟨he, hfirst.trans hrest⟩

end Run

/-- What sending a GOAWAY checks and changes. -/
theorem sendGoawayInner_ok {env : Env} {c : Core} {id : VarInt} {u : Unit}
    (h : (sendGoawayInner env id c).val = .ok u) :
    (match env.role with | .server => id.get % 4 = 0 | .client => id.get = 0) ∧
      (∀ last ∈ c.lastSentGoawayId, id.get ≤ last.get) ∧
      ∃ controlSend, (sendGoawayInner env id c).st =
        { c with controlSend, lastSentGoawayId := some id } := by
  simp only [sendGoawayInner, get_bind] at h ⊢
  obtain ⟨_, hkind, hrun, h⟩ := ofExcept_bind_inv h
  rw [hrun]
  obtain ⟨_, hmonotone, hrun, h⟩ := ofExcept_bind_inv h
  rw [hrun]
  obtain ⟨controlSend, -, hrun, -⟩ := ofExcept_bind_inv h
  rw [hrun]
  refine ⟨?_, goaway_falls hmonotone, controlSend, rfl⟩
  have hid := ensure_eq_ok.mp hkind
  cases hrole : env.role
  all_goals
    rw [hrole] at hid
    exact of_decide_eq_true hid

theorem SendsGoaway.sent {cfg : Config} {c : Connection} {i : Input} {id : VarInt}
    (h : SendsGoaway cfg c i id) :
    (match cfg.role with | .server => id.get % 4 = 0 | .client => id.get = 0) ∧
      (∀ last ∈ c.core.lastSentGoawayId, id.get ≤ last.get) ∧
      ∃ controlSend, (c.feed cfg i).conn.core =
        { c.core with controlSend, lastSentGoawayId := some id } := by
  rcases i with ⟨order, call⟩
  obtain ⟨rfl, hresult⟩ := h
  simp only [feed, step, remember_run] at hresult ⊢
  unfold guarded at hresult ⊢
  split at hresult
  · cases hresult
  · have hbody : (unit (sendGoawayInner (cfg.env order) id) c.core).val = .ok .done := hresult
    obtain ⟨_, _, _, hsent, -⟩ := bind_ok_inv hbody
    have hok := @sendGoawayInner_ok (cfg.env order) c.core id _ (congrArg Outcome.val hsent)
    obtain ⟨hkind, hmonotone, controlSend, hcore⟩ := hok
    refine ⟨hkind, hmonotone, controlSend, ?_⟩
    rw [hsent] at hcore
    rw [← hcore]
    simp only [exec, body, unit, bind_ok _ _ _ hsent, ret]

/-- A request that is sent has the next id, which is below the GOAWAY that was received. -/
theorem sendRequestInner_below {env : Env} {c : Core} {headers : List Header} {fin : Bool}
    {n : Nat} (h : (sendRequestInner env headers fin c).val = .ok n) :
    env.role = .client ∧ ∀ prev ∈ c.peerGoawayLastId, n < prev.get := by
  simp only [sendRequestInner, get_bind] at h
  obtain ⟨_, hcheck, -, h⟩ := ofExcept_bind_inv h
  have hid : n = c.nextStreamId := by
    obtain ⟨_, _, _, -, h⟩ := bind_ok_inv h
    simp only [modify_bind] at h
    split at h
    · cases h
    · obtain ⟨_, -, -, h⟩ := ofExcept_bind_inv h
      simp only [modify_bind] at h
      split at h
      · cases h
        rfl
      · cases h
        rfl
  refine ⟨checkRequest_client env hcheck, fun prev hprev => ?_⟩
  rw [Option.mem_def] at hprev
  simp only [checkRequest, bind, Except.bind] at hcheck
  repeat' split at hcheck
  all_goals first | cases hcheck | skip
  have hgoaway := ensure_eq_ok.mp hcheck
  simp only [hprev, Option.any_some, Bool.not_eq_true', decide_eq_false_iff_not] at hgoaway
  omega

theorem sendRequest_below {cfg : Config} {c : Connection} {i : Input} {headers : List Header}
    {fin : Bool} {n : Nat} (hi : i.call = .sendRequest headers fin)
    (h : (c.feed cfg i).result = .ok (.streamId n)) :
    cfg.role = .client ∧ ∀ prev ∈ c.core.peerGoawayLastId, n < prev.get := by
  rcases i with ⟨order, call⟩
  obtain rfl : call = .sendRequest headers fin := hi
  simp only [feed, step] at h
  unfold guarded at h
  split at h
  · cases h
  · have hbody : ((sendRequestInner (cfg.env order) headers fin >>= fun id =>
        ret (.streamId id) : CoreProc Response) c.core).val = .ok (.streamId n) := h
    obtain ⟨id, _, _, hsent, hid⟩ := bind_ok_inv hbody
    cases hid
    exact sendRequestInner_below (congrArg Outcome.val hsent)

/-- What holds of a step that sends or receives a GOAWAY and of the run `is` that follows. -/
structure GoawaySafe (cfg : Config) (c : Connection) (i : Input) (is : List Input) : Prop where
  kind : ∀ id, SendsGoaway cfg c i id →
    match cfg.role with | .server => id.get % 4 = 0 | .client => id.get = 0
  falls : ∀ id, SendsGoaway cfg c i id → ∀ j id', SendsGoaway cfg (after cfg c (i :: is)) j id' →
    id'.get ≤ id.get
  requests : ∀ id, .event (.goawayReceived id) ∈ (c.feed cfg i).obs →
    ∀ j headers fin n, j.call = .sendRequest headers fin →
      ((after cfg c (i :: is)).feed cfg j).result = .ok (.streamId n) → n < id.get
  messages : cfg.role = .server → ∀ id, SendsGoaway cfg c i id →
    ∀ e x, .event e ∈ trace cfg (c.feed cfg i).conn is → e.requestStream? = some x →
      id.get ≤ x → IsOpen c x
  /-- A session is there, or its CONNECT is read on an open stream. -/
  sessions : cfg.role = .server → ∀ id, SendsGoaway cfg c i id → ∀ x, id.get ≤ x →
    (after cfg c (i :: is)).core.wt.wtSessions.contains x = true ∨
      (∃ o ∈ trace cfg (c.feed cfg i).conn is, o.session? = some x) →
    c.core.wt.wtSessions.contains x = true ∨
      (.wtConnect x ∈ trace cfg (c.feed cfg i).conn is ∧ IsOpen c x)

/-- The ids of the GOAWAYs that are sent never increase. No request is sent at or above one that
was received. At or above one that a server sent there is nothing new. -/
theorem goaway_safety (cfg : Config) (c : Connection) (i : Input) (is : List Input) :
    GoawaySafe cfg c i is := by
  have hserver : ∀ id, cfg.role = .server → SendsGoaway cfg c i id →
      Within .server (fun x => x < id.get ∨ IsOpen c x) (· < id.get)
          (after cfg c (i :: is)).core ∧
        Minded (fun x => x < id.get ∨ IsOpen c x) (· < id.get) (c.feed cfg i).conn.core
          (trace cfg (c.feed cfg i).conn is) (after cfg c (i :: is)).core := by
    intro id hrole hsends
    obtain ⟨-, -, controlSend, hcore⟩ := hsends.sent
    rw [← hrole]
    refine run_minds (fun x hx => .inl hx) (fun h => ?_) ?_ is
    · rw [hrole] at h
      cases h
    · rw [hcore]
      exact ⟨fun _ => ⟨id, rfl, fun x hx => hx⟩, fun x hx => .inr (.inl hx),
        fun x hx => .inr (.inr hx)⟩
  refine ⟨fun id h => h.sent.1, fun id h j id' h' => ?_, fun id hid j headers fin n hj hn => ?_,
    fun hrole id hsends e x he hx hle => ?_, fun hrole id hsends x hle hx => ?_⟩
  · cases hrole : cfg.role with
    | client =>
      have hkind := h'.sent.1
      rw [hrole] at hkind
      omega
    | server =>
      obtain ⟨last, hlast, hbelow⟩ := (hserver id hrole h).1.goaway rfl
      have hfalls := h'.sent.2.1 last hlast
      by_contra hlt
      have := hbelow id.get (by omega)
      omega
  · obtain ⟨hrole, hbelow⟩ := sendRequest_below hj hn
    have hc : Within cfg.role (fun _ => True) (fun _ => True) c.core := by
      refine ⟨fun h => ?_, fun _ _ => trivial, fun _ _ => trivial⟩
      rw [hrole] at h
      cases h
    obtain ⟨hd, hfirst⟩ := feed_minds (fun _ h => h) (fun _ _ => ⟨trivial, trivial⟩) hc i
    obtain ⟨prev, hprev, hle⟩ := hfirst.heard id hid
    obtain ⟨-, hrest⟩ := run_minds (fun _ h => h) (fun _ _ => ⟨trivial, trivial⟩) hd is
    obtain ⟨next, hnext, hle'⟩ := hrest.falls prev hprev
    have := hbelow next hnext
    omega
  · obtain hlt | hopen := (hserver id hrole hsends).2.allowed _ he x hx
    · omega
    · exact hopen
  · have hrun := (hserver id hrole hsends).2
    have hdue := hx.elim (hrun.sessions x) fun ⟨o, ho, hsession⟩ => hrun.told o ho x hsession
    obtain hold | hconnect | hlt := hdue
    · obtain ⟨-, -, controlSend, hcore⟩ := hsends.sent
      rw [hcore] at hold
      exact .inl hold
    · obtain hlt | hopen := hrun.allowed _ hconnect
      · omega
      · exact .inr ⟨hconnect, hopen⟩
    · omega

/-- The stream of an event of a request, a reset or a STOP_SENDING. -/
def eventStream? : Event → Option Nat
  | .streamReset streamId _ | .stopSending streamId _ => some streamId
  | e => e.requestStream?

/-- A reset is passed on whatever stream it is for. -/
theorem goaway_then_reset :
    ¬∀ cfg c₀ is i js id e x, Connection.new cfg = .ok c₀ → cfg.role = .server →
      SendsGoaway cfg (after cfg c₀ is) i id →
      .event e ∈ trace cfg ((after cfg c₀ is).feed cfg i).conn js → eventStream? e = some x →
      StreamKind.fromStreamId x = .clientBidi → id.get ≤ x →
      IsOpen (after cfg c₀ is) x := by
  intro hall
  obtain ⟨c, hc, h⟩ := Sample.of_holdsAfter Sample.server [.setControlStreamId 3]
    (p := fun d =>
      let s := d.feed Sample.server (Call.sendGoaway (.fromStatic 0)).listed
      s.result == .ok .done && !d.core.streams.contains 0 &&
        !d.core.wt.deferredWtConnects.contains 0 &&
        decide (.event (.streamReset 0 0) ∈
          trace Sample.server s.conn [(Call.streamReset 0 0 0).listed]))
    (by decide +kernel)
  simp only [Bool.and_eq_true, beq_iff_eq, Bool.not_eq_true', decide_eq_true_eq] at h
  have hopen := hall Sample.server c _ _ _ (.fromStatic 0) _ 0 hc rfl ⟨rfl, h.1.1.1⟩ h.2 rfl rfl
    (Nat.zero_le 0)
  rcases hopen with hstream | hwaiting
  · rw [h.1.1.2] at hstream
    cases hstream
  · rw [h.1.2] at hwaiting
    cases hwaiting

end Connection

end Http3
