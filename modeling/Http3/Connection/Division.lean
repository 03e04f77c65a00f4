import Http3.Connection.Runs
import Http3.Framing
import Http3.Stream.Reading

/-!
# Capsules and the frames that carry them

The bytes of a session come in DATA frames, and these in pieces. What the session hears is a
function of the bytes alone, as long as none of the capsules ends it: scanning for capsules, taking
frames off the stream and feeding pieces of it all go on where they stopped.
-/

namespace Http3

namespace Connection

open Proc

/-! ## What a session hears -/

def endsSession : Capsule → Bool
  | .closeSession _ _ => true
  | capsule => capsule.isProhibitedInHttp3

def stateAfter (state : WtSessionState) : Capsule → WtSessionState
  | .drainSession => if state = .established || state = .pending then .draining else state
  | _ => state

/-- The event of a capsule; the flag is that of flow control. -/
def capsuleEvents (sessionId : Nat) (flow : Bool) (state : WtSessionState) (capsule : Capsule) :
    List WebTransportEvent :=
  match capsule with
  | .drainSession =>
    if state = .established || state = .pending then [.sessionDraining sessionId] else []
  | .maxData _ | .maxStreams _ _ | .dataBlocked _ | .streamsBlocked _ _ =>
    if flow then [.capsule sessionId capsule] else []
  | .closeSession _ _ | .unknown _ _ => []

def hears (sessionId : Nat) (flow : Bool) : WtSessionState → List Capsule → List WebTransportEvent
  | _, [] => []
  | state, capsule :: capsules =>
    capsuleEvents sessionId flow state capsule ++
      hears sessionId flow (stateAfter state capsule) capsules

theorem hears_append (sessionId : Nat) (flow : Bool) (state : WtSessionState)
    (l m : List Capsule) :
    hears sessionId flow state (l ++ m) =
      hears sessionId flow state l ++ hears sessionId flow (l.foldl stateAfter state) m := by
  induction l generalizing state with
  | nil => rfl
  | cons capsule l ih => simp only [List.cons_append, hears, ih, List.append_assoc, List.foldl_cons]

/-- The capsules that complete with new bytes. -/
def scanned (session : WtSession) (data : Bytes) : Scan UInt8 Capsule :=
  Decoder.scan Capsule.decode (session.capsuleBuf ++ data)

/-- The session after what was scanned. -/
def afterScan (session : WtSession) (r : Scan UInt8 Capsule) : WtSession :=
  { session with capsuleBuf := r.rest, state := r.items.foldl stateAfter session.state }

def isActive (session : WtSession) : Bool :=
  session.state = .established || session.state = .draining

theorem isActive_afterScan {session : WtSession} (h : isActive session = true)
    (r : Scan UInt8 Capsule) : isActive (afterScan session r) = true := by
  have hone : ∀ state capsule, (state = .established ∨ state = .draining) →
      stateAfter state capsule = .established ∨ stateAfter state capsule = .draining := by
    intro state capsule h
    unfold stateAfter
    grind
  have hall : ∀ (l : List Capsule) state, (state = .established ∨ state = .draining) →
      l.foldl stateAfter state = .established ∨ l.foldl stateAfter state = .draining := by
    intro l
    induction l with
    | nil => exact fun _ h => h
    | cons capsule l ih => exact fun state h => ih _ (hone state capsule h)
  simp only [isActive, Bool.or_eq_true, decide_eq_true_eq] at h ⊢
  exact hall r.items session.state h

/-- The bytes of a session may be scanned in pieces. -/
theorem scanned_append (session : WtSession) (x y : Bytes) :
    scanned session (x ++ y) =
      ⟨(scanned session x).items ++ (scanned (afterScan session (scanned session x)) y).items,
        (scanned (afterScan session (scanned session x)) y).rest,
        (scanned (afterScan session (scanned session x)) y).failed⟩ := by
  rw [scanned, ← List.append_assoc]
  exact Decoder.scan_append Capsule.decode_lawful _ y

theorem afterScan_append (session : WtSession) (x y : Bytes) :
    afterScan session (scanned session (x ++ y)) =
      afterScan (afterScan session (scanned session x))
        (scanned (afterScan session (scanned session x)) y) := by
  rw [scanned_append]
  simp only [afterScan, List.foldl_append]

/-- The result where a malformed capsule is an error. -/
def verdict (failed : Bool) : Except Error Unit := if failed then .error messageError else .ok ()

section Capsules

variable (env : Env) {sessionId : Nat} {session : WtSession} {w : WtState}

theorem handleWtCapsule_run (hs : w.wtSessions.lookup sessionId = some session)
    {capsule : Capsule} (hend : endsSession capsule = false) :
    ∃ sessions, handleWtCapsule env sessionId capsule w =
        ⟨.ok (), { w with wtSessions := sessions },
          (capsuleEvents sessionId session.flowControlEnabled session.state capsule).map Obs.wt⟩ ∧
      sessions.lookup sessionId =
        some { session with state := stateAfter session.state capsule } := by
  cases capsule with
  | closeSession errorCode message => cases hend
  | drainSession =>
    simp only [handleWtCapsule, get_bind, hs, capsuleEvents, stateAfter]
    split
    · exact ⟨_, rfl, IdMap.lookup_insert_self _ _ _⟩
    · exact ⟨w.wtSessions, rfl, hs⟩
  | unknown t payload =>
    refine ⟨w.wtSessions, ?_, hs⟩
    have hallowed : (Capsule.unknown t payload).isProhibitedInHttp3 = false := hend
    simp only [handleWtCapsule, hallowed, Bool.false_eq_true, if_false]
    rfl
  | maxData | maxStreams | dataBlocked | streamsBlocked =>
    refine ⟨w.wtSessions, ?_, hs⟩
    simp only [handleWtCapsule, get_bind, hs, Option.any_some, capsuleEvents]
    split <;> rfl

theorem processWtCapsule_item (hs : w.wtSessions.lookup sessionId = some session)
    {capsule : Capsule} {n : Nat}
    (hdecode : Capsule.decode session.capsuleBuf = .ok (some (capsule, n)))
    (hend : endsSession capsule = false) :
    ∃ sessions, processWtCapsule env sessionId w =
        ⟨.ok true, { w with wtSessions := sessions },
          (capsuleEvents sessionId session.flowControlEnabled session.state capsule).map Obs.wt⟩ ∧
      sessions.lookup sessionId = some { session with
        capsuleBuf := session.capsuleBuf.drop n, state := stateAfter session.state capsule } := by
  have hnonempty : session.capsuleBuf.isEmpty = false := by
    cases hbuf : session.capsuleBuf with
    | nil =>
      rw [hbuf] at hdecode
      cases hdecode
    | cons => rfl
  have hopen : isCloseSession capsule = false := by
    cases capsule with
    | closeSession => cases hend
    | _ => rfl
  obtain ⟨sessions, hrun, hlookup⟩ := handleWtCapsule_run env
    (w := putSession sessionId { session with capsuleBuf := session.capsuleBuf.drop n } w)
    (IdMap.lookup_insert_self _ _ _) hend
  refine ⟨sessions, ?_, hlookup⟩
  simp only [processWtCapsule, get_bind, hs, hnonempty, Bool.false_eq_true, if_false, hdecode,
    modify_bind, hopen, Bool.false_and]
  rw [bind_ok _ _ _ hrun]
  simp only [ret_run, List.append_nil]
  rfl

theorem processWtCapsule_stop (hs : w.wtSessions.lookup sessionId = some session)
    (hdecode : Capsule.decode session.capsuleBuf = .ok none) :
    processWtCapsule env sessionId w = ⟨.ok false, w, []⟩ := by
  simp only [processWtCapsule, get_bind, hs, hdecode]
  split <;> rfl

theorem processWtCapsule_malformed (hs : w.wtSessions.lookup sessionId = some session)
    {e : Capsule.DecodeError} (hdecode : Capsule.decode session.capsuleBuf = .error e) :
    processWtCapsule env sessionId w = ⟨.error messageError, w, []⟩ := by
  have hnonempty : session.capsuleBuf.isEmpty = false := by
    cases hbuf : session.capsuleBuf with
    | nil =>
      rw [hbuf] at hdecode
      cases hdecode
    | cons => rfl
  simp only [processWtCapsule, get_bind, hs, hnonempty, Bool.false_eq_true, if_false, hdecode]
  rfl

/-- The loop takes what a scan of the buffer finds. -/
theorem capsuleLoop_run (fuel : Nat) (hfuel : session.capsuleBuf.length < fuel)
    (hs : w.wtSessions.lookup sessionId = some session)
    (hend : ∀ c ∈ (Decoder.scan Capsule.decode session.capsuleBuf).items,
      endsSession c = false) :
    ∃ sessions, loop (processWtCapsule env sessionId) fuel w =
        ⟨verdict (Decoder.scan Capsule.decode session.capsuleBuf).failed,
          { w with wtSessions := sessions },
          (hears sessionId session.flowControlEnabled session.state
            (Decoder.scan Capsule.decode session.capsuleBuf).items).map Obs.wt⟩ ∧
      sessions.lookup sessionId =
        some (afterScan session (Decoder.scan Capsule.decode session.capsuleBuf)) := by
  induction fuel generalizing session w with
  | zero => omega
  | succ fuel ih =>
    rcases hdecode : Capsule.decode session.capsuleBuf with e | _ | ⟨capsule, n⟩
    · rw [loop, bind_error _ _ _ (processWtCapsule_malformed env hs hdecode),
        Decoder.scan_error Capsule.decode_lawful hdecode]
      exact ⟨w.wtSessions, rfl, hs⟩
    · rw [loop, bind_ok _ _ _ (processWtCapsule_stop env hs hdecode),
        Decoder.scan_none Capsule.decode_lawful hdecode]
      exact ⟨w.wtSessions, rfl, hs⟩
    · rw [Decoder.scan_item Capsule.decode_lawful hdecode] at hend ⊢
      obtain ⟨hfirst, hrest⟩ := List.forall_mem_cons.mp hend
      obtain ⟨sessions, hrun, hlookup⟩ := processWtCapsule_item env hs hdecode hfirst
      have hn := Capsule.decode_bounds hdecode
      obtain ⟨sessions', hrun', hlookup'⟩ := ih (w := { w with wtSessions := sessions })
        (by simp only [List.length_drop]; omega) hlookup hrest
      refine ⟨sessions', ?_, hlookup'⟩
      rw [loop, bind_ok _ _ _ hrun, if_pos rfl, hrun', hears, List.map_append]

/-- New bytes are scanned behind those of an incomplete capsule. -/
theorem processWtCapsuleData_run (hs : w.wtSessions.lookup sessionId = some session)
    (data : Bytes)
    (hend : ∀ c ∈ (scanned session data).items,
      endsSession c = false) :
    ∃ sessions, processWtCapsuleData env sessionId data w =
        ⟨verdict (scanned session data).failed,
          { w with wtSessions := sessions },
          (hears sessionId session.flowControlEnabled session.state
            (scanned session data).items).map Obs.wt⟩ ∧
      sessions.lookup sessionId =
        some (afterScan session (scanned session data)) := by
  simp only [processWtCapsuleData, get_bind, hs, modify_bind]
  have hput : (putSession sessionId { session with capsuleBuf := session.capsuleBuf ++ data }
      w).wtSessions.lookup sessionId =
        some { session with capsuleBuf := session.capsuleBuf ++ data } :=
    IdMap.lookup_insert_self _ _ _
  exact capsuleLoop_run env _ (Nat.lt_succ_self _) hput hend

end Capsules

/-! ## One frame -/

/-- A DATA frame, however its type and its length are written. -/
structure DataFrame where
  bytes : Bytes
  payload : Bytes
  reads : decodeFrame bytes = .ok (.data payload, bytes.length)

/-- The stream of a session, behind the headers of its CONNECT: its bytes are frames, and DATA goes
to the session. -/
structure Carries (s : Nat) (stream : RequestStream) (session : WtSession) (c : Core) : Prop where
  kind : StreamKind.fromStreamId s = .clientBidi
  hasStream : c.streams.lookup s = some stream
  hasSession : c.wt.wtSessions.lookup s = some session
  dataStream : c.wt.wtBidiStreams.contains s = false ∧ c.wt.pendingWtBidiStreams.contains s = false
  classified : c.wt.pendingBidiDispatch.contains s = false
  aside : c.wt.pendingWtBidiPreNegotiation.contains s = false ∧
    c.wt.ignoredPreNegotiationWtBidi.contains s = false
  deferred : c.wt.deferredWtConnects.contains s = false
  closed : c.wt.closedWtSessions.contains s = false
  body : stream.recvState = .receivingBody
  unblocked : stream.qpackBlocked = false
  noFin : stream.recvBuf.fin = false
  goesOn : isStreamDone stream = false
  active : isActive session = true

/-- The WebTransport events among the observations. -/
def wtEvents (out : List Obs) : List WebTransportEvent :=
  out.filterMap fun
    | .event (.webTransport e) => some e
    | _ => none

theorem wtEvents_append (l m : List Obs) : wtEvents (l ++ m) = wtEvents l ++ wtEvents m :=
  List.filterMap_append

theorem wtEvents_wt (l : List WebTransportEvent) : wtEvents (l.map Obs.wt) = l := by
  induction l with
  | nil => rfl
  | cons e l ih => exact congrArg (e :: ·) ih

section Frames

variable (env : Env) {s : Nat} {stream stream' : RequestStream} {session session' : WtSession}
  {c d : Core}

/-- What a frame of the stream may change. -/
theorem Carries.next (h : Carries s stream session c)
    (hstream : d.streams.lookup s = some stream')
    (hwt : ∃ sessions, d.wt = { c.wt with wtSessions := sessions } ∧
      sessions.lookup s = some session')
    (hbody : stream'.recvState = .receivingBody) (hblocked : stream'.qpackBlocked = false)
    (hfin : stream'.recvBuf.fin = false) (hdone : isStreamDone stream' = false)
    (hactive : isActive session' = true) : Carries s stream' session' d := by
  obtain ⟨sessions, hd, hsession⟩ := hwt
  exact {
    kind := h.kind
    hasStream := hstream
    hasSession := by rw [hd]; exact hsession
    dataStream := by rw [hd]; exact h.dataStream
    classified := by rw [hd]; exact h.classified
    aside := by rw [hd]; exact h.aside
    deferred := by rw [hd]; exact h.deferred
    closed := by rw [hd]; exact h.closed
    body := hbody
    unblocked := hblocked
    noFin := hfin
    goesOn := hdone
    active := hactive }

theorem handleWtDataFrame_run (h : Carries s stream session c) (peer : Option Settings)
    (bodyLen : Nat) (data : Bytes)
    (hend : ∀ x ∈ (scanned session data).items,
      endsSession x = false) :
    ∃ sessions, handleWtDataFrame env peer bodyLen s data c.wt =
        ⟨(verdict (scanned session data).failed).map
            fun _ => true,
          { c.wt with wtSessions := sessions },
          (hears s session.flowControlEnabled session.state
            (scanned session data).items).map Obs.wt⟩ ∧
      sessions.lookup s =
        some (afterScan session (scanned session data)) := by
  obtain ⟨sessions, hrun, hlookup⟩ := processWtCapsuleData_run env h.hasSession data hend
  refine ⟨sessions, ?_, hlookup⟩
  have hframe : handleWtDataFrame env peer bodyLen s data c.wt =
      (processWtCapsuleData env s data >>= fun _ => ret true) c.wt := by
    have hactive := h.active
    simp only [isActive, Bool.or_eq_true, decide_eq_true_eq] at hactive
    simp only [handleWtDataFrame, get_bind, h.deferred, Bool.false_eq_true, if_false,
      h.hasSession]
    obtain hstate | hstate := hactive <;> simp only [hstate]
  rw [hframe]
  cases hfailed : (scanned session data).failed with
  | true =>
    rw [hfailed] at hrun
    rw [bind_error _ _ _ hrun]
    rfl
  | false =>
    rw [hfailed] at hrun
    rw [bind_ok _ _ _ hrun]
    simp only [ret_run, List.append_nil]
    rfl

/-- The loop over the frames goes on after DATA that is well formed. -/
theorem processData_run (h : Carries s stream session c) (bodyLen : Nat) (data : Bytes)
    (hend : ∀ x ∈ (scanned session data).items,
      endsSession x = false) :
    ∃ sessions, processData env s bodyLen data c =
        ⟨verdict (scanned session data).failed,
          { c with wt := { c.wt with wtSessions := sessions } },
          .dataReceived s data :: (hears s session.flowControlEnabled session.state
            (scanned session data).items).map Obs.wt⟩ ∧
      sessions.lookup s =
        some (afterScan session (scanned session data)) := by
  obtain ⟨sessions, hrun, hlookup⟩ := handleWtDataFrame_run env h c.peerSettings bodyLen
    data hend
  refine ⟨sessions, ?_, hlookup⟩
  simp only [processData, emit_bind, get_bind]
  cases hfailed : (scanned session data).failed with
  | true =>
    rw [hfailed] at hrun
    rw [bind_error c (onWt (handleWtDataFrame env c.peerSettings bodyLen s data)) _
      (by rw [onWt, zoom_run, hrun]; rfl)]
    rfl
  | false =>
    rw [hfailed] at hrun
    rw [bind_ok c (onWt (handleWtDataFrame env c.peerSettings bodyLen s data)) _
      (by rw [onWt, zoom_run, hrun]; rfl)]
    simp only [if_true, ret_run, List.append_nil]
    rfl

/-- The stream behind a DATA frame. -/
def behindFrame (stream : RequestStream) (payload rest : Bytes) : RequestStream :=
  (stream.dropFrame rest).keepBody payload

theorem behindFrame_recvBuf (stream : RequestStream) (payload rest : Bytes) :
    (behindFrame stream payload rest).recvBuf = { stream.recvBuf with data := rest } := by
  unfold behindFrame RequestStream.keepBody
  split <;> rfl

/-- What does not change with a DATA frame. -/
theorem behindFrame_same (stream : RequestStream) (payload rest : Bytes) :
    (behindFrame stream payload rest).recvState = stream.recvState ∧
      (behindFrame stream payload rest).qpackBlocked = stream.qpackBlocked ∧
      isStreamDone (behindFrame stream payload rest) = isStreamDone stream := by
  unfold behindFrame RequestStream.keepBody
  split <;> exact ⟨rfl, rfl, rfl⟩

theorem behindFrame_takes {stream : RequestStream} {payload : Bytes} {n : Nat}
    (h : stream.Takes (payload.length + n)) (rest : Bytes) :
    (behindFrame stream payload rest).Takes n := by
  unfold RequestStream.Takes behindFrame RequestStream.keepBody RequestStream.dropFrame at *
  obtain hwt | hsize := h
  · simp [hwt]
  · cases hwt : stream.isWtConnect with
    | true => simp
    | false =>
      simp only [Bool.false_eq_true, if_false, List.length_append, false_or]
      omega

/-- A DATA frame that is complete reaches the session. -/
theorem processStreamFrame_data (h : Carries s stream session c) (f : DataFrame) {rest : Bytes}
    (hbuf : stream.recvBuf.data = f.bytes ++ rest) (htakes : stream.Takes f.payload.length)
    (hend : ∀ x ∈ (scanned session f.payload).items,
      endsSession x = false) :
    ∃ d, processStreamFrame env s c =
        ⟨(verdict (scanned session f.payload).failed).map
            fun _ => true, d,
          .dataReceived s f.payload :: (hears s session.flowControlEnabled session.state
            (scanned session f.payload).items).map Obs.wt⟩ ∧
      Carries s (behindFrame stream f.payload rest)
        (afterScan session (scanned session f.payload)) d := by
  have hraw : stream.processRaw =
      (.ok (some (.data f.payload)), behindFrame stream f.payload rest) :=
    RequestStream.processRaw_data f.reads hbuf h.body htakes
  obtain ⟨hstate, hblocked, hdone⟩ := behindFrame_same stream f.payload rest
  have hput : Carries s (behindFrame stream f.payload rest) session
      (putStream s (behindFrame stream f.payload rest) c) :=
    h.next (IdMap.lookup_insert_self _ _ _) ⟨c.wt.wtSessions, rfl, h.hasSession⟩
      (hstate.trans h.body) (hblocked.trans h.unblocked)
      (by rw [behindFrame_recvBuf]; exact h.noFin) (hdone.trans h.goesOn) h.active
  obtain ⟨sessions, hrun, hlookup⟩ := processData_run env hput
    (behindFrame stream f.payload rest).recvBody.length f.payload hend
  have hnext : Carries s (behindFrame stream f.payload rest)
      (afterScan session (scanned session f.payload))
      { putStream s (behindFrame stream f.payload rest) c with
        wt := { c.wt with wtSessions := sessions } } :=
    hput.next hput.hasStream ⟨sessions, rfl, hlookup⟩ hput.body hput.unblocked hput.noFin
      hput.goesOn (isActive_afterScan h.active _)
  refine ⟨_, ?_, hnext⟩
  rw [processStreamFrame, get_bind]
  simp only [h.hasStream, hraw, modify_bind, ofExcept_ok, ret_bind]
  cases hfailed : (scanned session f.payload).failed with
  | true =>
    rw [hfailed] at hrun
    rw [bind_error _ _ _ hrun]
    rfl
  | false =>
    rw [hfailed] at hrun
    rw [bind_ok _ _ _ hrun]
    simp only [ret_run, List.append_nil]
    rfl

theorem processStreamFrame_waits (h : Carries s stream session c)
    (hwait : stream.recvBuf.data = [] ∨ stream.nextFrame = (.ok none, stream)) :
    processStreamFrame env s c = ⟨.ok false, putStream s stream c, []⟩ ∧
      Carries s stream session (putStream s stream c) := by
  have hraw := RequestStream.processRaw_waits h.noFin hwait
  refine ⟨?_, h.next (IdMap.lookup_insert_self _ _ _) ⟨c.wt.wtSessions, rfl, h.hasSession⟩ h.body
    h.unblocked h.noFin h.goesOn h.active⟩
  rw [processStreamFrame, get_bind]
  simp only [h.hasStream, hraw, modify_bind, ofExcept_ok, ret_bind]
  rfl

/-! ## All frames that are there -/

def wire (fs : List DataFrame) : Bytes := fs.flatMap DataFrame.bytes

def payloads (fs : List DataFrame) : Bytes := fs.flatMap DataFrame.payload

/-- A run that took some of the frames and left the rest in the buffer; `more` is yet to come. -/
structure Taken (s : Nat) (session : WtSession) (more : Bytes) (done rest : List DataFrame)
    (stream' : RequestStream) (r : Outcome Error Obs Core Unit) : Prop where
  carries : Carries s stream' (afterScan session (scanned session (payloads done))) r.st
  events : wtEvents r.out = hears s session.flowControlEnabled session.state
    (scanned session (payloads done)).items
  result : r.val = verdict (!done.isEmpty && (scanned session (payloads done)).failed)
  left : stream'.recvBuf.data ++ more = wire rest
  takes : stream'.Takes (payloads rest).length
  all : more = [] → r.val = .ok () → rest = []

/-- The session holds no complete capsule; what it holds may be malformed. -/
def Unread (session : WtSession) : Prop :=
  ∃ failed, scanned session [] = ⟨[], session.capsuleBuf, failed⟩

theorem scanned_rest (session : WtSession) (data : Bytes) :
    scanned (afterScan session (scanned session data)) [] =
      ⟨[], (scanned session data).rest, (scanned session data).failed⟩ := by
  rw [scanned, List.append_nil]
  exact Decoder.scan_rest Capsule.decode_lawful _

theorem unread_afterScan (session : WtSession) (data : Bytes) :
    Unread (afterScan session (scanned session data)) := ⟨_, scanned_rest session data⟩

theorem frames_none (h : Carries s stream session c) (hunread : Unread session)
    {fs : List DataFrame} {fuel : Nat} {more : Bytes}
    (hwire : stream.recvBuf.data ++ more = wire fs) (htakes : stream.Takes (payloads fs).length)
    (hwait : stream.recvBuf.data = [] ∨ stream.nextFrame = (.ok none, stream))
    (hall : more = [] → fs = []) :
    Taken s session more [] fs stream (loop (processStreamFrame env s) (fuel + 1) c) := by
  obtain ⟨hrun, hcarries⟩ := processStreamFrame_waits env h hwait
  obtain ⟨failed, hunread⟩ := hunread
  rw [loop, bind_ok _ _ _ hrun]
  exact {
    carries := by
      rw [show payloads [] = [] from rfl, hunread]
      exact hcarries
    events := by
      rw [show payloads [] = [] from rfl, hunread]
      rfl
    result := rfl
    left := hwire
    takes := htakes
    all := fun hmore _ => hall hmore }

/-- A frame in front of those that the rest of the run takes. -/
theorem Taken.cons {f : DataFrame} {more : Bytes} {done rest : List DataFrame}
    {r : Outcome Error Obs Core Unit} {o : List Obs}
    (ho : wtEvents o = hears s session.flowControlEnabled session.state
      (scanned session f.payload).items)
    (hgood : (scanned session f.payload).failed = false)
    (h : Taken s (afterScan session (scanned session f.payload)) more done rest stream' r) :
    Taken s session more (f :: done) rest stream' ⟨r.val, r.st, o ++ r.out⟩ := by
  have hpayloads : payloads (f :: done) = f.payload ++ payloads done := List.flatMap_cons
  exact {
    carries := by
      rw [hpayloads, afterScan_append]
      exact h.carries
    events := by
      rw [hpayloads, scanned_append, wtEvents_append, ho, hears_append, h.events]
      rfl
    result := by
      rw [hpayloads, scanned_append, h.result]
      cases done with
      | nil =>
        rw [show payloads [] = [] from rfl, scanned_rest, hgood]
        rfl
      | cons f' done => rfl
    left := h.left
    takes := h.takes
    all := h.all }

/-- The next frame is complete, or the buffer ends within it. -/
theorem complete_or_partial {buf more : Bytes} {f : DataFrame} {fs : List DataFrame}
    (h : buf ++ more = wire (f :: fs)) :
    (∃ rest, buf = f.bytes ++ rest ∧ rest ++ more = wire fs) ∨
      ∃ m, m ≠ [] ∧ buf ++ m = f.bytes ∧ more = m ++ wire fs := by
  rw [wire, List.flatMap_cons] at h
  obtain ⟨m, hf, hm⟩ | ⟨rest, hbuf, hrest⟩ := List.append_eq_append_iff.mp h
  · cases m with
    | nil => exact .inl ⟨[], by rw [hf, List.append_nil, List.append_nil], hm⟩
    | cons b m => exact .inr ⟨b :: m, List.cons_ne_nil b m, hf.symm, hm⟩
  · exact .inl ⟨rest, hbuf, hrest.symm⟩

/-- A malformed capsule stops the loop behind its frame. -/
theorem Taken.stop {f : DataFrame} {fs : List DataFrame} {more : Bytes} {d : Core} {o : List Obs}
    (ho : wtEvents o = hears s session.flowControlEnabled session.state
      (scanned session f.payload).items)
    (hbad : (scanned session f.payload).failed = true)
    (h : Carries s stream' (afterScan session (scanned session f.payload)) d)
    (hleft : stream'.recvBuf.data ++ more = wire fs)
    (htakes : stream'.Takes (payloads fs).length) :
    Taken s session more [f] fs stream' ⟨.error messageError, d, o⟩ := by
  have hpayloads : payloads [f] = f.payload := List.append_nil f.payload
  exact {
    carries := by rw [hpayloads]; exact h
    events := by rw [hpayloads]; exact ho
    result := by
      rw [hpayloads, hbad]
      rfl
    left := hleft
    takes := htakes
    all := fun _ h => nomatch h }

/-- The loop takes every frame that is there, up to a malformed capsule. -/
theorem frames_run (fs : List DataFrame) (fuel : Nat) (more : Bytes)
    (h : Carries s stream session c) (hunread : Unread session)
    (hfuel : stream.recvBuf.data.length < fuel) (hwire : stream.recvBuf.data ++ more = wire fs)
    (htakes : stream.Takes (payloads fs).length)
    (hend : ∀ x ∈ (scanned session (payloads fs)).items, endsSession x = false) :
    ∃ done rest stream', fs = done ++ rest ∧
      Taken s session more done rest stream' (loop (processStreamFrame env s) fuel c) := by
  induction fs generalizing fuel stream session c with
  | nil =>
    have hempty := List.append_eq_nil_iff.mp hwire
    cases fuel with
    | zero => omega
    | succ fuel =>
      exact ⟨[], [], stream, rfl,
        frames_none env h hunread hwire htakes (.inl hempty.1) fun _ => rfl⟩
  | cons f fs ih =>
    cases fuel with
    | zero => omega
    | succ fuel =>
      obtain ⟨rest, hbuf, hrest⟩ | ⟨m, hm, hbuf, hmore⟩ := complete_or_partial hwire
      · have hpayloads : payloads (f :: fs) = f.payload ++ payloads fs := List.flatMap_cons
        rw [hpayloads, scanned_append] at hend
        rw [hpayloads, List.length_append] at htakes
        obtain ⟨hendFirst, hendRest⟩ := List.forall_mem_append.mp hend
        have htakesFirst : stream.Takes f.payload.length := htakes.imp_right (by omega)
        have htakesRest := behindFrame_takes htakes rest
        have hleft : (behindFrame stream f.payload rest).recvBuf.data ++ more = wire fs := by
          rw [behindFrame_recvBuf]
          exact hrest
        obtain ⟨d, hrun, hcarries⟩ := processStreamFrame_data env h f hbuf htakesFirst
          hendFirst
        have hevents : wtEvents (.dataReceived s f.payload ::
            (hears s session.flowControlEnabled session.state
              (scanned session f.payload).items).map Obs.wt) =
            hears s session.flowControlEnabled session.state (scanned session f.payload).items :=
          wtEvents_wt _
        cases hfailed : (scanned session f.payload).failed with
        | true =>
          rw [hfailed] at hrun
          refine ⟨[f], fs, behindFrame stream f.payload rest, rfl, ?_⟩
          rw [loop, bind_error _ _ _ hrun]
          exact Taken.stop hevents hfailed hcarries hleft htakesRest
        | false =>
          rw [hfailed] at hrun
          have hshort : (behindFrame stream f.payload rest).recvBuf.data.length < fuel := by
            have hbytes := (decodeFrame_bounds f.reads).1
            rw [hbuf, List.length_append] at hfuel
            rw [behindFrame_recvBuf]
            simp only
            omega
          obtain ⟨done, left, stream', hsplit, htaken⟩ := ih fuel hcarries
            (unread_afterScan session f.payload) hshort hleft htakesRest hendRest
          refine ⟨f :: done, left, stream', congrArg (f :: ·) hsplit, ?_⟩
          rw [loop, bind_ok _ _ _ hrun, if_pos rfl]
          exact htaken.cons hevents hfailed
      · have hnext := RequestStream.nextFrame_partial f.reads rfl h.noFin hbuf hm
        refine ⟨[], f :: fs, stream, rfl,
          frames_none env h hunread hwire htakes (.inr hnext) fun hnil => ?_⟩
        rw [hnil] at hmore
        exact absurd (List.append_eq_nil_iff.mp hmore.symm).1 hm

/-! ## A piece of the stream -/

theorem removeStreamIfDone_carries (h : Carries s stream session c) :
    removeStreamIfDone s c = c := by
  rw [removeStreamIfDone, h.hasStream, h.closed, Option.any_some, h.goesOn]
  rfl

theorem processStreamFrames_run (fs : List DataFrame) (more : Bytes)
    (h : Carries s stream session c) (hunread : Unread session)
    (hwire : stream.recvBuf.data ++ more = wire fs) (htakes : stream.Takes (payloads fs).length)
    (hend : ∀ x ∈ (scanned session (payloads fs)).items, endsSession x = false) :
    ∃ done rest stream', fs = done ++ rest ∧
      Taken s session more done rest stream' (processStreamFrames env s c) := by
  obtain ⟨done, rest, stream', hsplit, htaken⟩ := frames_run env fs (frameFuel c s) more h
    hunread (by rw [frameFuel, h.hasStream]; exact Nat.lt_add_of_pos_right Nat.zero_lt_two) hwire
    htakes hend
  refine ⟨done, rest, stream', hsplit, ?_⟩
  rw [processStreamFrames, get_bind]
  rcases hrun : loop (processStreamFrame env s) (frameFuel c s) c with ⟨val, d, o⟩
  rw [hrun] at htaken
  cases val with
  | error e =>
    rw [bind_error _ _ _ hrun]
    exact htaken
  | ok u =>
    rw [bind_ok _ _ _ hrun]
    simp only [modify_run, removeStreamIfDone_carries htaken.carries, List.append_nil]
    exact htaken

theorem feedStreamInner_run (fs : List DataFrame) (piece more : Bytes)
    (h : Carries s stream session c) (hunread : Unread session)
    (hwire : stream.recvBuf.data ++ (piece ++ more) = wire fs)
    (htakes : stream.Takes (payloads fs).length)
    (hend : ∀ x ∈ (scanned session (payloads fs)).items, endsSession x = false) :
    ∃ done rest stream', fs = done ++ rest ∧
      Taken s session more done rest stream' (feedStreamInner env s piece false c) := by
  have hreceive : Carries s (stream.receive piece false) session
      (modifyStream s (fun x => x.receive piece false) c) :=
    h.next (by rw [modifyStream, IdMap.lookup_update_self, h.hasStream]; rfl)
      ⟨c.wt.wtSessions, rfl, h.hasSession⟩ h.body h.unblocked h.noFin h.goesOn h.active
  have hcontains : c.streams.contains s = true := by rw [IdMap.contains, h.hasStream]; rfl
  obtain ⟨done, rest, stream', hsplit, htaken⟩ := processStreamFrames_run env fs more
    hreceive hunread (by rw [← hwire, ← List.append_assoc]; rfl) htakes hend
  refine ⟨done, rest, stream', hsplit, ?_⟩
  have hbidi : handleBidirectionalStream env s piece false c =
      processStreamFrames env s (modifyStream s (fun x => x.receive piece false) c) := by
    have hblocked := hreceive.unblocked
    simp only [handleBidirectionalStream, get_bind, h.closed, hcontains, Bool.not_true,
      Bool.and_false, Bool.false_and, Bool.false_eq_true, if_false, modify_bind, ensureStream,
      if_true, hreceive.hasStream, Option.any_some, hblocked]
  have hinner : feedStreamInner env s piece false c =
      (attempt (handleBidirectionalStream env s piece false) >>= fun r =>
        modify (removeStreamIfDone s) >>= fun _ => ofExcept r) c := by
    simp only [feedStreamInner, get_bind, h.kind, h.dataStream.1, h.dataStream.2, h.classified,
      h.aside.1, h.aside.2, hcontains, StreamKind.isUnidirectional, StreamKind.isServerInitiated,
      Bool.and_false, Bool.or_self, Bool.not_true, Bool.false_eq_true, if_false]
  have hlast := removeStreamIfDone_carries htaken.carries
  rw [hinner, bind_run, attempt_run, hbidi]
  simp only [modify_bind, hlast, ofExcept_run, List.append_nil]
  exact htaken

end Frames

/-! ## The whole stream -/

/-- A way to send the bytes of a session: the frames, and the pieces in which they arrive. -/
structure Division (data : Bytes) where
  frames : List DataFrame
  pieces : List (HashOrder × Bytes)
  carried : payloads frames = data
  cut : pieces.flatMap Prod.snd = wire frames

def pieceInput (s : Nat) (piece : HashOrder × Bytes) : Input :=
  ⟨piece.1, .feedStream s piece.2 false⟩

def Division.inputs {data : Bytes} (d : Division data) (s : Nat) : List Input :=
  d.pieces.map (pieceInput s)

/-- Does one of the calls return H3_MESSAGE_ERROR? -/
def returnsMessageError (cfg : Config) (c : Connection) (is : List Input) : Prop :=
  ∃ step ∈ c.steps cfg is, step.result = .error messageError

instance (cfg : Config) (c : Connection) (is : List Input) :
    Decidable (returnsMessageError cfg c is) :=
  inferInstanceAs (Decidable (∃ step ∈ c.steps cfg is, step.result = .error messageError))

section Run

variable (cfg : Config) {s : Nat} {stream : RequestStream} {session : WtSession} {c : Connection}

/-- A stream error is returned and not kept. -/
theorem feed_verdict (hc : c.error = none) (piece : HashOrder × Bytes) {b : Bool}
    (h : (feedStreamInner (cfg.env piece.1) s piece.2 false c.core).val = verdict b) :
    (c.feed cfg (pieceInput s piece)).result = (verdict b).map (fun _ => .done) ∧
      (c.feed cfg (pieceInput s piece)).obs =
        (feedStreamInner (cfg.env piece.1) s piece.2 false c.core).out ∧
      (c.feed cfg (pieceInput s piece)).conn.core =
        (feedStreamInner (cfg.env piece.1) s piece.2 false c.core).st ∧
      (c.feed cfg (pieceInput s piece)).conn.error = none := by
  rcases hrun : feedStreamInner (cfg.env piece.1) s piece.2 false c.core with ⟨val, d, o⟩
  rw [hrun] at h
  obtain rfl : val = verdict b := h
  have hbody : body (cfg.env piece.1) (.feedStream s piece.2 false) c.core =
      ⟨(verdict b).map (fun _ => .done), d, o⟩ := by
    rw [body, unit]
    cases b with
    | true =>
      rw [bind_error _ _ _ hrun]
      rfl
    | false =>
      rw [bind_ok _ _ _ hrun]
      simp only [ret_run, List.append_nil]
      rfl
  simp only [feed, pieceInput, step, guarded, hc, exec, hbody]
  cases b <;> exact ⟨rfl, rfl, rfl, rfl⟩

theorem scanned_failed (h : (scanned session []).failed = true) (hunread : Unread session)
    (data : Bytes) : (scanned session data).items = [] ∧ (scanned session data).failed = true := by
  obtain ⟨failed, hunread⟩ := hunread
  have hscan := Decoder.scan_failed Capsule.decode_lawful h data
  rw [show (Decoder.scan Capsule.decode (session.capsuleBuf ++ [])).rest = session.capsuleBuf from
    congrArg Scan.rest hunread] at hscan
  rw [scanned, hscan]
  exact ⟨rfl, rfl⟩

/-- What the session hears in a run is what a scan of its bytes finds. -/
theorem pieces_run (pieces : List (HashOrder × Bytes)) (fs : List DataFrame)
    (hc : c.error = none) (h : Carries s stream session c.core) (hunread : Unread session)
    (hwire : stream.recvBuf.data ++ pieces.flatMap Prod.snd = wire fs)
    (hall : (scanned session []).failed = false → pieces.flatMap Prod.snd = [] → fs = [])
    (htakes : stream.Takes (payloads fs).length)
    (hend : ∀ x ∈ (scanned session (payloads fs)).items, endsSession x = false) :
    wtEvents (c.trace cfg (pieces.map (pieceInput s))) =
        hears s session.flowControlEnabled session.state (scanned session (payloads fs)).items ∧
      ((scanned session []).failed = false →
        (returnsMessageError cfg c (pieces.map (pieceInput s)) ↔
          (scanned session (payloads fs)).failed = true)) := by
  induction pieces generalizing fs stream session c with
  | nil =>
    cases hbad : (scanned session []).failed with
    | true =>
      rw [(scanned_failed hbad hunread _).1]
      exact ⟨rfl, nofun⟩
    | false =>
      rw [hall hbad rfl, show payloads [] = [] from rfl, hbad]
      obtain ⟨failed, hunread⟩ := hunread
      refine ⟨by rw [hunread]; rfl, fun _ => ⟨?_, nofun⟩⟩
      rintro ⟨_, hstep, _⟩
      cases hstep
  | cons piece pieces ih =>
    obtain ⟨done, rest, stream', hsplit, htaken⟩ := feedStreamInner_run (cfg.env piece.1) fs
      piece.2 (pieces.flatMap Prod.snd) h hunread hwire htakes hend
    obtain ⟨hresult, hobs, hcore, herror⟩ := feed_verdict cfg hc piece htaken.result
    have hpayloads : payloads fs = payloads done ++ payloads rest := by
      rw [hsplit, payloads, List.flatMap_append]
      rfl
    rw [hpayloads, scanned_append] at hend
    have hcarries := htaken.carries
    rw [← hcore] at hcarries
    have hlast := scanned_rest session (payloads done)
    have hleft : (scanned (afterScan session (scanned session (payloads done))) []).failed = false →
        pieces.flatMap Prod.snd = [] → rest = [] := by
      intro hgood hmore
      rw [hlast] at hgood
      exact htaken.all hmore (by rw [htaken.result, hgood, Bool.and_false]; rfl)
    obtain ⟨hevents, hreturns⟩ := ih rest herror hcarries (unread_afterScan session _) htaken.left
      hleft htaken.takes (List.forall_mem_append.mp hend).2
    rw [hpayloads, scanned_append]
    constructor
    · rw [hears_append, ← htaken.events, ← hobs, List.map_cons, trace, steps, List.flatMap_cons,
        wtEvents_append]
      exact congrArg (_ ++ ·) hevents
    · intro hgood
      rw [hlast] at hreturns
      cases hfailed : (scanned session (payloads done)).failed with
      | true =>
        have hbad := scanned_failed (by rw [hlast, hfailed]) (unread_afterScan session _)
          (payloads rest)
        have hdone : done.isEmpty = false := by
          cases done with
          | nil => exact absurd (hgood.symm.trans hfailed) Bool.false_ne_true
          | cons f done => rfl
        refine ⟨fun _ => hbad.2, fun _ => ⟨_, List.mem_cons_self, ?_⟩⟩
        rw [hresult, hdone, hfailed]
        rfl
      | false =>
        have hok : (c.feed cfg (pieceInput s piece)).result = .ok .done := by
          rw [hresult, hfailed, Bool.and_false]
          rfl
        rw [← hreturns hfailed]
        constructor
        · rintro ⟨step, hstep, herr⟩
          obtain rfl | hstep := List.mem_cons.mp hstep
          · cases hok.symm.trans herr
          · exact ⟨step, hstep, herr⟩
        · rintro ⟨step, hstep, herr⟩
          exact ⟨step, List.mem_cons_of_mem _ hstep, herr⟩

/-- The stream of a session stands between two frames, and the session between two capsules. -/
structure Attends (s : Nat) (stream : RequestStream) (session : WtSession) (c : Connection) :
    Prop where
  carries : Carries s stream session c.core
  noError : c.error = none
  boundary : stream.recvBuf.data = []
  settled : Capsule.decode session.capsuleBuf = .ok none

/-- What comes of the bytes of a session is a function of the bytes. -/
theorem division_run (h : Attends s stream session c) {data : Bytes}
    (htakes : stream.Takes data.length)
    (hend : ∀ x ∈ (scanned session data).items, endsSession x = false) (d : Division data) :
    wtEvents (c.trace cfg (d.inputs s)) =
        hears s session.flowControlEnabled session.state (scanned session data).items ∧
      (returnsMessageError cfg c (d.inputs s) ↔ (scanned session data).failed = true) := by
  obtain ⟨frames, pieces, rfl, hcut⟩ := d
  have hnone : scanned session [] = ⟨[], session.capsuleBuf, false⟩ := by
    rw [scanned, List.append_nil]
    exact Decoder.scan_none Capsule.decode_lawful h.settled
  have hempty : pieces.flatMap Prod.snd = [] → frames = [] := by
    intro hnil
    rw [hnil] at hcut
    cases frames with
    | nil => rfl
    | cons f fs =>
      have hbytes := (decodeFrame_bounds f.reads).1
      rw [(List.append_eq_nil_iff.mp hcut.symm).1] at hbytes
      cases hbytes
  obtain ⟨hevents, hreturns⟩ := pieces_run cfg pieces frames h.noError h.carries
    ⟨false, hnone⟩ (by rw [h.boundary]; exact hcut) (fun _ => hempty) htakes hend
  exact ⟨hevents, hreturns (by rw [hnone])⟩

end Run

/-- The frame that is sent for a payload. -/
def DataFrame.ofPayload (payload : Bytes) (bytes : Bytes)
    (h : encodeFrame (.data payload) = some bytes) : DataFrame :=
  ⟨bytes, payload, decodeFrame_encode h rfl⟩

/-- All frames in one piece. -/
def Division.whole (frames : List DataFrame) : Division (payloads frames) :=
  ⟨frames, [(.asListed, wire frames)], rfl, List.append_nil _⟩

/-- A stream that attends to an Established session, as a test. -/
def attends (s : Nat) (c : Connection) : Bool :=
  match c.core.streams.lookup s, c.core.wt.wtSessions.lookup s with
  | some stream, some session =>
    let w := c.core.wt
    StreamKind.fromStreamId s = .clientBidi && c.error = none &&
      !(w.wtBidiStreams.contains s || w.pendingWtBidiStreams.contains s ||
        w.pendingBidiDispatch.contains s || w.pendingWtBidiPreNegotiation.contains s ||
        w.ignoredPreNegotiationWtBidi.contains s || w.deferredWtConnects.contains s ||
        w.closedWtSessions.contains s) &&
      stream.recvState = .receivingBody && !stream.qpackBlocked && !isStreamDone stream &&
      stream.recvBuf = .new && stream.isWtConnect && session.state = .established &&
      session.capsuleBuf.isEmpty
  | _, _ => false

theorem of_attends {s : Nat} {c : Connection} (h : attends s c = true) :
    ∃ stream session, Attends s stream session c ∧ stream.isWtConnect = true ∧
      session.state = .established ∧ session.capsuleBuf = [] := by
  unfold attends at h
  split at h
  · rename_i stream session hstream hsession
    simp only [Bool.and_eq_true, Bool.not_eq_true', Bool.or_eq_false_iff, decide_eq_true_eq] at h
    obtain ⟨⟨⟨⟨⟨⟨⟨⟨⟨hkind, herror⟩, ⟨⟨⟨⟨⟨⟨hbidi, hpending⟩, hdispatch⟩, hwaits⟩, hignored⟩,
      hdeferred⟩, hclosed⟩⟩, hbody⟩, hblocked⟩, hdone⟩, hbuf⟩, hconnect⟩, hstate⟩, hcapsule⟩ := h
    have hempty : session.capsuleBuf = [] := List.isEmpty_iff.mp hcapsule
    refine ⟨stream, session, ⟨?_, herror, by rw [hbuf]; rfl, by rw [hempty]; rfl⟩, hconnect, hstate,
      hempty⟩
    exact {
      kind := hkind
      hasStream := hstream
      hasSession := hsession
      dataStream := ⟨hbidi, hpending⟩
      classified := hdispatch
      aside := ⟨hwaits, hignored⟩
      deferred := hdeferred
      closed := hclosed
      body := hbody
      unblocked := hblocked
      noFin := by rw [hbuf]; rfl
      goesOn := hdone
      active := by rw [isActive, hstate]; rfl }
  · cases h

/-- The calls after which a server has an Established session. -/
def establishedCalls : List Call :=
  Sample.serverSetup ++ [.feedStream 0 (Sample.headersBytes Sample.webTransportHeaders) false,
    .sendResponse 0 Sample.okHeaders false]

/-- WT_DRAIN_SESSION in one DATA frame, or cut in the middle. -/
def drainFrame : DataFrame :=
  .ofPayload [0x80, 0, 0x78, 0xae, 0] [0, 5, 0x80, 0, 0x78, 0xae, 0] rfl

def drainFrames : List DataFrame :=
  [.ofPayload [0x80, 0] [0, 2, 0x80, 0] rfl, .ofPayload [] [0, 0] rfl,
    .ofPayload [0x78, 0xae, 0] [0, 3, 0x78, 0xae, 0] rfl]

/-- WT_CLOSE_SESSION. -/
def closeFrame : DataFrame :=
  .ofPayload [0x68, 0x43, 4, 0, 0, 0, 0] [0, 7, 0x68, 0x43, 4, 0, 0, 0, 0] rfl

/-- The same bytes with an empty DATA frame behind them. -/
def closeThenEmpty : Division (payloads [closeFrame]) :=
  { Division.whole [closeFrame, .ofPayload [] [0, 0] rfl] with carried := rfl }

end Connection

end Http3
