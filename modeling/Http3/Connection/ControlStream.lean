import Http3.Codec
import Http3.Connection.Runs
import Http3.Lib.Consumer
import Http3.Stream.Arrival

/-!
# The control stream in pieces

The type of the stream, the frames on it and what they do to the connection are read from a buffer
that grows with every call. Where the stream was cut shows only when SETTINGS release a CONNECT or
a WT_STREAM that is refused with a stream error: the call returns it and leaves the frames behind
SETTINGS in the buffer until the next one.
-/

namespace Http3

/-! ## Errors of frames -/

namespace ControlStreamRecv

/-- Errors that close the connection. -/
def Closes (e : Error) : Prop := ∃ code, e = .connectionError code

theorem decodeSettingsLoop_closes {acc : SettingsPayload} {fuel : Nat} {payload : Bytes}
    {e : FrameDecodeError} (h : decodeSettingsLoop acc fuel payload = .error e) :
    Closes (frameError e) := by
  induction fuel generalizing acc payload with
  | zero => cases h
  | succ fuel ih =>
    unfold decodeSettingsLoop at h
    split at h
    · cases h
    · split at h
      · cases h
        exact ⟨_, rfl⟩
      · split at h
        · cases h
          exact ⟨_, rfl⟩
        · split at h
          · cases h
            exact ⟨_, rfl⟩
          · split at h
            · cases h
              exact ⟨_, rfl⟩
            · exact ih h

theorem decodeSingleVarInt_closes {payload : Bytes} {e : FrameDecodeError}
    (h : decodeSingleVarInt payload = .error e) : Closes (frameError e) := by
  unfold decodeSingleVarInt at h
  split at h
  · cases h
    exact ⟨_, rfl⟩
  · split at h <;> cases h
    exact ⟨_, rfl⟩

theorem decodePayload_closes {t : VarInt} {hn : FrameType.isHttp2Only t.get = false}
    {payload : Bytes} {e : FrameDecodeError} (h : decodePayload t hn payload = .error e) :
    Closes (frameError e) := by
  unfold decodePayload at h
  split at h
  · cases h
  · cases h
  · unfold decodeSettingsFrame at h
    cases hloop : decodeSettingsLoop .new payload.length payload <;> rw [hloop] at h <;> cases h
    exact decodeSettingsLoop_closes hloop
  · unfold decodeGoawayFrame at h
    cases hid : decodeSingleVarInt payload <;> rw [hid] at h <;> cases h
    exact decodeSingleVarInt_closes hid
  · unfold decodeMaxPushIdFrame at h
    cases hid : decodeSingleVarInt payload <;> rw [hid] at h <;> cases h
    exact decodeSingleVarInt_closes hid
  · cases h
    exact ⟨_, rfl⟩
  · cases h
    exact ⟨_, rfl⟩
  · cases h

theorem frameAt_closes {c : ControlStreamRecv} {data : Bytes} {e : Error}
    (h : frameAt c.frameRules data = some (.error e)) : Closes e := by
  by_cases hwt : isWtStreamFrameType data = true
  · rw [frameAt_early hwt rfl] at h
    cases h
    exact ⟨_, rfl⟩
  · have hrule : (if isWtStreamFrameType data then c.frameRules.wtStream else none) = none :=
      if_neg hwt
    cases hheader : decodeFrameHeader data with
    | error e' =>
      rw [frameAt_noHeader hrule hheader] at h
      split at h
      · cases h
      · rename_i hshort
        cases h
        unfold decodeFrameHeader at hheader
        split at hheader
        · cases hheader
          exact absurd rfl hshort
        · split at hheader
          · cases hheader
            exact absurd rfl hshort
          · split at hheader <;> cases hheader
            exact ⟨_, rfl⟩
    | ok header =>
      rw [frameAt_header hrule hheader] at h
      split at h
      · cases h
      · rename_i hlen
        simp only [frameRules, ite_self] at h
        rw [decodeFrame_of_header hheader, if_neg hlen] at h
        cases hp : decodePayload header.frameType (decodeFrameHeader_notHttp2 hheader)
            ((data.take header.totalLen).drop header.headerLen) with
        | ok f =>
          rw [hp] at h
          cases h
        | error e' =>
          rw [hp] at h
          cases h
          exact decodePayload_closes hp

end ControlStreamRecv

namespace Connection

open Proc ControlStreamRecv

/-! ## What frames do not look at -/

/-- The receiving half of the control stream and the ignored streams. -/
def aside (t : ControlStreamRecv × List Nat) (c : Core) : Core :=
  { c with controlRecv := t.1, ignoredUniStreams := t.2 }

section Blind

variable (env : Env)

theorem onWt_blind {α : Type} (x : WtProc α) : Blind aside (onWt x) :=
  Blind.zoom x (fun _ _ => rfl) fun _ _ _ => rfl

theorem modifyStream_blind (streamId : Nat) (f : RequestStream → RequestStream) :
    Blind aside (modify (modifyStream streamId f) : CoreProc Unit) :=
  Blind.modify fun _ _ => rfl

theorem registerWtConnectSession_blind (streamId : Nat) (headers : List Header) :
    Blind aside (registerWtConnectSession env streamId headers) := by
  unfold registerWtConnectSession
  apply Blind.ite
  · exact Blind.ret ()
  · exact Blind.bind (onWt_blind _) fun _ => modifyStream_blind streamId _

theorem processDeferredWtConnect_blind (streamId : Nat) (headers : List Header) :
    Blind aside (processDeferredWtConnect env streamId headers) := by
  unfold processDeferredWtConnect
  apply Blind.get_bind
  · intro t c
    rfl
  · intro c
    apply Blind.bind (Blind.ofExcept _)
    intro _
    apply Blind.bind (registerWtConnectSession_blind env streamId headers)
    intro _
    split
    · exact Blind.bind (onWt_blind _) fun _ => Blind.emitAll _
    · exact Blind.bind (Blind.ret ()) fun _ => Blind.emitAll _

theorem processDeferredWtConnects_blind : Blind aside (processDeferredWtConnects env) := by
  unfold processDeferredWtConnects
  apply Blind.get_bind
  · intro t c
    rfl
  · intro c
    apply Blind.bind (onWt_blind _)
    intro _
    exact Blind.each (fun streamId => processDeferredWtConnect_blind env streamId _) _

theorem processPendingWtBidiPreNegotiation_blind :
    Blind aside (processPendingWtBidiPreNegotiation env) := by
  unfold processPendingWtBidiPreNegotiation
  apply Blind.get_bind
  · intro t c
    rfl
  · exact fun c => onWt_blind _

theorem handleSettings_blind (settings : Settings) : Blind aside (handleSettings env settings) := by
  unfold handleSettings
  apply Blind.get_bind
  · intro t c
    rfl
  · intro c
    apply Blind.bind (Blind.ofExcept _)
    intro qpack
    refine Blind.bind (Blind.modify ?_) ?_
    · intro _ _
      rfl
    intro _
    apply Blind.bind (Blind.ofExcept _)
    intro _
    refine Blind.bind (Blind.modify ?_) ?_
    · intro _ _
      rfl
    intro _
    apply Blind.bind (Blind.emit _)
    intro _
    apply Blind.bind (processDeferredWtConnects_blind env)
    intro _
    exact processPendingWtBidiPreNegotiation_blind env

theorem handleGoaway_blind (id : VarInt) : Blind aside (handleGoaway env id) := by
  unfold handleGoaway
  apply Blind.get_bind
  · intro t c
    rfl
  · intro c
    apply Blind.ite (Blind.throw _)
    apply Blind.ite (Blind.throw _)
    refine Blind.bind (Blind.modify ?_) ?_
    · intro _ _
      rfl
    intro _
    apply Blind.bind (Blind.emit _)
    intro _
    apply Blind.ite
    · exact Blind.each (fun _ => onWt_blind _) _
    · exact Blind.ret ()

theorem handleMaxPushId_blind (id : VarInt) : Blind aside (handleMaxPushId env id) := by
  unfold handleMaxPushId
  apply Blind.get_bind
  · intro t c
    rfl
  · intro c
    apply Blind.ite (Blind.throw _)
    apply Blind.ite (Blind.throw _)
    exact Blind.modify fun _ _ => rfl

theorem handleControlFrame_blind (frame : Frame) : Blind aside (handleControlFrame env frame) := by
  cases frame with
  | settings p => exact handleSettings_blind env _
  | goaway id => exact handleGoaway_blind env id
  | maxPushId id => exact handleMaxPushId_blind env id
  | _ => exact Blind.ret ()

/-- So they stay what they are. -/
theorem handleControlFrame_aside (frame : Frame) (c : Core) :
    (handleControlFrame env frame c).st.controlRecv = c.controlRecv ∧
      (handleControlFrame env frame c).st.ignoredUniStreams = c.ignoredUniStreams := by
  have h := handleControlFrame_blind env frame (c.controlRecv, c.ignoredUniStreams) c
  have hst : (handleControlFrame env frame c).st =
      aside (c.controlRecv, c.ignoredUniStreams) (handleControlFrame env frame c).st :=
    congrArg Outcome.st h
  constructor
  · rw [hst]
    rfl
  · rw [hst]
    rfl

end Blind

/-! ## The stream as a consumer -/

/-- The stream is the control stream. -/
def openControl (streamId : Nat) (c : Core) : Core :=
  { c with controlRecv := { c.controlRecv with streamId := some streamId }.skipStreamType }

def setRecvState (recvState : ControlRecvState) (c : Core) : Core :=
  { c with controlRecv := { c.controlRecv with recvState } }

/-- What a frame leaves. An error that does not close the connection does not stop the stream. -/
def settled (log : List Obs) (n : Nat) :
    Outcome Error Obs Core Unit → Consumer.Answer Error (Core × List Obs)
  | ⟨.error (.connectionError code), d, out⟩ => .fail (.connectionError code) (d, log ++ out)
  | ⟨_, d, out⟩ => .take n (d, log ++ out)

/-- The frames behind the type. -/
def controlConsumer (env : Env) : Consumer Error (Core × List Obs) UInt8 := fun (c, log) data =>
  match frameAt c.controlRecv.frameRules data with
  | none => .wait
  | some (.error e) => .fail e (c, log)
  | some (.ok (frame, n)) =>
    match accept c.controlRecv.recvState frame with
    | .error e => .fail e (c, log)
    | .ok recvState => settled log n (handleControlFrame env frame (setRecvState recvState c))

variable (env : Env)

theorem controlConsumer_eq (c : Core) (log : List Obs) (data : Bytes) :
    controlConsumer env (c, log) data =
      match frameAt c.controlRecv.frameRules data with
      | none => .wait
      | some (.error e) => .fail e (c, log)
      | some (.ok (frame, n)) =>
        match accept c.controlRecv.recvState frame with
        | .error e => .fail e (c, log)
        | .ok recvState => settled log n (handleControlFrame env frame (setRecvState recvState c)) :=
  rfl

theorem settled_ne_wait (log : List Obs) (n : Nat) (r : Outcome Error Obs Core Unit) :
    settled log n r ≠ .wait := by
  unfold settled
  split <;> nofun

theorem settled_take {log : List Obs} {n m : Nat} {r : Outcome Error Obs Core Unit}
    {t : Core × List Obs} (h : settled log n r = .take m t) : m = n ∧ t = (r.st, log ++ r.out) := by
  unfold settled at h
  split at h
  · cases h
  · cases h
    exact ⟨rfl, rfl⟩

theorem controlConsumer_stable : (controlConsumer env).Stable where
  bounds {s data n t} h := by
    unfold controlConsumer at h
    rcases hframe : frameAt s.1.controlRecv.frameRules data with _ | e | ⟨frame, k⟩ <;>
      simp only [hframe] at h
    · cases h
    · cases h
    · have hk := frameAt_bounds hframe
      split at h
      · cases h
      · obtain ⟨rfl, -⟩ := settled_take h
        omega
  append {s data} h more := by
    unfold controlConsumer at h ⊢
    have hne : frameAt s.1.controlRecv.frameRules data ≠ none := by
      intro hnone
      simp only [hnone] at h
      exact h rfl
    simp only [frameAt_append hne more]

/-! ## One call -/

/-- The control stream with this in its buffer. -/
def withBuffer (data : Bytes) (c : Core) : Core :=
  { c with controlRecv := { c.controlRecv with recvBuf := ⟨data, false⟩ } }

/-- A frame is handled whatever is left in the buffer. -/
theorem handleControlFrame_withBuffer (frame : Frame) (recvState : ControlRecvState) (c : Core)
    (data : Bytes) :
    handleControlFrame env frame (setRecvState recvState (withBuffer data c)) =
      ⟨(handleControlFrame env frame (setRecvState recvState c)).val,
        withBuffer data (handleControlFrame env frame (setRecvState recvState c)).st,
        (handleControlFrame env frame (setRecvState recvState c)).out⟩ := by
  obtain ⟨hrecv, hignored⟩ := handleControlFrame_aside env frame (setRecvState recvState c)
  have hblind := handleControlFrame_blind env frame
    ((setRecvState recvState (withBuffer data c)).controlRecv, c.ignoredUniStreams)
    (setRecvState recvState c)
  have hput : withBuffer data (handleControlFrame env frame (setRecvState recvState c)).st =
      aside ((setRecvState recvState (withBuffer data c)).controlRecv, c.ignoredUniStreams)
        (handleControlFrame env frame (setRecvState recvState c)).st := by
    simp only [withBuffer, aside, hrecv]
    rw [show c.ignoredUniStreams = (setRecvState recvState c).ignoredUniStreams from rfl,
      ← hignored]
    rfl
  rw [hput]
  exact hblind

theorem processControlFrame_run {c : Core} (htype : c.controlRecv.recvState ≠ .waitingType)
    (data : Bytes) :
    processControlFrame env (withBuffer data c) =
      match frameAt c.controlRecv.frameRules data with
      | none => ⟨.ok false, withBuffer data c, []⟩
      | some (.error e) => ⟨.error e, withBuffer data c, []⟩
      | some (.ok (frame, n)) =>
        match accept c.controlRecv.recvState frame with
        | .error e => ⟨.error e, withBuffer (data.drop n) c, []⟩
        | .ok recvState =>
          let r := handleControlFrame env frame (setRecvState recvState c)
          ⟨r.val.map fun _ => true, withBuffer (data.drop n) r.st, r.out⟩ := by
  have hprocess : (withBuffer data c).controlRecv.process =
      (withBuffer data c).controlRecv.processFrame := process_eq htype
  have hframes : frameAt (withBuffer data c).controlRecv.frameRules
      (withBuffer data c).controlRecv.recvBuf.peek = frameAt c.controlRecv.frameRules data := rfl
  simp only [processControlFrame, get_bind, modify_bind, hprocess, processFrame_eq, hframes]
  rcases hframe : frameAt c.controlRecv.frameRules data with _ | e | ⟨frame, n⟩
  · rfl
  · rfl
  · have haccept : accept (withBuffer data c).controlRecv.recvState frame =
        accept c.controlRecv.recvState frame := rfl
    simp only [haccept]
    cases hstate : accept c.controlRecv.recvState frame with
    | error e => rfl
    | ok recvState =>
      have hhandle := handleControlFrame_withBuffer env frame recvState c (data.drop n)
      show (handleControlFrame env frame >>= fun _ => ret true)
        (setRecvState recvState (withBuffer (data.drop n) c)) = _
      rw [bind_run, hhandle]
      dsimp only
      rcases handleControlFrame env frame (setRecvState recvState c) with ⟨v, d, out⟩
      cases v with
      | error e => rfl
      | ok u => simp [Except.map]

/-- Only SETTINGS can fail without closing the connection. -/
theorem drainSession_ok (id sessionId : Nat) (w : WtState) :
    (drainSession id sessionId w).val = .ok () := by
  simp only [drainSession, get_bind]
  cases w.wtSessions.lookup sessionId with
  | none => rfl
  | some session =>
    simp only [ite_run]
    split <;> rfl

theorem handleControlFrame_ready {frame : Frame} (h : checkReady frame = true) (c : Core) :
    (handleControlFrame env frame c).val = .ok () ∨
      ∃ code, (handleControlFrame env frame c).val = .error (.connectionError code) := by
  cases frame with
  | settings p => cases h
  | data payload => cases h
  | headers encoded => cases h
  | unknown u => exact .inl rfl
  | maxPushId id =>
    simp only [handleControlFrame, handleMaxPushId, get_bind]
    split
    · exact .inr ⟨_, rfl⟩
    · split
      · exact .inr ⟨_, rfl⟩
      · exact .inl rfl
  | goaway id =>
    simp only [handleControlFrame, handleGoaway, get_bind]
    split
    · exact .inr ⟨_, rfl⟩
    · split
      · exact .inr ⟨_, rfl⟩
      · left
        have hround : ∀ (sid : Nat) (d : Core), (onWt (drainSession id.get sid) d).val = .ok () :=
          fun sid d => drainSession_ok id.get sid d.wt
        simp only [modify_bind, emit_bind, ite_run]
        split
        · exact each_ok hround _ _
        · rfl

theorem accept_closes {recvState : ControlRecvState} {frame : Frame} {e : Error}
    (h : accept recvState frame = .error e) : Closes e := by
  unfold accept at h
  split at h
  · split at h <;> cases h
    exact ⟨_, rfl⟩
  · split at h <;> cases h
    exact ⟨_, rfl⟩

theorem accept_ready {frame : Frame} {next : ControlRecvState}
    (h : accept .ready frame = .ok next) : next = .ready ∧ checkReady frame = true := by
  unfold accept at h
  rw [if_neg nofun] at h
  split at h <;> cases h
  exact ⟨rfl, ‹_›⟩

/-- A call went as far as the consumer, or met the same error. -/
inductive Ran (log : List Obs) : Outcome Error Obs Core Unit →
    Consumer.Progress Error (Core × List Obs) UInt8 → Prop
  | waits (d : Core) (out : List Obs) (rest : Bytes) :
      Ran log ⟨.ok (), withBuffer rest d, out⟩ ⟨(d, log ++ out), rest, none⟩
  | fails (d : Core) (out : List Obs) (buf : Bytes) (code : ErrorCode) :
      Ran log ⟨.error (.connectionError code), withBuffer buf d, out⟩
        ⟨(d, log ++ out), [], some (.connectionError code)⟩

theorem Ran.idle (log : List Obs) (d : Core) (rest : Bytes) :
    Ran log ⟨.ok (), withBuffer rest d, []⟩ ⟨(d, log), rest, none⟩ := by
  have h : Ran log ⟨.ok (), withBuffer rest d, []⟩ ⟨(d, log ++ []), rest, none⟩ := .waits d [] rest
  rwa [List.append_nil] at h

theorem Ran.stops (log : List Obs) (d : Core) (buf : Bytes) (code : ErrorCode) :
    Ran log ⟨.error (.connectionError code), withBuffer buf d, []⟩
      ⟨(d, log), [], some (.connectionError code)⟩ := by
  have h : Ran log ⟨.error (.connectionError code), withBuffer buf d, []⟩
      ⟨(d, log ++ []), [], some (.connectionError code)⟩ := .fails d [] buf code
  rwa [List.append_nil] at h

theorem Ran.after_bind {log out : List Obs} {r : Outcome Error Obs Core Unit}
    {p : Consumer.Progress Error (Core × List Obs) UInt8} (h : Ran (log ++ out) r p) :
    Ran log ⟨r.val, r.st, out ++ r.out⟩ p := by
  cases h with
  | waits d out' rest =>
    rw [List.append_assoc]
    exact .waits d (out ++ out') rest
  | fails d out' buf code =>
    rw [List.append_assoc]
    exact .fails d (out ++ out') buf code

section Ready

variable {env} {c : Core} {data : Bytes} (log : List Obs)

theorem loop_ran (hready : c.controlRecv.recvState = .ready) (fuel : Nat)
    (h : data.length < fuel) :
    Ran log (loop (processControlFrame env) fuel (withBuffer data c))
      ((controlConsumer env).run (c, log) data) := by
  have htype : c.controlRecv.recvState ≠ .waitingType := by
    rw [hready]
    nofun
  have hstable := controlConsumer_stable env
  induction fuel generalizing c log data with
  | zero => exact absurd h (Nat.not_lt_zero _)
  | succ fuel ih =>
    have hrun := processControlFrame_run env htype data
    have hconsumer := controlConsumer_eq env c log data
    rcases hframe : frameAt c.controlRecv.frameRules data with _ | e | ⟨frame, n⟩ <;>
      simp only [hframe] at hrun hconsumer
    · rw [loop, bind_ok _ _ _ hrun, Consumer.run_wait hconsumer]
      exact .idle log c data
    · obtain ⟨code, rfl⟩ := frameAt_closes hframe
      rw [loop, bind_error _ _ _ hrun, Consumer.run_fail hconsumer]
      exact .stops log c data code
    · cases haccept : accept c.controlRecv.recvState frame with
      | error e =>
        simp only [haccept] at hrun hconsumer
        obtain ⟨code, rfl⟩ := accept_closes haccept
        rw [loop, bind_error _ _ _ hrun, Consumer.run_fail hconsumer]
        exact .stops log c (data.drop n) code
      | ok next =>
        simp only [haccept] at hrun hconsumer
        rw [hready] at haccept
        obtain ⟨rfl, hcheck⟩ := accept_ready haccept
        have hn := frameAt_bounds hframe
        have hdrop : (data.drop n).length = data.length - n := List.length_drop
        have haside := (handleControlFrame_aside env frame (setRecvState .ready c)).1
        have hval := handleControlFrame_ready env hcheck (setRecvState .ready c)
        rcases hhandle : handleControlFrame env frame (setRecvState .ready c) with ⟨v, d, out⟩
        rw [hhandle] at hrun hconsumer haside hval
        obtain rfl | ⟨code, rfl⟩ := hval
        · have hd : d.controlRecv.recvState = .ready := by rw [haside]; rfl
          rw [loop, bind_ok _ _ _ hrun, Consumer.run_take hstable hconsumer]
          exact (ih (log ++ out) hd (by omega) (by rw [hd]; nofun)).after_bind
        · rw [loop, bind_error _ _ _ hrun, Consumer.run_fail hconsumer]
          exact .fails d out (data.drop n) code

end Ready

section First

variable {env} {c : Core} {data : Bytes}

theorem accept_first {frame : Frame} {next : ControlRecvState}
    (h : accept .waitingSettings frame = .ok next) : next = .ready ∧ ∃ p, frame = .settings p := by
  unfold accept at h
  rw [if_pos rfl] at h
  split at h <;> cases h
  exact ⟨rfl, _, rfl⟩

/-- SETTINGS are not refused with an error that leaves the connection open. -/
def NotRefused (env : Env) (c : Core) (data : Bytes) : Prop :=
  ∀ p n, frameAt c.controlRecv.frameRules data = some (.ok (.settings p, n)) →
    ∀ e, (handleControlFrame env (.settings p) (setRecvState .ready c)).val = .error e → Closes e

theorem loop_first_ran (hfirst : c.controlRecv.recvState = .waitingSettings)
    (hvalid : NotRefused env c data) (fuel : Nat) (h : data.length < fuel) :
    Ran [] (loop (processControlFrame env) fuel (withBuffer data c))
      ((controlConsumer env).run (c, []) data) := by
  have htype : c.controlRecv.recvState ≠ .waitingType := by
    rw [hfirst]
    nofun
  cases fuel with
  | zero => exact absurd h (Nat.not_lt_zero _)
  | succ fuel =>
    have hrun := processControlFrame_run env htype data
    have hconsumer := controlConsumer_eq env c [] data
    rcases hframe : frameAt c.controlRecv.frameRules data with _ | e | ⟨frame, n⟩ <;>
      simp only [hframe] at hrun hconsumer
    · rw [loop, bind_ok _ _ _ hrun, Consumer.run_wait hconsumer]
      exact .waits c [] data
    · obtain ⟨code, rfl⟩ := frameAt_closes hframe
      rw [loop, bind_error _ _ _ hrun, Consumer.run_fail hconsumer]
      exact .fails c [] data code
    · cases haccept : accept c.controlRecv.recvState frame with
      | error e =>
        simp only [haccept] at hrun hconsumer
        obtain ⟨code, rfl⟩ := accept_closes haccept
        rw [loop, bind_error _ _ _ hrun, Consumer.run_fail hconsumer]
        exact .fails c [] (data.drop n) code
      | ok next =>
        simp only [haccept] at hrun hconsumer
        rw [hfirst] at haccept
        obtain ⟨rfl, p, rfl⟩ := accept_first haccept
        have hn := frameAt_bounds hframe
        have hdrop : (data.drop n).length = data.length - n := List.length_drop
        have haside := (handleControlFrame_aside env (.settings p) (setRecvState .ready c)).1
        have hval := hvalid p n hframe
        rcases hhandle : handleControlFrame env (.settings p) (setRecvState .ready c) with
          ⟨v, d, out⟩
        rw [hhandle] at hrun hconsumer haside hval
        cases v with
        | ok u =>
          have hready : d.controlRecv.recvState = .ready := by rw [haside]; rfl
          rw [loop, bind_ok _ _ _ hrun, Consumer.run_take (controlConsumer_stable env) hconsumer]
          have hlen : (data.drop n).length < fuel := by omega
          have hrest : Ran ([] ++ out)
              (loop (processControlFrame env) fuel (withBuffer (data.drop n) d)) _ :=
            loop_ran ([] ++ out) hready fuel hlen
          exact hrest.after_bind
        | error e =>
          obtain ⟨code, rfl⟩ := hval e rfl
          rw [loop, bind_error _ _ _ hrun, Consumer.run_fail hconsumer]
          exact .fails d out (data.drop n) code

/-- Refused SETTINGS end the call, with the rest still in the buffer. -/
theorem loop_first_refused (hfirst : c.controlRecv.recvState = .waitingSettings)
    {p : SettingsPayload} {n : Nat}
    (hframe : frameAt c.controlRecv.frameRules data = some (.ok (.settings p, n))) {e : Error}
    {d : Core} {out : List Obs}
    (hhandle : handleControlFrame env (.settings p) (setRecvState .ready c) = ⟨.error e, d, out⟩)
    (fuel : Nat) :
    loop (processControlFrame env) (fuel + 1) (withBuffer data c) =
      ⟨.error e, withBuffer (data.drop n) d, out⟩ := by
  have htype : c.controlRecv.recvState ≠ .waitingType := by
    rw [hfirst]
    nofun
  have haccept : accept c.controlRecv.recvState (.settings p) = .ok .ready := by
    rw [hfirst]
    rfl
  have hrun := processControlFrame_run env htype data
  simp only [hframe, haccept, hhandle] at hrun
  rw [loop, bind_error _ _ _ hrun]

/-- The consumer goes on behind them. -/
theorem run_first_refused (hfirst : c.controlRecv.recvState = .waitingSettings)
    {p : SettingsPayload} {n : Nat}
    (hframe : frameAt c.controlRecv.frameRules data = some (.ok (.settings p, n))) {e : Error}
    (hopen : ¬Closes e) {d : Core} {out : List Obs}
    (hhandle : handleControlFrame env (.settings p) (setRecvState .ready c) = ⟨.error e, d, out⟩) :
    (controlConsumer env).run (c, []) data = (controlConsumer env).run (d, out) (data.drop n) := by
  have haccept : accept c.controlRecv.recvState (.settings p) = .ok .ready := by
    rw [hfirst]
    rfl
  have hconsumer := controlConsumer_eq env c [] data
  simp only [hframe, haccept, hhandle] at hconsumer
  have hsettled : settled [] n ⟨.error e, d, out⟩ = .take n (d, out) := by
    cases e with
    | connectionError code => exact absurd ⟨code, rfl⟩ hopen
    | _ => rfl
  exact Consumer.run_take (controlConsumer_stable env) (hconsumer.trans hsettled)

end First

end Connection

end Http3
