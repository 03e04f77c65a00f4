import Http3.Connection.ControlPieces
import Http3.Connection.Deferred
import Http3.Stream.Message

/-!
# What the control stream accepts

SETTINGS first and once, then GOAWAY, MAX_PUSH_ID and unknown frames, with ids that only move one
way. What shows of such a stream depends on its bytes and not on how they were cut, unless SETTINGS
refuse a CONNECT that waited for them and more than unknown frames follow.
-/

namespace Http3

/-! ## Frames of a stream that goes on -/

/-- The bytes begin with these frames, and the next one is not complete. -/
inductive Begins : Bytes → List Frame → Prop
  | nil {bytes : Bytes} (h : decodeFrame bytes = .error .bufferTooShort) : Begins bytes []
  | cons {bytes : Bytes} {frame : Frame} {n : Nat} {frames : List Frame}
      (head : decodeFrame bytes = .ok (frame, n)) (tail : Begins (bytes.drop n) frames) :
      Begins bytes (frame :: frames)

theorem frameAt_none {rules : FrameRules} {data : Bytes} (h : frameAt rules data = none) :
    decodeFrame data = .error .bufferTooShort := by
  cases hwt : if isWtStreamFrameType data then rules.wtStream else none with
  | some e =>
    simp only [frameAt, hwt] at h
    cases h
  | none =>
    cases hheader : decodeFrameHeader data with
    | error e =>
      rw [frameAt_noHeader hwt hheader] at h
      split at h
      · subst e
        unfold decodeFrame
        split
        · rename_i heq
          rw [hheader] at heq
          cases heq
          rfl
        · rename_i heq
          rw [hheader] at heq
          cases heq
      · cases h
    | ok header =>
      rw [frameAt_header hwt hheader] at h
      rw [decodeFrame_of_header hheader]
      split at h
      · exact if_pos ‹_›
      · split at h <;> cases h

def goawayIds (frames : List Frame) : List VarInt :=
  frames.filterMap fun frame => match frame with
    | .goaway id => some id
    | _ => none

def maxPushIds (frames : List Frame) : List VarInt :=
  frames.filterMap fun frame => match frame with
    | .maxPushId id => some id
    | _ => none

/-- A frame that may follow SETTINGS. -/
def MayFollow (role : Role) : Frame → Prop
  | .goaway _ => True
  | .maxPushId _ => role = .server
  | .unknown u => u.frameType.get ≠ 0x41
  | _ => False

/-- Frames behind SETTINGS. -/
structure Trailing (role : Role) (frames : List Frame) : Prop where
  kinds : ∀ frame ∈ frames, MayFollow role frame
  goaways : (goawayIds frames).Pairwise fun a b => b.get ≤ a.get
  pushes : (maxPushIds frames).Pairwise fun a b => a.get ≤ b.get

/-- SETTINGS come first and once. -/
def InOrder (role : Role) : List Frame → Prop
  | [] => True
  | .settings _ :: frames => Trailing role frames
  | _ :: _ => False

/-- The rules of the stream once SETTINGS were read. -/
def readyRules : FrameRules := { ControlStreamRecv.new with recvState := .ready }.frameRules

/-- Unknown frames, and perhaps the beginning of one more frame. -/
inductive Idle : Bytes → Prop
  | ends {data : Bytes} (h : frameAt readyRules data = none) : Idle data
  | unknown {data : Bytes} {u : UnknownFrame} {n : Nat}
      (h : frameAt readyRules data = some (.ok (.unknown u, n))) (tail : Idle (data.drop n)) :
      Idle data

theorem frameRules_ready {r : ControlStreamRecv} (h : r.recvState = .ready) :
    r.frameRules = readyRules := by
  unfold readyRules ControlStreamRecv.frameRules
  rw [h]

/-- WT_STREAM is no frame of the control stream. -/
theorem frameAt_notWtStream {r : ControlStreamRecv} {data : Bytes} {frame : Frame} {n : Nat}
    (h : frameAt r.frameRules data = some (.ok (frame, n))) : frame.frameType.get ≠ 0x41 := by
  intro htype
  rw [frameAt_decoded r.frameRules (frameAt_ok h), if_pos htype] at h
  cases h

namespace Connection

open Proc ControlStreamRecv

section Order

variable {env : Env}

/-- What a frame behind SETTINGS says and does, when it is no error. -/
inductive Obeys (role : Role) (t d : Core) (out : List Obs) : Frame → Prop
  | unknown (u : UnknownFrame) (hd : d = t) (hout : out = []) : Obeys role t d out (.unknown u)
  | goaway (id : VarInt) (hle : ∀ prev ∈ t.peerGoawayLastId, id.get ≤ prev.get)
      (hgoaway : d.peerGoawayLastId = some id) (hpush : d.maxPushId = t.maxPushId)
      (hout : ∃ more, out = .event (.goawayReceived id) :: more) : Obeys role t d out (.goaway id)
  | maxPushId (id : VarInt) (hrole : role = .server)
      (hle : ∀ prev ∈ t.maxPushId, prev.get ≤ id.get)
      (hgoaway : d.peerGoawayLastId = t.peerGoawayLastId) (hpush : d.maxPushId = some id)
      (hout : out = []) : Obeys role t d out (.maxPushId id)

theorem handleGoaway_obeys {id : VarInt} {t d : Core} {out : List Obs}
    (h : handleGoaway env id t = ⟨.ok (), d, out⟩) : Obeys env.role t d out (.goaway id) := by
  simp only [handleGoaway, get_bind] at h
  split at h
  · cases h
  · split at h
    · cases h
    · rename_i hmonotone
      have hle : ∀ prev ∈ t.peerGoawayLastId, id.get ≤ prev.get := by
        intro prev hprev
        rw [Option.mem_def] at hprev
        simp only [hprev, Option.any_some, decide_eq_true_eq] at hmonotone
        omega
      have haloof : Keeps Aloof (if env.role = .client then
          each (env.order.walk .wtSessions t.wt.wtSessions.keys) fun sid =>
            onWt (drainSession id.get sid)
        else ret () : CoreProc Unit) := by grind
      have hsame := haloof { t with peerGoawayLastId := some id }
      simp only [modify_bind, emit_bind, Outcome.mk.injEq] at h
      obtain ⟨-, rfl, rfl⟩ := h
      exact .goaway id hle hsame.peerGoawayLastId hsame.maxPushId ⟨_, rfl⟩

theorem handleMaxPushId_obeys {id : VarInt} {t d : Core} {out : List Obs}
    (h : handleMaxPushId env id t = ⟨.ok (), d, out⟩) : Obeys env.role t d out (.maxPushId id) := by
  simp only [handleMaxPushId, get_bind] at h
  split at h
  · cases h
  · rename_i hclient
    split at h
    · cases h
    · rename_i hmonotone
      cases h
      have hserver : env.role = .server := by
        cases hrole : env.role with
        | client => exact absurd hrole hclient
        | server => rfl
      refine .maxPushId id hserver (fun prev hprev => ?_) rfl rfl rfl
      rw [Option.mem_def] at hprev
      simp only [hprev, Option.any_some, decide_eq_true_eq] at hmonotone
      omega

theorem handleControlFrame_obeys {frame : Frame} {t d : Core} {out : List Obs}
    (hcheck : checkReady frame = true)
    (h : handleControlFrame env frame t = ⟨.ok (), d, out⟩) : Obeys env.role t d out frame := by
  cases frame with
  | settings p => cases hcheck
  | data payload => cases hcheck
  | headers encoded => cases hcheck
  | unknown u =>
    cases h
    exact .unknown u rfl rfl
  | goaway id => exact handleGoaway_obeys h
  | maxPushId id => exact handleMaxPushId_obeys h

/-- A run behind SETTINGS without an error reads frames that may stand there. -/
theorem run_trailing (t : Core) (log : List Obs) (data : Bytes)
    (hready : t.controlRecv.recvState = .ready)
    (hok : ((controlConsumer env).run (t, log) data).failure = none) :
    ∃ frames, Begins data frames ∧ Trailing env.role frames ∧
      (∀ prev ∈ t.peerGoawayLastId, ∀ id ∈ goawayIds frames, id.get ≤ prev.get) ∧
      ∀ prev ∈ t.maxPushId, ∀ id ∈ maxPushIds frames, prev.get ≤ id.get := by
  refine ready_induct
    (P := fun t log data p => p.failure = none →
      ∃ frames, Begins data frames ∧ Trailing env.role frames ∧
        (∀ prev ∈ t.peerGoawayLastId, ∀ id ∈ goawayIds frames, id.get ≤ prev.get) ∧
        ∀ prev ∈ t.maxPushId, ∀ id ∈ maxPushIds frames, prev.get ≤ id.get)
    ?_ ?_ ?_ ?_ t log data hready hok
  · intro t log data _ hnone _
    refine ⟨[], .nil (frameAt_none hnone), ⟨nofun, .nil, .nil⟩, fun _ _ => nofun, fun _ _ => nofun⟩
  · intro t log data code _ _ h
    cases h
  · intro t log data frame n code d out _ _ _ _ h
    cases h
  · intro t log data frame n d out _ hframe hcheck hhandle _ ih hok
    obtain ⟨frames, hbegins, htrailing, hgoaways, hpushes⟩ := ih hok
    have htype := frameAt_notWtStream hframe
    refine ⟨frame :: frames, .cons (frameAt_ok hframe) hbegins, ?_⟩
    cases handleControlFrame_obeys hcheck hhandle with
    | unknown u hd hout =>
      subst hd
      refine ⟨⟨?_, htrailing.goaways, htrailing.pushes⟩, hgoaways, hpushes⟩
      exact List.forall_mem_cons.mpr ⟨htype, htrailing.kinds⟩
    | goaway id hle hgoaway hpush hout =>
      rw [hpush] at hpushes
      have hfirst := hgoaways id hgoaway
      refine ⟨⟨List.forall_mem_cons.mpr ⟨trivial, htrailing.kinds⟩,
        .cons hfirst htrailing.goaways, htrailing.pushes⟩, fun prev hprev => ?_, hpushes⟩
      have hid := hle prev hprev
      refine List.forall_mem_cons.mpr ⟨hid, fun next hnext => ?_⟩
      exact Nat.le_trans (hfirst next hnext) hid
    | maxPushId id hrole hle hgoaway hpush hout =>
      rw [hgoaway] at hgoaways
      have hfirst := hpushes id hpush
      refine ⟨⟨List.forall_mem_cons.mpr ⟨hrole, htrailing.kinds⟩, htrailing.goaways,
        .cons hfirst htrailing.pushes⟩, hgoaways, fun prev hprev => ?_⟩
      have hid := hle prev hprev
      refine List.forall_mem_cons.mpr ⟨hid, fun next hnext => ?_⟩
      exact Nat.le_trans hid (hfirst next hnext)

/-- Frames behind SETTINGS only add: events, and a limit for pushes. -/
theorem run_grows (t : Core) (log : List Obs) (data : Bytes)
    (hready : t.controlRecv.recvState = .ready) :
    ((controlConsumer env).run (t, log) data).failure ≠ none ∨
      (∃ more, ((controlConsumer env).run (t, log) data).state.2 = log ++ more) ∧
        (t.maxPushId ≠ none →
          ((controlConsumer env).run (t, log) data).state.1.maxPushId ≠ none) := by
  refine ready_induct
    (P := fun t log data p => p.failure ≠ none ∨ (∃ more, p.state.2 = log ++ more) ∧
      (t.maxPushId ≠ none → p.state.1.maxPushId ≠ none))
    ?_ ?_ ?_ ?_ t log data hready
  · intro t log data _ _
    exact .inr ⟨⟨[], (List.append_nil log).symm⟩, id⟩
  · intro t log data code _ _
    exact .inl nofun
  · intro t log data frame n code d out _ _ _ _
    exact .inl nofun
  · intro t log data frame n d out _ _ hcheck hhandle _ ih
    obtain hfailure | ⟨⟨more, hmore⟩, hpush⟩ := ih
    · exact .inl hfailure
    · refine .inr ⟨⟨out ++ more, by rw [hmore, List.append_assoc]⟩, fun hsome => hpush ?_⟩
      cases handleControlFrame_obeys hcheck hhandle with
      | unknown u hd hout =>
        subst hd
        exact hsome
      | goaway id hle hgoaway hsame hout =>
        rw [hsame]
        exact hsome
      | maxPushId id hrole hle hgoaway hsame hout =>
        rw [hsame]
        nofun

/-- Unknown frames change nothing. -/
theorem run_idle {data : Bytes} (h : Idle data) (t : Core) (log : List Obs)
    (hready : t.controlRecv.recvState = .ready) :
    ∃ rest, (controlConsumer env).run (t, log) data = ⟨(t, log), rest, none⟩ := by
  have hrules := frameRules_ready hready
  induction h with
  | @ends data hnone =>
    have hwait : controlConsumer env (t, log) data = .wait := by
      rw [controlConsumer_ready hready, hrules, hnone]
    exact ⟨data, Consumer.run_wait hwait⟩
  | @unknown data u n hframe _ ih =>
    have htake : controlConsumer env (t, log) data = .take n (t, log) := by
      rw [controlConsumer_ready hready, hrules, hframe]
      show (Consumer.Answer.take n (t, log ++ []) : Consumer.Answer Error (Core × List Obs)) = _
      rw [List.append_nil]
    rw [Consumer.run_take (controlConsumer_stable env) htake]
    exact ih

/-- Other frames show. -/
theorem run_busy {data : Bytes} (h : ¬Idle data) (t : Core) (log : List Obs)
    (hready : t.controlRecv.recvState = .ready) :
    ((controlConsumer env).run (t, log) data).failure ≠ none ∨
      ((controlConsumer env).run (t, log) data).state.1.maxPushId ≠ none ∨
      (eventsOf log).length <
        (eventsOf ((controlConsumer env).run (t, log) data).state.2).length := by
  refine ready_induct
    (P := fun t log data p => ¬Idle data → p.failure ≠ none ∨ p.state.1.maxPushId ≠ none ∨
      (eventsOf log).length < (eventsOf p.state.2).length)
    ?_ ?_ ?_ ?_ t log data hready h
  · intro t log data hready hnone hbusy
    rw [frameRules_ready hready] at hnone
    exact absurd (.ends hnone) hbusy
  · intro t log data code _ _ _
    exact .inl (by simp)
  · intro t log data frame n code d out _ _ _ _ _
    exact .inl (by simp)
  · intro t log data frame n d out hready hframe hcheck hhandle hsame ih hbusy
    rw [frameRules_ready hready] at hframe
    have hnext : d.controlRecv.recvState = .ready := by
      rw [hsame]
      exact hready
    have hgrows := @run_grows env d (log ++ out) (data.drop n) hnext
    cases handleControlFrame_obeys hcheck hhandle with
    | unknown u hd hout =>
      subst hout
      rw [List.append_nil] at ih ⊢
      exact ih fun hidle => hbusy (.unknown hframe hidle)
    | goaway id hle hgoaway hpush hout =>
      obtain ⟨more, rfl⟩ := hout
      obtain hfailure | ⟨⟨rest, hrest⟩, -⟩ := hgrows
      · exact .inl hfailure
      · refine .inr (.inr ?_)
        rw [hrest, eventsOf_append, eventsOf_append]
        simp [eventsOf, Obs.toEvent?]
    | maxPushId id hrole hle hgoaway hpush hout =>
      obtain hfailure | ⟨-, hkept⟩ := hgrows
      · exact .inl hfailure
      · refine .inr (.inl (hkept ?_))
        rw [hpush]
        exact Option.some_ne_none id

end Order

/-! ## The stream in pieces -/

section Pieces

variable {cfg : Config} {order : HashOrder} {s : Nat} {c : Connection}

/-- SETTINGS leave the limits of GOAWAY and MAX_PUSH_ID alone. -/
theorem handleSettings_limits (env : Env) (settings : Settings) (t : Core) :
    (handleSettings env settings t).st.maxPushId = t.maxPushId := by
  have hR : Composes (fun c _ _ d => d.maxPushId = c.maxPushId : Flow Obs Core) :=
    ⟨fun _ _ => rfl, fun h h' => h'.trans h⟩
  have hkeeps : Keeps (fun c _ _ d => d.maxPushId = c.maxPushId : Flow Obs Core)
      (handleSettings env settings) := by
    have haloof : ∀ {x : CoreProc Unit}, Keeps Aloof x →
        Keeps (fun c _ _ d => d.maxPushId = c.maxPushId : Flow Obs Core) x :=
      fun h => h.mono fun _ _ _ _ hsame => hsame.maxPushId
    refine Keeps.bind hR (.get hR) fun c => .bind hR (.ofExcept hR _) fun qpack => ?_
    refine .bind hR (.modify fun c => rfl) fun _ => .bind hR (.ofExcept hR _) fun _ => ?_
    refine .bind hR (.modify fun c => rfl) fun _ => .bind hR (.emit fun c => rfl) fun _ => ?_
    exact .bind hR (haloof (processDeferredWtConnects_aloof env)) fun _ =>
      haloof (processPendingWtBidiPreNegotiation_aloof env)
  exact hkeeps t

/-- What an accepted stream reads is in order. -/
theorem heard_inOrder (hnew : c.core.controlRecv = .new) {body : Bytes}
    (hs : NewStream cfg.role s c.core) (hok : (heard cfg order s c body).failure = none) :
    ∃ frames, Begins body frames ∧ InOrder cfg.role frames := by
  obtain ⟨hnone, -⟩ | ⟨p, n, v, d, out, hframe, hhandle, hheard⟩ := heard_settings hnew hok
  · exact ⟨[], .nil (frameAt_none hnone), trivial⟩
  · rw [hheard] at hok
    have hready := (settings_listen hs hhandle).2
    obtain ⟨frames, hbegins, htrailing, -, -⟩ := run_trailing d out (body.drop n) hready hok
    exact ⟨.settings p :: frames, .cons (frameAt_ok hframe) hbegins, htrailing⟩

/-- What shows of a stream that is read to the end of what arrived. -/
def expected (cfg : Config) (order : HashOrder) (s : Nat) (c : Connection) (bytes : Bytes) : Seen :=
  match VarInt.decode bytes with
  | .error _ => seen c
  | .ok (_, k) =>
    if c.core.controlRecv.streamId.isSome then
      { seen c with error := some (.connectionError .streamCreationError) }
    else seenAfter c (heard cfg order s c (bytes.drop k))

/-- Valid SETTINGS refuse a CONNECT that waited for them, and more than unknown frames follow. -/
def Stalls (cfg : Config) (order : HashOrder) (c : Connection) (bytes : Bytes) : Prop :=
  c.error = none ∧ c.core.controlRecv.streamId = none ∧
    ∃ t k p n, VarInt.decode bytes = .ok (t, k) ∧
      decodeFrame (bytes.drop k) = .ok (.settings p, n) ∧
      Refuses (cfg.env order) c.core (.fromPayload p.settings) ∧ ¬Idle ((bytes.drop k).drop n)

/-- SETTINGS, released as the first frame of the stream. -/
theorem settings_refuse (hids : IdsFit none c.core) {p : SettingsPayload} :
    (∃ e d out, handleControlFrame (cfg.env order) (.settings p)
      (setRecvState .ready (openControl s c.core)) = ⟨.error e, d, out⟩ ∧ ¬Closes e) ↔
      Refuses (cfg.env order) c.core (.fromPayload p.settings) := by
  rw [← handleSettings_refuses (cfg.env order) hids]
  have hput : setRecvState .ready (openControl s c.core) =
      aside ((setRecvState .ready (openControl s c.core)).controlRecv, c.core.ignoredUniStreams)
        c.core := rfl
  have hblind : (handleControlFrame (cfg.env order) (.settings p)
      (setRecvState .ready (openControl s c.core))).val =
        (handleSettings (cfg.env order) (.fromPayload p.settings) c.core).val := by
    rw [hput, handleControlFrame_blind]
    rfl
  constructor
  · rintro ⟨e, d, out, hhandle, hopen⟩
    refine ⟨e, ?_, hopen⟩
    rw [← hblind, hhandle]
  · rintro ⟨e, he, hopen⟩
    rw [← hblind] at he
    rcases hhandle : handleControlFrame (cfg.env order) (.settings p)
      (setRecvState .ready (openControl s c.core)) with ⟨v, d, out⟩
    rw [hhandle] at he
    dsimp only at he
    exact ⟨e, d, out, by rw [he], hopen⟩

/-- Without a stall everything that arrived was read. -/
theorem seen_expected (hs : NewStream cfg.role s c.core) (hopen : c.error = none)
    (hunopened : Unopened c.core) (hids : IdsFit none c.core) {bytes : Bytes} {d : Connection}
    (h : Follows cfg order s c bytes d) (hstalls : ¬Stalls cfg order c bytes) :
    seen d = expected cfg order s c bytes := by
  unfold expected
  cases h with
  | untyped herror =>
    rw [herror]
    unfold waiting
    by_cases hbytes : bytes = []
    · simp only [hbytes, if_true]
    · simp only [hbytes, if_false]
      rfl
  | again htype hsome hseen =>
    rw [htype]
    simp only [hsome, if_true]
    exact hseen
  | @first t k htype hnew hwait =>
    have hconsumer : controlConsumer (cfg.env order) (openControl s c.core, []) (bytes.drop k) =
        .wait := by
      rw [controlConsumer_eq, hwait]
    simp only [htype, hnew, Option.isSome_none, Bool.false_eq_true, if_false, heard,
      Consumer.run_wait hconsumer]
    show (⟨c.events, _, _, _, _⟩ : Seen) = ⟨c.events ++ [], _, _, _, _⟩
    rw [List.append_nil]
    rfl
  | ready htype hnew hrun hlistens hready =>
    simp only [htype, hnew, Option.isSome_none, Bool.false_eq_true, if_false, hrun]
    rfl
  | failed htype hnew hfailure hseen =>
    simp only [htype, hnew, Option.isSome_none, Bool.false_eq_true, if_false]
    exact hseen
  | @refused t k n p e d out htype hnew hframe hhandle hopen' =>
    have hrefuses := (settings_refuse hids).mp ⟨e, d, out, hhandle, hopen'⟩
    have hidle : Idle ((bytes.drop k).drop n) := by
      by_contra hbusy
      exact hstalls ⟨hopen, hnew, t, k, p, n, htype, frameAt_ok hframe, hrefuses, hbusy⟩
    have hready := (settings_listen hs hhandle).2
    have hfirst := openControl_first (s := s) (hunopened hnew).1
    have hheard := run_first_refused hfirst hframe hopen' hhandle
    obtain ⟨rest, hrest⟩ := @run_idle (cfg.env order) _ hidle d out hready
    simp only [htype, hnew, Option.isSome_none, Bool.false_eq_true, if_false, heard, hheard, hrest]
    rfl

/-- A complete SETTINGS frame is never held back. -/
theorem frameAt_settings (r : ControlStreamRecv) {data : Bytes} {p : SettingsPayload} {n : Nat}
    (h : decodeFrame data = .ok (.settings p, n)) :
    frameAt r.frameRules data = some (.ok (.settings p, n)) := by
  have htype : (Frame.settings p).frameType.get = 0x04 := rfl
  rw [frameAt_decoded r.frameRules h, htype]
  rfl

/-- The first piece of a new stream, with its type and SETTINGS that are refused. -/
theorem hear_refused_new (hs : NewStream cfg.role s c.core) (hopen : c.error = none)
    (hnew : c.core.controlRecv = .new) {data : Bytes} {t : VarInt} {k n : Nat}
    {p : SettingsPayload} (hdecode : VarInt.decode data = .ok (t, k)) (htype : t.get = 0)
    (hframe : decodeFrame (data.drop k) = .ok (.settings p, n)) {e : Error} {d : Core}
    {out : List Obs}
    (hhandle : handleControlFrame (cfg.env order) (.settings p)
      (setRecvState .ready (openControl s c.core)) = ⟨.error e, d, out⟩) (hopen' : ¬Closes e) :
    hear cfg order s c data =
      ⟨withBuffer ((data.drop k).drop n) d, c.events ++ eventsOf out, none⟩ := by
  have hdata : data ≠ [] := by
    rintro rfl
    cases hdecode
  have hcore : (waiting s c []).core = c.core := rfl
  have hrun := @waiting_typed cfg order s c hs [] data hdata t k hdecode htype
  rw [hcore, List.nil_append, openUniStream_control _ hnew] at hrun
  exact hear_refused hnew hopen (frameAt_settings _ hframe) hhandle hopen' hrun

/-- A stream that is cut behind SETTINGS shows more than one that is not. -/
theorem stall_shows (hs : NewStream cfg.role s c.core) (hunopened : Unopened c.core)
    (hids : IdsFit none c.core) {bytes : Bytes}
    (htype : ∀ t k, VarInt.decode bytes = .ok (t, k) → t.get = 0)
    (hstalls : Stalls cfg order c bytes) :
    ∃ pieces, pieces.flatten = bytes ∧
      seen (hearAll cfg order s c pieces) ≠ seen (hearAll cfg order s c [bytes]) := by
  obtain ⟨hopen, hnone, t, k, p, n, hdecode, hframe, hrefuses, hbusy⟩ := hstalls
  obtain ⟨hnew, -, -, hpush⟩ := hunopened hnone
  obtain ⟨e, d, out, hhandle, hopen'⟩ := (settings_refuse (s := s) hids).mpr hrefuses
  obtain ⟨hlistens, hready⟩ := settings_listen hs hhandle
  have hzero := htype t k hdecode
  have hdpush : d.maxPushId = none := by
    have hlimits := handleSettings_limits (cfg.env order) (.fromPayload p.settings)
      (setRecvState .ready (openControl s c.core))
    have hsettings : handleSettings (cfg.env order) (.fromPayload p.settings)
      (setRecvState .ready (openControl s c.core)) = ⟨.error e, d, out⟩ := hhandle
    rw [hsettings] at hlimits
    exact hlimits.trans hpush
  -- the piece that ends with SETTINGS
  have hfirst : hear cfg order s c (bytes.take (k + n)) =
      ⟨withBuffer [] d, c.events ++ eventsOf out, none⟩ := by
    have hdrop : (bytes.take (k + n)).drop k = (bytes.drop k).take n := by
      rw [List.drop_take, Nat.add_sub_cancel_left]
    have hempty : ((bytes.drop k).take n).drop n = [] := List.drop_take_self ..
    have hdecode' := VarInt.decode_take hdecode (Nat.le_add_right k n)
    have hframe' : decodeFrame ((bytes.take (k + n)).drop k) = .ok (.settings p, n) :=
      hdrop.symm ▸ decodeFrame_take hframe
    have hhear := hear_refused_new hs hopen hnew hdecode' hzero hframe' hhandle hopen'
    rwa [hdrop, hempty] at hhear
  have hwhole : hear cfg order s c bytes =
      ⟨withBuffer ((bytes.drop k).drop n) d, c.events ++ eventsOf out, none⟩ :=
    hear_refused_new hs hopen hnew hdecode hzero hframe hhandle hopen'
  -- the piece behind it
  have hdata : (bytes.drop k).drop n ≠ [] := by
    intro hnil
    exact hbusy (hnil ▸ .ends rfl)
  have hrun : feedStreamInner (cfg.env order) s ((bytes.drop k).drop n) false (withBuffer [] d) =
      loop (processControlFrame (cfg.env order)) (((bytes.drop k).drop n).length + 1)
        (withBuffer ((bytes.drop k).drop n) d) := by
    rw [feedStreamInner_uni _ hs.uni]
    exact handleUnidirectionalStream_control _ hlistens hs.peer hdata []
  have hran := @loop_ran (cfg.env order) d ((bytes.drop k).drop n) out hready _
    (Nat.lt_succ_self _)
  have hsecond : seen (hear cfg order s ⟨withBuffer [] d, c.events ++ eventsOf out, none⟩
      ((bytes.drop k).drop n)) =
        seenAfter c ((controlConsumer (cfg.env order)).run (d, out) ((bytes.drop k).drop n)) := by
    obtain ⟨hfailure, hconn⟩ | ⟨code, -, hseen⟩ := hear_ran (c := c)
      (d := ⟨withBuffer [] d, c.events ++ eventsOf out, none⟩) hran hrun rfl rfl
    · rw [hconn, seenAfter, hfailure]
      rfl
    · exact hseen
  refine ⟨[bytes.take (k + n), (bytes.drop k).drop n], ?_, ?_⟩
  · rw [List.drop_drop]
    simp only [List.flatten_cons, List.flatten_nil, List.append_nil, List.take_append_drop]
  · intro hsame
    have hpieces : seen (hear cfg order s (hear cfg order s c (bytes.take (k + n)))
        ((bytes.drop k).drop n)) = seen (hear cfg order s c bytes) := hsame
    rw [hfirst, hsecond, hwhole] at hpieces
    obtain hfailure | hmax | hlonger := run_busy hbusy d out hready
    · exact hfailure (congrArg Seen.error hpieces)
    · exact hmax ((congrArg Seen.maxPushId hpieces).trans hdpush)
    · have hevents : c.events ++ eventsOf _ = c.events ++ eventsOf out :=
        congrArg Seen.events hpieces
      rw [List.append_cancel_left hevents] at hlonger
      exact Nat.lt_irrefl _ hlonger

theorem hearAll_failed {e : Error} (h : c.error = some e) (pieces : List Bytes) :
    hearAll cfg order s c pieces = c := by
  induction pieces with
  | nil => rfl
  | cons piece pieces ih =>
    have hfailed : hear cfg order s c piece = c := hear_failed h piece
    show hearAll cfg order s (hear cfg order s c piece) pieces = c
    rw [hfailed]
    exact ih

variable (cfg order s c) (bytes : Bytes)

/-- How the bytes are cut does not show. -/
def CutUnseen : Prop :=
  ∀ pieces pieces' : List Bytes, pieces.flatten = bytes → pieces'.flatten = bytes →
    seen (hearAll cfg order s c pieces) = seen (hearAll cfg order s c pieces')

/-- Without an error the frames behind the type are in order. -/
def OrderedUnlessFailed : Prop :=
  ∀ pieces : List Bytes, pieces.flatten = bytes → (hearAll cfg order s c pieces).error = none →
    ∀ t k, VarInt.decode bytes = .ok (t, k) →
      ∃ frames, Begins (bytes.drop k) frames ∧ InOrder cfg.role frames

variable {cfg order s c bytes}

/-- Without a stall every division comes to the same end. -/
theorem hearAll_expected (hs : NewStream cfg.role s c.core) (hopen : c.error = none)
    (hunopened : Unopened c.core) (hids : IdsFit none c.core)
    (htype : ∀ t k, VarInt.decode bytes = .ok (t, k) → t.get = 0)
    (hstalls : ¬Stalls cfg order c bytes) {pieces : List Bytes} (hpieces : pieces.flatten = bytes) :
    seen (hearAll cfg order s c pieces) = expected cfg order s c bytes := by
  subst hpieces
  have hnil : Follows cfg order s c [] c := follows_nil s c
  have hfollows := hnil.hearAll hs hopen hunopened pieces
    (by rwa [List.nil_append])
  rw [List.nil_append] at hfollows
  exact seen_expected hs hopen hunopened hids hfollows hstalls

theorem expected_inOrder (hs : NewStream cfg.role s c.core) (hunopened : Unopened c.core)
    (hok : (expected cfg order s c bytes).error = none) {t : VarInt} {k : Nat}
    (hdecode : VarInt.decode bytes = .ok (t, k)) :
    ∃ frames, Begins (bytes.drop k) frames ∧ InOrder cfg.role frames := by
  rw [expected, hdecode] at hok
  cases hstream : c.core.controlRecv.streamId with
  | some other =>
    rw [hstream] at hok
    cases hok
  | none =>
    rw [hstream] at hok
    exact @heard_inOrder _ order _ _ (hunopened hstream).1 _ hs hok

end Pieces

/-- How a control stream is cut does not show, and without an error its frames were in order,
exactly when no SETTINGS that refuse a CONNECT are followed by more than unknown frames. -/
theorem control_stream_in_pieces {cfg : Config} {c₀ : Connection} {is : List Input}
    (hnew : Connection.new cfg = .ok c₀)
    (his : EveryStep cfg (fun c i => withinLimits c i.call = true) c₀ is) (order : HashOrder)
    {s : Nat} (hs : NewStream cfg.role s (after cfg c₀ is).core) {bytes : Bytes}
    (htype : ∀ t k, VarInt.decode bytes = .ok (t, k) → t.get = 0) :
    CutUnseen cfg order s (after cfg c₀ is) bytes ∧
        OrderedUnlessFailed cfg order s (after cfg c₀ is) bytes ↔
      ¬Stalls cfg order (after cfg c₀ is) bytes := by
  have hsound : Sound (after cfg c₀ is) :=
    his.inv (I := Sound) (fun _ _ hc hi => (feed_sound hc hi).1) (.new hnew)
  have hunopened : Unopened (after cfg c₀ is).core := Reachable.unopened ⟨c₀, is, hnew, rfl⟩
  constructor
  · rintro ⟨hcut, -⟩ hstalls
    obtain ⟨pieces, hpieces, hshows⟩ := stall_shows hs hunopened hsound.ids htype hstalls
    exact hshows (hcut pieces [bytes] hpieces (List.append_nil bytes))
  · intro hstalls
    cases hopen : (after cfg c₀ is).error with
    | some e =>
      refine ⟨fun pieces pieces' _ _ => ?_, fun pieces _ hok => ?_⟩
      · rw [hearAll_failed hopen, hearAll_failed hopen]
      · rw [hearAll_failed hopen, hopen] at hok
        cases hok
    | none =>
      have hend := @hearAll_expected _ order _ _ _ hs hopen hunopened hsound.ids htype hstalls
      refine ⟨fun pieces pieces' h h' => ?_, fun pieces h hok t k hdecode => ?_⟩
      · rw [hend h, hend h']
      · have hexpected := congrArg Seen.error (hend h)
        exact expected_inOrder hs hunopened (hexpected.symm.trans hok) hdecode

theorem not_stalls_of_none {cfg : Config} {order : HashOrder} {c : Connection}
    (h : c.core.wt.deferredWtConnects.keys = []) (bytes : Bytes) : ¬Stalls cfg order c bytes := by
  rintro ⟨-, -, -, -, -, -, -, -, ⟨d, -, hnot⟩, -⟩
  have hwalk := (cfg.env order).order.perm .deferredWtConnects c.core.wt.deferredWtConnects.keys
  rw [h] at hnot hwalk
  rw [hwalk.eq_nil] at hnot
  exact hnot trivial

/-- SETTINGS and GOAWAY for a new server. -/
theorem control_stream_in_pieces_new :
    ∃ c, Connection.new Sample.server = .ok c ∧
      CutUnseen Sample.server .asListed 2 c (0 :: soleSessionControl) ∧
      OrderedUnlessFailed Sample.server .asListed 2 c (0 :: soleSessionControl) := by
  obtain ⟨c, hc, h⟩ := Sample.of_holdsAfter Sample.server []
    (p := fun c => decide (NewStream .server 2 c.core ∧ c.core.wt.deferredWtConnects.keys = []))
    (by decide +kernel)
  obtain ⟨hs, hnone⟩ := of_decide_eq_true h
  have htype : ∀ t k, VarInt.decode (0 :: soleSessionControl) = .ok (t, k) → t.get = 0 := by
    intro t k hdecode
    cases hdecode
    rfl
  have hiff := @control_stream_in_pieces Sample.server c [] hc trivial .asListed 2 hs _ htype
  exact ⟨c, hc, hiff.mpr (not_stalls_of_none hnone _)⟩

/-- Two CONNECTs before the control stream. -/
def connectsFirst : List Call :=
  .setWebtransportTransportVerified true true ::
    [0, 4].map fun s => .feedStream s (Sample.headersBytes Sample.webTransportHeaders) false

/-- GOAWAY shows only when it comes with a call of its own. -/
theorem goaway_behind_refusal :
    ¬∀ cfg c₀ is order s bytes, Connection.new cfg = .ok c₀ →
      EveryStep cfg (fun c i => withinLimits c i.call = true) c₀ is →
      NewStream cfg.role s (after cfg c₀ is).core →
      (∀ t k, VarInt.decode bytes = .ok (t, k) → t.get = 0) →
      CutUnseen cfg order s (after cfg c₀ is) bytes ∧
        OrderedUnlessFailed cfg order s (after cfg c₀ is) bytes := by
  intro hall
  obtain ⟨c₀, hc, h⟩ := Sample.of_holdsAfter Sample.server []
    (p := fun c₀ =>
      let is := connectsFirst.map Call.listed
      let c := after Sample.server c₀ is
      let n := soleSessionControl.length
      decide (EveryStep Sample.server (fun c i => withinLimits c i.call = true) c₀ is ∧
        NewStream .server 2 c.core ∧
        (hearAll Sample.server .asListed 2 c
          [0 :: soleSessionControl.take (n - 3), soleSessionControl.drop (n - 3)]).core.peerGoawayLastId ≠
        (hearAll Sample.server .asListed 2 c [0 :: soleSessionControl]).core.peerGoawayLastId))
    (by decide +kernel)
  obtain ⟨hlimits, hs, hshows⟩ := of_decide_eq_true h
  have htype : ∀ t k, VarInt.decode (0 :: soleSessionControl) = .ok (t, k) → t.get = 0 := by
    intro t k hdecode
    cases hdecode
    rfl
  have hcut := (hall _ _ _ .asListed 2 _ hc hlimits hs htype).1
  refine hshows (congrArg Seen.peerGoawayLastId (hcut _ _ ?_ ?_))
  · simp only [List.flatten_cons, List.flatten_nil, List.append_nil, List.cons_append,
      List.take_append_drop]
  · simp only [List.flatten_cons, List.flatten_nil, List.append_nil]

end Connection

end Http3
