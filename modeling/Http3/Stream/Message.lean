import Http3.Codec
import Http3.Stream.Drain

/-!
# What a request stream accepts

The frames of a message follow a grammar: informational HEADERS, HEADERS, DATA, and perhaps
trailers, with unknown frames anywhere between them. A stream that ends is read without an error
exactly when its bytes are such frames.
-/

namespace Http3

open Bytes

/-- The bytes are these frames, one after the other and all complete. -/
inductive Framed : Bytes → List Frame → Prop
  | nil : Framed [] []
  | cons {bytes : Bytes} {frame : Frame} {n : Nat} {frames : List Frame}
      (head : decodeFrame bytes = .ok (frame, n)) (tail : Framed (bytes.drop n) frames) :
      Framed bytes (frame :: frames)

/-- A frame that can be read is the first one. -/
theorem Framed.of_decode {bytes : Bytes} {frame : Frame} {n : Nat} {frames : List Frame}
    (h : decodeFrame bytes = .ok (frame, n)) (hframed : Framed bytes frames) :
    ∃ rest, frames = frame :: rest ∧ Framed (bytes.drop n) rest := by
  cases hframed with
  | nil => cases h
  | cons head tail =>
    cases h.symm.trans head
    exact ⟨_, rfl, tail⟩

theorem fromType_code {t : Nat} {ft : FrameType} (h : FrameType.fromType t = some ft) :
    ft.code.get = t := by
  unfold FrameType.fromType at h
  split at h <;> cases h <;> rfl

theorem decodePayload_frameType {t : VarInt} {hn : FrameType.isHttp2Only t.get = false}
    {payload : Bytes} {frame : Frame} (h : decodePayload t hn payload = .ok frame) :
    frame.frameType.get = t.get := by
  unfold decodePayload at h
  split at h
  · cases h
    exact fromType_code ‹_›
  · cases h
    exact fromType_code ‹_›
  · simp only [decodeSettingsFrame] at h
    cases hp : decodeSettingsLoop .new payload.length payload <;> rw [hp] at h <;> cases h
    exact fromType_code ‹_›
  · simp only [decodeGoawayFrame] at h
    cases hp : decodeSingleVarInt payload <;> rw [hp] at h <;> cases h
    exact fromType_code ‹_›
  · simp only [decodeMaxPushIdFrame] at h
    cases hp : decodeSingleVarInt payload <;> rw [hp] at h <;> cases h
    exact fromType_code ‹_›
  · cases h
  · cases h
  · cases h
    rfl

/-- A complete frame is at the front unless the rules forbid its type. -/
theorem frameAt_decoded (rules : FrameRules) {bytes : Bytes} {frame : Frame} {n : Nat}
    (h : decodeFrame bytes = .ok (frame, n)) :
    frameAt rules bytes =
      match if frame.frameType.get = 0x41 then rules.wtStream else none with
      | some e => some (.error e)
      | none =>
        match if frame.frameType.get = 0x04 then rules.settings else none with
        | some e => some (.error e)
        | none => some (.ok (frame, n)) := by
  obtain ⟨header, hheader, hn, hle⟩ := decodeFrame_length h
  have htype : frame.frameType.get = header.frameType.get := by
    rw [decodeFrame_of_header hheader, if_neg (Nat.not_lt.mpr (hn ▸ hle))] at h
    cases hp : decodePayload header.frameType (decodeFrameHeader_notHttp2 hheader)
        ((bytes.take header.totalLen).drop header.headerLen) with
    | error e =>
      rw [hp] at h
      cases h
    | ok f =>
      rw [hp] at h
      cases h
      exact decodePayload_frameType hp
  have hlen : ¬bytes.length < header.totalLen := Nat.not_lt.mpr (hn ▸ hle)
  have hwt : isWtStreamFrameType bytes = true ↔ frame.frameType.get = 0x41 := by
    rw [isWtStreamFrameType_of_header hheader, htype, beq_iff_eq]
  simp only [frameAt, hwt, hheader, if_neg hlen, ← htype, h]
  rfl

/-! ## Frames that are taken -/

/-- WT_STREAM stands first, if anywhere, and only where `first` allows it. -/
def SignalFirst (first : Bool) : List Frame → Prop
  | [] => True
  | frame :: frames =>
    (frame.frameType.get = 0x41 → first = true) ∧ ∀ frame ∈ frames, frame.frameType.get ≠ 0x41

theorem signalFirst_cons (first : Bool) (frame : Frame) (frames : List Frame) :
    SignalFirst first (frame :: frames) ↔
      (frame.frameType.get = 0x41 → first = true) ∧ SignalFirst false frames := by
  cases frames with
  | nil => simp [SignalFirst]
  | cons next frames => simp [SignalFirst]

namespace RequestStream

variable (informational : List RawReceivedData → Bool)

/-- The stream takes these frames, and may end after them. -/
def Accepts : RequestStream → List RawReceivedData → List Frame → Prop
  | s, _, [] => s.recvState ≠ .waitingHeaders
  | s, log, frame :: frames =>
    match s.seen.processFrame frame with
    | (.error _, _) => False
    | (.ok none, t) => Accepts t log frames
    | (.ok (some item), t) =>
      Accepts (inform informational t (log ++ [item]) item) (log ++ [item]) frames

theorem settings_of_type {frame : Frame} (h : frame.frameType.get = 0x04) :
    ∃ p, frame = .settings p := by
  cases frame with
  | settings p => exact ⟨p, rfl⟩
  | unknown u =>
    have hunknown := u.unknown
    have hget : u.frameType.get = 0x04 := h
    rw [hget] at hunknown
    cases hunknown
  | _ => cases h

/-- A complete frame is taken unless it is WT_STREAM in the wrong place, or SETTINGS. -/
theorem frameAt_request (s : RequestStream) {data : Bytes} {frame : Frame} {n : Nat}
    (h : decodeFrame data = .ok (frame, n)) :
    frameAt s.frameRules data =
      if (frame.frameType.get = 0x41 → s.serverFirstFrame = true) ∧
          ¬frame.frameType.get = 0x04 then some (.ok (frame, n))
      else some (.error (.connectionError .frameUnexpected)) := by
  rw [frameAt_decoded s.frameRules h]
  simp only [frameRules]
  by_cases hwt : frame.frameType.get = 0x41
  · cases hfirst : s.serverFirstFrame <;> simp [hwt]
  · by_cases hsettings : frame.frameType.get = 0x04 <;> simp [hwt, hsettings]

/-- After the first frame there is no other. -/
theorem processFrame_notFirst (s : RequestStream) (frame : Frame) :
    (s.seen.processFrame frame).2.serverFirstFrame = false := by
  have hseen : s.seen.serverFirstFrame = false := by
    simp [serverFirstFrame, seen]
  cases frame with
  | headers encoded =>
    simp only [processFrame, processHeaders]
    split
    · exact hseen
    · split <;> exact hseen
    · exact hseen
    · exact hseen
  | data payload =>
    simp only [processFrame, processData]
    split
    · exact hseen
    · split
      · exact hseen
      · split <;> exact hseen
  | _ => exact hseen

theorem inform_serverFirstFrame (s : RequestStream) (log : List RawReceivedData)
    (item : RawReceivedData) :
    (inform informational s log item).serverFirstFrame = s.serverFirstFrame := by
  cases item with
  | headers encoded =>
    simp only [inform, notifyInformational]
    split
    · split <;> rfl
    · rfl
  | _ => rfl

/-- No error was met. -/
def EndsWell (r : Received) : Prop := ∃ t, r.2 = .ok t

theorem finishAt_endsWell (s : RequestStream) (log : List RawReceivedData) (rest : Bytes) :
    EndsWell (s.finishAt log rest) ↔ rest = [] ∧ s.recvState ≠ .waitingHeaders := by
  unfold finishAt EndsWell
  by_cases hrest : rest = []
  · subst hrest
    by_cases hcomplete : s.recvState = .complete
    · simp [hcomplete]
    · by_cases hwaiting : s.recvState = .waitingHeaders <;> simp [hcomplete, hwaiting]
  · simp [hrest]

/-- A stream with a frame that it does not take is in error. -/
theorem not_accepted {s : RequestStream} {log : List RawReceivedData} {data : Bytes}
    (h : ∀ frame n, decodeFrame data = .ok (frame, n) →
      (frame.frameType.get = 0x41 → s.serverFirstFrame = true) →
        ∃ e, (s.seen.processFrame frame).1 = .error e)
    (hempty : data ≠ []) :
    ¬∃ frames, Framed data frames ∧ SignalFirst s.serverFirstFrame frames ∧
      Accepts informational s log frames := by
  rintro ⟨frames, hframed, hsignal, haccepts⟩
  cases hframed with
  | nil => exact hempty rfl
  | cons head tail =>
    obtain ⟨e, he⟩ := h _ _ head ((signalFirst_cons _ _ _).mp hsignal).1
    unfold Accepts at haccepts
    split at haccepts
    · exact haccepts
    · rename_i heq
      rw [heq] at he
      cases he
    · rename_i heq
      rw [heq] at he
      cases he

/-- What the consumer takes is one frame of those that the stream accepts. -/
theorem accepts_cons {s t : RequestStream} {log log' : List RawReceivedData} {frame : Frame}
    (h : (s.seen.processFrame frame = (.ok none, t) ∧ log' = log) ∨
      ∃ item u, s.seen.processFrame frame = (.ok (some item), u) ∧ log' = log ++ [item] ∧
        t = inform informational u log' item) (frames : List Frame) :
    Accepts informational s log (frame :: frames) ↔ Accepts informational t log' frames := by
  obtain ⟨hp, rfl⟩ | ⟨item, u, hp, rfl, rfl⟩ := h
  · simp only [Accepts, hp]
  · simp only [Accepts, hp]

theorem run_endsWell (s : RequestStream) (log : List RawReceivedData) (data : Bytes) :
    EndsWell (settle true ((consumer informational).run (s, log) data)) ↔
      ∃ frames, Framed data frames ∧ SignalFirst s.serverFirstFrame frames ∧
        Accepts informational s log frames := by
  refine Consumer.run_induct (consumer_stable informational)
    (P := fun s data p => EndsWell (settle true p) ↔
      ∃ frames, Framed data frames ∧ SignalFirst s.1.serverFirstFrame frames ∧
        Accepts informational s.1 s.2 frames)
    ?_ ?_ ?_ (s, log) data
  · rintro ⟨s, log⟩ data hwait
    have hnone := (consumer_wait informational).mp hwait
    simp only [settle, if_true, finishAt_endsWell]
    constructor
    · rintro ⟨rfl, hstate⟩
      exact ⟨[], .nil, trivial, hstate⟩
    · rintro ⟨frames, hframed, -, haccepts⟩
      cases hframed with
      | nil => exact ⟨rfl, haccepts⟩
      | cons head tail =>
        rw [frameAt_request s head] at hnone
        split at hnone <;> cases hnone
  · rintro ⟨s, log⟩ data e r hfail
    have hbad : ¬EndsWell (settle true ⟨r, [], some e⟩) := by
      rintro ⟨t, ht⟩
      cases ht
    refine iff_of_false hbad (not_accepted informational ?_ ?_)
    · intro frame n head hallowed
      have hframe := frameAt_request s head
      obtain ⟨-, herror | ⟨frame', n', hok, he⟩⟩ := consumer_fail informational hfail
      · rw [herror] at hframe
        split at hframe
        · cases hframe
        · rename_i hnot
          obtain ⟨p, rfl⟩ := settings_of_type (not_not.mp fun h => hnot ⟨hallowed, h⟩)
          exact ⟨_, rfl⟩
      · have hdecode := frameAt_ok hok
        cases head.symm.trans hdecode
        exact ⟨e, he⟩
    · rintro rfl
      have hwait : consumer informational (s, log) [] = .wait :=
        (consumer_wait informational).mpr rfl
      cases hwait.symm.trans hfail
  · rintro ⟨s, log⟩ data n ⟨r, log'⟩ htake ih
    obtain ⟨frame, t, hframe, hcase⟩ := consumer_take informational htake
    have hdecode := frameAt_ok hframe
    have hallowed : frame.frameType.get = 0x41 → s.serverFirstFrame = true := by
      by_contra hnot
      rw [frameAt_request s hdecode, if_neg fun h => hnot h.1] at hframe
      cases hframe
    have hfirst : r.serverFirstFrame = false := by
      have hseen := processFrame_notFirst s frame
      obtain ⟨hp, hr⟩ | ⟨item, hp, hr⟩ := hcase
      · cases hr
        rw [hp] at hseen
        exact hseen
      · cases hr
        rw [hp] at hseen
        rw [inform_serverFirstFrame]
        exact hseen
    have haccepts : ∀ frames, Accepts informational s log (frame :: frames) ↔
        Accepts informational r log' frames := by
      refine accepts_cons informational ?_
      obtain ⟨hp, hr⟩ | ⟨item, hp, hr⟩ := hcase
      · cases hr
        exact .inl ⟨hp, rfl⟩
      · cases hr
        exact .inr ⟨item, t, hp, rfl, rfl⟩
    rw [ih]
    constructor
    · rintro ⟨frames, hframed, hsignal, hrest⟩
      refine ⟨frame :: frames, .cons hdecode hframed, ?_, (haccepts frames).mpr hrest⟩
      exact (signalFirst_cons _ _ _).mpr ⟨hallowed, hfirst ▸ hsignal⟩
    · rintro ⟨frames, hframed, hsignal, hrest⟩
      obtain ⟨rest, rfl, htail⟩ := hframed.of_decode hdecode
      rw [hfirst]
      exact ⟨rest, htail, ((signalFirst_cons _ _ _).mp hsignal).2, (haccepts rest).mp hrest⟩

end RequestStream

/-! ## The grammar -/

/-- All frames but the unknown ones. -/
def messageFrames (frames : List Frame) : List Frame :=
  frames.filter fun frame => match frame with
    | .unknown _ => false
    | _ => true

/-- Data, and trailers unless the stream is a CONNECT. -/
def IsBody (isConnect : Bool) (limit : Option Nat) (frames : List Frame) : Prop :=
  ∃ body trailers : List Bytes, frames = body.map .data ++ trailers.map .headers ∧
    trailers.length ≤ (if isConnect then 0 else 1) ∧
    ∀ max ∈ limit, (body.map List.length).sum ≤ max

/-- Informational HEADERS, HEADERS, DATA and trailers, after what is in `log`. -/
def IsMessage (informational : List RawReceivedData → Bool) (isConnect : Bool)
    (limit : Option Nat) (log : List RawReceivedData) (frames : List Frame) : Prop :=
  ∃ (interim : List Bytes) (final : Bytes) (rest : List Frame),
    frames = interim.map .headers ++ .headers final :: rest ∧
    (∀ i < interim.length, informational (log ++ (interim.take (i + 1)).map .headers) = true) ∧
    informational (log ++ (interim ++ [final]).map .headers) = false ∧
    IsBody isConnect limit rest

section Grammar

variable {informational : List RawReceivedData → Bool} {isConnect : Bool} {limit : Option Nat}
  {log : List RawReceivedData} {frame : Frame} {frames : List Frame}

@[simp] theorem messageFrames_nil : messageFrames [] = [] := rfl

@[simp] theorem messageFrames_unknown (u : UnknownFrame) :
    messageFrames (.unknown u :: frames) = messageFrames frames := rfl

theorem messageFrames_cons (h : ∀ u, frame ≠ .unknown u) :
    messageFrames (frame :: frames) = frame :: messageFrames frames := by
  cases frame with
  | unknown u => exact absurd rfl (h u)
  | _ => rfl

theorem isBody_nil : IsBody isConnect limit [] :=
  ⟨[], [], rfl, Nat.zero_le _, fun max _ => Nat.zero_le max⟩

theorem isBody_data {payload : Bytes} :
    IsBody isConnect limit (.data payload :: frames) ↔
      (∀ max ∈ limit, payload.length ≤ max) ∧
        IsBody isConnect (limit.map (· - payload.length)) frames := by
  constructor
  · rintro ⟨body, trailers, hframes, htrailers, hlimit⟩
    cases body with
    | nil => cases trailers <;> cases hframes
    | cons first body =>
      obtain ⟨hfirst, htail⟩ := List.cons.inj hframes
      cases hfirst
      simp only [List.map_cons, List.sum_cons] at hlimit
      refine ⟨fun max hmax => ?_, body, trailers, htail, htrailers, fun max hmax => ?_⟩
      · have := hlimit max hmax
        omega
      · obtain ⟨max', hmax', rfl⟩ := Option.mem_map.mp hmax
        have := hlimit max' hmax'
        omega
  · rintro ⟨hfirst, body, trailers, rfl, htrailers, hlimit⟩
    refine ⟨payload :: body, trailers, rfl, htrailers, fun max hmax => ?_⟩
    have hfirst := hfirst max hmax
    have hlimit := hlimit _ (Option.mem_map.mpr ⟨max, hmax, rfl⟩)
    simp only [List.map_cons, List.sum_cons]
    omega

theorem isBody_headers {encoded : Bytes} :
    IsBody isConnect limit (.headers encoded :: frames) ↔ isConnect = false ∧ frames = [] := by
  constructor
  · rintro ⟨body, trailers, hframes, htrailers, -⟩
    cases body with
    | cons first body => cases hframes
    | nil =>
      cases trailers with
      | nil => cases hframes
      | cons first trailers =>
        cases isConnect with
        | true => simp at htrailers
        | false =>
          obtain ⟨-, rfl⟩ := List.cons.inj hframes
          have hnil : trailers = [] := by simpa using htrailers
          subst hnil
          exact ⟨rfl, rfl⟩
  · rintro ⟨rfl, rfl⟩
    exact ⟨[], [encoded], rfl, Nat.le_refl _, fun max _ => Nat.zero_le max⟩

/-- Nothing else is in a body. -/
theorem not_isBody (hdata : ∀ p, frame ≠ .data p) (hheaders : ∀ e, frame ≠ .headers e) :
    ¬IsBody isConnect limit (frame :: frames) := by
  rintro ⟨body, trailers, hframes, -, -⟩
  cases body with
  | cons first body => exact hdata first (List.cons.inj hframes).1
  | nil =>
    cases trailers with
    | nil => cases hframes
    | cons first trailers => exact hheaders first (List.cons.inj hframes).1

theorem not_isMessage_nil : ¬IsMessage informational isConnect limit log [] := by
  rintro ⟨interim, final, rest, hframes, -, -, -⟩
  cases interim <;> cases hframes

theorem isMessage_headers {encoded : Bytes} :
    IsMessage informational isConnect limit log (.headers encoded :: frames) ↔
      if informational (log ++ [.headers encoded]) then
        IsMessage informational isConnect limit (log ++ [.headers encoded]) frames
      else IsBody isConnect limit frames := by
  split
  · rename_i hinterim
    constructor
    · rintro ⟨interim, final, rest, hframes, hall, hfinal, hbody⟩
      cases interim with
      | nil =>
        obtain ⟨hfirst, rfl⟩ := List.cons.inj hframes
        cases hfirst
        exact absurd (hinterim.symm.trans hfinal) nofun
      | cons first interim =>
        obtain ⟨hfirst, rfl⟩ := List.cons.inj hframes
        cases hfirst
        refine ⟨interim, final, rest, rfl, fun i hi => ?_, ?_, hbody⟩
        · have := hall (i + 1) (Nat.succ_lt_succ hi)
          simpa using this
        · simpa using hfinal
    · rintro ⟨interim, final, rest, rfl, hall, hfinal, hbody⟩
      refine ⟨encoded :: interim, final, rest, rfl, fun i hi => ?_, by simpa using hfinal, hbody⟩
      cases i with
      | zero => simpa using hinterim
      | succ i => simpa using hall i (Nat.lt_of_succ_lt_succ hi)
  · rename_i hfinal'
    constructor
    · rintro ⟨interim, final, rest, hframes, hall, hfinal, hbody⟩
      cases interim with
      | nil =>
        obtain ⟨-, rfl⟩ := List.cons.inj hframes
        exact hbody
      | cons first interim =>
        obtain ⟨hfirst, -⟩ := List.cons.inj hframes
        cases hfirst
        exact absurd (hall 0 (Nat.succ_pos _)) (by simpa using hfinal')
    · intro hbody
      refine ⟨[], encoded, frames, rfl, fun i hi => absurd hi (Nat.not_lt_zero i), ?_, hbody⟩
      simpa using hfinal'

theorem not_isMessage (hheaders : ∀ e, frame ≠ .headers e) :
    ¬IsMessage informational isConnect limit log (frame :: frames) := by
  rintro ⟨interim, final, rest, hframes, -, -, -⟩
  cases interim with
  | nil => exact hheaders final (List.cons.inj hframes).1
  | cons first interim => exact hheaders first (List.cons.inj hframes).1

end Grammar

/-! ## The stream accepts the grammar -/

namespace RequestStream

variable (informational : List RawReceivedData → Bool)

/-- How much more data the stream takes; `none` for the data of a session. -/
def room (s : RequestStream) : Option Nat :=
  if s.isWtConnect then none else some (s.maxReceivedBodySize - s.recvBody.length)

theorem accepts_seen (s : RequestStream) (log : List RawReceivedData) (frames : List Frame) :
    Accepts informational s.seen log frames ↔ Accepts informational s log frames := by
  cases frames <;> exact Iff.rfl

theorem accepts_unknown (s : RequestStream) (log : List RawReceivedData) (u : UnknownFrame)
    (frames : List Frame) :
    Accepts informational s log (.unknown u :: frames) ↔ Accepts informational s log frames :=
  accepts_seen informational s log frames

/-- Such frames are never taken. -/
theorem not_accepts {s : RequestStream} {log : List RawReceivedData} {frame : Frame}
    {frames : List Frame} (h : ∃ e, (s.seen.processFrame frame).1 = .error e) :
    ¬Accepts informational s log (frame :: frames) := by
  obtain ⟨e, he⟩ := h
  rcases hp : s.seen.processFrame frame with ⟨r, t⟩
  rw [hp] at he
  dsimp only at he
  subst he
  simp only [Accepts, hp, not_false_eq_true]

theorem accepts_trailers {s : RequestStream} (hstate : s.recvState = .trailersReceived)
    (log : List RawReceivedData) (frames : List Frame) :
    Accepts informational s log frames ↔ messageFrames frames = [] := by
  have hstate' : s.seen.recvState = .trailersReceived := hstate
  induction frames with
  | nil => simp [Accepts, hstate]
  | cons frame frames ih =>
    cases frame with
    | unknown u =>
      rw [accepts_unknown]
      exact ih
    | headers encoded =>
      refine iff_of_false (not_accepts informational ?_) (by simp [messageFrames])
      exact ⟨.connectionError .frameUnexpected, by simp only [processFrame, processHeaders, hstate']⟩
    | data payload =>
      refine iff_of_false (not_accepts informational ?_) (by simp [messageFrames])
      exact ⟨.connectionError .frameUnexpected, by simp [processFrame, processData, hstate']⟩
    | _ => exact iff_of_false (not_accepts informational ⟨_, rfl⟩) (by simp [messageFrames])

theorem takes_room {s : RequestStream} {n : Nat} (h : s.Takes 0) :
    s.Takes n ↔ ∀ max ∈ s.room, n ≤ max := by
  unfold Takes room at *
  cases hwt : s.isWtConnect with
  | true => simp
  | false =>
    simp [hwt] at h ⊢
    omega

theorem processData_takes {s : RequestStream} {payload : Bytes}
    (hstate : s.recvState = .receivingBody) (h : s.Takes payload.length) :
    s.processData payload = (.ok (some (.data payload)), s.keepBody payload) := by
  unfold Takes at h
  unfold processData keepBody
  cases hwt : s.isWtConnect with
  | true => simp [hstate]
  | false =>
    have hsize : ¬s.maxReceivedBodySize < s.recvBody.length + payload.length := by
      simp [hwt] at h
      omega
    simp [hstate, hsize]

theorem processData_refuses {s : RequestStream} {payload : Bytes}
    (hstate : s.recvState = .receivingBody) (h : ¬s.Takes payload.length) :
    s.processData payload = (.error (.connectionError .excessiveLoad), s) := by
  unfold Takes at h
  obtain ⟨hwt, hsize⟩ := not_or.mp h
  unfold processData
  simp [hstate, hwt, Nat.lt_of_not_le hsize]

/-- What a piece of the body leaves. -/
theorem keepBody_facts {s : RequestStream} {payload : Bytes} (h : s.Takes payload.length) :
    (s.keepBody payload).recvState = s.recvState ∧
      (s.keepBody payload).isConnect = s.isConnect ∧
      (s.keepBody payload).room = s.room.map (· - payload.length) ∧
      (s.keepBody payload).Takes 0 := by
  unfold Takes at h
  unfold keepBody
  cases hwt : s.isWtConnect with
  | true => simp [room, Takes, hwt]
  | false =>
    simp [hwt] at h
    simp [room, Takes, hwt]
    omega

theorem accepts_body {s : RequestStream} (hstate : s.recvState = .receivingBody)
    (htakes : s.Takes 0) (log : List RawReceivedData) (frames : List Frame) :
    Accepts informational s log frames ↔
      IsBody s.isConnect s.room (messageFrames frames) := by
  induction frames generalizing s log with
  | nil => simp [Accepts, hstate, isBody_nil]
  | cons frame frames ih =>
    have hstate' : s.seen.recvState = .receivingBody := hstate
    cases frame with
    | unknown u =>
      rw [accepts_unknown]
      exact ih hstate htakes log
    | headers encoded =>
      rw [messageFrames_cons (fun _ h => by cases h), isBody_headers]
      cases hconnect : s.isConnect with
      | true =>
        have hconnect' : s.seen.isConnect = true := hconnect
        refine iff_of_false (not_accepts informational ?_) (by simp [messageFrames])
        exact ⟨.connectionError .frameUnexpected, by simp only [processFrame, processHeaders, hstate', hconnect', if_true]⟩
      | false =>
        have hconnect' : s.seen.isConnect = false := hconnect
        simp only [Accepts, processFrame, processHeaders, hstate', hconnect', Bool.false_eq_true,
          if_false, true_and]
        exact accepts_trailers informational rfl _ frames
    | data payload =>
      rw [messageFrames_cons (fun _ h => by cases h), isBody_data]
      by_cases hpayload : s.Takes payload.length
      · have hp : s.seen.processFrame (.data payload) =
            (.ok (some (.data payload)), s.seen.keepBody payload) :=
          processData_takes hstate' hpayload
        obtain ⟨hstep, hconnect, hroom, hnext⟩ := keepBody_facts (s := s.seen) hpayload
        have hfits := (takes_room htakes).mp hpayload
        simp only [Accepts, hp]
        rw [show s.room = s.seen.room from rfl, ← hroom, show s.isConnect = s.seen.isConnect from rfl, ← hconnect]
        exact (ih (hstep.trans hstate) hnext _).trans (and_iff_right hfits).symm
      · refine iff_of_false (not_accepts informational ?_) fun h => hpayload ((takes_room htakes).mpr h.1)
        exact ⟨_, congrArg Prod.fst (processData_refuses hstate' hpayload)⟩
    | _ =>
      rw [messageFrames_cons (fun _ h => by cases h)]
      exact iff_of_false (not_accepts informational ⟨_, rfl⟩) (not_isBody (by simp) (by simp))

theorem accepts_message {s : RequestStream} (hstate : s.recvState = .waitingHeaders)
    (htakes : s.Takes 0) (log : List RawReceivedData) (frames : List Frame) :
    Accepts informational s log frames ↔
      IsMessage informational s.isConnect s.room log (messageFrames frames) := by
  induction frames generalizing s log with
  | nil => simp [Accepts, hstate, not_isMessage_nil]
  | cons frame frames ih =>
    have hstate' : s.seen.recvState = .waitingHeaders := hstate
    cases frame with
    | unknown u =>
      rw [accepts_unknown]
      exact ih hstate htakes log
    | headers encoded =>
      rw [messageFrames_cons (fun _ h => by cases h), isMessage_headers]
      simp only [Accepts, processFrame, processHeaders, hstate', inform, notifyInformational,
        if_true]
      split
      · exact ih (s := { s.seen with recvState := .waitingHeaders }) rfl htakes _
      · exact accepts_body informational (s := { s.seen with recvState := .receivingBody }) rfl
          htakes _ frames
    | data payload =>
      rw [messageFrames_cons (fun _ h => by cases h)]
      refine iff_of_false (not_accepts informational ?_) (not_isMessage (by simp))
      exact ⟨.connectionError .frameUnexpected, by simp [processFrame, processData, hstate']⟩
    | _ =>
      rw [messageFrames_cons (fun _ h => by cases h)]
      exact iff_of_false (not_accepts informational ⟨_, rfl⟩) (not_isMessage (by simp))

/-- **A request stream in pieces**: what is taken out of a stream depends on its bytes only, and it
ends without an error exactly when they are the frames of a message. The data of a session has no
limit. -/
theorem received_in_pieces (streamId : Nat) (role : Role) (maxReceivedBodySize : Nat)
    (isConnect isWtConnect : Bool) (pieces : List Bytes) (last : Bytes) :
    arriveAll informational (opened streamId role maxReceivedBodySize isConnect isWtConnect)
        pieces last =
      arriveAll informational (opened streamId role maxReceivedBodySize isConnect isWtConnect)
        [] (pieces.flatten ++ last) ∧
    (EndsWell (arriveAll informational
        (opened streamId role maxReceivedBodySize isConnect isWtConnect) pieces last) ↔
      ∃ frames, Framed (pieces.flatten ++ last) frames ∧
        SignalFirst (role = .server && StreamKind.fromStreamId streamId = .clientBidi) frames ∧
        IsMessage informational isConnect (if isWtConnect then none else some maxReceivedBodySize)
          [] (messageFrames frames)) := by
  have hall := arriveAll_eq informational
    (s := opened streamId role maxReceivedBodySize isConnect isWtConnect) rfl
  have hfirst : (opened streamId role maxReceivedBodySize isConnect isWtConnect).serverFirstFrame =
      (role = .server && StreamKind.fromStreamId streamId = .clientBidi) := by
    show (decide (role = .server) && !false && _) = _
    rw [Bool.not_false, Bool.and_true]
    rfl
  have htakes : (opened streamId role maxReceivedBodySize isConnect isWtConnect).Takes 0 :=
    .inr (Nat.zero_le _)
  refine ⟨(hall pieces last).trans (hall [] (pieces.flatten ++ last)).symm, ?_⟩
  rw [hall, run_endsWell, hfirst]
  refine exists_congr fun frames => and_congr_right fun _ => and_congr_right fun _ => ?_
  exact accepts_message informational rfl htakes [] frames

/-- HEADERS and one byte of DATA on the CONNECT stream of a session. -/
def sessionBytes : Bytes := [0x01, 0x00, 0x00, 0x01, 0x07]

theorem session_data_is_not_limited :
    ¬∀ (informational : List RawReceivedData → Bool) (streamId : Nat) (role : Role)
      (maxReceivedBodySize : Nat) (isConnect isWtConnect : Bool) (last : Bytes),
      EndsWell (arriveAll informational
          (opened streamId role maxReceivedBodySize isConnect isWtConnect) [] last) →
        ∃ frames, Framed last frames ∧
          IsMessage informational isConnect (some maxReceivedBodySize) [] (messageFrames frames) := by
  intro h
  have hends : EndsWell (arriveAll (fun _ => false) (opened 0 .server 0 true true) []
      sessionBytes) := by
    have hok : (arriveAll (fun _ => false) (opened 0 .server 0 true true) []
        sessionBytes).2.isOk = true := by decide +kernel
    cases hend : (arriveAll (fun _ => false) (opened 0 .server 0 true true) [] sessionBytes).2 with
    | ok end' => exact ⟨end', hend⟩
    | error e => rw [hend] at hok; cases hok
  obtain ⟨frames, hframed, hmessage⟩ := h _ _ _ _ _ _ _ hends
  have hheaders : decodeFrame sessionBytes = .ok (.headers [], 2) := rfl
  have hdata : decodeFrame (sessionBytes.drop 2) = .ok (.data [0x07], 3) := rfl
  obtain ⟨frames, rfl, htail⟩ := hframed.of_decode hheaders
  obtain ⟨frames, rfl, -⟩ := htail.of_decode hdata
  rw [messageFrames_cons (fun _ h => by cases h), messageFrames_cons (fun _ h => by cases h),
    isMessage_headers, if_neg (by decide), isBody_data] at hmessage
  exact absurd (hmessage.1 0 rfl) (by decide)

end RequestStream

end Http3
