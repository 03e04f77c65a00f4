import Http3.Lib.Runs
import Http3.Stream.Drain

/-!
# The limit of a received body

DATA is counted when all of its frame has arrived. Until then its payload waits in the receive
buffer, where nothing limits it.
-/

namespace Http3

open Bytes

namespace RequestStream

/-! ## Runs -/

inductive RecvOp where
  | receive (data : Bytes) (fin : Bool)
  | processRaw

/-- An error ends the run. -/
def recvStep : Except Error RequestStream → RecvOp → Except Error RequestStream
  | .error e, _ => .error e
  | .ok s, .receive data fin => .ok (s.receive data fin)
  | .ok s, .processRaw =>
    match s.processRaw with
    | (.error e, _) => .error e
    | (.ok _, t) => .ok t

/-- The payload of a DATA frame at the front that has not all arrived. -/
def partialData (data : Bytes) : Nat :=
  match decodeFrameHeader data with
  | .ok header =>
    if header.frameType.get = 0x00 && data.length < header.totalLen then
      data.length - header.headerLen
    else 0
  | .error _ => 0

/-- The DATA payload that a stream holds when it waits. -/
def held (s : RequestStream) : Nat := s.recvBody.length + partialData s.recvBuf.peek

/-- When `process_raw` asks for more, the limit holds. -/
def holdsWithin (max : Nat) : Except Error RequestStream → RecvOp → Bool
  | .ok s, .processRaw =>
    match s.processRaw with
    | (.ok none, t) => decide (t.held ≤ max)
    | _ => true
  | _, _ => true

/-- The payload that `process_raw` will wait for: what is ignored comes before it. -/
def waitingData : Nat → RequestStream → Nat
  | 0, _ => 0
  | fuel + 1, s =>
    match frameAt s.frameRules s.recvBuf.peek with
    | none => if s.recvBuf.isFin then 0 else partialData s.recvBuf.peek
    | some (.ok (.unknown _, n)) => waitingData fuel (s.take n)
    | some _ => 0

/-- What waits fits beside the body. -/
def fitsWithin (max : Nat) : Except Error RequestStream → RecvOp → Bool
  | .ok s, .processRaw =>
    decide (s.recvBody.length + waitingData (s.recvBuf.peek.length + 1) s ≤ max)
  | _, _ => true

/-! ## The body is within the limit -/

/-- A stream whose body is limited, and within the limit. -/
structure Limited (max : Nat) (s : RequestStream) : Prop where
  counted : s.isWtConnect = false
  limit : s.maxReceivedBodySize = max
  body : s.recvBody.length ≤ max

theorem processFrame_limited {max : Nat} {s : RequestStream} (h : s.Limited max) (frame : Frame) :
    (s.processFrame frame).2.Limited max := by
  cases frame with
  | headers encoded =>
    simp only [processFrame, processHeaders]
    split
    · exact h
    · split
      · exact h
      · exact ⟨h.counted, h.limit, h.body⟩
    · exact ⟨h.counted, h.limit, h.body⟩
    · exact ⟨h.counted, h.limit, h.body⟩
  | data payload =>
    simp only [processFrame, processData]
    split
    · exact h
    · split
      · exact h
      · split
        · exact h
        · rename_i hsize
          refine ⟨h.counted, h.limit, ?_⟩
          rw [h.limit] at hsize
          rw [List.length_append]
          omega
  | _ => exact h

theorem processEmpty_limited {max : Nat} {s : RequestStream} (h : s.Limited max) :
    s.processEmpty.2.Limited max := by
  unfold processEmpty
  split
  · split
    · exact h
    · exact ⟨h.counted, h.limit, h.body⟩
  · exact h

/-- A frame that is reported, or is an error, leaves nothing to wait for. -/
theorem processFrame_reports {s : RequestStream} {frame : Frame} (h : ∀ u, frame ≠ .unknown u) :
    (s.processFrame frame).1 ≠ .ok none := by
  intro hnone
  cases frame with
  | headers encoded =>
    simp only [processFrame, processHeaders] at hnone
    split at hnone
    · cases hnone
    · split at hnone <;> cases hnone
    · cases hnone
    · cases hnone
  | data payload =>
    simp only [processFrame, processData] at hnone
    split at hnone
    · cases hnone
    · split at hnone
      · cases hnone
      · split at hnone <;> cases hnone
  | unknown u => exact absurd rfl (h u)
  | _ => cases hnone

theorem waitingData_frame {s : RequestStream} {frame : Frame} {n : Nat} (fuel : Nat)
    (hframe : frameAt s.frameRules s.recvBuf.peek = some (.ok (frame, n)))
    (h : ∀ u, frame ≠ .unknown u) : waitingData (fuel + 1) s = 0 := by
  simp only [waitingData, hframe]
  split
  · contradiction
  · rename_i heq
    cases heq
    exact absurd rfl (h _)
  · rfl

/-- What `process_raw` leaves, and what it waits for. -/
def Leaves (max waiting body : Nat) (r : Except Error (Option RawReceivedData) × RequestStream) :
    Prop :=
  r.2.Limited max ∧ (r.1 = .ok none → r.2.held = body + waiting) ∧ (r.1 ≠ .ok none → waiting = 0)

theorem processRaw_leaves {max : Nat} (fuel : Nat) {s : RequestStream} (h : s.Limited max)
    (hfuel : s.recvBuf.peek.length < fuel) :
    Leaves max (waitingData fuel s) s.recvBody.length s.processRaw := by
  induction fuel generalizing s with
  | zero => exact absurd hfuel (Nat.not_lt_zero _)
  | succ fuel ih =>
    rw [processRaw_eq]
    by_cases hempty : s.recvBuf.peek = []
    · have hwaiting : waitingData (fuel + 1) s = 0 := by
        simp only [waitingData, hempty]
        exact ite_self 0
      rw [if_pos (by rw [hempty]; rfl), hwaiting]
      refine ⟨processEmpty_limited h, ?_, fun _ => rfl⟩
      unfold processEmpty
      split
      · split <;> nofun
      · intro _
        simp only [held, hempty]
        rfl
    · rw [if_neg (by simpa using hempty)]
      rcases hframe : frameAt s.frameRules s.recvBuf.peek with _ | e | ⟨frame, n⟩
      · simp only [waitingData, hframe]
        cases s.recvBuf.isFin with
        | true => exact ⟨h, nofun, fun _ => rfl⟩
        | false => exact ⟨h, fun _ => rfl, fun hne => absurd rfl hne⟩
      · simp only [waitingData, hframe]
        exact ⟨h, nofun, fun _ => rfl⟩
      · have htaken : (s.take n).Limited max := ⟨h.counted, h.limit, h.body⟩
        have hn := frameAt_bounds hframe
        have hdrop : (s.take n).recvBuf.peek.length = s.recvBuf.peek.length - n :=
          List.length_drop
        by_cases hunknown : ∃ u, frame = .unknown u
        · obtain ⟨u, rfl⟩ := hunknown
          simp only [waitingData, hframe]
          exact ih htaken (by omega)
        · have hframe' : ∀ u, frame ≠ .unknown u := fun u hu => hunknown ⟨u, hu⟩
          have hreports := processFrame_reports (s := s.take n) hframe'
          have hlimited := processFrame_limited htaken frame
          rw [waitingData_frame fuel hframe hframe']
          dsimp only
          rcases hp : (s.take n).processFrame frame with ⟨e | _ | item, t⟩ <;>
            rw [hp] at hreports hlimited
          · exact ⟨hlimited, nofun, fun _ => rfl⟩
          · exact absurd rfl hreports
          · exact ⟨hlimited, nofun, fun _ => rfl⟩

/-! ## Along a run -/

/-- The stream of a run, as long as there is one. -/
def RunLimited (max : Nat) : Except Error RequestStream → Prop
  | .ok s => s.Limited max
  | .error _ => True

theorem recvStep_limited {max : Nat} {r : Except Error RequestStream} (h : RunLimited max r)
    (op : RecvOp) : RunLimited max (recvStep r op) := by
  cases r with
  | error e => trivial
  | ok s =>
    cases op with
    | receive data fin => exact ⟨h.counted, h.limit, h.body⟩
    | processRaw =>
      have hleaves := (processRaw_leaves _ h (Nat.lt_succ_self _)).1
      rcases hp : s.processRaw with ⟨e | item, t⟩ <;> rw [hp] at hleaves <;>
        simp only [recvStep, hp, RunLimited]
      exact hleaves

theorem holdsWithin_iff {max : Nat} {r : Except Error RequestStream} (h : RunLimited max r)
    (op : RecvOp) : holdsWithin max r op = true ↔ fitsWithin max r op = true := by
  cases r with
  | error e => exact Iff.rfl
  | ok s =>
    cases op with
    | receive data fin => exact Iff.rfl
    | processRaw =>
      obtain ⟨-, hwaits, helse⟩ := processRaw_leaves _ h (Nat.lt_succ_self _)
      simp only [holdsWithin, fitsWithin, decide_eq_true_eq]
      rcases hp : s.processRaw with ⟨e | _ | item, t⟩ <;> rw [hp] at hwaits helse
      · simp [helse nofun, h.body]
      · simp [← hwaits rfl]
      · simp [helse nofun, h.body]

theorem opened_limited (streamId : Nat) (role : Role) (max : Nat) (isConnect : Bool) :
    RunLimited max (.ok (opened streamId role max isConnect false)) :=
  ⟨rfl, rfl, Nat.zero_le _⟩

/-- **The body limit**: the decoded body keeps it in every run, and together with what waits in the
receive buffer exactly when the part of a DATA frame that arrived early fits beside the body. -/
theorem body_limit (streamId : Nat) (role : Role) (max : Nat) (isConnect : Bool)
    (ops : List RecvOp) :
    (∀ s, ops.foldl recvStep (.ok (opened streamId role max isConnect false)) = .ok s →
      s.recvBody.length ≤ max) ∧
    (Runs.Every recvStep (fun r op => holdsWithin max r op = true)
        (.ok (opened streamId role max isConnect false)) ops ↔
      Runs.Every recvStep (fun r op => fitsWithin max r op = true)
        (.ok (opened streamId role max isConnect false)) ops) := by
  have hstart := opened_limited streamId role max isConnect
  constructor
  · intro s hs
    have hlimited : RunLimited max
        (ops.foldl recvStep (.ok (opened streamId role max isConnect false))) :=
      Runs.foldl_inv (I := RunLimited max) (fun _ op h => recvStep_limited h op) hstart ops
    rw [hs] at hlimited
    exact hlimited.body
  · exact Runs.Every.congr (I := RunLimited max) (fun r op h => holdsWithin_iff h op)
      (fun r op h _ => recvStep_limited h op) hstart ops

/-- HEADERS, and five bytes of a DATA frame that announces sixteen. -/
def earlyData : List RecvOp :=
  [.receive [0x01, 0x00] false, .processRaw, .receive [0x00, 0x10, 1, 2, 3, 4, 5] false, .processRaw]

theorem early_data_is_not_limited :
    ¬∀ (streamId : Nat) (role : Role) (max : Nat) (isConnect : Bool) (ops : List RecvOp),
      Runs.Every recvStep (fun r op => holdsWithin max r op = true)
        (.ok (opened streamId role max isConnect false)) ops := by
  intro h
  have hlast := (h 0 .server 4 false earlyData).2.2.2.1
  exact absurd hlast (by decide +kernel)

end RequestStream

end Http3
