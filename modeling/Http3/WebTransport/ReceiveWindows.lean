import Http3.Lib.Grant
import Http3.Lib.Runs
import Http3.WebTransport.FlowControl

/-!
# The windows of a session on what it receives

The window on streams and the window on data are grants: what is open stays within the window, and
closing or consuming everything makes room again. The counters stop at 2^64 - 1, the limit on
streams at 2^60; a window whose limit stands there is not raised any more.
-/

namespace Http3

theorem saturatingAdd_eq {a b : Nat} (h : a + b < 2 ^ 64) : saturatingAdd a b = a + b := by
  unfold saturatingAdd
  omega

/-! ## Streams -/

namespace DirectionalStreamFlowControl

/-- The peer opens a stream, or one that it opened is closed. -/
inductive Event where
  | received
  | closed

def step (fc : DirectionalStreamFlowControl) : Event → DirectionalStreamFlowControl
  | .received => fc.onStreamReceived
  | .closed => fc.onStreamClosed.2

/-- A stream is taken where there is room for it, and closed once. -/
def Admits (fc : DirectionalStreamFlowControl) : Event → Prop
  | .received => fc.checkReceived = true
  | .closed => fc.totalClosed < fc.totalReceived

instance (fc : DirectionalStreamFlowControl) : ∀ e, Decidable (fc.Admits e)
  | .received => inferInstanceAs (Decidable (_ = true))
  | .closed => inferInstanceAs (Decidable (_ < _))

def grant (fc : DirectionalStreamFlowControl) : Grant :=
  ⟨fc.concurrentLimit, fc.advertisedMax, fc.totalClosed, fc.totalReceived⟩

def Event.onGrant : Event → Grant.Event
  | .received => .use 1
  | .closed => .finish 1

/-- The window is a sound grant of 64-bit numbers. -/
def Sound (fc : DirectionalStreamFlowControl) : Prop :=
  fc.grant.Sound MAX_STREAMS_LIMIT ∧ fc.advertisedMax < 2 ^ 64

/-- The limit that closing a stream leaves. -/
def raised (fc : DirectionalStreamFlowControl) (closed : Nat) : Nat :=
  if 0 < fc.concurrentLimit ∧ fc.advertisedMax - fc.totalReceived ≤ fc.concurrentLimit / 2 then
    max fc.advertisedMax (min (saturatingAdd closed fc.concurrentLimit) MAX_STREAMS_LIMIT)
  else fc.advertisedMax

theorem onStreamClosed_eq (fc : DirectionalStreamFlowControl) :
    fc.onStreamClosed.2 =
      { fc with
        totalClosed := saturatingAdd fc.totalClosed 1
        advertisedMax := fc.raised (saturatingAdd fc.totalClosed 1) } := by
  simp only [onStreamClosed, raised]
  by_cases hzero : fc.concurrentLimit = 0
  · simp only [hzero, if_true, Nat.lt_irrefl, false_and, if_false]
  · by_cases hlow : fc.advertisedMax - fc.totalReceived ≤ fc.concurrentLimit / 2
    · simp only [hzero, if_false, hlow, if_true, Nat.pos_of_ne_zero hzero, and_self]
      split
      · rw [Nat.max_eq_right (Nat.le_of_lt ‹_›)]
      · rw [Nat.max_eq_left (Nat.le_of_not_lt ‹_›)]
    · simp only [hzero, if_false, hlow, and_false]

theorem advertisedMax_le_step (fc : DirectionalStreamFlowControl) (e : Event) :
    fc.advertisedMax ≤ (fc.step e).advertisedMax := by
  cases e with
  | received => exact Nat.le_refl _
  | closed =>
    rw [step, onStreamClosed_eq]
    show fc.advertisedMax ≤ fc.raised _
    unfold raised
    split
    · exact Nat.le_max_left _ _
    · exact Nat.le_refl _

theorem step_concurrentLimit (fc : DirectionalStreamFlowControl) (e : Event) :
    (fc.step e).concurrentLimit = fc.concurrentLimit := by
  cases e with
  | received => rfl
  | closed => rw [step, onStreamClosed_eq]

section Step

variable {fc : DirectionalStreamFlowControl} {e : Event}

theorem admits_grant (h : fc.Admits e) : fc.grant.Admits e.onGrant := by
  cases e with
  | received =>
    have hroom : fc.totalReceived < fc.advertisedMax := of_decide_eq_true h
    exact hroom
  | closed => exact h

/-- A step of the window is one of the grant. -/
theorem grant_step (h : fc.Sound) (he : fc.Admits e) :
    (fc.step e).grant = fc.grant.step MAX_STREAMS_LIMIT e.onGrant := by
  obtain ⟨⟨hwidth, hclosed, hreceived, hadvertised, -⟩, hbound⟩ := h
  simp only [grant] at hwidth hclosed hreceived hadvertised
  cases e with
  | received =>
    have hroom : fc.totalReceived < fc.advertisedMax := of_decide_eq_true he
    simp only [step, onStreamReceived, grant, Event.onGrant, Grant.step,
      saturatingAdd_eq (show fc.totalReceived + 1 < 2 ^ 64 by omega)]
  | closed =>
    have hopen : fc.totalClosed < fc.totalReceived := he
    have hlimit : min (saturatingAdd (fc.totalClosed + 1) fc.concurrentLimit) MAX_STREAMS_LIMIT =
        min (fc.totalClosed + 1 + fc.concurrentLimit) MAX_STREAMS_LIMIT := by
      unfold saturatingAdd MAX_STREAMS_LIMIT
      omega
    simp only [step, onStreamClosed_eq, raised, grant, Event.onGrant, Grant.step, Grant.topUp,
      saturatingAdd_eq (show fc.totalClosed + 1 < 2 ^ 64 by omega), hlimit, hwidth, true_and]
    by_cases hlow : fc.advertisedMax - fc.totalReceived ≤ fc.concurrentLimit / 2 <;>
      simp only [hlow, if_true, if_false]

theorem Sound.step (h : fc.Sound) (he : fc.Admits e) : (fc.step e).Sound := by
  have hgrant := grant_step h he
  refine ⟨?_, ?_⟩
  · rw [hgrant]
    exact h.1.step (admits_grant he)
  · have hle : (fc.step e).grant.granted ≤ 2 ^ 64 - 1 := by
      rw [hgrant]
      exact Grant.step_granted_le e.onGrant (Nat.le_sub_one_of_lt h.2) (by decide)
    exact Nat.lt_of_le_of_lt hle (by decide)

/-- Every run of a window of that size. -/
theorem run_sound {limit : Nat} (h : 0 < limit) (hbound : limit < 2 ^ 64) {events : List Event}
    (hevents : Runs.Every step Admits (new limit) events) :
    (events.foldl step (new limit)).Sound ∧
      (events.foldl step (new limit)).concurrentLimit = limit := by
  have hnew : (new limit).Sound := ⟨.new MAX_STREAMS_LIMIT h, hbound⟩
  refine ⟨Runs.Every.inv (fun _ _ hsound he => hsound.step he) hnew hevents, ?_⟩
  refine Runs.foldl_inv (I := fun fc : DirectionalStreamFlowControl => fc.concurrentLimit = limit)
    (fun fc e hlimit => ?_) ?_ events
  · exact (step_concurrentLimit fc e).trans hlimit
  · rfl

theorem Sound.opens (h : fc.Sound) (hall : fc.totalClosed = fc.totalReceived)
    (hlimit : fc.totalReceived < MAX_STREAMS_LIMIT) : fc.checkReceived = true :=
  decide_eq_true (h.1.opens hall hlimit)

end Step

end DirectionalStreamFlowControl

/-! ## Data -/

namespace DataFlowControl

/-- Bytes arrive, or bytes that arrived are consumed. -/
inductive Event where
  | received (bytes : Nat)
  | consumed (bytes : Nat)

def step (fc : DataFlowControl) : Event → DataFlowControl
  | .received bytes => fc.onDataReceived bytes
  | .consumed bytes => (fc.onDataConsumed bytes).2

/-- Bytes are taken where there is room for them, and consumed once. -/
def Admits (fc : DataFlowControl) : Event → Prop
  | .received bytes => fc.checkReceived bytes = true
  | .consumed bytes => fc.totalConsumed + bytes ≤ fc.totalReceived

instance (fc : DataFlowControl) : ∀ e, Decidable (fc.Admits e)
  | .received _ => inferInstanceAs (Decidable (_ = true))
  | .consumed _ => inferInstanceAs (Decidable (_ ≤ _))

def grant (fc : DataFlowControl) : Grant :=
  ⟨fc.initialWindow, fc.advertisedMax, fc.totalConsumed, fc.totalReceived⟩

def Event.onGrant : Event → Grant.Event
  | .received bytes => .use bytes
  | .consumed bytes => .finish bytes

def Sound (fc : DataFlowControl) : Prop :=
  fc.grant.Sound (2 ^ 64 - 1) ∧ fc.advertisedMax < 2 ^ 64

/-- The limit that consuming bytes leaves. -/
def raised (fc : DataFlowControl) (consumed : Nat) : Nat :=
  if 0 < fc.initialWindow ∧ fc.advertisedMax - fc.totalReceived ≤ fc.initialWindow / 2 then
    max fc.advertisedMax (saturatingAdd consumed fc.initialWindow)
  else fc.advertisedMax

theorem onDataConsumed_eq (fc : DataFlowControl) (bytes : Nat) :
    (fc.onDataConsumed bytes).2 =
      { fc with
        totalConsumed := saturatingAdd fc.totalConsumed bytes
        advertisedMax := fc.raised (saturatingAdd fc.totalConsumed bytes) } := by
  simp only [onDataConsumed, raised]
  by_cases hzero : fc.initialWindow = 0
  · simp only [hzero, if_true, Nat.lt_irrefl, false_and, if_false]
  · by_cases hlow : fc.advertisedMax - fc.totalReceived ≤ fc.initialWindow / 2
    · simp only [hzero, if_false, hlow, if_true, Nat.pos_of_ne_zero hzero, and_self]
      split
      · rw [Nat.max_eq_right (Nat.le_of_lt ‹_›)]
      · rw [Nat.max_eq_left (Nat.le_of_not_lt ‹_›)]
    · simp only [hzero, if_false, hlow, and_false]

theorem advertisedMax_le_step (fc : DataFlowControl) (e : Event) :
    fc.advertisedMax ≤ (fc.step e).advertisedMax := by
  cases e with
  | received bytes => exact Nat.le_refl _
  | consumed bytes =>
    rw [step, onDataConsumed_eq]
    show fc.advertisedMax ≤ fc.raised _
    unfold raised
    split
    · exact Nat.le_max_left _ _
    · exact Nat.le_refl _

theorem step_initialWindow (fc : DataFlowControl) (e : Event) :
    (fc.step e).initialWindow = fc.initialWindow := by
  cases e with
  | received bytes => rfl
  | consumed bytes => rw [step, onDataConsumed_eq]

section Step

variable {fc : DataFlowControl} {e : Event}

theorem admits_grant (h : fc.Sound) (he : fc.Admits e) : fc.grant.Admits e.onGrant := by
  have hreceived : fc.totalReceived ≤ fc.advertisedMax := h.1.used_le
  cases e with
  | received bytes =>
    have hroom : bytes ≤ fc.advertisedMax - fc.totalReceived := of_decide_eq_true he
    show fc.totalReceived + bytes ≤ fc.advertisedMax
    omega
  | consumed bytes => exact he

/-- A step of the window is one of the grant. -/
theorem grant_step (h : fc.Sound) (he : fc.Admits e) :
    (fc.step e).grant = fc.grant.step (2 ^ 64 - 1) e.onGrant := by
  have hadmits := admits_grant h he
  obtain ⟨⟨hwidth, hconsumed, hreceived, hadvertised, -⟩, hbound⟩ := h
  simp only [grant] at hwidth hconsumed hreceived hadvertised
  cases e with
  | received bytes =>
    have hroom : fc.totalReceived + bytes ≤ fc.advertisedMax := hadmits
    simp only [step, onDataReceived, grant, Event.onGrant, Grant.step,
      saturatingAdd_eq (show fc.totalReceived + bytes < 2 ^ 64 by omega)]
  | consumed bytes =>
    have hopen : fc.totalConsumed + bytes ≤ fc.totalReceived := he
    simp only [step, onDataConsumed_eq, raised, grant, Event.onGrant, Grant.step, Grant.topUp,
      saturatingAdd_eq (show fc.totalConsumed + bytes < 2 ^ 64 by omega), hwidth, true_and]
    by_cases hlow : fc.advertisedMax - fc.totalReceived ≤ fc.initialWindow / 2
    · have hlimit : saturatingAdd (fc.totalConsumed + bytes) fc.initialWindow =
          min (fc.totalConsumed + bytes + fc.initialWindow) (2 ^ 64 - 1) := rfl
      simp only [hlow, if_true, hlimit]
    · simp only [hlow, if_false]

theorem Sound.step (h : fc.Sound) (he : fc.Admits e) : (fc.step e).Sound := by
  have hgrant := grant_step h he
  refine ⟨?_, ?_⟩
  · rw [hgrant]
    exact h.1.step (admits_grant h he)
  · have hle : (fc.step e).grant.granted ≤ 2 ^ 64 - 1 := by
      rw [hgrant]
      exact Grant.step_granted_le e.onGrant (Nat.le_sub_one_of_lt h.2) (Nat.le_refl _)
    exact Nat.lt_of_le_of_lt hle (by decide)

/-- Every run of a window of that size. -/
theorem run_sound {window : Nat} (h : 0 < window) (hbound : window < 2 ^ 64) {events : List Event}
    (hevents : Runs.Every step Admits (new window) events) :
    (events.foldl step (new window)).Sound ∧
      (events.foldl step (new window)).initialWindow = window := by
  have hnew : (new window).Sound := ⟨.new (2 ^ 64 - 1) h, hbound⟩
  refine ⟨Runs.Every.inv (fun _ _ hsound he => hsound.step he) hnew hevents, ?_⟩
  refine Runs.foldl_inv (I := fun fc : DataFlowControl => fc.initialWindow = window)
    (fun fc e hwindow => ?_) ?_ events
  · exact (step_initialWindow fc e).trans hwindow
  · rfl

theorem Sound.opens (h : fc.Sound) (hall : fc.totalConsumed = fc.totalReceived)
    (hlimit : fc.totalReceived < 2 ^ 64 - 1) : fc.checkReceived 1 = true := by
  have hroom : fc.totalReceived < fc.advertisedMax := h.1.opens hall hlimit
  exact decide_eq_true (show 1 ≤ fc.advertisedMax - fc.totalReceived by omega)

end Step

end DataFlowControl

/-! ## Along every run -/

open Runs (Every)

/-- **Receive windows**: a limit never falls, no more than the window is open, and when nothing is
open there is room for one more, as long as the limit is not at its end. -/
theorem receive_windows :
    (∀ (limit : Nat) (events : List DirectionalStreamFlowControl.Event),
      0 < limit → limit < 2 ^ 64 →
      Every DirectionalStreamFlowControl.step DirectionalStreamFlowControl.Admits (.new limit)
        events →
      let fc := events.foldl DirectionalStreamFlowControl.step (.new limit)
      (∀ e, fc.advertisedMax ≤ (fc.step e).advertisedMax) ∧
        fc.totalReceived ≤ fc.totalClosed + limit ∧
        (fc.totalClosed = fc.totalReceived → fc.totalReceived < MAX_STREAMS_LIMIT →
          fc.checkReceived = true)) ∧
    ∀ (window : Nat) (events : List DataFlowControl.Event), 0 < window → window < 2 ^ 64 →
      Every DataFlowControl.step DataFlowControl.Admits (.new window) events →
      let fc := events.foldl DataFlowControl.step (.new window)
      (∀ e, fc.advertisedMax ≤ (fc.step e).advertisedMax) ∧
        fc.totalReceived ≤ fc.totalConsumed + window ∧
        (fc.totalConsumed = fc.totalReceived → fc.totalReceived < 2 ^ 64 - 1 →
          fc.checkReceived 1 = true) := by
  constructor
  · intro limit events hpos hbound hevents fc
    obtain ⟨hsound, hlimit⟩ := DirectionalStreamFlowControl.run_sound hpos hbound hevents
    refine ⟨fc.advertisedMax_le_step, ?_, hsound.opens⟩
    have hgranted : fc.advertisedMax ≤ fc.totalClosed + fc.concurrentLimit := hsound.1.granted_le
    rw [← hlimit]
    exact Nat.le_trans hsound.1.used_le hgranted
  · intro window events hpos hbound hevents fc
    obtain ⟨hsound, hwindow⟩ := DataFlowControl.run_sound hpos hbound hevents
    refine ⟨fc.advertisedMax_le_step, ?_, hsound.opens⟩
    have hgranted : fc.advertisedMax ≤ fc.totalConsumed + fc.initialWindow := hsound.1.granted_le
    rw [← hwindow]
    exact Nat.le_trans hsound.1.used_le hgranted

/-- Two streams at a time, and a window of one byte. -/
theorem receive_windows_small :
    ([.received, .received, .closed, .closed].foldl DirectionalStreamFlowControl.step
        (.new 2)).checkReceived = true ∧
      ([.received 1, .consumed 1].foldl DataFlowControl.step (.new 1)).totalReceived ≤
        ([.received 1, .consumed 1].foldl DataFlowControl.step (.new 1)).totalConsumed + 1 :=
  ⟨(receive_windows.1 2 [.received, .received, .closed, .closed] (by decide) (by decide)
      (by decide)).2.2 (by decide) (by decide),
    (receive_windows.2 1 [.received 1, .consumed 1] (by decide) (by decide) (by decide)).2.1⟩

/-- Four windows of 2^62 - 1 bytes and three bytes, all of them consumed. -/
def exhausting : List DataFlowControl.Event :=
  (List.replicate 4 [.received (2 ^ 62 - 1), .consumed (2 ^ 62 - 1)]).flatten ++
    [.received 3, .consumed 3]

/-- The limit on data stands at 2^64 - 1, and so does what was consumed. -/
theorem exhausted_window_stalls :
    ¬∀ (window : Nat) (events : List DataFlowControl.Event), 0 < window → window < 2 ^ 64 →
      Every DataFlowControl.step DataFlowControl.Admits (.new window) events →
      (events.foldl DataFlowControl.step (.new window)).totalConsumed =
        (events.foldl DataFlowControl.step (.new window)).totalReceived →
      (events.foldl DataFlowControl.step (.new window)).checkReceived 1 = true := by
  intro h
  have hroom := h (2 ^ 62 - 1) exhausting (by decide) (by decide) (by decide) (by decide)
  exact absurd hroom (by decide)

end Http3
