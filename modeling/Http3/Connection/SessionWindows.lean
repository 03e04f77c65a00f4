import Http3.Connection.Types
import Http3.Lib.Credit
import Http3.WebTransport.ReceiveWindows
import Http3.WebTransport.SendFlowControl

/-!
# The windows of one session

A session has a window for each resource. What arrives uses the window, what is finished may raise
its limit, and each raise is queued as a capsule.
-/

namespace Http3

/-- Closing a stream raises the limit, or leaves it. -/
theorem DirectionalStreamFlowControl.onStreamClosed_spec {fc fc' : DirectionalStreamFlowControl}
    {o : Option Nat} (h : fc.onStreamClosed = (o, fc')) :
    fc'.totalReceived = fc.totalReceived ∧ fc'.totalClosed ≤ fc.totalClosed + 1 ∧
      fc'.concurrentLimit = fc.concurrentLimit ∧
      (o = none ∧ fc'.advertisedMax = fc.advertisedMax ∨
        o = some fc'.advertisedMax ∧ fc.advertisedMax < fc'.advertisedMax ∧
          fc'.advertisedMax ≤ MAX_STREAMS_LIMIT) := by
  unfold onStreamClosed at h
  dsimp only at h
  split_ifs at h with hzero hlow hraise <;> cases h <;>
    refine ⟨rfl, Nat.min_le_left _ _, rfl, ?_⟩
  · exact .inl ⟨rfl, rfl⟩
  · exact .inr ⟨rfl, hraise, Nat.min_le_right _ _⟩
  · exact .inl ⟨rfl, rfl⟩
  · exact .inl ⟨rfl, rfl⟩

/-- So does consuming data, and the limit stays within a window of what was consumed. -/
theorem DataFlowControl.onDataConsumed_spec {fc fc' : DataFlowControl} {bytes : Nat}
    {o : Option Nat} (h : fc.onDataConsumed bytes = (o, fc')) :
    fc'.totalReceived = fc.totalReceived ∧ fc'.totalConsumed ≤ fc.totalConsumed + bytes ∧
      fc'.initialWindow = fc.initialWindow ∧
      (o = none ∧ fc'.advertisedMax = fc.advertisedMax ∨
        o = some fc'.advertisedMax ∧ fc.advertisedMax < fc'.advertisedMax ∧
          fc'.advertisedMax ≤ fc.totalConsumed + bytes + fc.initialWindow) := by
  unfold onDataConsumed at h
  dsimp only at h
  split_ifs at h with hzero hlow hraise <;> cases h <;>
    refine ⟨rfl, Nat.min_le_left _ _, rfl, ?_⟩
  · exact .inl ⟨rfl, rfl⟩
  · refine .inr ⟨rfl, hraise, ?_⟩
    simp only [saturatingAdd]
    omega
  · exact .inl ⟨rfl, rfl⟩
  · exact .inl ⟨rfl, rfl⟩

namespace WtSession

/-- The window on one resource. -/
def grant (s : WtSession) : FlowControlResource → Grant
  | .bidirectionalStream => (s.recvStreamFcBidi.map DirectionalStreamFlowControl.grant).getD (.new 0)
  | .unidirectionalStream => (s.recvStreamFcUni.map DirectionalStreamFlowControl.grant).getD (.new 0)
  | .data => (s.recvDataFc.map DataFlowControl.grant).getD (.new 0)

/-- Flow control is on, and every window is there. -/
structure Counts (s : WtSession) : Prop where
  enabled : s.flowControlEnabled = true
  bidi : s.recvStreamFcBidi.isSome = true
  uni : s.recvStreamFcUni.isSome = true
  data : s.recvDataFc.isSome = true

/-- `n` of the resource arrived. -/
structure Took (s t : WtSession) (r : FlowControlResource) (n : Nat) : Prop where
  counts : t.Counts
  used : (t.grant r).used = saturatingAdd (s.grant r).used n
  granted : (t.grant r).granted = (s.grant r).granted
  finished : (t.grant r).finished = (s.grant r).finished
  width : (t.grant r).width = (s.grant r).width
  others : ∀ r', r' ≠ r → t.grant r' = s.grant r'
  capsules : t.pendingCapsules = s.pendingCapsules

/-- `n` of the resource was finished, and a capsule tells of the limit if that was raised. -/
structure Finished (s t : WtSession) (r : FlowControlResource) (n : Nat) : Prop where
  counts : t.Counts
  used : (t.grant r).used = (s.grant r).used
  finished_le : (t.grant r).finished ≤ (s.grant r).finished + n
  width : (t.grant r).width = (s.grant r).width
  others : ∀ r', r' ≠ r → t.grant r' = s.grant r'
  raised : (t.grant r).granted = (s.grant r).granted ∧ t.pendingCapsules = s.pendingCapsules ∨
    ∃ c, c.grant? = some (r, (t.grant r).granted) ∧ (s.grant r).granted < (t.grant r).granted ∧
      (t.grant r).granted ≤ r.cap ∧ t.pendingCapsules = s.pendingCapsules ++ [c]

section Windows

variable {s : WtSession}

/-- The window on streams of one direction. -/
theorem Counts.stream (h : s.Counts) (b : Bool) : ∃ fc, s.recvStreamFc b = some fc ∧
    s.grant (.ofStream b) = fc.grant := by
  cases b with
  | false =>
    obtain ⟨fc, hfc⟩ := Option.isSome_iff_exists.mp h.uni
    exact ⟨fc, hfc, by simp [grant, FlowControlResource.ofStream, hfc]⟩
  | true =>
    obtain ⟨fc, hfc⟩ := Option.isSome_iff_exists.mp h.bidi
    exact ⟨fc, hfc, by simp [grant, FlowControlResource.ofStream, hfc]⟩

theorem Counts.window (h : s.Counts) : ∃ fc, s.recvDataFc = some fc ∧ s.grant .data = fc.grant := by
  obtain ⟨fc, hfc⟩ := Option.isSome_iff_exists.mp h.data
  exact ⟨fc, hfc, by simp [grant, hfc]⟩

theorem Counts.setRecvStreamFc (h : s.Counts) (b : Bool) (fc : DirectionalStreamFlowControl) :
    (s.setRecvStreamFc b fc).Counts := by
  cases b with
  | false => exact ⟨h.enabled, h.bidi, rfl, h.data⟩
  | true => exact ⟨h.enabled, rfl, h.uni, h.data⟩

theorem grant_setRecvStreamFc (b : Bool) (fc : DirectionalStreamFlowControl) :
    (s.setRecvStreamFc b fc).grant (.ofStream b) = fc.grant := by
  cases b <;> rfl

theorem grant_setRecvStreamFc_ne (b : Bool) (fc : DirectionalStreamFlowControl)
    {r : FlowControlResource} (h : r ≠ .ofStream b) :
    (s.setRecvStreamFc b fc).grant r = s.grant r := by
  cases b <;> cases r <;> first | rfl | exact absurd rfl h

theorem pendingCapsules_setRecvStreamFc (b : Bool) (fc : DirectionalStreamFlowControl) :
    (s.setRecvStreamFc b fc).pendingCapsules = s.pendingCapsules := by
  cases b <;> rfl

/-- Two sessions whose windows are the same. -/
theorem grant_congr {t : WtSession} (hbidi : t.recvStreamFcBidi = s.recvStreamFcBidi)
    (huni : t.recvStreamFcUni = s.recvStreamFcUni) (hdata : t.recvDataFc = s.recvDataFc) :
    t.grant = s.grant := by
  funext r
  cases r <;> simp only [grant, hbidi, huni, hdata]

theorem addReceivedStream_took (h : s.Counts) (b : Bool) :
    s.Took (s.addReceivedStream b) (.ofStream b) 1 := by
  obtain ⟨fc, hfc, hgrant⟩ := h.stream b
  rw [addReceivedStream, hfc]
  have hset := grant_setRecvStreamFc (s := s) b fc.onStreamReceived
  refine ⟨h.setRecvStreamFc b _, ?_, ?_, ?_, ?_, fun r hr => grant_setRecvStreamFc_ne b _ hr,
    pendingCapsules_setRecvStreamFc b _⟩ <;> rw [hset, hgrant] <;> rfl

theorem addReceivedData_took (h : s.Counts) (n : Nat) : s.Took (s.addReceivedData n) .data n := by
  obtain ⟨fc, hfc, hgrant⟩ := h.window
  rw [addReceivedData, hfc]
  refine ⟨⟨h.enabled, h.bidi, h.uni, rfl⟩, ?_, ?_, ?_, ?_, fun r hr => ?_, rfl⟩
  · rw [hgrant]
    rfl
  · rw [hgrant]
    rfl
  · rw [hgrant]
    rfl
  · rw [hgrant]
    rfl
  · cases r with
    | bidirectionalStream | unidirectionalStream => rfl
    | data => exact absurd rfl hr

theorem addReceivedDataAndTrack_took (h : s.Counts) (streamId n : Nat) :
    s.Took (s.addReceivedDataAndTrack streamId n) .data n := by
  obtain ⟨hcounts, hused, hgranted, hfinished, hwidth, hothers, hcapsules⟩ :=
    addReceivedData_took h n
  have hgrant : (s.addReceivedDataAndTrack streamId n).grant = (s.addReceivedData n).grant :=
    grant_congr rfl rfl rfl
  exact ⟨⟨hcounts.enabled, hcounts.bidi, hcounts.uni, hcounts.data⟩, by rw [hgrant, hused],
    by rw [hgrant, hgranted], by rw [hgrant, hfinished], by rw [hgrant, hwidth],
    fun r hr => by rw [hgrant, hothers r hr], hcapsules⟩

theorem onRemoteStreamClosed_finished (h : s.Counts) (b : Bool) :
    s.Finished (s.onRemoteStreamClosed b) (.ofStream b) 1 := by
  obtain ⟨fc, hfc, hgrant⟩ := h.stream b
  rcases hclosed : fc.onStreamClosed with ⟨o, fc'⟩
  obtain ⟨hused, hfinished, hwidth, hlimit⟩ :=
    DirectionalStreamFlowControl.onStreamClosed_spec hclosed
  have hcounts := h.setRecvStreamFc b fc'
  have hset := grant_setRecvStreamFc (s := s) b fc'
  have hothers := fun r hr => grant_setRecvStreamFc_ne (s := s) b fc' (r := r) hr
  have hcapsules := pendingCapsules_setRecvStreamFc (s := s) b fc'
  rw [onRemoteStreamClosed, h.enabled, if_pos rfl, hfc]
  simp only [hclosed]
  obtain ⟨rfl, hsame⟩ | ⟨rfl, hraise, hcap⟩ := hlimit
  · refine ⟨hcounts, ?_, ?_, ?_, hothers, .inl ⟨?_, hcapsules⟩⟩ <;> rw [hset, hgrant]
    · exact hused
    · exact hfinished
    · exact hwidth
    · exact hsame
  · have hsame : (WtSession.grant { s.setRecvStreamFc b fc' with
        pendingCapsules := (s.setRecvStreamFc b fc').pendingCapsules ++
          [.maxStreams b fc'.advertisedMax] }) = (s.setRecvStreamFc b fc').grant :=
      grant_congr rfl rfl rfl
    refine ⟨⟨hcounts.enabled, hcounts.bidi, hcounts.uni, hcounts.data⟩, ?_, ?_, ?_, ?_,
      .inr ⟨.maxStreams b fc'.advertisedMax, ?_, ?_, ?_, ?_⟩⟩
    · rw [hsame, hset, hgrant]
      exact hused
    · rw [hsame, hset, hgrant]
      exact hfinished
    · rw [hsame, hset, hgrant]
      exact hwidth
    · intro r hr
      rw [hsame, hothers r hr]
    · rw [hsame, hset]
      rfl
    · rw [hsame, hset, hgrant]
      exact hraise
    · rw [hsame, hset, FlowControlResource.cap_ofStream]
      exact hcap
    · rw [← hcapsules]

theorem onDataConsumed_finished (h : s.Counts) {n : Nat}
    (hfits : (s.grant .data).finished + n + (s.grant .data).width ≤ 2 ^ 62 - 1) :
    s.Finished (s.onDataConsumed n) .data n := by
  obtain ⟨fc, hfc, hgrant⟩ := h.window
  rw [hgrant] at hfits
  rcases hconsumed : fc.onDataConsumed n with ⟨o, fc'⟩
  obtain ⟨hused, hfinished, hwidth, hlimit⟩ := DataFlowControl.onDataConsumed_spec hconsumed
  have hothers : ∀ r, r ≠ .data → ∀ l : List Capsule,
      ({ s with recvDataFc := some fc', pendingCapsules := l } : WtSession).grant r = s.grant r := by
    intro r hr l
    cases r with
    | bidirectionalStream | unidirectionalStream => rfl
    | data => exact absurd rfl hr
  rw [onDataConsumed, h.enabled, if_pos rfl, hfc]
  simp only [hconsumed]
  obtain ⟨rfl, hsame⟩ | ⟨rfl, hraise, hcap⟩ := hlimit
  · refine ⟨⟨rfl, h.bidi, h.uni, rfl⟩, ?_, ?_, ?_, fun r hr => hothers r hr s.pendingCapsules,
      .inl ⟨?_, rfl⟩⟩ <;> rw [hgrant]
    · exact hused
    · exact hfinished
    · exact hwidth
    · exact hsame
  · refine ⟨⟨rfl, h.bidi, h.uni, rfl⟩, ?_, ?_, ?_,
      fun r hr => hothers r hr (s.pendingCapsules ++ [.maxData fc'.advertisedMax]),
      .inr ⟨.maxData fc'.advertisedMax, rfl, ?_, ?_, rfl⟩⟩
    · rw [hgrant]
      exact hused
    · rw [hgrant]
      exact hfinished
    · rw [hgrant]
      exact hwidth
    · rw [hgrant]
      exact hraise
    · exact Nat.le_trans hcap hfits

/-- A stream that fits the window is not refused. -/
theorem checkReceivedStream_of_fits (h : s.Counts) {b : Bool}
    (hfits : (s.grant (.ofStream b)).used + 1 ≤ (s.grant (.ofStream b)).granted) :
    s.checkReceivedStream b = true := by
  obtain ⟨fc, hfc, hgrant⟩ := h.stream b
  rw [hgrant] at hfits
  rw [checkReceivedStream, hfc, h.enabled]
  exact decide_eq_true hfits

theorem checkReceivedData_of_fits (h : s.Counts) {n : Nat}
    (hfits : (s.grant .data).used + n ≤ (s.grant .data).granted) :
    s.checkReceivedData n = true := by
  obtain ⟨fc, hfc, hgrant⟩ := h.window
  rw [hgrant] at hfits
  rw [checkReceivedData, hfc, h.enabled]
  have hroom : n ≤ fc.advertisedMax - fc.totalReceived := Nat.le_sub_of_add_le' hfits
  exact decide_eq_true hroom

end Windows

/-! ## Room -/

section Room

variable {s : WtSession}

/-- The count at which a window stops. -/
def stop : FlowControlResource → Nat
  | .bidirectionalStream | .unidirectionalStream => MAX_STREAMS_LIMIT
  | .data => 2 ^ 64 - 1

theorem stop_ofStream (b : Bool) : stop (.ofStream b) = MAX_STREAMS_LIMIT := by
  cases b <;> rfl

/-- A window that is not empty leaves room once everything is finished. -/
def Open (s : WtSession) (r : FlowControlResource) : Prop :=
  0 < (s.grant r).width → (s.grant r).Sound (stop r) ∧ (s.grant r).granted < 2 ^ 64

theorem Open.of_same {t : WtSession} {r : FlowControlResource} (h : t.grant r = s.grant r)
    (hs : s.Open r) : t.Open r := by
  rw [Open, h]
  exact hs

theorem Open.stream {t : WtSession} {b : Bool} (hs : s.Open (.ofStream b))
    {fc : DirectionalStreamFlowControl} (hfc : s.grant (.ofStream b) = fc.grant)
    {e : DirectionalStreamFlowControl.Event} (ht : t.grant (.ofStream b) = (fc.step e).grant)
    (he : fc.Admits e) : t.Open (.ofStream b) := by
  rw [Open, hfc, stop_ofStream] at hs
  rw [Open, ht, stop_ofStream]
  intro hwidth
  have hwidth : 0 < fc.concurrentLimit := fc.step_concurrentLimit e ▸ hwidth
  have hsound : fc.Sound := hs hwidth
  exact hsound.step he

theorem addReceivedStream_grant {b : Bool} {fc : DirectionalStreamFlowControl}
    (hfc : s.recvStreamFc b = some fc) :
    (s.addReceivedStream b).grant (.ofStream b) = (fc.step .received).grant := by
  rw [addReceivedStream, hfc]
  exact grant_setRecvStreamFc b _

theorem onRemoteStreamClosed_grant (h : s.Counts) {b : Bool} {fc : DirectionalStreamFlowControl}
    (hfc : s.recvStreamFc b = some fc) :
    (s.onRemoteStreamClosed b).grant (.ofStream b) = (fc.step .closed).grant := by
  have hset := grant_setRecvStreamFc (s := s) b fc.onStreamClosed.2
  rw [onRemoteStreamClosed, h.enabled, if_pos rfl, hfc]
  rcases hclosed : fc.onStreamClosed with ⟨o, fc'⟩
  simp only [hclosed] at hset ⊢
  rw [DirectionalStreamFlowControl.step, hclosed, ← hset]
  cases o with
  | none => rfl
  | some newMax => exact congrFun (grant_congr rfl rfl rfl) _

theorem addReceivedData_grant {n : Nat} {fc : DataFlowControl} (hfc : s.recvDataFc = some fc) :
    (s.addReceivedData n).grant .data = (fc.step (.received n)).grant := by
  rw [addReceivedData, hfc]
  rfl

theorem onDataConsumed_grant (h : s.Counts) {n : Nat} {fc : DataFlowControl}
    (hfc : s.recvDataFc = some fc) :
    (s.onDataConsumed n).grant .data = (fc.step (.consumed n)).grant := by
  rw [onDataConsumed, h.enabled, if_pos rfl, hfc]
  rcases hconsumed : fc.onDataConsumed n with ⟨o, fc'⟩
  rw [DataFlowControl.step, hconsumed]
  cases o <;> simp only [hconsumed] <;> rfl

theorem Open.data {t : WtSession} (hs : s.Open .data) {fc : DataFlowControl}
    (hfc : s.grant .data = fc.grant) {e : DataFlowControl.Event}
    (ht : t.grant .data = (fc.step e).grant)
    (he : 0 < fc.initialWindow → fc.Admits e) : t.Open .data := by
  rw [Open, hfc] at hs
  rw [Open, ht]
  intro hwidth
  have hwidth : 0 < fc.initialWindow := fc.step_initialWindow e ▸ hwidth
  have hsound : fc.Sound := hs hwidth
  exact hsound.step (he hwidth)

end Room

end WtSession

end Http3
