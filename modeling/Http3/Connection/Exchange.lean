import Mathlib.Logic.Function.Basic
import Http3.Connection.Negotiation
import Http3.Connection.SessionWindows

/-!
# Flow control between two ends

One end opens streams and sends data in a session, the other end counts what arrives and raises the
limits with capsules. Streams, data and capsules are on their way for a while; only the capsules
keep their order. A stream or data that the receiver buffered before the session was established
counts as on its way until it is delivered.
-/

namespace Http3

open WebTransport (FlowControlLimits)

/-! ## Both ends and what is on its way -/

structure Exchange where
  sender : WtSendFlowControl
  /-- what the sender has used up that did not arrive yet -/
  transit : FlowControlResource → Nat
  receiver : WtSession
  /-- the capsules that were taken from the receiver, the oldest first -/
  capsules : List Capsule

namespace Exchange

inductive Act where
  | openStream (bidirectional : Bool)
  | sendData (bytes : Nat)
  | streamArrives (bidirectional : Bool)
  | dataArrives (streamId bytes : Nat)
  /-- a reset makes up for bytes that do not arrive any more -/
  | dataReset (bytes : Nat)
  | streamCloses (bidirectional : Bool)
  | dataConsumed (bytes : Nat)
  | takeCapsules
  | capsuleArrives
  deriving DecidableEq

/-- What ends the session: the receiver gets more than it granted, or the sender a capsule that it
does not take. -/
inductive Violation where
  | tooMuch (r : FlowControlResource)
  | capsule (e : CapsuleValidationError)
  deriving DecidableEq

/-- A refused attempt changes nothing. -/
def attempted (e : Exchange) (r : FlowControlResource) (n : Nat)
    (sender : Except FlowControlResource WtSendFlowControl) : Exchange :=
  match sender with
  | .ok sender => { e with sender, transit := Function.update e.transit r (e.transit r + n) }
  | .error _ => e

/-- Only what is on its way can arrive. -/
def arrived (e : Exchange) (r : FlowControlResource) (n : Nat) (allowed : Bool)
    (receiver : WtSession) : Except Violation Exchange :=
  if e.transit r < n then .ok e
  else if !allowed then .error (.tooMuch r)
  else .ok { e with receiver, transit := Function.update e.transit r (e.transit r - n) }

def capsuleArrived (e : Exchange) : Except Violation Exchange :=
  match e.capsules with
  | [] => .ok e
  | c :: rest =>
    match e.sender.processCapsule c with
    | .ok sender => .ok { e with sender, capsules := rest }
    | .error err => .error (.capsule err)

def step (e : Exchange) : Act → Except Violation Exchange
  | .openStream b => .ok (e.attempted (.ofStream b) 1 (e.sender.tryOpenStream b))
  | .sendData n => .ok (e.attempted .data n (e.sender.trySendData n))
  | .streamArrives b =>
    e.arrived (.ofStream b) 1 (e.receiver.checkReceivedStream b) (e.receiver.addReceivedStream b)
  | .dataArrives streamId n =>
    e.arrived .data n (e.receiver.checkReceivedData n) (e.receiver.addReceivedDataAndTrack streamId n)
  | .dataReset n =>
    e.arrived .data n (e.receiver.checkReceivedData n)
      ((e.receiver.addReceivedData n).onDataConsumed n)
  | .streamCloses b => .ok { e with receiver := e.receiver.onRemoteStreamClosed b }
  | .dataConsumed n => .ok { e with receiver := e.receiver.onDataConsumed n }
  | .takeCapsules =>
    .ok { e with
      capsules := e.capsules ++ e.receiver.pendingCapsules
      receiver := { e.receiver with pendingCapsules := [] } }
  | .capsuleArrives => e.capsuleArrived

/-- Both ends of a session that was just established; `sender` and `receiver` are what each end was
configured with. -/
def start (sender receiver : Env) (session : WtSession) : Exchange where
  sender := .new (Connection.isWtFlowControlEnabled sender receiver.localSettings.exchanged)
    (peerWtSendLimits receiver.localSettings.exchanged)
  transit := fun _ => 0
  receiver := Connection.establishedSession receiver sender.localSettings.exchanged session
  capsules := []

/-! ## The credit of each resource -/

/-- The grants on their way, those not taken yet at the end. -/
def channel (e : Exchange) : List (FlowControlResource × Nat) :=
  (e.capsules ++ e.receiver.pendingCapsules).filterMap Capsule.grant?

def credit (e : Exchange) (r : FlowControlResource) : Credit where
  sent := e.sender.used r
  limit := e.sender.limit r
  grants := Credit.grantsFor r e.channel
  received := (e.receiver.grant r).used
  granted := (e.receiver.grant r).granted

/-- With flow control, the credits are sound and account for what is on its way. -/
structure Sound (e : Exchange) : Prop where
  enabled : e.sender.enabled = true
  counts : e.receiver.Counts
  credit : ∀ r, (e.credit r).Sound
  transit : ∀ r, (e.receiver.grant r).used + e.transit r = e.sender.used r
  legal : ∀ c ∈ e.capsules ++ e.receiver.pendingCapsules, ∃ r m, c.grant? = some (r, m) ∧ m ≤ r.cap
  bounded : ∀ r, (e.receiver.grant r).granted < 2 ^ 64

section Sound

variable {e : Exchange} {r : FlowControlResource} {n : Nat}

/-- What the sender may use up is below 2^64. -/
theorem Sound.limit_lt (h : e.Sound) (r : FlowControlResource) : e.sender.limit r < 2 ^ 64 :=
  Nat.lt_of_le_of_lt (h.credit r).limit_le (h.bounded r)

theorem Sound.sent (h : e.Sound) (hroom : e.sender.used r + n ≤ e.sender.limit r) :
    Sound { e with
      sender := e.sender.count r n
      transit := Function.update e.transit r (e.transit r + n) } := by
  have hcount : (e.sender.count r n).used r = e.sender.used r + n := by
    rw [WtSendFlowControl.count_used, if_pos rfl]
    exact saturatingAdd_eq (Nat.lt_of_le_of_lt hroom (h.limit_lt r))
  have hothers : ∀ r', r' ≠ r → (e.sender.count r n).used r' = e.sender.used r' := by
    intro r' hr
    rw [WtSendFlowControl.count_used, if_neg hr]
  refine ⟨(e.sender.count_enabled r n).trans h.enabled, h.counts, fun r' => ?_, fun r' => ?_,
    h.legal, h.bounded⟩
  · refine Credit.Move.sound ?_ (h.credit r')
    by_cases hr : r' = r
    · subst hr
      have hmove := Credit.Move.send (c := e.credit r') n hroom
      simp only [Exchange.credit, hcount, WtSendFlowControl.count_limit] at hmove ⊢
      exact hmove
    · simp only [Exchange.credit, hothers r' hr, WtSendFlowControl.count_limit]
      exact .idle
  · have htransit := h.transit r'
    dsimp only
    by_cases hr : r' = r
    · subst hr
      rw [Function.update_self, hcount]
      omega
    · rw [Function.update_of_ne hr, hothers r' hr, htransit]

/-- What arrives was sent. -/
theorem Sound.arriving (h : e.Sound) (hn : n ≤ e.transit r) :
    (e.receiver.grant r).used + n ≤ e.sender.used r := by
  rw [← h.transit r]
  exact Nat.add_le_add_left hn _

/-- It fits the window. -/
theorem Sound.fits (h : e.Sound) (hn : n ≤ e.transit r) :
    (e.receiver.grant r).used + n ≤ (e.receiver.grant r).granted :=
  (h.credit r).received_within (h.arriving hn)

theorem Sound.took (h : e.Sound) (hn : n ≤ e.transit r) {receiver : WtSession}
    (ht : e.receiver.Took receiver r n) :
    Sound { e with receiver, transit := Function.update e.transit r (e.transit r - n) } := by
  have hused : (receiver.grant r).used = (e.receiver.grant r).used + n := by
    rw [ht.used]
    exact saturatingAdd_eq (Nat.lt_of_le_of_lt (h.fits hn) (h.bounded r))
  refine ⟨h.enabled, ht.counts, fun r' => ?_, fun r' => ?_, ?_, fun r' => ?_⟩
  · refine Credit.Move.sound ?_ (h.credit r')
    by_cases hr : r' = r
    · subst hr
      have hmove := Credit.Move.arrive (c := e.credit r') n (h.arriving hn)
      simp only [Exchange.credit, channel, ht.capsules, ht.granted, hused] at hmove ⊢
      exact hmove
    · simp only [Exchange.credit, channel, ht.capsules, ht.others r' hr]
      exact .idle
  · have htransit := h.transit r'
    dsimp only
    by_cases hr : r' = r
    · subst hr
      rw [Function.update_self, hused]
      omega
    · rw [Function.update_of_ne hr, ht.others r' hr, htransit]
  · rw [ht.capsules]
    exact h.legal
  · by_cases hr : r' = r
    · rw [hr, ht.granted]
      exact h.bounded r
    · rw [ht.others r' hr]
      exact h.bounded r'

theorem cap_lt (r : FlowControlResource) : r.cap < 2 ^ 64 := by
  cases r <;> decide

/-- Finishing something may put a grant on the channel. -/
theorem Sound.finished (h : e.Sound) {receiver : WtSession}
    (hf : e.receiver.Finished receiver r n) : Sound { e with receiver } := by
  have hused : ∀ r', (receiver.grant r').used = (e.receiver.grant r').used := by
    intro r'
    by_cases hr : r' = r
    · rw [hr, hf.used]
    · rw [hf.others r' hr]
  have htransit : ∀ r', (receiver.grant r').used + e.transit r' = e.sender.used r' := fun r' => by
    rw [hused r', h.transit r']
  obtain ⟨hgranted, hcapsules⟩ | ⟨c, hgrant, hraise, hcap, hcapsules⟩ := hf.raised
  · have hgranted : ∀ r', (receiver.grant r').granted = (e.receiver.grant r').granted := by
      intro r'
      by_cases hr : r' = r
      · rw [hr, hgranted]
      · rw [hf.others r' hr]
    refine ⟨h.enabled, hf.counts, fun r' => ?_, htransit, ?_, fun r' => ?_⟩
    · simp only [Exchange.credit, channel, hcapsules, hused r', hgranted r']
      exact h.credit r'
    · rw [hcapsules]
      exact h.legal
    · rw [hgranted r']
      exact h.bounded r'
  · have hchannel : Exchange.channel { e with receiver } =
        e.channel ++ [(r, (receiver.grant r).granted)] := by
      simp only [channel, hcapsules, ← List.append_assoc, List.filterMap_append,
        List.filterMap_cons, hgrant, List.filterMap_nil]
    refine ⟨h.enabled, hf.counts, fun r' => ?_, htransit, ?_, fun r' => ?_⟩
    · refine Credit.Move.sound ?_ (h.credit r')
      by_cases hr : r' = r
      · subst hr
        have hmove := Credit.Move.grant (c := e.credit r') _ hraise
        have hgrants : Credit.grantsFor r' (Exchange.channel { e with receiver }) =
            Credit.grantsFor r' e.channel ++ [(receiver.grant r').granted] := by
          rw [hchannel, Credit.grantsFor_append, Credit.grantsFor_self]
          rfl
        simp only [Exchange.credit, hgrants, hused] at hmove ⊢
        exact hmove
      · have hgrants : Credit.grantsFor r' (Exchange.channel { e with receiver }) =
            Credit.grantsFor r' e.channel := by
          rw [hchannel, Credit.grantsFor_append, Credit.grantsFor_ne (Ne.symm hr)]
          exact List.append_nil _
        simp only [Exchange.credit, hgrants, hf.others r' hr]
        exact .idle
    · rw [hcapsules, ← List.append_assoc]
      intro d hd
      rw [List.mem_append, List.mem_singleton] at hd
      obtain hd | rfl := hd
      · exact h.legal d hd
      · exact ⟨r, _, hgrant, hcap⟩
    · by_cases hr : r' = r
      · rw [hr]
        exact Nat.lt_of_le_of_lt hcap (cap_lt r)
      · rw [hf.others r' hr]
        exact h.bounded r'

/-- The oldest capsule is taken. -/
theorem Sound.delivered (h : e.Sound) {c : Capsule} {rest : List Capsule}
    (hc : e.capsules = c :: rest) :
    ∃ sender, e.sender.processCapsule c = .ok sender ∧
      Sound { e with sender, capsules := rest } := by
  obtain ⟨r, m, hgrant, hcap⟩ := h.legal c (by simp [hc])
  have hchannel : e.channel =
      (r, m) :: Exchange.channel { e with sender := e.sender.setLimit r m, capsules := rest } := by
    simp only [channel, hc, List.cons_append, List.filterMap_cons, hgrant]
  have hgrants : (e.credit r).grants = m :: Credit.grantsFor r
      (Exchange.channel { e with sender := e.sender.setLimit r m, capsules := rest }) := by
    simp only [Exchange.credit]
    rw [hchannel, Credit.grantsFor_self]
  refine ⟨e.sender.setLimit r m, WtSendFlowControl.processCapsule_grant h.enabled hgrant hcap
    ((h.credit r).raises hgrants), ?_⟩
  refine ⟨(e.sender.setLimit_enabled r m).trans h.enabled, h.counts, fun r' => ?_, fun r' => ?_,
    fun d hd => h.legal d ?_, h.bounded⟩
  · refine Credit.Move.sound ?_ (h.credit r')
    by_cases hr : r' = r
    · subst hr
      have hmove := Credit.Move.deliver (c := e.credit r') _ _ hgrants
      simp only [Exchange.credit, WtSendFlowControl.setLimit_used,
        WtSendFlowControl.setLimit_limit, if_true] at hmove ⊢
      exact hmove
    · have hsame : Credit.grantsFor r' e.channel = Credit.grantsFor r'
          (Exchange.channel { e with sender := e.sender.setLimit r m, capsules := rest }) := by
        rw [hchannel, Credit.grantsFor_ne (Ne.symm hr)]
      simp only [Exchange.credit, WtSendFlowControl.setLimit_used,
        WtSendFlowControl.setLimit_limit, if_neg hr, hsame]
      exact .idle
  · simp only [WtSendFlowControl.setLimit_used]
    exact h.transit r'
  · rw [hc]
    exact List.mem_cons_of_mem c hd

/-- An attempt is counted where there is room for it. -/
theorem Sound.attempted (h : e.Sound) {sender : Except FlowControlResource WtSendFlowControl}
    (hs : sender =
      if e.sender.used r + n ≤ e.sender.limit r then .ok (e.sender.count r n) else .error r) :
    (e.attempted r n sender).Sound := by
  rw [hs]
  split
  · exact h.sent ‹_›
  · exact h

/-- What arrives is allowed. -/
theorem Sound.arrived (h : e.Sound) {allowed : Bool} {receiver : WtSession}
    (hallowed : n ≤ e.transit r → allowed = true)
    (hsound : n ≤ e.transit r →
      Sound { e with receiver, transit := Function.update e.transit r (e.transit r - n) }) :
    ∃ e', e.arrived r n allowed receiver = .ok e' ∧ e'.Sound ∧
      (e'.receiver = e.receiver ∨ e'.receiver = receiver ∧ n ≤ e.transit r) := by
  unfold Exchange.arrived
  by_cases hn : e.transit r < n
  · exact ⟨e, if_pos hn, h, .inl rfl⟩
  · have hn := Nat.le_of_not_lt hn
    rw [if_neg (Nat.not_lt.mpr hn), hallowed hn]
    exact ⟨_, rfl, hsound hn, .inr ⟨rfl, hn⟩⟩

end Sound

/-! ## Steps and runs -/

/-- The bytes that an act lets the receiver count as consumed. -/
def Act.consumed : Act → Nat
  | .dataReset n | .dataConsumed n => n
  | _ => 0

/-- The limit on data stays in the range of a capsule when `n` more bytes are consumed. -/
def Fits (s : WtSession) (n : Nat) : Prop :=
  (s.grant .data).finished + n + (s.grant .data).width ≤ 2 ^ 62 - 1

instance (s : WtSession) (n : Nat) : Decidable (Fits s n) := inferInstanceAs (Decidable (_ ≤ _))

/-- At most `n` bytes are consumed. -/
structure Spends (s t : WtSession) (n : Nat) : Prop where
  finished_le : (t.grant .data).finished ≤ (s.grant .data).finished + n
  width : (t.grant .data).width = (s.grant .data).width

theorem Fits.spend {s t : WtSession} {n m : Nat} (h : Fits s (n + m)) (hst : Spends s t n) :
    Fits t m := by
  obtain ⟨hfinished, hwidth⟩ := hst
  unfold Fits at *
  omega

section Spends

variable {s t : WtSession} {n m : Nat}

theorem Spends.of_same (h : t.grant .data = s.grant .data) : Spends s t n :=
  ⟨h ▸ Nat.le_add_right _ _, by rw [h]⟩

theorem Spends.of_took {r : FlowControlResource} (h : s.Took t r m) : Spends s t n := by
  by_cases hr : .data = r
  · subst hr
    exact ⟨h.finished ▸ Nat.le_add_right _ _, h.width⟩
  · exact .of_same (h.others _ hr)

theorem Spends.of_finished (h : s.Finished t .data n) : Spends s t n := ⟨h.finished_le, h.width⟩

theorem Spends.of_closed {b : Bool} (h : s.Finished t (.ofStream b) m) : Spends s t n := by
  have hr : FlowControlResource.data ≠ .ofStream b := by cases b <;> decide
  exact .of_same (h.others _ hr)

end Spends

/-- No act is a violation, as long as the limit on data stays in range. -/
theorem Sound.step {e : Exchange} (h : e.Sound) (a : Act) (hfits : Fits e.receiver a.consumed) :
    ∃ e', e.step a = .ok e' ∧ e'.Sound ∧ Spends e.receiver e'.receiver a.consumed := by
  have hattempt : ∀ r n s, (e.attempted r n s).receiver = e.receiver := by
    intro r n s
    cases s <;> rfl
  cases a with
  | openStream b =>
    refine ⟨_, rfl, h.attempted ?_, ?_⟩
    · simp only [WtSendFlowControl.tryOpenStream, h.enabled, Bool.not_true, Bool.false_eq_true,
        if_false, Nat.succ_le_iff, ← Nat.not_le, ite_not]
    · rw [hattempt]
      exact .of_same rfl
  | sendData n =>
    refine ⟨_, rfl, h.attempted ?_, ?_⟩
    · exact WtSendFlowControl.trySendData_enabled h.enabled (h.credit .data).sent_le n
    · rw [hattempt]
      exact .of_same rfl
  | streamArrives b =>
    have htook := WtSession.addReceivedStream_took h.counts b
    obtain ⟨e', hstep, hsound, hrecv⟩ := h.arrived
      (fun hn => WtSession.checkReceivedStream_of_fits h.counts (h.fits hn))
      (fun hn => h.took hn htook)
    refine ⟨e', hstep, hsound, ?_⟩
    obtain hsame | ⟨htaken, -⟩ := hrecv
    · rw [hsame]
      exact .of_same rfl
    · rw [htaken]
      exact .of_took htook
  | dataArrives streamId n =>
    have htook := WtSession.addReceivedDataAndTrack_took h.counts streamId n
    obtain ⟨e', hstep, hsound, hrecv⟩ := h.arrived
      (fun hn => WtSession.checkReceivedData_of_fits h.counts (h.fits hn))
      (fun hn => h.took hn htook)
    refine ⟨e', hstep, hsound, ?_⟩
    obtain hsame | ⟨htaken, -⟩ := hrecv
    · rw [hsame]
      exact .of_same rfl
    · rw [htaken]
      exact .of_took htook
  | dataReset n =>
    have htook := WtSession.addReceivedData_took h.counts n
    have hspent : (((e.receiver.addReceivedData n).grant .data).finished + n +
        ((e.receiver.addReceivedData n).grant .data).width) ≤ 2 ^ 62 - 1 := by
      rw [htook.finished, htook.width]
      exact hfits
    have hfinished := WtSession.onDataConsumed_finished htook.counts hspent
    obtain ⟨e', hstep, hsound, hrecv⟩ := h.arrived
      (fun hn => WtSession.checkReceivedData_of_fits h.counts (h.fits hn))
      (fun hn => (h.took hn htook).finished hfinished)
    refine ⟨e', hstep, hsound, ?_⟩
    obtain hsame | ⟨htaken, -⟩ := hrecv
    · rw [hsame]
      exact .of_same rfl
    · rw [htaken]
      refine ⟨?_, hfinished.width.trans htook.width⟩
      rw [← htook.finished]
      exact hfinished.finished_le
  | streamCloses b =>
    have hfinished := WtSession.onRemoteStreamClosed_finished h.counts b
    exact ⟨_, rfl, h.finished hfinished, .of_closed hfinished⟩
  | dataConsumed n =>
    have hfinished := WtSession.onDataConsumed_finished h.counts hfits
    exact ⟨_, rfl, h.finished hfinished, .of_finished hfinished⟩
  | takeCapsules =>
    have hgrant : (WtSession.grant { e.receiver with pendingCapsules := [] }) = e.receiver.grant :=
      WtSession.grant_congr rfl rfl rfl
    refine ⟨_, rfl, ?_, .of_same (congrFun hgrant .data)⟩
    refine ⟨h.enabled, ⟨h.counts.enabled, h.counts.bidi, h.counts.uni, h.counts.data⟩,
      fun r => ?_, ?_, ?_, ?_⟩
    · have hcredit := h.credit r
      simp only [Exchange.credit, channel, List.append_nil, hgrant] at hcredit ⊢
      exact hcredit
    · rw [hgrant]
      exact h.transit
    · rw [List.append_nil]
      exact h.legal
    · rw [hgrant]
      exact h.bounded
  | capsuleArrives =>
    show ∃ e', e.capsuleArrived = .ok e' ∧ _
    unfold Exchange.capsuleArrived
    cases hc : e.capsules with
    | nil => exact ⟨e, rfl, h, .of_same rfl⟩
    | cons c rest =>
      obtain ⟨sender, hsender, hsound⟩ := h.delivered hc
      simp only [hsender]
      exact ⟨_, rfl, hsound, .of_same rfl⟩

/-- **No violation** in any run. -/
theorem run_ok {e : Exchange} (h : e.Sound) (acts : List Act)
    (hfits : Fits e.receiver (acts.map Act.consumed).sum) :
    ∃ e', acts.foldlM Exchange.step e = .ok e' ∧ e'.Sound := by
  induction acts generalizing e with
  | nil => exact ⟨e, rfl, h⟩
  | cons a acts ih =>
    rw [List.map_cons, List.sum_cons] at hfits
    have hfirst : Fits e.receiver a.consumed := by
      unfold Fits at *
      omega
    obtain ⟨e', hstep, hsound, hspends⟩ := h.step a hfirst
    obtain ⟨e'', hrun, hsound''⟩ := ih hsound (hfits.spend hspends)
    refine ⟨e'', ?_, hsound''⟩
    rw [List.foldlM_cons, hstep]
    exact hrun

/-! ## Nothing stalls -/

/-- A stream is closed once, and only what arrived is consumed. -/
def Admits (e : Exchange) : Act → Prop
  | .streamCloses b =>
    (e.receiver.grant (.ofStream b)).finished < (e.receiver.grant (.ofStream b)).used
  | .dataConsumed n => (e.receiver.grant .data).finished + n ≤ (e.receiver.grant .data).used
  | _ => True

instance (e : Exchange) : ∀ a, Decidable (e.Admits a)
  | .streamCloses _ => inferInstanceAs (Decidable (_ < _))
  | .dataConsumed _ => inferInstanceAs (Decidable (_ ≤ _))
  | .openStream _ | .sendData _ | .streamArrives _ | .dataArrives _ _ | .dataReset _
  | .takeCapsules | .capsuleArrives => .isTrue trivial

theorem arrived_ok {e e' : Exchange} {r : FlowControlResource} {n : Nat} {allowed : Bool}
    {receiver : WtSession} (h : e.arrived r n allowed receiver = .ok e') :
    e' = e ∨ n ≤ e.transit r ∧ e'.receiver = receiver := by
  unfold arrived at h
  split_ifs at h with hn hallowed
  · exact .inl (Except.ok.inj h).symm
  · refine .inr ⟨Nat.le_of_not_lt hn, ?_⟩
    cases h
    rfl

theorem open_dataConsumed {s : WtSession} (hcounts : s.Counts) (hopen : ∀ r, s.Open r) {n : Nat}
    (hfits : Fits s n)
    (hn : 0 < (s.grant .data).width → (s.grant .data).finished + n ≤ (s.grant .data).used)
    (r : FlowControlResource) : (s.onDataConsumed n).Open r := by
  by_cases hr : r = .data
  · subst hr
    obtain ⟨fc, hfc, hgrant⟩ := hcounts.window
    rw [hgrant] at hn
    exact (hopen _).data hgrant (WtSession.onDataConsumed_grant hcounts hfc) hn
  · exact (hopen r).of_same ((WtSession.onDataConsumed_finished hcounts hfits).others r hr)

section Step

variable {e e' : Exchange} (h : e.Sound) (hopen : ∀ r, e.receiver.Open r)

include h hopen

theorem open_streamArrives {b : Bool} (hn : 1 ≤ e.transit (.ofStream b)) (r : FlowControlResource) :
    (e.receiver.addReceivedStream b).Open r := by
  by_cases hr : r = .ofStream b
  · subst hr
    obtain ⟨fc, hfc, hgrant⟩ := h.counts.stream b
    have hroom := h.fits hn
    rw [hgrant] at hroom
    exact (hopen _).stream hgrant (WtSession.addReceivedStream_grant hfc) (decide_eq_true hroom)
  · exact (hopen r).of_same ((WtSession.addReceivedStream_took h.counts b).others r hr)

theorem open_dataArrives {n : Nat} (hn : n ≤ e.transit .data) (r : FlowControlResource) :
    (e.receiver.addReceivedData n).Open r := by
  by_cases hr : r = .data
  · subst hr
    obtain ⟨fc, hfc, hgrant⟩ := h.counts.window
    have hroom := h.fits hn
    rw [hgrant] at hroom
    exact (hopen _).data hgrant (WtSession.addReceivedData_grant hfc)
      fun _ => decide_eq_true (Nat.le_sub_of_add_le' hroom)
  · exact (hopen r).of_same ((WtSession.addReceivedData_took h.counts n).others r hr)

theorem open_streamCloses {b : Bool}
    (hn : (e.receiver.grant (.ofStream b)).finished < (e.receiver.grant (.ofStream b)).used)
    (r : FlowControlResource) : (e.receiver.onRemoteStreamClosed b).Open r := by
  by_cases hr : r = .ofStream b
  · subst hr
    obtain ⟨fc, hfc, hgrant⟩ := h.counts.stream b
    rw [hgrant] at hn
    exact (hopen _).stream hgrant (WtSession.onRemoteStreamClosed_grant h.counts hfc) hn
  · exact (hopen r).of_same ((WtSession.onRemoteStreamClosed_finished h.counts b).others r hr)

theorem open_dataReset {n : Nat} (hn : n ≤ e.transit .data) (hfits : Fits e.receiver n)
    (r : FlowControlResource) : ((e.receiver.addReceivedData n).onDataConsumed n).Open r := by
  have htook := WtSession.addReceivedData_took h.counts n
  refine open_dataConsumed htook.counts (open_dataArrives h hopen hn) ?_ (fun hwidth => ?_) r
  · rw [Fits, htook.finished, htook.width]
    exact hfits
  · rw [htook.width] at hwidth
    have hfinished := ((hopen .data) hwidth).1.finished_le
    rw [htook.finished, htook.used,
      saturatingAdd_eq (Nat.lt_of_le_of_lt (h.fits hn) (h.bounded .data))]
    omega

theorem open_step {a : Act} (ha : e.Admits a) (hstep : e.step a = .ok e')
    (hfits : Fits e.receiver a.consumed) (r : FlowControlResource) : e'.receiver.Open r := by
  cases a with
  | openStream b =>
    cases hstep
    unfold attempted
    split <;> exact hopen r
  | sendData n =>
    cases hstep
    unfold attempted
    split <;> exact hopen r
  | streamArrives b =>
    obtain rfl | ⟨hn, hreceiver⟩ := arrived_ok hstep
    · exact hopen r
    · rw [hreceiver]
      exact open_streamArrives h hopen hn r
  | dataArrives streamId n =>
    obtain rfl | ⟨hn, hreceiver⟩ := arrived_ok hstep
    · exact hopen r
    · rw [hreceiver]
      refine (open_dataArrives h hopen hn r).of_same ?_
      exact congrFun (WtSession.grant_congr rfl rfl rfl) r
  | dataReset n =>
    obtain rfl | ⟨hn, hreceiver⟩ := arrived_ok hstep
    · exact hopen r
    · rw [hreceiver]
      exact open_dataReset h hopen hn hfits r
  | streamCloses b =>
    cases hstep
    exact open_streamCloses h hopen ha r
  | dataConsumed n =>
    cases hstep
    exact open_dataConsumed h.counts hopen hfits (fun _ => ha) r
  | takeCapsules =>
    cases hstep
    exact (hopen r).of_same (congrFun (WtSession.grant_congr rfl rfl rfl) r)
  | capsuleArrives =>
    have hstep : e.capsuleArrived = .ok e' := hstep
    unfold capsuleArrived at hstep
    split at hstep
    · cases hstep
      exact hopen r
    · split at hstep <;> cases hstep
      exact hopen r

end Step

/-- `P` holds of every act of a run and of what it acts on. -/
def Along (P : Exchange → Act → Prop) (e : Exchange) : List Act → Prop
  | [] => True
  | a :: acts => P e a ∧ ∀ e', e.step a = .ok e' → Along P e' acts

instance Along.decidable {P : Exchange → Act → Prop} [∀ e a, Decidable (P e a)] :
    ∀ e acts, Decidable (Along P e acts)
  | _, [] => .isTrue trivial
  | e, a :: acts =>
    match h : e.step a with
    | .error _ =>
      decidable_of_iff (P e a) ⟨fun hp => ⟨hp, fun e' he => by rw [h] at he; cases he⟩, And.left⟩
    | .ok e₁ =>
      have := Along.decidable (P := P) e₁ acts
      decidable_of_iff (P e a ∧ Along P e₁ acts)
        ⟨fun hp => ⟨hp.1, fun e' he => by rw [h] at he; cases he; exact hp.2⟩,
          fun hp => ⟨hp.1, hp.2 e₁ h⟩⟩

/-- The windows that are not empty leave room in any run. -/
theorem run_open {e e' : Exchange} (h : e.Sound) (hopen : ∀ r, e.receiver.Open r)
    {acts : List Act} (hacts : Along Admits e acts)
    (hfits : Fits e.receiver (acts.map Act.consumed).sum)
    (hrun : acts.foldlM Exchange.step e = .ok e') : e'.Sound ∧ ∀ r, e'.receiver.Open r := by
  induction acts generalizing e with
  | nil =>
    cases hrun
    exact ⟨h, hopen⟩
  | cons a acts ih =>
    rw [List.map_cons, List.sum_cons] at hfits
    have hfirst : Fits e.receiver a.consumed := by
      unfold Fits at *
      omega
    obtain ⟨e₁, hstep, hsound, hspends⟩ := h.step a hfirst
    rw [List.foldlM_cons, hstep] at hrun
    exact ih hsound (open_step h hopen hacts.1 hstep hfirst) (hacts.2 e₁ hstep)
      (hfits.spend hspends) hrun

/-- Nothing of the resource and no capsule is on its way, and what arrived is finished. -/
structure Settled (e : Exchange) (r : FlowControlResource) : Prop where
  transit : e.transit r = 0
  capsules : e.capsules = []
  pending : e.receiver.pendingCapsules = []
  finished : (e.receiver.grant r).finished = (e.receiver.grant r).used

theorem Settled.room {e : Exchange} {r : FlowControlResource} (hr : e.Settled r) (h : e.Sound)
    (hopen : e.receiver.Open r) (hwidth : 0 < (e.receiver.grant r).width)
    (hstop : (e.receiver.grant r).used < WtSession.stop r) :
    e.sender.used r + 1 ≤ e.sender.limit r := by
  have hgrants : (e.credit r).grants = [] := by
    simp only [Exchange.credit, channel, hr.capsules, hr.pending]
    rfl
  have hlimit : e.sender.limit r = (e.receiver.grant r).granted := (h.credit r).settled hgrants
  have hused := h.transit r
  rw [hr.transit, Nat.add_zero] at hused
  rw [hlimit, ← hused]
  exact (hopen hwidth).1.opens hr.finished hstop

/-! ## Without flow control -/

theorem addReceivedStream_flowControlEnabled (s : WtSession) (b : Bool) :
    (s.addReceivedStream b).flowControlEnabled = s.flowControlEnabled := by
  unfold WtSession.addReceivedStream
  split
  · cases b <;> rfl
  · rfl

theorem addReceivedData_flowControlEnabled (s : WtSession) (n : Nat) :
    (s.addReceivedData n).flowControlEnabled = s.flowControlEnabled := by
  unfold WtSession.addReceivedData
  split <;> rfl

/-- Neither end looks at a limit. -/
structure Off (e : Exchange) : Prop where
  sender : e.sender.enabled = false
  receiver : e.receiver.flowControlEnabled = false

section Off

variable {e : Exchange}

theorem Off.attempted (h : e.Off) {r : FlowControlResource} {n : Nat}
    {sender : Except FlowControlResource WtSendFlowControl}
    (hs : sender = .ok (e.sender.count r n)) : (e.attempted r n sender).Off := by
  subst hs
  exact ⟨(e.sender.count_enabled r n).trans h.sender, h.receiver⟩

theorem Off.arrived (h : e.Off) (r : FlowControlResource) (n : Nat) {allowed : Bool}
    {receiver : WtSession} (hallowed : allowed = true)
    (hreceiver : receiver.flowControlEnabled = e.receiver.flowControlEnabled) :
    ∃ e', e.arrived r n allowed receiver = .ok e' ∧ e'.Off := by
  unfold Exchange.arrived
  rw [hallowed]
  by_cases hn : e.transit r < n
  · exact ⟨e, if_pos hn, h⟩
  · rw [if_neg hn]
    exact ⟨_, rfl, h.sender, hreceiver.trans h.receiver⟩

theorem Off.step (h : e.Off) (a : Act) : ∃ e', e.step a = .ok e' ∧ e'.Off := by
  have hstream : ∀ b, e.receiver.checkReceivedStream b = true := fun b => by
    rw [WtSession.checkReceivedStream, h.receiver]
    rfl
  have hdata : ∀ n, e.receiver.checkReceivedData n = true := fun n => by
    rw [WtSession.checkReceivedData, h.receiver]
    rfl
  have hconsumed : ∀ s : WtSession, s.flowControlEnabled = false → ∀ n, s.onDataConsumed n = s :=
    fun s hs n => by rw [WtSession.onDataConsumed, hs, if_neg Bool.false_ne_true]
  cases a with
  | openStream b =>
    refine ⟨_, rfl, h.attempted ?_⟩
    simp only [WtSendFlowControl.tryOpenStream, h.sender, Bool.not_false, if_true]
  | sendData n =>
    refine ⟨_, rfl, h.attempted ?_⟩
    simp only [WtSendFlowControl.trySendData, h.sender, Bool.not_false, if_true]
  | streamArrives b => exact h.arrived _ _ (hstream b) (addReceivedStream_flowControlEnabled _ b)
  | dataArrives streamId n => exact h.arrived _ _ (hdata n) (addReceivedData_flowControlEnabled _ n)
  | dataReset n =>
    have hoff := (addReceivedData_flowControlEnabled e.receiver n).trans h.receiver
    refine h.arrived _ _ (hdata n) ?_
    rw [hconsumed _ hoff, addReceivedData_flowControlEnabled]
  | streamCloses b =>
    refine ⟨_, rfl, h.sender, ?_⟩
    rw [WtSession.onRemoteStreamClosed, h.receiver, if_neg Bool.false_ne_true, h.receiver]
  | dataConsumed n =>
    refine ⟨_, rfl, h.sender, ?_⟩
    rw [hconsumed _ h.receiver, h.receiver]
  | takeCapsules => exact ⟨_, rfl, h.sender, h.receiver⟩
  | capsuleArrives =>
    show ∃ e', e.capsuleArrived = .ok e' ∧ _
    unfold Exchange.capsuleArrived
    cases hc : e.capsules with
    | nil => exact ⟨e, rfl, h⟩
    | cons c rest =>
      have hignored : e.sender.processCapsule c = .ok e.sender := by
        simp only [WtSendFlowControl.processCapsule, h.sender, Bool.not_false, if_true]
      simp only [hignored]
      exact ⟨_, rfl, h.sender, h.receiver⟩

theorem Off.run_ok (h : e.Off) (acts : List Act) :
    ∃ e', acts.foldlM Exchange.step e = .ok e' ∧ e'.Off := by
  induction acts generalizing e with
  | nil => exact ⟨e, rfl, h⟩
  | cons a acts ih =>
    obtain ⟨e', hstep, hoff⟩ := h.step a
    rw [List.foldlM_cons, hstep]
    exact ih hoff

end Off

/-! ## The start -/

section Start

variable {sender receiver : Env} {session : WtSession}

open Connection

/-- The limits that both ends have to start with. -/
def initialLimit (wt : WtSettings) : FlowControlResource → Nat
  | .bidirectionalStream => wt.wtInitialMaxStreamsBidi.get
  | .unidirectionalStream => wt.wtInitialMaxStreamsUni.get
  | .data => wt.wtInitialMaxData.get

variable (sender receiver) in
theorem flags_agree : isWtFlowControlEnabled sender receiver.localSettings.exchanged =
    isWtFlowControlEnabled receiver sender.localSettings.exchanged :=
  @flow_control_agrees sender.localSettings receiver.localSettings sender.order receiver.order

/-- What flow control needs of the receiver's settings. -/
theorem settings_of_enabled
    (h : isWtFlowControlEnabled sender receiver.localSettings.exchanged = true) :
    ∃ wt, receiver.localSettings.wtSettings = some wt ∧
      peerWt receiver.localSettings.exchanged = some wt := by
  rw [isWtFlowControlEnabled] at h
  split at h
  · rename_i localWt wt _ hpeer
    refine ⟨wt, ?_, hpeer⟩
    rw [Settings.exchanged_eq, peerWt, Option.bind_some] at hpeer
    exact (WtSettings.onWire_eq_some hpeer).1
  · cases h

theorem start_off (h : isWtFlowControlEnabled sender receiver.localSettings.exchanged = false) :
    (start sender receiver session).Off := by
  refine ⟨h, ?_⟩
  have hreceiver := flags_agree sender receiver ▸ h
  simp only [start, establishedSession, hreceiver]
  cases receiver.localSettings.wtSettings <;> rfl

section On

variable {wt : WtSettings}
  (henabled : isWtFlowControlEnabled sender receiver.localSettings.exchanged = true)
  (hlocal : receiver.localSettings.wtSettings = some wt)
  (hpeer : peerWt receiver.localSettings.exchanged = some wt)

include henabled hlocal

/-- The session that the receiver starts with. -/
theorem start_receiver : (start sender receiver session).receiver =
    { session with
      state := .established
      flowControlEnabled := true
      recvStreamFcUni := some (.new wt.wtInitialMaxStreamsUni.get)
      recvStreamFcBidi := some (.new wt.wtInitialMaxStreamsBidi.get)
      recvDataFc := some (.new wt.wtInitialMaxData.get)
      pendingCapsules :=
        if peerRequiresInitialWtCapsules sender.localSettings.exchanged then
          session.pendingCapsules ++ WtSession.initialCapsules wt
        else session.pendingCapsules } := by
  have hreceiver := flags_agree sender receiver ▸ henabled
  simp only [start, establishedSession, hreceiver, hlocal, WtSession.initializeFlowControl,
    Bool.true_and, if_true]

theorem start_grant (r : FlowControlResource) :
    (start sender receiver session).receiver.grant r = .new (initialLimit wt r) := by
  rw [start_receiver henabled hlocal]
  cases r <;> rfl

theorem start_counts : (start sender receiver session).receiver.Counts := by
  rw [start_receiver henabled hlocal]
  exact ⟨rfl, rfl, rfl, rfl⟩

include hpeer

omit henabled hlocal in
theorem start_limit (r : FlowControlResource) :
    (start sender receiver session).sender.limit r = initialLimit wt r := by
  have hlimits : peerWtSendLimits receiver.localSettings.exchanged =
      ⟨wt.wtInitialMaxStreamsUni.get, wt.wtInitialMaxStreamsBidi.get, wt.wtInitialMaxData.get⟩ := by
    have hpeer : receiver.localSettings.exchanged.bind Settings.wtSettings = some wt := hpeer
    rw [peerWtSendLimits, hpeer]
  simp only [start, WtSendFlowControl.new, hlimits]
  cases r <;> rfl

theorem start_sound (hnone : (start sender receiver session).receiver.pendingCapsules = []) :
    (start sender receiver session).Sound := by
  have hgrant : ∀ r, (start sender receiver session).receiver.grant r = .new (initialLimit wt r) :=
    start_grant henabled hlocal
  have hchannel : (start sender receiver session).channel = [] := by
    simp only [channel, hnone]
    rfl
  have hcredit : ∀ r, (start sender receiver session).credit r = .new (initialLimit wt r) := by
    intro r
    simp only [Exchange.credit, hgrant, hchannel, start_limit hpeer]
    cases r <;> rfl
  refine ⟨henabled, start_counts henabled hlocal, fun r => ?_, fun r => ?_, ?_, fun r => ?_⟩
  · rw [hcredit]
    exact .new _
  · rw [hgrant]
    cases r <;> rfl
  · rw [hnone]
    exact fun c hc => nomatch hc
  · rw [hgrant]
    show initialLimit wt r < 2 ^ 64
    have hbound : ∀ v : VarInt, v.get < 2 ^ 64 := fun v => Nat.lt_of_le_of_lt v.le_max (by decide)
    cases r <;> exact hbound _

omit henabled hlocal hpeer in
/-- The capsules of a new session say again what SETTINGS said. -/
theorem grant_of_initialCapsules {c : Capsule} (hc : c ∈ WtSession.initialCapsules wt) :
    ∃ r, c.grant? = some (r, initialLimit wt r) := by
  obtain ⟨⟨limit, capsule⟩, hmem, heq⟩ := List.mem_filterMap.mp hc
  obtain ⟨-, heq⟩ := Option.ite_none_right_eq_some.mp heq
  obtain rfl := Option.some.inj heq
  simp only [List.mem_cons, Prod.mk.injEq, List.not_mem_nil, or_false] at hmem
  obtain ⟨rfl, rfl⟩ | ⟨rfl, rfl⟩ | ⟨rfl, rfl⟩ := hmem
  · exact ⟨.bidirectionalStream, rfl⟩
  · exact ⟨.unidirectionalStream, rfl⟩
  · exact ⟨.data, rfl⟩

omit hlocal in
/-- The sender refuses such a capsule. -/
theorem repeated_limit_refused {c : Capsule} {rest : List Capsule}
    (hc : (start sender receiver session).receiver.pendingCapsules = c :: rest)
    (hmem : c ∈ WtSession.initialCapsules wt) (e : Exchange) :
    [.takeCapsules, .capsuleArrives].foldlM step (start sender receiver session) ≠ .ok e := by
  obtain ⟨r, hgrant⟩ := grant_of_initialCapsules hmem
  have hlimit : initialLimit wt r ≤ (start sender receiver session).sender.limit r :=
    Nat.le_of_eq (start_limit hpeer r).symm
  obtain ⟨err, hrefused⟩ := WtSendFlowControl.processCapsule_repeated henabled hgrant hlimit
  have hcapsules : (start sender receiver session).capsules = [] := rfl
  simp only [List.foldlM_cons, step, capsuleArrived, hcapsules, hc, List.nil_append, bind,
    Except.bind, hrefused]
  exact nofun

end On

/-- **Flow control between the ends**: no order of sending, arriving and consuming makes an end close
the session, exactly when the receiver does not repeat the limits of its SETTINGS in capsules. -/
theorem ends_respect_limits (sender receiver : Env) (session : WtSession)
    (hs : session.pendingCapsules = []) :
    (∀ acts : List Act,
        Fits (start sender receiver session).receiver (acts.map Act.consumed).sum →
        ∃ e, acts.foldlM step (start sender receiver session) = .ok e) ↔
      (start sender receiver session).receiver.pendingCapsules = [] := by
  cases henabled : isWtFlowControlEnabled sender receiver.localSettings.exchanged with
  | false =>
    have hreceiver := flags_agree sender receiver ▸ henabled
    refine ⟨fun _ => ?_, fun _ acts _ => ?_⟩
    · simp only [start, establishedSession, hreceiver]
      cases receiver.localSettings.wtSettings <;> exact hs
    · obtain ⟨e, hrun, -⟩ := (start_off henabled).run_ok acts
      exact ⟨e, hrun⟩
  | true =>
    obtain ⟨wt, hlocal, hpeer⟩ := settings_of_enabled henabled
    refine ⟨fun hall => ?_, fun hnone acts hfits => ?_⟩
    · cases hc : (start sender receiver session).receiver.pendingCapsules with
      | nil => rfl
      | cons c rest =>
        have hmem : c ∈ WtSession.initialCapsules wt := by
          have hpending := hc
          rw [start_receiver henabled hlocal] at hpending
          dsimp only at hpending
          split at hpending
          · rw [hs, List.nil_append] at hpending
            exact hpending ▸ List.mem_cons_self
          · rw [hs] at hpending
            cases hpending
        have hfits : Fits (start sender receiver session).receiver 0 := by
          rw [Fits, start_grant henabled hlocal]
          show 0 + wt.wtInitialMaxData.get ≤ _
          rw [Nat.zero_add]
          exact wt.wtInitialMaxData.le_max
        obtain ⟨e, hrun⟩ := hall [.takeCapsules, .capsuleArrives] hfits
        exact absurd hrun (repeated_limit_refused henabled hpeer hc hmem e)
    · obtain ⟨e, hrun, -⟩ := run_ok (start_sound henabled hlocal hpeer hnone) acts hfits
      exact ⟨e, hrun⟩

theorem start_open (henabled : isWtFlowControlEnabled sender receiver.localSettings.exchanged = true)
    {wt : WtSettings} (hlocal : receiver.localSettings.wtSettings = some wt)
    (r : FlowControlResource) : (start sender receiver session).receiver.Open r := by
  rw [WtSession.Open, start_grant henabled hlocal]
  have hbound : ∀ v : VarInt, v.get < 2 ^ 64 := fun v => Nat.lt_of_le_of_lt v.le_max (by decide)
  refine fun hwidth => ⟨.new _ hwidth, ?_⟩
  cases r <;> exact hbound _

theorem four_le_max : 4 ≤ 2 ^ 62 - 1 := by decide

/-- Two streams at a time, one of each direction, and four bytes. -/
def smallWindows : Settings :=
  Settings.new.enableWebtransportServer
    { WtSettings.new with
      wtEnabledDraft17 := .fromStatic 1 VarInt.one_le_max
      wtInitialMaxStreamsBidi := .fromStatic 1 VarInt.one_le_max
      wtInitialMaxStreamsUni := .fromStatic 1 VarInt.one_le_max
      wtInitialMaxData := .fromStatic 4 four_le_max }

/-- A stream with four bytes, until both ends know the new limits. -/
def oneStream : List Act :=
  [.openStream true, .sendData 4, .dataArrives 0 4, .streamArrives true, .dataConsumed 4,
    .streamCloses true, .takeCapsules, .capsuleArrives, .capsuleArrives]

theorem start_smallWindows :
    start (clientEnv smallWindows .asListed) (serverEnv smallWindows .asListed) .new =
      { sender := .new true ⟨1, 1, 4⟩
        transit := fun _ => 0
        receiver := (WtSession.initializeFlowControl { WtSession.new with
          state := .established, flowControlEnabled := true } ((smallWindows.wtSettings).getD .new) false)
        capsules := [] } := by
  have hexchanged : smallWindows.exchanged = some smallWindows := by
    rw [Settings.exchanged_eq]
    decide
  simp only [start, clientEnv, serverEnv, hexchanged]
  rfl

theorem ends_respect_limits_small :
    ∃ e, oneStream.foldlM step
      (start (clientEnv smallWindows .asListed) (serverEnv smallWindows .asListed) .new) = .ok e :=
  (ends_respect_limits (clientEnv smallWindows .asListed) (serverEnv smallWindows .asListed) .new
    rfl).mpr (by rw [start_smallWindows]; rfl) oneStream (by rw [start_smallWindows]; decide)

/-- **Nothing stalls**: when nothing is on its way and all streams that arrived are closed, the
sender may open another one, and when all data is consumed it may send another byte. -/
theorem settled_ends_go_on (sender receiver : Env) (session : WtSession) (acts : List Act)
    (e : Exchange) (hnone : (start sender receiver session).receiver.pendingCapsules = [])
    (hfits : Fits (start sender receiver session).receiver (acts.map Act.consumed).sum)
    (hacts : Along Admits (start sender receiver session) acts)
    (hrun : acts.foldlM step (start sender receiver session) = .ok e) :
    (∀ b, e.Settled (.ofStream b) → 0 < (e.receiver.grant (.ofStream b)).width →
      (e.receiver.grant (.ofStream b)).used < MAX_STREAMS_LIMIT →
      ∃ s, e.sender.tryOpenStream b = .ok s) ∧
    (e.Settled .data → 0 < (e.receiver.grant .data).width →
      (e.receiver.grant .data).used < 2 ^ 64 - 1 → ∃ s, e.sender.trySendData 1 = .ok s) := by
  cases henabled : isWtFlowControlEnabled sender receiver.localSettings.exchanged with
  | false =>
    have hstart : (start sender receiver session).Off := start_off henabled
    obtain ⟨e', hrun', hoff⟩ := hstart.run_ok acts
    rw [hrun] at hrun'
    cases hrun'
    refine ⟨fun b _ _ _ => ⟨e.sender.count (.ofStream b) 1, ?_⟩,
      fun _ _ _ => ⟨e.sender.count .data 1, ?_⟩⟩
    · simp only [WtSendFlowControl.tryOpenStream, hoff.sender, Bool.not_false, if_true]
    · simp only [WtSendFlowControl.trySendData, hoff.sender, Bool.not_false, if_true]
  | true =>
    obtain ⟨wt, hlocal, hpeer⟩ := settings_of_enabled henabled
    obtain ⟨hsound, hopen⟩ := run_open (start_sound henabled hlocal hpeer hnone)
      (start_open henabled hlocal) hacts hfits hrun
    refine ⟨fun b hsettled hwidth hstop => ⟨e.sender.count (.ofStream b) 1, ?_⟩,
      fun hsettled hwidth hstop => ⟨e.sender.count .data 1, ?_⟩⟩
    · have hroom := hsettled.room hsound (hopen _) hwidth (by rwa [WtSession.stop_ofStream])
      simp only [WtSendFlowControl.tryOpenStream, hsound.enabled, Bool.not_true,
        Bool.false_eq_true, if_false, Nat.not_le.mpr hroom]
    · have hroom := hsettled.room hsound (hopen _) hwidth hstop
      rw [WtSendFlowControl.trySendData_enabled hsound.enabled (hsound.credit .data).sent_le,
        if_pos hroom]

theorem settled_ends_go_on_small :
    ∃ e s, oneStream.foldlM step
        (start (clientEnv smallWindows .asListed) (serverEnv smallWindows .asListed) .new) = .ok e ∧
      e.sender.tryOpenStream true = .ok s := by
  obtain ⟨e, hrun, hsettled, hwidth, hstop⟩ : ∃ e, oneStream.foldlM step
        (start (clientEnv smallWindows .asListed) (serverEnv smallWindows .asListed) .new) = .ok e ∧
      e.Settled .bidirectionalStream ∧ 0 < (e.receiver.grant .bidirectionalStream).width ∧
      (e.receiver.grant .bidirectionalStream).used < MAX_STREAMS_LIMIT := by
    rw [start_smallWindows]
    exact ⟨_, rfl, ⟨rfl, rfl, rfl, rfl⟩, by decide, by decide⟩
  obtain ⟨s, hs⟩ := (settled_ends_go_on (clientEnv smallWindows .asListed)
    (serverEnv smallWindows .asListed) .new oneStream e (by rw [start_smallWindows]; rfl)
    (by rw [start_smallWindows]; decide) (by rw [start_smallWindows]; decide) hrun).1 true hsettled
    hwidth hstop
  exact ⟨e, s, hrun, hs⟩

end Start

end Exchange

end Http3
