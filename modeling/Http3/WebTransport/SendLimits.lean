import Http3.Lib.Window
import Http3.WebTransport.Lifecycle

/-!
# What a session may send

Streams of each direction and bytes are three windows of one kind. Each operation moves a window
(`Session.step_window`), so the rules of windows say what holds along a run.
-/

namespace Http3

namespace WebTransport

inductive Resource where
  | streams (bidirectional : Bool)
  | data
  deriving DecidableEq, Repr

/-- The maximum that a capsule announces as blocking. -/
def Resource.blockedAt : Resource → Capsule → Option Nat
  | .streams b, .streamsBlocked b' maximum => if b = b' then some maximum else none
  | .data, .dataBlocked maximum => some maximum
  | _, _ => none

namespace Session

variable {s : Session} {op : SessionOp}

def used (s : Session) : Resource → Nat
  | .streams b => s.streamsOpened b
  | .data => s.flowState.dataSent

def limit (s : Session) : Resource → Nat
  | .streams b => s.maxStreams b
  | .data => s.remoteLimits.maxData

def lastBlocked (s : Session) : Resource → Option Nat
  | .streams b => s.lastStreamsBlocked b
  | .data => s.sendBlocked.lastDataBlocked

def window (s : Session) (r : Resource) : Window Nat := ⟨s.used r, s.limit r, s.lastBlocked r⟩

/-- The capsules that an attempt to open a stream or to send data queues. -/
def blockedCapsules (s : Session) : SessionOp → List Capsule
  | .tryOpenStream b => (s.tryOpenStream b).2.pendingCapsules.drop s.pendingCapsules.length
  | .trySendData bytes => (s.trySendData bytes).2.pendingCapsules.drop s.pendingCapsules.length
  | _ => []

/-- The maxima announced along a run, in order. -/
def announced (s : Session) (r : Resource) : List SessionOp → List Nat
  | [] => []
  | op :: ops => (s.blockedCapsules op).filterMap r.blockedAt ++ announced (s.step op) r ops

/-- Flow control stays on, and nobody writes counters or limits by hand. -/
def Ordinary : SessionOp → Prop
  | .remoteLimitsMut _ | .flowStateMut _ | .initializeRemoteLimits _ => False
  | .setFlowControlEnabled enabled => enabled = true
  | _ => True

/-! ## One operation -/

theorem window_of_eq {t : Session} (hflow : t.flowState = s.flowState)
    (hlimits : t.remoteLimits = s.remoteLimits) (hblocked : t.sendBlocked = s.sendBlocked)
    (r : Resource) : t.window r = s.window r := by
  cases r <;> simp only [window, used, limit, lastBlocked, streamsOpened, maxStreams,
    lastStreamsBlocked, hflow, hlimits, hblocked]

theorem saturatingAdd_le (a b : Nat) : saturatingAdd a b ≤ a + b := Nat.min_le_left _ _

theorem countOpened_window (b : Bool) (r : Resource) :
    (s.countOpened b).window r =
      if r = .streams b then { s.window r with used := saturatingAdd (s.used r) 1 }
      else s.window r := by
  cases r with
  | data => cases b <;> rfl
  | streams b' => cases b <;> cases b' <;> rfl

theorem setLastStreamsBlocked_window (b : Bool) (last : Option Nat) (r : Resource) :
    (s.setLastStreamsBlocked b last).window r =
      if r = .streams b then { s.window r with blocked := last } else s.window r := by
  cases r with
  | data => cases b <;> rfl
  | streams b' => cases b <;> cases b' <;> rfl

theorem tryOpenStream_window (henabled : s.flowControlEnabled = true) (b : Bool) (r : Resource) :
    (s.window r).Move ((s.tryOpenStream b).2.window r)
      ((s.blockedCapsules (.tryOpenStream b)).filterMap r.blockedAt) := by
  simp only [blockedCapsules, tryOpenStream, henabled, Bool.not_true, Bool.false_eq_true, if_false]
  split
  · simpa using Window.Move.idle
  · split
    · rename_i hlt
      have hqueue : (s.countOpened b).pendingCapsules = s.pendingCapsules := rfl
      rw [hqueue, List.drop_length, List.filterMap_nil, countOpened_window]
      split
      · rename_i hr
        refine .use _ (.inr ?_)
        have hle := saturatingAdd_le (s.streamsOpened b) 1
        subst hr
        exact Nat.le_trans hle hlt
      · exact .idle
    · split
      · rename_i hnew
        have hqueue : (s.setLastStreamsBlocked b (some (s.maxStreams b))).pendingCapsules =
            s.pendingCapsules := rfl
        rw [hqueue, List.drop_left]
        have hwindow : ({ s.setLastStreamsBlocked b (some (s.maxStreams b)) with
            pendingCapsules := s.pendingCapsules ++ [.streamsBlocked b (s.maxStreams b)] } :
            Session).window r = (s.setLastStreamsBlocked b (some (s.maxStreams b))).window r :=
          window_of_eq rfl rfl rfl r
        dsimp only
        rw [hwindow, setLastStreamsBlocked_window]
        by_cases hr : r = .streams b
        · subst hr
          simp only [List.filterMap_cons, Resource.blockedAt, if_true, List.filterMap_nil]
          exact .announce hnew
        · have hother : r.blockedAt (.streamsBlocked b (s.maxStreams b)) = none := by
            cases r with
            | data => rfl
            | streams b' => exact if_neg fun h => hr (by rw [h])
          rw [if_neg hr, List.filterMap_cons, hother, List.filterMap_nil]
          exact .idle
      · simpa using Window.Move.idle

theorem trySendData_window (henabled : s.flowControlEnabled = true) (bytes : Nat) (r : Resource) :
    (s.window r).Move ((s.trySendData bytes).2.window r)
      ((s.blockedCapsules (.trySendData bytes)).filterMap r.blockedAt) := by
  simp only [blockedCapsules, trySendData, henabled, Bool.not_true, Bool.false_eq_true, if_false]
  split
  · simpa using Window.Move.idle
  · split
    · rename_i hroom
      have hqueue : (s.countSent bytes).pendingCapsules = s.pendingCapsules := rfl
      rw [hqueue, List.drop_length, List.filterMap_nil]
      cases r with
      | streams b => exact .idle
      | data =>
        have hle := saturatingAdd_le s.flowState.dataSent bytes
        refine .use (saturatingAdd s.flowState.dataSent bytes) ?_
        show _ ≤ s.flowState.dataSent ∨ _ ≤ s.remoteLimits.maxData
        omega
    · split
      · rename_i hnew
        rw [List.drop_left]
        cases r with
        | streams b => exact .idle
        | data => exact .announce hnew
      · simpa using Window.Move.idle

theorem processMaxStreams_window (b : Bool) (maximum : Nat) (r : Resource) :
    (s.window r).Raised ((s.processMaxStreams b maximum).2.window r) := by
  unfold processMaxStreams
  split
  · exact .inl rfl
  · split
    · exact .inl rfl
    · rename_i hgrows
      have hlt := Nat.lt_of_not_le hgrows
      cases r with
      | data => cases b <;> exact .inl rfl
      | streams b' =>
        cases b <;> cases b' <;> first | exact .inl rfl | exact .inr ⟨maximum, hlt, rfl⟩

theorem processMaxData_window (maximum : Nat) (r : Resource) :
    (s.window r).Raised ((s.processMaxData maximum).2.window r) := by
  unfold processMaxData
  split
  · exact .inl rfl
  · rename_i hgrows
    cases r with
    | data => exact .inr ⟨maximum, Nat.lt_of_not_le hgrows, rfl⟩
    | streams b => exact .inl rfl

/-- The sending side is the same. -/
structure SameSend (s t : Session) : Prop where
  enabled : t.flowControlEnabled = s.flowControlEnabled
  window : ∀ r, t.window r = s.window r

theorem sameSend {t : Session} (henabled : t.flowControlEnabled = s.flowControlEnabled)
    (hflow : t.flowState = s.flowState) (hlimits : t.remoteLimits = s.remoteLimits)
    (hblocked : t.sendBlocked = s.sendBlocked) : s.SameSend t :=
  ⟨henabled, window_of_eq hflow hlimits hblocked⟩

theorem close_sameSend {t : Session} (h : s.SameSend t) (error : Option Error) :
    s.SameSend (t.close error) := by
  have hclose : t.SameSend (t.close error) := by
    unfold close
    split <;> exact sameSend rfl rfl rfl rfl
  exact ⟨hclose.enabled.trans h.enabled, fun r => (hclose.window r).trans (h.window r)⟩

theorem queueCapsule_sameSend (capsule : Capsule) : s.SameSend (s.queueCapsule capsule) := by
  unfold queueCapsule
  split <;> exact sameSend rfl rfl rfl rfl

theorem setDraining_sameSend {t : Session} (h : s.SameSend t) : s.SameSend t.setDraining := by
  unfold setDraining
  split
  · exact ⟨h.enabled, fun r => (window_of_eq rfl rfl rfl r).trans (h.window r)⟩
  · exact h

theorem processCapsule_window (capsule : Capsule) (r : Resource) :
    (s.window r).Raised ((s.processCapsule capsule).2.window r) := by
  obtain h | ⟨code, message, -, h⟩ | ⟨-, h⟩ | ⟨maximum, h⟩ | ⟨b, maximum, h⟩ :=
    processCapsule_cases (s := s) capsule
  · exact .inl (by rw [h])
  · have hsame : s.SameSend { s with closeSessionReceived := true } := sameSend rfl rfl rfl rfl
    exact .inl (by rw [h, (close_sameSend hsame _).window])
  · have hsame : s.SameSend s := sameSend rfl rfl rfl rfl
    exact .inl (by rw [h, (setDraining_sameSend hsame).window])
  · rw [h]
    exact processMaxData_window maximum r
  · rw [h]
    exact processMaxStreams_window b maximum r

theorem processCapsule_enabled (capsule : Capsule) :
    (s.processCapsule capsule).2.flowControlEnabled = s.flowControlEnabled := by
  obtain h | ⟨code, message, -, h⟩ | ⟨-, h⟩ | ⟨maximum, h⟩ | ⟨b, maximum, h⟩ :=
    processCapsule_cases (s := s) capsule
  · rw [h]
  · have hsame : s.SameSend { s with closeSessionReceived := true } := sameSend rfl rfl rfl rfl
    rw [h, (close_sameSend hsame _).enabled]
  · have hsame : s.SameSend s := sameSend rfl rfl rfl rfl
    rw [h, (setDraining_sameSend hsame).enabled]
  · rw [h]
    unfold processMaxData
    split <;> rfl
  · rw [h]
    unfold processMaxStreams
    split
    · rfl
    · split <;> rfl

/-- The operations that have nothing to do with sending. -/
theorem step_sameSend (hop : Ordinary op) (hopen : ∀ b, op ≠ .tryOpenStream b)
    (hsend : ∀ bytes, op ≠ .trySendData bytes) (hcapsule : ∀ capsule, op ≠ .processCapsule capsule)
    (henabled : s.flowControlEnabled = true) : s.SameSend (s.step op) := by
  have hself : s.SameSend s := sameSend rfl rfl rfl rfl
  cases op with
  | tryOpenStream b => exact absurd rfl (hopen b)
  | trySendData bytes => exact absurd rfl (hsend bytes)
  | processCapsule capsule => exact absurd rfl (hcapsule capsule)
  | remoteLimitsMut limits => exact hop.elim
  | flowStateMut state => exact hop.elim
  | initializeRemoteLimits limits => exact hop.elim
  | setFlowControlEnabled enabled =>
    obtain rfl : enabled = true := hop
    exact sameSend henabled.symm rfl rfl rfl
  | addReceivedStream b =>
    refine ⟨?_, fun r => ?_⟩
    · cases b <;> rfl
    · cases b <;> cases r <;> rfl
  | addReceivedData bytes => exact ⟨rfl, fun r => by cases r <;> rfl⟩
  | addReceivedDatagram => exact ⟨rfl, fun r => by cases r <;> rfl⟩
  | close error => exact close_sameSend hself error
  | closeWithError code message =>
    show s.SameSend (s.closeWithError code message)
    unfold closeWithError
    split
    · exact hself
    · have hqueue := queueCapsule_sameSend (s := s) (.closeSession code (truncateMessage message))
      refine close_sameSend (t := { s.queueCapsule _ with closeSessionSent := true })
        ⟨hqueue.enabled, fun r => ?_⟩ _
      exact (window_of_eq rfl rfl rfl r).trans (hqueue.window r)
  | onConnectStreamClosed =>
    show s.SameSend s.onConnectStreamClosed
    unfold onConnectStreamClosed
    split
    · exact hself
    · exact close_sameSend (s := s) (t := { s with closeSessionReceived := true })
        (sameSend rfl rfl rfl rfl) _
  | onRemoteStreamClosed b =>
    show s.SameSend (s.onRemoteStreamClosed b)
    unfold onRemoteStreamClosed
    split
    · exact hself
    · cases b <;> split <;> exact sameSend rfl rfl rfl rfl
  | onDataConsumed bytes =>
    show s.SameSend (s.onDataConsumed bytes)
    unfold onDataConsumed
    split
    · exact hself
    · split <;> exact sameSend rfl rfl rfl rfl
  | drain =>
    show s.SameSend s.drain
    unfold drain
    split
    · exact setDraining_sameSend (queueCapsule_sameSend .drainSession)
    · exact hself
  | setConnecting =>
    show s.SameSend s.setConnecting
    unfold setConnecting
    split <;> exact sameSend rfl rfl rfl rfl
  | setEstablished =>
    show s.SameSend s.setEstablished
    unfold setEstablished
    split <;> exact sameSend rfl rfl rfl rfl
  | setDraining => exact setDraining_sameSend hself
  | handleGoaway => exact setDraining_sameSend (sameSend rfl rfl rfl rfl)
  | addStream stream =>
    show s.SameSend (s.tryAddStream stream).2
    unfold tryAddStream
    split <;> exact sameSend rfl rfl rfl rfl
  | queueCapsule capsule => exact queueCapsule_sameSend capsule
  | bufferIncomingStream streamId b =>
    show s.SameSend (s.bufferIncomingStream streamId b).2
    unfold bufferIncomingStream
    split <;> exact sameSend rfl rfl rfl rfl
  | bufferDatagram data =>
    show s.SameSend (s.bufferDatagram data).2
    unfold bufferDatagram
    split <;> exact sameSend rfl rfl rfl rfl
  | _ => exact sameSend rfl rfl rfl rfl

/-- **Each operation moves each window.** -/
theorem step_window (henabled : s.flowControlEnabled = true) (hop : Ordinary op) (r : Resource) :
    (s.window r).Move ((s.step op).window r) ((s.blockedCapsules op).filterMap r.blockedAt) := by
  have hidle : s.blockedCapsules op = [] → s.SameSend (s.step op) →
      (s.window r).Move ((s.step op).window r)
        ((s.blockedCapsules op).filterMap r.blockedAt) := by
    intro hnone hsame
    rw [hnone, hsame.window r, List.filterMap_nil]
    exact .idle
  cases op with
  | tryOpenStream b => exact tryOpenStream_window henabled b r
  | trySendData bytes => exact trySendData_window henabled bytes r
  | processCapsule capsule => exact (processCapsule_window capsule r).move
  | _ => exact hidle rfl (step_sameSend hop nofun nofun nofun henabled)

theorem step_enabled (henabled : s.flowControlEnabled = true) (hop : Ordinary op) :
    (s.step op).flowControlEnabled = true := by
  cases op with
  | tryOpenStream b =>
    show (s.tryOpenStream b).2.flowControlEnabled = true
    unfold tryOpenStream
    split
    · exact henabled
    · split
      · exact henabled
      · split
        · exact henabled
        · split <;> exact henabled
  | trySendData bytes =>
    show (s.trySendData bytes).2.flowControlEnabled = true
    unfold trySendData
    split
    · exact henabled
    · split
      · exact henabled
      · split
        · exact henabled
        · split <;> exact henabled
  | processCapsule capsule => exact (processCapsule_enabled capsule).trans henabled
  | _ => exact (step_sameSend hop nofun nofun nofun henabled).enabled.trans henabled

/-! ## Runs -/

/-- Every window is sound along a run. -/
theorem run_sound (r : Resource) {ops : List SessionOp} (hops : ∀ op ∈ ops, Ordinary op)
    (henabled : s.flowControlEnabled = true) {before : List Nat}
    (hs : (s.window r).Sound before) :
    ((s.run ops).window r).Sound (before ++ s.announced r ops) := by
  induction ops generalizing s before with
  | nil =>
    rw [announced, List.append_nil]
    exact hs
  | cons op ops ih =>
    have hop := hops op List.mem_cons_self
    have hnext := (step_window henabled hop r).sound hs
    have hrun := ih (fun o ho => hops o (List.mem_cons_of_mem _ ho)) (step_enabled henabled hop)
      hnext
    rw [announced, ← List.append_assoc]
    exact hrun

theorem run_enabled {ops : List SessionOp} (hops : ∀ op ∈ ops, Ordinary op)
    (henabled : s.flowControlEnabled = true) : (s.run ops).flowControlEnabled = true := by
  induction ops generalizing s with
  | nil => exact henabled
  | cons op ops ih =>
    exact ih (fun o ho => hops o (List.mem_cons_of_mem _ ho))
      (step_enabled henabled (hops op List.mem_cons_self))

/-- Before it is established a session has sent nothing, and was not blocked. -/
def Unused (s : Session) : Prop :=
  s.state = .pending ∨ s.state = .connecting → ∀ r, s.used r = 0 ∧ s.lastBlocked r = none

theorem step_unused (henabled : s.flowControlEnabled = true) (hop : Ordinary op)
    (hs : s.Unused) : (s.step op).Unused := by
  intro hstate r
  have hbefore : s.state = .pending ∨ s.state = .connecting := by
    have hrank : (s.step op).state.rank ≤ 1 := by
      obtain h | h := hstate <;> rw [h] <;> decide
    have hle : s.state.rank ≤ 1 := by
      obtain hk | hc := step_cases s op
      · exact Nat.le_trans hk.forward hrank
      · rw [hc.state] at hrank
        exact absurd hrank (by decide)
    cases hcase : s.state with
    | pending => exact .inl rfl
    | connecting => exact .inr rfl
    | _ =>
      rw [hcase] at hle
      exact absurd hle (by decide)
  obtain ⟨hused, hblocked⟩ := hs hbefore r
  have hno : s.state.canCreateStream = false ∧ s.state.canSend = false := by
    obtain h | h := hbefore <;> rw [h] <;> exact ⟨rfl, rfl⟩
  have hsame : (s.step op).used r = s.used r ∧
      ((s.step op).lastBlocked r = s.lastBlocked r ∨ (s.step op).lastBlocked r = none) := by
    cases op with
    | tryOpenStream b => simp [step, tryOpenStream, hno.1]
    | trySendData bytes => simp [step, trySendData, hno.2]
    | processCapsule capsule =>
      obtain h | ⟨limit, -, h⟩ := processCapsule_window (s := s) capsule r
      · exact ⟨congrArg Window.used h, .inl (congrArg Window.blocked h)⟩
      · exact ⟨congrArg Window.used h, .inr (congrArg Window.blocked h)⟩
    | _ =>
      have hwindow := (step_sameSend hop (by simp) (by simp) (by simp) henabled).window r
      exact ⟨congrArg Window.used hwindow, .inl (congrArg Window.blocked hwindow)⟩
  obtain ⟨hu, hb | hb⟩ := hsame
  · exact ⟨hu.trans hused, hb.trans hblocked⟩
  · exact ⟨hu.trans hused, hb⟩

theorem run_unused {ops : List SessionOp} (hops : ∀ op ∈ ops, Ordinary op)
    (henabled : s.flowControlEnabled = true) (hs : s.Unused) : (s.run ops).Unused := by
  induction ops generalizing s with
  | nil => exact hs
  | cons op ops ih =>
    have hop := hops op List.mem_cons_self
    exact ih (fun o ho => hops o (List.mem_cons_of_mem _ ho)) (step_enabled henabled hop)
      (step_unused henabled hop hs)

/-- The attempt is turned down. -/
def Refuses (s : Session) : SessionOp → Prop
  | .tryOpenStream b => (s.tryOpenStream b).1 = false
  | .trySendData bytes => (s.trySendData bytes).1 = false
  | _ => False

theorem refuses_flowState (h : s.Refuses op) : (s.step op).flowState = s.flowState := by
  cases op with
  | tryOpenStream b =>
    show (s.tryOpenStream b).2.flowState = s.flowState
    simp only [Refuses] at h
    unfold tryOpenStream at h ⊢
    split at h
    · rw [if_pos ‹_›]
    · rw [if_neg ‹_›]
      split at h
      · cases h
      · rw [if_neg ‹_›]
        split at h
        · cases h
        · rw [if_neg ‹_›]
          split <;> rfl
  | trySendData bytes =>
    show (s.trySendData bytes).2.flowState = s.flowState
    simp only [Refuses] at h
    unfold trySendData at h ⊢
    split at h
    · rw [if_pos ‹_›]
    · rw [if_neg ‹_›]
      split at h
      · cases h
      · rw [if_neg ‹_›]
        split at h
        · cases h
        · rw [if_neg ‹_›]
          split <;> rfl
  | _ => exact h.elim

/-- The sending side of a session along a list of operations. -/
structure SendSide (s : Session) (ops : List SessionOp) : Prop where
  within : ∀ pre post, ops = pre ++ post → ∀ r, (s.run pre).used r ≤ (s.run pre).limit r
  growing : ∀ pre op post, ops = pre ++ op :: post →
    ∀ r, (s.run pre).limit r ≤ (s.run (pre ++ [op])).limit r
  announcedOnce : ∀ r, (s.announced r ops).Pairwise (· < ·)
  refused : ∀ pre op post, ops = pre ++ op :: post → (s.run pre).Refuses op →
    (s.run (pre ++ [op])).flowState = (s.run pre).flowState

/-- The limits of the peer are set once, before the session is established. -/
theorem send_limits (id : Nat) (setup ops : List SessionOp) (limits : FlowControlLimits)
    (hsetup : ∀ op ∈ setup, Ordinary op)
    (hstate : ((new id).run setup).state = .pending ∨ ((new id).run setup).state = .connecting)
    (hops : ∀ op ∈ ops, Ordinary op) :
    SendSide (((new id).run setup).initializeRemoteLimits limits) ops := by
  have henabled : (((new id).run setup).initializeRemoteLimits limits).flowControlEnabled = true :=
    run_enabled hsetup rfl
  have hunused := run_unused (s := new id) hsetup rfl (fun _ r => by
    cases r with
    | data => exact ⟨rfl, rfl⟩
    | streams b => cases b <;> exact ⟨rfl, rfl⟩)
  have hsound : ∀ r, ((((new id).run setup).initializeRemoteLimits limits).window r).Sound [] := by
    intro r
    obtain ⟨hused, hblocked⟩ := hunused hstate r
    have hused' : (((new id).run setup).initializeRemoteLimits limits).used r = 0 := by
      rw [← hused]
      cases r <;> rfl
    have hblocked' : (((new id).run setup).initializeRemoteLimits limits).lastBlocked r = none := by
      rw [← hblocked]
      cases r <;> rfl
    simp only [window, hused', hblocked']
    exact .of_unused (Nat.zero_le _)
  refine ⟨?_, ?_, ?_, ?_⟩
  · intro pre post hsplit r
    have hpre : ∀ op ∈ pre, Ordinary op := fun op hop =>
      hops op (by rw [hsplit]; exact List.mem_append_left _ hop)
    exact (run_sound r hpre henabled (hsound r)).within
  · intro pre op post hsplit r
    have hpre : ∀ op ∈ pre, Ordinary op := fun o ho =>
      hops o (by rw [hsplit]; exact List.mem_append_left _ ho)
    have hop : Ordinary op := hops op (by rw [hsplit]; simp)
    rw [run_snoc]
    exact (step_window (run_enabled hpre henabled) hop r).limit_le
  · intro r
    have h := (run_sound r hops henabled (hsound r)).increasing
    rwa [List.nil_append] at h
  · intro pre op post hsplit hrefuses
    rw [run_snoc]
    exact refuses_flowState hrefuses

/-- Two streams are opened, a third is refused until the peer raises the limit. -/
theorem send_limits_of_two_streams :
    SendSide (((new 0).run [.setConnecting]).initializeRemoteLimits ⟨0, 2, 10⟩)
      [.setEstablished, .tryOpenStream true, .tryOpenStream true, .tryOpenStream true,
        .processCapsule (.maxStreams true 3), .tryOpenStream true, .trySendData 11] :=
  send_limits 0 [.setConnecting] _ _ (by simp [Ordinary]) (.inr rfl) (by simp [Ordinary])

/-- The limits and the queue are also open to the caller, who may lower the one and repeat a capsule
in the other. -/
theorem limits_can_be_written :
    let s := ((new 0).initializeRemoteLimits ⟨0, 1, 0⟩).run [.setEstablished, .tryOpenStream true]
    let low : FlowControlLimits := ⟨0, 0, 0⟩
    ¬(s.step (.remoteLimitsMut low)).used (.streams true) ≤
        (s.step (.remoteLimitsMut low)).limit (.streams true) ∧
      ¬(s.step (.initializeRemoteLimits low)).used (.streams true) ≤
        (s.step (.initializeRemoteLimits low)).limit (.streams true) ∧
      ¬(s.step (.flowStateMut ⟨0, 5, 0, 0, 0, 0, 0⟩)).used (.streams true) ≤
        (s.step (.flowStateMut ⟨0, 5, 0, 0, 0, 0, 0⟩)).limit (.streams true) ∧
      ¬((s.run [.tryOpenStream true, .queueCapsule (.streamsBlocked true 1)]).pendingCapsules.filterMap
        (Resource.streams true).blockedAt).Pairwise (· < ·) := by
  decide

end Session

end WebTransport

end Http3
