import Http3.Lib.Runs
import Http3.Qpack.Eviction
import Http3.Connection.Control

/-!
# The Known Received Count

Increments are counted where the decoder stream is read, section acknowledgements only in the
encoder. The two counts agree as long as every increment finds them equal.
-/

namespace Http3.Connection

open Proc Qpack

/-! ## One instruction -/

/-- The next instruction of the peer's decoder, handled. -/
def handleDecoderInstruction (totalInsertCount : Nat) (q : QpackState) :
    Except Error (Option DecoderInstruction) × QpackState :=
  let r := q.decoderStreamRecv.process totalInsertCount
  let q := { q with decoderStreamRecv := r.2 }
  match r.1 with
  | .ok (some instruction) =>
    match applyDecoderInstruction q instruction with
    | .ok encoder => (.ok (some instruction), { q with encoder })
    | .error e => (.error e, q)
  | .ok none => (.ok none, q)
  | .error _ => (.error (.connectionError .qpackDecoderStreamError), q)

theorem processDecoderInstruction_run (totalInsertCount : Nat) (c : Core) :
    processDecoderInstruction totalInsertCount c =
      ⟨(handleDecoderInstruction totalInsertCount c.qpack).1.map Option.isSome,
        modifyQpack (fun q => (handleDecoderInstruction totalInsertCount q).2) c, []⟩ := by
  rw [processDecoderInstruction, get_bind, modify_bind]
  unfold handleDecoderInstruction modifyQpack
  rcases hr : c.qpack.decoderStreamRecv.process totalInsertCount with ⟨_ | _ | instruction, r⟩
  · simp only [hr]
    rfl
  · simp only [hr]
    rfl
  · simp only [hr, get_bind]
    cases ha : applyDecoderInstruction { c.qpack with decoderStreamRecv := r } instruction with
    | error e => rfl
    | ok encoder => rfl

/-! ## Runs -/

/-- The operations of an encoder that the peer has no part in. -/
def isLocal : EncoderOp → Bool
  | .ackSection _ | .cancelStream _ | .acknowledge _ => false
  | _ => true

/-- Bytes of the peer's decoder arrive, the next instruction is handled, or the encoder goes on. -/
inductive AckInput where
  | receive (data : Bytes)
  | instruction
  | encoder (op : { op : EncoderOp // isLocal op = true })

/-- The QPACK state, and the Known Received Count as it should be. -/
structure AckState where
  qpack : QpackState
  count : Nat

/-- What an instruction does to the Known Received Count. -/
def countAfter (q : QpackState) (count : Nat) : DecoderInstruction → Nat
  | .insertCountIncrement increment => count + increment
  | .sectionAcknowledgment streamId => max count ((q.encoder.unacked streamId).headD 0)
  | .streamCancellation _ => count

namespace AckState

/-- The result of handling the next instruction. -/
def handled (s : AckState) : Except Error (Option DecoderInstruction) × QpackState :=
  handleDecoderInstruction s.qpack.encoder.insertCount s.qpack

def step (s : AckState) : AckInput → AckState
  | .receive data =>
    { s with qpack := { s.qpack with decoderStreamRecv := s.qpack.decoderStreamRecv.receive data } }
  | .instruction =>
    { qpack := s.handled.2
      count :=
        match s.handled.1 with
        | .ok (some instruction) => countAfter s.qpack s.count instruction
        | _ => s.count }
  | .encoder op =>
    { s with
      qpack := { s.qpack with encoder := (Sender.step ⟨s.qpack.encoder, .empty⟩ op.1).encoder } }

/-- The counts agree after the step, and an increment is accepted exactly where it should be. -/
def Agrees (s : AckState) (i : AckInput) : Prop :=
  (s.step i).qpack.encoder.knownReceivedCount = (s.step i).count ∧
    (i = .instruction → ∀ n, s.qpack.decoderStreamRecv.pendingIncrement = some n →
      (succeeded s.handled.1 = true ↔ n ≠ 0 ∧ s.count + n ≤ s.qpack.encoder.insertCount))

/-- An increment that is accepted finds the two counts equal. -/
def countsAlike (s : AckState) : AckInput → Bool
  | .instruction => s.qpack.decoderStreamRecv.pendingIncrement.all fun n =>
    s.qpack.decoderStreamRecv.knownReceivedCount = s.qpack.encoder.knownReceivedCount ∨ n = 0 ∨
      s.qpack.encoder.insertCount < s.qpack.decoderStreamRecv.knownReceivedCount + n
  | _ => true

/-- The receiver never counts more than the encoder, which counts right. -/
structure Inv (s : AckState) : Prop where
  encoder : s.qpack.encoder.knownReceivedCount = s.count
  receiver : s.qpack.decoderStreamRecv.knownReceivedCount ≤ s.count

/-! ## The step -/

theorem step_local (e : DynamicEncoder) {op : EncoderOp} (h : isLocal op = true) :
    (Sender.step ⟨e, .empty⟩ op).encoder.knownReceivedCount = e.knownReceivedCount := by
  cases op with
  | ackSection | cancelStream | acknowledge => cases h
  | setTableCapacity capacity =>
    simp only [Sender.step, DynamicEncoder.setTableCapacity]
    split
    · rename_i e' he
      split at he <;> cases he
      rfl
    · rfl
  | encode streamId headers cap blocked =>
    have hencode : (e.encode cap headers blocked).2.knownReceivedCount = e.knownReceivedCount := by
      unfold DynamicEncoder.encode
      split <;> rfl
    simp only [Sender.step]
    split
    · unfold DynamicEncoder.trackSection
      split <;> exact hencode
    · exact hencode
  | _ => rfl

/-- An instruction that is no increment. -/
theorem handled_other {s : AckState} (h : s.Inv)
    (hnone : s.qpack.decoderStreamRecv.pendingIncrement = none) : (s.step .instruction).Inv := by
  obtain ⟨hknown, hno⟩ :=
    DecoderStreamReceiver.process_other hnone s.qpack.encoder.insertCount
  have hencoder := h.encoder
  have hreceiver := h.receiver
  unfold step handled handleDecoderInstruction
  rcases hr : s.qpack.decoderStreamRecv.process s.qpack.encoder.insertCount with
    ⟨e | _ | instruction, r⟩ <;> rw [hr] at hknown hno <;> simp only at hknown hno ⊢
  · exact ⟨hencoder, hknown.le.trans hreceiver⟩
  · exact ⟨hencoder, hknown.le.trans hreceiver⟩
  · cases instruction with
    | insertCountIncrement n => exact absurd rfl (hno n)
    | streamCancellation streamId =>
      exact ⟨hencoder, hknown.le.trans hreceiver⟩
    | sectionAcknowledgment streamId =>
      simp only [applyDecoderInstruction]
      cases hack : s.qpack.encoder.ackSection streamId with
      | error e => exact ⟨hencoder, hknown.le.trans hreceiver⟩
      | ok encoder =>
        obtain ⟨ric, rics, hunacked, -, hcount⟩ := DynamicEncoder.ackSection_ok hack
        refine ⟨?_, hknown.le.trans (hreceiver.trans (Nat.le_max_left _ _))⟩
        simp only [hcount, countAfter, hunacked, List.headD_cons, hencoder]

theorem agrees_iff {s : AckState} (h : s.Inv) (i : AckInput) :
    s.Agrees i ↔ s.countsAlike i = true := by
  have hencoder := h.encoder
  have hreceiver := h.receiver
  cases i with
  | receive data => exact ⟨fun _ => rfl, fun _ => ⟨hencoder, fun hi => by cases hi⟩⟩
  | encoder op =>
    exact ⟨fun _ => rfl, fun _ =>
      ⟨(step_local s.qpack.encoder op.2).trans hencoder, fun hi => by cases hi⟩⟩
  | instruction =>
    cases hn : s.qpack.decoderStreamRecv.pendingIncrement with
    | none =>
      have hother := (handled_other h hn).encoder
      simp only [Agrees, countsAlike, hn, Option.all_none]
      exact ⟨fun _ => trivial, fun _ => ⟨hother, fun _ n hi => by cases hi⟩⟩
    | some n =>
      simp only [Agrees, countsAlike, hn, Option.some.injEq, forall_eq', true_imp_iff,
        Option.all_some, decide_eq_true_eq]
      rcases DecoderStreamReceiver.process_increment hn s.qpack.encoder.insertCount with
        ⟨hzero, hle, r, hr, hknown⟩ | ⟨hrefused, e, hr⟩
      · simp only [step, handled, handleDecoderInstruction, hr, applyDecoderInstruction, countAfter,
          succeeded_ok, hknown, true_iff]
        have hmax : (s.qpack.encoder.acknowledge
            (s.qpack.decoderStreamRecv.knownReceivedCount + n)).knownReceivedCount =
              max s.qpack.encoder.knownReceivedCount
                (s.qpack.decoderStreamRecv.knownReceivedCount + n) := rfl
        rw [hmax]
        omega
      · simp only [step, handled, handleDecoderInstruction, hr, succeeded_error,
          Bool.false_eq_true, false_iff]
        omega

theorem Inv.step {s : AckState} (h : s.Inv) {i : AckInput} (hi : s.Agrees i) : (s.step i).Inv := by
  refine ⟨hi.1, ?_⟩
  have hencoder := h.encoder
  have hreceiver := h.receiver
  cases i with
  | receive data => exact hreceiver
  | encoder op => exact hreceiver
  | instruction =>
    cases hn : s.qpack.decoderStreamRecv.pendingIncrement with
    | none => exact (handled_other h hn).receiver
    | some n =>
      rcases DecoderStreamReceiver.process_increment hn s.qpack.encoder.insertCount with
        ⟨hzero, hle, r, hr, hknown⟩ | ⟨hrefused, e, hr⟩
      · simp only [AckState.step, handled, handleDecoderInstruction, hr, applyDecoderInstruction,
          countAfter, hknown]
        omega
      · simp only [AckState.step, handled, handleDecoderInstruction, hr]
        exact hreceiver

end AckState

/-- Along every run, the Known Received Count is the one it should be, and increments are accepted
where they should be, if and only if every increment that is counted finds the two counts equal. -/
theorem known_received_count {q : QpackState} (hencoder : q.encoder.knownReceivedCount = 0)
    (hreceiver : q.decoderStreamRecv.knownReceivedCount = 0) (is : List AckInput) :
    Runs.Every AckState.step AckState.Agrees ⟨q, 0⟩ is ↔
      Runs.Every AckState.step (fun s i => s.countsAlike i = true) ⟨q, 0⟩ is :=
  Runs.Every.congr (I := AckState.Inv) (fun _ i h => AckState.agrees_iff h i)
    (fun _ _ h hi => h.step hi) ⟨hencoder, hreceiver.le⟩ is

/-- Two entries and a section that refers to the first of them. -/
def sentSection : List AckInput :=
  [.encoder ⟨.setMaxTableCapacity 100, rfl⟩, .encoder ⟨.setTableCapacity 100, rfl⟩,
    .encoder ⟨.setPeerMaxBlockedStreams 1, rfl⟩, .encoder ⟨.insert [0x61] [0x62], rfl⟩,
    .encoder ⟨.insert [0x63] [0x64], rfl⟩,
    .encoder ⟨.encode 0 [⟨[0x61], [0x62], false⟩] 100 0, rfl⟩]

/-- The two inserts are confirmed first, and the section after them. -/
theorem known_received_count_of_increment :
    Runs.Every AckState.step AckState.Agrees ⟨.new Settings.new, 0⟩
      (sentSection ++ [.receive [0x02], .instruction, .receive [0x80], .instruction]) :=
  (known_received_count rfl rfl _).mpr (by decide +kernel)

/-- The section is acknowledged first, and the second insert after it. -/
theorem known_received_count_can_be_too_small :
    ¬∀ q is, q.encoder.knownReceivedCount = 0 → q.decoderStreamRecv.knownReceivedCount = 0 →
      Runs.Every AckState.step AckState.Agrees ⟨q, 0⟩ is := by
  intro hall
  have h := hall (.new Settings.new)
    ((sentSection ++ [.receive [0x80], .instruction, .receive [0x01]]) ++ [.instruction]) rfl rfl
  exact absurd (Runs.Every.last h).1 (by decide +kernel)

end Http3.Connection
