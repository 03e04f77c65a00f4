import Http3.Lib.Feedback
import Http3.Lib.Runs
import Http3.Qpack.DecoderStream
import Http3.Qpack.SentSections

/-!
# Both ends of a compressed connection

An encoder and a decoder, with what is on its way between them: the bytes of the encoder stream, the
sections of each stream, and the instructions of the decoder stream. Each of the three arrives in
order, and late.

As long as every change of the encoder's table finds the room it needs, the encoder is at most one
table ahead of what the decoder has confirmed. Then every section that the decoder may still read is
blocked until its entries have arrived, and is read as what was written or not at all.
-/

namespace Http3.Qpack

/-! ## The two ends -/

structure Ends where
  encoder : DynamicEncoder
  encoderStream : EncoderStream
  receiver : EncoderStreamReceiver
  decoder : DynamicDecoder
  /-- The sections that were written and not read yet, stream by stream. -/
  sections : Queues WrittenSection
  /-- The streams that the decoder has cancelled. -/
  cancelled : List Nat
  /-- The decoder stream, from its oldest instruction on. -/
  feedback : List DecoderInstruction
  /-- The sum of the increments that the decoder has sent. -/
  reported : Nat
  /-- The sum of the increments that have arrived. -/
  knownReceivedCount : Nat
  /-- A call has returned an error, which closes the connection. -/
  failed : Bool

/-- Both ends agree on the largest capacity of the table. -/
def Ends.new (maxTableCapacity : VarInt) (useHuffman : Bool)
    (peerMaxBlockedStreams maxFieldSectionSize : Nat) : Ends where
  encoder :=
    { (DynamicEncoder.new.setMaxTableCapacity maxTableCapacity.get).setPeerMaxBlockedStreams
        peerMaxBlockedStreams with useHuffman }
  encoderStream := EncoderStream.new.setMaxTableCapacity maxTableCapacity.get
  receiver := EncoderStreamReceiver.new.setMaxTableCapacity maxTableCapacity.get
  decoder :=
    (DynamicDecoder.new.setMaxTableCapacity maxTableCapacity.get).setMaxFieldSectionSize
      maxFieldSectionSize
  sections := .empty
  cancelled := []
  feedback := []
  reported := 0
  knownReceivedCount := 0
  failed := false

inductive EndsAction where
  | change (i : EncoderInstruction)
  | encode (streamId : Nat) (headers : List Header) (cap : VarInt) (blockedStreams : Nat)
  | deliver (n : Nat)
  | process
  | decode (streamId : Nat)
  | cancel (streamId : Nat)
  | report (increment : Nat)
  | feedback

namespace Ends

/-- The encoder changes its table and writes the instruction, if it can do both. -/
def change (s : Ends) (i : EncoderInstruction) : Ends :=
  match s.encoder.table.apply i, s.encoderStream.encode i with
  | some table, .ok encoderStream =>
    { s with encoder := { s.encoder with table }, encoderStream }
  | _, _ => s

/-- The encoder writes a section into a buffer of `cap` bytes, and tracks it. -/
def encode (s : Ends) (streamId : Nat) (headers : List Header) (cap : VarInt)
    (blockedStreams : Nat) : Ends :=
  match s.encoder.encode cap.get headers blockedStreams with
  | (some bytes, e) =>
    { s with
      encoder := e.trackSection streamId e.lastRequiredInsertCount
      sections := s.sections.push streamId ⟨bytes, headers, e.lastRequiredInsertCount⟩ }
  | (none, e) => { s with encoder := e }

/-- The next bytes of the encoder stream arrive. -/
def deliver (s : Ends) (n : Nat) : Ends :=
  { s with
    encoderStream := s.encoderStream.consumeData n
    receiver := s.receiver.receive (s.encoderStream.sendBuffer.take n) }

/-- The decoder processes an instruction, if all of it has arrived. -/
def process (s : Ends) : Ends :=
  match s.receiver.process s.decoder.table with
  | (.ok _, receiver, table) => { s with receiver, decoder := { s.decoder with table } }
  | (.error _, _, _) => { s with failed := true }

/-- The decoder reads the next section of a stream, and acknowledges it if it has to. -/
def decode (s : Ends) (streamId : Nat) : Ends :=
  match s.sections streamId with
  | [] => s
  | x :: _ =>
    match s.decoder.decode x.bytes with
    | (.ok (.decoded _), decoder) =>
      { s with
        decoder
        sections := s.sections.pop streamId
        feedback :=
          if 0 < decoder.lastRequiredInsertCount then
            s.feedback ++ [.sectionAcknowledgment streamId]
          else s.feedback }
    | (.ok .blocked, decoder) => { s with decoder }
    | (.error _, _) => { s with failed := true }

/-- The decoder gives a stream up. -/
def cancel (s : Ends) (streamId : Nat) : Ends :=
  { s with
    sections := s.sections.clear streamId
    cancelled := streamId :: s.cancelled
    feedback := s.feedback ++ [.streamCancellation streamId] }

/-- The decoder reports inserts that it has processed. -/
def report (s : Ends) (increment : Nat) : Ends :=
  if s.reported + increment ≤ s.decoder.table.insertCount then
    { s with
      feedback := s.feedback ++ [.insertCountIncrement increment]
      reported := s.reported + increment }
  else s

/-- The encoder processes the next instruction of the decoder stream. -/
def takeFeedback (s : Ends) : Ends :=
  match s.feedback with
  | [] => s
  | .sectionAcknowledgment streamId :: feedback =>
    match s.encoder.ackSection streamId with
    | .ok encoder => { s with encoder, feedback }
    | .error _ => { s with failed := true }
  | .streamCancellation streamId :: feedback =>
    { s with encoder := s.encoder.cancelStream streamId, feedback }
  | .insertCountIncrement increment :: feedback =>
    if increment = 0 ∨ s.encoder.insertCount < s.knownReceivedCount + increment then
      { s with failed := true }
    else
      { s with
        encoder := s.encoder.acknowledge (s.knownReceivedCount + increment)
        knownReceivedCount := s.knownReceivedCount + increment
        feedback }

def step (s : Ends) (a : EndsAction) : Ends :=
  if s.failed then s
  else
    match a with
    | .change i => s.change i
    | .encode streamId headers cap blockedStreams => s.encode streamId headers cap blockedStreams
    | .deliver n => s.deliver n
    | .process => s.process
    | .decode streamId => s.decode streamId
    | .cancel streamId => s.cancel streamId
    | .report increment => s.report increment
    | .feedback => s.takeFeedback

/-- A run leads there whose actions all have the property. -/
def Reached (P : Ends → EndsAction → Prop) (s : Ends) : Prop :=
  ∃ (maxTableCapacity : VarInt) (useHuffman : Bool)
    (peerMaxBlockedStreams maxFieldSectionSize : Nat) (actions : List EndsAction),
    Runs.Every step P
      (.new maxTableCapacity useHuffman peerMaxBlockedStreams maxFieldSectionSize) actions ∧
    actions.foldl step
      (.new maxTableCapacity useHuffman peerMaxBlockedStreams maxFieldSectionSize) = s

/-- A stream that the decoder has cancelled is not read any more. -/
def Conforms (s : Ends) : EndsAction → Prop
  | .decode streamId => streamId ∉ s.cancelled
  | _ => True

instance (s : Ends) : DecidablePred s.Conforms
  | .decode streamId => inferInstanceAs (Decidable (streamId ∉ s.cancelled))
  | .change _ | .encode _ _ _ _ | .deliver _ | .process | .cancel _ | .report _ | .feedback =>
    .isTrue trivial

/-- A change of the encoder's table finds the room it needs. -/
def FindsRoom (s : Ends) : EndsAction → Prop
  | .change i => Sender.findsRoomFor s.encoder i = true
  | _ => True

instance (s : Ends) : DecidablePred s.FindsRoom
  | .change i => inferInstanceAs (Decidable (Sender.findsRoomFor s.encoder i = true))
  | .encode _ _ _ _ | .deliver _ | .process | .decode _ | .cancel _ | .report _ | .feedback =>
    .isTrue trivial

def Permits (s : Ends) (a : EndsAction) : Prop := s.Conforms a ∧ s.FindsRoom a

instance (s : Ends) : DecidablePred s.Permits := fun _ => inferInstanceAs (Decidable (_ ∧ _))

/-- A section is blocked until the decoder has seen the inserts it needs, and it is not read as
another list than was written. -/
def Reads (d : DynamicDecoder) (x : WrittenSection) : Prop :=
  ((d.decode x.bytes).1 = .ok .blocked ↔ d.table.insertCount < x.requiredInsertCount) ∧
    ∀ hs, (d.decode x.bytes).1 = .ok (.decoded hs) → hs = x.headers.map readBack

/-! ## What the feedback is about -/

/-- The Required Insert Counts of the sections that will be acknowledged. -/
def needs (sections : Queues WrittenSection) : Queues Nat := fun k =>
  ((sections k).map WrittenSection.requiredInsertCount).filter fun ric => decide (0 < ric)

section Needs

variable (q : Queues WrittenSection) (k : Nat) (x : WrittenSection)

theorem needs_push_pos (h : 0 < x.requiredInsertCount) :
    needs (q.push k x) = (needs q).push k x.requiredInsertCount := by
  funext j
  by_cases hj : j = k
  · simp [needs, Queues.push, hj, h]
  · simp [needs, Queues.push, hj]

theorem needs_push_zero (h : x.requiredInsertCount = 0) : needs (q.push k x) = needs q := by
  funext j
  by_cases hj : j = k
  · simp [needs, Queues.push, hj, h]
  · simp [needs, Queues.push, hj]

theorem needs_clear : needs (q.clear k) = (needs q).clear k := by
  funext j
  by_cases hj : j = k
  · simp [needs, Queues.clear, hj]
  · simp [needs, Queues.clear, hj]

variable {q k x}

theorem needs_cons_pos {rest : List WrittenSection} (hq : q k = x :: rest)
    (h : 0 < x.requiredInsertCount) :
    ∃ more, needs q k = x.requiredInsertCount :: more ∧ needs (q.pop k) = (needs q).pop k := by
  have hhead : needs q k = x.requiredInsertCount ::
      ((rest.map WrittenSection.requiredInsertCount).filter fun ric => decide (0 < ric)) := by
    simp [needs, hq, h]
  refine ⟨_, hhead, funext fun j => ?_⟩
  by_cases hj : j = k
  · simp only [needs, Queues.pop, hj, if_true, hq, List.tail_cons, List.map_cons]
    simp [h]
  · simp [needs, Queues.pop, hj]

theorem needs_cons_zero {rest : List WrittenSection} (hq : q k = x :: rest)
    (h : x.requiredInsertCount = 0) : needs (q.pop k) = needs q := by
  funext j
  by_cases hj : j = k
  · simp [needs, Queues.pop, hj, hq, h]
  · simp [needs, Queues.pop, hj]

end Needs

def message : DecoderInstruction → Feedback.Message
  | .sectionAcknowledgment streamId => .confirm streamId
  | .streamCancellation streamId => .abandon streamId
  | .insertCountIncrement increment => .advance increment

/-- The part of both ends that the decoder stream keeps together. -/
def confirmations (s : Ends) : Feedback.State where
  outstanding := s.encoder.unacked
  waiting := needs s.sections
  messages := s.feedback.map message
  abandoned := s.cancelled
  known := s.encoder.knownReceivedCount
  told := s.knownReceivedCount
  reported := s.reported
  received := s.decoder.table.insertCount

/-! ## The invariant -/

/-- Both tables are parts of one log, which the instructions on their way take from the decoder's to
the encoder's. What the encoder has dropped was confirmed, and is not needed by a section that may
still be read. -/
structure Linked (maxTableCapacity : VarInt) (s : Ends) (sent received : Log Field)
    (pending : List EncoderInstruction) : Prop where
  encoderTable : s.encoder.table.Holds sent
  limit : s.encoder.table.evictionLimit = s.encoder.maxUnackedRic
  bounded : s.encoder.table.Bounded maxTableCapacity.get
  encoderCapacity : s.encoder.maxTableCapacity = maxTableCapacity.get
  streamCapacity : s.encoderStream.maxTableCapacity = maxTableCapacity.get
  decoderTable : s.decoder.table.Holds received
  decoderCapacity : s.decoder.maxTableCapacity = maxTableCapacity.get
  behind : pending.foldl EncoderInstruction.grow received.items = sent.items
  encodable : ∀ i ∈ pending, i.Encodable
  bytes : s.receiver.recvBuffer ++ s.encoderStream.sendBuffer =
    (pending.map EncoderInstruction.bytes).flatten
  kept : s.encoder.table.droppedCount ≤ s.encoder.knownReceivedCount
  confirmations : Feedback.Inv s.confirmations
  written : ∀ k, k ∉ s.cancelled → ∀ x ∈ s.sections k,
    x.Written maxTableCapacity.get sent.items ∧
      (0 < x.requiredInsertCount → s.encoder.table.droppedCount < x.requiredInsertCount)

section Linked

variable {m : VarInt} {s : Ends} {sent received : Log Field} {pending : List EncoderInstruction}
  {k : Nat} {x : WrittenSection}

theorem Linked.arrived (h : Linked m s sent received pending) : received.items <+: sent.items :=
  h.behind ▸ EncoderInstruction.prefix_grow received.items pending

/-- The ends are not further apart than a table is long. -/
theorem Linked.inWindow (h : Linked m s sent received pending) (hk : k ∉ s.cancelled)
    (hx : x ∈ s.sections k) : x.InWindow s.decoder := by
  intro hpos
  obtain ⟨hwritten, hneeded⟩ := h.written k hk x hx
  have hdropped := hneeded hpos
  have hric := hwritten.requiredInsertCount_le
  have hsent : s.encoder.table.insertCount = sent.items.length := h.encoderTable.count
  have hreceived : s.decoder.table.insertCount = received.items.length := h.decoderTable.count
  have harrived := h.arrived.length_le
  have hlong := h.bounded.insertCount_le h.encoderTable.wellFormed
  have hkept := h.kept
  have hknown : s.encoder.knownReceivedCount ≤ s.decoder.table.insertCount :=
    h.confirmations.known_le
  rw [h.decoderCapacity]
  omega

theorem Linked.reads (h : Linked m s sent received pending)
    (hcount : s.encoder.table.insertCount < 2 ^ 64) (hk : k ∉ s.cancelled) (hx : x ∈ s.sections k) :
    Reads s.decoder x := by
  have hrange : s.decoder.maxTableCapacity ≤ VarInt.max.get := h.decoderCapacity.trans_le m.le_max
  have hwindow := h.inWindow hk hx
  have hwritten := (h.written k hk x hx).1
  rw [← h.decoderCapacity] at hwritten
  have hreceived : s.decoder.table.insertCount < 2 ^ 64 := by
    rw [h.encoderTable.count] at hcount
    rw [h.decoderTable.count]
    exact h.arrived.length_le.trans_lt hcount
  refine ⟨hwritten.blocked_iff hrange hwindow, fun hs hdecode => ?_⟩
  exact hwritten.decode hrange hwindow h.decoderTable h.arrived hreceived hdecode

/-- While a section waits for its entries, nothing is evicted. -/
theorem Linked.barred (h : Linked m s sent received pending) (hk : k ∉ s.cancelled)
    (hx : x ∈ s.sections k) (hpos : 0 < x.requiredInsertCount) :
    s.encoder.table.droppedCount < s.encoder.table.evictionLimit := by
  have hneeds : x.requiredInsertCount ∈ needs s.sections k :=
    List.mem_filter.mpr ⟨List.mem_map_of_mem hx, decide_eq_true hpos⟩
  have houtstanding := h.confirmations.outstanding hk hneeds
  have hle := DynamicEncoder.le_maxUnackedRic (e := s.encoder) houtstanding
  have hdropped := (h.written k hk x hx).2 hpos
  rw [h.limit]
  omega

/-! ## Every action keeps the invariant -/

theorem Linked.new (m : VarInt) (useHuffman : Bool)
    (peerMaxBlockedStreams maxFieldSectionSize : Nat) :
    Linked m (.new m useHuffman peerMaxBlockedStreams maxFieldSectionSize) .empty .empty [] where
  encoderTable := .withCapacity 0
  limit := rfl
  bounded := ⟨Nat.zero_le _, Nat.zero_le _⟩
  encoderCapacity := rfl
  streamCapacity := rfl
  decoderTable := .withCapacity 0
  decoderCapacity := rfl
  behind := rfl
  encodable i hi := by cases hi
  bytes := rfl
  kept := Nat.le_refl 0
  confirmations := .new
  written k hk x hx := by cases hx

theorem Linked.change (h : Linked m s sent received pending) {i : EncoderInstruction}
    (hroom : Sender.findsRoomFor s.encoder i = true) {table : DynamicTable}
    {encoderStream : EncoderStream} (happly : s.encoder.table.apply i = some table)
    (hencode : s.encoderStream.encode i = .ok encoderStream) :
    ∃ sent', Linked m { s with encoder := { s.encoder with table }, encoderStream } sent' received
      (pending ++ [i]) := by
  obtain ⟨rfl, hcapacity⟩ := EncoderStream.encode_ok hencode
  rw [h.streamCapacity] at hcapacity
  obtain ⟨sent', hsent, hitems⟩ := h.encoderTable.apply happly
  have hwf := h.encoderTable.wellFormed
  have hencodable : i.Encodable := by
    refine EncoderInstruction.encodable_of_apply ?_ hwf happly
      fun capacity hi => (hcapacity capacity hi).trans m.le_max
    exact ⟨h.bounded.size.trans m.le_max, h.bounded.capacity.trans m.le_max⟩
  refine ⟨sent', {
    encoderTable := hsent
    limit := (DynamicTable.apply_evictionLimit hwf happly).trans h.limit
    bounded := h.bounded.apply hwf happly hcapacity
    encoderCapacity := h.encoderCapacity
    streamCapacity := h.streamCapacity
    decoderTable := h.decoderTable
    decoderCapacity := h.decoderCapacity
    behind := ?_
    encodable := ?_
    bytes := ?_
    kept := Sender.droppedCount_le_of_room hwf happly hroom h.kept
    confirmations := h.confirmations
    written := ?_ }⟩
  · rw [List.foldl_append, h.behind, hitems]
    rfl
  · intro j hj
    rcases List.mem_append.mp hj with hj | hj
    · exact h.encodable j hj
    · cases List.mem_singleton.mp hj
      exact hencodable
  · rw [← List.append_assoc, h.bytes, List.map_append, List.flatten_append]
    simp
  · intro k hk x hx
    obtain ⟨hwritten, hneeded⟩ := h.written k hk x hx
    refine ⟨hwritten.mono (hitems ▸ List.prefix_append _ _), fun hpos => ?_⟩
    have hsame := DynamicTable.apply_kept hwf happly (h.barred hk hx hpos)
    exact hsame.trans_lt (hneeded hpos)

/-- What leaves the tables and the encoder stream alone. -/
theorem Linked.follow (h : Linked m s sent received pending) {s' : Ends}
    (htable : s'.encoder.table = s.encoder.table.setEvictionLimit s'.encoder.maxUnackedRic)
    (hcapacity : s'.encoder.maxTableCapacity = s.encoder.maxTableCapacity)
    (hknown : s.encoder.knownReceivedCount ≤ s'.encoder.knownReceivedCount)
    (hstream : s'.encoderStream = s.encoderStream) (hreceiver : s'.receiver = s.receiver)
    (hdecoder : s'.decoder.table = s.decoder.table)
    (hdecoderCapacity : s'.decoder.maxTableCapacity = s.decoder.maxTableCapacity)
    (hconfirmations : Feedback.Inv s'.confirmations)
    (hwritten : ∀ k, k ∉ s'.cancelled → ∀ x ∈ s'.sections k, x.Written m.get sent.items ∧
      (0 < x.requiredInsertCount → s.encoder.table.droppedCount < x.requiredInsertCount)) :
    Linked m s' sent received pending where
  encoderTable := by
    rw [htable]
    exact ⟨h.encoderTable.wellFormed.setEvictionLimit _, h.encoderTable.count,
      h.encoderTable.fields⟩
  limit := by rw [htable, DynamicTable.setEvictionLimit_evictionLimit]
  bounded := by
    rw [htable]
    exact ⟨h.bounded.size, h.bounded.capacity⟩
  encoderCapacity := hcapacity.trans h.encoderCapacity
  streamCapacity := by rw [hstream, h.streamCapacity]
  decoderTable := by rw [hdecoder]; exact h.decoderTable
  decoderCapacity := hdecoderCapacity.trans h.decoderCapacity
  behind := h.behind
  encodable := h.encodable
  bytes := by rw [hstream, hreceiver, h.bytes]
  kept := by
    rw [htable]
    exact h.kept.trans hknown
  confirmations := hconfirmations
  written := by
    rw [htable]
    exact hwritten

/-- The limit follows the outstanding sections. -/
theorem Linked.limited (h : Linked m s sent received pending) :
    s.encoder.table = s.encoder.table.setEvictionLimit s.encoder.maxUnackedRic := by
  rw [← h.limit]
  rfl

theorem Linked.fail (h : Linked m s sent received pending) :
    Linked m { s with failed := true } sent received pending :=
  h.follow h.limited rfl (Nat.le_refl _) rfl rfl rfl rfl h.confirmations h.written

theorem Linked.encode (h : Linked m s sent received pending) (streamId : Nat)
    (headers : List Header) (cap : VarInt) (blockedStreams : Nat) :
    Linked m (s.encode streamId headers cap blockedStreams) sent received pending := by
  obtain ⟨ric, hric⟩ := s.encoder.encode_snd cap.get headers blockedStreams
  unfold Ends.encode
  rcases hencode : s.encoder.encode cap.get headers blockedStreams with ⟨_ | bytes, e⟩ <;>
    rw [hencode] at hric <;> subst hric
  · exact h.follow h.limited rfl (Nat.le_refl _) rfl rfl rfl rfl h.confirmations h.written
  · have hbounded : s.encoder.table.Bounded s.encoder.maxTableCapacity :=
      h.encoderCapacity ▸ h.bounded
    have hbytes : (s.encoder.encode cap.get headers blockedStreams).1 = some bytes :=
      congrArg Prod.fst hencode
    have hnew := WrittenSection.Written.of_encode h.encoderTable hbounded hbytes
    rw [hencode, h.encoderCapacity] at hnew
    have hwritten : ∀ k, k ∉ s.cancelled → ∀ x ∈ s.sections.push streamId ⟨bytes, headers, ric⟩ k,
        x.Written m.get sent.items ∧
          (0 < x.requiredInsertCount → s.encoder.table.droppedCount < x.requiredInsertCount) := by
      intro k hk x hx
      rcases Queues.mem_push.mp hx with hx | ⟨-, rfl⟩
      · exact h.written k hk x hx
      · exact hnew
    dsimp only
    rcases Nat.eq_zero_or_pos ric with hzero | hpos
    · -- a section that needs no entry is not tracked
      subst hzero
      rw [DynamicEncoder.trackSection_zero]
      refine h.follow h.limited rfl (Nat.le_refl _) rfl rfl rfl rfl ?_ hwritten
      simp only [Ends.confirmations, needs_push_zero]
      exact h.confirmations
    · have htracked := DynamicEncoder.trackSection_unacked
        { s.encoder with lastRequiredInsertCount := ric } streamId hpos
      rw [DynamicEncoder.trackSection, if_pos hpos] at htracked ⊢
      refine h.follow rfl rfl (Nat.le_refl _) rfl rfl rfl rfl ?_ hwritten
      simp only [Ends.confirmations, htracked, needs_push_pos _ _ ⟨bytes, headers, ric⟩ hpos]
      exact h.confirmations.send streamId ric

theorem Linked.deliver (h : Linked m s sent received pending) (n : Nat) :
    Linked m (s.deliver n) sent received pending where
  encoderTable := h.encoderTable
  limit := h.limit
  bounded := h.bounded
  encoderCapacity := h.encoderCapacity
  streamCapacity := h.streamCapacity
  decoderTable := h.decoderTable
  decoderCapacity := h.decoderCapacity
  behind := h.behind
  encodable := h.encodable
  bytes := by
    simp only [Ends.deliver, EncoderStreamReceiver.receive, EncoderStream.consumeData]
    rw [List.append_assoc, List.take_append_drop, h.bytes]
  kept := h.kept
  confirmations := h.confirmations
  written := h.written

/-- The decoder's table takes the first of the instructions that it has not seen. -/
theorem Linked.processed (h : Linked m s sent received pending) {i : EncoderInstruction}
    {receiver : EncoderStreamReceiver} {table : DynamicTable}
    (hprocess : s.receiver.process s.decoder.table = (.ok (some i), receiver, table)) :
    ∃ received' rest, Linked m { s with receiver, decoder := { s.decoder with table } } sent
      received' rest := by
  have hgrows := EncoderStreamReceiver.process_insertCount_le s.receiver s.decoder.table
  rw [hprocess] at hgrows
  obtain ⟨rest, rfl, happly, hbytes, -⟩ :=
    EncoderStreamReceiver.process_head h.encodable h.bytes hprocess
  obtain ⟨received', hreceived, hitems⟩ := h.decoderTable.apply happly
  have hbehind := h.behind
  rw [List.foldl_cons, ← hitems] at hbehind
  exact ⟨received', rest, {
    encoderTable := h.encoderTable
    limit := h.limit
    bounded := h.bounded
    encoderCapacity := h.encoderCapacity
    streamCapacity := h.streamCapacity
    decoderTable := hreceived
    decoderCapacity := h.decoderCapacity
    behind := hbehind
    encodable := fun j hj => h.encodable j (List.mem_cons_of_mem i hj)
    bytes := hbytes
    kept := h.kept
    confirmations := h.confirmations.receive hgrows
    written := h.written }⟩

/-- A section that was read is acknowledged if it needs an entry. -/
theorem Linked.decoded (h : Linked m s sent received pending) {streamId : Nat}
    (hstream : streamId ∉ s.cancelled) {rest : List WrittenSection}
    (hsections : s.sections streamId = x :: rest) {hs : List Header} {decoder : DynamicDecoder}
    (hdecode : s.decoder.decode x.bytes = (.ok (.decoded hs), decoder)) :
    Linked m
      { s with
        decoder
        sections := s.sections.pop streamId
        feedback :=
          if 0 < decoder.lastRequiredInsertCount then
            s.feedback ++ [.sectionAcknowledgment streamId]
          else s.feedback } sent received pending := by
  have hx : x ∈ s.sections streamId := hsections ▸ List.mem_cons_self
  have hrange : s.decoder.maxTableCapacity ≤ VarInt.max.get := h.decoderCapacity.trans_le m.le_max
  have hwindow := h.inWindow hstream hx
  have hwritten := (h.written streamId hstream x hx).1
  rw [← h.decoderCapacity] at hwritten
  have hlast := hwritten.lastRequiredInsertCount hrange hwindow
  have hblocked := hwritten.blocked_iff hrange hwindow
  have htable := s.decoder.decode_table x.bytes
  have hcapacity := s.decoder.decode_maxTableCapacity x.bytes
  rw [hdecode] at hlast hblocked htable hcapacity
  have hready : x.requiredInsertCount ≤ s.decoder.table.insertCount := by
    by_contra hlt
    cases hblocked.mpr (Nat.lt_of_not_le hlt)
  have hothers : ∀ k, k ∉ s.cancelled → ∀ y ∈ s.sections.pop streamId k,
      y.Written m.get sent.items ∧
        (0 < y.requiredInsertCount → s.encoder.table.droppedCount < y.requiredInsertCount) :=
    fun k hk y hy => h.written k hk y (Queues.mem_of_mem_pop hy)
  dsimp only at hlast htable hcapacity
  rcases Nat.eq_zero_or_pos x.requiredInsertCount with hzero | hpos
  · rw [hlast, if_neg (by omega)]
    refine h.follow h.limited rfl (Nat.le_refl _) rfl rfl htable hcapacity ?_ hothers
    simp only [Ends.confirmations, needs_cons_zero hsections hzero, htable]
    exact h.confirmations
  · rw [hlast, if_pos hpos]
    refine h.follow h.limited rfl (Nat.le_refl _) rfl rfl htable hcapacity ?_ hothers
    obtain ⟨more, hneeds, hpop⟩ := needs_cons_pos hsections hpos
    simp only [Ends.confirmations, hpop, htable, List.map_append]
    exact h.confirmations.accept hstream hneeds hready

theorem Linked.cancel (h : Linked m s sent received pending) (streamId : Nat) :
    Linked m (s.cancel streamId) sent received pending := by
  refine h.follow h.limited rfl (Nat.le_refl _) rfl rfl rfl rfl ?_ fun k hk x hx => ?_
  · simp only [Ends.confirmations, Ends.cancel, needs_clear, List.map_append]
    exact h.confirmations.abandon streamId
  · exact h.written k (fun hmem => hk (List.mem_cons_of_mem _ hmem)) x (Queues.mem_of_mem_clear hx)

theorem Linked.report (h : Linked m s sent received pending) (increment : Nat) :
    Linked m (s.report increment) sent received pending := by
  unfold Ends.report
  split
  · rename_i hle
    refine h.follow h.limited rfl (Nat.le_refl _) rfl rfl rfl rfl ?_ h.written
    simp only [Ends.confirmations, List.map_append]
    exact h.confirmations.report hle
  · exact h

theorem Linked.takeFeedback (h : Linked m s sent received pending) :
    Linked m s.takeFeedback sent received pending := by
  unfold Ends.takeFeedback
  cases hfeedback : s.feedback with
  | nil => exact h
  | cons i feedback =>
    have hmessages : s.confirmations.messages = message i :: feedback.map message := by
      simp only [Ends.confirmations, hfeedback, List.map_cons]
    have hfail := h.fail
    rw [hfeedback] at hfail
    cases i with
    | sectionAcknowledgment streamId =>
      dsimp only
      cases hack : s.encoder.ackSection streamId with
      | error error => exact hfail
      | ok e =>
        obtain ⟨ric, rics, hfirst, hpop, hknown⟩ := DynamicEncoder.ackSection_ok hack
        have hencoder : e.table = s.encoder.table.setEvictionLimit e.maxUnackedRic ∧
            e.maxTableCapacity = s.encoder.maxTableCapacity := by
          unfold DynamicEncoder.ackSection at hack
          split at hack <;> cases hack
          exact ⟨rfl, rfl⟩
        refine h.follow hencoder.1 hencoder.2 (hknown ▸ Nat.le_max_left _ _) rfl rfl rfl rfl ?_
          h.written
        simp only [Ends.confirmations, hpop, hknown]
        exact h.confirmations.confirmed hmessages hfirst
    | streamCancellation streamId =>
      refine h.follow rfl rfl (Nat.le_refl _) rfl rfl rfl rfl ?_ h.written
      simp only [Ends.confirmations, s.encoder.cancelStream_unacked streamId]
      exact h.confirmations.forgotten hmessages
    | insertCountIncrement increment =>
      dsimp only
      split
      · exact hfail
      · refine h.follow rfl rfl (Nat.le_max_left _ _) rfl rfl rfl rfl ?_ h.written
        exact h.confirmations.advanced hmessages

end Linked

/-- Both ends are linked, whatever is on its way. -/
def Inv (m : VarInt) (s : Ends) : Prop := ∃ sent received pending, Linked m s sent received pending

theorem Inv.step {m : VarInt} {s : Ends} (h : s.Inv m) {a : EndsAction} (ha : s.Permits a) :
    (s.step a).Inv m := by
  obtain ⟨sent, received, pending, h⟩ := h
  unfold Ends.step
  split
  · exact ⟨sent, received, pending, h⟩
  cases a with
  | change i =>
    dsimp only [Ends.change]
    split
    · rename_i table encoderStream happly hencode
      obtain ⟨sent', h'⟩ := h.change ha.2 happly hencode
      exact ⟨sent', received, _, h'⟩
    · exact ⟨sent, received, pending, h⟩
  | encode streamId headers cap blockedStreams =>
    exact ⟨sent, received, pending, h.encode streamId headers cap blockedStreams⟩
  | deliver n => exact ⟨sent, received, pending, h.deliver n⟩
  | process =>
    dsimp only [Ends.process]
    split
    · rename_i result receiver table hprocess
      cases result with
      | none =>
        obtain ⟨rfl, rfl⟩ := EncoderStreamReceiver.process_none hprocess
        exact ⟨sent, received, pending, h⟩
      | some i =>
        obtain ⟨received', rest, h'⟩ := h.processed hprocess
        exact ⟨sent, received', rest, h'⟩
    · exact ⟨sent, received, pending, h.fail⟩
  | decode streamId =>
    dsimp only [Ends.decode]
    split
    · exact ⟨sent, received, pending, h⟩
    · rename_i x rest hsections
      split
      · rename_i hs decoder hdecode
        exact ⟨sent, received, pending, h.decoded ha.1 hsections hdecode⟩
      · rename_i decoder hdecode
        have htable := s.decoder.decode_table x.bytes
        have hcapacity := s.decoder.decode_maxTableCapacity x.bytes
        rw [hdecode] at htable hcapacity
        dsimp only at htable hcapacity
        refine ⟨sent, received, pending, h.follow h.limited rfl (Nat.le_refl _) rfl rfl htable
          hcapacity ?_ h.written⟩
        simp only [Ends.confirmations, htable]
        exact h.confirmations
      · exact ⟨sent, received, pending, h.fail⟩
  | cancel streamId => exact ⟨sent, received, pending, h.cancel streamId⟩
  | report increment => exact ⟨sent, received, pending, h.report increment⟩
  | feedback => exact ⟨sent, received, pending, h.takeFeedback⟩

end Ends

/-- **Sections are read as they were written**, in whatever order bytes, sections and instructions
arrive, as long as the encoder's table finds the room it needs and no cancelled stream is read. -/
theorem sections_read_end_to_end (s : Ends) (h : s.Reached Ends.Permits)
    (hcount : s.encoder.insertCount < 2 ^ 64) (streamId : Nat) (hstream : streamId ∉ s.cancelled)
    (x : WrittenSection) (hx : x ∈ s.sections streamId) : Ends.Reads s.decoder x := by
  obtain ⟨m, useHuffman, peerMaxBlockedStreams, maxFieldSectionSize, actions, hactions, rfl⟩ := h
  have hnew : (Ends.new m useHuffman peerMaxBlockedStreams maxFieldSectionSize).Inv m :=
    ⟨_, _, _, Ends.Linked.new m useHuffman peerMaxBlockedStreams maxFieldSectionSize⟩
  obtain ⟨sent, received, pending, hlinked⟩ := hactions.inv (fun _ _ h ha => h.step ha) hnew
  exact hlinked.reads hcount hstream hx

/-- Insert a field whose value is a digit. -/
def insertDigit (n : Nat) : EndsAction :=
  .change (.insertWithLiteralName [97] [UInt8.ofNat (48 + n)])

def digitHeader (n : Nat) : Header := ⟨[97], [UInt8.ofNat (48 + n)], false⟩

/-- The second entry takes the place of the first one, which was acknowledged. -/
def acknowledgedActions : List EndsAction :=
  [.change (.setDynamicTableCapacity 64), insertDigit 0,
    .encode 0 [digitHeader 0] ⟨64, by decide⟩ 0, .deliver 7, .process, .process, .decode 0,
    .feedback, insertDigit 1, .encode 4 [digitHeader 1] ⟨64, by decide⟩ 0]

theorem sections_read_end_to_end_acknowledged :
    Ends.Reads (acknowledgedActions.foldl Ends.step (.new ⟨64, by decide⟩ false 1 1000)).decoder
      ⟨[3, 0, 0x80], [digitHeader 1], 2⟩ :=
  sections_read_end_to_end _
    ⟨⟨64, by decide⟩, false, 1, 1000, acknowledgedActions, by decide +kernel, rfl⟩
    (by decide +kernel) 4 (by decide +kernel) _ (by decide +kernel)

/-- Five entries take each other's place while the decoder has seen only the first one. -/
theorem another_list_can_be_read : ¬∀ s : Ends, s.Reached Ends.Conforms →
    s.encoder.insertCount < 2 ^ 64 → ∀ streamId, streamId ∉ s.cancelled →
      ∀ x ∈ s.sections streamId, Ends.Reads s.decoder x := by
  intro h
  have hreads := h _ ⟨⟨64, by decide⟩, false, 1, 1000,
    [.change (.setDynamicTableCapacity 64), insertDigit 0, insertDigit 1, insertDigit 2,
      insertDigit 3, insertDigit 4, .encode 0 [digitHeader 4] ⟨64, by decide⟩ 0,
      .deliver 6, .process, .process], by decide +kernel, rfl⟩ (by decide +kernel) 0
    (by decide +kernel) ⟨[2, 0, 0x80], [digitHeader 4], 5⟩ (by decide +kernel)
  have hother := hreads.2 [digitHeader 0] (by decide +kernel)
  exact absurd hother (by decide)

end Http3.Qpack
