import Http3.Lib.Runs
import Http3.Qpack.Eviction

/-!
# Streams that may be blocked

A stream can be blocked at the decoder when one of its outstanding sections needs more entries than
the decoder has confirmed. The encoder asks before each section how many streams have outstanding
ones, and refers to the table only below the limit that the peer has set.
-/

namespace Http3.Qpack

namespace Sender

/-- The encoder is asked with the number of its blocked streams, and the limit stays. -/
def Guarded (s : Sender) : EncoderOp → Prop
  | .setPeerMaxBlockedStreams _ => False
  | .encode _ _ _ blockedStreams => blockedStreams = s.encoder.blockedStreamsCount
  | _ => True

instance (s : Sender) : DecidablePred s.Guarded
  | .setPeerMaxBlockedStreams _ => .isFalse id
  | .encode _ _ _ blockedStreams =>
    inferInstanceAs (Decidable (blockedStreams = s.encoder.blockedStreamsCount))
  | .setMaxTableCapacity _ | .setTableCapacity _ | .insert _ _ | .duplicate _ | .ackSection _
  | .cancelStream _ | .acknowledge _ => .isTrue trivial

/-- The stream has an outstanding section that needs more entries than were received. -/
def MayBlock (s : Sender) (received streamId : Nat) : Prop :=
  ∃ section' ∈ s.outstanding streamId, received < section'.requiredInsertCount

end Sender

/-! ## One operation -/

namespace DynamicEncoder

/-- The limit is `m`, and at most so many streams have sections that are kept. -/
structure Within (m : Nat) (e : DynamicEncoder) : Prop where
  limit : e.peerMaxBlockedStreams = m
  streams : e.blockedStreamsCount ≤ m

section Within

variable {m : Nat} {e : DynamicEncoder}

/-- A section that refers to the table was asked for below the limit. -/
theorem Within.encode (h : Within m e) (streamId cap : Nat) (headers : List Header) :
    Within m (e.encode cap headers e.blockedStreamsCount).2 ∧
      Within m ((e.encode cap headers e.blockedStreamsCount).2.trackSection streamId
        (e.encode cap headers e.blockedStreamsCount).2.lastRequiredInsertCount) := by
  unfold DynamicEncoder.encode
  split
  · rename_i huses
    have hbelow : e.blockedStreamsCount < e.peerMaxBlockedStreams := by
      simp only [usesDynamic, Bool.and_eq_true, decide_eq_true_eq] at huses
      exact huses.2
    rw [h.limit] at hbelow
    refine ⟨⟨h.limit, h.streams⟩, ?_⟩
    unfold trackSection
    split
    · refine ⟨h.limit, ?_⟩
      have hkeys := IdMap.length_keys_insert_le e.unackedSectionRics streamId
        ((e.unackedSectionRics.lookup streamId).getD [] ++ [requiredInsertCount e.table headers])
      exact hkeys.trans hbelow
    · exact ⟨h.limit, h.streams⟩
  · exact ⟨⟨h.limit, h.streams⟩, ⟨h.limit, h.streams⟩⟩

theorem Within.ackSection (h : Within m e) {e' : DynamicEncoder} {streamId : Nat}
    (hack : e.ackSection streamId = .ok e') : Within m e' := by
  unfold DynamicEncoder.ackSection at hack
  split at hack
  · cases hack
  · cases hack
  · rename_i ric rics hlookup
    have hpresent : streamId ∈ e.unackedSectionRics.keys :=
      (IdMap.mem_keys_iff _ _).mpr ⟨_, hlookup⟩
    cases hack
    refine ⟨h.limit, le_trans ?_ h.streams⟩
    simp only [blockedStreamsCount, updateEvictionLimit]
    split
    · exact IdMap.length_keys_erase_le _ _
    · exact (IdMap.length_keys_insert_of_mem _ _ _ hpresent).le

theorem Within.cancelStream (h : Within m e) (streamId : Nat) : Within m (e.cancelStream streamId) :=
  ⟨h.limit, (IdMap.length_keys_erase_le _ _).trans h.streams⟩

end Within

end DynamicEncoder

namespace Sender

variable {m : Nat} {s : Sender}

theorem step_within (h : DynamicEncoder.Within m s.encoder) {op : EncoderOp} (hop : s.Guarded op) :
    DynamicEncoder.Within m (s.step op).encoder := by
  cases op with
  | setPeerMaxBlockedStreams max => cases hop
  | setTableCapacity capacity =>
    simp only [step, DynamicEncoder.setTableCapacity]
    split
    · rename_i e he
      split at he <;> cases he
      exact ⟨h.limit, h.streams⟩
    · exact h
  | encode streamId headers cap blockedStreams =>
    have hasked : blockedStreams = s.encoder.blockedStreamsCount := hop
    subst hasked
    obtain ⟨hencoded, htracked⟩ := h.encode streamId cap headers
    simp only [step]
    split
    · exact htracked
    · exact hencoded
  | ackSection streamId =>
    simp only [step]
    split
    · exact h.ackSection ‹_›
    · exact h
  | cancelStream streamId => exact h.cancelStream streamId
  | setMaxTableCapacity | insert | duplicate | acknowledge => exact ⟨h.limit, h.streams⟩

/-- Sections are kept until they are acknowledged or cancelled. -/
theorem Inv.mem_keys (h : s.Inv) {received streamId : Nat} (hblock : s.MayBlock received streamId) :
    streamId ∈ s.encoder.unackedSectionRics.keys := by
  obtain ⟨section', hs, -⟩ := hblock
  have hunacked : section'.requiredInsertCount ∈ s.encoder.unacked streamId := by
    rw [h.tracked]
    exact List.mem_map_of_mem hs
  apply (IdMap.mem_keys_iff _ _).mpr
  unfold DynamicEncoder.unacked Queues.ofMap at hunacked
  cases hlookup : s.encoder.unackedSectionRics.lookup streamId with
  | none =>
    rw [hlookup] at hunacked
    cases hunacked
  | some rics => exact ⟨rics, rfl⟩

end Sender

/-- **The peer's limit is respected.** Whatever the decoder has received, the streams that may be
blocked are at most as many as the peer allows. -/
theorem blocked_streams_within_limit (m : Nat) (ops : List EncoderOp)
    (hguarded : Runs.Every Sender.step Sender.Guarded
      (Sender.new.step (.setPeerMaxBlockedStreams m)) ops) (received : Nat) :
    ∃ streams : List Nat, streams.length ≤ m ∧ ∀ streamId,
      ((Sender.new.step (.setPeerMaxBlockedStreams m)).run ops).MayBlock received streamId →
        streamId ∈ streams := by
  have hstart : DynamicEncoder.Within m
      (Sender.new.step (.setPeerMaxBlockedStreams m)).encoder := ⟨rfl, Nat.zero_le m⟩
  have hinv : ((Sender.new.step (.setPeerMaxBlockedStreams m)).run ops).Inv :=
    (Sender.Inv.new.step _).run ops
  have hwithin : DynamicEncoder.Within m
      ((Sender.new.step (.setPeerMaxBlockedStreams m)).run ops).encoder :=
    hguarded.inv (I := fun s : Sender => DynamicEncoder.Within m s.encoder)
      (fun s op h hop => Sender.step_within h hop) hstart
  exact ⟨_, hwithin.streams, fun streamId hblock => hinv.mem_keys hblock⟩

/-- Two sections on two streams, of which the second may not refer to the table. -/
theorem blocked_streams_within_limit_one : ∃ streams : List Nat, streams.length ≤ 1 ∧
    ∀ streamId, ((Sender.new.step (.setPeerMaxBlockedStreams 1)).run
      [.setMaxTableCapacity 64, .setTableCapacity 64, .insert [97] [98],
        .encode 0 [.fromDecoded [97] [98]] 16 0, .encode 4 [.fromDecoded [97] [98]] 16 1]).MayBlock 0 streamId →
      streamId ∈ streams :=
  blocked_streams_within_limit 1 _ (by decide) 0

end Http3.Qpack
