import Http3.Connection.SessionRules

/-!
# What a session holds back

Streams and datagrams that come ahead of their session are held back, few of them and little of
each. Every operation of a session keeps to these bounds; delivery hands all out, or puts the rest
back in its place.
-/

namespace Http3

/-- A session changes, and its state does not. -/
structure WtSession.SameState (s t : WtSession) : Prop where
  state : t.state = s.state
  flowControl : t.flowControlEnabled = s.flowControlEnabled

/-- Nor does what it holds back. -/
structure WtSession.SameBuffers (s t : WtSession) : Prop extends SameState s t where
  streams : t.bufferedStreams = s.bufferedStreams
  entries : t.bufferedStreamEntries = s.bufferedStreamEntries
  datagrams : t.bufferedDatagrams = s.bufferedDatagrams

/-- A session holds back few streams, little of each, and few datagrams. -/
structure WtSession.Bounded (s : WtSession) : Prop where
  streams : s.bufferedStreams.length ≤ MAX_BUFFERED_STREAMS
  entries : ∀ x entry, s.bufferedStreamEntries.lookup x = some entry →
    x ∈ s.bufferedStreams ∧ entry.data.length ≤ WT_MAX_BUFFERED_STREAM_BYTES
  datagrams : s.bufferedDatagrams.length ≤ MAX_BUFFERED_DATAGRAMS

/-- The state stays, and so do the bounds. -/
structure WtSession.Confined (s t : WtSession) : Prop extends SameState s t where
  bounded : s.Bounded → t.Bounded

namespace WtSession

section SameBuffers

variable (s : WtSession)

theorem SameState.trans {s t u : WtSession} (h : SameState s t) (h' : SameState t u) :
    SameState s u := ⟨h'.state.trans h.state, h'.flowControl.trans h.flowControl⟩

theorem SameBuffers.refl : SameBuffers s s := ⟨⟨rfl, rfl⟩, rfl, rfl, rfl⟩

theorem SameBuffers.trans {s t u : WtSession} (h : SameBuffers s t) (h' : SameBuffers t u) :
    SameBuffers s u :=
  ⟨h.toSameState.trans h'.toSameState, h'.streams.trans h.streams, h'.entries.trans h.entries,
    h'.datagrams.trans h.datagrams⟩

theorem sameBuffers_setRecvStreamFc (b : Bool) (fc : DirectionalStreamFlowControl) :
    SameBuffers s (s.setRecvStreamFc b fc) := by
  unfold setRecvStreamFc
  split <;> exact ⟨⟨rfl, rfl⟩, rfl, rfl, rfl⟩

theorem sameBuffers_addReceivedStream (b : Bool) : SameBuffers s (s.addReceivedStream b) := by
  unfold addReceivedStream
  split
  · exact sameBuffers_setRecvStreamFc s b _
  · exact .refl _

theorem sameBuffers_addReceivedData (n : Nat) : SameBuffers s (s.addReceivedData n) := by
  unfold addReceivedData
  split <;> exact ⟨⟨rfl, rfl⟩, rfl, rfl, rfl⟩

theorem sameBuffers_addReceivedDataAndTrack (y n : Nat) :
    SameBuffers s (s.addReceivedDataAndTrack y n) :=
  (sameBuffers_addReceivedData s n).trans ⟨⟨rfl, rfl⟩, rfl, rfl, rfl⟩

theorem sameBuffers_onRemoteStreamClosed (b : Bool) :
    SameBuffers s (s.onRemoteStreamClosed b) := by
  unfold onRemoteStreamClosed
  split
  · split
    · split
      · exact (sameBuffers_setRecvStreamFc s b _).trans ⟨⟨rfl, rfl⟩, rfl, rfl, rfl⟩
      · exact sameBuffers_setRecvStreamFc s b _
    · exact .refl _
  · exact .refl _

theorem sameBuffers_returnCredit (b : Bool) (y : Nat) :
    SameBuffers s ((s.onRemoteStreamClosed b).removeStreamReceivedData y) :=
  (sameBuffers_onRemoteStreamClosed s b).trans ⟨⟨rfl, rfl⟩, rfl, rfl, rfl⟩

theorem sameBuffers_onDataConsumed (n : Nat) : SameBuffers s (s.onDataConsumed n) := by
  unfold onDataConsumed
  repeat' split
  all_goals exact ⟨⟨rfl, rfl⟩, rfl, rfl, rfl⟩

theorem sameBuffers_offer (headers : List Header) : SameBuffers s (s.offer headers) := by
  unfold WtSession.offer
  repeat' split
  all_goals exact ⟨⟨rfl, rfl⟩, rfl, rfl, rfl⟩

theorem sameBuffers_capsuleBuf (capsuleBuf : Bytes) : SameBuffers s { s with capsuleBuf } :=
  ⟨⟨rfl, rfl⟩, rfl, rfl, rfl⟩

end SameBuffers

section Confined

variable {s t : WtSession} {x : Nat}

theorem bounded_new : Bounded .new :=
  ⟨Nat.zero_le _, (fun _ _ h => nomatch h), Nat.zero_le _⟩

theorem SameBuffers.confined (h : SameBuffers s t) : Confined s t where
  toSameState := h.toSameState
  bounded hs := by
    refine ⟨?_, ?_, ?_⟩
    · rw [h.streams]
      exact hs.streams
    · rw [h.entries, h.streams]
      exact hs.entries
    · rw [h.datagrams]
      exact hs.datagrams

theorem confined_bufferDatagram (s : WtSession) (data : Bytes) :
    Confined s (s.bufferDatagram data) := by
  unfold bufferDatagram
  split
  · exact (SameBuffers.refl s).confined
  · refine ⟨⟨rfl, rfl⟩, fun hs => ⟨hs.streams, hs.entries, ?_⟩⟩
    simp only [List.length_append, List.length_singleton]
    omega

theorem confined_bufferStream {b : Bool} (h : s.bufferStream x b = some t) : Confined s t := by
  unfold bufferStream at h
  split at h <;> cases h
  refine ⟨⟨rfl, rfl⟩, fun hs => ⟨?_, fun y entry hy => ?_, hs.datagrams⟩⟩
  · simp only [List.length_append, List.length_singleton]
    omega
  · rw [IdMap.lookup_insert_eq] at hy
    split at hy
    · next hyx =>
      cases hy
      exact ⟨by simp [hyx], Nat.zero_le _⟩
    · exact ⟨List.mem_append_left _ (hs.entries y entry hy).1, (hs.entries y entry hy).2⟩

theorem confined_appendBufferedStreamData {data : Bytes}
    (h : s.appendBufferedStreamData x data = some t) : Confined s t := by
  unfold appendBufferedStreamData at h
  split at h
  · next old hold =>
    split at h <;> cases h
    refine ⟨⟨rfl, rfl⟩, fun hs => ⟨hs.streams, fun y entry hy => ?_, hs.datagrams⟩⟩
    rw [IdMap.lookup_insert_eq] at hy
    split at hy
    · next hyx =>
      cases hy
      refine ⟨hyx ▸ (hs.entries x old hold).1, ?_⟩
      simp only [List.length_append]
      omega
    · exact hs.entries y entry hy
  · cases h

theorem confined_markBufferedStreamFin (s : WtSession) (x : Nat) :
    Confined s (s.markBufferedStreamFin x) := by
  refine ⟨⟨rfl, rfl⟩, fun hs => ⟨hs.streams, fun y entry hy => ?_, hs.datagrams⟩⟩
  rw [markBufferedStreamFin, IdMap.lookup_update_eq] at hy
  split at hy
  · next hyx =>
    obtain ⟨old, hold, rfl⟩ := Option.map_eq_some_iff.mp hy
    exact hs.entries y old hold
  · exact hs.entries y entry hy

theorem confined_dropBufferedStreamEntry (s : WtSession) (x : Nat) :
    Confined s (s.dropBufferedStreamEntry x) := by
  refine ⟨⟨rfl, rfl⟩, fun hs => ⟨hs.streams, fun y entry hy => ?_, hs.datagrams⟩⟩
  rw [dropBufferedStreamEntry, IdMap.lookup_erase_eq] at hy
  split at hy
  · cases hy
  · exact hs.entries y entry hy

theorem confined_removeBufferedStream (s : WtSession) (x : Nat) :
    Confined s (s.removeBufferedStream x).2 := by
  refine ⟨⟨rfl, rfl⟩, fun hs => ⟨?_, fun y entry hy => ?_, hs.datagrams⟩⟩
  · exact (List.length_filter_le _ _).trans hs.streams
  · rw [removeBufferedStream, IdMap.lookup_erase_eq] at hy
    split at hy
    · cases hy
    · next hyx =>
      obtain ⟨hlisted, hbytes⟩ := hs.entries y entry hy
      exact ⟨List.mem_filter.mpr ⟨hlisted, decide_eq_true hyx⟩, hbytes⟩

end Confined

/-- The entries that are held back are those of listed streams, so there are no more of them. -/
theorem Bounded.entries_length {s : WtSession} (h : s.Bounded) :
    s.bufferedStreamEntries.keys.length ≤ MAX_BUFFERED_STREAMS := by
  have hlisted : s.bufferedStreamEntries.keys ⊆ s.bufferedStreams := by
    intro x hx
    obtain ⟨entry, hentry⟩ := (IdMap.mem_keys_iff _ _).mp hx
    exact (h.entries x entry hentry).1
  exact (List.subperm_of_subset (AList.keys_nodup _) hlisted).length_le.trans h.streams

/-! ## Delivery -/

section Delivery

/-- Events that tell of the streams of one session. -/
def OfStreams (j : Nat) (e : WebTransportEvent) : Prop :=
  ∃ b x data, e = openEvent b x j ∨ e = dataEvent b x data ∨ e = endEvent b x

theorem restoreRemaining_same (xs : List Nat) (s : WtSession) :
    SameState s (s.restoreRemaining xs) := by
  induction xs generalizing s with
  | nil => exact ⟨rfl, rfl⟩
  | cons x xs ih =>
    unfold restoreRemaining
    split
    · next entry _ =>
      have hrest := ih ((s.dropBufferedStreamEntry x).restoreBufferedStream x entry)
      exact ⟨hrest.state, hrest.flowControl⟩
    · exact ih s

theorem deliverEnd_buffers (s : WtSession) (x : Nat) (entry : BufferedStreamEntry) :
    SameBuffers s (s.deliverEnd x entry).1 := by
  unfold deliverEnd
  split
  · exact sameBuffers_returnCredit s entry.isBidi x
  · exact .refl s

theorem deliverEnd_events (j : Nat) (s : WtSession) (x : Nat) (entry : BufferedStreamEntry) :
    ∀ e ∈ (s.deliverEnd x entry).2.1, OfStreams j e := by
  unfold deliverEnd
  split
  · intro e he
    exact ⟨entry.isBidi, x, [], .inr (.inr (List.mem_singleton.mp he))⟩
  · exact fun e he => absurd he List.not_mem_nil

/-- Delivery leaves the state alone and tells of streams of the session only. -/
theorem deliverLoop_told (j : Nat) (order : List Nat) (s : WtSession)
    (events : List WebTransportEvent) (closed : List (Nat × Bool)) (xs : List Nat)
    (hevents : ∀ e ∈ events, OfStreams j e) :
    SameState s (deliverLoop j order s events closed xs).session ∧
      ∀ e ∈ (deliverLoop j order s events closed xs).events, OfStreams j e := by
  induction xs generalizing s events closed with
  | nil => exact ⟨⟨rfl, rfl⟩, hevents⟩
  | cons x xs ih =>
    unfold deliverLoop
    cases hentry : s.bufferedStreamEntries.lookup x with
    | none => exact ih s events closed hevents
    | some entry =>
      dsimp only
      generalize hs₁ : s.dropBufferedStreamEntry x = s₁
      have hdropped : SameState s s₁ := hs₁ ▸ ⟨rfl, rfl⟩
      split
      · have hrest := restoreRemaining_same (remainingAfter x order)
          (s₁.restoreBufferedStream x entry)
        exact ⟨hdropped.trans ⟨hrest.state, hrest.flowControl⟩, hevents⟩
      have hreceived := (sameBuffers_addReceivedStream s₁ entry.isBidi).toSameState
      have hopened : SameState s ((s₁.addReceivedStream entry.isBidi).associateStream x) :=
        (hdropped.trans hreceived).trans ⟨rfl, rfl⟩
      generalize (s₁.addReceivedStream entry.isBidi).associateStream x = s₂ at hopened
      have hopen : ∀ e ∈ events ++ [openEvent entry.isBidi x j], OfStreams j e := by
        intro e he
        rcases List.mem_append.mp he with he | he
        · exact hevents e he
        · exact ⟨entry.isBidi, x, [], .inl (List.mem_singleton.mp he)⟩
      -- what is left of an entry once its stream is open
      have hended : ∀ (t : WtSession) (told : List WebTransportEvent), SameState s t →
          (∀ e ∈ told, OfStreams j e) →
          let r := deliverLoop j order (t.deliverEnd x entry).1
            (told ++ (t.deliverEnd x entry).2.1) (closed ++ (t.deliverEnd x entry).2.2) xs
          SameState s r.session ∧ ∀ e ∈ r.events, OfStreams j e := by
        intro t told ht htold
        obtain ⟨hsame, hall⟩ := ih (t.deliverEnd x entry).1 (told ++ (t.deliverEnd x entry).2.1)
          (closed ++ (t.deliverEnd x entry).2.2) fun e he =>
            (List.mem_append.mp he).elim (htold e) (deliverEnd_events j t x entry e)
        exact ⟨(ht.trans (deliverEnd_buffers t x entry).toSameState).trans hsame, hall⟩
      split
      · exact hended s₂ _ hopened hopen
      split
      · have hrest := restoreRemaining_same (remainingAfter x order) s₂
        exact ⟨(hopened.trans hrest).trans ⟨rfl, rfl⟩, hopen⟩
      · refine hended _ _
          (hopened.trans (sameBuffers_addReceivedDataAndTrack s₂ x entry.data.length).toSameState)
          fun e he => ?_
        rcases List.mem_append.mp he with he | he
        · exact hopen e he
        · exact ⟨entry.isBidi, x, entry.data, .inr (.inl (List.mem_singleton.mp he))⟩

theorem mem_remainingAfter {x : Nat} (pre xs : List Nat) :
    (∀ y ∈ xs, y ∈ remainingAfter x (pre ++ x :: xs)) ∧
      (remainingAfter x (pre ++ x :: xs)).length < (pre ++ x :: xs).length := by
  induction pre with
  | nil => simp [remainingAfter]
  | cons p pre ih =>
    by_cases hp : p = x
    · subst hp
      have htail : remainingAfter p (p :: pre ++ p :: xs) = pre ++ p :: xs := by
        simp [remainingAfter]
      rw [htail]
      exact ⟨fun y hy => List.mem_append_right _ (List.mem_cons_of_mem p hy), by simp⟩
    · have hskip : remainingAfter x (p :: pre ++ x :: xs) = remainingAfter x (pre ++ x :: xs) := by
        simp [remainingAfter, hp]
      rw [hskip]
      exact ⟨ih.1, ih.2.trans (by simp)⟩

/-- The entries are those of streams in `xs`, and small. -/
def EntriesOf (xs : List Nat) (s : WtSession) : Prop :=
  ∀ x entry, s.bufferedStreamEntries.lookup x = some entry →
    x ∈ xs ∧ entry.data.length ≤ WT_MAX_BUFFERED_STREAM_BYTES

theorem entriesOf_restore {xs ys : List Nat} {s : WtSession} {x : Nat} {entry : BufferedStreamEntry}
    (h : EntriesOf xs s) (hxs : ∀ y ∈ xs, y = x ∨ y ∈ ys)
    (hentry : entry.data.length ≤ WT_MAX_BUFFERED_STREAM_BYTES) :
    EntriesOf (x :: ys) (s.restoreBufferedStream x entry) := by
  intro y e hy
  rw [restoreBufferedStream, IdMap.lookup_insert_eq] at hy
  split at hy
  · next hyx =>
    cases hy
    exact ⟨hyx ▸ List.mem_cons_self, hentry⟩
  · obtain ⟨hmem, hbytes⟩ := h y e hy
    exact ⟨List.mem_cons.mpr (hxs y hmem), hbytes⟩

theorem entriesOf_drop {x : Nat} {xs : List Nat} {s : WtSession} (h : EntriesOf (x :: xs) s) :
    EntriesOf xs (s.dropBufferedStreamEntry x) := by
  intro y e hy
  rw [dropBufferedStreamEntry, IdMap.lookup_erase_eq] at hy
  split at hy
  · cases hy
  · next hyx =>
    obtain ⟨hmem, hbytes⟩ := h y e hy
    exact ⟨(List.mem_cons.mp hmem).resolve_left hyx, hbytes⟩

/-- What is left goes back into the list, one place for each stream. -/
theorem restoreRemaining_bounded (ys : List Nat) (s : WtSession)
    (h : EntriesOf (s.bufferedStreams ++ ys) s) :
    EntriesOf (s.restoreRemaining ys).bufferedStreams (s.restoreRemaining ys) ∧
      (s.restoreRemaining ys).bufferedStreams.length ≤ s.bufferedStreams.length + ys.length ∧
      (s.restoreRemaining ys).bufferedDatagrams = s.bufferedDatagrams := by
  induction ys generalizing s with
  | nil => exact ⟨by simpa [restoreRemaining] using h, Nat.le_refl _, rfl⟩
  | cons y ys ih =>
    unfold restoreRemaining
    cases hy : s.bufferedStreamEntries.lookup y with
    | some entry =>
      dsimp only
      have hagain : EntriesOf ((s.bufferedStreams ++ [y]) ++ ys)
          ((s.dropBufferedStreamEntry y).restoreBufferedStream y entry) := by
        intro x e hx
        rw [restoreBufferedStream, IdMap.lookup_insert_eq] at hx
        split at hx
        · next hxy =>
          cases hx
          exact ⟨by simp [hxy], (h y entry hy).2⟩
        · next hxy =>
          rw [dropBufferedStreamEntry, IdMap.lookup_erase_eq, if_neg hxy] at hx
          exact ⟨by simpa using (h x e hx).1, (h x e hx).2⟩
      obtain ⟨hentries, hlength, hdatagrams⟩ := ih _ hagain
      refine ⟨hentries, hlength.trans ?_, hdatagrams⟩
      simp [restoreBufferedStream, dropBufferedStreamEntry]
      omega
    | none =>
      dsimp only
      have hrest : EntriesOf (s.bufferedStreams ++ ys) s := by
        intro x e hx
        obtain ⟨hmem, hbytes⟩ := h x e hx
        refine ⟨?_, hbytes⟩
        rcases List.mem_append.mp hmem with hmem | hmem
        · exact List.mem_append_left _ hmem
        · rcases List.mem_cons.mp hmem with rfl | hmem
          · rw [hy] at hx
            cases hx
          · exact List.mem_append_right _ hmem
      obtain ⟨hentries, hlength, hdatagrams⟩ := ih s hrest
      exact ⟨hentries, hlength.trans (by simp), hdatagrams⟩

/-- What `s` still held is back in the list of `t`, which names at most `limit` streams. -/
structure PutBack (limit : Nat) (s t : WtSession) : Prop where
  entries : EntriesOf t.bufferedStreams t
  length : t.bufferedStreams.length ≤ limit
  datagrams : t.bufferedDatagrams = s.bufferedDatagrams

section PutBack

variable {limit x : Nat} {xs ys : List Nat} {s t : WtSession} {entry : BufferedStreamEntry}

/-- A stream that could not be opened comes before those after it. -/
theorem putBack_unopened (hnil : s.bufferedStreams = []) (h : EntriesOf xs s)
    (hmem : ∀ y ∈ xs, y ∈ ys) (hbytes : entry.data.length ≤ WT_MAX_BUFFERED_STREAM_BYTES) :
    PutBack (ys.length + 1) s ((s.restoreBufferedStream x entry).restoreRemaining ys) := by
  have hone : (s.restoreBufferedStream x entry).bufferedStreams = [x] := by
    simp [restoreBufferedStream, hnil]
  have hentries : EntriesOf ([x] ++ ys) (s.restoreBufferedStream x entry) :=
    entriesOf_restore h (fun y hy => .inr (hmem y hy)) hbytes
  obtain ⟨hrest, hlength, hdatagrams⟩ :=
    restoreRemaining_bounded ys (s.restoreBufferedStream x entry) (hone ▸ hentries)
  refine ⟨hrest, hlength.trans ?_, hdatagrams⟩
  rw [hone, List.length_singleton]
  omega

/-- A stream whose bytes did not fit comes after them. -/
theorem putBack_unread (hnil : s.bufferedStreams = []) (h : EntriesOf xs s)
    (hmem : ∀ y ∈ xs, y ∈ ys) (hbytes : entry.data.length ≤ WT_MAX_BUFFERED_STREAM_BYTES) :
    PutBack (ys.length + 1) s ((s.restoreRemaining ys).restoreBufferedStream x entry) := by
  have hentries : EntriesOf (s.bufferedStreams ++ ys) s := fun y e hy =>
    ⟨List.mem_append_right _ (hmem y (h y e hy).1), (h y e hy).2⟩
  obtain ⟨hrest, hlength, hdatagrams⟩ := restoreRemaining_bounded ys s hentries
  generalize s.restoreRemaining ys = u at hrest hlength hdatagrams
  have hlisted : EntriesOf (x :: u.bufferedStreams) (u.restoreBufferedStream x entry) :=
    entriesOf_restore hrest (fun _ => .inr) hbytes
  refine ⟨fun y e hy => ?_, ?_, hdatagrams⟩
  · obtain ⟨hy', hb⟩ := hlisted y e hy
    exact ⟨by simpa [restoreBufferedStream, or_comm] using hy', hb⟩
  · rw [hnil, List.length_nil] at hlength
    simp only [restoreBufferedStream, List.length_append, List.length_singleton]
    omega

theorem EntriesOf.of_sameBuffers (h : EntriesOf xs s) (hst : SameBuffers s t) : EntriesOf xs t := by
  intro y e hy
  rw [hst.entries] at hy
  exact h y e hy

theorem EntriesOf.of_absent (h : EntriesOf (x :: xs) s)
    (hx : s.bufferedStreamEntries.lookup x = none) : EntriesOf xs s := by
  intro y e hy
  obtain ⟨hmem, hbytes⟩ := h y e hy
  rcases List.mem_cons.mp hmem with rfl | hmem
  · rw [hx] at hy
    cases hy
  · exact ⟨hmem, hbytes⟩

theorem PutBack.mono {n : Nat} {u : WtSession} (h : PutBack n t u) (hn : n ≤ limit)
    (hst : t.bufferedDatagrams = s.bufferedDatagrams) : PutBack limit s u :=
  ⟨h.entries, h.length.trans hn, h.datagrams.trans hst⟩

end PutBack

/-- In the loop the list is empty and the entries are those still to come. -/
theorem deliverLoop_bounded (j : Nat) (pre xs : List Nat) (s : WtSession)
    (events : List WebTransportEvent) (closed : List (Nat × Bool)) (hnil : s.bufferedStreams = [])
    (hentries : EntriesOf xs s) :
    PutBack (pre ++ xs).length s (deliverLoop j (pre ++ xs) s events closed xs).session := by
  induction xs generalizing s events closed pre with
  | nil =>
    refine ⟨?_, ?_, rfl⟩
    · show EntriesOf s.bufferedStreams s
      rwa [hnil]
    · show s.bufferedStreams.length ≤ _
      simp [hnil]
  | cons x xs ih =>
    unfold deliverLoop
    have hmore : pre ++ x :: xs = (pre ++ [x]) ++ xs := by simp
    obtain ⟨hmem, hlength⟩ := mem_remainingAfter (x := x) pre xs
    cases hx : s.bufferedStreamEntries.lookup x with
    | none =>
      dsimp only
      rw [hmore]
      exact ih (pre ++ [x]) s events closed hnil (hentries.of_absent hx)
    | some entry =>
      dsimp only
      have hbytes := (hentries x entry hx).2
      have hdropped := entriesOf_drop hentries
      have hnil₁ : (s.dropBufferedStreamEntry x).bufferedStreams = [] := hnil
      have hdatagrams₁ : (s.dropBufferedStreamEntry x).bufferedDatagrams = s.bufferedDatagrams :=
        rfl
      generalize s.dropBufferedStreamEntry x = s₁ at hdropped hnil₁ hdatagrams₁
      split
      · exact (putBack_unopened hnil₁ hdropped hmem hbytes).mono hlength hdatagrams₁
      have hopened : SameBuffers s₁ ((s₁.addReceivedStream entry.isBidi).associateStream x) :=
        (sameBuffers_addReceivedStream s₁ entry.isBidi).trans ⟨⟨rfl, rfl⟩, rfl, rfl, rfl⟩
      generalize (s₁.addReceivedStream entry.isBidi).associateStream x = s₂ at hopened
      have hloop : ∀ (t : WtSession) (events : List WebTransportEvent) (closed : List (Nat × Bool)),
          SameBuffers s₁ t → PutBack (pre ++ x :: xs).length s
            (deliverLoop j (pre ++ x :: xs) t events closed xs).session := by
        intro t events closed ht
        rw [hmore]
        exact (ih (pre ++ [x]) t events closed (ht.streams.trans hnil₁)
          (hdropped.of_sameBuffers ht)).mono (Nat.le_refl _) (ht.datagrams.trans hdatagrams₁)
      split
      · exact hloop _ _ _ (hopened.trans (deliverEnd_buffers s₂ x entry))
      split
      · exact (putBack_unread (hopened.streams.trans hnil₁) (hdropped.of_sameBuffers hopened) hmem
          hbytes).mono hlength (hopened.datagrams.trans hdatagrams₁)
      · exact hloop _ _ _ ((hopened.trans (sameBuffers_addReceivedDataAndTrack s₂ x _)).trans
          (deliverEnd_buffers _ x entry))

theorem bounded_deliver {s : WtSession} (j : Nat) (h : s.Bounded) :
    (s.deliver j).session.Bounded := by
  have hback := deliverLoop_bounded j [] s.bufferedStreams { s with bufferedStreams := [] } [] []
    rfl h.entries
  exact ⟨hback.length.trans h.streams, hback.entries,
    (congrArg List.length hback.datagrams).le.trans h.datagrams⟩

end Delivery

end WtSession

end Http3
