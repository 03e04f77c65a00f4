import Http3.Connection.SessionEvents

/-!
# Bounds of what is held back

Whatever the peer sends ahead of its sessions, each holds back no more than its bounds allow.
-/

namespace Http3

namespace Connection

open Proc WtSession

section Bounded

variable {env : Env} {w w' : WtState} {o : List Obs} {b : Bool}

/-- Every step of a procedure keeps the bounds. -/
theorem step_bounded (h : WtStep env w o b w') (hw : AllSessions Bounded w) :
    AllSessions Bounded w' := by
  cases h with
  | aside | opened | datagram | capsule => exact hw
  | tables h => exact hw.of_eq h
  | create _ j hr hnone h => exact hw.put j (h.bounded bounded_new)
  | change _ j hs h => exact hw.put j (h.bounded (hw j _ hs))
  | establish _ j fc hs hstate ht hbounded => exact hw.put j (hbounded (hw j _ hs))
  | drain _ j hs hstate =>
    have h := hw j _ hs
    exact hw.put j ⟨h.streams, h.entries, h.datagrams⟩
  | close j resets code closeCode message hs h =>
    unfold AllSessions
    rw [h]
    exact IdMap.All.erase hw j
  | abandon _ j hs hstate => exact IdMap.All.erase hw j

theorem sendRequestInner_bounded (headers : List Header) (fin : Bool) :
    Keeps (SessionFlow Bounded) (sendRequestInner env headers fin) := by
  intro c hc
  have hasked := sendRequestInner_asksSession env c headers fin
  unfold Post at hasked
  generalize sendRequestInner env headers fin c = r at hasked ⊢
  cases hasked with
  | nothing hwt hnext => exact hc.of_eq (congrArg WtState.wtSessions hwt)
  | asked hclient hheaders hwt hnext =>
    have hoffer := (sameBuffers_offer .new headers).confined.bounded bounded_new
    have hput := hc.put c.nextStreamId hoffer
    exact hput.of_eq (congrArg WtState.wtSessions hwt)

theorem body_bounded (env : Env) (call : Call) : Keeps (SessionFlow Bounded) (body env call) := by
  have hR := sessionFlow_composes Bounded
  by_cases h : ∃ headers fin, call = .sendRequest headers fin
  · obtain ⟨headers, fin, rfl⟩ := h
    exact .bind hR (sendRequestInner_bounded headers fin) fun _ => .ret hR _
  · have htraced := body_traced env call fun headers fin hcall => h ⟨headers, fin, hcall⟩
    refine htraced.mono fun c o b d hsteps => ?_
    have hkeeps : Composes (fun w _ _ w' => AllSessions Bounded w → AllSessions Bounded w' :
        Flow Obs WtState) := ⟨fun _ _ hw => hw, fun h h' hw => h' (h hw)⟩
    exact Many.lift hkeeps (fun _ _ _ _ => step_bounded) hsteps.1

end Bounded

/-! ## Every run -/

/-- What a session holds back is bounded in every reachable state: the streams and datagrams that
came ahead of it, and the bytes of each stream. -/
theorem session_buffers_are_bounded {cfg : Config} {c : Connection} (hc : Reachable cfg c) {k : Nat}
    {s : WtSession} (hs : c.core.wt.wtSessions.lookup k = some s) :
    s.bufferedStreams.length ≤ MAX_BUFFERED_STREAMS ∧
      s.bufferedStreamEntries.keys.length ≤ MAX_BUFFERED_STREAMS ∧
      (∀ x entry, s.bufferedStreamEntries.lookup x = some entry →
        entry.data.length ≤ WT_MAX_BUFFERED_STREAM_BYTES) ∧
      s.bufferedDatagrams.length ≤ MAX_BUFFERED_DATAGRAMS := by
  have hall : AllSessions Bounded c.core.wt :=
    hc.rec_on (P := fun c => AllSessions Bounded c.core.wt)
      (fun c₀ hnew => by
        rw [new_wt hnew]
        exact IdMap.All.empty)
      fun c i hall => step_stays (sessionFlow_composes Bounded)
        (body_bounded (cfg.env i.order) i.call c.core) hall
  have h : s.Bounded := hall k s hs
  exact ⟨h.streams, h.entries_length, fun x entry hx => (h.entries x entry hx).2, h.datagrams⟩

/-- Two streams and a datagram come before their session is asked for. -/
def earlyCalls : List Call :=
  Sample.serverSetup ++ [.feedStream 6 [0x40, 0x54, 0x00, 1, 2, 3] false,
    .feedStream 10 [0x40, 0x54, 0x00, 4] true, .feedDatagram [0, 5]]

theorem early_buffers_are_bounded : ∃ c s, Reachable Sample.server c ∧
    c.core.wt.wtSessions.lookup 0 = some s ∧ s.bufferedStreams = [6, 10] ∧
    s.bufferedStreams.length ≤ MAX_BUFFERED_STREAMS ∧
      s.bufferedStreamEntries.keys.length ≤ MAX_BUFFERED_STREAMS ∧
      (∀ x entry, s.bufferedStreamEntries.lookup x = some entry →
        entry.data.length ≤ WT_MAX_BUFFERED_STREAM_BYTES) ∧
      s.bufferedDatagrams.length ≤ MAX_BUFFERED_DATAGRAMS := by
  obtain ⟨c, hc, h⟩ := Sample.of_holdsAfter Sample.server earlyCalls
    (p := fun c => (c.core.wt.wtSessions.lookup 0).any fun s : WtSession =>
      decide (s.bufferedStreams = [6, 10])) (by decide +kernel)
  obtain ⟨s, hs, hstreams⟩ := (Option.any_eq_true _ _).mp h
  have hreach : Reachable Sample.server
      (after Sample.server c (earlyCalls.map Call.listed)) := ⟨c, _, hc, rfl⟩
  exact ⟨_, s, hreach, hs, of_decide_eq_true hstreams, session_buffers_are_bounded hreach hs⟩

end Connection

end Http3
