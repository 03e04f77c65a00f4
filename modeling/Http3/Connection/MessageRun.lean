import Http3.Connection.Delivery
import Http3.Connection.Hearing

/-!
# Runs in which a message arrives

The bytes of a message arrive between other calls: calls about other streams, and calls that send
on the stream itself. Every step keeps the account: of the frames that are complete, and of no
others, the application has been told.
-/

namespace Http3

namespace Connection

open Proc

/-! ## Steps -/

/-- A piece of the stream: it has bytes, or FIN. -/
def isPiece (s : Nat) : Call → Bool
  | .feedStream x data fin => x == s && (!data.isEmpty || fin)
  | _ => false

/-- What arrives on the stream with a call. -/
def arriving (s : Nat) : Call → List Mark
  | .feedStream x data fin => if x = s then bytesOf data ++ finMark fin else []
  | _ => []

/-- What arrives on the stream in a run. -/
def fed (s : Nat) (js : List Input) : List Mark := js.flatMap fun i => arriving s i.call

/-- A piece of the message, or a call that is none and after which it still has its room. -/
def Accommodates (cfg : Config) (p : Recipient) (s : Nat) (c : Connection) (i : Input) : Prop :=
  isPiece s i.call = true ∨ (StandsAside s c.core i.call ∨ isAnswer s i.call = true) ∧
    (c.feed cfg i).conn.error = none ∧ Hosts p s (c.feed cfg i).conn.core

instance (cfg : Config) (p : Recipient) (s : Nat) (c : Connection) (i : Input) :
    Decidable (Accommodates cfg p s c i) :=
  inferInstanceAs (Decidable (_ ∨ _ ∧ _ ∧ _))

/-- The end is told when FIN has come. -/
def endOf (s : Nat) (fin : Bool) : List Obs := if fin then [.event (.streamEnd s)] else []

theorem fed_cons (s : Nat) (i : Input) (js : List Input) :
    fed s (i :: js) = arriving s i.call ++ fed s js := List.flatMap_cons

theorem arriving_piece (s : Nat) (data : Bytes) (fin : Bool) :
    arriving s (.feedStream s data fin) = bytesOf data ++ finMark fin := if_pos rfl

theorem arriving_other {s : Nat} {c : Core} {call : Call}
    (h : StandsAside s c call ∨ isAnswer s call = true) : arriving s call = [] := by
  cases call with
  | feedStream x data fin =>
    obtain (h | ⟨h, -⟩) | h := h
    · exact if_neg (bne_iff_ne.mp h)
    · cases h
    · cases h
  | _ => rfl

theorem bytesOf_split {data x : Bytes} {l : List Mark} {fin : Bool}
    (h : bytesOf data ++ l = bytesOf x ++ finMark fin) :
    ∃ y, x = data ++ y ∧ l = bytesOf y ++ finMark fin := by
  induction data generalizing x with
  | nil => exact ⟨x, rfl, h⟩
  | cons b data ih =>
    cases x with
    | nil => cases fin <;> cases h
    | cons a x =>
      obtain ⟨hab, htail⟩ := List.cons.inj h
      obtain ⟨y, rfl, hl⟩ := ih htail
      exact ⟨y, by rw [Option.some.inj hab]; rfl, hl⟩

theorem finMark_last {x : Bytes} {l : List Mark} {fin : Bool}
    (h : none :: l = bytesOf x ++ finMark fin) : x = [] ∧ fin = true ∧ l = [] := by
  cases x with
  | nil =>
    cases fin with
    | false => cases h
    | true => exact ⟨rfl, rfl, (List.cons.inj h).2⟩
  | cons a x => cases h

section Steps

variable {p : Recipient} {s : Nat} {last : Reading} {rest : List PartFrame}
  {part : Bytes} {c d : Core} {o : List Obs} {b : Bool}

theorem Plainly.answer (h : Plainly s c) (hwt : d.wt = c.wt)
    (hs : Remains (c.streams.lookup s) (d.streams.lookup s)) : Plainly s d := by
  refine ⟨by rw [hwt]; exact h.deferred, ?_, by rw [hwt]; exact h.clear⟩
  have hblocked := h.unblocked
  cases hr : c.streams.lookup s with
  | none =>
    rw [hr] at hs
    rw [show d.streams.lookup s = none from hs]
    rfl
  | some r =>
    rw [hr] at hs hblocked
    obtain ⟨t, ht, hanswered⟩ | ⟨-, hgone⟩ := hs
    · rw [ht]
      exact hanswered.unblocked.trans hblocked
    · rw [hgone]
      rfl

theorem Mirrors.answer {r : Reading} {stream t : RequestStream} (h : Mirrors p r stream)
    (ht : Answered stream t) : Mirrors p r t ∧ t.recvBuf = stream.recvBuf := by
  have hsame := ht.received
  obtain ⟨h₁, h₂, h₃, h₄, h₅, h₆, h₇, h₈, h₉, h₁₀⟩ := hsame ▸ h
  have hbuf := congrArg RequestStream.recvBuf hsame
  refine ⟨⟨h₁, h₂, h₃, h₄, h₅, h₆, h₇, h₈, h₉, ?_⟩, hbuf⟩
  obtain hstate | hstate := h.goesOn <;> obtain ht | ht := ht.state <;> rw [ht, hstate]
  · exact .inl rfl
  · exact .inr rfl
  · exact .inr rfl
  · exact .inr rfl

theorem Mirrors.notOver {r : Reading} {stream : RequestStream} (h : Mirrors p r stream) :
    isOver (some stream) = false := by
  unfold isOver
  obtain hstate | hstate := h.goesOn <;> rw [Option.any_some, hstate] <;> rfl

/-- Calls beside the stream leave the message as far as it is. -/
theorem Awaits.beside (h : Awaits p s last rest part c) (hstep : Aside s c o b d)
    (hosts : Hosts p s d) : Awaits p s last rest part d := by
  cases h with
  | midway h =>
    obtain ⟨stream, r, hattending, hhears, hbuf⟩ := h
    obtain ⟨hplainly, -, hs⟩ := hstep hattending.plainly
    exact .midway ⟨stream, r, ⟨hplainly, hosts.alone, hs.trans hattending.hasStream,
      hattending.follows, hosts.fields⟩, hhears, hbuf⟩
  | first h =>
    obtain ⟨hplainly, -, hs⟩ := hstep h.plainly
    exact .first ⟨h.server, h.request, hplainly, hs.trans h.noStream, hosts, h.hears, h.shortType⟩

theorem Awaits.answer (h : Awaits p s last rest part c) (hstep : Answering s c o b d)
    (hosts : Hosts p s d) : Awaits p s last rest part d := by
  cases h with
  | midway h =>
    obtain ⟨stream, r, hattending, hhears, hbuf⟩ := h
    obtain ⟨hwt, -, hs⟩ := hstep hattending.alone
    have hplainly := hattending.plainly.answer hwt hs
    rw [hattending.hasStream] at hs
    obtain ⟨t, ht, hanswered⟩ | ⟨hover, -⟩ := hs
    · obtain ⟨hfollows, hrecv⟩ := hattending.follows.answer hanswered
      exact .midway ⟨t, r, ⟨hplainly, hosts.alone, ht, hfollows, hosts.fields⟩, hhears,
        hrecv.trans hbuf⟩
    · cases hattending.follows.notOver.symm.trans hover
  | first h =>
    obtain ⟨hwt, -, hs⟩ := hstep h.hosts.alone
    have hplainly := h.plainly.answer hwt hs
    rw [h.noStream] at hs
    exact .first ⟨h.server, h.request, hplainly, hs, hosts, h.hears, h.shortType⟩

theorem Awaits.kept (h : Awaits p s last rest part c) : Plainly s c ∧ Alone s c := by
  cases h with
  | midway h =>
    obtain ⟨stream, r, hattending, -⟩ := h
    exact ⟨hattending.plainly, hattending.alone⟩
  | first h => exact ⟨h.plainly, h.hosts.alone⟩

end Steps

/-! ## Runs -/

section Run

variable {cfg : Config} {p : Recipient} {s : Nat} {last : Reading} {c : Connection}

/-- A procedure that ends well. -/
theorem feed_done (hc : c.error = none) {order : HashOrder} {data : Bytes} {fin : Bool} {d : Core}
    {o : List Obs} (h : feedStreamInner (cfg.env order) s data fin c.core = ⟨.ok (), d, o⟩) :
    (c.feed cfg ⟨order, .feedStream s data fin⟩).result = .ok .done ∧
      (c.feed cfg ⟨order, .feedStream s data fin⟩).obs = o ∧
      (c.feed cfg ⟨order, .feedStream s data fin⟩).conn.core = d ∧
      (c.feed cfg ⟨order, .feedStream s data fin⟩).conn.error = none := by
  have hbody : body (cfg.env order) (.feedStream s data fin) c.core = ⟨.ok .done, d, o⟩ := by
    rw [body, unit, bind_ok _ _ _ h]
    simp only [ret_run, List.append_nil]
  simp only [feed, step, guarded, hc, exec, hbody]
  exact ⟨rfl, rfl, rfl, rfl⟩

/-- A call that is no piece reports nothing of the stream. -/
theorem feed_beside {i : Input} (hplainly : Plainly s c.core) (halone : Alone s c.core)
    (hi : StandsAside s c.core i.call ∨ isAnswer s i.call = true) :
    reports s (c.feed cfg i).obs = [] := by
  obtain hi | hi := hi
  · have hstep : (c.feed cfg i).Stays (Aside s) c :=
      step_stays (aside_composes s) (body_standsAside (cfg.env i.order) hi)
    exact reports_of_others (hstep hplainly).2.1
  · have hstep : (c.feed cfg i).Stays (Answering s) c :=
      step_stays (answering_composes s) (body_answering (cfg.env i.order) i.call hi c.core)
    exact reports_of_others (hstep halone).2.1

theorem Awaits.feed {rest : List PartFrame} {part : Bytes} {i : Input}
    (h : Awaits p s last rest part c.core) (hi : StandsAside s c.core i.call ∨ isAnswer s i.call = true)
    (hosts : Hosts p s (c.feed cfg i).conn.core) :
    Awaits p s last rest part (c.feed cfg i).conn.core := by
  obtain hi | hi := hi
  · have hstep : (c.feed cfg i).Stays (Aside s) c :=
      step_stays (aside_composes s) (body_standsAside (cfg.env i.order) hi)
    exact h.beside hstep hosts
  · have hstep : (c.feed cfg i).Stays (Answering s) c :=
      step_stays (answering_composes s) (body_answering (cfg.env i.order) i.call hi c.core)
    exact h.answer hstep hosts

theorem Over.feed {i : Input} (h : Over s c.core)
    (hi : StandsAside s c.core i.call ∨ isAnswer s i.call = true)
    (hosts : Hosts p s (c.feed cfg i).conn.core) : Over s (c.feed cfg i).conn.core := by
  obtain hi | hi := hi
  · have hstep : (c.feed cfg i).Stays (Aside s) c :=
      step_stays (aside_composes s) (body_standsAside (cfg.env i.order) hi)
    exact ⟨(hstep h.plainly).1, hosts.alone⟩
  · have hstep : (c.feed cfg i).Stays (Answering s) c :=
      step_stays (answering_composes s) (body_answering (cfg.env i.order) i.call hi c.core)
    obtain ⟨hwt, -, hs⟩ := hstep h.alone
    exact ⟨h.plainly.answer hwt hs, hosts.alone⟩

theorem notPiece {c : Core} {call : Call} (h : StandsAside s c call ∨ isAnswer s call = true) :
    isPiece s call = false := by
  cases call with
  | feedStream x data fin =>
    obtain (h | ⟨h, -⟩) | h := h
    · rw [isPiece, beq_eq_false_iff_ne.mpr (bne_iff_ne.mp h), Bool.false_and]
    · cases h
    · cases h
  | _ => rfl

/-- Behind the end nothing is told any more. -/
theorem over_run (h : Over s c.core) {js : List Input}
    (hjs : EveryStep cfg (Accommodates cfg p s) c js) (hfed : fed s js = []) :
    reports s (c.trace cfg js) = [] ∧
      EveryStep cfg (fun c i => isPiece s i.call = true → (c.feed cfg i).result = .ok .done) c js := by
  induction js generalizing c with
  | nil => exact ⟨rfl, trivial⟩
  | cons i js ih =>
    obtain ⟨hi, hjs⟩ := hjs
    rw [fed_cons] at hfed
    obtain ⟨hnow, hlater⟩ := List.append_eq_nil_iff.mp hfed
    obtain hpiece | ⟨hi, -, hosts⟩ := hi
    · obtain ⟨order, call⟩ := i
      cases call with
      | feedStream x data fin =>
        simp only [isPiece, Bool.and_eq_true, Bool.or_eq_true, Bool.not_eq_true', beq_iff_eq]
          at hpiece
        obtain ⟨rfl, hdata⟩ := hpiece
        rw [arriving_piece] at hnow
        obtain ⟨hbytes, hmark⟩ := List.append_eq_nil_iff.mp hnow
        obtain rfl := List.map_eq_nil_iff.mp hbytes
        obtain hdata | rfl := hdata
        · cases hdata
        · cases hmark
      | _ => cases hpiece
    · obtain ⟨htrace, hsteps⟩ := ih (h.feed hi hosts) hjs hlater
      refine ⟨?_, fun hpiece => ?_, hsteps⟩
      · rw [trace, steps, List.flatMap_cons, reports_append, feed_beside h.plainly h.alone hi]
        exact htrace
      · rw [notPiece hi] at hpiece
        cases hpiece

/-- **What is told of a message**: of the frames that are complete in the bytes that have arrived,
in order, and of the end once FIN has. -/
theorem message_run (hrole : cfg.role = p.role)
    (hkind : StreamKind.fromStreamId s = .clientBidi) {rest : List PartFrame} {part x more : Bytes} {fin : Bool}
    (hc : c.error = none) (h : Awaits p s last rest part c.core) {js : List Input}
    (hjs : EveryStep cfg (Accommodates cfg p s) c js) (hfed : fed s js = bytesOf x ++ finMark fin)
    (hshort : ∀ f ∈ rest.head?, part.length < f.bytes.length)
    (hwire : part ++ x ++ more = rest.flatMap PartFrame.bytes) (hfin : fin = true → more = [] ∧ p.mayEnd last = true) :
    ∃ done left part', Arrived PartFrame.bytes rest (part ++ x) done left part' ∧
      reports s (c.trace cfg js) = toldOf s done ++ endOf s fin ∧
      EveryStep cfg (fun c i => isPiece s i.call = true → (c.feed cfg i).result = .ok .done) c
        js := by
  induction js generalizing c rest part x with
  | nil =>
    cases x with
    | nil =>
      cases fin with
      | false => exact ⟨[], rest, part, by rw [List.append_nil]; exact .none hshort, rfl, trivial⟩
      | true => cases hfed
    | cons => cases hfed
  | cons i js ih =>
    obtain ⟨hi, hjs⟩ := hjs
    rw [fed_cons] at hfed
    obtain hpiece | ⟨hi, hnoError, hosts⟩ := hi
    · obtain ⟨order, call⟩ := i
      cases call with
      | feedStream y data fin₁ =>
        have hbytes := hpiece
        simp only [isPiece, Bool.and_eq_true, Bool.or_eq_true, Bool.not_eq_true', beq_iff_eq]
          at hbytes
        obtain ⟨rfl, hbytes⟩ := hbytes
        rw [arriving_piece, List.append_assoc] at hfed
        obtain ⟨x, rfl, hlater⟩ := bytesOf_split hfed
        cases fin₁ with
        | false =>
          have hdata : data ≠ [] := by
            rintro rfl
            simp at hbytes
          obtain ⟨d, o, done, left, part', hrun, hevents, hmid, harrived⟩ :=
            feed_heard (cfg.env order) h hrole hkind hdata
              (show part ++ data ++ (x ++ more) = _ by rw [← hwire]; simp only [List.append_assoc])
          obtain ⟨hresult, hobs, hcore, herror⟩ := feed_done hc hrun
          obtain ⟨done', left', part'', harrived', htrace, hsteps⟩ := ih herror
            (by rw [hcore]; exact .midway hmid) hjs hlater harrived.short
            (by
              rw [List.append_assoc]
              exact harrived.left (by rw [← hwire]; simp only [List.append_assoc]))
          refine ⟨done ++ done', left', part'', ?_, ?_, fun _ => hresult, hsteps⟩
          · rw [← List.append_assoc]
            exact harrived.append harrived'
          · have hheard : toldOf y (done ++ done') = toldOf y done ++ toldOf y done' :=
              List.flatMap_append
            rw [trace, steps, List.flatMap_cons, reports_append, hobs, hevents, hheard,
              List.append_assoc]
            exact congrArg (_ ++ ·) htrace
        | true =>
          obtain ⟨rfl, rfl, hnothing⟩ := finMark_last hlater
          obtain ⟨rfl, hend⟩ := hfin rfl
          simp only [List.append_nil] at hwire
          obtain ⟨d, o, hrun, hevents, hover⟩ :=
            feed_end (cfg.env order) h hrole hkind hwire hend
          obtain ⟨hresult, hobs, hcore, herror⟩ := feed_done hc hrun
          obtain ⟨htrace, hsteps⟩ := over_run (hcore ▸ hover) hjs hnothing
          refine ⟨rest, [], [], ⟨(List.append_nil rest).symm, ?_, nofun⟩, ?_, fun _ => hresult,
            hsteps⟩
          · rw [List.append_nil, List.append_nil, hwire]
          · rw [trace, steps, List.flatMap_cons, reports_append, hobs, hevents]
            exact (congrArg (_ ++ ·) htrace).trans (List.append_nil _)
      | _ => cases hpiece
    · rw [arriving_other hi, List.nil_append] at hfed
      obtain ⟨hplainly, halone⟩ := h.kept
      obtain ⟨done, left, part', harrived, htrace, hsteps⟩ :=
        ih hnoError (h.feed hi hosts) hjs hfed hshort hwire
      refine ⟨done, left, part', harrived, ?_, fun hpiece => ?_, hsteps⟩
      · rw [trace, steps, List.flatMap_cons, reports_append, feed_beside hplainly halone hi]
        exact htrace
      · rw [notPiece hi] at hpiece
        cases hpiece

end Run

end Connection

end Http3
