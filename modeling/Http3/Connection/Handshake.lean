import Http3.HeaderCheck
import Http3.Connection.DraftChoice

/-!
# The answer to a CONNECT

`ConnectResponse` writes a status and the protocol that was chosen. What the server lets out and
what the client makes of it are decided on the fields; here they are compared with what was written.
-/

namespace Http3

open Bytes

structure ConnectResponse where
  status : UInt16
  selectedProtocol : Option Text
  deriving DecidableEq

namespace ConnectResponse

def new (status : UInt16) : ConnectResponse := ⟨status, none⟩

def withProtocol (r : ConnectResponse) (protocol : Text) : ConnectResponse :=
  { r with selectedProtocol := some protocol }

/-- A number as its decimal digits. -/
def decimal (n : Nat) : Bytes := (Nat.toDigits 10 n).map fun c => UInt8.ofNat c.toNat

def protocolField : Option Text → Except HeaderError (List Header)
  | none => .ok []
  | some proto =>
    (Header.new (ofString "wt-protocol") (ConnectRequest.quote proto.bytes)).map ([·])

def toHeaders (r : ConnectResponse) : Except HeaderError (List Header) := do
  let status ← Header.new (ofString ":status") (decimal r.status.toNat)
  let protocol ← protocolField r.selectedProtocol
  return status :: protocol

def isSuccess (r : ConnectResponse) : Bool := r.status / 100 == 2

def isProtocolValid (r : ConnectResponse) (request : ConnectRequest) : Bool :=
  match r.selectedProtocol with
  | none => request.availableProtocols.isEmpty
  | some proto =>
    if request.availableProtocols.isEmpty then false
    else request.availableProtocols.contains proto.bytes

def parseProtocol (value : Bytes) : Option Bytes := SfParser.parseSfItemString value

/-! ## The status -/

section Decimal

open Nat

theorem digit_toNat {c : Char} (h : c.isDigit = true) :
    (UInt8.ofNat c.toNat).toNat = c.toNat ∧ 48 ≤ c.toNat ∧ c.toNat ≤ 57 := by
  have hrange : 48 ≤ c.toNat ∧ c.toNat ≤ 57 := by
    simpa [Char.isDigit, UInt32.le_iff_toNat_le] using h
  refine ⟨?_, hrange⟩
  rw [UInt8.toNat_ofNat']
  omega

theorem mem_decimal {n : Nat} {b : UInt8} (h : b ∈ decimal n) : 48 ≤ b.toNat ∧ b.toNat ≤ 57 := by
  obtain ⟨c, hc, rfl⟩ := List.mem_map.mp h
  have hdigit := isDigit_of_mem_toDigits (by decide) (by decide) hc
  obtain ⟨heq, hrange⟩ := digit_toNat hdigit
  rw [heq]
  exact hrange

theorem foldl_digits {cs : List Char} (h : ∀ c ∈ cs, c.isDigit = true) (n : Nat) :
    (cs.map fun c => UInt8.ofNat c.toNat).foldl (fun n b => n * 10 + (b.toNat - 0x30)) n =
      ofDigitChars 10 cs n := by
  induction cs generalizing n with
  | nil => rfl
  | cons c cs ih =>
    obtain ⟨heq, -⟩ := digit_toNat (h c List.mem_cons_self)
    rw [List.map_cons, List.foldl_cons, ofDigitChars_cons, heq, Nat.mul_comm]
    exact ih (fun c hc => h c (List.mem_cons_of_mem _ hc)) _

/-- The digits of a `u16` are read as that number. -/
theorem parseU16_decimal {n : Nat} (h : n < 2 ^ 16) : parseU16 (decimal n) = some n := by
  have hdigit : ∀ b ∈ decimal n, isDigit b = true := by
    intro b hb
    obtain ⟨hlow, hhigh⟩ := mem_decimal hb
    simp [isDigit, UInt8.le_iff_toNat_le, hlow, hhigh]
  have hplus : (decimal n).head? ≠ some 0x2b := by
    intro hhead
    obtain ⟨hlow, -⟩ := mem_decimal (List.mem_of_head? hhead)
    exact absurd hlow (by decide)
  have hne : decimal n ≠ [] := by simp [decimal]
  have hvalue : (decimal n).foldl (fun n b => n * 10 + (b.toNat - 0x30)) 0 = n := by
    rw [decimal, foldl_digits fun c hc => isDigit_of_mem_toDigits (by decide) (by decide) hc,
      ofDigitChars_ten_toDigits]
  have hempty : (decimal n).isEmpty = false := by simpa using hne
  have hall : (decimal n).all isDigit = true := List.all_eq_true.mpr hdigit
  unfold parseU16
  rw [if_neg hplus]
  simp only [hempty, hall, Bool.not_true, Bool.or_self, Bool.false_eq_true, if_false, hvalue]
  exact if_pos h

end Decimal

/-! ## The protocol -/

open SfParser

def escape (p : Bytes) : Bytes :=
  ConnectRequest.replaceByte 0x22 [0x5c, 0x22] (ConnectRequest.replaceByte 0x5c [0x5c, 0x5c] p)

theorem escape_slash (p : Bytes) : escape (0x5c :: p) = 0x5c :: 0x5c :: escape p := rfl

theorem escape_quote (p : Bytes) : escape (0x22 :: p) = 0x5c :: 0x22 :: escape p := rfl

theorem escape_other {b : UInt8} (hslash : b ≠ 0x5c) (hquote : b ≠ 0x22) (p : Bytes) :
    escape (b :: p) = b :: escape p := by
  unfold escape ConnectRequest.replaceByte
  rw [List.flatMap_cons, if_neg hslash, List.singleton_append, List.flatMap_cons, if_neg hquote]
  rfl

/-- The replacements are undone, whatever stands in the string, but for the byte that marks a
backslash in between. -/
theorem unescape_escape {p : Bytes} (h : 0x00 ∉ p) : unescape (escape p) = p := by
  induction p with
  | nil => rfl
  | cons b p ih =>
    obtain ⟨hb, hp⟩ : 0x00 ≠ b ∧ 0x00 ∉ p := by simpa using h
    have hrest := ih hp
    unfold unescape at hrest ⊢
    by_cases hslash : b = 0x5c
    · subst hslash
      rw [escape_slash, replacePair_pair, replacePair_other (by decide), List.map_cons, hrest,
        if_pos rfl]
    by_cases hquote : b = 0x22
    · subst hquote
      have hkeep : replacePair 0x5c 0x5c 0x00 (0x5c :: 0x22 :: escape p) =
          0x5c :: 0x22 :: replacePair 0x5c 0x5c 0x00 (escape p) := by
        rw [replacePair_first (by decide), replacePair_other (by decide)]
      rw [escape_quote, hkeep, replacePair_pair, List.map_cons, hrest]
      rfl
    · rw [escape_other hslash hquote, replacePair_other hslash, replacePair_other hslash,
        List.map_cons, hrest, if_neg (Ne.symm hb)]

/-- The scan for parameters passes the whole string. -/
theorem stripLoop_escape (p rest : Bytes) :
    stripLoop true false (escape p ++ 0x22 :: rest) = escape p ++ 0x22 :: stripLoop false false rest := by
  induction p with
  | nil => rfl
  | cons b p ih =>
    by_cases hslash : b = 0x5c
    · subst hslash
      rw [escape_slash]
      simp only [List.cons_append, stripLoop, Bool.false_eq_true, if_false, if_true, decide_true,
        Bool.and_true, ih, show ¬(0x5c : UInt8) = 0x22 by decide]
    by_cases hquote : b = 0x22
    · subst hquote
      rw [escape_quote]
      simp only [List.cons_append, stripLoop, Bool.false_eq_true, if_false, if_true, decide_true,
        Bool.and_true, ih, show ¬(0x5c : UInt8) = 0x22 by decide]
    · rw [escape_other hslash hquote]
      simp only [List.cons_append, stripLoop, Bool.false_eq_true, if_false, hquote, hslash,
        decide_false, Bool.false_and, Bool.not_true, Bool.and_false, ih]

theorem parse_quote {p : Bytes} (h : 0x00 ∉ p) :
    parseSfItemString (ConnectRequest.quote p) = some p := by
  obtain ⟨none, hnone, -, hnil⟩ := @trim_quoted [] (escape p) [] nofun
  rw [List.nil_append, hnil nofun] at hnone
  have hstrip : stripSfParameters (0x22 :: (escape p ++ [0x22])) = 0x22 :: (escape p ++ [0x22]) :=
    congrArg (List.cons 0x22) (stripLoop_escape p [])
  have hinner : (0x22 :: (escape p ++ [0x22]) : Bytes).tail.dropLast = escape p :=
    List.dropLast_concat
  have hlast : (0x22 :: (escape p ++ [0x22]) : Bytes).getLast? = some 0x22 :=
    List.getLast?_concat (l := 0x22 :: escape p)
  show parseSfItemString (0x22 :: (escape p ++ [0x22])) = some p
  unfold parseSfItemString
  simp only [hnone, hstrip, hinner, hlast, List.head?_cons, List.length_cons, List.length_append,
    List.length_nil, unescape_escape h]
  rw [if_pos ⟨trivial, trivial, by omega⟩]

/-- Escapes stand between characters, never inside one. -/
theorem isValidAfter_escape {missing : List (UInt8 × UInt8)} {p : Bytes}
    (hm : Utf8.Continuing missing) (h : Utf8.isValidAfter missing p = true) :
    Utf8.isValidAfter missing (escape p ++ [0x22]) = true := by
  induction p generalizing missing with
  | nil =>
    obtain rfl : missing = [] := List.isEmpty_iff.mp h
    rfl
  | cons b p ih =>
    cases missing with
    | nil =>
      rw [Utf8.isValidAfter] at h
      cases hb : Utf8.follow b with
      | none => rw [hb] at h; cases h
      | some next =>
        rw [hb] at h
        have hrest := ih (Utf8.follow_continuing b next hb).1 h
        by_cases hslash : b = 0x5c
        · subst hslash
          obtain rfl : [] = next := Option.some.inj hb
          exact hrest
        by_cases hquote : b = 0x22
        · subst hquote
          obtain rfl : [] = next := Option.some.inj hb
          exact hrest
        · rw [escape_other hslash hquote, List.cons_append, Utf8.isValidAfter, hb]
          exact hrest
    | cons r missing =>
      obtain ⟨lo, hi⟩ := r
      obtain ⟨hlo, -⟩ := hm (lo, hi) List.mem_cons_self
      simp only [Utf8.isValidAfter, Bool.and_eq_true, decide_eq_true_eq] at h
      obtain ⟨⟨hb, hb'⟩, h⟩ := h
      have hbig : (0x80 : UInt8) ≤ b := UInt8.le_trans hlo hb
      have hslash : b ≠ 0x5c := by rintro rfl; exact absurd hbig (by decide)
      have hquote : b ≠ 0x22 := by rintro rfl; exact absurd hbig (by decide)
      rw [escape_other hslash hquote, List.cons_append, Utf8.isValidAfter, decide_eq_true hb,
        decide_eq_true hb', ih (fun r hr => hm r (List.mem_cons_of_mem _ hr)) h]
      rfl

theorem isValid_quote (t : Text) : Utf8.isValid (ConnectRequest.quote t.bytes) = true := by
  have hstart : Utf8.Continuing [] := nofun
  exact isValidAfter_escape hstart t.isUtf8

/-- A value that a field may have has no zero byte. -/
theorem nul_notMem {p : Bytes} {field : Header}
    (h : Header.new (ofString "wt-protocol") (ConnectRequest.quote p) = .ok field) : 0x00 ∉ p := by
  have hchecked := (HeaderCheck.built_iff _ _).mp ⟨field, h⟩
  rw [HeaderCheck.checkHeader_regular (by with_unfolding_all decide)] at hchecked
  obtain ⟨-, hvalue⟩ := hchecked
  have hcount : (ConnectRequest.quote p).count 0x00 = p.count 0x00 := by
    rw [ConnectRequest.quote, List.count_cons_of_ne (by decide), List.count_append,
      ConnectRequest.count_replaceByte (by decide) (by decide),
      ConnectRequest.count_replaceByte (by decide) (by decide)]
    exact Nat.add_zero _
  intro hmem
  have hin : (0x00 : UInt8) ∈ ConnectRequest.quote p := by
    rw [← List.count_pos_iff, hcount]
    exact List.count_pos_iff.mpr hmem
  have hlast : (ConnectRequest.quote p).getLast? = some 0x22 :=
    List.getLast?_concat (l := 0x22 :: escape p)
  unfold Validation.isValidFieldValue at hvalue
  rw [hlast] at hvalue
  obtain ⟨-, hall⟩ := Bool.and_eq_true_iff.mp hvalue
  exact absurd (List.all_eq_true.mp hall _ hin) (by decide)

/-! ## The fields that were written -/

/-- The fields of a response. -/
def fields (r : ConnectResponse) : List Header :=
  ⟨ofString ":status", decimal r.status.toNat, false⟩ ::
    (r.selectedProtocol.map fun p =>
      (⟨ofString "wt-protocol", ConnectRequest.quote p.bytes, false⟩ : Header)).toList

section Written

variable {r : ConnectResponse} {headers : List Header} (h : r.toHeaders = .ok headers)

include h

theorem written_fields : headers = r.fields ∧ ∀ p ∈ r.selectedProtocol, 0x00 ∉ p.bytes := by
  unfold toHeaders at h
  obtain ⟨status, hstatus, h⟩ := ConnectRequest.bind_inv h
  obtain ⟨protocol, hprotocol, h⟩ := ConnectRequest.bind_inv h
  obtain rfl := Except.ok.inj h
  rw [ConnectRequest.new_ok hstatus]
  unfold fields
  cases hp : r.selectedProtocol with
  | none =>
    rw [hp] at hprotocol
    obtain rfl := Except.ok.inj hprotocol
    exact ⟨rfl, nofun⟩
  | some p =>
    rw [hp, protocolField] at hprotocol
    cases hnew : Header.new (ofString "wt-protocol") (ConnectRequest.quote p.bytes) with
    | error e => rw [hnew] at hprotocol; cases hprotocol
    | ok field =>
      rw [hnew] at hprotocol
      obtain rfl := Except.ok.inj hprotocol
      refine ⟨by rw [ConnectRequest.new_ok hnew]; rfl, ?_⟩
      rintro q hq
      obtain rfl := Option.some.inj hq
      exact nul_notMem hnew

theorem written_status : statusCode headers = some r.status.toNat := by
  rw [(written_fields h).1, fields, statusCode, List.find?_cons_of_pos (by simp)]
  exact parseU16_decimal r.status.toNat_lt

theorem written_success : isSuccessStatus headers = r.isSuccess := by
  have hdiv : (r.status / 100 == 2) = (decide (r.status.toNat / 100 = 2)) := by
    rw [Bool.eq_iff_iff, beq_iff_eq, decide_eq_true_eq, ← UInt16.toNat_inj]
    rfl
  unfold isSuccessStatus isSuccess
  rw [written_status h, hdiv, Option.any_some, Bool.eq_iff_iff]
  simp only [Bool.and_eq_true, decide_eq_true_eq]
  omega

theorem written_selected : Http3.selectedProtocol headers = r.selectedProtocol.map Text.bytes := by
  obtain ⟨rfl, hnul⟩ := written_fields h
  have hstatus : (ofString ":status" = ofString "wt-protocol") = False := by
    with_unfolding_all decide
  unfold Http3.selectedProtocol fields
  rw [List.findSome?_cons]
  simp only [hstatus, decide_false, Bool.false_and, Bool.false_eq_true, if_false]
  cases hp : r.selectedProtocol with
  | none => rfl
  | some p =>
    simp only [Option.map_some, Option.toList_some, List.findSome?_cons, decide_true, Bool.true_and,
      isValid_quote, if_true, parse_quote (hnul p hp)]

end Written

/-- A status with which no capsules may come. -/
def isContentless (r : ConnectResponse) : Bool :=
  r.status == 204 || r.status == 205 || r.status == 206

theorem decimal_eq_iff {n : Nat} {digits : Bytes} {m : Nat} (hn : n < 2 ^ 16)
    (hm : decimal m = digits) (hlt : m < 2 ^ 16) : decimal n = digits ↔ n = m := by
  constructor
  · intro h
    have hparse := parseU16_decimal hn
    rw [h, ← hm, parseU16_decimal hlt] at hparse
    exact (Option.some.inj hparse).symm
  · rintro rfl
    exact hm

/-- The only `:status` is the one that was written. -/
theorem fields_status (r : ConnectResponse) {digits : String} {m : UInt16}
    (hm : decimal m.toNat = ofString digits) :
    hasHeader r.fields ":status" digits = (r.status == m) := by
  have hname : (ofString "wt-protocol" = ofString ":status") = False := by
    with_unfolding_all decide
  have hstatus : decide (decimal r.status.toNat = ofString digits) = (r.status == m) := by
    rw [Bool.eq_iff_iff, decide_eq_true_eq, beq_iff_eq,
      decimal_eq_iff r.status.toNat_lt hm m.toNat_lt, UInt16.toNat_inj]
  unfold hasHeader fields
  rw [List.any_cons]
  cases r.selectedProtocol with
  | none => simpa using hstatus
  | some p => simpa [hname] using hstatus

theorem fields_contentless (r : ConnectResponse) :
    isForbiddenCapsuleStatus r.fields = r.isContentless := by
  unfold isForbiddenCapsuleStatus isContentless
  rw [fields_status r (m := 204) (by with_unfolding_all decide),
    fields_status r (m := 205) (by with_unfolding_all decide),
    fields_status r (m := 206) (by with_unfolding_all decide)]

theorem fields_notForbidden (r : ConnectResponse) : hasForbiddenCapsuleHeaders r.fields = false := by
  have hother : ∀ n ∈ [ofString ":status", ofString "wt-protocol"],
      ¬(n = ofString "content-length" || n = ofString "content-type") = true := by
    with_unfolding_all decide
  unfold hasForbiddenCapsuleHeaders fields
  rw [List.any_eq_false]
  intro h hmem
  refine hother h.name ?_
  cases hp : r.selectedProtocol with
  | none => simp_all
  | some p =>
    rw [hp] at hmem
    obtain rfl | hmem := List.mem_cons.mp hmem
    · simp
    · rw [List.mem_singleton.mp hmem]
      simp

/-- The client's reading of the choice is the check of the response itself. -/
theorem isProtocolValid_eq (r : ConnectResponse) (request : ConnectRequest) :
    Http3.isProtocolValid request.availableProtocols (r.selectedProtocol.map Text.bytes) =
      r.isProtocolValid request := by
  unfold Http3.isProtocolValid isProtocolValid
  cases r.selectedProtocol with
  | none => rfl
  | some p =>
    cases hall : request.availableProtocols with
    | nil => rfl
    | cons q qs => rfl

end ConnectResponse

/-! ## Both ends -/

namespace Connection

open Proc

/-- A session is told of the protocols that the request was written with. -/
theorem offer_written {r : ConnectRequest} {headers : List Header} (h : r.toHeaders = .ok headers)
    (hprint : ∀ p ∈ r.availableProtocols, ConnectRequest.Printable p)
    (hcomma : ∀ p ∈ r.availableProtocols, 0x2c ∉ p)
    (hmost : r.availableProtocols.length ≤ SfParser.MAX_SF_ELEMENTS)
    (hlen : (ConnectRequest.joinProtocols r.availableProtocols).length ≤
      SfParser.MAX_SF_INPUT_LEN) :
    (WtSession.new.offer headers).availableProtocols = r.availableProtocols := by
  have hnames : ∀ n ∈ [":method", ":protocol", ":scheme", ":authority", ":path", "origin"],
      ofString n ≠ ofString "wt-available-protocols" := by with_unfolding_all decide
  simp only [List.forall_mem_cons] at hnames
  have hvalues : offeredValues headers =
      if r.availableProtocols.isEmpty then []
      else [ConnectRequest.joinProtocols r.availableProtocols] := by
    unfold offeredValues
    rw [ConnectRequest.pairs_toHeaders h]
    unfold ConnectRequest.fieldPairs ConnectRequest.offers
    cases r.origin with
    | none => split <;> simp [hnames]
    | some origin => split <;> simp [hnames]
  by_cases hempty : r.availableProtocols = []
  · rw [offer_availableProtocols _ (by rw [hvalues, hempty]; exact nofun), hvalues, hempty]
    rfl
  · have hisEmpty : r.availableProtocols.isEmpty = false := by simpa using hempty
    rw [hisEmpty] at hvalues
    have hvalid : Utf8.isValid (ConnectRequest.joinProtocols r.availableProtocols) = true :=
      (ConnectRequest.protocolsText r.availableProtocols hprint).isUtf8
    rw [offer_availableProtocols _ (by rw [hvalues]; simpa using hvalid), hvalues]
    exact (ConnectRequest.parse_join_iff hempty hprint hmost hlen).mpr hcomma

/-- Did this outcome establish the session? -/
def Establishes (sessionId : Nat) (o : Outcome Error Obs WtState Bool) : Prop :=
  ∃ flowControl, Obs.wt (.sessionEstablished sessionId flowControl) ∈ o.out

/-- The end of a session is no beginning. -/
theorem terminate_silent (env : Env) (sessionId code closeCode : Nat) (message : Bytes)
    (w : WtState) (flowControl : Bool) :
    Obs.wt (.sessionEstablished sessionId flowControl) ∉
      (terminateWtSessionWith env sessionId code closeCode message w).out := by
  unfold terminateWtSessionWith
  simp only [Proc.get_bind]
  cases w.wtSessions.lookup sessionId with
  | none => exact List.not_mem_nil
  | some session =>
    dsimp only
    by_cases hclosed : session.state = .closed
    · rw [if_pos hclosed]
      exact List.not_mem_nil
    · rw [if_neg hclosed]
      cases (env.order.walk (.associatedStreams sessionId) session.associatedStreams).mapM
          (resetOf w) with
      | error e => exact List.not_mem_nil
      | ok resets =>
        show _ ∉ [Obs.wt (.sessionClosed sessionId _ code closeCode message),
          .sessionEnded sessionId session.bufferedStreams]
        simp

theorem establish_establishes (env : Env) (peer : Option Settings) (streamId : Nat)
    (session : WtSession) (w : WtState) :
    Obs.wt (.sessionEstablished streamId (isWtFlowControlEnabled env peer)) ∈
      (establish env peer streamId session w).out := by
  unfold establish
  rw [modify_bind, emit_bind]
  exact List.mem_cons_self

section Answer

variable {r : ConnectRequest} {res : ConnectResponse} {headers : List Header}
  {session : WtSession} {w : WtState} {streamId : Nat}

/-- The server lets a response out that is no success, or one that capsules may follow and whose
protocol fits the request. -/
theorem server_sends_iff (hwritten : res.toHeaders = .ok headers)
    (hlookup : w.wtSessions.lookup streamId = some session)
    (hoffer : session.availableProtocols = r.availableProtocols) :
    validateWtResponseProtocol w streamId headers = .ok () ↔
      (res.isSuccess = true → res.isContentless = false ∧ res.isProtocolValid r = true) := by
  have hfields := (ConnectResponse.written_fields hwritten).1
  unfold validateWtResponseProtocol
  rw [ConnectResponse.written_success hwritten]
  cases hsuccess : res.isSuccess with
  | false => simp
  | true =>
    simp only [hlookup, Bool.not_true, Bool.false_eq_true, if_false, ensure_bind, ensure_eq_ok,
      ConnectResponse.written_selected hwritten, hoffer, ConnectResponse.isProtocolValid_eq,
      forall_const]
    rw [hfields, ConnectResponse.fields_notForbidden, ConnectResponse.fields_contentless]
    simp

/-- The client establishes a pending session exactly on such a success. -/
theorem client_establishes_iff {env : Env} (hrole : env.role = .client) (peer : Option Settings)
    (hwritten : res.toHeaders = .ok headers)
    (hlookup : w.wtSessions.lookup streamId = some session) (hpending : session.state = .pending)
    (hoffer : session.availableProtocols = r.availableProtocols) :
    Establishes streamId (handleWtConnectResponse env peer streamId headers w) ↔
      res.isSuccess = true ∧ res.isContentless = false ∧ res.isProtocolValid r = true := by
  have hfields := (ConnectResponse.written_fields hwritten).1
  have hvalid : Http3.isProtocolValid session.availableProtocols (selectedProtocol headers) =
      res.isProtocolValid r := by
    rw [ConnectResponse.written_selected hwritten, hoffer, ConnectResponse.isProtocolValid_eq]
  unfold handleWtConnectResponse
  simp only [Proc.get_bind, ConnectResponse.written_success hwritten, hlookup, hvalid, hpending]
  rw [hfields, ConnectResponse.fields_notForbidden, ConnectResponse.fields_contentless]
  cases hsuccess : res.isSuccess with
  | false =>
    simp only [hrole, ne_eq, not_true_eq_false, decide_false, Bool.not_false, Bool.or_true, if_true]
    exact iff_of_false (fun ⟨_, hmem⟩ => nomatch hmem) nofun
  | true =>
    cases hcontent : res.isContentless with
    | true =>
      simp only [hrole, ne_eq, not_true_eq_false, decide_false, Bool.not_true, Bool.or_self,
        Bool.false_eq_true, if_false, if_true]
      exact iff_of_false (fun ⟨_, hmem⟩ => nomatch hmem) nofun
    | false =>
      simp only [hrole, ne_eq, not_true_eq_false, decide_false, Bool.not_true, Bool.or_self,
        Bool.false_eq_true, if_false]
      cases hproto : res.isProtocolValid r with
      | false =>
        refine iff_of_false ?_ fun h => nomatch h.2.2
        rintro ⟨flowControl, hmem⟩
        rw [Bool.not_false, if_pos rfl, bind_ret_out] at hmem
        exact terminate_silent env streamId WtErrorCode.alpnError.code 0 [] w flowControl hmem
      | true =>
        refine iff_of_true ⟨isWtFlowControlEnabled env peer, ?_⟩ ⟨trivial, trivial, rfl⟩
        rw [Bool.not_true, if_neg Bool.false_ne_true, bind_ret_out]
        exact establish_establishes env peer streamId session w

end Answer

/-- A request that offers `a;` and `"\`, and a response that chooses the second. -/
def offeringTwo : ConnectRequest := ConnectRequest.offering [[0x61, 0x3b], [0x22, 0x5c]]

def choosing : ConnectResponse :=
  (ConnectResponse.new 200).withProtocol ⟨[0x22, 0x5c], by decide⟩

def offeringState : WtState :=
  putSession 0 (WtSession.new.offer (ConnectRequest.written offeringTwo)) verifiedState

theorem offeringState_lookup : offeringState.wtSessions.lookup 0 =
    some (WtSession.new.offer (ConnectRequest.written offeringTwo)) := by
  unfold offeringState putSession
  simp

end Connection

end Http3
