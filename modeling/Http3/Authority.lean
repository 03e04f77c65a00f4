import Http3.Lib.Cut
import Http3.Validation

/-!
# The grammar of an authority

What `is_valid_authority` and `is_valid_connect_authority` cite: a host, and behind it a colon and
the digits of a port. The recognisers cut at the first closing bracket or at the last colon. They
leave the grammar in two places only: a name with a colon and no port is refused, and the version
and the address of an `IPvFuture` literal are not told apart.
-/

namespace Http3.Validation

open Bytes

/-! ## The grammar -/

def isUnreserved (b : UInt8) : Bool := isAlnum b || (ofString "-._~").contains b

def isSubDelim (b : UInt8) : Bool := (ofString "!$&'()*+,;=").contains b

/-- `reg-name = *( unreserved / pct-encoded / sub-delims )` -/
inductive RegName : Bytes → Prop
  | nil : RegName []
  | char {b : UInt8} {rest : Bytes} :
      (isUnreserved b || isSubDelim b) = true → RegName rest → RegName (b :: rest)
  | pctEncoded {h₁ h₂ : UInt8} {rest : Bytes} :
      isHexDigit h₁ = true → isHexDigit h₂ = true → RegName rest →
      RegName (0x25 :: h₁ :: h₂ :: rest)

/-- The characters of an IPv6 address; how many groups there are is left open. -/
def Ipv6Chars (content : Bytes) : Prop :=
  content ≠ [] ∧ ∀ b ∈ content, (isHexDigit b || b == 0x3a || b == 0x2e) = true

def isFutureChar (b : UInt8) : Bool := isUnreserved b || isSubDelim b || b == 0x3a

/-- `IPvFuture = "v" 1*HEXDIG "." 1*( unreserved / sub-delims / ":" )` -/
def IpvFuture (content : Bytes) : Prop :=
  ∃ version address, content = 0x76 :: (version ++ 0x2e :: address) ∧
    version ≠ [] ∧ (∀ b ∈ version, isHexDigit b = true) ∧
    address ≠ [] ∧ ∀ b ∈ address, isFutureChar b = true

def IpLiteral (content : Bytes) : Prop := Ipv6Chars content ∨ IpvFuture content

inductive Host : Bytes → Prop
  | regName {host : Bytes} : RegName host → host ≠ [] → Host host
  | literal {content : Bytes} : IpLiteral content → Host (0x5b :: (content ++ [0x5d]))

/-- `*DIGIT` -/
def IsPort (port : Bytes) : Prop := ∀ b ∈ port, isDigit b = true

/-- `[ ":" *DIGIT ]` -/
def OptionalPort (behind : Bytes) : Prop :=
  behind = [] ∨ ∃ port, behind = 0x3a :: port ∧ IsPort port

/-- `":" 1*DIGIT` -/
def RequiredPort (behind : Bytes) : Prop := ∃ port, behind = 0x3a :: port ∧ IsPort port ∧ port ≠ []

def HostThen (Behind : Bytes → Prop) (value : Bytes) : Prop :=
  ∃ host behind, value = host ++ behind ∧ Host host ∧ Behind behind

def Authority (value : Bytes) : Prop := HostThen OptionalPort value

def ConnectAuthority (value : Bytes) : Prop := HostThen RequiredPort value

/-! ## What the recognisers read otherwise -/

/-- An `IPvFuture` literal with a letter in its address that is no hexadecimal digit. -/
def Lettered (content : Bytes) : Prop :=
  IpvFuture content ∧ ∃ b ∈ content.tail, isAlpha b = true ∧ isHexDigit b = false

/-- Bytes that fit behind the `v`, one of them a dot, with no version before the first dot or
nothing behind it. -/
def Shapeless (content : Bytes) : Prop :=
  ∃ version address, content = 0x76 :: (version ++ 0x2e :: address) ∧ 0x2e ∉ version ∧
    2 ≤ version.length + address.length ∧
    (∀ b ∈ version ++ address,
      isFutureChar b = true ∧ ¬ (isAlpha b = true ∧ isHexDigit b = false)) ∧
    (version = [] ∨ address = [] ∨ ∃ b ∈ version, isHexDigit b = false)

def Misread (content : Bytes) : Prop := Lettered content ∨ Shapeless content

def MisreadThen (Behind : Bytes → Prop) (value : Bytes) : Prop :=
  ∃ content behind, value = 0x5b :: (content ++ 0x5d :: behind) ∧ Misread content ∧ Behind behind

/-- A name, a colon, and no port. -/
def EmptyPort (value : Bytes) : Prop :=
  ∃ host, value = host ++ [0x3a] ∧ RegName host ∧ host ≠ []

/-! ## Names and literals -/

theorem isRegNameChar_iff : ∀ b : UInt8, b ≠ 0x25 →
    isRegNameChar b = (isUnreserved b || isSubDelim b) :=
  Bytes.forall_byte (by decide +kernel)

theorem isValidRegName_iff (host : Bytes) : isValidRegName host = true ↔ RegName host := by
  unfold isValidRegName
  constructor
  · intro h
    -- an escape takes three bytes at once
    induction hn : host.length using Nat.strong_induction_on generalizing host with
    | _ n ih =>
      cases host with
      | nil => exact .nil
      | cons b rest =>
        rw [isPctString.eq_def] at h
        by_cases hb : b = 0x25
        · subst hb
          rcases rest with _ | ⟨h₁, _ | ⟨h₂, tail⟩⟩
          · cases h
          · cases h
          · simp only [beq_self_eq_true, if_true, Bool.and_eq_true] at h
            have hshort : tail.length < n := by
              simp only [List.length_cons] at hn
              omega
            exact .pctEncoded h.1.1 h.1.2 (ih tail.length hshort tail h.2 rfl)
        · have hne : (b == 0x25) = false := beq_eq_false_iff_ne.mpr hb
          simp only [hne, Bool.false_eq_true, if_false, Bool.and_eq_true, isRegNameChar_iff b hb] at h
          exact .char h.1 (ih rest.length (by simp only [List.length_cons] at hn; omega) rest h.2 rfl)
  · intro h
    induction h with
    | nil => rfl
    | @char b rest hb hrest ih =>
      have hne : b ≠ 0x25 := by
        rintro rfl
        exact absurd hb (by with_unfolding_all decide)
      have hb' : (b == 0x25) = false := beq_eq_false_iff_ne.mpr hne
      rw [isPctString.eq_def]
      simp only [hb', isRegNameChar_iff b hne, hb, ih, Bool.false_eq_true, if_false, Bool.and_true]
    | pctEncoded h₁ h₂ hrest ih =>
      rw [isPctString.eq_def]
      simp only [beq_self_eq_true, if_true, h₁, h₂, ih, Bool.and_true]

theorem regName_notMem {host : Bytes} (h : RegName host) {b : UInt8}
    (hb : (isUnreserved b || isSubDelim b || b == 0x25 || isHexDigit b) = false) : b ∉ host := by
  simp only [Bool.or_eq_false_iff, beq_eq_false_iff_ne] at hb
  obtain ⟨⟨hchar, hpct⟩, hhex⟩ := hb
  induction h with
  | nil => exact List.not_mem_nil
  | @char c rest hc hrest ih =>
    rintro (_ | ⟨_, hmem⟩)
    · rw [Bool.or_eq_true] at hc
      obtain hc | hc := hc
      · exact absurd hc (by rw [hchar.1]; decide)
      · exact absurd hc (by rw [hchar.2]; decide)
    · exact ih hmem
  | @pctEncoded h₁ h₂ rest hh₁ hh₂ hrest ih =>
    rintro (_ | ⟨_, _ | ⟨_, _ | ⟨_, hmem⟩⟩⟩)
    · exact hpct rfl
    · exact absurd hh₁ (by rw [hhex]; decide)
    · exact absurd hh₂ (by rw [hhex]; decide)
    · exact ih hmem

theorem colon_notMem {host : Bytes} (h : RegName host) : 0x3a ∉ host :=
  regName_notMem h (by with_unfolding_all decide)

theorem bracket_notMem {host : Bytes} (h : RegName host) : 0x5b ∉ host :=
  regName_notMem h (by with_unfolding_all decide)

theorem ipLiteral_notMem {content : Bytes} (h : IpLiteral content) : 0x5d ∉ content := by
  intro hmem
  obtain ⟨-, h⟩ | ⟨version, address, rfl, -, hv, -, ha⟩ := h
  · exact absurd (h _ hmem) (by decide)
  · simp only [List.mem_cons, List.mem_append] at hmem
    obtain hmem | hmem | hmem | hmem := hmem
    · exact absurd hmem (by decide)
    · exact absurd (hv _ hmem) (by decide)
    · exact absurd hmem (by decide)
    · exact absurd (ha _ hmem) (by with_unfolding_all decide)

/-- The bytes that the code lets follow the `v` of a literal. -/
theorem looseByte_iff : ∀ b : UInt8,
    (isHexDigit b || (ofString ".:-_~!$&'()*+,;=").contains b) = true ↔
      isFutureChar b = true ∧ ¬ (isAlpha b = true ∧ isHexDigit b = false) :=
  Bytes.forall_byte (by decide +kernel)

theorem isFutureChar_of_hexDigit : ∀ b : UInt8, isHexDigit b = true →
    isFutureChar b = true ∧ ¬ (isAlpha b = true ∧ isHexDigit b = false) :=
  Bytes.forall_byte (by decide +kernel)

section Future

variable {version address : Bytes} (hdot : 0x2e ∉ version)

theorem isValidIpLiteralContent_future :
    isValidIpLiteralContent (0x76 :: (version ++ 0x2e :: address)) = true ↔
      2 ≤ version.length + address.length ∧
        ∀ b ∈ version ++ address, isFutureChar b = true ∧
          ¬ (isAlpha b = true ∧ isHexDigit b = false) := by
  have hloose : ∀ b : UInt8, b = 0x2e → isFutureChar b = true ∧
      ¬ (isAlpha b = true ∧ isHexDigit b = false) := by
    rintro b rfl
    with_unfolding_all decide
  simp only [isValidIpLiteralContent, beq_self_eq_true, if_true, Bool.and_eq_true,
    decide_eq_true_eq, List.all_eq_true, looseByte_iff, List.contains_iff_mem, List.length_cons,
    List.length_append, List.mem_append, List.mem_cons]
  constructor
  · rintro ⟨⟨hlen, -⟩, hall⟩
    exact ⟨by omega, fun b hb => hall b (hb.imp_right .inr)⟩
  · rintro ⟨hlen, hall⟩
    refine ⟨⟨by omega, .inr (.inl trivial)⟩, fun b hb => ?_⟩
    obtain hb | rfl | hb := hb
    · exact hall b (.inl hb)
    · exact hloose _ rfl
    · exact hall b (.inr hb)

include hdot

theorem ipvFuture_iff : IpvFuture (0x76 :: (version ++ 0x2e :: address)) ↔
    version ≠ [] ∧ (∀ b ∈ version, isHexDigit b = true) ∧
      address ≠ [] ∧ ∀ b ∈ address, isFutureChar b = true := by
  constructor
  · rintro ⟨v, a, h, hv, hhex, ha, hchars⟩
    have hdot' : 0x2e ∉ v := fun hmem => absurd (hhex _ hmem) (by decide)
    obtain ⟨rfl, rfl⟩ := Cut.first_unique hdot hdot' (List.cons.inj h).2
    exact ⟨hv, hhex, ha, hchars⟩
  · intro h
    exact ⟨version, address, rfl, h⟩

theorem shapeless_iff : Shapeless (0x76 :: (version ++ 0x2e :: address)) ↔
    2 ≤ version.length + address.length ∧
    (∀ b ∈ version ++ address,
      isFutureChar b = true ∧ ¬ (isAlpha b = true ∧ isHexDigit b = false)) ∧
    (version = [] ∨ address = [] ∨ ∃ b ∈ version, isHexDigit b = false) := by
  constructor
  · rintro ⟨v, a, h, hdot', hv⟩
    obtain ⟨rfl, rfl⟩ := Cut.first_unique hdot hdot' (List.cons.inj h).2
    exact hv
  · intro h
    exact ⟨version, address, rfl, hdot, h⟩

/-- A literal with a dot is read as the grammar says, unless it is one of the two kinds. -/
theorem misread_future : (isValidIpLiteralContent (0x76 :: (version ++ 0x2e :: address)) = true ↔
      IpvFuture (0x76 :: (version ++ 0x2e :: address))) ↔
    ¬ Misread (0x76 :: (version ++ 0x2e :: address)) := by
  rw [Misread, Lettered, shapeless_iff hdot, isValidIpLiteralContent_future,
    ipvFuture_iff hdot]
  constructor
  · rintro hiff (⟨hgrammar, b, hb, hletter⟩ | ⟨hlen, hall, hshape⟩)
    · obtain ⟨-, hall⟩ := hiff.mpr hgrammar
      rw [List.tail_cons, List.mem_append, List.mem_cons] at hb
      obtain hb | rfl | hb := hb
      · exact (hall b (List.mem_append_left _ hb)).2 hletter
      · exact absurd hletter.1 (by decide)
      · exact (hall b (List.mem_append_right _ hb)).2 hletter
    · obtain ⟨hv, hhex, ha, -⟩ := hiff.mp ⟨hlen, hall⟩
      obtain h | h | ⟨b, hb, h⟩ := hshape
      · exact hv h
      · exact ha h
      · exact absurd (hhex b hb) (by rw [h]; exact nofun)
  · intro hread
    constructor
    · rintro ⟨hlen, hall⟩
      have hshape : ¬ (version = [] ∨ address = [] ∨ ∃ b ∈ version, isHexDigit b = false) :=
        fun hs => hread (.inr ⟨hlen, hall, hs⟩)
      simp only [not_or, not_exists, not_and, Bool.not_eq_false] at hshape
      exact ⟨hshape.1, hshape.2.2, hshape.2.1, fun b hb => (hall b (List.mem_append_right _ hb)).1⟩
    · intro hgrammar
      obtain ⟨hv, hhex, ha, hchars⟩ := hgrammar
      have hv' := List.length_pos_of_ne_nil hv
      have ha' := List.length_pos_of_ne_nil ha
      refine ⟨by omega, fun b hb => ?_⟩
      obtain hb | hb := List.mem_append.mp hb
      · exact isFutureChar_of_hexDigit b (hhex b hb)
      · refine ⟨hchars b hb, fun hletter => hread (.inl ⟨⟨hv, hhex, ha, hchars⟩, b, ?_, hletter⟩)⟩
        exact List.mem_append_right _ (List.mem_cons_of_mem _ hb)

end Future

theorem misread_head {first : UInt8} {rest : Bytes} (h : Misread (first :: rest)) :
    first = 0x76 ∧ ∃ version address, rest = version ++ 0x2e :: address := by
  obtain ⟨⟨version, address, h, -⟩, -⟩ | ⟨version, address, h, -⟩ := h
  · exact ⟨(List.cons.inj h).1, version, address, (List.cons.inj h).2⟩
  · exact ⟨(List.cons.inj h).1, version, address, (List.cons.inj h).2⟩

theorem misread_iff (content : Bytes) :
    (isValidIpLiteralContent content = true ↔ IpLiteral content) ↔ ¬ Misread content := by
  cases content with
  | nil =>
    refine iff_of_true (iff_of_false nofun ?_) ?_
    · rintro (⟨h, -⟩ | ⟨version, address, h, -⟩)
      · exact h rfl
      · cases h
    · rintro (⟨⟨version, address, h, -⟩, -⟩ | ⟨version, address, h, -⟩)
      · cases h
      · cases h
  | cons first rest =>
    by_cases hfirst : first = 0x76
    · subst hfirst
      have hsix : ¬ Ipv6Chars (0x76 :: rest) := fun h =>
        absurd (h.2 0x76 List.mem_cons_self) (by decide)
      rw [IpLiteral, or_iff_right hsix]
      obtain hdot | ⟨version, address, rfl, hdot⟩ := Cut.first_cases 0x2e rest
      · refine iff_of_true (iff_of_false ?_ ?_) ?_
        · simp only [isValidIpLiteralContent, beq_self_eq_true, if_true, Bool.and_eq_true,
            List.contains_iff_mem]
          exact fun h => hdot h.1.2
        · rintro ⟨version, address, h, -⟩
          rw [(List.cons.inj h).2] at hdot
          exact hdot (List.mem_append_right _ List.mem_cons_self)
        · intro h
          obtain ⟨-, version, address, rfl⟩ := misread_head h
          exact hdot (List.mem_append_right _ List.mem_cons_self)
      · exact misread_future hdot
    · have hfuture : ¬ IpvFuture (first :: rest) := by
        rintro ⟨version, address, h, -⟩
        exact hfirst (List.cons.inj h).1
      refine iff_of_true ?_ fun h => hfirst (misread_head h).1
      have hbeq : (first == 0x76) = false := beq_eq_false_iff_ne.mpr hfirst
      rw [IpLiteral, or_iff_left hfuture, Ipv6Chars]
      simp only [isValidIpLiteralContent, hbeq, Bool.false_eq_true, if_false, List.all_eq_true,
        ne_eq, reduceCtorEq, not_false_eq_true, true_and]

theorem misread_notMem {content : Bytes} (h : Misread content) : 0x5d ∉ content := by
  obtain ⟨h, -⟩ | ⟨version, address, rfl, -, -, hall, -⟩ := h
  · exact ipLiteral_notMem (.inr h)
  · intro hmem
    simp only [List.mem_cons, List.mem_append] at hmem hall
    obtain hmem | hmem | hmem | hmem := hmem
    · exact absurd hmem (by decide)
    · exact absurd (hall _ (.inl hmem)).1 (by with_unfolding_all decide)
    · exact absurd hmem (by decide)
    · exact absurd (hall _ (.inr hmem)).1 (by with_unfolding_all decide)

/-! ## Values in brackets -/

section Bracket

variable {content behind : Bytes} (hcontent : 0x5d ∉ content) (Behind : Bytes → Prop)

theorem regName_not_bracket {host rest : Bytes} (h : RegName host) (hne : host ≠ [])
    (he : (0x5b :: rest : Bytes) = host ++ behind) : False := by
  cases host with
  | nil => exact hne rfl
  | cons b host =>
    obtain rfl := (List.cons.inj he).1
    exact bracket_notMem h List.mem_cons_self

theorem hostThen_noBracket {rest : Bytes} (h : 0x5d ∉ rest) : ¬ HostThen Behind (0x5b :: rest) := by
  rintro ⟨host, behind, he, hhost, -⟩
  cases hhost with
  | regName hname hne => exact regName_not_bracket hname hne he
  | literal hlit =>
    rw [(List.cons.inj he).2] at h
    simp at h

theorem take_bracket :
    ((0x5b :: (content ++ 0x5d :: behind)).take (content.length + 1)).drop 1 = content := by
  rw [List.take_succ_cons, List.drop_one, List.tail_cons, List.take_left]

theorem drop_bracket :
    (0x5b :: (content ++ 0x5d :: behind)).drop (content.length + 1 + 1) = behind := by
  rw [List.drop_succ_cons, List.drop_length_add_append]
  rfl

include hcontent

theorem hostThen_bracket :
    HostThen Behind (0x5b :: (content ++ 0x5d :: behind)) ↔ IpLiteral content ∧ Behind behind := by
  constructor
  · rintro ⟨host, tail, he, hhost, htail⟩
    cases hhost with
    | regName hname hne => exact (regName_not_bracket hname hne he).elim
    | @literal inner hlit =>
      rw [List.cons_append, List.append_assoc, List.singleton_append] at he
      obtain ⟨rfl, rfl⟩ :=
        Cut.first_unique hcontent (ipLiteral_notMem hlit) (List.cons.inj he).2
      exact ⟨hlit, htail⟩
  · rintro ⟨hlit, hbehind⟩
    refine ⟨0x5b :: (content ++ [0x5d]), behind, ?_, .literal hlit, hbehind⟩
    rw [List.cons_append, List.append_assoc, List.singleton_append]

theorem misreadThen_bracket :
    MisreadThen Behind (0x5b :: (content ++ 0x5d :: behind)) ↔ Misread content ∧ Behind behind := by
  constructor
  · rintro ⟨inner, tail, he, hmis, htail⟩
    obtain ⟨rfl, rfl⟩ := Cut.first_unique hcontent (misread_notMem hmis) (List.cons.inj he).2
    exact ⟨hmis, htail⟩
  · rintro ⟨hmis, hbehind⟩
    exact ⟨content, behind, rfl, hmis, hbehind⟩

theorem findIdx?_bracket :
    (0x5b :: (content ++ 0x5d :: behind)).findIdx? (· == (0x5d : UInt8)) =
      some (content.length + 1) :=
  have hbefore : (0x5d : UInt8) ∉ 0x5b :: content := fun h =>
    (List.mem_cons.mp h).elim (absurd · (by decide)) hcontent
  Cut.findIdx?_cut hbefore

end Bracket

/-! ## Names -/

section Name

variable {host port : Bytes}

theorem rposition_cut (hport : 0x3a ∉ port) :
    rposition 0x3a (host ++ 0x3a :: port) = some host.length := by
  have hcut : (host ++ 0x3a :: port).reverse = port.reverse ++ 0x3a :: host.reverse := by
    simp only [List.reverse_append, List.reverse_cons, List.append_assoc, List.singleton_append]
  have hlen : (host ++ 0x3a :: port).length = host.length + port.length + 1 := by
    rw [List.length_append, List.length_cons, Nat.add_assoc]
  rw [rposition, hcut, Cut.findIdx?_cut (fun h => hport (List.mem_reverse.mp h)), Option.map_some,
    hlen, List.length_reverse, Nat.add_sub_cancel, Nat.add_sub_cancel]

theorem rposition_none {value : Bytes} (h : 0x3a ∉ value) : rposition 0x3a value = none := by
  rw [rposition, Cut.findIdx?_of_notMem (fun hmem => h (List.mem_reverse.mp hmem)), Option.map_none]

theorem isPort_notMem (h : IsPort port) : 0x3a ∉ port := fun hmem =>
  absurd (h _ hmem) (by decide)

/-- What may stand behind a host: nothing, or a colon and digits. -/
def IsTail (Behind : Bytes → Prop) : Prop :=
  ∀ behind, Behind behind → behind = [] ∨ ∃ port, behind = 0x3a :: port ∧ IsPort port

theorem optionalPort_isTail : IsTail OptionalPort := fun _ h => h

theorem requiredPort_isTail : IsTail RequiredPort := by
  rintro behind ⟨port, h, hdigits, -⟩
  exact .inr ⟨port, h, hdigits⟩

variable {Behind : Bytes → Prop} (hB : IsTail Behind)

include hB

theorem hostThen_cut (hport : 0x3a ∉ port) (hhead : (host ++ 0x3a :: port).head? ≠ some 0x5b) :
    HostThen Behind (host ++ 0x3a :: port) ↔ RegName host ∧ host ≠ [] ∧ Behind (0x3a :: port) := by
  constructor
  · rintro ⟨name, behind, he, hname, hbehind⟩
    cases hname with
    | literal hlit =>
      rw [he] at hhead
      exact absurd rfl hhead
    | regName hname hne =>
      obtain rfl | ⟨digits, rfl, hdigits⟩ := hB behind hbehind
      · rw [List.append_nil] at he
        refine absurd (colon_notMem hname) (not_not_intro ?_)
        rw [← he]
        exact List.mem_append_right _ List.mem_cons_self
      · obtain ⟨rfl, rfl⟩ := Cut.last_unique hport (isPort_notMem hdigits) he
        exact ⟨hname, hne, hbehind⟩
  · rintro ⟨hname, hne, hbehind⟩
    exact ⟨host, _, rfl, .regName hname hne, hbehind⟩

theorem hostThen_noColon {value : Bytes} (hcolon : 0x3a ∉ value) (hhead : value.head? ≠ some 0x5b) :
    HostThen Behind value ↔ RegName value ∧ value ≠ [] ∧ Behind [] := by
  constructor
  · rintro ⟨name, behind, rfl, hname, hbehind⟩
    cases hname with
    | literal hlit => exact absurd rfl hhead
    | regName hname hne =>
      obtain rfl | ⟨digits, rfl, hdigits⟩ := hB behind hbehind
      · rw [List.append_nil]
        exact ⟨hname, hne, hbehind⟩
      · exact absurd (List.mem_append_right _ List.mem_cons_self) hcolon
  · rintro ⟨hname, hne, hbehind⟩
    exact ⟨value, [], (List.append_nil value).symm, .regName hname hne, hbehind⟩

end Name

theorem not_misreadThen {Behind : Bytes → Prop} {value : Bytes}
    (hhead : value.head? ≠ some 0x5b) : ¬ MisreadThen Behind value := by
  rintro ⟨content, behind, rfl, -⟩
  exact hhead rfl

theorem not_emptyPort {rest : Bytes} : ¬ EmptyPort (0x5b :: rest) := by
  rintro ⟨host, he, hhost, hne⟩
  exact regName_not_bracket hhost hne he

/-! ## The recognisers -/

/-- The three shapes of a value: in brackets, with a colon, neither. -/
theorem value_cases (value : Bytes) :
    (∃ rest, value = 0x5b :: rest ∧ 0x5d ∉ rest) ∨
    (∃ content behind, value = 0x5b :: (content ++ 0x5d :: behind) ∧ 0x5d ∉ content) ∨
    (value.head? ≠ some 0x5b ∧
      (0x3a ∉ value ∨ ∃ host port, value = host ++ 0x3a :: port ∧ 0x3a ∉ port)) := by
  by_cases hhead : value.head? = some 0x5b
  · obtain ⟨rest, rfl⟩ := List.head?_eq_some_iff.mp hhead
    obtain h | ⟨content, behind, rfl, h⟩ := Cut.first_cases 0x5d rest
    · exact .inl ⟨rest, rfl, h⟩
    · exact .inr (.inl ⟨content, behind, rfl, h⟩)
  · exact .inr (.inr ⟨hhead, Cut.last_cases 0x3a value⟩)

theorem isPort_iff (port : Bytes) : port.all isDigit = true ↔ IsPort port := List.all_eq_true

theorem ne_bracket {first : UInt8} {rest : Bytes} (h : (first :: rest).head? ≠ some 0x5b) :
    (first == 0x5b) = false :=
  beq_eq_false_iff_ne.mpr fun he => h (congrArg some he)

theorem isValidAuthority_noBracket {rest : Bytes} (h : 0x5d ∉ rest) :
    isValidAuthority (0x5b :: rest) = false := by
  have hnone : (0x5b :: rest).findIdx? (· == (0x5d : UInt8)) = none :=
    Cut.findIdx?_of_notMem fun hmem => (List.mem_cons.mp hmem).elim (absurd · (by decide)) h
  simp only [isValidAuthority, beq_self_eq_true, if_true, hnone]

theorem isValidConnectAuthority_noBracket {rest : Bytes} (h : 0x5d ∉ rest) :
    isValidConnectAuthority (0x5b :: rest) = false := by
  have hnone : (0x5b :: rest).findIdx? (· == (0x5d : UInt8)) = none :=
    Cut.findIdx?_of_notMem fun hmem => (List.mem_cons.mp hmem).elim (absurd · (by decide)) h
  simp only [isValidConnectAuthority, beq_self_eq_true, if_true, hnone]

theorem isValidAuthority_bracket {content behind : Bytes} (h : 0x5d ∉ content) :
    isValidAuthority (0x5b :: (content ++ 0x5d :: behind)) = true ↔
      isValidIpLiteralContent content = true ∧ OptionalPort behind := by
  simp only [isValidAuthority, beq_self_eq_true, if_true, findIdx?_bracket h, take_bracket,
    drop_bracket]
  cases isValidIpLiteralContent content with
  | false => simp
  | true =>
    cases behind with
    | nil => simp [OptionalPort]
    | cons colon port => simp [OptionalPort, IsPort]

theorem isValidConnectAuthority_bracket {content behind : Bytes} (h : 0x5d ∉ content) :
    isValidConnectAuthority (0x5b :: (content ++ 0x5d :: behind)) = true ↔
      isValidIpLiteralContent content = true ∧ RequiredPort behind := by
  simp only [isValidConnectAuthority, beq_self_eq_true, if_true, findIdx?_bracket h, take_bracket,
    drop_bracket]
  cases behind with
  | nil => simp [RequiredPort]
  | cons colon port =>
    simp only [RequiredPort, List.cons.injEq, Bool.and_eq_true, beq_iff_eq, Bool.not_eq_true',
      List.isEmpty_eq_false_iff, isPort_iff]
    constructor
    · rintro ⟨⟨⟨rfl, hlit⟩, hne⟩, hport⟩
      exact ⟨hlit, port, ⟨rfl, rfl⟩, hport, hne⟩
    · rintro ⟨hlit, _, ⟨rfl, rfl⟩, hport, hne⟩
      exact ⟨⟨⟨rfl, hlit⟩, hne⟩, hport⟩

section

variable {host port : Bytes} (hport : 0x3a ∉ port)
  (hhead : (host ++ 0x3a :: port).head? ≠ some 0x5b)

include hport hhead

theorem isValidAuthority_cut :
    isValidAuthority (host ++ 0x3a :: port) = true ↔
      RegName host ∧ host ≠ [] ∧ RequiredPort (0x3a :: port) := by
  have hname : ¬ isValidRegName (host ++ 0x3a :: port) = true := fun h =>
    colon_notMem ((isValidRegName_iff _).mp h) (List.mem_append_right _ List.mem_cons_self)
  have hpos := @rposition_cut host port hport
  have htake : (host ++ 0x3a :: port).take host.length = host := List.take_left
  have hdrop : (host ++ 0x3a :: port).drop (host.length + 1) = port := by
    rw [List.drop_length_add_append]
    rfl
  obtain ⟨first, rest, hv⟩ := List.exists_cons_of_ne_nil (List.append_ne_nil_of_right_ne_nil host
    (List.cons_ne_nil 0x3a port))
  rw [hv] at hhead hname hpos htake hdrop ⊢
  simp only [isValidAuthority, ne_bracket hhead, Bool.false_eq_true, if_false, hpos, htake, hdrop,
    RequiredPort, List.cons.injEq, true_and]
  split
  · next h =>
    simp only [Bool.and_eq_true, Bool.not_eq_true', List.isEmpty_eq_false_iff, isPort_iff] at h
    simp only [Bool.and_eq_true, Bool.not_eq_true', List.isEmpty_eq_false_iff, isValidRegName_iff]
    constructor
    · rintro ⟨hne, hreg⟩
      exact ⟨hreg, hne, port, rfl, h.2, h.1⟩
    · rintro ⟨hreg, hne, -⟩
      exact ⟨hne, hreg⟩
  · next h =>
    refine iff_of_false hname ?_
    rintro ⟨-, -, _, rfl, hdigits, hne⟩
    refine h ?_
    simp only [Bool.and_eq_true, Bool.not_eq_true', List.isEmpty_eq_false_iff, isPort_iff]
    exact ⟨hne, hdigits⟩

theorem isValidConnectAuthority_cut :
    isValidConnectAuthority (host ++ 0x3a :: port) = true ↔
      RegName host ∧ host ≠ [] ∧ RequiredPort (0x3a :: port) := by
  have hpos := @rposition_cut host port hport
  have htake : (host ++ 0x3a :: port).take host.length = host := List.take_left
  have hdrop : (host ++ 0x3a :: port).drop (host.length + 1) = port := by
    rw [List.drop_length_add_append]
    rfl
  obtain ⟨first, rest, hv⟩ := List.exists_cons_of_ne_nil (List.append_ne_nil_of_right_ne_nil host
    (List.cons_ne_nil 0x3a port))
  rw [hv] at hhead hpos htake hdrop ⊢
  simp only [isValidConnectAuthority, ne_bracket hhead, Bool.false_eq_true, if_false, hpos, htake,
    hdrop, RequiredPort, List.cons.injEq, true_and, Bool.and_eq_true, Bool.not_eq_true',
    List.isEmpty_eq_false_iff, isValidRegName_iff, isPort_iff]
  constructor
  · rintro ⟨⟨⟨hne, hne'⟩, hreg⟩, hdigits⟩
    exact ⟨hreg, hne, port, rfl, hdigits, hne'⟩
  · rintro ⟨hreg, hne, _, rfl, hdigits, hne'⟩
    exact ⟨⟨⟨hne, hne'⟩, hreg⟩, hdigits⟩

end

section

variable {value : Bytes} (hcolon : 0x3a ∉ value) (hhead : value.head? ≠ some 0x5b)

include hcolon hhead

theorem isValidAuthority_noColon :
    isValidAuthority value = true ↔ RegName value ∧ value ≠ [] := by
  cases value with
  | nil => exact iff_of_false nofun fun h => h.2 rfl
  | cons first rest =>
    simp only [isValidAuthority, ne_bracket hhead, Bool.false_eq_true, if_false,
      rposition_none hcolon, isValidRegName_iff, ne_eq, reduceCtorEq, not_false_eq_true, and_true]

theorem isValidConnectAuthority_noColon : isValidConnectAuthority value = false := by
  cases value with
  | nil => rfl
  | cons first rest =>
    simp only [isValidConnectAuthority, ne_bracket hhead, Bool.false_eq_true, if_false,
      rposition_none hcolon]

end

/-! ## What follows from acceptance -/

/-- What stands before the port of a CONNECT is an authority with that port. -/
theorem isValidAuthority_of_connect {value : Bytes} (h : isValidConnectAuthority value = true) :
    isValidAuthority value = true := by
  obtain ⟨rest, rfl, hb⟩ | ⟨content, behind, rfl, hb⟩ | ⟨hhead, hcolon | ⟨host, port, rfl, hport⟩⟩ :=
    value_cases value
  · rw [isValidConnectAuthority_noBracket hb] at h
    cases h
  · obtain ⟨hlit, port, rfl, hport, -⟩ := (isValidConnectAuthority_bracket hb).mp h
    exact (isValidAuthority_bracket hb).mpr ⟨hlit, .inr ⟨port, rfl, hport⟩⟩
  · rw [isValidConnectAuthority_noColon hcolon hhead] at h
    cases h
  · exact (isValidAuthority_cut hport hhead).mpr ((isValidConnectAuthority_cut hport hhead).mp h)

theorem literalContent_notMem {content : Bytes} (h : isValidIpLiteralContent content = true) :
    0x40 ∉ content := by
  cases content with
  | nil => exact List.not_mem_nil
  | cons first rest =>
    simp only [isValidIpLiteralContent] at h
    intro hmem
    split at h
    · next hfirst =>
      simp only [Bool.and_eq_true, List.all_eq_true] at h
      obtain rfl | hmem := List.mem_cons.mp hmem
      · exact absurd hfirst (by decide)
      · exact absurd (h.2 _ hmem) (by with_unfolding_all decide)
    · exact absurd (List.all_eq_true.mp h _ hmem) (by decide)

/-- No recogniser lets user information through. -/
theorem at_notMem_of_authority {value : Bytes} (h : isValidAuthority value = true) :
    0x40 ∉ value := by
  have hport : ∀ port, IsPort port → 0x40 ∉ port := fun port hp hmem =>
    absurd (hp _ hmem) (by decide)
  have hname : ∀ host, RegName host → 0x40 ∉ host := fun host hh =>
    regName_notMem hh (by with_unfolding_all decide)
  obtain ⟨rest, rfl, hb⟩ | ⟨content, behind, rfl, hb⟩ | ⟨hhead, hcolon | ⟨host, port, rfl, hp⟩⟩ :=
    value_cases value
  · rw [isValidAuthority_noBracket hb] at h
    cases h
  · obtain ⟨hlit, rfl | ⟨port, rfl, hdigits⟩⟩ := (isValidAuthority_bracket hb).mp h
    · simpa using literalContent_notMem hlit
    · simpa using ⟨literalContent_notMem hlit, hport port hdigits⟩
  · exact hname _ ((isValidAuthority_noColon hcolon hhead).mp h).1
  · obtain ⟨hreg, -, _, he, hdigits, -⟩ := (isValidAuthority_cut hp hhead).mp h
    obtain rfl := (List.cons.inj he).2
    simpa using ⟨hname _ hreg, hport _ hdigits⟩

/-! ## Agreement with the grammar -/

theorem iff_and_iff {a b c : Prop} : ((a ∧ c) ↔ (b ∧ c)) ↔ ((a ↔ b) ∨ ¬ c) := by
  by_cases hc : c
  · simp only [hc, and_true, not_true_eq_false, or_false]
  · simp only [hc, and_false, not_false_eq_true, or_true]

theorem authority_iff (value : Bytes) :
    (isValidAuthority value = true ↔ Authority value) ↔
      ¬ EmptyPort value ∧ ¬ MisreadThen OptionalPort value := by
  obtain ⟨rest, rfl, h⟩ | ⟨content, behind, rfl, h⟩ | ⟨hhead, hcolon | ⟨host, port, rfl, hport⟩⟩ :=
    value_cases value
  · have hmis : ¬ MisreadThen OptionalPort (0x5b :: rest) := by
      rintro ⟨content, behind, he, -⟩
      rw [(List.cons.inj he).2] at h
      exact h (List.mem_append_right _ List.mem_cons_self)
    rw [isValidAuthority_noBracket h]
    exact iff_of_true (iff_of_false nofun (hostThen_noBracket _ h)) ⟨not_emptyPort, hmis⟩
  · rw [isValidAuthority_bracket h, Authority, hostThen_bracket h, misreadThen_bracket h,
      iff_and_iff, misread_iff, not_and_or]
    exact (and_iff_right not_emptyPort).symm
  · rw [isValidAuthority_noColon hcolon hhead, Authority,
      hostThen_noColon optionalPort_isTail hcolon hhead]
    refine iff_of_true ?_ ⟨?_, not_misreadThen hhead⟩
    · simp only [OptionalPort, true_or, and_true]
    · rintro ⟨host, rfl, -⟩
      exact hcolon (List.mem_append_right _ List.mem_cons_self)
  · rw [isValidAuthority_cut hport hhead, Authority, hostThen_cut optionalPort_isTail hport hhead,
      and_iff_left (not_misreadThen hhead)]
    have hempty : EmptyPort (host ++ 0x3a :: port) ↔ RegName host ∧ host ≠ [] ∧ port = [] := by
      constructor
      · rintro ⟨name, he, hname, hne⟩
        obtain ⟨rfl, rfl⟩ := Cut.last_unique hport List.not_mem_nil he
        exact ⟨hname, hne, rfl⟩
      · rintro ⟨hname, hne, rfl⟩
        exact ⟨host, rfl, hname, hne⟩
    rw [hempty]
    constructor
    · rintro hiff ⟨hname, hne, rfl⟩
      obtain ⟨-, -, _, he, -, hport⟩ := hiff.mpr ⟨hname, hne, .inr ⟨[], rfl, nofun⟩⟩
      exact hport (List.cons.inj he).2.symm
    · intro hport
      constructor
      · rintro ⟨hname, hne, digits, he, hdigits, -⟩
        exact ⟨hname, hne, .inr ⟨digits, he, hdigits⟩⟩
      · rintro ⟨hname, hne, he | ⟨digits, he, hdigits⟩⟩
        · cases he
        · refine ⟨hname, hne, digits, he, hdigits, ?_⟩
          rintro rfl
          exact hport ⟨hname, hne, (List.cons.inj he).2⟩

theorem connectAuthority_iff (value : Bytes) :
    (isValidConnectAuthority value = true ↔ ConnectAuthority value) ↔
      ¬ MisreadThen RequiredPort value := by
  obtain ⟨rest, rfl, h⟩ | ⟨content, behind, rfl, h⟩ | ⟨hhead, hcolon | ⟨host, port, rfl, hport⟩⟩ :=
    value_cases value
  · have hmis : ¬ MisreadThen RequiredPort (0x5b :: rest) := by
      rintro ⟨content, behind, he, -⟩
      rw [(List.cons.inj he).2] at h
      exact h (List.mem_append_right _ List.mem_cons_self)
    rw [isValidConnectAuthority_noBracket h]
    exact iff_of_true (iff_of_false nofun (hostThen_noBracket _ h)) hmis
  · rw [isValidConnectAuthority_bracket h, ConnectAuthority, hostThen_bracket h,
      misreadThen_bracket h, iff_and_iff, misread_iff, not_and_or]
  · rw [isValidConnectAuthority_noColon hcolon hhead, ConnectAuthority,
      hostThen_noColon requiredPort_isTail hcolon hhead]
    refine iff_of_true (iff_of_false nofun ?_) (not_misreadThen hhead)
    rintro ⟨-, -, _, he, -⟩
    cases he
  · rw [isValidConnectAuthority_cut hport hhead, ConnectAuthority,
      hostThen_cut requiredPort_isTail hport hhead]
    exact iff_of_true Iff.rfl (not_misreadThen hhead)

/-- The recognisers accept what the grammar says of every value, save a name with a colon and no
port, and save a literal whose `IPvFuture` is one of the two kinds. -/
theorem authority_grammar (value : Bytes) :
    ((isValidAuthority value = true ↔ Authority value) ∧
      (isValidConnectAuthority value = true ↔ ConnectAuthority value)) ↔
    ¬ EmptyPort value ∧ ¬ MisreadThen OptionalPort value := by
  have hport : ∀ behind, RequiredPort behind → OptionalPort behind := by
    rintro behind ⟨port, h, hdigits, -⟩
    exact .inr ⟨port, h, hdigits⟩
  rw [authority_iff, connectAuthority_iff]
  refine and_iff_left_of_imp ?_
  rintro ⟨-, hmis⟩ ⟨content, behind, h, hcontent, hbehind⟩
  exact hmis ⟨content, behind, h, hcontent, hport behind hbehind⟩

/-- `a:` is an authority and refused, `[v1.x]:80` is one for CONNECT and refused, and `[v...]` is
none and accepted. -/
theorem grammar_departures :
    (Authority (ofString "a:") ∧ isValidAuthority (ofString "a:") = false) ∧
    (ConnectAuthority (ofString "[v1.x]:80") ∧
      isValidConnectAuthority (ofString "[v1.x]:80") = false) ∧
    (¬ Authority (ofString "[v...]") ∧ isValidAuthority (ofString "[v...]") = true) := by
  refine ⟨⟨⟨[0x61], [0x3a], by with_unfolding_all decide, ?_, ?_⟩, by with_unfolding_all decide⟩,
    ⟨⟨0x5b :: (ofString "v1.x" ++ [0x5d]), ofString ":80", by with_unfolding_all decide, ?_, ?_⟩,
      by with_unfolding_all decide⟩, ?_, by with_unfolding_all decide⟩
  · exact .regName (.char (by decide) .nil) (by decide)
  · exact .inr ⟨[], rfl, nofun⟩
  · exact .literal (.inr ⟨[0x31], [0x78], by with_unfolding_all decide, by decide,
      by decide +kernel, by decide, by decide +kernel⟩)
  · exact ⟨ofString "80", by with_unfolding_all decide, by unfold IsPort; decide +kernel,
      by with_unfolding_all decide⟩
  · have hshape : ofString "[v...]" =
        0x5b :: ((0x76 :: ([] ++ 0x2e :: [0x2e, 0x2e])) ++ 0x5d :: []) := by
      with_unfolding_all decide
    rw [hshape, Authority, hostThen_bracket (by decide), IpLiteral, ipvFuture_iff (by decide)]
    rintro ⟨⟨-, hsix⟩ | ⟨hversion, -⟩, -⟩
    · exact absurd (hsix 0x76 List.mem_cons_self) (by decide)
    · exact hversion rfl

end Http3.Validation
