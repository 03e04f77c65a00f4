import Http3.Lib.Utf8

/-!
# Lists of Strings as structured fields

The grammar of a List whose members are Strings with parameters (RFC 9651, Section 4.2 and
Appendix C). `Chars` and `StringList` say what the text stands for; of a parameter only its form
matters. A comma separates two members or stands in quotes, and then a quote follows it
(`QuoteBehindComma`).
-/

namespace StructuredField

/-! ## Bare items -/

def isDigit (b : UInt8) : Bool := 0x30 ≤ b && b ≤ 0x39

def isLcalpha (b : UInt8) : Bool := 0x61 ≤ b && b ≤ 0x7a

def isAlpha (b : UInt8) : Bool := (0x41 ≤ b && b ≤ 0x5a) || isLcalpha b

def isTchar (b : UInt8) : Bool :=
  isAlpha b || isDigit b || (Bytes.ofString "!#$%&'*+-.^_\x60|~").contains b

def isLcHexdig (b : UInt8) : Bool := isDigit b || (0x61 ≤ b && b ≤ 0x66)

/-- A character of a String that stands for itself. -/
def isUnescaped (b : UInt8) : Bool := 0x20 ≤ b && b ≤ 0x7e && b != 0x22 && b != 0x5c

/-- What stands between the quotes of a String, and the String. -/
inductive Chars : Bytes → Bytes → Prop
  | nil : Chars [] []
  | unescaped {b : UInt8} {text s : Bytes} :
      isUnescaped b = true → Chars text s → Chars (b :: text) (b :: s)
  | escaped {b : UInt8} {text s : Bytes} :
      b = 0x22 ∨ b = 0x5c → Chars text s → Chars (0x5c :: b :: text) (b :: s)

def hexValue (b : UInt8) : UInt8 := if isDigit b then b - 0x30 else b - 0x57

/-- What stands between the quotes of a Display String, and its bytes. -/
inductive DisplayChars : Bytes → Bytes → Prop
  | nil : DisplayChars [] []
  | plain {b : UInt8} {text s : Bytes} :
      (isUnescaped b || b == 0x5c) = true → b ≠ 0x25 → DisplayChars text s →
      DisplayChars (b :: text) (b :: s)
  | encoded {h₁ h₂ : UInt8} {text s : Bytes} :
      isLcHexdig h₁ = true → isLcHexdig h₂ = true → DisplayChars text s →
      DisplayChars (0x25 :: h₁ :: h₂ :: text) ((hexValue h₁ * 16 + hexValue h₂) :: s)

/-- An optional minus sign. -/
def Sign (sign : Bytes) : Prop := sign = [] ∨ sign = [0x2d]

def Digits (digits : Bytes) (most : Nat) : Prop :=
  digits ≠ [] ∧ digits.length ≤ most ∧ ∀ b ∈ digits, isDigit b = true

inductive BareItem : Bytes → Prop
  | integer {sign digits : Bytes} : Sign sign → Digits digits 15 → BareItem (sign ++ digits)
  | decimal {sign digits fraction : Bytes} : Sign sign → Digits digits 12 → Digits fraction 3 →
      BareItem (sign ++ (digits ++ 0x2e :: fraction))
  | string {text s : Bytes} : Chars text s → BareItem (0x22 :: (text ++ [0x22]))
  | token {first : UInt8} {rest : Bytes} : (isAlpha first || first == 0x2a) = true →
      (∀ b ∈ rest, (isTchar b || b == 0x3a || b == 0x2f) = true) → BareItem (first :: rest)
  | binary {content padding : Bytes} :
      (∀ b ∈ content, (isAlpha b || isDigit b || b == 0x2b || b == 0x2f) = true) →
      (∀ b ∈ padding, b = 0x3d) → BareItem (0x3a :: (content ++ (padding ++ [0x3a])))
  | boolean {b : UInt8} : b = 0x30 ∨ b = 0x31 → BareItem [0x3f, b]
  | date {sign digits : Bytes} : Sign sign → Digits digits 15 →
      BareItem (0x40 :: (sign ++ digits))
  | displayString {text s : Bytes} : DisplayChars text s → Utf8.isValid s = true →
      BareItem (0x25 :: 0x22 :: (text ++ [0x22]))

/-! ## Lists -/

def Spaces (s : Bytes) : Prop := ∀ b ∈ s, b = 0x20

/-- Optional white space. -/
def Ows (s : Bytes) : Prop := ∀ b ∈ s, Utf8.isBlank b = true

inductive Key : Bytes → Prop
  | intro {first : UInt8} {rest : Bytes} : (isLcalpha first || first == 0x2a) = true →
      (∀ b ∈ rest, (isLcalpha b || isDigit b || b == 0x5f || b == 0x2d || b == 0x2e || b == 0x2a)
        = true) → Key (first :: rest)

inductive Parameters : Bytes → Prop
  | nil : Parameters []
  | flag {spaces key rest : Bytes} : Spaces spaces → Key key → Parameters rest →
      Parameters (0x3b :: (spaces ++ (key ++ rest)))
  | value {spaces key item rest : Bytes} : Spaces spaces → Key key → BareItem item →
      Parameters rest → Parameters (0x3b :: (spaces ++ (key ++ 0x3d :: (item ++ rest))))

/-- A String with its parameters. -/
inductive StringItem : Bytes → Bytes → Prop
  | intro {text s params : Bytes} : Chars text s → Parameters params →
      StringItem (0x22 :: (text ++ 0x22 :: params)) s

inductive Members : Bytes → List Bytes → Prop
  | last {item s behind : Bytes} : StringItem item s → Ows behind → Members (item ++ behind) [s]
  | cons {item s behind lead rest : Bytes} {ss : List Bytes} : StringItem item s → Ows behind →
      Ows lead → Members rest ss →
      Members (item ++ (behind ++ 0x2c :: (lead ++ rest))) (s :: ss)

/-- A List of Strings; the empty one has no members. -/
inductive StringList : Bytes → List Bytes → Prop
  | empty {spaces : Bytes} : Spaces spaces → StringList spaces []
  | members {spaces text : Bytes} {ss : List Bytes} : Spaces spaces → Members text ss →
      StringList (spaces ++ text) ss

/-! ## Quotes and commas -/

/-- Behind each comma comes a quote. -/
def QuoteBehindComma (text : Bytes) : Prop :=
  ∀ front behind, text = front ++ 0x2c :: behind → 0x22 ∈ behind

theorem quoteBehindComma_of_notMem {text : Bytes} (h : 0x2c ∉ text) : QuoteBehindComma text := by
  rintro front behind rfl
  exact absurd (List.mem_append_right _ List.mem_cons_self) h

theorem QuoteBehindComma.append {x y : Bytes} (hx : QuoteBehindComma x) (hy : QuoteBehindComma y) :
    QuoteBehindComma (x ++ y) := by
  intro front behind h
  obtain ⟨mid, rfl, hmid⟩ | ⟨mid, hx', hmid⟩ := List.append_eq_append_iff.mp h
  · exact hy mid behind hmid
  · cases mid with
    | nil => exact hy [] behind hmid.symm
    | cons b mid =>
      obtain ⟨rfl, rfl⟩ := List.cons.inj hmid
      exact List.mem_append_left _ (hx front mid hx')

theorem QuoteBehindComma.cons {b : UInt8} (hb : b ≠ 0x2c) {y : Bytes} (hy : QuoteBehindComma y) :
    QuoteBehindComma (b :: y) :=
  append (quoteBehindComma_of_notMem fun h => hb (List.mem_singleton.mp h).symm) hy

theorem quoteBehindComma_quoted (text : Bytes) : QuoteBehindComma (text ++ [0x22]) := by
  intro front behind h
  have hlast : (0x2c :: behind).getLast? = some 0x22 := by
    have hget := congrArg List.getLast? h
    rw [List.getLast?_concat, List.getLast?_append, List.getLast?_eq_some_getLast
      (List.cons_ne_nil 0x2c behind), Option.some_or] at hget
    rw [List.getLast?_eq_some_getLast (List.cons_ne_nil 0x2c behind)]
    exact hget.symm
  cases behind with
  | nil => cases hlast
  | cons b behind => exact List.mem_of_getLast? (by rwa [List.getLast?_cons_cons] at hlast)

theorem comma_notMem {text : Bytes} {p : UInt8 → Bool} (h : ∀ b ∈ text, p b = true)
    (hp : p 0x2c = false) : 0x2c ∉ text := by
  intro hmem
  rw [h _ hmem] at hp
  cases hp

theorem sign_notMem {sign : Bytes} (h : Sign sign) : 0x2c ∉ sign := by
  obtain rfl | rfl := h
  · exact List.not_mem_nil
  · decide

theorem digits_notMem {digits : Bytes} {most : Nat} (h : Digits digits most) : 0x2c ∉ digits :=
  comma_notMem h.2.2 (by decide)

theorem bareItem_quotes {item : Bytes} (h : BareItem item) : QuoteBehindComma item := by
  cases h with
  | integer hsign hdigits =>
    exact .append (quoteBehindComma_of_notMem (sign_notMem hsign))
      (quoteBehindComma_of_notMem (digits_notMem hdigits))
  | decimal hsign hdigits hfraction =>
    exact .append (quoteBehindComma_of_notMem (sign_notMem hsign))
      (.append (quoteBehindComma_of_notMem (digits_notMem hdigits))
        (.cons (by decide) (quoteBehindComma_of_notMem (digits_notMem hfraction))))
  | string hchars => exact .cons (by decide) (quoteBehindComma_quoted _)
  | token hfirst hrest =>
    refine .cons ?_ (quoteBehindComma_of_notMem (comma_notMem hrest (by decide +kernel)))
    rintro rfl
    revert hfirst
    decide
  | @binary content padding hcontent hpadding =>
    have hequal : ∀ b ∈ padding, (b == 0x3d) = true := fun b hb => beq_iff_eq.mpr (hpadding b hb)
    exact .cons (by decide) (.append (quoteBehindComma_of_notMem (comma_notMem hcontent (by decide)))
      (.append (quoteBehindComma_of_notMem (comma_notMem hequal (by decide)))
        (quoteBehindComma_of_notMem (by decide))))
  | boolean hb =>
    obtain rfl | rfl := hb
    · exact quoteBehindComma_of_notMem (by decide)
    · exact quoteBehindComma_of_notMem (by decide)
  | date hsign hdigits =>
    exact .cons (by decide) (.append (quoteBehindComma_of_notMem (sign_notMem hsign))
      (quoteBehindComma_of_notMem (digits_notMem hdigits)))
  | displayString hchars hvalid =>
    exact .cons (by decide) (.cons (by decide) (quoteBehindComma_quoted _))

theorem spaces_quotes {spaces : Bytes} (h : Spaces spaces) : QuoteBehindComma spaces := by
  refine quoteBehindComma_of_notMem fun hmem => ?_
  have hspace := h _ hmem
  revert hspace
  decide

theorem key_quotes {key : Bytes} (h : Key key) : QuoteBehindComma key := by
  obtain ⟨hfirst, hrest⟩ := h
  refine .cons ?_ (quoteBehindComma_of_notMem (comma_notMem hrest (by decide)))
  rintro rfl
  revert hfirst
  decide

theorem parameters_quotes {params : Bytes} (h : Parameters params) : QuoteBehindComma params := by
  induction h with
  | nil => exact quoteBehindComma_of_notMem List.not_mem_nil
  | flag hspaces hkey hrest ih =>
    exact .cons (by decide) (.append (spaces_quotes hspaces) (.append (key_quotes hkey) ih))
  | value hspaces hkey hitem hrest ih =>
    exact .cons (by decide) (.append (spaces_quotes hspaces) (.append (key_quotes hkey)
      (.cons (by decide) (.append (bareItem_quotes hitem) ih))))

/-- What may follow the closing quote of a String: nothing, or a semicolon first. -/
def Tail (behind : Bytes) : Prop := behind = [] ∨ ∃ rest, behind = 0x3b :: rest

theorem parameters_tail {params : Bytes} (h : Parameters params) : Tail params := by
  cases h with
  | nil => exact .inl rfl
  | flag hspaces hkey hrest => exact .inr ⟨_, rfl⟩
  | value hspaces hkey hitem hrest => exact .inr ⟨_, rfl⟩

theorem Tail.isPrefix {behind kept : Bytes} (h : Tail behind) (hkept : kept <+: behind) :
    Tail kept := by
  obtain rfl | ⟨rest, rfl⟩ := h
  · exact .inl (List.prefix_nil.mp hkept)
  · cases kept with
    | nil => exact .inl rfl
    | cons b kept =>
      obtain ⟨more, hmore⟩ := hkept
      obtain ⟨rfl, -⟩ := List.cons.inj hmore
      exact .inr ⟨kept, rfl⟩

theorem StringItem.quote_mem {item s : Bytes} (h : StringItem item s) : 0x22 ∈ item := by
  cases h with
  | intro hchars hparams => exact List.mem_cons_self

theorem stringItem_quotes {item s : Bytes} (h : StringItem item s) : QuoteBehindComma item := by
  cases h with
  | @intro text s params hchars hparams =>
    have hsplit : (0x22 :: (text ++ 0x22 :: params) : Bytes) =
        0x22 :: ((text ++ [0x22]) ++ params) := by
      rw [List.append_assoc, List.singleton_append]
    rw [hsplit]
    exact .cons (by decide) (.append (quoteBehindComma_quoted _) (parameters_quotes hparams))

theorem ows_quotes {s : Bytes} (h : Ows s) : QuoteBehindComma s :=
  quoteBehindComma_of_notMem (comma_notMem h (by decide))

theorem members_quotes {text : Bytes} {ss : List Bytes} (h : Members text ss) :
    QuoteBehindComma text := by
  induction h with
  | last hitem hbehind => exact (stringItem_quotes hitem).append (ows_quotes hbehind)
  | @cons item s behind lead rest ss hitem hbehind hlead hrest ih =>
    refine (stringItem_quotes hitem).append ((ows_quotes hbehind).append ?_)
    intro front after h
    cases front with
    | nil =>
      obtain ⟨-, rfl⟩ := List.cons.inj h
      refine List.mem_append_right _ ?_
      cases hrest with
      | last hitem hbehind => exact List.mem_append_left _ hitem.quote_mem
      | cons hitem hbehind hlead hrest => exact List.mem_append_left _ hitem.quote_mem
    | cons b front => exact ((ows_quotes hlead).append ih) front after (List.cons.inj h).2

end StructuredField
