import Http3.Lib.StructuredField
import Http3.WebTransport.SfParser

/-!
# The list of offered protocols against its grammar

The parser cuts at every comma, so it reads a List of Strings as the grammar says when all commas
stand between members (`parse_stringList_iff`). Of other values it takes those whose pieces look
like strings before their parameters (`Loose`).
-/

namespace Http3.SfParser

open StructuredField

/-! ## One string -/

section Replace

variable {a b c x : UInt8} {rest : Bytes}

theorem replacePair_other (h : x ≠ a) :
    replacePair a b c (x :: rest) = x :: replacePair a b c rest := by
  cases rest with
  | nil => rfl
  | cons y rest => rw [replacePair, if_neg fun hand => h hand.1]

theorem replacePair_pair : replacePair a b c (a :: b :: rest) = c :: replacePair a b c rest := by
  rw [replacePair, if_pos ⟨rfl, rfl⟩]

theorem replacePair_first (h : x ≠ b) :
    replacePair a b c (a :: x :: rest) = a :: replacePair a b c (x :: rest) := by
  rw [replacePair, if_neg fun hand => h hand.2]

end Replace

theorem isUnescaped_ne : ∀ b : UInt8, isUnescaped b = true → b ≠ 0x22 ∧ b ≠ 0x5c ∧ b ≠ 0x00 :=
  Bytes.forall_byte (by decide +kernel)

/-- The replacements never take a backslash for another one: each pair is read from its start. -/
theorem unescape_chars {text s : Bytes} (h : Chars text s) : unescape text = s := by
  unfold unescape
  induction h with
  | nil => rfl
  | unescaped hb hchars ih =>
    obtain ⟨hquote, hslash, hnul⟩ := isUnescaped_ne _ hb
    rw [replacePair_other hslash, replacePair_other hslash, List.map_cons, ih, if_neg hnul]
  | @escaped b text s hb hchars ih =>
    obtain rfl | rfl := hb
    · have hkeep : replacePair 0x5c 0x5c 0x00 (0x5c :: 0x22 :: text) =
          0x5c :: 0x22 :: replacePair 0x5c 0x5c 0x00 text := by
        rw [replacePair_first (by decide), replacePair_other (by decide)]
      rw [hkeep, replacePair_pair, List.map_cons, ih]
      rfl
    · rw [replacePair_pair, replacePair_other (by decide), List.map_cons, ih]
      rfl

theorem stripLoop_chars {text s : Bytes} (h : Chars text s) (rest : Bytes) :
    stripLoop true false (text ++ 0x22 :: rest) = text ++ 0x22 :: stripLoop false false rest := by
  induction h with
  | nil => rfl
  | unescaped hb hchars ih =>
    obtain ⟨hquote, hslash, -⟩ := isUnescaped_ne _ hb
    simp only [List.cons_append, stripLoop, Bool.false_eq_true, if_false, hquote, hslash,
      decide_false, Bool.false_and, Bool.not_true, Bool.and_false, ih]
  | escaped hb hchars ih =>
    simp only [List.cons_append, stripLoop, Bool.false_eq_true, if_false, if_true, decide_true,
      Bool.and_true, ih, show ¬ (0x5c : UInt8) = 0x22 by decide]

theorem strip_quoted {text s behind : Bytes} (h : Chars text s) (hbehind : Tail behind) :
    stripSfParameters (0x22 :: (text ++ 0x22 :: behind)) = 0x22 :: (text ++ [0x22]) := by
  have hstart : ∀ rest, stripSfParameters (0x22 :: rest) = 0x22 :: stripLoop true false rest :=
    fun _ => rfl
  rw [hstart, stripLoop_chars h]
  obtain rfl | ⟨rest, rfl⟩ := hbehind
  · rfl
  · rfl

theorem solid_quote : Utf8.Solid 0x22 := by decide

/-- A string between blanks keeps its parameters, or a part of them. -/
theorem trim_quoted {lead text behind : Bytes} (hlead : Ows lead) :
    ∃ kept, Utf8.trim (lead ++ (0x22 :: (text ++ 0x22 :: behind))) =
      0x22 :: (text ++ 0x22 :: kept) ∧ kept <+: behind ∧ (Ows behind → kept = []) := by
  obtain ⟨kept, hkept, hprefix, hnil⟩ := Utf8.trimEnd_eq solid_quote (0x22 :: text) behind
  refine ⟨kept, ?_, hprefix, hnil⟩
  rw [Utf8.trim, Utf8.trimStart_eq solid_quote hlead]
  exact hkept

theorem parseSfItemString_quoted {text s behind : Bytes} (h : Chars text s)
    (hbehind : Tail behind) :
    parseSfItemString (0x22 :: (text ++ 0x22 :: behind)) = some s := by
  obtain ⟨kept, hkept, hprefix, -⟩ := @trim_quoted [] text behind nofun
  obtain ⟨none, hnone, -, hnil⟩ := @trim_quoted [] text [] nofun
  rw [List.nil_append] at hkept hnone
  rw [hnil nofun] at hnone
  have hstrip := strip_quoted h (hbehind.isPrefix hprefix)
  have hinner : (0x22 :: (text ++ [0x22]) : Bytes).tail.dropLast = text :=
    List.dropLast_concat
  have hlast : (0x22 :: (text ++ [0x22]) : Bytes).getLast? = some 0x22 :=
    List.getLast?_concat (l := 0x22 :: text)
  unfold parseSfItemString
  simp only [hkept, hstrip, hnone, hinner, hlast, List.head?_cons, List.length_cons,
    List.length_append, List.length_nil, unescape_chars h]
  rw [if_pos ⟨trivial, trivial, by omega⟩]

/-- One piece of a list, with white space around it. -/
theorem parse_piece {lead item s behind : Bytes} (h : StringItem item s) (hlead : Ows lead)
    (hbehind : Ows behind) :
    (Utf8.trim (lead ++ (item ++ behind))).isEmpty = false ∧
      parseSfItemString (Utf8.trim (lead ++ (item ++ behind))) = some s := by
  cases h with
  | @intro text s params hchars hparams =>
    have hshape : lead ++ ((0x22 :: (text ++ 0x22 :: params)) ++ behind) =
        lead ++ (0x22 :: (text ++ 0x22 :: (params ++ behind))) := by
      rw [List.cons_append, List.append_assoc, List.cons_append]
    obtain ⟨kept, hkept, hprefix, hnil⟩ :=
      @trim_quoted lead text (params ++ behind) hlead
    have htail : Tail kept := by
      obtain rfl | ⟨rest, rfl⟩ := parameters_tail hparams
      · exact .inl (hnil hbehind)
      · exact Tail.isPrefix (.inr ⟨rest ++ behind, rfl⟩) hprefix
    rw [hshape, hkept]
    exact ⟨rfl, parseSfItemString_quoted hchars htail⟩

/-! ## The pieces of a list -/

/-- The strings of some pieces, when there are `n` of others already; blank pieces are left out. -/
inductive Reads : Nat → List Bytes → List Bytes → Prop
  | nil {n : Nat} : Reads n [] []
  | blank {n : Nat} {piece : Bytes} {pieces ss : List Bytes} : n < MAX_SF_ELEMENTS →
      Utf8.trim piece = [] → Reads n pieces ss → Reads n (piece :: pieces) ss
  | string {n : Nat} {piece s : Bytes} {pieces ss : List Bytes} : n < MAX_SF_ELEMENTS →
      Utf8.trim piece ≠ [] → parseSfItemString (Utf8.trim piece) = some s →
      Reads (n + 1) pieces ss → Reads n (piece :: pieces) (s :: ss)

theorem parseItems_of_reads {pieces ss result : List Bytes} (h : Reads result.length pieces ss) :
    parseItems pieces result = result ++ ss := by
  generalize hn : result.length = n at h
  induction h generalizing result with
  | nil => exact (List.append_nil result).symm
  | blank hlt htrim hreads ih =>
    rw [parseItems, if_neg (by omega), if_pos (by rw [htrim]; rfl)]
    exact ih hn
  | @string n piece s pieces ss hlt htrim hparse hreads ih =>
    rw [parseItems, if_neg (by omega), if_neg (by rwa [List.isEmpty_iff])]
    simp only [hparse]
    rw [ih (by rw [List.length_append, List.length_singleton, hn]), List.append_assoc]
    rfl

theorem reads_of_parseItems {pieces result : List Bytes} (h : parseItems pieces result ≠ []) :
    ∃ ss, Reads result.length pieces ss := by
  induction pieces generalizing result with
  | nil => exact ⟨[], .nil⟩
  | cons piece pieces ih =>
    rw [parseItems] at h
    split at h
    · exact absurd rfl h
    next hlt =>
    dsimp only at h
    split at h
    · next htrim =>
      obtain ⟨ss, hreads⟩ := ih h
      exact ⟨ss, .blank (Nat.not_le.mp hlt) (List.isEmpty_iff.mp htrim) hreads⟩
    · next htrim =>
      rw [List.isEmpty_iff] at htrim
      cases hparse : parseSfItemString (Utf8.trim piece) with
      | none =>
        simp only [hparse] at h
        exact absurd rfl h
      | some s =>
        simp only [hparse] at h
        obtain ⟨ss, hreads⟩ := ih h
        rw [List.length_append, List.length_singleton] at hreads
        exact ⟨s :: ss, .string (Nat.not_le.mp hlt) htrim hparse hreads⟩

theorem splitComma_cut (x y : Bytes) : splitComma (x ++ 0x2c :: y) = splitComma x ++ splitComma y :=
  List.splitOnP_append_cons x y rfl

theorem splitComma_single {x : Bytes} (h : 0x2c ∉ x) : splitComma x = [x] :=
  List.splitOnP_eq_singleton fun _ hb => beq_eq_false_iff_ne.mpr (ne_of_mem_of_not_mem hb h)

/-- The pieces of a text that are not blank. -/
def takenPieces (text : Bytes) : List Bytes :=
  (splitComma text).filter fun piece => !(Utf8.trim piece).isEmpty

theorem takenPieces_cut (x y : Bytes) :
    takenPieces (x ++ 0x2c :: y) = takenPieces x ++ takenPieces y := by
  rw [takenPieces, splitComma_cut, List.filter_append]
  rfl

theorem reads_length {n : Nat} {pieces ss : List Bytes} (h : Reads n pieces ss) :
    ss.length = (pieces.filter fun piece => !(Utf8.trim piece).isEmpty).length := by
  induction h with
  | nil => rfl
  | blank hlt htrim hreads ih =>
    rw [List.filter_cons, htrim]
    exact ih
  | string hlt htrim hparse hreads ih =>
    rw [List.filter_cons, if_pos (by rwa [Bool.not_eq_true', List.isEmpty_eq_false_iff]),
      List.length_cons, List.length_cons, ih]

/-- Where a quote stands there is something to take. -/
theorem takenPieces_pos {text : Bytes} (h : 0x22 ∈ text) : 0 < (takenPieces text).length := by
  induction hn : text.length using Nat.strongRecOn generalizing text with
  | ind n ih =>
    by_cases hcomma : 0x2c ∈ text
    · obtain ⟨x, y, rfl⟩ := List.append_of_mem hcomma
      rw [List.length_append, List.length_cons] at hn
      rw [takenPieces_cut, List.length_append]
      obtain hx | hy := List.mem_append.mp h
      · have hpos := ih x.length (by omega) hx rfl
        omega
      · obtain hcons | hy := List.mem_cons.mp hy
        · exact absurd hcons (by decide)
        · have hpos := ih y.length (by omega) hy rfl
          omega
    · have htrim := Utf8.mem_trim solid_quote h
      rw [takenPieces, splitComma_single hcomma, List.filter_cons, if_pos]
      · exact Nat.zero_lt_succ _
      · rw [Bool.not_eq_true', List.isEmpty_eq_false_iff]
        exact List.ne_nil_of_mem htrim

/-! ## Lists of strings -/

theorem ows_notMem {s : Bytes} (h : Ows s) : 0x2c ∉ s := fun hmem => absurd (h _ hmem) (by decide)

theorem count_ows {s : Bytes} (h : Ows s) : s.count 0x2c = 0 :=
  List.count_eq_zero.mpr (ows_notMem h)

theorem members_count {text : Bytes} {ss : List Bytes} (h : Members text ss) :
    ss.length ≤ text.count 0x2c + 1 := by
  induction h with
  | last hitem hbehind => exact Nat.le_add_left 1 _
  | cons hitem hbehind hlead hrest ih =>
    simp only [List.length_cons, List.count_append, List.count_cons_self]
    omega

/-- When commas only separate members, every piece is a member. -/
theorem reads_members {text : Bytes} {ss : List Bytes} (h : Members text ss) {lead : Bytes}
    (hlead : Ows lead) (hcount : text.count 0x2c < ss.length) {n : Nat}
    (hn : n + ss.length ≤ MAX_SF_ELEMENTS) : Reads n (splitComma (lead ++ text)) ss := by
  induction h generalizing lead n with
  | @last item s behind hitem hbehind =>
    rw [List.count_append, List.length_singleton] at hcount
    have hitemComma : 0x2c ∉ item := List.count_eq_zero.mp (by omega)
    have hnone : 0x2c ∉ lead ++ (item ++ behind) := by
      simp only [List.mem_append, not_or]
      exact ⟨ows_notMem hlead, hitemComma, ows_notMem hbehind⟩
    obtain ⟨hne, hparse⟩ := parse_piece hitem hlead hbehind
    rw [splitComma_single hnone]
    exact .string hn (by rwa [List.isEmpty_eq_false_iff] at hne) hparse .nil
  | @cons item s behind lead' rest ss hitem hbehind hlead' hrest ih =>
    have hle := members_count hrest
    simp only [List.length_cons, List.count_append, List.count_cons_self] at hcount hn
    have hitemComma : 0x2c ∉ item := List.count_eq_zero.mp (by omega)
    have hnone : 0x2c ∉ lead ++ (item ++ behind) := by
      simp only [List.mem_append, not_or]
      exact ⟨ows_notMem hlead, hitemComma, ows_notMem hbehind⟩
    have hshape : lead ++ (item ++ (behind ++ 0x2c :: (lead' ++ rest))) =
        (lead ++ (item ++ behind)) ++ 0x2c :: (lead' ++ rest) := by
      simp only [List.append_assoc]
    obtain ⟨hne, hparse⟩ := parse_piece hitem hlead hbehind
    rw [hshape, splitComma_cut, splitComma_single hnone]
    exact .string (by omega) (by rwa [List.isEmpty_eq_false_iff] at hne) hparse
      (ih hlead' (by omega) (by omega))

/-- An item has a piece that is taken, and one more when a comma is in it. -/
theorem takenPieces_item {lead item s behind : Bytes} (h : StringItem item s) :
    1 ≤ (takenPieces (lead ++ (item ++ behind))).length ∧
      (0x2c ∈ item → 2 ≤ (takenPieces (lead ++ (item ++ behind))).length) := by
  refine ⟨takenPieces_pos ?_, fun hcomma => ?_⟩
  · exact List.mem_append_right _ (List.mem_append_left _ h.quote_mem)
  · obtain ⟨front, rest, hitem⟩ := List.append_of_mem hcomma
    have hrest := stringItem_quotes h front rest hitem
    have hfront : 0x22 ∈ front := by
      cases h with
      | intro hchars hparams =>
        cases front with
        | nil => exact absurd (List.cons.inj hitem).1 (by decide)
        | cons b front =>
          obtain rfl := (List.cons.inj hitem).1
          exact List.mem_cons_self
    have hshape : lead ++ (item ++ behind) = (lead ++ front) ++ 0x2c :: (rest ++ behind) := by
      rw [hitem]
      simp only [List.append_assoc, List.cons_append]
    have hpos := takenPieces_pos (List.mem_append_right lead hfront)
    have hpos' := takenPieces_pos (List.mem_append_left behind hrest)
    rw [hshape, takenPieces_cut, List.length_append]
    omega

/-- Each member is taken, and more than the members when a comma is in one of them. -/
theorem takenPieces_members {text : Bytes} {ss : List Bytes} (h : Members text ss) (lead : Bytes) :
    ss.length ≤ (takenPieces (lead ++ text)).length ∧
      (ss.length ≤ text.count 0x2c → ss.length < (takenPieces (lead ++ text)).length) := by
  induction h generalizing lead with
  | @last item s behind hitem hbehind =>
    obtain ⟨hone, htwo⟩ := @takenPieces_item lead item s behind hitem
    refine ⟨hone, fun hcount => htwo ?_⟩
    rw [List.count_append, count_ows hbehind] at hcount
    exact List.count_pos_iff.mp hcount
  | @cons item s behind lead' rest ss hitem hbehind hlead' hrest ih =>
    obtain ⟨hone, htwo⟩ := @takenPieces_item lead item s behind hitem
    obtain ⟨hle, hlt⟩ := ih lead'
    have hshape : lead ++ (item ++ (behind ++ 0x2c :: (lead' ++ rest))) =
        (lead ++ (item ++ behind)) ++ 0x2c :: (lead' ++ rest) := by
      simp only [List.append_assoc]
    rw [hshape, takenPieces_cut, List.length_append, List.length_cons]
    refine ⟨by omega, fun hcount => ?_⟩
    simp only [List.count_append, List.count_cons_self, count_ows hbehind, count_ows hlead'] at hcount
    by_cases hcomma : 0x2c ∈ item
    · have hitemTwo := htwo hcomma
      omega
    · rw [List.count_eq_zero.mpr hcomma] at hcount
      have hmore := hlt (by omega)
      omega

section Value

variable {value : Bytes} (hlen : value.length ≤ MAX_SF_INPUT_LEN)
  (hctl : ∀ b ∈ value, 0x20 ≤ b ∧ b ≠ 0x7f)

include hlen hctl

theorem parseSfListStrings_eq : parseSfListStrings value = parseItems (splitComma value) [] := by
  have hany : (value.any fun b => b < 0x20 || b = 0x7f) = false := by
    rw [List.any_eq_false]
    intro b hb
    obtain ⟨hlow, hdel⟩ := hctl b hb
    simp only [Bool.or_eq_true, decide_eq_true_eq, not_or]
    exact ⟨UInt8.not_lt.mpr hlow, hdel⟩
  rw [parseSfListStrings, if_neg (by omega), hany]
  rfl

/-- A List of Strings is read as such exactly when its commas only separate the members. -/
theorem parse_members_iff {ss : List Bytes} (h : StringList value ss) (hne : ss ≠ [])
    (hmost : ss.length ≤ MAX_SF_ELEMENTS) :
    parseSfListStrings value = ss ↔ value.count 0x2c < ss.length := by
  rw [parseSfListStrings_eq hlen hctl]
  cases h with
  | empty hspaces => exact absurd rfl hne
  | @members spaces text ss hspaces hmembers =>
    have hows : Ows spaces := fun b hb => by
      rw [hspaces b hb]
      rfl
    rw [List.count_append, count_ows hows, Nat.zero_add]
    constructor
    · intro hparse
      by_contra hcount
      have hmore := (takenPieces_members hmembers spaces).2 (Nat.not_lt.mp hcount)
      obtain ⟨ss', hreads⟩ := reads_of_parseItems (by rw [hparse]; exact hne)
      have heq := parseItems_of_reads hreads
      rw [hparse, List.nil_append] at heq
      rw [heq, reads_length hreads] at hmore
      exact Nat.lt_irrefl _ hmore
    · intro hcount
      exact parseItems_of_reads (reads_members hmembers hows hcount (by simpa using hmost))

end Value

/-! ## What is taken for a string -/

/-- Text in quotes. -/
inductive Inside : Bytes → Prop
  | nil : Inside []
  | plain {b : UInt8} {text : Bytes} : b ≠ 0x22 → b ≠ 0x5c → Inside text → Inside (b :: text)
  | escaped {b : UInt8} {text : Bytes} : Inside text → Inside (0x5c :: b :: text)

/-- What stands before the first semicolon outside quotes. -/
inductive BeforeParams : Bytes → Bytes → Prop
  | nil : BeforeParams [] []
  | params {rest : Bytes} : BeforeParams (0x3b :: rest) []
  | plain {b : UInt8} {text kept : Bytes} : b ≠ 0x22 → b ≠ 0x3b → BeforeParams text kept →
      BeforeParams (b :: text) (b :: kept)
  | quoted {inner text kept : Bytes} : Inside inner → BeforeParams text kept →
      BeforeParams (0x22 :: (inner ++ 0x22 :: text)) (0x22 :: (inner ++ 0x22 :: kept))
  | unclosed {inner : Bytes} : Inside inner → BeforeParams (0x22 :: inner) (0x22 :: inner)
  | unclosedEscape {inner : Bytes} : Inside inner →
      BeforeParams (0x22 :: (inner ++ [0x5c])) (0x22 :: (inner ++ [0x5c]))

theorem stripLoop_inside {inner : Bytes} (h : Inside inner) (rest : Bytes) :
    stripLoop true false (inner ++ rest) = inner ++ stripLoop true false rest := by
  induction h with
  | nil => rfl
  | plain hquote hslash htext ih =>
    simp only [List.cons_append, stripLoop, Bool.false_eq_true, if_false, hquote, hslash,
      decide_false, Bool.false_and, Bool.not_true, Bool.and_false, ih]
  | escaped htext ih =>
    simp only [List.cons_append, stripLoop, Bool.false_eq_true, if_false, if_true, decide_true,
      Bool.and_true, ih, show ¬ (0x5c : UInt8) = 0x22 by decide]

theorem strip_of_beforeParams {text kept : Bytes} (h : BeforeParams text kept) :
    stripSfParameters text = kept := by
  have hstart : ∀ rest, stripSfParameters (0x22 :: rest) = 0x22 :: stripLoop true false rest :=
    fun _ => rfl
  have hclose : ∀ rest, stripLoop true false (0x22 :: rest) = 0x22 :: stripSfParameters rest :=
    fun _ => rfl
  induction h with
  | nil => rfl
  | params => rfl
  | @plain b text kept hquote hsemicolon htext ih =>
    rw [← ih]
    simp only [stripSfParameters, stripLoop, Bool.false_eq_true, if_false, hquote, hsemicolon,
      decide_false, Bool.and_false, Bool.false_and]
  | quoted hinner htext ih => rw [hstart, stripLoop_inside hinner, hclose, ih]
  | unclosed hinner =>
    have hstop := stripLoop_inside hinner []
    rw [List.append_nil] at hstop
    rw [hstart, hstop]
    exact congrArg _ (List.append_nil _)
  | unclosedEscape hinner =>
    rw [hstart, stripLoop_inside hinner]
    rfl

/-- Behind an opening quote: the closing one comes, or the text ends, or it ends in an escape. -/
theorem inside_cases (text : Bytes) :
    (∃ inner rest, text = inner ++ 0x22 :: rest ∧ Inside inner) ∨ Inside text ∨
      ∃ inner, text = inner ++ [0x5c] ∧ Inside inner := by
  induction hn : text.length using Nat.strongRecOn generalizing text with
  | ind n ih =>
    cases text with
    | nil => exact .inr (.inl .nil)
    | cons b text =>
      rw [List.length_cons] at hn
      by_cases hquote : b = 0x22
      · subst hquote
        exact .inl ⟨[], text, rfl, .nil⟩
      by_cases hslash : b = 0x5c
      · subst hslash
        cases text with
        | nil => exact .inr (.inr ⟨[], rfl, .nil⟩)
        | cons c text =>
          rw [List.length_cons] at hn
          obtain ⟨inner, rest, rfl, h⟩ | h | ⟨inner, rfl, h⟩ := ih text.length (by omega) text rfl
          · exact .inl ⟨0x5c :: c :: inner, rest, rfl, .escaped h⟩
          · exact .inr (.inl (.escaped h))
          · exact .inr (.inr ⟨0x5c :: c :: inner, rfl, .escaped h⟩)
      · obtain ⟨inner, rest, rfl, h⟩ | h | ⟨inner, rfl, h⟩ := ih text.length (by omega) text rfl
        · exact .inl ⟨b :: inner, rest, rfl, .plain hquote hslash h⟩
        · exact .inr (.inl (.plain hquote hslash h))
        · exact .inr (.inr ⟨b :: inner, rfl, .plain hquote hslash h⟩)

theorem exists_beforeParams (text : Bytes) : ∃ kept, BeforeParams text kept := by
  induction hn : text.length using Nat.strongRecOn generalizing text with
  | ind n ih =>
    cases text with
    | nil => exact ⟨[], .nil⟩
    | cons b text =>
      rw [List.length_cons] at hn
      by_cases hquote : b = 0x22
      · subst hquote
        obtain ⟨inner, rest, rfl, h⟩ | h | ⟨inner, rfl, h⟩ := inside_cases text
        · rw [List.length_append, List.length_cons] at hn
          obtain ⟨kept, hkept⟩ := ih rest.length (by omega) rest rfl
          exact ⟨_, .quoted h hkept⟩
        · exact ⟨_, .unclosed h⟩
        · exact ⟨_, .unclosedEscape h⟩
      by_cases hsemicolon : b = 0x3b
      · subst hsemicolon
        exact ⟨[], .params⟩
      · obtain ⟨kept, hkept⟩ := ih text.length (by omega) text rfl
        exact ⟨_, .plain hquote hsemicolon hkept⟩

theorem beforeParams_iff {text kept : Bytes} :
    BeforeParams text kept ↔ stripSfParameters text = kept := by
  refine ⟨strip_of_beforeParams, ?_⟩
  rintro rfl
  obtain ⟨kept, hkept⟩ := exists_beforeParams text
  rw [strip_of_beforeParams hkept]
  exact hkept

/-- A piece that begins and ends with a quote, when what follows a semicolon is left out. -/
def LooseString (piece : Bytes) : Prop :=
  ∃ kept, BeforeParams (Utf8.trim piece) kept ∧ (Utf8.trim kept).head? = some 0x22 ∧
    (Utf8.trim kept).getLast? = some 0x22 ∧ 2 ≤ (Utf8.trim kept).length

theorem looseString_iff (piece : Bytes) :
    LooseString piece ↔ ∃ s, parseSfItemString (Utf8.trim piece) = some s := by
  unfold LooseString parseSfItemString
  simp only [beforeParams_iff, Utf8.trim_trim, exists_eq_left']
  constructor
  · intro h
    exact ⟨_, if_pos h⟩
  · rintro ⟨s, h⟩
    by_contra hnot
    rw [if_neg hnot] at h
    cases h

/-- The pieces between the commas look like strings or are blank, and none comes behind as many
strings as there may be. -/
structure Loose (value : Bytes) : Prop where
  some : ∃ piece ∈ splitComma value, Utf8.trim piece ≠ []
  strings : ∀ piece ∈ splitComma value, Utf8.trim piece ≠ [] → LooseString piece
  room : ∀ front piece behind, splitComma value = front ++ piece :: behind →
    (front.filter fun piece => !(Utf8.trim piece).isEmpty).length < MAX_SF_ELEMENTS

theorem reads_iff {n : Nat} {pieces : List Bytes} :
    (∃ ss, Reads n pieces ss) ↔
      (∀ piece ∈ pieces, Utf8.trim piece ≠ [] → LooseString piece) ∧
      ∀ front piece behind, pieces = front ++ piece :: behind →
        n + (front.filter fun piece => !(Utf8.trim piece).isEmpty).length < MAX_SF_ELEMENTS := by
  constructor
  · rintro ⟨ss, h⟩
    induction h with
    | nil => exact ⟨nofun, fun front piece behind h => absurd h (by simp)⟩
    | @blank n piece pieces ss hlt htrim hreads ih =>
      obtain ⟨hstrings, hroom⟩ := ih
      refine ⟨List.forall_mem_cons.mpr ⟨fun hne => absurd htrim hne, hstrings⟩, ?_⟩
      intro front p behind h
      cases front with
      | nil => exact hlt
      | cons first front =>
        obtain ⟨rfl, htail⟩ := List.cons.inj h
        rw [List.filter_cons, htrim]
        exact hroom front p behind htail
    | @string n piece s pieces ss hlt htrim hparse hreads ih =>
      obtain ⟨hstrings, hroom⟩ := ih
      refine ⟨List.forall_mem_cons.mpr ⟨fun _ => (looseString_iff piece).mpr ⟨s, hparse⟩, hstrings⟩,
        ?_⟩
      intro front p behind h
      cases front with
      | nil => exact hlt
      | cons first front =>
        obtain ⟨rfl, htail⟩ := List.cons.inj h
        have hmore := hroom front p behind htail
        rw [List.filter_cons, if_pos (by rwa [Bool.not_eq_true', List.isEmpty_eq_false_iff]),
          List.length_cons]
        omega
  · rintro ⟨hstrings, hroom⟩
    induction pieces generalizing n with
    | nil => exact ⟨[], .nil⟩
    | cons piece pieces ih =>
      have hlt : n < MAX_SF_ELEMENTS := hroom [] piece pieces rfl
      obtain ⟨hstring, hstrings⟩ := List.forall_mem_cons.mp hstrings
      by_cases htrim : Utf8.trim piece = []
      · obtain ⟨ss, hreads⟩ := ih hstrings fun front p behind h => by
          have hmore := hroom (piece :: front) p behind (by rw [h]; rfl)
          rw [List.filter_cons, htrim] at hmore
          exact hmore
        exact ⟨ss, .blank hlt htrim hreads⟩
      · obtain ⟨s, hparse⟩ := (looseString_iff piece).mp (hstring htrim)
        obtain ⟨ss, hreads⟩ := ih (n := n + 1) hstrings fun front p behind h => by
          have hmore := hroom (piece :: front) p behind (by rw [h]; rfl)
          rw [List.filter_cons, if_pos (by rwa [Bool.not_eq_true', List.isEmpty_eq_false_iff]),
            List.length_cons] at hmore
          omega
        exact ⟨s :: ss, .string hlt htrim hparse hreads⟩

theorem loose_iff {value : Bytes} (hlen : value.length ≤ MAX_SF_INPUT_LEN)
    (hctl : ∀ b ∈ value, 0x20 ≤ b ∧ b ≠ 0x7f) : parseSfListStrings value ≠ [] ↔ Loose value := by
  have htaken : ∀ ss, Reads 0 (splitComma value) ss →
      (ss ≠ [] ↔ ∃ piece ∈ splitComma value, Utf8.trim piece ≠ []) := by
    intro ss hreads
    rw [← List.length_pos_iff, reads_length hreads, List.length_pos_iff_exists_mem]
    simp only [List.mem_filter, Bool.not_eq_true', List.isEmpty_eq_false_iff, ne_eq]
  rw [parseSfListStrings_eq hlen hctl]
  constructor
  · intro hne
    obtain ⟨ss, hreads⟩ := reads_of_parseItems hne
    rw [parseItems_of_reads hreads] at hne
    obtain ⟨hstrings, hroom⟩ := reads_iff.mp ⟨ss, hreads⟩
    refine ⟨(htaken ss hreads).mp hne, hstrings, fun front piece behind h => ?_⟩
    have hmore := hroom front piece behind h
    rwa [List.length_nil, Nat.zero_add] at hmore
  · rintro ⟨hsome, hstrings, hroom⟩
    obtain ⟨ss, hreads⟩ := reads_iff.mpr ⟨hstrings, fun front piece behind h => by
      rw [Nat.zero_add]
      exact hroom front piece behind h⟩
    rw [@parseItems_of_reads _ ss [] hreads]
    exact (htaken ss hreads).mpr hsome

/-! ## Agreement with the grammar -/

theorem trim_blank {s : Bytes} (h : Ows s) : Utf8.trim s = [] := by
  have hstart : Utf8.trimStart s = [] := by
    have hall := @Utf8.dropWords_all Utf8.whiteSpace 0 s
      (fun b hb rest => (Utf8.find_blank (h b hb) rest).1) []
    rw [Nat.add_zero, List.append_nil] at hall
    exact hall
  rw [Utf8.trim, hstart]
  rfl

theorem members_ne_nil {text : Bytes} {ss : List Bytes} (h : Members text ss) : ss ≠ [] := by
  cases h with
  | last => exact List.cons_ne_nil _ _
  | cons => exact List.cons_ne_nil _ _

/-- What the parser says of a value is what the grammar says, exactly when the commas of a List of
Strings only separate its members and a value of another kind does not look like one. -/
theorem sf_list_agreement (value : Bytes) (hlen : value.length ≤ MAX_SF_INPUT_LEN)
    (hctl : ∀ b ∈ value, 0x20 ≤ b ∧ b ≠ 0x7f) :
    ((∀ ss, StringList value ss → ss.length ≤ MAX_SF_ELEMENTS → parseSfListStrings value = ss) ∧
      ((∀ ss, ¬ StringList value ss) → parseSfListStrings value = [])) ↔
    (∀ ss, StringList value ss → ss.length ≤ MAX_SF_ELEMENTS →
      ss = [] ∨ value.count 0x2c < ss.length) ∧
      ((∀ ss, ¬ StringList value ss) → ¬ Loose value) := by
  have hlist : ∀ ss, StringList value ss → ss.length ≤ MAX_SF_ELEMENTS →
      (parseSfListStrings value = ss ↔ ss = [] ∨ value.count 0x2c < ss.length) := by
    intro ss hss hmost
    by_cases hne : ss = []
    · subst hne
      refine iff_of_true ?_ (.inl rfl)
      have hspaces : Spaces value := by
        generalize hnil : ([] : List Bytes) = ss at hss
        cases hss with
        | empty hspaces => exact hspaces
        | members hspaces hmembers => exact absurd hnil.symm (members_ne_nil hmembers)
      have hows : Ows value := fun b hb => by
        rw [hspaces b hb]
        rfl
      by_contra hparse
      obtain ⟨⟨piece, hmem, htrim⟩, -, -⟩ := (loose_iff hlen hctl).mp hparse
      rw [splitComma_single (ows_notMem hows), List.mem_singleton] at hmem
      rw [hmem] at htrim
      exact htrim (trim_blank hows)
    · rw [parse_members_iff hlen hctl hss hne hmost, or_iff_right hne]
  refine and_congr ?_ ?_
  · exact forall_congr' fun ss => forall_congr' fun hss => forall_congr' fun hmost =>
      hlist ss hss hmost
  · refine forall_congr' fun _ => ?_
    rw [← loose_iff hlen hctl, ne_eq, not_not]

/-- The agreement at `"a"`. -/
theorem sf_list_agreement_single :
    ((∀ ss, StringList [0x22, 0x61, 0x22] ss → ss.length ≤ MAX_SF_ELEMENTS →
        parseSfListStrings [0x22, 0x61, 0x22] = ss) ∧
      ((∀ ss, ¬ StringList [0x22, 0x61, 0x22] ss) → parseSfListStrings [0x22, 0x61, 0x22] = [])) ↔
    (∀ ss, StringList [0x22, 0x61, 0x22] ss → ss.length ≤ MAX_SF_ELEMENTS →
      ss = [] ∨ [0x22, 0x61, 0x22].count 0x2c < ss.length) ∧
      ((∀ ss, ¬ StringList [0x22, 0x61, 0x22] ss) → ¬ Loose [0x22, 0x61, 0x22]) :=
  sf_list_agreement [0x22, 0x61, 0x22] (by decide) (by decide +kernel)

/-- `"a,b"` is a List of one String and read as none; `"a",` is no List and read as one String. -/
theorem comma_departures :
    (StringList [0x22, 0x61, 0x2c, 0x62, 0x22] [[0x61, 0x2c, 0x62]] ∧
      parseSfListStrings [0x22, 0x61, 0x2c, 0x62, 0x22] = []) ∧
    ((∀ ss, ¬ StringList [0x22, 0x61, 0x22, 0x2c] ss) ∧
      parseSfListStrings [0x22, 0x61, 0x22, 0x2c] = [[0x61]]) := by
  refine ⟨⟨?_, by decide⟩, fun ss h => ?_, by decide⟩
  · have hchars : Chars [0x61, 0x2c, 0x62] [0x61, 0x2c, 0x62] :=
      .unescaped rfl (.unescaped rfl (.unescaped rfl .nil))
    exact @StringList.members [] _ _ nofun
      (@Members.last _ _ [] (.intro hchars .nil) nofun)
  · generalize hvalue : ([0x22, 0x61, 0x22, 0x2c] : Bytes) = value at h
    cases h with
    | empty hspaces =>
      subst hvalue
      exact absurd (hspaces 0x22 List.mem_cons_self) (by decide)
    | members hspaces hmembers =>
      have hquote := ((spaces_quotes hspaces).append (members_quotes hmembers))
        [0x22, 0x61, 0x22] [] hvalue.symm
      cases hquote

end Http3.SfParser
