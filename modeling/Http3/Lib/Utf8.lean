import Http3.Lib.Bytes

/-!
# Strings as their UTF-8 bytes

Validity, and the white space that trimming removes. In valid UTF-8 no encoding of a character
ends another one, so trimming the end may look at the bytes alone.
-/

namespace Utf8

/-- The ranges of the bytes that have to follow a first byte; `none` for no first byte. -/
def follow (b : UInt8) : Option (List (UInt8 × UInt8)) :=
  if b ≤ 0x7f then some []
  else if b < 0xc2 then none
  else if b ≤ 0xdf then some [(0x80, 0xbf)]
  else if b = 0xe0 then some [(0xa0, 0xbf), (0x80, 0xbf)]
  else if b = 0xed then some [(0x80, 0x9f), (0x80, 0xbf)]
  else if b ≤ 0xef then some [(0x80, 0xbf), (0x80, 0xbf)]
  else if b = 0xf0 then some [(0x90, 0xbf), (0x80, 0xbf), (0x80, 0xbf)]
  else if b ≤ 0xf3 then some [(0x80, 0xbf), (0x80, 0xbf), (0x80, 0xbf)]
  else if b = 0xf4 then some [(0x80, 0x8f), (0x80, 0xbf), (0x80, 0xbf)]
  else none

/-- Valid after a character whose bytes in the given ranges are still missing? -/
def isValidAfter : List (UInt8 × UInt8) → Bytes → Bool
  | missing, [] => missing.isEmpty
  | (lo, hi) :: missing, b :: bs => lo ≤ b && b ≤ hi && isValidAfter missing bs
  | [], b :: bs =>
    match follow b with
    | some missing => isValidAfter missing bs
    | none => false

def isValid (bs : Bytes) : Bool := isValidAfter [] bs

/-- The encodings of the white space characters. -/
def whiteSpace : List Bytes :=
  [[0x09], [0x0a], [0x0b], [0x0c], [0x0d], [0x20], [0xc2, 0x85], [0xc2, 0xa0],
    [0xe1, 0x9a, 0x80], [0xe2, 0x80, 0x80], [0xe2, 0x80, 0x81], [0xe2, 0x80, 0x82],
    [0xe2, 0x80, 0x83], [0xe2, 0x80, 0x84], [0xe2, 0x80, 0x85], [0xe2, 0x80, 0x86],
    [0xe2, 0x80, 0x87], [0xe2, 0x80, 0x88], [0xe2, 0x80, 0x89], [0xe2, 0x80, 0x8a],
    [0xe2, 0x80, 0xa8], [0xe2, 0x80, 0xa9], [0xe2, 0x80, 0xaf], [0xe2, 0x81, 0x9f],
    [0xe3, 0x80, 0x80]]

/-- Drop the given words from the front, at most `fuel` of them. -/
def dropWords (words : List Bytes) : Nat → Bytes → Bytes
  | 0, bs => bs
  | fuel + 1, bs =>
    match words.find? (List.isPrefixOf · bs) with
    | some w => dropWords words fuel (bs.drop w.length)
    | none => bs

def trimStart (bs : Bytes) : Bytes := dropWords whiteSpace bs.length bs

def trimEnd (bs : Bytes) : Bytes :=
  (dropWords (whiteSpace.map List.reverse) bs.length bs.reverse).reverse

def trim (bs : Bytes) : Bytes := trimEnd (trimStart bs)

/-! ## Cutting a string -/

/-- A byte that goes on with a character. -/
def isContinuation (b : UInt8) : Bool := 0x80 ≤ b && b ≤ 0xbf

/-- Ranges of bytes that go on with a character. -/
def Continuing (missing : List (UInt8 × UInt8)) : Prop :=
  ∀ r ∈ missing, 0x80 ≤ r.1 ∧ r.2 ≤ 0xbf

instance : DecidablePred Continuing := fun missing => List.decidableBAll _ missing

theorem follow_continuing : ∀ b : UInt8, ∀ missing ∈ follow b,
    Continuing missing ∧ isContinuation b = false :=
  Bytes.forall_byte (by decide +kernel)

theorem isContinuation_iff : ∀ b : UInt8, (b &&& 0xc0 ≠ 0x80) ↔ isContinuation b = false :=
  Bytes.forall_byte (by decide +kernel)

/-- A valid string may be cut where the next byte starts a character. -/
theorem isValidAfter_take {missing : List (UInt8 × UInt8)} {bs : Bytes}
    (hm : Continuing missing) (h : isValidAfter missing bs = true) (i : Nat) :
    isValidAfter missing (bs.take i) = true ↔
      bs.length ≤ i ∨ ∃ b ∈ bs[i]?, isContinuation b = false := by
  induction bs generalizing missing i with
  | nil =>
    rw [List.take_nil]
    exact iff_of_true h (.inl (Nat.zero_le i))
  | cons b bs ih =>
    cases missing with
    | nil =>
      rw [isValidAfter] at h
      cases hb : follow b with
      | none =>
        rw [hb] at h
        cases h
      | some next =>
        rw [hb] at h
        obtain ⟨hnext, hstart⟩ := follow_continuing b next hb
        cases i with
        | zero => exact iff_of_true rfl (.inr ⟨b, rfl, hstart⟩)
        | succ i =>
          rw [List.take_succ_cons, isValidAfter, hb]
          simp only [ih hnext h i, List.length_cons, Nat.add_le_add_iff_right,
            List.getElem?_cons_succ]
    | cons r missing =>
      obtain ⟨lo, hi⟩ := r
      obtain ⟨hlo, hhi⟩ := hm (lo, hi) List.mem_cons_self
      have hrest : Continuing missing := fun r hr => hm r (List.mem_cons_of_mem _ hr)
      simp only [isValidAfter, Bool.and_eq_true, decide_eq_true_eq] at h
      obtain ⟨⟨hb, hb'⟩, h⟩ := h
      cases i with
      | zero =>
        refine iff_of_false nofun ?_
        rintro (hle | ⟨b', hmem, hcont⟩)
        · exact absurd hle (Nat.not_succ_le_zero _)
        · cases hmem
          have hle : isContinuation b = true := by
            rw [isContinuation, decide_eq_true (UInt8.le_trans hlo hb),
              decide_eq_true (UInt8.le_trans hb' hhi)]
            rfl
          rw [hle] at hcont
          cases hcont
      | succ i =>
        simp only [List.take_succ_cons, isValidAfter, decide_eq_true hb, decide_eq_true hb',
          Bool.true_and, ih hrest h i, List.length_cons, Nat.add_le_add_iff_right,
          List.getElem?_cons_succ]

theorem isValid_ascii {bs : Bytes} (h : ∀ b ∈ bs, b ≤ 0x7f) : isValid bs = true := by
  unfold isValid
  induction bs with
  | nil => rfl
  | cons b bs ih =>
    rw [isValidAfter, follow, if_pos (h b List.mem_cons_self)]
    exact ih fun b hb => h b (List.mem_cons_of_mem _ hb)

/-! ## Trimming -/

section DropWords

variable {words : List Bytes} {fuel : Nat}

theorem dropWords_none {bs : Bytes} (h : words.find? (List.isPrefixOf · bs) = none) (fuel : Nat) :
    dropWords words fuel bs = bs := by
  cases fuel with
  | zero => rfl
  | succ fuel => rw [dropWords, h]

/-- When so many words may be dropped as there are bytes, none is left in front. -/
theorem dropWords_done (hwords : [] ∉ words) {bs : Bytes} (h : bs.length ≤ fuel) :
    words.find? (List.isPrefixOf · (dropWords words fuel bs)) = none := by
  have hnone : words.find? (List.isPrefixOf · ([] : Bytes)) = none := by
    rw [List.find?_eq_none]
    intro w hw
    cases w with
    | nil => exact absurd hw hwords
    | cons b w => exact Bool.false_ne_true
  induction fuel generalizing bs with
  | zero =>
    obtain rfl := List.length_eq_zero_iff.mp (Nat.le_zero.mp h)
    exact hnone
  | succ fuel ih =>
    rw [dropWords]
    cases hfind : words.find? (List.isPrefixOf · bs) with
    | none => exact hfind
    | some w =>
      refine ih ?_
      have hpos : 0 < w.length := by
        refine List.length_pos_iff.mpr ?_
        rintro rfl
        exact hwords (List.mem_of_find?_eq_some hfind)
      rw [List.length_drop]
      omega

/-- A byte of no word stops the dropping. -/
theorem dropWords_keep {c : UInt8} (hc : ∀ w ∈ words, c ∉ w) (fuel : Nat) (front rest : Bytes) :
    ∃ left, dropWords words fuel (front ++ c :: rest) = left ++ c :: rest ∧ left <:+ front := by
  induction fuel generalizing front with
  | zero => exact ⟨front, rfl, List.suffix_refl front⟩
  | succ fuel ih =>
    rw [dropWords]
    cases hfind : words.find? (List.isPrefixOf · (front ++ c :: rest)) with
    | none => exact ⟨front, rfl, List.suffix_refl front⟩
    | some w =>
      have hpre : w <+: front ++ c :: rest := by
        simpa using List.find?_some hfind
      have hle : w.length ≤ front.length := by
        by_contra hgt
        obtain ⟨tail, htail⟩ := hpre
        have hmem : c ∈ w := by
          have hget := congrArg (·[front.length]?) htail
          simp only [List.getElem?_append_left (Nat.not_le.mp hgt), List.getElem?_append_right
            (Nat.le_refl _), Nat.sub_self, List.getElem?_cons_zero] at hget
          exact List.mem_of_getElem? hget
        exact hc w (List.mem_of_find?_eq_some hfind) hmem
      obtain ⟨left, hleft, hsuffix⟩ := ih (front.drop w.length)
      refine ⟨left, ?_, hsuffix.trans (List.drop_suffix _ _)⟩
      simp only [List.drop_append_of_le_length hle]
      exact hleft

/-- Bytes that are words of their own are dropped. -/
theorem dropWords_all {front : Bytes}
    (h : ∀ b ∈ front, ∀ rest, words.find? (List.isPrefixOf · (b :: rest)) = some [b])
    (rest : Bytes) : dropWords words (front.length + fuel) (front ++ rest) =
      dropWords words fuel rest := by
  induction front with
  | nil => rw [List.length_nil, Nat.zero_add, List.nil_append]
  | cons b front ih =>
    rw [List.length_cons, Nat.add_right_comm, List.cons_append, dropWords,
      h b List.mem_cons_self (front ++ rest)]
    exact ih fun b hb => h b (List.mem_cons_of_mem _ hb)

end DropWords

/-- Space or tab. -/
def isBlank (b : UInt8) : Bool := b == 0x20 || b == 0x09

theorem find_blank {b : UInt8} (h : isBlank b = true) (rest : Bytes) :
    whiteSpace.find? (List.isPrefixOf · (b :: rest)) = some [b] ∧
      (whiteSpace.map List.reverse).find? (List.isPrefixOf · (b :: rest)) = some [b] := by
  rw [isBlank, Bool.or_eq_true, beq_iff_eq, beq_iff_eq] at h
  obtain rfl | rfl := h
  · exact ⟨rfl, rfl⟩
  · exact ⟨rfl, rfl⟩

/-- A byte of no white space. -/
def Solid (c : UInt8) : Prop := ∀ w ∈ whiteSpace, c ∉ w

instance : DecidablePred Solid := fun c => by unfold Solid; infer_instance

section Trim

variable {c : UInt8} (hc : Solid c)

include hc

theorem solid_reverse : ∀ w ∈ whiteSpace.map List.reverse, c ∉ w := by
  intro w hw
  obtain ⟨word, hword, rfl⟩ := List.mem_map.mp hw
  rw [List.mem_reverse]
  exact hc word hword

theorem mem_trim {bs : Bytes} (h : c ∈ bs) : c ∈ trim bs := by
  obtain ⟨front, rest, rfl⟩ := List.append_of_mem h
  obtain ⟨left, hleft, -⟩ := dropWords_keep hc (front ++ c :: rest).length front rest
  have hrev : (left ++ c :: rest).reverse = rest.reverse ++ c :: left.reverse := by
    simp only [List.reverse_append, List.reverse_cons, List.append_assoc, List.singleton_append]
  obtain ⟨right, hright, -⟩ :=
    dropWords_keep (solid_reverse hc) (left ++ c :: rest).length rest.reverse left.reverse
  rw [trim, trimStart, hleft, trimEnd, hrev, hright, List.mem_reverse]
  exact List.mem_append_right _ List.mem_cons_self

theorem trimStart_eq {lead : Bytes} (hlead : ∀ b ∈ lead, isBlank b = true) (rest : Bytes) :
    trimStart (lead ++ c :: rest) = c :: rest := by
  obtain ⟨left, hleft, hsuffix⟩ := dropWords_keep hc (c :: rest).length [] rest
  rw [trimStart, List.length_append, dropWords_all fun b hb r => (find_blank (hlead b hb) r).1]
  rw [List.suffix_nil.mp hsuffix] at hleft
  exact hleft

/-- The end is trimmed up to a solid byte at most, and blanks are trimmed. -/
theorem trimEnd_eq (front behind : Bytes) :
    ∃ kept, trimEnd (front ++ c :: behind) = front ++ c :: kept ∧ kept <+: behind ∧
      ((∀ b ∈ behind, isBlank b = true) → kept = []) := by
  have hrev : (front ++ c :: behind).reverse = behind.reverse ++ c :: front.reverse := by
    simp only [List.reverse_append, List.reverse_cons, List.append_assoc, List.singleton_append]
  obtain ⟨left, hleft, hsuffix⟩ := dropWords_keep (solid_reverse hc)
    (front ++ c :: behind).length behind.reverse front.reverse
  refine ⟨left.reverse, ?_, ?_, fun hblank => ?_⟩
  · rw [trimEnd, hrev, hleft]
    simp only [List.reverse_append, List.reverse_cons, List.reverse_reverse, List.append_assoc,
      List.singleton_append]
  · rw [← List.reverse_suffix, List.reverse_reverse]
    exact hsuffix
  · have hlen : (front ++ c :: behind).length = behind.reverse.length + (front.length + 1) := by
      rw [List.length_append, List.length_cons, List.length_reverse]
      omega
    have hall : ∀ b ∈ behind.reverse, ∀ rest,
        (whiteSpace.map List.reverse).find? (List.isPrefixOf · (b :: rest)) = some [b] :=
      fun b hb rest => (find_blank (hblank b (List.mem_reverse.mp hb)) rest).2
    obtain ⟨none, hnone, hnil⟩ :=
      dropWords_keep (solid_reverse hc) (front.length + 1) [] front.reverse
    rw [List.suffix_nil.mp hnil] at hnone
    rw [hlen, dropWords_all hall] at hleft
    have heq : left ++ c :: front.reverse = [] ++ c :: front.reverse := hleft.symm.trans hnone
    rw [List.append_cancel_right heq, List.reverse_nil]

end Trim

theorem trim_trim (bs : Bytes) : trim (trim bs) = trim bs := by
  have hwords : [] ∉ whiteSpace := by decide
  have hwords' : [] ∉ whiteSpace.map List.reverse := by decide
  have hpre : trimEnd (trimStart bs) <+: trimStart bs := by
    have hsuffix : ∀ (words : List Bytes) (fuel : Nat) (bs : Bytes),
        dropWords words fuel bs <:+ bs := by
      intro words fuel
      induction fuel with
      | zero => exact List.suffix_refl
      | succ fuel ih =>
        intro bs
        rw [dropWords]
        split
        · exact (ih _).trans (List.drop_suffix _ _)
        · exact List.suffix_refl bs
    rw [← List.reverse_suffix, trimEnd, List.reverse_reverse]
    exact hsuffix _ _ _
  have hstart : whiteSpace.find? (List.isPrefixOf · (trimStart bs)) = none :=
    dropWords_done hwords (Nat.le_refl _)
  have hnone : whiteSpace.find? (List.isPrefixOf · (trim bs)) = none := by
    rw [List.find?_eq_none] at hstart ⊢
    intro w hw hprefix
    refine hstart w hw ?_
    rw [List.isPrefixOf_iff_prefix] at hprefix ⊢
    exact hprefix.trans hpre
  have hend : (whiteSpace.map List.reverse).find? (List.isPrefixOf · (trim bs).reverse) = none := by
    rw [trim, trimEnd, List.reverse_reverse]
    exact dropWords_done hwords' (by rw [List.length_reverse])
  rw [trim, trimStart, dropWords_none hnone, trimEnd, dropWords_none hend, List.reverse_reverse]

end Utf8
