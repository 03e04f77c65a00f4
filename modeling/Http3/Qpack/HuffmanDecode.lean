import Mathlib.Data.List.Sort
import Http3.Lib.Writer
import Http3.Qpack.HuffmanCode

/-!
# What the Huffman decoder accepts

Every 30 bits start with a code word, so the decoder never holds more than 29 bits between two bytes.
What it accepts is code words followed by at most 7 ones, which is what the encoder writes.
-/

namespace Http3.Qpack.Huffman

/-! ## The code is complete -/

/-- Where a list of code words ends that stand behind each other, as ranges of 32-bit numbers. -/
def rangesEnd : Nat → List HuffmanSym → Option Nat
  | start, [] => some start
  | start, s :: table => if s.code = start then rangesEnd (start + 2 ^ (32 - s.bits)) table else none

/-- A number inside the ranges is in one of them. -/
theorem mem_of_rangesEnd {start stop v : Nat} {table : List HuffmanSym}
    (h : rangesEnd start table = some stop) (hv : start ≤ v) (hv' : v < stop) :
    ∃ s ∈ table, s.code ≤ v ∧ v < s.code + 2 ^ (32 - s.bits) := by
  induction table generalizing start with
  | nil =>
    cases h
    omega
  | cons s table ih =>
    unfold rangesEnd at h
    split at h
    · rename_i hcode
      by_cases hlt : v < start + 2 ^ (32 - s.bits)
      · exact ⟨s, List.mem_cons_self, by omega, by omega⟩
      · obtain ⟨t, ht, hrange⟩ := ih h (by omega)
        exact ⟨t, List.mem_cons_of_mem s ht, hrange⟩
    · cases h

theorem table_complete :
    rangesEnd 0 (huffmanTable.insertionSort fun s t => s.code ≤ t.code) = some (2 ^ 32) := by
  decide +kernel

/-- Thirty bits start with a code word. -/
theorem exists_word {acc n : Nat} (hacc : acc < 2 ^ n) (hn : 30 ≤ n) :
    ∃ s ∈ huffmanTable, word s <+: Bits.ofNat n acc := by
  obtain ⟨s, hs, hle, hlt⟩ := mem_of_rangesEnd table_complete (Nat.zero_le _) (current_lt hacc)
  have hs := (List.perm_insertionSort _ _).mem_iff.mp hs
  obtain ⟨-, hbits, -, hlow⟩ := wellFormed_of_mem hs
  refine ⟨s, hs, (matches_iff hs hacc).mp ⟨by omega, ?_⟩⟩
  rw [and_high (current_lt hacc) (Nat.sub_le 32 s.bits)]
  rw [Nat.shiftLeft_eq, Nat.shiftRight_eq_div_pow] at hlow ⊢
  have hpos := Nat.two_pow_pos (32 - s.bits)
  generalize 2 ^ (32 - s.bits) = size at hlow hlt hpos ⊢
  generalize s.code / size = c at hlow
  have hdiv : current acc n / size = c := by
    refine Nat.div_eq_of_lt_le (by omega) ?_
    rw [Nat.add_mul, Nat.one_mul]
    omega
  rw [hdiv, hlow]

/-! ## Searching -/

theorem search_some {acc n index i k : Nat} {table : List HuffmanSym}
    (hmem : ∀ t ∈ table, t ∈ huffmanTable) (hacc : acc < 2 ^ n)
    (h : search acc n index table = some (i, k)) :
    ∃ j s, i = index + j ∧ table[j]? = some s ∧ k = s.bits ∧ word s <+: Bits.ofNat n acc := by
  induction table generalizing index with
  | nil => cases h
  | cons t table ih =>
    simp only [search] at h
    split at h
    · rename_i hmatch
      cases h
      exact ⟨0, t, rfl, rfl, rfl, (matches_iff (hmem t List.mem_cons_self) hacc).mp hmatch⟩
    · obtain ⟨j, s, hi, hj, hk, hword⟩ := ih (fun u hu => hmem u (List.mem_cons_of_mem t hu)) h
      exact ⟨j + 1, s, by omega, hj, hk, hword⟩

theorem not_word_of_search_none {acc n index : Nat} {table : List HuffmanSym}
    (hmem : ∀ t ∈ table, t ∈ huffmanTable) (hacc : acc < 2 ^ n)
    (h : search acc n index table = none) : ∀ t ∈ table, ¬word t <+: Bits.ofNat n acc := by
  induction table generalizing index with
  | nil => exact fun _ ht => absurd ht List.not_mem_nil
  | cons t table ih =>
    simp only [search] at h
    split at h
    · cases h
    · rename_i hno
      intro u hu hword
      obtain rfl | hu := List.mem_cons.mp hu
      · exact hno ((matches_iff (hmem u List.mem_cons_self) hacc).mpr hword)
      · exact ih (fun u hu => hmem u (List.mem_cons_of_mem t hu)) h u hu hword

/-- Without a match there are at most 29 bits. -/
theorem lt_of_search_none {acc n : Nat} (hacc : acc < 2 ^ n)
    (h : search acc n 0 huffmanTable = none) : n < 30 := by
  by_contra hn
  obtain ⟨s, hs, hword⟩ := exists_word hacc (Nat.le_of_not_lt hn)
  exact not_word_of_search_none (fun _ ht => ht) hacc h s hs hword

/-! ## What is accepted -/

theorem words_append (a b : Bytes) : words (a ++ b) = words a ++ words b := List.flatMap_append

/-- The symbols that are matched stand at the front; the rest has at most 29 bits. -/
theorem decodeSymbols_sound (fuel : Nat) {acc n acc' n' : Nat} {out : Bytes} (hacc : acc < 2 ^ n)
    (hfuel : n ≤ fuel) (h : decodeSymbols fuel acc n = .ok (out, acc', n')) :
    Bits.ofNat n acc = words out ++ Bits.ofNat n' acc' ∧ acc' < 2 ^ n' ∧ n' < 30 := by
  induction fuel generalizing acc n out with
  | zero =>
    cases h
    exact ⟨rfl, hacc, by omega⟩
  | succ fuel ih =>
    unfold decodeSymbols at h
    split at h
    · split at h
      · rename_i hsearch
        cases h
        exact ⟨rfl, hacc, lt_of_search_none hacc hsearch⟩
      · rename_i index k hsearch
        obtain ⟨j, s, hj, hs, rfl, hword⟩ := search_some (fun _ ht => ht) hacc hsearch
        rw [Nat.zero_add] at hj
        subst hj
        split at h
        · cases h
        · rename_i hend
          split at h
          · cases h
          · rename_i rest hrest
            cases h
            have hlt : index < 256 := by
              obtain ⟨hlt, -⟩ := List.getElem?_eq_some_iff.mp hs
              rw [table_length] at hlt
              omega
            have hsym : sym (UInt8.ofNat index) = s := by
              have hget := sym_getElem? (UInt8.ofNat index)
              rw [UInt8.toNat_ofNat_of_lt' (by simpa using hlt), hs] at hget
              exact (Option.some.inj hget).symm
            have hbits := (wellFormed_of_mem (List.mem_of_getElem? hs)).1
            have hle : s.bits ≤ n := by simpa using hword.length_le
            have hmask : acc &&& ((1 <<< (n - s.bits)) - 1) = acc % 2 ^ (n - s.bits) := by
              rw [Nat.one_shiftLeft, Nat.and_two_pow_sub_one_eq_mod]
            rw [hmask] at hrest
            obtain ⟨hout, hacc', hn'⟩ :=
              ih (Nat.mod_lt _ (Nat.two_pow_pos _)) (by omega) hrest
            refine ⟨?_, hacc', hn'⟩
            obtain ⟨tail, htail⟩ := hword
            have hdrop : tail = Bits.ofNat (n - s.bits) acc := by
              rw [← Bits.drop_ofNat hle, ← htail, List.drop_left' (length_word _)]
            rw [Bits.ofNat_mod _ _ (Nat.le_refl _), ← hdrop] at hout
            rw [words_cons, hsym, List.append_assoc, ← hout, htail]
    · cases h
      exact ⟨rfl, hacc, by omega⟩

/-- Code words, then at most seven ones. -/
theorem decodeLoop_sound {bytes : Bytes} {acc n : Nat} {out : Bytes} (hacc : acc < 2 ^ n)
    (hn : n < 30) (h : decodeLoop acc n bytes = .ok out) :
    ∃ k ≤ 7, Bits.ofNat n acc ++ bits bytes = words out ++ List.replicate k true := by
  induction bytes generalizing acc n out with
  | nil =>
    simp only [decodeLoop] at h
    rw [bits_nil, List.append_nil]
    split at h
    · rename_i hle
      split at h
      · rename_i hones
        cases h
        rw [Nat.one_shiftLeft, Nat.and_two_pow_sub_one_eq_mod, Nat.mod_eq_of_lt hacc] at hones
        exact ⟨n, hle.2, by rw [hones, Bits.ofNat_two_pow_sub_one, words_nil, List.nil_append]⟩
      · cases h
    · split at h
      · cases h
      · cases h
        obtain rfl : n = 0 := by omega
        exact ⟨0, by omega, rfl⟩
  | cons byte bytes ih =>
    have hbyte : byte.toNat < 2 ^ 8 := byte.toNat_lt
    obtain ⟨hshift, hjoined⟩ := push_byte hacc hn.le byte
    unfold decodeLoop at h
    rw [hshift] at h
    split at h
    · cases h
    · rename_i first acc' n' hsymbols
      split at h
      · cases h
      · rename_i rest hrest
        cases h
        obtain ⟨hfirst, hacc', hn'⟩ := decodeSymbols_sound (n + 8) hjoined (Nat.le_refl _) hsymbols
        obtain ⟨k, hk, hbits⟩ := ih hacc' hn' hrest
        refine ⟨k, hk, ?_⟩
        rw [bits_cons, ← List.append_assoc, ← Bits.ofNat_shiftLeft_or hbyte, hfirst,
          List.append_assoc, hbits, words_append, List.append_assoc]

theorem bits_inj {a b : Bytes} (h : bits a = bits b) : a = b := by
  induction a generalizing b with
  | nil =>
    cases b with
    | nil => rfl
    | cons y b =>
      have hlen := congrArg List.length h
      simp only [bits_nil, bits_cons, List.length_nil, List.length_append, Bits.length_ofNat] at hlen
      omega
  | cons x a ih =>
    cases b with
    | nil =>
      have hlen := congrArg List.length h
      simp at hlen
    | cons y b =>
      obtain ⟨hfirst, hrest⟩ := List.append_inj h (by simp)
      rw [Bits.ofNat_inj x.toNat_lt y.toNat_lt] at hfirst
      rw [UInt8.toNat_inj.mp hfirst, ih hrest]

theorem bits_length (data : Bytes) : (bits data).length = 8 * data.length := by
  induction data with
  | nil => rfl
  | cons b data ih =>
    rw [bits_cons, List.length_append, Bits.length_ofNat, ih, List.length_cons]
    omega

/-! ## The code as a whole -/

/-- The bits decide: code words and at most seven ones. -/
theorem decode_iff_bits (d x : Bytes) :
    decode d = .ok x ↔ ∃ k ≤ 7, bits d = words x ++ List.replicate k true := by
  constructor
  · exact fun h => decodeLoop_sound Nat.one_pos (by decide) h
  · rintro ⟨k, hk, h⟩
    refine decodeLoop_words Nat.one_pos hk h fun b tail _ => ?_
    have := (wellFormed_of_mem (sym_mem b)).1
    omega

theorem decode_iff_encode (d x : Bytes) : decode d = .ok x ↔ encode x = d := by
  constructor
  · intro h
    obtain ⟨k, hk, hd⟩ := (decode_iff_bits d x).mp h
    obtain ⟨k', hk', he⟩ := encode_bits x
    have hlen := congrArg List.length hd
    have hlen' := congrArg List.length he
    rw [bits_length, List.length_append, List.length_replicate] at hlen hlen'
    obtain rfl : k = k' := by omega
    exact bits_inj (he.trans hd.symm)
  · rintro rfl
    exact decode_encode x

/-- What stands behind code words, unless another one starts there, has to be the ones at the end. -/
theorem rest_eq_ones {x y : Bytes} {rest : List Bool} {k : Nat} (hk : k ≤ 7)
    (h : words y ++ List.replicate k true = words x ++ rest)
    (hno : ∀ b, ¬word (sym b) <+: rest) : rest = List.replicate k true := by
  induction x generalizing y with
  | nil =>
    rw [words_nil, List.nil_append] at h
    cases y with
    | nil => exact h.symm
    | cons b y =>
      refine absurd ?_ (hno b)
      rw [← h, words_cons, List.append_assoc]
      exact List.prefix_append _ _
  | cons a x ih =>
    rw [words_cons, List.append_assoc] at h
    cases y with
    | nil =>
      rw [words_nil, List.nil_append] at h
      exact absurd ⟨_, h.symm⟩ (no_word_of_ones (sym_mem a) hk)
    | cons b y =>
      rw [words_cons, List.append_assoc] at h
      have hb : word (sym b) <+: word (sym a) ++ (words x ++ rest) := ⟨_, h⟩
      have ha : word (sym a) <+: word (sym a) ++ (words x ++ rest) := List.prefix_append _ _
      have hsame : a.toNat = b.toNat := by
        by_contra hne
        obtain hab | hba := List.prefix_or_prefix_of_prefix ha hb
        · exact not_prefix_of_ne (sym_getElem? a) (sym_getElem? b) hne hab
        · exact not_prefix_of_ne (sym_getElem? b) (sym_getElem? a) (Ne.symm hne) hba
      obtain rfl := UInt8.toNat_inj.mp hsame
      exact ih (List.append_cancel_left h)

/-- Encode into a buffer that has room for `encodedLen` bytes. -/
def encodeInto (data : Bytes) : SliceWriter UInt8 := fun buf =>
  if buf.length < encodedLen data then none
  else some ((encode data).length, encode data ++ buf.drop (encode data).length)

theorem encodeInto_writes (data : Bytes) : (encodeInto data).Writes (encode data) := by
  intro buf
  rw [encodeInto, ← encode_length]
  rfl

/-- The decoder accepts what the encoder writes and nothing else: neither other bits at the end, nor
the end symbol or part of a code word. `encodedLen` is the length of what is written. -/
theorem huffman_bijection :
    (∀ d x, decode d = .ok x ↔ encode x = d) ∧
      (∀ d x rest, bits d = words x ++ rest → (∀ b, ¬word (sym b) <+: rest) →
        (¬∃ k ≤ 7, rest = List.replicate k true) → ∀ y, decode d ≠ .ok y) ∧
      ∀ x, (encode x).length = encodedLen x ∧ (encodeInto x).Writes (encode x) := by
  refine ⟨decode_iff_encode, fun d x rest hd hno hpadding y h => ?_,
    fun x => ⟨encode_length x, encodeInto_writes x⟩⟩
  obtain ⟨k, hk, hbits⟩ := (decode_iff_bits d y).mp h
  exact hpadding ⟨k, hk, rest_eq_ones hk (hbits.symm.trans hd) hno⟩

end Http3.Qpack.Huffman
