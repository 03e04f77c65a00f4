import Http3.Lib.Bits
import Http3.Qpack.Huffman

/-!
# The Huffman code is read back

No code word is the start of another one, nor of the ones that fill the last byte, so the decoder
finds the symbols one after another whatever bytes they are spread over.
-/

namespace Http3.Qpack.Huffman

/-- The bits of a code word. -/
def word (s : HuffmanSym) : List Bool := Bits.ofNat s.bits (s.code >>> (32 - s.bits))

def bits (data : Bytes) : List Bool := data.flatMap fun b => Bits.ofNat 8 b.toNat

@[simp] theorem bits_nil : bits [] = [] := rfl

@[simp] theorem bits_cons (b : UInt8) (data : Bytes) :
    bits (b :: data) = Bits.ofNat 8 b.toNat ++ bits data := rfl

@[simp] theorem bits_append (a b : Bytes) : bits (a ++ b) = bits a ++ bits b := List.flatMap_append

/-- The code words of a string. -/
def words (data : Bytes) : List Bool := data.flatMap fun b => word (sym b)

@[simp] theorem words_nil : words [] = [] := rfl

@[simp] theorem words_cons (b : UInt8) (data : Bytes) :
    words (b :: data) = word (sym b) ++ words data := rfl

@[simp] theorem length_word (s : HuffmanSym) : (word s).length = s.bits := Bits.length_ofNat _ _

/-! ## The table -/

/-- At the top of 32 bits, with nothing behind. -/
def HuffmanSym.wellFormed (s : HuffmanSym) : Bool :=
  decide (5 ≤ s.bits) && decide (s.bits ≤ 30) && decide (s.code < 2 ^ 32) &&
    s.code == (s.code >>> (32 - s.bits)) <<< (32 - s.bits)

theorem table_wellFormed : ∀ s ∈ huffmanTable, s.wellFormed = true := by decide +kernel

/-- Is the first code word the start of the second one? -/
def HuffmanSym.starts (s t : HuffmanSym) : Bool :=
  decide (s.bits ≤ t.bits) && t.code >>> (32 - s.bits) == s.code >>> (32 - s.bits)

/-- The codes differ before the end of either one. -/
def HuffmanSym.apart (s t : HuffmanSym) : Bool :=
  Nat.ble (2 ^ (32 - s.bits)) (s.code ^^^ t.code) && Nat.ble (2 ^ (32 - t.bits)) (s.code ^^^ t.code)

theorem not_starts_of_le {s t : HuffmanSym} (h : 2 ^ (32 - s.bits) ≤ s.code ^^^ t.code) :
    s.starts t = false := by
  refine Bool.eq_false_iff.mpr fun hstarts => ?_
  simp only [HuffmanSym.starts, Bool.and_eq_true, beq_iff_eq] at hstarts
  have hzero : (s.code ^^^ t.code) >>> (32 - s.bits) = 0 := by
    rw [Nat.shiftRight_xor_distrib, hstarts.2, Nat.xor_self]
  rw [Nat.shiftRight_eq_div_pow] at hzero
  have hlt := Nat.lt_of_div_eq_zero (Nat.two_pow_pos _) hzero
  omega

/-- Each of the list is apart from those behind it. -/
def allApart : List HuffmanSym → Bool
  | [] => true
  | s :: l => l.all s.apart && allApart l

theorem pairwise_of_allApart {l : List HuffmanSym} (h : allApart l = true) :
    l.Pairwise fun s t => (s.starts t || t.starts s) = false := by
  induction l with
  | nil => exact .nil
  | cons s l ih =>
    obtain ⟨hs, hl⟩ := Bool.and_eq_true_iff.mp h
    refine .cons (fun t ht => ?_) (ih hl)
    obtain ⟨hst, hts⟩ := Bool.and_eq_true_iff.mp (List.all_eq_true.mp hs t ht)
    rw [not_starts_of_le (Nat.le_of_ble_eq_true hst), Bool.false_or]
    rw [Nat.xor_comm] at hts
    exact not_starts_of_le (Nat.le_of_ble_eq_true hts)

theorem table_pairwise : huffmanTable.Pairwise fun s t => (s.starts t || t.starts s) = false :=
  pairwise_of_allApart (by decide +kernel)

theorem wellFormed_of_mem {s : HuffmanSym} (h : s ∈ huffmanTable) :
    5 ≤ s.bits ∧ s.bits ≤ 30 ∧ s.code < 2 ^ 32 ∧
      s.code = (s.code >>> (32 - s.bits)) <<< (32 - s.bits) := by
  have hwf := table_wellFormed s h
  simp only [HuffmanSym.wellFormed, Bool.and_eq_true, decide_eq_true_eq, beq_iff_eq] at hwf
  exact ⟨hwf.1.1.1, hwf.1.1.2, hwf.1.2, hwf.2⟩

/-- The bits of a code word are a number below two to their count. -/
theorem code_shift_lt {s : HuffmanSym} (h : s ∈ huffmanTable) :
    s.code >>> (32 - s.bits) < 2 ^ s.bits := by
  obtain ⟨-, hle, hcode, -⟩ := wellFormed_of_mem h
  rw [Nat.shiftRight_eq_div_pow, Nat.div_lt_iff_lt_mul (Nat.two_pow_pos _), ← Nat.pow_add]
  rwa [show s.bits + (32 - s.bits) = 32 by omega]

theorem word_prefix_iff {s : HuffmanSym} (h : s ∈ huffmanTable) {n v : Nat} (hv : v < 2 ^ n) :
    word s <+: Bits.ofNat n v ↔ s.bits ≤ n ∧ v >>> (n - s.bits) = s.code >>> (32 - s.bits) :=
  Bits.ofNat_prefix_iff (code_shift_lt h) hv

theorem starts_of_prefix {s t : HuffmanSym} (hs : s ∈ huffmanTable) (ht : t ∈ huffmanTable)
    (h : word s <+: word t) : s.starts t = true := by
  have hle : s.bits ≤ t.bits := by simpa using h.length_le
  obtain ⟨-, htle, htcode, -⟩ := wellFormed_of_mem ht
  obtain ⟨-, heq⟩ := (word_prefix_iff hs (code_shift_lt ht)).mp h
  rw [← Nat.shiftRight_add, show 32 - t.bits + (t.bits - s.bits) = 32 - s.bits by omega] at heq
  simp [HuffmanSym.starts, hle, heq]

/-- The position of a code word tells it from the others. -/
theorem not_prefix_of_ne {i j : Nat} {s t : HuffmanSym} (hi : huffmanTable[i]? = some s)
    (hj : huffmanTable[j]? = some t) (hne : i ≠ j) : ¬word s <+: word t := by
  intro h
  obtain ⟨hilt, hi'⟩ := List.getElem?_eq_some_iff.mp hi
  obtain ⟨hjlt, hj'⟩ := List.getElem?_eq_some_iff.mp hj
  have hstarts := starts_of_prefix (List.mem_of_getElem? hi) (List.mem_of_getElem? hj) h
  have hpair := List.pairwise_iff_getElem.mp table_pairwise
  rcases Nat.lt_or_gt_of_ne hne with hlt | hlt
  · have := hpair i j hilt hjlt hlt
    rw [hi', hj', hstarts] at this
    cases this
  · have := hpair j i hjlt hilt hlt
    rw [hi', hj', hstarts, Bool.or_true] at this
    cases this

theorem table_length : huffmanTable.length = 257 := by decide +kernel

theorem sym_getElem? (b : UInt8) : huffmanTable[b.toNat]? = some (sym b) := by
  have hlt : b.toNat < huffmanTable.length := by
    rw [table_length]
    exact b.toNat_lt.trans (by decide)
  rw [sym, List.getD_eq_getElem?_getD, List.getElem?_eq_getElem hlt, Option.getD_some]

theorem sym_mem (b : UInt8) : sym b ∈ huffmanTable := List.mem_of_getElem? (sym_getElem? b)

/-- Seven ones do not start with a code word. -/
theorem no_word_of_ones {s : HuffmanSym} (h : s ∈ huffmanTable) {k : Nat} (hk : k ≤ 7) :
    ¬word s <+: List.replicate k true := by
  have key : ∀ s ∈ huffmanTable, ∀ k ≤ 7,
      ¬(s.bits ≤ k ∧ (2 ^ k - 1) >>> (k - s.bits) = s.code >>> (32 - s.bits)) := by decide +kernel
  rw [← Bits.ofNat_two_pow_sub_one, word_prefix_iff h (Nat.sub_lt (Nat.two_pow_pos k) Nat.one_pos)]
  exact key s h k hk

/-! ## Encoding -/

/-- The accumulator holds `n` bits at its top, the bits of `v`. -/
theorem drain_bits (fuel : Nat) {v n : Nat} (hv : v < 2 ^ n) (hn : n ≤ 64)
    (hfuel : n < 8 * (fuel + 1)) : ∃ out v' n', n' < 8 ∧ v' < 2 ^ n' ∧
      drain fuel (v <<< (64 - n)) n = (out, v' <<< (64 - n'), n') ∧
      bits out ++ Bits.ofNat n' v' = Bits.ofNat n v := by
  induction fuel generalizing v n with
  | zero => exact ⟨[], v, n, by omega, hv, rfl, rfl⟩
  | succ fuel ih =>
    unfold drain
    split
    · rename_i hge
      have hrest : ((v <<< (64 - n)) <<< 8) % 2 ^ 64 = (v % 2 ^ (n - 8)) <<< (64 - (n - 8)) := by
        refine Nat.eq_of_testBit_eq fun j => ?_
        simp only [Nat.testBit_mod_two_pow, Nat.testBit_shiftLeft]
        by_cases h₁ : j < 64 <;> by_cases h₂ : j ≥ 64 - (n - 8)
        · simp [h₁, h₂, show j ≥ 8 by omega, show j - 8 ≥ 64 - n by omega,
            show j - (64 - (n - 8)) < n - 8 by omega, show j - 8 - (64 - n) = j - (64 - (n - 8)) by omega]
        · simp [h₂]
          omega
        · simp [h₁, show ¬j - (64 - (n - 8)) < n - 8 by omega]
        · simp [h₁, h₂]
      have hbyte : (UInt8.ofNat ((v <<< (64 - n)) >>> 56)).toNat = v >>> (n - 8) := by
        have hshift : (v <<< (64 - n)) >>> 56 = v >>> (n - 8) := by
          refine Nat.eq_of_testBit_eq fun j => ?_
          simp only [Nat.testBit_shiftRight, Nat.testBit_shiftLeft]
          rw [show 56 + j - (64 - n) = n - 8 + j by omega, decide_eq_true (by omega), Bool.true_and]
        rw [hshift, UInt8.toNat_ofNat', Nat.mod_eq_of_lt]
        rw [Nat.shiftRight_eq_div_pow, Nat.div_lt_iff_lt_mul (Nat.two_pow_pos _), ← Nat.pow_add]
        exact hv.trans_le (Nat.pow_le_pow_right (by decide) (by omega))
      obtain ⟨out, v', n', hn', hv', hdrain, hbits⟩ := ih (v := v % 2 ^ (n - 8)) (n := n - 8)
        (Nat.mod_lt _ (Nat.two_pow_pos _)) (by omega) (by omega)
      refine ⟨_ :: out, v', n', hn', hv', by rw [hrest, hdrain], ?_⟩
      rw [bits_cons, List.append_assoc, hbits, hbyte, Bits.ofNat_mod _ _ (Nat.le_refl _),
        ← Bits.ofNat_add, Nat.add_sub_cancel' hge]
    · exact ⟨[], v, n, by omega, hv, rfl, rfl⟩

/-- The bytes are the code words one after another, filled up with less than eight ones. -/
theorem encodeLoop_bits (data : Bytes) {v n : Nat} (hv : v < 2 ^ n) (hn : n < 8) :
    ∃ k ≤ 7, bits (encodeLoop (v <<< (64 - n)) n data) =
      Bits.ofNat n v ++ words data ++ List.replicate k true := by
  induction data generalizing v n with
  | nil =>
    unfold encodeLoop
    split
    · have hones : (1 <<< (8 - n)) - 1 < 2 ^ (8 - n) := by
        rw [Nat.one_shiftLeft]
        exact Nat.sub_lt (Nat.two_pow_pos _) Nat.one_pos
      have hshift : (v <<< (64 - n)) >>> 56 = v <<< (8 - n) := by
        refine Nat.eq_of_testBit_eq fun j => ?_
        simp only [Nat.testBit_shiftRight, Nat.testBit_shiftLeft]
        rw [show 56 + j - (64 - n) = j - (8 - n) by omega]
        congr 1
        rw [decide_eq_decide]
        omega
      have htop : v <<< (8 - n) < 2 ^ 8 := by
        rw [Nat.shiftLeft_eq]
        calc v * 2 ^ (8 - n) < 2 ^ n * 2 ^ (8 - n) :=
              Nat.mul_lt_mul_of_pos_right hv (Nat.two_pow_pos _)
          _ = 2 ^ 8 := by rw [← Nat.pow_add]; congr 1; omega
      have hlow : (1 <<< (8 - n)) - 1 < 2 ^ 8 :=
        hones.trans_le (Nat.pow_le_pow_right (by decide) (by omega))
      have hbyte : (UInt8.ofNat ((v <<< (64 - n)) >>> 56) ||| UInt8.ofNat ((1 <<< (8 - n)) - 1)).toNat =
          v <<< (8 - n) ||| ((1 <<< (8 - n)) - 1) := by
        rw [hshift, UInt8.toNat_or, UInt8.toNat_ofNat', UInt8.toNat_ofNat', Nat.mod_eq_of_lt htop,
          Nat.mod_eq_of_lt hlow]
      refine ⟨8 - n, by omega, ?_⟩
      rw [bits_cons, hbyte, bits_nil, List.append_nil, words_nil, List.append_nil,
        ← Bits.ofNat_two_pow_sub_one, ← Nat.one_shiftLeft, ← Bits.ofNat_shiftLeft_or hones,
        Nat.add_sub_cancel' hn.le]
    · obtain rfl : n = 0 := by omega
      exact ⟨0, Nat.zero_le 7, rfl⟩
  | cons b data ih =>
    obtain ⟨hge, hle, hcode, hlow⟩ := wellFormed_of_mem (sym_mem b)
    have hw := code_shift_lt (sym_mem b)
    have hword : word (sym b) = Bits.ofNat (sym b).bits ((sym b).code >>> (32 - (sym b).bits)) := rfl
    simp only [encodeLoop]
    generalize (sym b).bits = width at hge hle hlow hw hword ⊢
    generalize (sym b).code >>> (32 - width) = w at hlow hw hword
    have hacc : v <<< (64 - n) ||| (((sym b).code <<< 32) >>> n) =
        (v <<< width ||| w) <<< (64 - (n + width)) := by
      rw [hlow, ← Nat.shiftLeft_add, show 32 - width + 32 = n + (64 - (n + width)) by omega,
        Nat.add_comm n (64 - _), Nat.shiftLeft_add, Nat.shiftLeft_shiftRight,
        Nat.shiftLeft_or_distrib, ← Nat.shiftLeft_add, show width + (64 - (n + width)) = 64 - n by omega]
    have hjoined : v <<< width ||| w < 2 ^ (n + width) := by
      refine Nat.or_lt_two_pow ?_ (hw.trans_le (Nat.pow_le_pow_right (by decide) (by omega)))
      rw [Nat.shiftLeft_eq, Nat.pow_add]
      exact Nat.mul_lt_mul_of_pos_right hv (Nat.two_pow_pos _)
    obtain ⟨out, v', n', hn', hv', hdrain, hbits⟩ := drain_bits 8 hjoined (by omega) (by omega)
    obtain ⟨k, hk, hrest⟩ := ih hv' hn'
    refine ⟨k, hk, ?_⟩
    rw [hacc, hdrain, bits_append, hrest, words_cons, hword, ← List.append_assoc,
      ← List.append_assoc, hbits, Bits.ofNat_shiftLeft_or hw, List.append_assoc (Bits.ofNat n v)]

/-- The bits of an encoded string. -/
theorem encode_bits (data : Bytes) :
    ∃ k ≤ 7, bits (encode data) = words data ++ List.replicate k true := by
  obtain ⟨k, hk, h⟩ := encodeLoop_bits data (v := 0) (n := 0) Nat.one_pos (by decide)
  exact ⟨k, hk, h⟩

/-! ## Searching -/

theorem current_eq {acc n : Nat} (h : acc < 2 ^ n) :
    current acc n = if n ≥ 32 then acc >>> (n - 32) else acc <<< (32 - n) := by
  unfold current
  split
  · refine Nat.mod_eq_of_lt ?_
    rw [Nat.shiftRight_eq_div_pow, Nat.div_lt_iff_lt_mul (Nat.two_pow_pos _), ← Nat.pow_add]
    exact h.trans_le (Nat.pow_le_pow_right (by decide) (by omega))
  · refine Nat.mod_eq_of_lt ?_
    rw [Nat.shiftLeft_eq]
    calc acc * 2 ^ (32 - n) < 2 ^ n * 2 ^ (32 - n) :=
          Nat.mul_lt_mul_of_pos_right h (Nat.two_pow_pos _)
      _ = 2 ^ 32 := by rw [← Nat.pow_add]; congr 1; omega

theorem current_lt {acc n : Nat} (_ : acc < 2 ^ n) : current acc n < 2 ^ 32 := by
  unfold current
  split <;> exact Nat.mod_lt _ (Nat.two_pow_pos 32)

theorem current_shift {acc n k : Nat} (h : acc < 2 ^ n) (hk : k ≤ n) (hk' : k ≤ 32) :
    current acc n >>> (32 - k) = acc >>> (n - k) := by
  rw [current_eq h]
  split
  · rw [← Nat.shiftRight_add]
    congr 1
    omega
  · rw [show 32 - k = 32 - n + (n - k) by omega, Nat.shiftRight_add, Nat.shiftLeft_shiftRight]

/-- The mask of a code word clears the bits behind it. -/
theorem and_high {c k : Nat} (hc : c < 2 ^ 32) (hk : k ≤ 32) :
    c &&& (0xffffffff - ((1 <<< k) - 1)) = (c >>> k) <<< k := by
  have hmask : 0xffffffff - ((1 <<< k) - 1) = (2 ^ (32 - k) - 1) <<< k := by
    rw [Nat.one_shiftLeft, Nat.shiftLeft_eq, Nat.sub_mul, ← Nat.pow_add, Nat.sub_add_cancel hk]
    have := Nat.two_pow_pos k
    omega
  rw [hmask]
  refine Nat.eq_of_testBit_eq fun j => ?_
  simp only [Nat.testBit_and, Nat.testBit_shiftLeft, Nat.testBit_shiftRight,
    Nat.testBit_two_pow_sub_one]
  by_cases hj : k ≤ j
  · by_cases hj' : j < 32
    · simp [hj, show j - k < 32 - k by omega, Nat.add_sub_cancel' hj]
    · have hzero : c.testBit j = false := Nat.testBit_lt_two_pow
        (hc.trans_le (Nat.pow_le_pow_right (by decide) (Nat.le_of_not_lt hj')))
      simp [hj, Nat.add_sub_cancel' hj, hzero]
  · simp [hj]

/-- What `search` looks for: the unmatched bits start with the code word. -/
theorem matches_iff {s : HuffmanSym} (h : s ∈ huffmanTable) {acc n : Nat} (hacc : acc < 2 ^ n) :
    (s.bits ≤ n ∧ current acc n &&& (0xffffffff - ((1 <<< (32 - s.bits)) - 1)) = s.code) ↔
      word s <+: Bits.ofNat n acc := by
  obtain ⟨-, hle, hcode, hlow⟩ := wellFormed_of_mem h
  rw [word_prefix_iff h hacc]
  refine and_congr_right fun hn => ?_
  rw [and_high (current_lt hacc) (Nat.sub_le 32 s.bits), current_shift hacc hn (by omega)]
  constructor
  · intro heq
    rw [← heq, Nat.shiftLeft_shiftRight]
  · intro heq
    rw [heq, ← hlow]

/-- A code word is found where it stands. -/
theorem search_eq {acc n : Nat} {i : Nat} {s : HuffmanSym} {table : List HuffmanSym}
    (hmem : ∀ t ∈ table, t ∈ huffmanTable) (hacc : acc < 2 ^ n) (index : Nat)
    (hi : table[i]? = some s) (hs : word s <+: Bits.ofNat n acc)
    (hother : ∀ j < i, ∀ t, table[j]? = some t → ¬word t <+: Bits.ofNat n acc) :
    search acc n index table = some (index + i, s.bits) := by
  induction table generalizing i index with
  | nil => cases hi
  | cons t table ih =>
    unfold search
    cases i with
    | zero =>
      cases hi
      rw [if_pos ((matches_iff (hmem s List.mem_cons_self) hacc).mpr hs), Nat.add_zero]
    | succ i =>
      have hno := hother 0 (Nat.succ_pos i) t rfl
      rw [if_neg fun h => hno ((matches_iff (hmem t List.mem_cons_self) hacc).mp h)]
      rw [ih (fun u hu => hmem u (List.mem_cons_of_mem t hu)) (index + 1) hi
        (fun j hj u hu => hother (j + 1) (Nat.succ_lt_succ hj) u hu)]
      congr 2
      omega

theorem search_none {acc n : Nat} {table : List HuffmanSym}
    (hmem : ∀ t ∈ table, t ∈ huffmanTable) (hacc : acc < 2 ^ n) (index : Nat)
    (hno : ∀ t ∈ table, ¬word t <+: Bits.ofNat n acc) : search acc n index table = none := by
  induction table generalizing index with
  | nil => rfl
  | cons t table ih =>
    unfold search
    rw [if_neg fun h => hno t List.mem_cons_self ((matches_iff (hmem t List.mem_cons_self) hacc).mp h)]
    exact ih (fun u hu => hmem u (List.mem_cons_of_mem t hu)) (index + 1)
      fun u hu => hno u (List.mem_cons_of_mem t hu)

/-- The symbol whose code word comes first is found. -/
theorem search_sym {acc n : Nat} (hacc : acc < 2 ^ n) {b : UInt8}
    (h : word (sym b) <+: Bits.ofNat n acc) :
    search acc n 0 huffmanTable = some (b.toNat, (sym b).bits) := by
  rw [search_eq (fun _ ht => ht) hacc 0 (sym_getElem? b) h, Nat.zero_add]
  intro j hj t ht hstarts
  rcases List.prefix_or_prefix_of_prefix hstarts h with hts | hst
  · exact not_prefix_of_ne ht (sym_getElem? b) hj.ne hts
  · exact not_prefix_of_ne (sym_getElem? b) ht hj.ne' hst

/-- Nothing is found in a part of a code word. -/
theorem search_part {acc n : Nat} (hacc : acc < 2 ^ n) {b : UInt8}
    (h : Bits.ofNat n acc <+: word (sym b)) (hlt : n < (sym b).bits) :
    search acc n 0 huffmanTable = none := by
  refine search_none (fun _ ht => ht) hacc 0 fun t ht hstarts => ?_
  obtain ⟨j, hj⟩ := List.mem_iff_getElem?.mp ht
  by_cases hne : j = b.toNat
  · rw [hne, sym_getElem?, Option.some.injEq] at hj
    have hlen := hstarts.length_le
    rw [← hj, length_word, Bits.length_ofNat] at hlen
    omega
  · exact not_prefix_of_ne hj (sym_getElem? b) hne (hstarts.trans h)

/-! ## Decoding -/

/-- The symbols whose code words have arrived are taken; of the next one some bits are missing. -/
theorem decodeSymbols_words (fuel : Nat) {acc n k : Nat} {data : Bytes} {more : List Bool}
    (hacc : acc < 2 ^ n) (hfuel : n ≤ fuel) (hk : k ≤ 7)
    (h : Bits.ofNat n acc ++ more = words data ++ List.replicate k true) :
    ∃ done rest acc' n', data = done ++ rest ∧
      decodeSymbols fuel acc n = .ok (done, acc', n') ∧ acc' < 2 ^ n' ∧
      Bits.ofNat n' acc' ++ more = words rest ++ List.replicate k true ∧
      ∀ b tail, rest = b :: tail → n' < (sym b).bits := by
  induction fuel generalizing acc n data with
  | zero =>
    obtain rfl : n = 0 := by omega
    refine ⟨[], data, acc, 0, rfl, rfl, hacc, h, fun b tail _ => ?_⟩
    have := (wellFormed_of_mem (sym_mem b)).1
    omega
  | succ fuel ih =>
    unfold decodeSymbols
    split
    · rename_i hge
      cases data with
      | nil =>
        have hstarts : Bits.ofNat n acc <+: List.replicate k true := ⟨more, h⟩
        rw [search_none (fun _ ht => ht) hacc 0 fun t ht ht' => no_word_of_ones ht hk (ht'.trans hstarts)]
        exact ⟨[], [], acc, n, rfl, rfl, hacc, h, fun b tail hb => by cases hb⟩
      | cons b data =>
        have hword : word (sym b) <+: Bits.ofNat n acc ++ more := by
          rw [h, words_cons, List.append_assoc]
          exact List.prefix_append _ _
        by_cases hlt : n < (sym b).bits
        · have hpart : Bits.ofNat n acc <+: word (sym b) :=
            List.prefix_of_prefix_length_le (List.prefix_append _ _) hword (by simpa using hlt.le)
          rw [search_part hacc hpart hlt]
          refine ⟨[], b :: data, acc, n, rfl, rfl, hacc, h, fun b' tail hb => ?_⟩
          cases hb
          exact hlt
        · have hfull : word (sym b) <+: Bits.ofNat n acc :=
            List.prefix_of_prefix_length_le hword (List.prefix_append _ _)
              (by simpa using Nat.le_of_not_lt hlt)
          have hbits := (wellFormed_of_mem (sym_mem b)).1
          obtain ⟨tail, htail⟩ := hfull
          have hdrop : tail = Bits.ofNat (n - (sym b).bits) acc := by
            rw [← Bits.drop_ofNat (Nat.le_of_not_lt hlt), ← htail, List.drop_left' (length_word _)]
          have hmask : acc &&& ((1 <<< (n - (sym b).bits)) - 1) = acc % 2 ^ (n - (sym b).bits) := by
            rw [Nat.one_shiftLeft, Nat.and_two_pow_sub_one_eq_mod]
          have hafter : Bits.ofNat (n - (sym b).bits) (acc % 2 ^ (n - (sym b).bits)) ++ more =
              words data ++ List.replicate k true := by
            rw [Bits.ofNat_mod _ _ (Nat.le_refl _), ← hdrop]
            rw [← htail, words_cons, List.append_assoc, List.append_assoc] at h
            exact List.append_cancel_left h
          obtain ⟨done, rest, acc', n', hdata, hdecode, hacc', hafter', hstuck⟩ :=
            ih (Nat.mod_lt _ (Nat.two_pow_pos _)) (by omega) hafter
          refine ⟨b :: done, rest, acc', n', by rw [hdata, List.cons_append], ?_, hacc', hafter',
            hstuck⟩
          have hend : b.toNat ≠ 256 := b.toNat_lt.ne
          simp only [search_sym hacc ⟨tail, htail⟩, hend, if_false, hmask, hdecode,
            UInt8.ofNat_toNat]
    · refine ⟨[], data, acc, n, rfl, rfl, hacc, h, fun b tail _ => ?_⟩
      have := (wellFormed_of_mem (sym_mem b)).1
      omega

/-- One more byte fits into the accumulator. -/
theorem push_byte {acc n : Nat} (hacc : acc < 2 ^ n) (hn : n ≤ 30) (byte : UInt8) :
    (acc <<< 8) % 2 ^ 64 = acc <<< 8 ∧ acc <<< 8 ||| byte.toNat < 2 ^ (n + 8) := by
  constructor
  · refine Nat.mod_eq_of_lt ?_
    rw [Nat.shiftLeft_eq]
    calc acc * 2 ^ 8 < 2 ^ n * 2 ^ 8 := Nat.mul_lt_mul_of_pos_right hacc (Nat.two_pow_pos 8)
      _ ≤ 2 ^ 64 := by
        rw [← Nat.pow_add]
        exact Nat.pow_le_pow_right (by decide) (by omega)
  · refine Nat.or_lt_two_pow ?_
      (byte.toNat_lt.trans_le (Nat.pow_le_pow_right (by decide) (by omega)))
    rw [Nat.shiftLeft_eq, Nat.pow_add]
    exact Nat.mul_lt_mul_of_pos_right hacc (Nat.two_pow_pos 8)

/-- Between two bytes no complete code word is left over. -/
theorem decodeLoop_words {bytes : Bytes} {acc n k : Nat} {data : Bytes} (hacc : acc < 2 ^ n)
    (hk : k ≤ 7) (h : Bits.ofNat n acc ++ bits bytes = words data ++ List.replicate k true)
    (hstuck : ∀ b tail, data = b :: tail → n < (sym b).bits) : decodeLoop acc n bytes = .ok data := by
  induction bytes generalizing acc n data with
  | nil =>
    rw [bits_nil, List.append_nil] at h
    cases data with
    | nil =>
      rw [words_nil, List.nil_append] at h
      obtain rfl : n = k := by simpa using congrArg List.length h
      rw [← Bits.ofNat_two_pow_sub_one,
        Bits.ofNat_inj hacc (Nat.sub_lt (Nat.two_pow_pos n) Nat.one_pos)] at h
      have hones : acc &&& ((1 <<< n) - 1) = (1 <<< n) - 1 := by
        rw [Nat.one_shiftLeft, Nat.and_two_pow_sub_one_eq_mod, Nat.mod_eq_of_lt hacc, h]
      unfold decodeLoop
      split
      · simp only [hones, if_true]
      · rw [if_neg (by omega)]
    | cons b tail =>
      have hlen := congrArg List.length h
      have := hstuck b tail rfl
      simp only [Bits.length_ofNat, words_cons, List.length_append, length_word] at hlen
      omega
  | cons byte bytes ih =>
    have hn : n ≤ 30 := by
      cases data with
      | nil =>
        have hlen := congrArg List.length h
        simp only [words_nil, List.nil_append, List.length_append, Bits.length_ofNat,
          List.length_replicate] at hlen
        omega
      | cons b tail =>
        have := hstuck b tail rfl
        have := (wellFormed_of_mem (sym_mem b)).2.1
        omega
    have hbyte : byte.toNat < 2 ^ 8 := byte.toNat_lt
    obtain ⟨hshift, hjoined⟩ := push_byte hacc hn byte
    rw [bits_cons, ← List.append_assoc, ← Bits.ofNat_shiftLeft_or hbyte] at h
    obtain ⟨done, rest, acc', n', hdata, hdecode, hacc', hafter, hstuck'⟩ :=
      decodeSymbols_words (n + 8) hjoined (Nat.le_refl _) hk h
    simp only [decodeLoop, hshift, hdecode, ih hacc' hafter hstuck', hdata]

/-- **Round trip** of the Huffman code. -/
theorem decode_encode (data : Bytes) : decode (encode data) = .ok data := by
  obtain ⟨k, hk, h⟩ := encode_bits data
  refine decodeLoop_words Nat.one_pos hk h fun b tail _ => ?_
  have := (wellFormed_of_mem (sym_mem b)).1
  omega

end Http3.Qpack.Huffman
