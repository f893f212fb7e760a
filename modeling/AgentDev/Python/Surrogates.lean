import AgentDev.Python.JsonStrings
import AgentDev.Python.Utf8

/-!
# Surrogate pairs in strings

A string may hold a high surrogate before a low one. With `ensure_ascii` it is written as the string in
which the two are one character (`writeStr_rejoin`), so that string is what a reader gets; the strings
that are read back as they are have no such pairs (`rejoin_eq_self`).
-/

namespace Python.Json

/-- The string with the pairs of surrogates as one character each. -/
def rejoin : Str → Str
  | [] => []
  | [c] => [c]
  | c :: d :: rest =>
    if isHigh c && isLow d then joinPair c d :: rejoin rest else c :: rejoin (d :: rest)

theorem pairFree_of_scalar {s : Str} (h : ∀ c ∈ s, IsScalar c) : PairFree s := by
  have hhigh : ∀ c ∈ s, isHigh c = false := by
    intro c hc
    have hscalar := h c hc
    simp only [IsScalar, isHigh, Bool.and_eq_false_iff, decide_eq_false_iff_not] at hscalar ⊢
    omega
  refine List.isChain_iff_getElem.mpr fun i hi => ?_
  rw [hhigh _ (List.getElem_mem _), Bool.false_and]

theorem pairFree_str (s : String) : PairFree (str s) := pairFree_of_scalar (isScalar_str s)

theorem lookup_shortEscapes {c : CodePoint} (h : 0x7E < c.val) : shortEscapes.lookup c = none := by
  rw [List.lookup_eq_none_iff]
  intro item hitem
  have hall : shortEscapes.all (fun item => item.1.val ≤ 0x7E) = true := by decide +kernel
  have hle := of_decide_eq_true (List.all_eq_true.mp hall item hitem)
  rw [bne_iff_ne]
  rintro rfl
  omega

theorem escapeChar_bmp {c : CodePoint} (h : 0x7E < c.val) (h' : c.val < 0x10000) :
    escapeChar true c = escapeCode c.val := by
  have hescaped : (decide (c.val < 0x20) || (true && decide (0x7E < c.val))) = true := by simp [h]
  rw [escapeChar, lookup_shortEscapes h]
  exact (if_pos hescaped).trans (if_pos h')

theorem joinPair_val {c d : CodePoint} (hc : isHigh c = true) (hd : isLow d = true) :
    (joinPair c d).val = 0x10000 + (c.val - 0xD800) * 0x400 + (d.val - 0xDC00) := by
  simp only [isHigh, isLow, Bool.and_eq_true, decide_eq_true_eq] at hc hd
  exact chr_val (by omega)

/-- A pair is written as the character that it stands for. -/
theorem escapeChar_joinPair {c d : CodePoint} (hc : isHigh c = true) (hd : isLow d = true) :
    escapeChar true (joinPair c d) = escapeChar true c ++ escapeChar true d := by
  have hval := joinPair_val hc hd
  simp only [isHigh, isLow, Bool.and_eq_true, decide_eq_true_eq] at hc hd
  have hescaped : (decide ((joinPair c d).val < 0x20) ||
      (true && decide (0x7E < (joinPair c d).val))) = true := by
    simp only [Bool.true_and, Bool.or_eq_true, decide_eq_true_eq]
    omega
  have hhigh : highSurrogate (joinPair c d) = c.val := by
    unfold highSurrogate
    omega
  have hlow : lowSurrogate (joinPair c d) = d.val := by
    unfold lowSurrogate
    omega
  rw [escapeChar_bmp (c := c) (by omega) (by omega), escapeChar_bmp (c := d) (by omega) (by omega),
    escapeChar, lookup_shortEscapes (by omega)]
  refine (if_pos hescaped).trans ((if_neg (by omega)).trans ?_)
  rw [hhigh, hlow]

theorem escape_rejoin (s : Str) :
    (rejoin s).flatMap (escapeChar true) = s.flatMap (escapeChar true) := by
  fun_induction rejoin s with
  | case1 => rfl
  | case2 c => rfl
  | case3 c d rest hpair ih =>
    obtain ⟨hc, hd⟩ := Bool.and_eq_true_iff.mp hpair
    rw [List.flatMap_cons, escapeChar_joinPair hc hd, ih, List.flatMap_cons, List.flatMap_cons,
      List.append_assoc]
  | case4 c d rest _ ih =>
    rw [List.flatMap_cons, ih]
    rfl

/-- A string does not begin with a low surrogate when its pairs are joined, unless it did before. -/
theorem isLow_head_rejoin {d : CodePoint} {rest : Str} (h : isLow d = false) :
    ∀ e ∈ (rejoin (d :: rest)).head?, isLow e = false := by
  intro e he
  cases rest with
  | nil =>
    cases he
    exact h
  | cons e' rest =>
    unfold rejoin at he
    split at he
    · rename_i hpair
      obtain ⟨hd, he'⟩ := Bool.and_eq_true_iff.mp hpair
      have heq : joinPair d e' = e := Option.some.inj he
      rw [← heq]
      have hval := joinPair_val hd he'
      simp only [isLow, Bool.and_eq_false_iff, decide_eq_false_iff_not]
      omega
    · cases he
      exact h

theorem pairFree_cons {c : CodePoint} {s : Str} (h : isHigh c = false ∨ ∀ e ∈ s.head?, isLow e = false)
    (hs : PairFree s) : PairFree (c :: s) := by
  refine List.isChain_cons.mpr ⟨?_, hs⟩
  intro e he
  rcases h with h | h
  · rw [h, Bool.false_and]
  · rw [h e he, Bool.and_false]

theorem pairFree_rejoin (s : Str) : PairFree (rejoin s) := by
  fun_induction rejoin s with
  | case1 => exact List.isChain_nil
  | case2 c => exact List.isChain_singleton c
  | case3 c d rest hpair ih =>
    obtain ⟨hc, hd⟩ := Bool.and_eq_true_iff.mp hpair
    refine pairFree_cons (Or.inl ?_) ih
    have hval := joinPair_val hc hd
    simp only [isHigh, Bool.and_eq_false_iff, decide_eq_false_iff_not]
    omega
  | case4 c d rest hpair ih =>
    refine pairFree_cons ?_ ih
    rcases Bool.and_eq_false_iff.mp (Bool.eq_false_iff.mpr hpair) with hc | hd
    · exact Or.inl hc
    · exact Or.inr (isLow_head_rejoin hd)

theorem rejoin_eq_self {s : Str} : rejoin s = s ↔ PairFree s := by
  constructor
  · intro h
    rw [← h]
    exact pairFree_rejoin s
  · intro h
    fun_induction rejoin s with
    | case1 => rfl
    | case2 c => rfl
    | case3 c d rest hpair ih =>
      rw [(List.isChain_cons_cons.mp h).1] at hpair
      cases hpair
    | case4 c d rest _ ih => rw [ih h.tail]

theorem writeStr_rejoin (s : Str) : writeStr true (rejoin s) = writeStr true s := by
  rw [writeStr, escape_rejoin, writeStr]

end Python.Json
