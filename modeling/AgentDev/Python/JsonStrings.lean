import AgentDev.Python.Json
import Mathlib.Data.List.Chain

/-!
# String literals are read back

What `dumps` writes as a string literal, `loads` reads as the same string
(`scanString_writeStr`). With `ensure_ascii`, a high surrogate followed by a low one would be read
as one character, so such strings are excluded (`PairFree`); without, every string is read back.
-/

namespace Python.Json

/-! ## Characters -/

theorem hexValue?_hexDigit {d : Nat} (h : d < 16) : hexValue? (hexDigit d) = some d := by
  have hall : ∀ d : Fin 16, hexValue? (hexDigit d) = some d.val := by decide
  exact hall ⟨d, h⟩

/-- What is read of a character that has been written. -/
def charUnits (ascii : Bool) (c : CodePoint) : List Unit :=
  match shortEscapes.lookup c with
  | some _ => [⟨c, false⟩]
  | none =>
    if c.val < 0x20 || (ascii && 0x7E < c.val) then
      if c.val < 0x10000 then [⟨c, true⟩]
      else [⟨chr (highSurrogate c), true⟩, ⟨chr (lowSurrogate c), true⟩]
    else [⟨c, false⟩]

theorem scanUnits_escapeCode {n : Nat} (h : n < 0x10000) (rest : Str) :
    scanUnits .plain (escapeCode n ++ rest) =
      (scanUnits .plain rest).map (after [⟨chr n, true⟩]) := by
  have hvalue : ∀ m, hexValue? (hexDigit (m % 16)) = some (m % 16) :=
    fun m => hexValue?_hexDigit (Nat.mod_lt m (by omega))
  have hsum : 16 * (16 * (16 * (16 * 0 + n / 4096 % 16) + n / 256 % 16) + n / 16 % 16) + n % 16 = n := by
    omega
  have hlookup : longEscapes.lookup (ord 'u') = none := by decide
  have hplace : scanUnits .plain (escapeCode n ++ rest) =
      scanUnits (.code 0 0) (hexDigit (n / 4096 % 16) :: hexDigit (n / 256 % 16) ::
        hexDigit (n / 16 % 16) :: hexDigit (n % 16) :: rest) := by
    show scanUnits .plain (ord '\\' :: ord 'u' :: _) = _
    rw [scanUnits, if_neg (by decide), if_neg (by decide), if_pos rfl, scanUnits, hlookup]
    exact if_pos rfl
  rw [hplace]
  simp only [scanUnits, hvalue, Nat.reduceEqDiff, if_false, if_true, hsum, Nat.reduceAdd]

theorem scanUnits_shortEscape {c letter : CodePoint} (h : (c, letter) ∈ shortEscapes)
    (rest : Str) :
    scanUnits .plain (ord '\\' :: letter :: rest) =
      (scanUnits .plain rest).map (after [⟨c, false⟩]) := by
  have hall : shortEscapes.all (fun item => longEscapes.lookup item.2 = some item.1) = true := by
    decide +kernel
  have hlong : longEscapes.lookup letter = some c := by
    simpa using List.all_eq_true.mp hall (c, letter) h
  rw [scanUnits, if_neg (by decide), if_neg (by decide), if_pos rfl, scanUnits, hlong]

theorem scanUnits_plain {c : CodePoint} (hquote : c ≠ ord '"') (hescape : c ≠ ord '\\')
    (hcontrol : ¬c.val < 0x20) (rest : Str) :
    scanUnits .plain (c :: rest) = (scanUnits .plain rest).map (after [⟨c, false⟩]) := by
  rw [scanUnits, if_neg hquote, if_neg hcontrol, if_neg hescape]

theorem map_after (units units' : List Unit) (result : Except Error (List Unit × Str)) :
    (result.map (after units')).map (after units) = result.map (after (units ++ units')) := by
  cases result with
  | error => rfl
  | ok result => simp [Except.map, after]

/-- A written character is read, whatever comes after it. -/
theorem scanUnits_escapeChar (ascii : Bool) (c : CodePoint) (rest : Str) :
    scanUnits .plain (escapeChar ascii c ++ rest) =
      (scanUnits .plain rest).map (after (charUnits ascii c)) := by
  unfold escapeChar charUnits
  cases hshort : shortEscapes.lookup c with
  | some letter =>
    obtain ⟨before, others, hitems, -⟩ := List.lookup_eq_some_iff.mp hshort
    exact scanUnits_shortEscape (by simp [hitems]) rest
  | none =>
    dsimp only
    by_cases hescaped : (decide (c.val < 0x20) || (ascii && decide (0x7E < c.val))) = true
    · rw [if_pos hescaped, if_pos hescaped]
      by_cases hsmall : c.val < 0x10000
      · rw [if_pos hsmall, if_pos hsmall, scanUnits_escapeCode hsmall, chr_of_val]
      · have hhigh : highSurrogate c < 0x10000 := by
          unfold highSurrogate
          omega
        have hlow : lowSurrogate c < 0x10000 := by
          unfold lowSurrogate
          omega
        rw [if_neg hsmall, if_neg hsmall, List.append_assoc, scanUnits_escapeCode hhigh,
          scanUnits_escapeCode hlow, map_after]
        rfl
    · rw [if_neg hescaped, if_neg hescaped]
      have hquote : c ≠ ord '"' := by
        rintro rfl
        cases hshort
      have hescape : c ≠ ord '\\' := by
        rintro rfl
        cases hshort
      refine scanUnits_plain hquote hescape (fun hcontrol => ?_) rest
      simp [hcontrol] at hescaped

theorem scanUnits_escaped (ascii : Bool) (s rest : Str) :
    scanUnits .plain (s.flatMap (escapeChar ascii) ++ ord '"' :: rest) =
      .ok (s.flatMap (charUnits ascii), rest) := by
  induction s with
  | nil => rfl
  | cons c s ih =>
    rw [List.flatMap_cons, List.append_assoc, scanUnits_escapeChar, ih]
    rfl

/-! ## Surrogates -/

/-- No high surrogate is followed by a low one. -/
def PairFree (s : Str) : Prop := s.IsChain fun a b => (isHigh a && isLow b) = false

/-- The units do not begin with an escaped low surrogate. -/
def NoLow (units : List Unit) : Prop := ∀ u ∈ units.head?, (u.escaped && isLow u.char) = false

theorem joinUnits_cons {u : Unit} {units : List Unit}
    (h : (u.escaped && isHigh u.char) = false ∨ NoLow units) :
    joinUnits (u :: units) = u.char :: joinUnits units := by
  cases units with
  | nil => rfl
  | cons u' rest =>
    refine if_neg ?_
    rcases h with h | h
    · intro hpair
      simp only [Bool.and_eq_true] at hpair
      simp [hpair] at h
    · have hlow := h u' rfl
      intro hpair
      simp only [Bool.and_eq_true] at hpair
      simp [hpair] at hlow

theorem highSurrogate_val {c : CodePoint} (h : ¬c.val < 0x10000) :
    (chr (highSurrogate c)).val = 0xD800 + (c.val - 0x10000) / 0x400 ∧
      (c.val - 0x10000) / 0x400 < 0x400 := by
  have hlt := c.isLt
  have hbound : (c.val - 0x10000) / 0x400 < 0x400 := by omega
  refine ⟨chr_val ?_, hbound⟩
  unfold highSurrogate
  omega

theorem lowSurrogate_val (c : CodePoint) :
    (chr (lowSurrogate c)).val = 0xDC00 + (c.val - 0x10000) % 0x400 := by
  refine chr_val ?_
  unfold lowSurrogate
  omega

/-- A character outside the first plane is the pair of its surrogates. -/
theorem joinPair_surrogates {c : CodePoint} (h : ¬c.val < 0x10000) :
    joinPair (chr (highSurrogate c)) (chr (lowSurrogate c)) = c := by
  have hsum : 0x10000 + (0xD800 + (c.val - 0x10000) / 0x400 - 0xD800) * 0x400 +
      (0xDC00 + (c.val - 0x10000) % 0x400 - 0xDC00) = c.val := by
    omega
  rw [joinPair, (highSurrogate_val h).1, lowSurrogate_val, hsum, chr_of_val]

theorem isHigh_highSurrogate {c : CodePoint} (h : ¬c.val < 0x10000) :
    isHigh (chr (highSurrogate c)) = true := by
  obtain ⟨hval, hbound⟩ := highSurrogate_val h
  simp only [isHigh, hval, Bool.and_eq_true, decide_eq_true_eq]
  omega

theorem isLow_lowSurrogate (c : CodePoint) : isLow (chr (lowSurrogate c)) = true := by
  simp only [isLow, lowSurrogate_val, Bool.and_eq_true, decide_eq_true_eq]
  omega

theorem isLow_of_isHigh {c : CodePoint} (h : isHigh c = true) : isLow c = false := by
  simp only [isHigh, isLow, Bool.and_eq_true, Bool.and_eq_false_iff, decide_eq_true_eq,
    decide_eq_false_iff_not] at h ⊢
  omega

/-- The units of one character. -/
theorem charUnits_cases (ascii : Bool) (c : CodePoint) :
    (∃ escaped, charUnits ascii c = [⟨c, escaped⟩] ∧
      (escaped = true → ascii = true ∨ isHigh c = false)) ∨
    ¬c.val < 0x10000 ∧ charUnits ascii c =
      [⟨chr (highSurrogate c), true⟩, ⟨chr (lowSurrogate c), true⟩] := by
  unfold charUnits
  cases shortEscapes.lookup c with
  | some letter => exact Or.inl ⟨false, rfl, fun h => nomatch h⟩
  | none =>
    dsimp only
    by_cases hescaped : (decide (c.val < 0x20) || (ascii && decide (0x7E < c.val))) = true
    · rw [if_pos hescaped]
      by_cases hsmall : c.val < 0x10000
      · rw [if_pos hsmall]
        refine Or.inl ⟨true, rfl, fun _ => ?_⟩
        cases ascii with
        | true => exact Or.inl rfl
        | false =>
          right
          simp only [Bool.false_and, Bool.or_false, decide_eq_true_eq] at hescaped
          simp only [isHigh, Bool.and_eq_false_iff, decide_eq_false_iff_not]
          omega
      · rw [if_neg hsmall]
        exact Or.inr ⟨hsmall, rfl⟩
    · rw [if_neg hescaped]
      exact Or.inl ⟨false, rfl, fun h => nomatch h⟩

/-- After a high surrogate, a string without pairs does not go on with an escaped low one. -/
theorem noLow_of_pairFree {ascii : Bool} {c : CodePoint} {s : Str} (h : PairFree (c :: s))
    (hhigh : isHigh c = true) : NoLow (s.flatMap (charUnits ascii)) := by
  cases s with
  | nil =>
    intro u hu
    cases hu
  | cons c' s =>
    have hlow : isLow c' = false := by
      have hpair := (List.isChain_cons_cons.mp h).1
      rw [hhigh] at hpair
      exact hpair
    intro u hu
    rw [List.flatMap_cons] at hu
    rcases charUnits_cases ascii c' with ⟨escaped, hunits, -⟩ | ⟨hlarge, hunits⟩
    · rw [hunits] at hu
      cases hu
      simp [hlow]
    · rw [hunits] at hu
      cases hu
      simp [isLow_of_isHigh (isHigh_highSurrogate hlarge)]

theorem joinUnits_charUnits {ascii : Bool} {s : Str} (h : ascii = true → PairFree s) :
    joinUnits (s.flatMap (charUnits ascii)) = s := by
  induction s with
  | nil => rfl
  | cons c s ih =>
    have hrest := ih fun hascii => (h hascii).tail
    rw [List.flatMap_cons]
    rcases charUnits_cases ascii c with ⟨escaped, hunits, hescaped⟩ | ⟨hlarge, hunits⟩
    · rw [hunits, List.singleton_append, joinUnits_cons, hrest]
      by_cases hhigh : (escaped && isHigh c) = true
      · rw [Bool.and_eq_true] at hhigh
        have hascii : ascii = true := by
          rcases hescaped hhigh.1 with hascii | hno
          · exact hascii
          · exact absurd (hhigh.2.symm.trans hno) (by simp)
        exact Or.inr (noLow_of_pairFree (h hascii) hhigh.2)
      · exact Or.inl (Bool.eq_false_iff.mpr hhigh)
    · have hpair : joinUnits ([⟨chr (highSurrogate c), true⟩,
          ⟨chr (lowSurrogate c), true⟩] ++ s.flatMap (charUnits ascii)) =
          joinPair (chr (highSurrogate c)) (chr (lowSurrogate c)) ::
            joinUnits (s.flatMap (charUnits ascii)) :=
        if_pos (by simp [isHigh_highSurrogate hlarge, isLow_lowSurrogate])
      rw [hunits, hpair, joinPair_surrogates hlarge, hrest]

/-! ## Literals -/

theorem scanString_writeStr {ascii : Bool} {s : Str} (h : ascii = true → PairFree s) (rest : Str) :
    scanString (s.flatMap (escapeChar ascii) ++ ord '"' :: rest) = .ok (s, rest) := by
  rw [scanString, scanUnits_escaped]
  show Except.ok (joinUnits (s.flatMap (charUnits ascii)), rest) = _
  rw [joinUnits_charUnits h]

end Python.Json
