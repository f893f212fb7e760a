import AgentDev.Python.Json

/-!
# Numbers are read back

The text of an integer or of a float is read as that number when a value can end after it
(`scanNumber_int`, `scanNumber_float`), and nothing else that `loads` reads begins like a
number (`scan_numeral`).
-/

namespace Python.Json

/-! ## Where a number ends -/

/-- What follows a value inside of another one, or at the end. -/
def Ends (rest : Str) : Prop :=
  ∀ c ∈ rest.head?, c = ord ',' ∨ c = ord ']' ∨ c = ord '\x7d' ∨ isWhitespace c = true

theorem isWhitespace_cases {c : CodePoint} (h : isWhitespace c = true) :
    c = 32 ∨ c = 9 ∨ c = 10 ∨ c = 13 := by
  simpa only [isWhitespace, Bool.or_eq_true, decide_eq_true_eq, or_assoc] using h

theorem Ends.noDigit {rest : Str} (h : Ends rest) : NoDigit rest := by
  intro c hc
  rcases h c hc with rfl | rfl | rfl | hblank
  · decide
  · decide
  · decide
  · rcases isWhitespace_cases hblank with rfl | rfl | rfl | rfl <;> decide

theorem ends_blanks {blanks : Str} (h : ∀ c ∈ blanks, isWhitespace c = true) : Ends blanks :=
  fun c hc => Or.inr (Or.inr (Or.inr (h c (List.mem_of_mem_head? hc))))

theorem ends_comma {rest : Str} : Ends (ord ',' :: rest) := by
  intro c hc
  cases hc
  exact Or.inl rfl

theorem ends_bracket {rest : Str} : Ends (ord ']' :: rest) := by
  intro c hc
  cases hc
  exact Or.inr (Or.inl rfl)

theorem ends_brace {rest : Str} : Ends (ord '\x7d' :: rest) := by
  intro c hc
  cases hc
  exact Or.inr (Or.inr (Or.inl rfl))

section

variable {sign int frac exp rest : Str}

theorem isDigit_ne {c : CodePoint} (h : isDigit c = true) : c ≠ ord '-' ∧ c ≠ ord '+' := by
  constructor
  · rintro rfl
    cases h
  · rintro rfl
    cases h

theorem matchSign_append (hsign : sign = [] ∨ sign = str "-") (hint : IsInteger int) :
    matchSign (sign ++ (int ++ rest)) = (sign, int ++ rest) := by
  rcases hsign with rfl | rfl
  · rcases hint with rfl | ⟨c, tail, rfl, -, hc, -⟩
    · rfl
    · exact if_neg (isDigit_ne hc).1
  · rfl

theorem matchInteger_append (hint : IsInteger int) (hrest : NoDigit rest) :
    matchInteger (int ++ rest) = some (int, rest) := by
  rcases hint with rfl | ⟨c, tail, rfl, hzero, hc, htail⟩
  · rfl
  · rw [List.cons_append, matchInteger, if_neg hzero, if_pos hc, takeWhile_digits htail hrest,
      dropWhile_digits htail hrest]

theorem matchFraction_append (hfrac : IsFraction frac) (hrest : NoDigit rest) :
    matchFraction (frac ++ rest) = (frac, rest) := by
  obtain ⟨c, tail, rfl, hc, htail⟩ := hfrac
  show matchFraction (ord '.' :: c :: (tail ++ rest)) = _
  rw [matchFraction, if_pos (by simp [hc]), takeWhile_digits htail hrest,
    dropWhile_digits htail hrest]

theorem matchFraction_none (hrest : ∀ c ∈ rest.head?, c ≠ ord '.') :
    matchFraction rest = ([], rest) := by
  unfold matchFraction
  split
  · rename_i dot c tail
    refine if_neg ?_
    simp [hrest dot rfl]
  · rfl

theorem matchExponent_append (hexp : IsExponent exp) (hrest : NoDigit rest) :
    matchExponent (exp ++ rest) = (exp, rest) := by
  obtain ⟨sign, c, tail, rfl, hsign, hc, htail⟩ := hexp
  have hall : ∀ d ∈ c :: tail, isDigit d = true := List.forall_mem_cons.mpr ⟨hc, htail⟩
  have hdigits : matchExponentSign (sign ++ (c :: tail ++ rest)) = (sign, c :: tail ++ rest) := by
    rcases hsign with rfl | rfl | rfl
    · exact if_neg (by simp [isDigit_ne hc])
    · rfl
    · rfl
  show matchExponent (ord 'e' :: (sign ++ (c :: tail) ++ rest)) = _
  rw [List.append_assoc, matchExponent, hdigits]
  dsimp only
  rw [takeWhile_digits hall hrest, dropWhile_digits hall hrest]
  rfl

theorem matchExponent_none (hrest : ∀ c ∈ rest.head?, c ≠ ord 'e' ∧ c ≠ ord 'E') :
    matchExponent rest = ([], rest) := by
  cases rest with
  | nil => rfl
  | cons e tail =>
    refine if_neg ?_
    simp [hrest e rfl]

theorem Ends.head_ne (h : Ends rest) (c : Char)
    (hc : ord c ≠ ord ',' ∧ ord c ≠ ord ']' ∧ ord c ≠ ord '\x7d' ∧ isWhitespace (ord c) = false) :
    ∀ d ∈ rest.head?, d ≠ ord c := by
  intro d hd
  rintro rfl
  obtain ⟨hcomma, hbracket, hbrace, hblank⟩ := hc
  rcases h _ hd with heq | heq | heq | heq
  · exact hcomma heq
  · exact hbracket heq
  · exact hbrace heq
  · cases hblank.symm.trans heq

theorem matchExponent_ends (hexp : exp = [] ∨ IsExponent exp) (hrest : Ends rest) :
    matchExponent (exp ++ rest) = (exp, rest) := by
  rcases hexp with rfl | hexp
  · refine matchExponent_none fun c hc => ?_
    exact ⟨hrest.head_ne 'e' (by decide) c hc, hrest.head_ne 'E' (by decide) c hc⟩
  · exact matchExponent_append hexp hrest.noDigit

/-- An exponent or an end begins with no digit and no dot. -/
theorem exponent_head (hexp : exp = [] ∨ IsExponent exp) (hrest : Ends rest) :
    NoDigit (exp ++ rest) ∧ ∀ c ∈ (exp ++ rest).head?, c ≠ ord '.' := by
  rcases hexp with rfl | ⟨sign, c, tail, rfl, -⟩
  · exact ⟨hrest.noDigit, hrest.head_ne '.' (by decide)⟩
  · constructor
    · intro d hd
      cases hd
      decide
    · intro d hd
      cases hd
      decide

theorem matchFraction_ends (hfrac : frac = [] ∨ IsFraction frac) (hexp : exp = [] ∨ IsExponent exp)
    (hrest : Ends rest) : matchFraction (frac ++ (exp ++ rest)) = (frac, exp ++ rest) := by
  obtain ⟨hdigit, hdot⟩ := exponent_head hexp hrest
  rcases hfrac with rfl | hfrac
  · exact matchFraction_none hdot
  · exact matchFraction_append hfrac hdigit

theorem fraction_head (hfrac : frac = [] ∨ IsFraction frac) (hexp : exp = [] ∨ IsExponent exp)
    (hrest : Ends rest) : NoDigit (frac ++ (exp ++ rest)) := by
  rcases hfrac with rfl | ⟨c, tail, rfl, -⟩
  · exact (exponent_head hexp hrest).1
  · intro d hd
    cases hd
    decide

theorem scanNumber_float {floats : FloatText} {text : Str} (htext : IsFloatLiteral text)
    (hrest : Ends rest) :
    scanNumber floats (text ++ rest) = .ok (.float (floats.parse text), rest) := by
  obtain ⟨sign, int, frac, exp, rfl, hsign, hint, hfrac, hexp, hne⟩ := htext.parts
  have happend : sign ++ (int ++ (frac ++ exp)) ++ rest =
      sign ++ (int ++ (frac ++ (exp ++ rest))) := by simp
  rw [happend, scanNumber, matchSign_append hsign hint]
  dsimp only
  rw [matchInteger_append hint (fraction_head hfrac hexp hrest)]
  dsimp only
  rw [matchFraction_ends hfrac hexp hrest]
  dsimp only
  rw [matchExponent_ends hexp hrest]
  exact if_neg hne

theorem scanNumber_int {floats : FloatText} {n : Int} {text : Str} (htext : intRepr n = .ok text)
    (hrest : Ends rest) : scanNumber floats (text ++ rest) = .ok (.int n, rest) := by
  have hlength : ¬maxStrDigits < (natRepr n.natAbs).length := by
    intro hlong
    rw [intRepr, if_pos hlong] at htext
    cases htext
  rw [intRepr, if_neg hlength] at htext
  have hint : IsInteger (natRepr n.natAbs) := natRepr_head n.natAbs
  have hscan : ∀ sign : Str, sign = [] ∨ sign = str "-" →
      scanNumber floats (sign ++ (natRepr n.natAbs ++ rest)) =
        .ok (.int (if sign = [] then (n.natAbs : Int) else -(n.natAbs : Int)), rest) := by
    intro sign hsign
    rw [scanNumber, matchSign_append hsign hint]
    dsimp only
    rw [matchInteger_append hint hrest.noDigit]
    dsimp only
    rw [matchFraction_none (hrest.head_ne '.' (by decide))]
    dsimp only
    rw [matchExponent_none fun c hc =>
      ⟨hrest.head_ne 'e' (by decide) c hc, hrest.head_ne 'E' (by decide) c hc⟩]
    dsimp only
    rw [natOfDigits_natRepr, if_neg hlength]
    rfl
  by_cases hneg : n < 0
  · rw [if_pos hneg] at htext
    cases htext
    have hminus := hscan (str "-") (Or.inr rfl)
    have hvalue : -(n.natAbs : Int) = n := by omega
    rw [if_neg (by decide), hvalue] at hminus
    exact hminus
  · rw [if_neg hneg] at htext
    cases htext
    have hplus := hscan [] (Or.inl rfl)
    have hvalue : (n.natAbs : Int) = n := by omega
    rw [if_pos rfl, hvalue] at hplus
    exact hplus

end

/-! ## How a number begins -/

/-- The text of a number. -/
def Numeral (text : Str) : Prop :=
  ∃ c tail, text = c :: tail ∧ (isDigit c = true ∨
    c = ord '-' ∧ ∃ d tail', tail = d :: tail' ∧ isDigit d = true)

theorem IsInteger.numeral {int rest : Str} (h : IsInteger int) :
    ∃ d tail, int ++ rest = d :: tail ∧ isDigit d = true := by
  rcases h with rfl | ⟨c, tail, rfl, -, hc, -⟩
  · exact ⟨ord '0', rest, rfl, by decide⟩
  · exact ⟨c, tail ++ rest, rfl, hc⟩

theorem numeral_of_sign {sign int rest : Str} (hsign : sign = [] ∨ sign = str "-")
    (hint : IsInteger int) : Numeral (sign ++ (int ++ rest)) := by
  obtain ⟨d, tail, htext, hd⟩ : ∃ d tail, int ++ rest = d :: tail ∧ isDigit d = true := hint.numeral
  rw [htext]
  rcases hsign with rfl | rfl
  · exact ⟨d, tail, rfl, Or.inl hd⟩
  · exact ⟨ord '-', d :: tail, rfl, Or.inr ⟨rfl, d, tail, rfl, hd⟩⟩

theorem IsFloatLiteral.numeral {text : Str} (h : IsFloatLiteral text) : Numeral text := by
  obtain ⟨sign, int, frac, exp, rfl, hsign, hint, -⟩ := h.parts
  exact numeral_of_sign hsign hint

theorem intRepr_numeral {n : Int} {text : Str} (h : intRepr n = .ok text) : Numeral text := by
  have hint : IsInteger (natRepr n.natAbs) := natRepr_head n.natAbs
  have hsigned : ∀ sign : Str, sign = [] ∨ sign = str "-" → Numeral (sign ++ natRepr n.natAbs) := by
    intro sign hsign
    have hnumeral : Numeral (sign ++ (natRepr n.natAbs ++ [])) := numeral_of_sign hsign hint
    rw [List.append_nil] at hnumeral
    exact hnumeral
  by_cases hlong : maxStrDigits < (natRepr n.natAbs).length
  · rw [intRepr, if_pos hlong] at h
    cases h
  · rw [intRepr, if_neg hlong] at h
    by_cases hneg : n < 0
    · rw [if_pos hneg] at h
      cases h
      exact hsigned (str "-") (Or.inr rfl)
    · rw [if_neg hneg] at h
      cases h
      exact hsigned [] (Or.inl rfl)

/-- No literal begins like a number. -/
theorem literals_begin : literals.all (fun literal =>
    match literal.1 with
    | first :: second :: _ => !isDigit first && (first ≠ ord '-' || !isDigit second)
    | _ => false) = true := by
  decide +kernel

theorem matchLiteral_numeral {text rest : Str} (h : Numeral text) :
    matchLiteral (text ++ rest) = none := by
  obtain ⟨c, tail, rfl, hc⟩ := h
  have hnone : literals.find? (fun literal => literal.1.isPrefixOf (c :: (tail ++ rest))) = none := by
    rw [List.find?_eq_none]
    intro literal hmem
    have hbegin := List.all_eq_true.mp literals_begin literal hmem
    split at hbegin
    · rename_i first second others heq
      simp only [Bool.and_eq_true, Bool.not_eq_true', Bool.or_eq_true, decide_eq_true_eq] at hbegin
      obtain ⟨hfirst, hsecond⟩ := hbegin
      rw [heq, List.isPrefixOf_cons_cons, Bool.and_eq_true, beq_iff_eq]
      rintro ⟨rfl, hprefix⟩
      rcases hc with hc | ⟨rfl, d, tail', rfl, hd⟩
      · exact Bool.false_ne_true (hfirst.symm.trans hc)
      · rw [List.cons_append, List.isPrefixOf_cons_cons, Bool.and_eq_true, beq_iff_eq] at hprefix
        obtain ⟨rfl, -⟩ := hprefix
        rcases hsecond with hminus | hsecond
        · exact hminus rfl
        · exact Bool.false_ne_true (hsecond.symm.trans hd)
    · cases hbegin
  rw [List.cons_append, matchLiteral, hnone]
  rfl

/-- No string, mapping or list begins like a number. -/
theorem scan_numeral {floats : FloatText} {text rest : Str} (h : Numeral text) (fuel : Nat) :
    scan floats (fuel + 1) (text ++ rest) = scanNumber floats (text ++ rest) := by
  have hliteral : matchLiteral (text ++ rest) = none := matchLiteral_numeral h
  obtain ⟨c, tail, rfl, hc⟩ := h
  have hother : ∀ d : Char, isDigit (ord d) = false → ord d ≠ ord '-' → c ≠ ord d := by
    rintro d hdigit hminus rfl
    rcases hc with hc | ⟨hc, -⟩
    · exact Bool.false_ne_true (hdigit.symm.trans hc)
    · exact hminus hc
  rw [List.cons_append] at hliteral ⊢
  rw [scan, if_neg (hother '"' (by decide) (by decide)),
    if_neg (hother '\x7b' (by decide) (by decide)), if_neg (hother '[' (by decide) (by decide)),
    hliteral]

end Python.Json
