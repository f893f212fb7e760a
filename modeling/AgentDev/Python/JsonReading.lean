import AgentDev.Python.Decimals
import AgentDev.Python.JsonRoundTrip
import Mathlib.Data.Nat.Digits.Lemmas

/-!
# What is read

A value that has been read has no numeral that is too long and no name twice, and its floats are
doubles if the reader of floats returns only such. So it can be written again, by a writer that
escapes nothing (`serializable_loads`).
-/

namespace Python

theorem natOfDigits_lt (digits : Str) : natOfDigits digits < 10 ^ digits.length := by
  unfold natOfDigits
  induction digits using List.reverseRecOn with
  | nil => decide
  | append_singleton digits c ih =>
    have hdigit : (digit? c).getD 0 ≤ 9 := by
      unfold digit?
      split
      · rename_i hrange
        simp only [Bool.and_eq_true, decide_eq_true_eq] at hrange
        rw [Option.getD_some]
        omega
      · decide
    rw [List.foldl_append, List.length_append, List.length_singleton, Nat.pow_succ]
    simp only [List.foldl_cons, List.foldl_nil]
    omega

theorem length_natRepr_le {n k : Nat} (hk : 1 ≤ k) : (natRepr n).length ≤ k ↔ n < 10 ^ k := by
  unfold natRepr
  split
  · rename_i hzero
    subst hzero
    exact ⟨fun _ => Nat.pow_pos (by decide), fun _ => hk⟩
  · rw [List.length_map, List.length_reverse, Nat.digits_length_le_iff (by decide)]

namespace Json

/-- The format of a writer that escapes nothing that it need not and allows every float. -/
def looseFormat : Format where
  sortKeys := false
  ensureAscii := false
  allowNan := true

/-- The reader of floats returns doubles. -/
def FloatText.ReadsDoubles (floats : FloatText) : Prop :=
  ∀ s q, floats.parse s = .finite q → IsDouble q

variable {floats : FloatText}

theorem serializable_scanNumber (hfloats : floats.ReadsDoubles) {s rest : Str} {value : Value}
    (h : scanNumber floats s = .ok (value, rest)) : Serializable looseFormat value := by
  unfold scanNumber at h
  dsimp only at h
  split at h
  · cases h
  · rename_i int s' _
    split at h
    · split at h
      · cases h
      · rename_i hlength
        cases h
        have hlt : natOfDigits int < 10 ^ maxStrDigits :=
          Nat.lt_of_lt_of_le (natOfDigits_lt int)
            (Nat.pow_le_pow_right (by decide) (Nat.not_lt.mp hlength))
        have habs : (if (matchSign s).1 = [] then (natOfDigits int : Int)
            else -(natOfDigits int : Int)).natAbs = natOfDigits int := by
          split
          · exact Int.natAbs_natCast _
          · rw [Int.natAbs_neg, Int.natAbs_natCast]
        show (natRepr (Int.natAbs _)).length ≤ maxStrDigits
        rw [habs]
        exact (length_natRepr_le (by decide)).mpr hlt
    · cases h
      generalize hparse : floats.parse _ = x
      cases x with
      | finite q => exact hfloats _ q hparse
      | inf negative => rfl
      | nan => rfl

theorem serializable_literal {s rest : Str} {value : Value}
    (h : matchLiteral s = some (value, rest)) : Serializable looseFormat value := by
  obtain ⟨literal, hfind, hvalue⟩ := Option.map_eq_some_iff.mp h
  cases hvalue
  have hmem := List.mem_of_find?_eq_some hfind
  simp only [literals, List.mem_cons, List.not_mem_nil, or_false] at hmem
  rcases hmem with rfl | rfl | rfl | rfl | rfl | rfl
  · trivial
  · trivial
  · trivial
  all_goals rfl

theorem allSerializable_append {format : Format} {values values' : List Value} :
    AllSerializable format (values ++ values') ↔
      AllSerializable format values ∧ AllSerializable format values' := by
  induction values with
  | nil => simp [AllSerializable]
  | cons value rest ih => simp [AllSerializable, ih, and_assoc]

theorem names_set (d : Dict) (name : Str) (value : Value) :
    (d.set (.str name) value).names =
      if name ∈ d.names then d.names else d.names ++ [name] := by
  by_cases hmem : name ∈ d.names
  · rw [if_pos hmem]
    induction d with
    | nil => cases hmem
    | cons item rest ih =>
      obtain ⟨key, old⟩ := item
      rw [Dict.set]
      split
      · rename_i hkey
        cases hkey
        rfl
      · rename_i hkey
        cases key with
        | other => exact ih hmem
        | str first =>
          have hrest : name ∈ Dict.names rest := by
            rcases List.mem_cons.mp hmem with rfl | hrest
            · exact absurd rfl hkey
            · exact hrest
          exact congrArg (first :: ·) (ih hrest)
  · rw [if_neg hmem, set_new hmem]
    simp [Dict.names]

/-- `d[name] = value` -/
theorem serializable_set {format : Format} {d : Dict} {name : Str} {value : Value}
    (h : Serializable format (.dict d)) (hname : format.ensureAscii = true → PairFree name)
    (hvalue : Serializable format value) : Serializable format (.dict (d.set (.str name) value)) := by
  obtain ⟨hnodup, hitems⟩ := h
  constructor
  · rw [names_set]
    split
    · exact hnodup
    · rename_i hnew
      rw [← List.concat_eq_append]
      exact hnodup.concat hnew
  · rw [itemsSerializable_iff] at hitems ⊢
    intro item hitem
    clear hnodup
    induction d with
    | nil =>
      rw [List.mem_singleton.mp hitem]
      exact ⟨name, rfl, hname, hvalue⟩
    | cons first rest ih =>
      rw [Dict.set] at hitem
      split at hitem
      · rcases List.mem_cons.mp hitem with rfl | hrest
        · exact ⟨name, rfl, hname, hvalue⟩
        · exact hitems item (List.mem_cons_of_mem _ hrest)
      · rcases List.mem_cons.mp hitem with rfl | hrest
        · exact hitems _ List.mem_cons_self
        · exact ih (fun other hother => hitems other (List.mem_cons_of_mem _ hother)) hrest

mutual

theorem serializable_scan (hfloats : floats.ReadsDoubles) : ∀ (fuel : Nat) {s rest : Str}
    {value : Value}, scan floats fuel s = .ok (value, rest) → Serializable looseFormat value
  | 0, _, _, _, h => nomatch h
  | fuel + 1, [], _, _, h => nomatch h
  | fuel + 1, c :: s, rest, value, h => by
    rw [scan] at h
    split at h
    · obtain ⟨result, -, h⟩ := bind_ok h
      cases h
      exact fun hascii => nomatch hascii
    · split at h
      · split at h
        · cases h
          exact ⟨List.nodup_nil, trivial⟩
        · have hempty : Serializable looseFormat (.dict []) := ⟨List.nodup_nil, trivial⟩
          exact serializable_scanItems hfloats fuel hempty h
      · split at h
        · split at h
          · cases h
            trivial
          · have hempty : AllSerializable looseFormat [] := trivial
            exact serializable_scanValues hfloats fuel hempty h
        · split at h
          · rename_i result hliteral
            cases h
            exact serializable_literal hliteral
          · exact serializable_scanNumber hfloats h

theorem serializable_scanValues (hfloats : floats.ReadsDoubles) : ∀ (fuel : Nat) {values : List Value}
    {s rest : Str} {value : Value}, AllSerializable looseFormat values →
    scanValues floats fuel values s = .ok (value, rest) → Serializable looseFormat value
  | 0, _, _, _, _, _, h => nomatch h
  | fuel + 1, values, s, rest, value, hvalues, h => by
    obtain ⟨⟨read, s'⟩, hread, h⟩ := bind_ok h
    have hmore : AllSerializable looseFormat (values ++ [read]) :=
      allSerializable_append.mpr ⟨hvalues, serializable_scan hfloats fuel hread, trivial⟩
    dsimp only at h
    split at h
    · cases h
      exact hmore
    · obtain ⟨s'', -, h⟩ := bind_ok h
      exact serializable_scanValues hfloats fuel hmore h

theorem serializable_scanItems (hfloats : floats.ReadsDoubles) : ∀ (fuel : Nat) {items : Dict}
    {s rest : Str} {value : Value}, Serializable looseFormat (.dict items) →
    scanItems floats fuel items s = .ok (value, rest) → Serializable looseFormat value
  | 0, _, _, _, _, _, h => nomatch h
  | fuel + 1, items, s, rest, value, hitems, h => by
    obtain ⟨_, -, h⟩ := bind_ok h
    obtain ⟨⟨name, _⟩, -, h⟩ := bind_ok h
    obtain ⟨_, -, h⟩ := bind_ok h
    obtain ⟨⟨read, s'⟩, hread, h⟩ := bind_ok h
    have hmore : Serializable looseFormat (.dict (items.set (.str name) read)) :=
      serializable_set hitems (fun hascii => nomatch hascii) (serializable_scan hfloats fuel hread)
    dsimp only at h
    split at h
    · cases h
      exact hmore
    · obtain ⟨s'', -, h⟩ := bind_ok h
      exact serializable_scanItems hfloats fuel hmore h

end

/-- A value that has been read can be written. -/
theorem serializable_loads (hfloats : floats.ReadsDoubles) {text : Str} {value : Value}
    (h : loads floats text = .ok value) : Serializable looseFormat value := by
  obtain ⟨⟨value', rest⟩, hscan, h⟩ := bind_ok h
  dsimp only at h
  split at h
  · cases h
    exact serializable_scan hfloats _ hscan
  · cases h

/-! ## Values that can be written -/

mutual

theorem distinct_of_serializable {format : Format} : ∀ (value : Value), Serializable format value →
    value.Distinct
  | .seq _, _ => trivial
  | .dict items, h => ⟨h.1, itemsDistinct_of_serializable items h.2⟩
  | .none, _ | .bool _, _ | .int _, _ | .float _, _ | .str _, _ | .other, _ => trivial

theorem itemsDistinct_of_serializable {format : Format} : ∀ (items : List (Key × Value)),
    ItemsSerializable format items → itemsDistinct items
  | [], _ => trivial
  | (.other, _) :: _, h => h.elim
  | (.str _, value) :: items, h =>
    ⟨distinct_of_serializable value h.2.1, itemsDistinct_of_serializable items h.2.2⟩

end

theorem serializable_get? {format : Format} {d : Dict} {name : Str} {value : Value}
    (h : Serializable format (.dict d)) (hget : d.get? name = some value) :
    Serializable format value := by
  obtain ⟨before, after, hsplit, -⟩ := List.lookup_eq_some_iff.mp hget
  have hmem : (Key.str name, value) ∈ d := by simp [hsplit]
  obtain ⟨-, -, -, hvalue⟩ := itemsSerializable_iff.mp h.2 _ hmem
  exact hvalue

/-! ## Doubles -/

/-- Whether one of the first exponents, from the least one on, gives an integer. -/
@[irreducible]
def isScaled (exponents : Nat) (q : Rat) : Bool :=
  (List.range exponents).any fun i =>
    let mantissa := q * 2 ^ (1074 - i : Int)
    mantissa.den = 1 && mantissa.num.natAbs < 2 ^ 53

theorem isScaled_iff {exponents : Nat} {q : Rat} : isScaled exponents q = true ↔
    ∃ (m e : Int), m.natAbs < 2 ^ 53 ∧ -1074 ≤ e ∧ (e + 1074).toNat < exponents ∧
      q = m * (2 : Rat) ^ e := by
  rw [isScaled, List.any_eq_true]
  simp only [Bool.and_eq_true, decide_eq_true_eq]
  constructor
  · rintro ⟨i, hi, hden, hnum⟩
    have hi := List.mem_range.mp hi
    refine ⟨(q * 2 ^ (1074 - i : Int)).num, i - 1074, hnum, by omega, by omega, ?_⟩
    have hint : (((q * 2 ^ (1074 - i : Int)).num : Int) : Rat) = q * 2 ^ (1074 - i : Int) :=
      Rat.coe_int_num_of_den_eq_one hden
    have hzero : (1074 - i + (i - 1074) : Int) = 0 := by omega
    rw [hint, mul_assoc, ← zpow_add₀ (by norm_num), hzero, zpow_zero, mul_one]
  · rintro ⟨m, e, hm, hlow, hhigh, rfl⟩
    refine ⟨(e + 1074).toNat, List.mem_range.mpr (by omega), ?_⟩
    have hexponent : (1074 - ((e + 1074).toNat : Int)) = -e := by omega
    have hvalue : (m : Rat) * 2 ^ e * 2 ^ (-e) = (m : Rat) := by
      rw [mul_assoc, ← zpow_add₀ (by norm_num), add_neg_cancel, zpow_zero, mul_one]
    rw [hexponent, hvalue]
    exact ⟨Rat.den_intCast m, hm⟩

theorem isScaled_iff_isDouble {q : Rat} : isScaled 2046 q = true ↔ IsDouble q := by
  refine isScaled_iff.trans ⟨?_, ?_⟩
  · rintro ⟨m, e, hm, hlow, hhigh, hq⟩
    have he : e ≤ 971 := by omega
    exact ⟨m, e, hm, hlow, he, hq⟩
  · rintro ⟨m, e, hm, hlow, hhigh, hq⟩
    have he : (e + 1074).toNat < 2046 := by omega
    exact ⟨m, e, hm, hlow, he, hq⟩

theorem lt_ten_pow_of_cast {n k m : Nat} (h : (n : Rat) < 2 ^ (k : Int)) (hm : k ≤ m) :
    n < 10 ^ m := by
  have hlt : n < 2 ^ k := by
    rw [zpow_natCast] at h
    exact_mod_cast h
  calc n < 2 ^ k := hlt
    _ ≤ 10 ^ k := Nat.pow_le_pow_left (by decide) k
    _ ≤ 10 ^ m := Nat.pow_le_pow_right (by decide) hm

/-- An integral double has few digits. -/
theorem natAbs_num_lt {q : Rat} (h : IsDouble q) (hden : q.den = 1) :
    q.num.natAbs < 10 ^ maxStrDigits := by
  obtain ⟨m, e, hm, -, hhigh, rfl⟩ := h
  have hscale : (2 : Rat) ^ e ≤ 2 ^ (971 : Int) := zpow_le_zpow_right₀ (by norm_num) hhigh
  have hpositive : (0 : Rat) < 2 ^ e := zpow_pos (by norm_num) e
  have hm' : (m.natAbs : Rat) < 2 ^ (53 : Int) := by exact_mod_cast hm
  have hbound : |(m : Rat) * 2 ^ e| < 2 ^ (1024 : Int) := by
    have hsplit : (2 : Rat) ^ (1024 : Int) = 2 ^ (53 : Int) * 2 ^ (971 : Int) := by
      rw [← zpow_add₀ (by norm_num)]
      rfl
    rw [abs_mul, abs_of_pos hpositive, ← Int.cast_abs, ← Nat.cast_natAbs, hsplit]
    exact mul_lt_mul hm' hscale hpositive (zpow_nonneg (by norm_num) _)
  have hint : (((m : Rat) * 2 ^ e).num.natAbs : Rat) = |(m : Rat) * 2 ^ e| := by
    conv_rhs => rw [← Rat.coe_int_num_of_den_eq_one hden]
    rw [← Int.cast_abs, ← Nat.cast_natAbs]
  rw [← hint] at hbound
  generalize ((m : Rat) * 2 ^ e).num.natAbs = n at hbound ⊢
  exact lt_ten_pow_of_cast (k := 1024) hbound (by decide)

/-- What has none of the exponents is no number. -/
def ifScaled (exponents : Nat) : FloatValue → FloatValue
  | .finite q => if isScaled exponents q then .finite q else .nan
  | x => x

theorem ifScaled_finite {exponents : Nat} {q : Rat} (h : isScaled exponents q = true) :
    ifScaled exponents (.finite q) = .finite q := if_pos h

theorem isScaled_of_ifScaled {exponents : Nat} {x : FloatValue} {q : Rat}
    (h : ifScaled exponents x = .finite q) : isScaled exponents q = true := by
  cases x with
  | finite q' =>
    by_cases hscaled : isScaled exponents q' = true
    · cases (ifScaled_finite hscaled).symm.trans h
      exact hscaled
    · have hnan : ifScaled exponents (.finite q') = .nan := if_neg hscaled
      cases hnan.symm.trans h
  | inf negative => cases h
  | nan => cases h

theorem ifScaled_exactRepr {exponents : Nat} {q : Rat} (h : IsDouble q)
    (hscaled : isScaled exponents q = true) :
    ifScaled exponents (exactParse (exactRepr q)) = .finite q := by
  rw [exactParse_exactRepr h, ifScaled_finite hscaled]

/-- Texts of floats that are their exact expansions. -/
def doubleDecimals : FloatText where
  repr := exactRepr
  parse s := ifScaled 2046 (exactParse s)
  literal := fun q _ => isFloatLiteral_exactRepr q
  parse_repr := fun _ h => ifScaled_exactRepr h (isScaled_iff_isDouble.mpr h)

theorem doubleDecimals_readsDoubles : doubleDecimals.ReadsDoubles :=
  fun s _ h => isScaled_iff_isDouble.mp (isScaled_of_ifScaled (x := exactParse s) h)

end Json

end Python
