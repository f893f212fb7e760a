import AgentDev.Python.JsonNumbers
import Mathlib.Algebra.Order.Field.Basic
import Mathlib.Data.Nat.Prime.Basic
import Mathlib.Data.Rat.Lemmas
import Mathlib.Tactic.FieldSimp
import Mathlib.Tactic.Ring

/-!
# Exact decimals

Every finite float has an exact decimal expansion, since its denominator is a power of two. Written
out, the expansions satisfy what is assumed of the texts of floats (`exactDecimals`).
-/

namespace Python.Json

/-! ## Digits of fixed number -/

/-- The last `k` decimal digits of a number. -/
def lastDigits : Nat → Nat → Str
  | 0, _ => []
  | k + 1, n => lastDigits k (n / 10) ++ [digitChar (n % 10)]

theorem length_lastDigits (k n : Nat) : (lastDigits k n).length = k := by
  induction k generalizing n with
  | zero => rfl
  | succ k ih => rw [lastDigits, List.length_append, ih]; rfl

theorem isDigit_lastDigits (k n : Nat) : ∀ c ∈ lastDigits k n, isDigit c = true := by
  induction k generalizing n with
  | zero => exact fun _ hc => nomatch hc
  | succ k ih =>
    intro c hc
    rcases List.mem_append.mp hc with hc | hc
    · exact ih (n / 10) c hc
    · rw [List.mem_singleton.mp hc]
      exact isDigit_digitChar (Nat.mod_lt n (by omega))

theorem natOfDigits_append (digits : Str) (k n : Nat) :
    natOfDigits (digits ++ lastDigits k n) = natOfDigits digits * 10 ^ k + n % 10 ^ k := by
  induction k generalizing n with
  | zero => simp [lastDigits, Nat.mod_one]
  | succ k ih =>
    have hdigit := digit?_digitChar (Nat.mod_lt n (by omega : 10 > 0))
    have hlast : natOfDigits (digits ++ lastDigits (k + 1) n) =
        10 * natOfDigits (digits ++ lastDigits k (n / 10)) + n % 10 := by
      rw [lastDigits, ← List.append_assoc]
      simp only [natOfDigits, List.foldl_append, List.foldl_cons, List.foldl_nil, hdigit,
        Option.getD_some]
    have hmod : n % 10 ^ (k + 1) = 10 * (n / 10 % 10 ^ k) + n % 10 := by
      rw [Nat.pow_succ', Nat.mod_mul]
      omega
    rw [hlast, ih, hmod]
    ring

/-! ## The expansion -/

/-- The number of digits after the point. -/
def decimals (q : Rat) : Nat := max 1 (Nat.log 2 q.den)

/-- The digits of the expansion, as a number. -/
def scaled (q : Rat) : Nat := q.num.natAbs * (10 ^ decimals q / q.den)

def signOf (q : Rat) : Str := if q < 0 then str "-" else []

def exactRepr (q : Rat) : Str :=
  signOf q ++ (natRepr (scaled q / 10 ^ decimals q) ++
    ord '.' :: lastDigits (decimals q) (scaled q))

/-- A literal without an exponent. -/
def exactParse (s : Str) : FloatValue :=
  let (sign, s) := matchSign s
  let int := s.takeWhile isDigit
  let frac := (s.dropWhile isDigit).tail
  let q : Rat := natOfDigits (int ++ frac) / 10 ^ frac.length
  .finite (if sign = [] then q else -q)

theorem isFloatLiteral_exactRepr (q : Rat) : IsFloatLiteral (exactRepr q) := by
  have hlength : (lastDigits (decimals q) (scaled q)).length ≠ 0 := by
    rw [length_lastDigits, decimals]
    omega
  have hdigits := isDigit_lastDigits (decimals q) (scaled q)
  have hfrac : IsFraction (ord '.' :: lastDigits (decimals q) (scaled q)) := by
    cases hlast : lastDigits (decimals q) (scaled q) with
    | nil =>
      rw [hlast] at hlength
      exact absurd rfl hlength
    | cons c rest =>
      rw [hlast, List.forall_mem_cons] at hdigits
      exact ⟨c, rest, rfl, hdigits.1, hdigits.2⟩
  have hsign : signOf q = [] ∨ signOf q = str "-" := by
    unfold signOf
    split
    · exact Or.inr rfl
    · exact Or.inl rfl
  refine ⟨signOf q, natRepr (scaled q / 10 ^ decimals q), _, [], ?_, hsign, natRepr_head _,
    Or.inr hfrac, Or.inl rfl, ?_⟩
  · simp [exactRepr]
  · simp

/-- The denominator of a float is a power of two. -/
theorem den_of_isDouble {q : Rat} (h : IsDouble q) : ∃ j, q.den = 2 ^ j := by
  obtain ⟨m, e, -, -, -, rfl⟩ := h
  have hdvd : ((m : Rat) * 2 ^ e).den ∣ 2 ^ (-e).toNat := by
    rcases le_or_gt 0 e with he | he
    · have hint : (m : Rat) * 2 ^ e = ((m * 2 ^ e.toNat : Int) : Rat) := by
        obtain ⟨n, rfl⟩ := Int.eq_ofNat_of_zero_le he
        push_cast
        simp
      rw [hint, Rat.den_intCast]
      exact Nat.one_dvd _
    · obtain ⟨n, rfl⟩ : ∃ n : Nat, e = -(n : Int) := ⟨(-e).toNat, by omega⟩
      have hdiv : (m : Rat) * 2 ^ (-(n : Int)) = Rat.divInt m ((2 ^ n : Nat) : Int) := by
        rw [Rat.divInt_eq_div, zpow_neg, zpow_natCast]
        simp [div_eq_mul_inv]
      rw [hdiv, neg_neg, Int.toNat_natCast]
      exact Int.natCast_dvd_natCast.mp (Rat.den_dvd m _)
  obtain ⟨j, _, hj⟩ := (Nat.dvd_prime_pow Nat.prime_two).mp hdvd
  exact ⟨j, hj⟩

theorem scaled_eq {q : Rat} (h : IsDouble q) :
    (scaled q : Rat) / 10 ^ decimals q = |q| := by
  obtain ⟨j, hj⟩ := den_of_isDouble h
  have hdvd : q.den ∣ 10 ^ decimals q := by
    have hle : j ≤ decimals q := by
      rw [decimals, hj, Nat.log_pow (by omega)]
      omega
    rw [hj]
    exact (pow_dvd_pow 2 hle).trans (pow_dvd_pow_of_dvd (by decide) _)
  have hmul : ((10 ^ decimals q / q.den : Nat) : Rat) * q.den = 10 ^ decimals q := by
    exact_mod_cast Nat.div_mul_cancel hdvd
  have hden : (q.den : Rat) ≠ 0 := by exact_mod_cast q.den_ne_zero
  have habs : |q| = (q.num.natAbs : Rat) / q.den := by
    conv_lhs => rw [← Rat.num_div_den q]
    rw [abs_div, Nat.abs_cast, Nat.cast_natAbs, Int.cast_abs]
  rw [habs, scaled, Nat.cast_mul, ← hmul]
  have hquot : ((10 ^ decimals q / q.den : Nat) : Rat) ≠ 0 := by
    intro hzero
    rw [hzero, zero_mul] at hmul
    exact pow_ne_zero _ (by norm_num) hmul.symm
  field_simp

theorem exactParse_exactRepr {q : Rat} (h : IsDouble q) : exactParse (exactRepr q) = .finite q := by
  have hsign : signOf q = [] ∨ signOf q = str "-" := by
    unfold signOf
    split
    · exact Or.inr rfl
    · exact Or.inl rfl
  have hpoint : NoDigit (ord '.' :: lastDigits (decimals q) (scaled q)) := by
    intro c hc
    cases hc
    decide
  have hnumber : natOfDigits (natRepr (scaled q / 10 ^ decimals q) ++
      lastDigits (decimals q) (scaled q)) = scaled q := by
    rw [natOfDigits_append, natOfDigits_natRepr]
    exact Nat.div_add_mod' _ _
  unfold exactParse exactRepr
  rw [matchSign_append hsign (natRepr_head _)]
  simp only [takeWhile_digits (natRepr_digits _) hpoint, dropWhile_digits (natRepr_digits _) hpoint,
    List.tail_cons, hnumber, length_lastDigits, scaled_eq h]
  congr 1
  unfold signOf
  split
  · rename_i hneg
    rw [if_neg (by decide), abs_of_neg hneg, neg_neg]
  · rename_i hneg
    rw [if_pos rfl, abs_of_nonneg (not_lt.mp hneg)]

/-- Texts of floats that are their exact expansions. -/
def exactDecimals : FloatText where
  repr := exactRepr
  parse := exactParse
  literal := fun q _ => isFloatLiteral_exactRepr q
  parse_repr := fun _ h => exactParse_exactRepr h

end Python.Json
