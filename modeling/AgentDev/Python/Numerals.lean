import AgentDev.Python.Values
import Mathlib.Data.Nat.Digits.Lemmas

/-!
# Decimal numerals

`str` and `int` of natural numbers: the digits of a number are read back as the number
(`natOfDigits_natRepr`), and they are what a run of digits in a longer text is
(`takeWhile_digits`).
-/

namespace Python

/-- `chr(n)` -/
def chr (n : Nat) : CodePoint := Fin.ofNat _ n

/-- `ord(c)` -/
def ord (c : Char) : CodePoint := chr c.toNat

def isDigit (c : CodePoint) : Bool := (digit? c).isSome

/-- The character of a digit. -/
def digitChar (d : Nat) : CodePoint := chr (48 + d)

/-- `str(n)` -/
def natRepr (n : Nat) : Str :=
  if n = 0 then [ord '0'] else (Nat.digits 10 n).reverse.map digitChar

theorem chr_val {n : Nat} (h : n < 0x110000) : (chr n).val = n := Nat.mod_eq_of_lt h

theorem chr_of_val (c : CodePoint) : chr c.val = c := Fin.ext (chr_val c.isLt)

/-! ## Digits -/

theorem digit?_digitChar {d : Nat} (h : d < 10) : digit? (digitChar d) = some d := by
  have hval : (digitChar d).val = 48 + d := chr_val (by omega)
  unfold digit?
  rw [hval]
  simp
  omega

theorem isDigit_digitChar {d : Nat} (h : d < 10) : isDigit (digitChar d) = true := by
  rw [isDigit, digit?_digitChar h]
  rfl

/-- Digits are read from the left, the last one counting least. -/
theorem foldl_digits {digits : List Nat} (h : ∀ d ∈ digits, d < 10) (n : Nat) :
    (digits.map digitChar).foldl (fun n c => 10 * n + (digit? c).getD 0) n =
      digits.foldl (fun n d => 10 * n + d) n := by
  induction digits generalizing n with
  | nil => rfl
  | cons d rest ih =>
    have hd := digit?_digitChar (h d List.mem_cons_self)
    simp only [List.map_cons, List.foldl_cons, hd, Option.getD_some]
    exact ih (fun d' hd' => h d' (List.mem_cons_of_mem _ hd')) _

theorem natOfDigits_reverse {digits : List Nat} (h : ∀ d ∈ digits, d < 10) :
    natOfDigits (digits.reverse.map digitChar) = Nat.ofDigits 10 digits := by
  have hreverse : ∀ d ∈ digits.reverse, d < 10 := fun d hd => h d (List.mem_reverse.mp hd)
  unfold natOfDigits
  rw [foldl_digits hreverse, List.foldl_reverse]
  induction digits with
  | nil => rfl
  | cons d rest ih =>
    have hrest : ∀ d ∈ rest, d < 10 := fun d' hd' => h d' (List.mem_cons_of_mem _ hd')
    rw [List.foldr_cons, ih hrest fun d' hd' => hrest d' (List.mem_reverse.mp hd'),
      Nat.ofDigits_cons]
    ring

/-- `int(str(n)) == n` -/
theorem natOfDigits_natRepr (n : Nat) : natOfDigits (natRepr n) = n := by
  unfold natRepr
  split
  · rename_i hn
    rw [hn]
    decide
  · rw [natOfDigits_reverse fun d hd => Nat.digits_lt_base (by omega) hd]
    exact Nat.ofDigits_digits 10 n

theorem natRepr_digits (n : Nat) : ∀ c ∈ natRepr n, isDigit c = true := by
  intro c hc
  unfold natRepr at hc
  split at hc
  · rw [List.mem_singleton.mp hc]
    decide
  · obtain ⟨d, hd, rfl⟩ := List.mem_map.mp hc
    exact isDigit_digitChar (Nat.digits_lt_base (by omega) (List.mem_reverse.mp hd))

/-- A numeral is `0`, or begins with another digit. -/
theorem natRepr_head (n : Nat) : natRepr n = [ord '0'] ∨
    ∃ c rest, natRepr n = c :: rest ∧ c ≠ ord '0' ∧ isDigit c = true ∧
      ∀ d ∈ rest, isDigit d = true := by
  by_cases hn : n = 0
  · left
    simp [natRepr, hn]
  · right
    have hne : Nat.digits 10 n ≠ [] := Nat.digits_ne_nil_iff_ne_zero.mpr hn
    have hlast : (Nat.digits 10 n).getLast hne ≠ 0 := Nat.getLast_digit_ne_zero 10 hn
    have hlt : (Nat.digits 10 n).getLast hne < 10 :=
      Nat.digits_lt_base (by omega) (List.getLast_mem hne)
    have hall := natRepr_digits n
    have hrepr : natRepr n = digitChar ((Nat.digits 10 n).getLast hne) ::
        ((Nat.digits 10 n).dropLast.reverse.map digitChar) := by
      rw [natRepr, if_neg hn]
      conv_lhs => rw [← List.dropLast_append_getLast hne]
      simp
    rw [hrepr] at hall
    refine ⟨_, _, hrepr, fun heq => ?_, hall _ List.mem_cons_self,
      fun d hd => hall d (List.mem_cons_of_mem _ hd)⟩
    have hdigit := digit?_digitChar hlt
    rw [heq] at hdigit
    exact hlast (Option.some.inj hdigit).symm

/-! ## Runs of digits -/

/-- The text does not go on with a digit. -/
def NoDigit (s : Str) : Prop := ∀ c ∈ s.head?, isDigit c = false

section

variable {digits rest : Str}

theorem takeWhile_digits (h : ∀ c ∈ digits, isDigit c = true) (hrest : NoDigit rest) :
    (digits ++ rest).takeWhile isDigit = digits := by
  rw [List.takeWhile_append_of_pos h]
  cases rest with
  | nil => simp
  | cons c rest => simp [hrest c rfl]

theorem dropWhile_digits (h : ∀ c ∈ digits, isDigit c = true) (hrest : NoDigit rest) :
    (digits ++ rest).dropWhile isDigit = rest := by
  rw [List.dropWhile_append_of_pos h]
  cases rest with
  | nil => rfl
  | cons c rest => simp [hrest c rfl]

end

end Python
