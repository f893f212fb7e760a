import AgentDev.Python.JsonStrings
import AgentDev.Python.Utf8

/-!
# Inline tables of TOML

A reader of the inline tables of TOML 1.0 whose values are strings on one line. What JSON writes as a
string literal, without escapes of non-ASCII characters, is a basic string of TOML with the same
value, but for the character U+007F, which JSON leaves as it is and TOML forbids
(`basicString_writeStr`).
-/

namespace Toml

open Python Python.Json

/-! ## Strings -/

/-- `basic-unescaped` -/
def isUnescaped (c : CodePoint) : Bool :=
  c.val = 0x09 || c.val = 0x20 || c.val = 0x21 || (0x23 ≤ c.val && c.val ≤ 0x5B) ||
    (0x5D ≤ c.val && c.val ≤ 0x7E) || (0x80 ≤ c.val && c.val ≤ 0xD7FF) || 0xE000 ≤ c.val

/-- `escape-seq-char`, but for the code points. -/
def escapes : List (CodePoint × CodePoint) :=
  [(ord '"', ord '"'), (ord '\\', ord '\\'), (ord 'b', 8), (ord 'f', 12), (ord 'n', 10),
    (ord 'r', 13), (ord 't', 9)]

/-- Where a reader is in a basic string: outside of escapes, after a backslash, or before the last
digits of the number of a code point. -/
inductive Place
  | plain
  | letter
  | code (remaining value : Nat)

/-- The rest of a basic string after its opening quote, and what comes after it. -/
def basicString : Place → Str → Option (Str × Str)
  | _, [] => none
  | .plain, c :: rest =>
    if c = ord '"' then some ([], rest)
    else if c = ord '\\' then basicString .letter rest
    else if isUnescaped c then (basicString .plain rest).map fun (s, after) => (c :: s, after)
    else none
  | .letter, c :: rest =>
    match escapes.lookup c with
    | some char => (basicString .plain rest).map fun (s, after) => (char :: s, after)
    | none =>
      if c = ord 'u' then basicString (.code 3 0) rest
      else if c = ord 'U' then basicString (.code 7 0) rest
      else none
  | .code remaining value, c :: rest =>
    match hexValue? c with
    | none => none
    | some d =>
      match remaining with
      | remaining + 1 => basicString (.code remaining (16 * value + d)) rest
      | 0 =>
        if 16 * value + d < 0x110000 && IsScalar (chr (16 * value + d)) then
          (basicString .plain rest).map fun (s, after) => (chr (16 * value + d) :: s, after)
        else none

/-- `literal-char` -/
def isLiteralChar (c : CodePoint) : Bool :=
  isUnescaped c && c.val ≠ 0x27 || c = ord '"' || c = ord '\\'

/-- A string between quotes of either kind. -/
def quoted : Str → Option (Str × Str)
  | [] => none
  | c :: rest =>
    if c = ord '"' then basicString .plain rest
    else if c.val = 0x27 then
      match rest.dropWhile isLiteralChar with
      | quote :: after => if quote.val = 0x27 then some (rest.takeWhile isLiteralChar, after) else none
      | [] => none
    else none

/-! ## Strings of JSON -/

/-- The character that JSON leaves as it is and TOML forbids. -/
def delete : CodePoint := 0x7F

theorem basicString_escapeCode {n : Nat} (h : n < 0xD800) (rest : Str) :
    basicString .plain (escapeCode n ++ rest) =
      (basicString .plain rest).map fun (s, after) => (chr n :: s, after) := by
  have hvalue : ∀ m, hexValue? (hexDigit (m % 16)) = some (m % 16) :=
    fun m => hexValue?_hexDigit (Nat.mod_lt m (by omega))
  have hsum : 16 * (16 * (16 * (16 * 0 + n / 4096 % 16) + n / 256 % 16) + n / 16 % 16) + n % 16 = n := by
    omega
  have hlookup : escapes.lookup (ord 'u') = none := by decide
  have hplace : basicString .plain (escapeCode n ++ rest) =
      basicString (.code 3 0) (hexDigit (n / 4096 % 16) :: hexDigit (n / 256 % 16) ::
        hexDigit (n / 16 % 16) :: hexDigit (n % 16) :: rest) := by
    show basicString .plain (ord '\\' :: ord 'u' :: _) = _
    rw [basicString, if_neg (by decide), if_pos rfl, basicString, hlookup]
    exact if_pos rfl
  have hscalar : IsScalar (chr n) := by
    rw [IsScalar, chr_val (by omega)]
    exact Or.inl h
  rw [hplace]
  simp only [basicString, hvalue, hsum]
  exact if_pos (by simp only [Bool.and_eq_true, decide_eq_true_eq]; exact ⟨by omega, hscalar⟩)

theorem basicString_shortEscape {c letter : CodePoint} (h : (c, letter) ∈ shortEscapes) (rest : Str) :
    basicString .plain (ord '\\' :: letter :: rest) =
      (basicString .plain rest).map fun (s, after) => (c :: s, after) := by
  have hall : shortEscapes.all (fun item => escapes.lookup item.2 = some item.1) = true := by
    decide +kernel
  have hlookup : escapes.lookup letter = some c := by
    simpa using List.all_eq_true.mp hall (c, letter) h
  rw [basicString, if_neg (by decide), if_pos rfl, basicString, hlookup]

theorem isUnescaped_iff {c : CodePoint} (hscalar : IsScalar c) (hprint : ¬ c.val < 0x20)
    (hquote : c ≠ ord '"') (hescape : c ≠ ord '\\') : isUnescaped c = true ↔ c ≠ delete := by
  have hquote' : c.val ≠ 0x22 := fun h => hquote (Fin.ext h)
  have hescape' : c.val ≠ 0x5C := fun h => hescape (Fin.ext h)
  have hdelete : c ≠ delete ↔ c.val ≠ 0x7F := not_congr Fin.ext_iff
  rw [hdelete]
  simp only [isUnescaped, IsScalar, Bool.or_eq_true, Bool.and_eq_true, decide_eq_true_eq] at *
  omega

/-- A character as JSON writes it. -/
theorem basicString_escapeChar {c : CodePoint} (hscalar : IsScalar c) (rest : Str) :
    basicString .plain (escapeChar false c ++ rest) = if c = delete then none
      else (basicString .plain rest).map fun (s, after) => (c :: s, after) := by
  unfold escapeChar
  cases hshort : shortEscapes.lookup c with
  | some letter =>
    obtain ⟨before, others, hitems, -⟩ := List.lookup_eq_some_iff.mp hshort
    have hne : c ≠ delete := by
      rintro rfl
      cases hshort
    rw [if_neg hne]
    exact basicString_shortEscape (by simp [hitems]) rest
  | none =>
    simp only [Bool.false_and, Bool.or_false, decide_eq_true_eq]
    by_cases hcontrol : c.val < 0x20
    · have hne : c ≠ delete := by
        rintro rfl
        exact absurd hcontrol (by decide)
      rw [if_pos hcontrol, if_pos (by omega), if_neg hne, basicString_escapeCode (by omega),
        chr_of_val]
    · have hquote : c ≠ ord '"' := by
        rintro rfl
        cases hshort
      have hescape : c ≠ ord '\\' := by
        rintro rfl
        cases hshort
      have hiff := isUnescaped_iff hscalar hcontrol hquote hescape
      rw [if_neg hcontrol, List.singleton_append, basicString, if_neg hquote, if_neg hescape]
      by_cases hdelete : c = delete
      · rw [if_pos hdelete, if_neg fun h => hiff.mp h hdelete]
      · rw [if_neg hdelete, if_pos (hiff.mpr hdelete)]

/-- A string as JSON writes it. -/
theorem basicString_writeStr {s : Str} (hscalar : ∀ c ∈ s, IsScalar c) (rest : Str) :
    basicString .plain (s.flatMap (escapeChar false) ++ ord '"' :: rest) =
      if delete ∈ s then none else some (s, rest) := by
  induction s with
  | nil => rfl
  | cons c s ih =>
    rw [List.flatMap_cons, List.append_assoc, basicString_escapeChar (hscalar c List.mem_cons_self),
      ih fun d hd => hscalar d (List.mem_cons_of_mem c hd)]
    by_cases hc : c = delete
    · rw [if_pos hc, if_pos (List.mem_cons.mpr (Or.inl hc.symm))]
    · rw [if_neg hc]
      by_cases hs : delete ∈ s
      · rw [if_pos hs, if_pos (List.mem_cons_of_mem c hs)]
        rfl
      · rw [if_neg hs, if_neg (List.not_mem_cons_of_ne_of_not_mem (Ne.symm hc) hs)]
        rfl

/-! ## Tables -/

/-- `ws` -/
def skip (s : Str) : Str := s.dropWhile fun c => c.val = 0x20 || c.val = 0x09

def expect (c : Char) : Str → Option Str
  | [] => none
  | d :: rest => if d = ord c then some rest else none

/-- The characters of an `unquoted-key`. -/
def isBare (c : CodePoint) : Bool :=
  (48 ≤ c.val && c.val ≤ 57) || (65 ≤ c.val && c.val ≤ 90) || (97 ≤ c.val && c.val ≤ 122) ||
    c = ord '-' || c = ord '_'

def simpleKey (s : Str) : Option (Str × Str) :=
  if s.takeWhile isBare ≠ [] then some (s.takeWhile isBare, s.dropWhile isBare) else quoted s

/-- A key with its dots. -/
abbrev Key := List Str

def key : Nat → Str → Option (Key × Str)
  | 0, _ => none
  | fuel + 1, s => do
    let (name, s) ← simpleKey s
    if (skip s).head? = some (ord '.') then
      let (names, s) ← key fuel (skip (skip s).tail)
      return (name :: names, s)
    else return ([name], s)

/-- A table as the list of its items. -/
abbrev Table := List (Key × Str)

/-- `inline-table-keyvals` -/
def items : Nat → Str → Option (Table × Str)
  | 0, _ => none
  | fuel + 1, s => do
    let (path, s) ← key fuel s
    let s ← expect '=' (skip s)
    let (value, s) ← quoted (skip s)
    if (skip s).head? = some (ord ',') then
      let (rest, s) ← items fuel (skip (skip s).tail)
      return ((path, value) :: rest, s)
    else return ([(path, value)], s)

theorem items_of_key {fuel : Nat} {s s₁ s₂ s₃ : Str} {path : Key} {value : Str}
    (hkey : key fuel s = some (path, s₁)) (hequals : expect '=' (skip s₁) = some s₂)
    (hvalue : quoted (skip s₂) = some (value, s₃)) :
    items (fuel + 1) s =
      if (skip s₃).head? = some (ord ',') then
        (items fuel (skip (skip s₃).tail)).map fun (table, s) => ((path, value) :: table, s)
      else some ([(path, value)], s₃) := by
  rw [items, hkey]
  show ((expect '=' (skip s₁)).bind fun s => (quoted (skip s)).bind _) = _
  rw [hequals]
  show ((quoted (skip s₂)).bind _) = _
  rw [hvalue]
  by_cases hcomma : (skip s₃).head? = some (ord ',')
  · rw [if_pos hcomma]
    show (if (skip s₃).head? = some (ord ',') then _ else _) = _
    rw [if_pos hcomma]
    cases items fuel (skip (skip s₃).tail) <;> rfl
  · rw [if_neg hcomma]
    exact if_neg hcomma

/-- No key is defined twice, and none both as a string and as a table. -/
def Consistent (table : Table) : Prop :=
  table.Pairwise fun a b => ¬ a.1 <+: b.1 ∧ ¬ b.1 <+: a.1

instance (table : Table) : Decidable (Consistent table) :=
  inferInstanceAs (Decidable (List.Pairwise _ _))

/-- The table that a text is. -/
def inlineTable (s : Str) : Option Table := do
  let s ← expect '\x7b' s
  if skip s = str "\x7d" then return []
  let (table, s) ← items (s.length + 1) (skip s)
  if skip s = str "\x7d" ∧ Consistent table then return table else none

end Toml
