import Mathlib.Data.List.Lex
import Mathlib.Data.List.Sort

/-!
# Python values

The values that a program can be handed as `object`: strings as lists of code points (lone
surrogates included), numbers with their exact value, sequences, and mappings. What no check of
the modelled code accepts (bytes, sets, instances of other classes) is `Value.other`.

A mapping is the list of its items, whose keys are distinct; `Dict.set` is `d[key] = value`.
-/

namespace Python

/-! ## Strings -/

abbrev CodePoint := Fin 0x110000

/-- `str` -/
abbrev Str := List CodePoint

-- Shortcuts to instances that are looked for everywhere.
instance CodePoint.neZero : @NeZero Nat Zero.ofOfNat0 0x110000 := Nat.instNeZeroSucc

instance CodePoint.lawfulBEq : LawfulBEq CodePoint := inferInstance

instance Str.lawfulBEq : LawfulBEq Str := inferInstance

instance Str.isTrans : IsTrans Str (· ≤ ·) := inferInstance

instance Str.antisymm : Std.Antisymm fun a b : Str => a ≤ b := inferInstance

instance Str.total : Std.Total fun a b : Str => a ≤ b := inferInstance

/-- The Python string of a literal. -/
def str (s : String) : Str := s.toList.map fun c => Fin.ofNat _ c.toNat

theorem str_append (s t : String) : str (s ++ t) = str s ++ str t := by
  simp [str, String.toList_append]

/-- `sep.join(parts)` -/
def join (sep : Str) : List Str → Str
  | [] => []
  | [part] => part
  | part :: rest => part ++ sep ++ join sep rest

/-- `sorted(strings)` -/
def sorted (strings : List Str) : List Str := strings.insertionSort (· ≤ ·)

/-- `str.isspace` of one character. -/
def isSpace (c : CodePoint) : Bool :=
  (9 ≤ c.val && c.val ≤ 13) || (28 ≤ c.val && c.val ≤ 32) || c.val = 0x85 || c.val = 0xA0 ||
    c.val = 0x1680 || (0x2000 ≤ c.val && c.val ≤ 0x200A) || c.val = 0x2028 || c.val = 0x2029 ||
    c.val = 0x202F || c.val = 0x205F || c.val = 0x3000

/-- `s.strip()` -/
def strip (s : Str) : Str :=
  ((s.dropWhile isSpace).reverse.dropWhile isSpace).reverse

/-- The value of an ASCII digit, `[0-9]`. -/
def digit? (c : CodePoint) : Option Nat :=
  if 48 ≤ c.val && c.val ≤ 57 then some (c.val - 48) else none

/-- `int(digits)` for ASCII digits. -/
def natOfDigits (digits : Str) : Nat :=
  digits.foldl (fun n c => 10 * n + (digit? c).getD 0) 0

/-! ## Numbers and values -/

/-- `float` -/
inductive FloatValue
  | finite (value : Rat)
  | inf (negative : Bool)
  | nan
  deriving DecidableEq

/-- A key of a mapping; `other` is any hashable value that is not a string. -/
inductive Key
  | str (name : Str)
  | other
  deriving DecidableEq

inductive Value
  | none
  | bool (value : Bool)
  | int (value : Int)
  | float (value : FloatValue)
  | str (value : Str)
  /-- A `Sequence` other than a string or bytes. -/
  | seq (items : List Value)
  | dict (items : List (Key × Value))
  | other

/-- `value == text` for a string `text`. -/
def Value.isStr (value : Value) (text : Str) : Bool :=
  match value with
  | .str s => s = text
  | _ => false

abbrev Dict := List (Key × Value)

namespace Dict

def get? (d : Dict) (name : Str) : Option Value := d.lookup (.str name)

/-- `name in d` -/
def contains (d : Dict) (name : Str) : Bool := (d.get? name).isSome

def set (d : Dict) (key : Key) (value : Value) : Dict :=
  match d with
  | [] => [(key, value)]
  | item :: rest => if item.1 = key then (key, value) :: rest else item :: set rest key value

/-- The keys that are strings. -/
def names (d : Dict) : List Str :=
  d.filterMap fun item => match item.1 with
    | .str name => some name
    | .other => none

/-- Whether all keys are strings. -/
def hasNames (d : Dict) : Bool := d.all fun item => item.1 ≠ .other

variable {d : Dict} {name : Str} {value : Value}

theorem lookup_cons (key key' : Key) (value : Value) (rest : Dict) :
    List.lookup key' ((key, value) :: rest) = if key' = key then some value else rest.lookup key' := by
  by_cases h : key' = key
  · simp [h]
  · have hne : (key' == key) = false := beq_eq_false_iff_ne.mpr h
    simp [List.lookup_cons, hne, h]

theorem lookup_set (d : Dict) (key key' : Key) (value : Value) :
    (d.set key value).lookup key' = if key' = key then some value else d.lookup key' := by
  induction d with
  | nil => exact lookup_cons key key' value []
  | cons item rest ih =>
    obtain ⟨first, old⟩ := item
    by_cases hfirst : first = key
    · subst hfirst
      simp only [set, lookup_cons, if_true]
      split <;> rfl
    · simp only [set, if_neg hfirst, lookup_cons, ih]
      by_cases h : key' = first
      · have hne : key' ≠ key := fun heq => hfirst (h.symm.trans heq)
        rw [if_pos h, if_neg hne, if_pos h]
      · rw [if_neg h, if_neg h]

theorem mem_names : name ∈ d.names ↔ (d.get? name).isSome = true := by
  rw [get?, List.lookup_isSome_iff, names, List.mem_filterMap]
  constructor
  · rintro ⟨item, hmem, hname⟩
    refine ⟨item, hmem, ?_⟩
    split at hname
    · rename_i hkey
      cases hname
      simp [hkey]
    · cases hname
  · rintro ⟨item, hmem, hkey⟩
    refine ⟨item, hmem, ?_⟩
    rw [← eq_of_beq hkey]

theorem hasNames_iff : d.hasNames = true ↔ d.lookup .other = none := by
  rw [hasNames, List.all_eq_true, List.lookup_eq_none_iff]
  constructor
  · intro h item hitem
    have hne : item.1 ≠ .other := by simpa using h item hitem
    exact bne_iff_ne.mpr (Ne.symm hne)
  · intro h item hitem
    have hne := bne_iff_ne.mp (h item hitem)
    simpa using Ne.symm hne

theorem get?_of_mem (hdistinct : d.names.Nodup) (hmem : (Key.str name, value) ∈ d) :
    d.get? name = some value := by
  induction d with
  | nil => cases hmem
  | cons item rest ih =>
    rcases List.mem_cons.mp hmem with rfl | hrest
    · simp [get?]
    · clear hmem
      obtain ⟨key, first⟩ := item
      cases key with
      | other => simpa [get?, lookup_cons] using ih hdistinct hrest
      | str other =>
        have hnodup : (other :: names rest).Nodup := hdistinct
        obtain ⟨hnew, hnodup⟩ := List.nodup_cons.mp hnodup
        have hrest := ih hnodup hrest
        have hne : name ≠ other := by
          rintro rfl
          exact hnew (mem_names.mpr (by rw [hrest]; rfl))
        simpa [get?, lookup_cons, hne] using hrest

end Dict

/-! ## Distinct keys -/

mutual

/-- All mappings in the value have distinct keys, as Python mappings have. -/
def Value.Distinct : Value → Prop
  | .dict items => (Dict.names items).Nodup ∧ itemsDistinct items
  | _ => True

def itemsDistinct : List (Key × Value) → Prop
  | [] => True
  | (_, value) :: rest => value.Distinct ∧ itemsDistinct rest

end

end Python
