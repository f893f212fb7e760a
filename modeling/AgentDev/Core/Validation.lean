import Mathlib.Data.List.Defs

/-!
# Identifiers and errors

The shared name contract of projects, tasks, locks and bundles (`core/validation.py`). A
`Name` carries the proof that it is accepted, so that no later definition meets an
invalid one. `Error` separates what the broker answers with code 2 (`InputValidationError`)
from every other exception, which it answers with code 1.
-/

namespace AgentDev

/-- The exceptions of the broker's operations. -/
inductive Error
  /-- `InputValidationError`: the request is rejected with this message. -/
  | request (message : String)
  /-- Any other exception. -/
  | internal (message : String)
  deriving DecidableEq, Repr

/-- A commit hash, as the number of the commit in the order of creation. -/
abbrev Commit := Nat

/-- The characters of `NAME_RE` after the first one. -/
def isNameChar (c : Char) : Bool := c.isAlphanum || c = '.' || c = '_' || c = '-'

/-- `NAME_RE.fullmatch`: a letter or digit, then at most 63 letters, digits, `.`, `_`, `-`. -/
def isValidName (value : String) : Bool :=
  match value.toList with
  | [] => false
  | c :: cs => c.isAlphanum && cs.all isNameChar && cs.length ≤ 63

/-- A string that `valid_name` accepts. -/
structure Name where
  value : String
  valid : isValidName value = true
  deriving DecidableEq

def validName (value what : String) : Except Error Name :=
  if h : isValidName value = true then .ok ⟨value, h⟩ else .error (.request s!"invalid {what}")

theorem Name.ext_value {name name' : Name} (h : name.value = name'.value) : name = name' := by
  cases name
  cases name'
  cases h
  rfl

/-- Validation changes no accepted string and rejects every other one. -/
theorem validName_ok_iff {value what : String} {name : Name} :
    validName value what = .ok name ↔ name.value = value := by
  unfold validName
  split
  · rename_i h
    rw [Except.ok.injEq]
    constructor
    · rintro rfl
      rfl
    · intro he
      exact Name.ext_value he.symm
  · rename_i h
    simp only [reduceCtorEq, false_iff]
    rintro rfl
    exact h name.valid

end AgentDev
