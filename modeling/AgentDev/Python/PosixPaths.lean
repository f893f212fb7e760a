import AgentDev.Python.Values

/-!
# POSIX paths

`PurePosixPath` of a string: its parts are the texts between slashes, without the empty ones
and `.`, and it is absolute when it begins with a slash. `showPath` is `str` of an absolute path.
-/

namespace Python

/-- `/` -/
def slash : CodePoint := 47

/-- `PurePosixPath(path).parts`, without the root. -/
def pathParts (path : Str) : List Str :=
  (path.splitOn slash).filter fun part => part ≠ [] ∧ part ≠ str "."

/-- `PurePosixPath(path).is_absolute()` -/
def isAbsolute (path : Str) : Bool := path.head? = some slash

/-- `str(path)` of the absolute path with these parts. -/
def showPath (parts : List Str) : Str := slash :: [slash].intercalate parts

/-- A part that a path of the file system can have. -/
def isPart (part : Str) : Bool := part ≠ [] ∧ part ≠ str "." ∧ slash ∉ part

theorem isPart_iff {part : Str} :
    isPart part = true ↔ part ≠ [] ∧ part ≠ str "." ∧ slash ∉ part := by
  simp [isPart]

theorem pathParts_of_isPart {part : Str} (h : isPart part = true) : pathParts part = [part] := by
  obtain ⟨hne, hdot, hslash⟩ := isPart_iff.mp h
  rw [pathParts, List.splitOn_eq_singleton hslash]
  exact List.filter_eq_self.mpr (List.forall_mem_singleton.mpr (decide_eq_true ⟨hne, hdot⟩))

theorem pathParts_append_slash (first rest : Str) :
    pathParts (first ++ slash :: rest) = pathParts first ++ pathParts rest := by
  rw [pathParts, List.splitOn_append_cons_self, List.filter_append]
  rfl

/-- What a text ends with is in its last part. -/
theorem pathParts_append {tail : Str} (hslash : slash ∉ tail) (hlong : 2 ≤ tail.length) (text : Str) :
    ∃ before last, pathParts (text ++ tail) = before ++ [last ++ tail] := by
  by_cases hmem : slash ∈ text
  · obtain ⟨first, rest, htext⟩ := List.append_of_mem hmem
    have hshorter : rest.length < text.length := by
      rw [htext, List.length_append, List.length_cons]
      omega
    obtain ⟨before, last, h⟩ := pathParts_append hslash hlong rest
    refine ⟨pathParts first ++ before, last, ?_⟩
    rw [htext, List.append_assoc, List.cons_append, pathParts_append_slash, h, List.append_assoc]
  · refine ⟨[], text, pathParts_of_isPart (isPart_iff.mpr ⟨?_, ?_, ?_⟩)⟩
    · apply List.append_ne_nil_of_right_ne_nil
      apply List.ne_nil_of_length_pos
      omega
    · intro heq
      have hlength := congrArg List.length heq
      rw [List.length_append] at hlength
      change _ = 1 at hlength
      omega
    · intro hmem'
      rcases List.mem_append.mp hmem' with h | h
      · exact hmem h
      · exact hslash h
termination_by text.length

example : pathParts (str "/srv//agent-dev/./x") = [str "srv", str "agent-dev", str "x"] := by
  decide +kernel

end Python
