import AgentDev.Python.JsonCharacters
import AgentDev.Python.Sockets

/-!
# Values on lines

A protocol of JSON values, one on each line. The text of a value contains no line end, so it is read
as it was written, whatever follows it (`splitLine_line`, `loads_line`).
-/

namespace Python.Json

/-- The format of `json.dumps(value, separators=(",", ":"))`. -/
def lineFormat : Format where
  sortKeys := false
  ensureAscii := true
  allowNan := true

/-- `json.dumps(value, separators=(",", ":")).encode() + b"\n"` -/
def line (floats : FloatText) (value : Value) : Except Error Str := do
  return (← dumps floats lineFormat value) ++ [newline]

variable {floats : FloatText} {value : Value} {text : Str}

theorem splitLine_of_not_mem {body : Str} (h : newline ∉ body) (rest : Str) :
    splitLine (body ++ newline :: rest) = some (body ++ [newline], rest) := by
  induction body with
  | nil => rfl
  | cons c body ih =>
    have hc : c ≠ newline := fun heq => h (heq ▸ List.mem_cons_self)
    rw [List.cons_append, splitLine, if_neg hc, ih fun hmem => h (List.mem_cons_of_mem c hmem)]
    rfl

theorem newline_not_mem (h : dumps floats lineFormat value = .ok text)
    (hserial : Serializable lineFormat value) : newline ∉ text := by
  intro hmem
  have hrange := (mem_dumps h hserial newline hmem).not_control
  have hval : newline.val = 10 := by decide
  omega

theorem line_cases (h : line floats value = .ok text) :
    ∃ body, dumps floats lineFormat value = .ok body ∧ text = body ++ [newline] := by
  obtain ⟨body, hbody, htext⟩ := bind_ok h
  cases htext
  exact ⟨body, hbody, rfl⟩

/-- A line is complete. -/
theorem splitLine_line (h : line floats value = .ok text)
    (hserial : Serializable lineFormat value) (rest : Str) :
    splitLine (text ++ rest) = some (text, rest) := by
  obtain ⟨body, hbody, rfl⟩ := line_cases h
  rw [List.append_assoc]
  exact splitLine_of_not_mem (newline_not_mem hbody hserial) rest

/-- A line is read as the value that it was written for. -/
theorem loads_line (h : line floats value = .ok text) (hserial : Serializable lineFormat value) :
    loads floats text = .ok value := by
  obtain ⟨body, hbody, rfl⟩ := line_cases h
  apply loads_write_append hbody hserial
  intro c hc
  rw [List.mem_singleton.mp hc]
  decide

end Python.Json
