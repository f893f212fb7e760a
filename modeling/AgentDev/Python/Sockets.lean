import AgentDev.Python.Numerals

/-!
# Reading lines from a socket

A connected socket that is read through `makefile("rb")`: the kernel has a queue of what the peer has
sent and nobody has received, and the reader has a buffer of what it has received and not yet
returned. The socket is readable as the queue says, whatever is in the buffer. The texts are ASCII, so
a byte is a character.

The complete lines of what is pending, in the buffer or in the queue, are what `readline` returns, one
after another (`readline_line`). Nothing is overlooked by a reader that waits for the socket to be
readable, as long as the buffer holds no complete line when the queue is empty (`Clear`).
-/

namespace Python

/-- A socket and the `BufferedReader` on it. -/
structure Socket where
  queue : Str
  buffer : Str
  closed : Bool

def newline : CodePoint := ord '\n'

/-- A text up to its first line end, and the rest. -/
def splitLine : Str → Option (Str × Str)
  | [] => none
  | c :: rest =>
    if c = newline then some ([c], rest)
    else (splitLine rest).map fun parts => (c :: parts.1, parts.2)

/-- The complete lines of a text. -/
def frames : Str → List Str
  | [] => []
  | c :: rest =>
    if c = newline then [c] :: frames rest
    else
      match frames rest with
      | [] => []
      | line :: lines => (c :: line) :: lines

namespace Socket

/-- `select([sock], [], [], 0)`: there is something to receive, or the peer has closed. -/
def readable (s : Socket) : Bool := s.queue ≠ [] || s.closed

/-- The peer sends a text. -/
def deliver (s : Socket) (text : Str) : Socket :=
  if s.closed then s else { s with queue := s.queue ++ text }

/-- The peer closes its end. -/
def hangup (s : Socket) : Socket := { s with closed := true }

/-- What a step of `readline` does. -/
inductive Progress
  | line (text : Str)
  | received

/-- One step of `readline`: a line of the buffer is returned; otherwise as much as the buffer has room
for is received, or the rest is returned when there will be no more. `none` blocks. -/
def readline (size : Nat) (s : Socket) : Option (Progress × Socket) :=
  match splitLine s.buffer with
  | some (line, rest) => some (.line line, { s with buffer := rest })
  | none =>
    if s.queue ≠ [] then
      some (.received,
        { s with buffer := s.buffer ++ s.queue.take size, queue := s.queue.drop size })
    else if s.closed then some (.line s.buffer, { s with buffer := [] })
    else none

/-- What is there to be read. -/
def pending (s : Socket) : Str := s.buffer ++ s.queue

/-- With an empty queue, the buffer holds no complete line. -/
def Clear (s : Socket) : Prop := s.queue = [] → frames s.buffer = []

/-- With an empty queue, the buffer holds at most one complete line. -/
def Single (s : Socket) : Prop := s.queue = [] → (frames s.buffer).length ≤ 1

/-- If a line is wanted that is not in the buffer, and receiving empties the queue, it leaves at most one
complete line in the buffer. -/
def Apart (size : Nat) (s : Socket) : Prop :=
  splitLine s.buffer = none → s.queue.length ≤ size → (frames s.pending).length ≤ 1

end Socket

/-! ## Lines -/

theorem frames_of_splitLine {text line rest : Str} (h : splitLine text = some (line, rest)) :
    frames text = line :: frames rest := by
  induction text generalizing line with
  | nil => cases h
  | cons c text ih =>
    by_cases hc : c = newline
    · rw [splitLine, if_pos hc] at h
      cases h
      rw [frames, if_pos hc]
    · rw [splitLine, if_neg hc] at h
      obtain ⟨parts, hparts, heq⟩ := Option.map_eq_some_iff.mp h
      cases heq
      rw [frames, if_neg hc, ih hparts]

theorem frames_eq_nil {text : Str} (h : splitLine text = none) : frames text = [] := by
  induction text with
  | nil => rfl
  | cons c text ih =>
    by_cases hc : c = newline
    · rw [splitLine, if_pos hc] at h
      cases h
    · rw [splitLine, if_neg hc] at h
      rw [frames, if_neg hc, ih (Option.map_eq_none_iff.mp h)]

theorem splitLine_append {text line rest : Str} (h : splitLine text = some (line, rest))
    (more : Str) : splitLine (text ++ more) = some (line, rest ++ more) := by
  induction text generalizing line with
  | nil => cases h
  | cons c text ih =>
    by_cases hc : c = newline
    · rw [splitLine, if_pos hc] at h
      cases h
      rw [List.cons_append, splitLine, if_pos hc]
    · rw [splitLine, if_neg hc] at h
      obtain ⟨parts, hparts, heq⟩ := Option.map_eq_some_iff.mp h
      cases heq
      rw [List.cons_append, splitLine, if_neg hc, ih hparts]
      rfl

/-- The beginning of a text has its first line, or none. -/
theorem frames_take {text line rest : Str} (h : splitLine text = some (line, rest)) (m : Nat) :
    frames (text.take m) = line :: frames (rest.take (m - line.length)) ∨
      m < line.length ∧ frames (text.take m) = [] := by
  induction text generalizing line m with
  | nil => cases h
  | cons c text ih =>
    cases m with
    | zero =>
      right
      refine ⟨?_, rfl⟩
      by_cases hc : c = newline
      · rw [splitLine, if_pos hc] at h
        cases h
        exact Nat.one_pos
      · rw [splitLine, if_neg hc] at h
        obtain ⟨parts, -, heq⟩ := Option.map_eq_some_iff.mp h
        cases heq
        exact Nat.succ_pos _
    | succ m =>
      rw [List.take_succ_cons]
      by_cases hc : c = newline
      · rw [splitLine, if_pos hc] at h
        cases h
        left
        rw [frames, if_pos hc]
        rfl
      · rw [splitLine, if_neg hc] at h
        obtain ⟨parts, hparts, heq⟩ := Option.map_eq_some_iff.mp h
        cases heq
        rw [frames, if_neg hc, List.length_cons, Nat.add_sub_add_right]
        rcases ih hparts m with hline | ⟨hlt, hnone⟩
        · rw [hline]
          exact Or.inl rfl
        · rw [hnone]
          exact Or.inr ⟨Nat.succ_lt_succ hlt, rfl⟩

theorem length_of_splitLine {text line rest : Str} (h : splitLine text = some (line, rest)) :
    text.length = line.length + rest.length := by
  induction text generalizing line with
  | nil => cases h
  | cons c text ih =>
    by_cases hc : c = newline
    · rw [splitLine, if_pos hc] at h
      cases h
      exact Nat.add_comm _ _
    · rw [splitLine, if_neg hc] at h
      obtain ⟨parts, hparts, heq⟩ := Option.map_eq_some_iff.mp h
      cases heq
      rw [List.length_cons, List.length_cons, ih hparts]
      omega

/-- More text leaves the complete lines as they are. -/
theorem frames_append (text more : Str) : frames text <+: frames (text ++ more) := by
  induction text with
  | nil => exact List.nil_prefix
  | cons c text ih =>
    by_cases hc : c = newline
    · rw [List.cons_append, frames, frames, if_pos hc, if_pos hc]
      exact List.prefix_cons_inj _ |>.mpr ih
    · rw [List.cons_append, frames, frames, if_neg hc, if_neg hc]
      cases htext : frames text with
      | nil => exact List.nil_prefix
      | cons line lines =>
        rw [htext] at ih
        obtain ⟨tail, htail⟩ := ih
        rw [← htail]
        exact List.prefix_append ((c :: line) :: lines) tail

theorem frames_prefix {text text' : Str} (h : text <+: text') : frames text <+: frames text' := by
  obtain ⟨more, rfl⟩ := h
  exact frames_append text more

/-! ## Reading -/

namespace Socket

variable {size : Nat} {s s' : Socket} {line : Str}

theorem readline_cases {progress : Progress} (h : s.readline size = some (progress, s')) :
    (∃ line rest, splitLine s.buffer = some (line, rest) ∧ progress = .line line ∧
      s' = { s with buffer := rest }) ∨
    (splitLine s.buffer = none ∧ s.queue ≠ [] ∧ progress = .received ∧
      s' = { s with buffer := s.buffer ++ s.queue.take size, queue := s.queue.drop size }) ∨
    (splitLine s.buffer = none ∧ s.queue = [] ∧ s.closed = true ∧ progress = .line s.buffer ∧
      s' = { s with buffer := [] }) := by
  unfold readline at h
  split at h
  · rename_i line rest hline
    cases h
    exact Or.inl ⟨line, rest, hline, rfl, rfl⟩
  · rename_i hline
    split at h
    · rename_i hqueue
      cases h
      exact Or.inr (Or.inl ⟨hline, hqueue, rfl, rfl⟩)
    · rename_i hqueue
      split at h
      · rename_i hclosed
        cases h
        exact Or.inr (Or.inr ⟨hline, not_not.mp hqueue, hclosed, rfl, rfl⟩)
      · cases h

/-- The line that is returned is the first one that is pending, if there is a complete one. -/
theorem readline_line (h : s.readline size = some (.line line, s')) :
    frames s.pending = line :: frames s'.pending ∨ frames s.pending = [] := by
  rcases readline_cases h with ⟨line', rest, hline, heq, rfl⟩ | ⟨-, -, heq, -⟩ |
    ⟨hline, hqueue, -⟩
  · cases heq
    exact Or.inl (frames_of_splitLine (splitLine_append hline s.queue))
  · cases heq
  · right
    rw [pending, hqueue, List.append_nil]
    exact frames_eq_nil hline

/-- The same, when the last `k` characters of what is pending are not looked at. -/
theorem readline_line_early (h : s.readline size = some (.line line, s')) (k : Nat) :
    frames (s.pending.take (s.pending.length - k)) =
        line :: frames (s'.pending.take (s'.pending.length - k)) ∨
      frames (s.pending.take (s.pending.length - k)) = [] ∧
        frames (s'.pending.take (s'.pending.length - k)) = [] := by
  rcases readline_cases h with ⟨line', rest, hline, heq, rfl⟩ | ⟨-, -, heq, -⟩ |
    ⟨hline, hqueue, -, -, rfl⟩
  · cases heq
    have hsplit := splitLine_append hline s.queue
    have hlength := length_of_splitLine hsplit
    show frames ((s.buffer ++ s.queue).take _) = line :: frames ((rest ++ s.queue).take _) ∨ _
    rcases frames_take hsplit (s.pending.length - k) with hframes | ⟨hlt, hframes⟩
    · left
      rw [pending] at hframes ⊢
      rw [hframes]
      congr 3
      show _ = (rest ++ s.queue).length - k
      omega
    · refine Or.inr ⟨hframes, ?_⟩
      have hzero : (rest ++ s.queue).length - k = 0 := by
        rw [pending] at hlt
        omega
      show frames ((rest ++ s.queue).take ((rest ++ s.queue).length - k)) = []
      rw [hzero]
      rfl
  · cases heq
  · right
    rw [pending, pending, hqueue, List.append_nil]
    constructor
    · have htake := frames_prefix (List.take_prefix (s.buffer.length - k) s.buffer)
      rw [frames_eq_nil hline] at htake
      exact List.prefix_nil.mp htake
    · rw [List.append_nil, List.take_nil]
      rfl

theorem readline_received (h : s.readline size = some (.received, s')) : s'.pending = s.pending := by
  rcases readline_cases h with ⟨line, rest, -, heq, -⟩ | ⟨-, -, -, rfl⟩ | ⟨-, -, -, heq, -⟩
  · cases heq
  · rw [pending, pending, List.append_assoc, List.take_append_drop]
  · cases heq

/-- A reader that waits for a complete line does not wait for long. -/
theorem readline_isSome (h : frames s.pending ≠ []) : (s.readline size).isSome = true := by
  unfold readline
  split
  · rfl
  · rename_i hline
    split
    · rfl
    · rename_i hqueue
      rw [pending, not_not.mp hqueue, List.append_nil] at h
      exact absurd (frames_eq_nil hline) h

theorem clear_of_line (h : s.readline size = some (.line line, s')) (hsingle : s.Single) :
    s'.Clear := by
  intro hqueue
  rcases readline_cases h with ⟨line', rest, hline, -, rfl⟩ | ⟨-, -, heq, -⟩ | ⟨-, -, -, -, rfl⟩
  · have hlength := hsingle hqueue
    rw [frames_of_splitLine hline, List.length_cons] at hlength
    show frames rest = []
    apply List.length_eq_zero_iff.mp
    omega
  · cases heq
  · rfl

theorem single_of_received (h : s.readline size = some (.received, s')) (hapart : s.Apart size) :
    s'.Single := by
  intro hqueue
  rcases readline_cases h with ⟨line, rest, -, heq, -⟩ | ⟨hline, -, -, rfl⟩ | ⟨-, -, -, heq, -⟩
  · cases heq
  · have hlength : s.queue.length ≤ size := List.drop_eq_nil_iff.mp hqueue
    have htake : s.queue.take size = s.queue := List.take_of_length_le hlength
    have hframes := hapart hline hlength
    rw [pending] at hframes
    rwa [htake]
  · cases heq

theorem queue_of_line (h : s.readline size = some (.line line, s')) : s'.queue = s.queue := by
  rcases readline_cases h with ⟨line', rest, -, -, rfl⟩ | ⟨-, -, heq, -⟩ | ⟨-, -, -, -, rfl⟩
  · rfl
  · cases heq
  · rfl

/-- Receiving takes something out of the queue. -/
theorem queue_of_received (h : s.readline size = some (.received, s')) (hsize : 0 < size) :
    s'.queue.length + 1 ≤ s.queue.length := by
  rcases readline_cases h with ⟨line, rest, -, heq, -⟩ | ⟨-, hqueue, -, rfl⟩ | ⟨-, -, -, heq, -⟩
  · cases heq
  · have hlength : 0 < s.queue.length := List.length_pos_iff.mpr hqueue
    show (s.queue.drop size).length + 1 ≤ s.queue.length
    rw [List.length_drop]
    omega
  · cases heq

/-- When the socket is not readable, nothing is overlooked. -/
theorem frames_of_not_readable (h : s.readable = false) (hclear : s.Clear) :
    frames s.pending = [] := by
  have hqueue : s.queue = [] := by
    by_contra hqueue
    simp [readable, hqueue] at h
  rw [pending, hqueue, List.append_nil]
  exact hclear hqueue

/-! ## The peer -/

theorem buffer_deliver (text : Str) : (s.deliver text).buffer = s.buffer := by
  unfold deliver
  split <;> rfl

theorem pending_deliver (text : Str) : s.pending <+: (s.deliver text).pending := by
  unfold deliver
  split
  · exact List.prefix_rfl
  · rw [pending, pending, ← List.append_assoc]
    exact List.prefix_append _ _

theorem queue_deliver {text : Str} (h : (s.deliver text).queue = []) : s.queue = [] := by
  unfold deliver at h
  split at h
  · exact h
  · exact (List.append_eq_nil_iff.mp h).1

end Socket

end Python
