import AgentDev.Python.Numerals

/-!
# Words of the shell

The first stage of reading a shell script: its characters make up words and operators. The subset
that is read has single and double quotes, variables inside double quotes, and the operators `;`, `|`,
`>`, `>&`; everything else that has a meaning to the shell is not read at all. A reader goes through the
text character by character, so that a text is read piece by piece (`Reads`, `Ends`), and a word that
was quoted for the shell is read as the text that was quoted (`read_quote`).
-/

namespace Shell

open Python

/-- A part of a word. Quoted characters have no special meaning. -/
inductive Piece
  | char (c : CodePoint) (quoted : Bool)
  | variable (name : Str)
  deriving DecidableEq

abbrev Word := List Piece

/-- A word of characters that are not quoted. -/
def bare (text : Str) : Word := text.map fun c => .char c false

def quoted (text : Str) : Word := text.map fun c => .char c true

inductive Token
  | word (word : Word)
  | semicolon
  | pipe
  | great
  | greatAnd
  deriving DecidableEq

/-! ## Reading -/

def isLetter (c : CodePoint) : Bool :=
  (65 ≤ c.val && c.val ≤ 90) || (97 ≤ c.val && c.val ≤ 122) || c = ord '_'

def isNameChar (c : CodePoint) : Bool := isLetter c || isDigit c

/-- A name of the shell: letters, digits and underscores, not beginning with a digit. -/
def isIdentifier : Str → Bool
  | [] => false
  | c :: rest => isLetter c && rest.all isNameChar

inductive Mode
  | plain
  | single
  | double
  /-- After a `$` and so many characters of the name. -/
  | dollar (name : Str)
  /-- After a `>`. -/
  | great
  deriving DecidableEq

structure Reader where
  mode : Mode
  /-- The word that is being read. -/
  word : Option Word
  tokens : List Token
  deriving DecidableEq

/-- Characters that are not read outside of quotes. -/
def unread : Str := str "$\\`&()<*?\x7b\x7d~\t\n"

/-- A word that is a pattern for file names is not read, except for the words `[`, `]` and `!`. -/
def isPattern (word : Word) : Bool :=
  word.any (fun piece => piece ∈ bare (str "[]!")) && word.length ≠ 1

/-- The number of a descriptor, if an operator follows. -/
def isNumber (word : Word) : Bool :=
  word.all fun piece =>
    match piece with
    | .char c quoted => isDigit c && !quoted
    | .variable _ => false

namespace Reader

def start : Reader := ⟨.plain, none, []⟩

def push (st : Reader) (mode : Mode) (piece : Piece) : Option Reader :=
  some { st with mode := mode, word := some (st.word.getD [] ++ [piece]) }

/-- The end of a word. -/
def close (st : Reader) : Option Reader :=
  match st.word with
  | none => some { st with mode := .plain }
  | some word =>
    if isPattern word then none else some ⟨.plain, none, st.tokens ++ [.word word]⟩

def operator (st : Reader) (token : Token) : Option Reader :=
  st.close.map fun st => { st with tokens := st.tokens ++ [token] }

def plainStep (st : Reader) (c : CodePoint) : Option Reader :=
  if c = ord ' ' then st.close
  else if c = ord ';' then st.operator .semicolon
  else if c = ord '|' then st.operator .pipe
  else if c = ord '>' then
    if st.word.any isNumber then none else st.close.map fun st => { st with mode := Mode.great }
  else if c = ord '\'' then some { st with mode := .single, word := some (st.word.getD []) }
  else if c = ord '"' then some { st with mode := .double, word := some (st.word.getD []) }
  else if c ∈ unread || (c = ord '#' && st.word.isNone) then none
  else st.push .plain (.char c false)

def doubleStep (st : Reader) (c : CodePoint) : Option Reader :=
  if c = ord '"' then some { st with mode := .plain }
  else if c = ord '$' then some { st with mode := .dollar [] }
  else if c ∈ str "\\`" then none
  else st.push .double (.char c true)

def step (st : Reader) (c : CodePoint) : Option Reader :=
  match st.mode with
  | .plain => st.plainStep c
  | .single =>
    if c = ord '\'' then some { st with mode := .plain } else st.push .single (.char c true)
  | .double => st.doubleStep c
  | .dollar name =>
    if isNameChar c && (name ≠ [] || isLetter c) then some { st with mode := .dollar (name ++ [c]) }
    else if name = [] then none
    else (st.push .double (.variable name)).bind fun st => st.doubleStep c
  | .great =>
    if c = ord '&' then some { st with mode := .plain, tokens := st.tokens ++ [.greatAnd] }
    else { st with mode := .plain, tokens := st.tokens ++ [Token.great] }.plainStep c

def run (st : Reader) (text : Str) : Option Reader := text.foldlM step st

/-- The end of the text. -/
def finish (st : Reader) : Option (List Token) :=
  if st.mode = .plain then st.close.map Reader.tokens else none

end Reader

def tokens (text : Str) : Option (List Token) := (Reader.start.run text).bind Reader.finish

/-! ## Reading piece by piece -/

namespace Reader

variable {st : Reader} {text text' : Str}

theorem run_append (st : Reader) (text text' : Str) :
    st.run (text ++ text') = (st.run text).bind fun st => st.run text' :=
  List.foldlM_append ..

theorem run_cons (st : Reader) (c : CodePoint) (text : Str) :
    st.run (c :: text) = (st.step c).bind fun st => st.run text := rfl

/-- The tokens that have been read before make no difference. -/
def after (tokens : List Token) (st : Reader) : Reader := { st with tokens := tokens ++ st.tokens }

theorem close_after (before : List Token) (st : Reader) :
    (st.after before).close = st.close.map (after before) := by
  obtain ⟨mode, word, tokens⟩ := st
  cases word with
  | none => rfl
  | some word =>
    unfold close after
    simp only
    split
    · rfl
    · simp

theorem operator_after (before : List Token) (st : Reader) (token : Token) :
    (st.after before).operator token = (st.operator token).map (after before) := by
  unfold operator
  rw [close_after, Option.map_map, Option.map_map]
  congr 1
  funext st
  exact congrArg (Reader.mk _ _) (List.append_assoc ..)

theorem plainStep_after (before : List Token) (st : Reader) (c : CodePoint) :
    (st.after before).plainStep c = (st.plainStep c).map (after before) := by
  have hword : (st.after before).word = st.word := rfl
  unfold plainStep
  rw [close_after, operator_after, operator_after, hword]
  split_ifs
  · rfl
  · rfl
  · rfl
  · rfl
  · rw [Option.map_map, Option.map_map]
    rfl
  · rfl
  · rfl
  · rfl
  · rfl

theorem doubleStep_after (before : List Token) (st : Reader) (c : CodePoint) :
    (st.after before).doubleStep c = (st.doubleStep c).map (after before) := by
  unfold doubleStep
  split_ifs <;> rfl

theorem step_after (before : List Token) (st : Reader) (c : CodePoint) :
    (st.after before).step c = (st.step c).map (after before) := by
  obtain ⟨mode, word, read⟩ := st
  cases mode with
  | plain => exact plainStep_after before ⟨.plain, word, read⟩ c
  | single =>
    unfold step after
    simp only
    split_ifs <;> rfl
  | double => exact doubleStep_after before ⟨.double, word, read⟩ c
  | dollar name =>
    unfold step
    simp only [after]
    split_ifs
    · rfl
    · rfl
    · exact doubleStep_after before ⟨.double, some (word.getD [] ++ [.variable name]), read⟩ c
  | great =>
    unfold step
    simp only [after]
    split_ifs
    · simp [after]
    · rw [List.append_assoc]
      exact plainStep_after before ⟨.plain, word, read ++ [.great]⟩ c

theorem run_after (before : List Token) (st : Reader) (text : Str) :
    (st.after before).run text = (st.run text).map (after before) := by
  induction text generalizing st with
  | nil => rfl
  | cons c text ih =>
    rw [run_cons, run_cons, step_after]
    cases st.step c with
    | none => rfl
    | some next => exact ih next

end Reader

/-- The text is read as these tokens, and what follows begins a new word. -/
def Reads (text : Str) (read : List Token) : Prop :=
  Reader.start.run text = some ⟨.plain, none, read⟩

/-- The text is read as these tokens, of which the last one ends with the text. -/
def Ends (text : Str) (read : List Token) : Prop :=
  ∃ st, Reader.start.run text = some st ∧ st.mode = .plain ∧
    st.close = some ⟨.plain, none, read⟩

/-- The text goes on with a word by these pieces, or begins one. -/
def Continues (text : Str) (word : Word) : Prop :=
  ∀ begun : Option Word,
    Reader.run ⟨.plain, begun, []⟩ text = some ⟨.plain, some (begun.getD [] ++ word), []⟩

theorem Reads.append {text text' : Str} {read read' : List Token} (h : Reads text read)
    (h' : Reads text' read') : Reads (text ++ text') (read ++ read') := by
  unfold Reads at *
  rw [Reader.run_append, h, Option.bind_some]
  have hafter := Reader.run_after read Reader.start text'
  rw [h', Reader.after, Reader.start, List.append_nil] at hafter
  exact hafter

theorem Reads.ends {text text' : Str} {read read' : List Token} (h : Reads text read)
    (h' : Ends text' read') : Ends (text ++ text') (read ++ read') := by
  obtain ⟨st, hrun, hmode, hclose⟩ := h'
  refine ⟨st.after read, ?_, hmode, ?_⟩
  · rw [Reader.run_append, h, Option.bind_some]
    have hafter := Reader.run_after read Reader.start text'
    rw [hrun, Reader.after, Reader.start, List.append_nil] at hafter
    exact hafter
  · rw [Reader.close_after, hclose]
    rfl

theorem Ends.blank {text : Str} {read : List Token} (h : Ends text read) :
    Reads (text ++ str " ") read := by
  obtain ⟨st, hrun, hmode, hclose⟩ := h
  have hstep : st.step (ord ' ') = st.close := by
    unfold Reader.step
    rw [hmode]
    rfl
  unfold Reads
  rw [Reader.run_append, hrun, Option.bind_some]
  show (st.step (ord ' ')).bind _ = _
  rw [hstep, hclose]
  rfl

theorem Ends.semicolon {text : Str} {read : List Token} (h : Ends text read) :
    Reads (text ++ str "; ") (read ++ [.semicolon]) := by
  obtain ⟨st, hrun, hmode, hclose⟩ := h
  have hstep : st.step (ord ';') = some ⟨.plain, none, read ++ [.semicolon]⟩ := by
    unfold Reader.step
    rw [hmode]
    show st.operator .semicolon = _
    unfold Reader.operator
    rw [hclose]
    rfl
  unfold Reads
  rw [Reader.run_append, hrun, Option.bind_some]
  show (st.step (ord ';')).bind _ = _
  rw [hstep]
  rfl

theorem Ends.tokens_eq {text : Str} {read : List Token} (h : Ends text read) :
    tokens text = some read := by
  obtain ⟨st, hrun, hmode, hclose⟩ := h
  rw [tokens, hrun, Option.bind_some, Reader.finish, if_pos hmode, hclose]
  rfl

theorem Continues.append {text text' : Str} {word word' : Word} (h : Continues text word)
    (h' : Continues text' word') : Continues (text ++ text') (word ++ word') := by
  intro begun
  rw [Reader.run_append, h, Option.bind_some, h' (some _), Option.getD_some, List.append_assoc]

/-- A word that ends with the text. -/
theorem Continues.ends {text : Str} {word : Word} (h : Continues text word)
    (hpattern : isPattern word = false) : Ends text [.word word] := by
  refine ⟨_, h none, rfl, ?_⟩
  unfold Reader.close
  simp only [Option.getD_none, List.nil_append, hpattern]
  rfl

/-! ## Characters without a meaning -/

/-- A character that stands for itself outside of quotes. -/
def isBare (c : CodePoint) : Bool := c ∉ str " ;|>'\"#" && c ∉ unread

theorem plainStep_bare {c : CodePoint} (h : isBare c = true) (st : Reader) :
    st.plainStep c = st.push .plain (.char c false) := by
  unfold isBare at h
  simp only [Bool.and_eq_true, decide_eq_true_eq] at h
  obtain ⟨hspecial, hunread⟩ := h
  have hne : ∀ d ∈ str " ;|>'\"#", c ≠ d := fun d hd heq => hspecial (heq ▸ hd)
  unfold Reader.plainStep
  rw [if_neg (hne _ (by decide)), if_neg (hne _ (by decide)), if_neg (hne _ (by decide)),
    if_neg (hne _ (by decide)), if_neg (hne _ (by decide)), if_neg (hne _ (by decide)), if_neg]
  simp [hunread, hne (ord '#') (by decide)]

theorem continues_bare {text : Str} (h : ∀ c ∈ text, isBare c = true) (hne : text ≠ []) :
    Continues text (bare text) := by
  intro begun
  induction text generalizing begun with
  | nil => exact absurd rfl hne
  | cons c text ih =>
    have hstep : Reader.step ⟨.plain, begun, []⟩ c =
        some ⟨.plain, some (begun.getD [] ++ [.char c false]), []⟩ :=
      plainStep_bare (h c List.mem_cons_self) _
    rw [Reader.run_cons, hstep, Option.bind_some]
    by_cases hrest : text = []
    · subst hrest
      rfl
    · rw [ih (fun d hd => h d (List.mem_cons_of_mem c hd)) hrest, Option.getD_some,
        List.append_assoc]
      rfl

/-! ## Quoted texts -/

/-- A character that `shlex.quote` leaves alone. -/
def isSafe (c : CodePoint) : Bool := isLetter c || isDigit c || c ∈ str "@%+=:,./-"

/-- `text.replace("'", "'\"'\"'")` -/
def escape (text : Str) : Str := text.flatMap fun c => if c = ord '\'' then str "'\"'\"'" else [c]

/-- `shlex.quote` -/
def quote (text : Str) : Str :=
  if text = [] then str "''"
  else if text.all isSafe then text
  else str "'" ++ escape text ++ str "'"

/-- The word that the shell reads. -/
def quotedWord (text : Str) : Word := if text ≠ [] ∧ text.all isSafe then bare text else quoted text

theorem run_escape (text : Str) (word : Word) :
    Reader.run ⟨.single, some word, []⟩ (escape text) =
      some ⟨.single, some (word ++ quoted text), []⟩ := by
  induction text generalizing word with
  | nil => simp [escape, quoted, Reader.run]
  | cons c text ih =>
    have hescape : escape (c :: text) =
        (if c = ord '\'' then str "'\"'\"'" else [c]) ++ escape text := rfl
    have hfirst : Reader.run ⟨.single, some word, []⟩
        (if c = ord '\'' then str "'\"'\"'" else [c]) =
        some ⟨.single, some (word ++ [.char c true]), []⟩ := by
      split
      · rename_i hc
        subst hc
        rfl
      · rename_i hc
        show Option.bind (Reader.step _ c) _ = _
        unfold Reader.step
        simp only [if_neg hc]
        rfl
    rw [hescape, Reader.run_append, hfirst, Option.bind_some, ih, List.append_assoc]
    rfl

theorem isBare_of_isSafe {c : CodePoint} (h : isSafe c = true) : isBare c = true := by
  unfold isBare
  by_contra hnot
  have hmem : c ∈ str " ;|>'\"#" ++ unread := by
    rw [List.mem_append]
    by_contra hnone
    exact hnot (by simpa using not_or.mp hnone)
  have hall : ((str " ;|>'\"#" ++ unread).all fun d => !isSafe d) = true := by decide +kernel
  have hc := List.all_eq_true.mp hall c hmem
  rw [h] at hc
  cases hc

/-- A quoted text is read as the text. -/
theorem continues_quote (text : Str) : Continues (quote text) (quotedWord text) := by
  unfold quote quotedWord
  by_cases hempty : text = []
  · subst hempty
    intro begun
    simp [quoted]
    rfl
  · by_cases hsafe : text.all isSafe = true
    · rw [if_neg hempty, if_pos hsafe, if_pos ⟨hempty, hsafe⟩]
      exact continues_bare (fun c hc => isBare_of_isSafe (List.all_eq_true.mp hsafe c hc)) hempty
    · rw [if_neg hempty, if_neg hsafe, if_neg fun h => hsafe h.2]
      intro begun
      have hopen : Reader.run ⟨.plain, begun, []⟩ (str "'") =
          some ⟨.single, some (begun.getD []), []⟩ := by rfl
      rw [List.append_assoc, Reader.run_append, hopen, Option.bind_some, Reader.run_append,
        run_escape, Option.bind_some]
      rfl

/-- No part of the word can make it a pattern. -/
def IsPlain (word : Word) : Prop := ∀ piece ∈ word, piece ∉ bare (str "[]!")

theorem IsPlain.append {word word' : Word} (h : IsPlain word) (h' : IsPlain word') :
    IsPlain (word ++ word') := by
  intro piece hpiece
  rcases List.mem_append.mp hpiece with hpiece | hpiece
  · exact h piece hpiece
  · exact h' piece hpiece

theorem IsPlain.isPattern {word : Word} (h : IsPlain word) : isPattern word = false := by
  unfold Shell.isPattern
  rw [Bool.and_eq_false_iff, List.any_eq_false]
  exact Or.inl fun piece hpiece => by simpa using h piece hpiece

theorem isPlain_bare {text : Str} (h : text.all isSafe = true) : IsPlain (bare text) := by
  intro piece hpiece hmem
  obtain ⟨c, hc, rfl⟩ := List.mem_map.mp hpiece
  obtain ⟨d, hd, heq⟩ := List.mem_map.mp hmem
  cases heq
  have hall : ((str "[]!").all fun d => !isSafe d) = true := by decide +kernel
  have hunsafe := List.all_eq_true.mp hall c hd
  rw [List.all_eq_true.mp h c hc] at hunsafe
  cases hunsafe

theorem isPlain_quotedWord (text : Str) : IsPlain (quotedWord text) := by
  unfold quotedWord
  split
  · rename_i hsafe
    exact isPlain_bare hsafe.2
  · intro piece hpiece hmem
    obtain ⟨c, -, rfl⟩ := List.mem_map.mp hpiece
    obtain ⟨d, -, heq⟩ := List.mem_map.mp hmem
    cases heq

/-- A text of safe characters is a part of a word. -/
theorem continues_safe {text : Str} (h : text.all isSafe = true) (hne : text ≠ []) :
    Continues text (bare text) :=
  continues_bare (fun c hc => isBare_of_isSafe (List.all_eq_true.mp h c hc)) hne

theorem ends_quote (text : Str) : Ends (quote text) [.word (quotedWord text)] :=
  (continues_quote text).ends (isPlain_quotedWord text).isPattern

/-! ## Variables -/

theorem isNameChar_of_isLetter {c : CodePoint} (h : isLetter c = true) : isNameChar c = true := by
  unfold isNameChar
  rw [h]
  rfl

theorem isIdentifier_all {name : Str} (h : isIdentifier name = true) :
    name.all isNameChar = true := by
  cases name with
  | nil => cases h
  | cons c rest =>
    obtain ⟨hc, hrest⟩ := Bool.and_eq_true_iff.mp h
    rw [List.all_cons, isNameChar_of_isLetter hc, hrest]
    rfl

/-- A name of a variable is a safe text. -/
theorem isIdentifier_safe {name : Str} (h : isIdentifier name = true) : name.all isSafe = true := by
  rw [List.all_eq_true]
  intro c hc
  have hname := List.all_eq_true.mp (isIdentifier_all h) c hc
  unfold isNameChar at hname
  unfold isSafe
  rw [hname]
  rfl

theorem run_dollar {letters : Str} (h : letters.all isNameChar = true) {name : Str}
    (hname : name ≠ [] ∨ ∀ c ∈ letters.head?, isLetter c = true) (word : Option Word) :
    Reader.run ⟨.dollar name, word, []⟩ letters = some ⟨.dollar (name ++ letters), word, []⟩ := by
  induction letters generalizing name with
  | nil => simp [Reader.run]
  | cons c letters ih =>
    rw [List.all_cons, Bool.and_eq_true] at h
    have hstep : Reader.step ⟨.dollar name, word, []⟩ c =
        some ⟨.dollar (name ++ [c]), word, []⟩ := by
      refine if_pos ?_
      rw [h.1, Bool.true_and]
      rcases hname with hne | hletter
      · simp [hne]
      · simp [hletter c rfl]
    rw [Reader.run_cons, hstep, Option.bind_some, ih h.2 (Or.inl (by simp)), List.append_assoc]
    rfl

/-- A variable inside double quotes. -/
theorem ends_variable {name : Str} (h : isIdentifier name = true) :
    Ends (str "\"$" ++ name ++ str "\"") [.word [.variable name]] := by
  have hne : name ≠ [] := by
    rintro rfl
    cases h
  have hhead : ∀ c ∈ name.head?, isLetter c = true := by
    cases name with
    | nil => exact absurd rfl hne
    | cons c rest =>
      rintro _ ⟨⟩
      exact (Bool.and_eq_true_iff.mp h).1
  have hopen : Reader.start.run (str "\"$") = some ⟨.dollar [], some [], []⟩ := rfl
  have hclose : Reader.run ⟨.dollar name, some [], []⟩ (str "\"") =
      some ⟨.plain, some [.variable name], []⟩ := by
    show (Reader.step ⟨.dollar name, some [], []⟩ (ord '"')).bind _ = _
    have hquote : isNameChar (ord '"') = false := by decide
    simp only [Reader.step, hquote, Bool.false_and, Bool.false_eq_true, if_false, hne]
    rfl
  refine ⟨⟨.plain, some [.variable name], []⟩, ?_, rfl, rfl⟩
  rw [List.append_assoc, Reader.run_append, hopen, Option.bind_some, Reader.run_append,
    run_dollar (isIdentifier_all h) (Or.inr hhead), Option.bind_some, List.nil_append, hclose]

end Shell
