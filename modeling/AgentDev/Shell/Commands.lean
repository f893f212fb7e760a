import AgentDev.Shell.Words
import Mathlib.Data.List.Forall2

/-!
# Commands of the shell

The second stage of reading a shell script: words and operators make up commands. There are simple
commands with redirections, pipelines of two of them, `if ... then ... fi`, and sequences. A parser
goes through the tokens one by one, with the conditionals that are open on a stack, so that commands
can be read one after another (`Parses`, `ParsesAll`).
-/

namespace Shell

open Python

inductive Redirect
  /-- `> path` -/
  | toFile (path : Word)
  /-- `>& descriptor` -/
  | toDescriptor (descriptor : Word)
  deriving DecidableEq

structure Simple where
  words : List Word
  redirects : List Redirect
  deriving DecidableEq

inductive Command
  | skip
  | simple (command : Simple)
  | pipe (left right : Simple)
  | ifThen (condition body : Command)
  | seq (first second : Command)
  deriving DecidableEq

/-! ## Parsing -/

/-- An open conditional: the commands before it, and its condition once that is complete. -/
inductive Frame
  | condition (outer : Command)
  | body (outer condition : Command)
  deriving DecidableEq

structure Parser where
  frames : List Frame
  /-- The commands of the innermost list so far. -/
  done : Command
  /-- The left side of a pipeline. -/
  left : Option Simple
  current : Simple
  /-- The operator of a redirection without its word, and whether that is a descriptor. -/
  pending : Option Bool
  /-- A conditional that has just been closed. -/
  compound : Option Command
  deriving DecidableEq

/-- Words that begin something else than a simple command. -/
def reserved : List Str :=
  ["if", "then", "elif", "else", "fi", "for", "in", "while", "until", "do", "done", "case", "esac",
    "select", "function", "time", "coproc", "[[", "]]", "!"].map str

def isReserved (word : Word) : Bool := word ∈ reserved.map bare

namespace Parser

/-- Where a command begins. -/
def fresh (frames : List Frame) (done : Command) : Parser :=
  ⟨frames, done, none, ⟨[], []⟩, none, none⟩

/-- The end of a command. -/
def close (st : Parser) : Option Parser :=
  if st.pending.isSome then none
  else match st.compound, st.left, st.current.words with
    | some command, none, [] => some (fresh st.frames (.seq st.done command))
    | none, none, _ :: _ => some (fresh st.frames (.seq st.done (.simple st.current)))
    | none, some left, _ :: _ => some (fresh st.frames (.seq st.done (.pipe left st.current)))
    | _, _, _ => none

/-- A word where a command can begin. -/
def keyword (st : Parser) (word : Word) : Option Parser :=
  if word = bare (str "if") then some (fresh (.condition st.done :: st.frames) .skip)
  else if word = bare (str "then") then
    match st.frames with
    | .condition outer :: rest =>
      if st.done = .skip then none else some (fresh (.body outer st.done :: rest) .skip)
    | _ => none
  else if word = bare (str "fi") then
    match st.frames with
    | .body outer condition :: rest =>
      if st.done = .skip then none
      else some { fresh rest outer with compound := some (.ifThen condition st.done) }
    | _ => none
  else none

def step (st : Parser) (token : Token) : Option Parser :=
  match token with
  | .semicolon => st.close
  | .pipe =>
    if st.pending.isSome || st.compound.isSome || st.left.isSome || st.current.words = [] then none
    else some { st with left := some st.current, current := ⟨[], []⟩ }
  | .great =>
    if st.pending.isSome || st.compound.isSome || st.current.words = [] then none
    else some { st with pending := some false }
  | .greatAnd =>
    if st.pending.isSome || st.compound.isSome || st.current.words = [] then none
    else some { st with pending := some true }
  | .word word =>
    match st.pending with
    | some descriptor =>
      let redirect := if descriptor then Redirect.toDescriptor word else .toFile word
      some { st with
        pending := none
        current := ⟨st.current.words, st.current.redirects ++ [redirect]⟩
      }
    | none =>
      if st.compound.isSome then none
      else if st.current.words = [] && isReserved word then
        if st.left.isSome then none else st.keyword word
      else some { st with current := ⟨st.current.words ++ [word], st.current.redirects⟩ }

def run (st : Parser) (tokens : List Token) : Option Parser := tokens.foldlM step st

/-- The end of the script. -/
def finish (st : Parser) : Option Command :=
  st.close.bind fun st => if st.frames = [] then some st.done else none

end Parser

def parse (tokens : List Token) : Option Command :=
  ((Parser.fresh [] .skip).run tokens).bind Parser.finish

/-! ## One command after another -/

theorem Parser.run_append (st : Parser) (tokens tokens' : List Token) :
    st.run (tokens ++ tokens') = (st.run tokens).bind fun st => st.run tokens' :=
  List.foldlM_append ..

theorem Parser.run_cons (st : Parser) (token : Token) (tokens : List Token) :
    st.run (token :: tokens) = (st.step token).bind fun st => st.run tokens := rfl

/-- The tokens are read as this command, wherever it begins. -/
def Parses (tokens : List Token) (command : Command) : Prop :=
  ∀ frames done, ((Parser.fresh frames done).run tokens).bind Parser.close =
    some (Parser.fresh frames (.seq done command))

/-- Commands that are carried out one after another. -/
def sequence (commands : List Command) : Command := commands.foldl .seq .skip

/-- Commands with a `;` after each. -/
def ParsesAll (tokens : List Token) (commands : List Command) : Prop :=
  ∀ frames done, (Parser.fresh frames done).run tokens =
    some (Parser.fresh frames (commands.foldl .seq done))

theorem parsesAll_nil : ParsesAll [] [] := fun _ _ => rfl

theorem ParsesAll.append {tokens tokens' : List Token} {commands commands' : List Command}
    (h : ParsesAll tokens commands) (h' : ParsesAll tokens' commands') :
    ParsesAll (tokens ++ tokens') (commands ++ commands') := by
  intro frames done
  rw [Parser.run_append, h, Option.bind_some, h', List.foldl_append]

theorem Parses.all {tokens : List Token} {command : Command} (h : Parses tokens command) :
    ParsesAll (tokens ++ [.semicolon]) [command] := by
  intro frames done
  rw [Parser.run_append]
  have hclose : (fun st : Parser => st.run [.semicolon]) = Parser.close := by
    funext st
    show (st.step .semicolon).bind _ = _
    cases hst : st.close <;> simp [Parser.step, hst]
  rw [hclose, h]
  rfl

theorem parse_of_parses {tokens tokens' : List Token} {commands : List Command} {command : Command}
    (h : ParsesAll tokens commands) (h' : Parses tokens' command) :
    parse (tokens ++ tokens') = some (sequence (commands ++ [command])) := by
  unfold parse Parser.finish
  rw [Parser.run_append, h, Option.bind_some, ← Option.bind_assoc, h']
  simp [Parser.fresh, sequence, List.foldl_append]

/-- Words of a simple command, after the first. -/
theorem run_words (st : Parser) (words : List Word) (hpending : st.pending = none)
    (hcompound : st.compound = none) (hcurrent : st.current.words ≠ []) :
    st.run (words.map .word) =
      some { st with current := ⟨st.current.words ++ words, st.current.redirects⟩ } := by
  induction words generalizing st with
  | nil => simp [Parser.run]
  | cons word words ih =>
    have hstep : st.step (.word word) =
        some { st with current := ⟨st.current.words ++ [word], st.current.redirects⟩ } := by
      simp [Parser.step, hpending, hcompound, hcurrent]
    have hrest := ih
      { st with current := ⟨st.current.words ++ [word], st.current.redirects⟩ }
      hpending hcompound (by simp)
    rw [List.map_cons, Parser.run_cons, hstep, Option.bind_some, hrest]
    simp

theorem run_first (frames : List Frame) (done : Command) (left : Option Simple) {word : Word}
    (hword : isReserved word = false) :
    Parser.step ⟨frames, done, left, ⟨[], []⟩, none, none⟩ (.word word) =
      some ⟨frames, done, left, ⟨[word], []⟩, none, none⟩ := by
  simp [Parser.step, hword]

/-- The words of a simple command. -/
theorem run_simple (frames : List Frame) (done : Command) (left : Option Simple) {word : Word}
    (words : List Word) (hword : isReserved word = false) :
    Parser.run ⟨frames, done, left, ⟨[], []⟩, none, none⟩ ((word :: words).map .word) =
      some ⟨frames, done, left, ⟨word :: words, []⟩, none, none⟩ := by
  rw [List.map_cons, Parser.run_cons, run_first frames done left hword, Option.bind_some,
    run_words _ words rfl rfl (by simp)]
  rfl

theorem parses_simple {word : Word} (words : List Word) (hword : isReserved word = false) :
    Parses ((word :: words).map .word) (.simple ⟨word :: words, []⟩) := by
  intro frames done
  rw [Parser.fresh, run_simple frames done none words hword]
  rfl

/-- A simple command with a redirection. -/
theorem parses_redirect {word : Word} (words : List Word) (hword : isReserved word = false)
    (target : Word) (descriptor : Bool) :
    Parses ((word :: words).map .word ++ [if descriptor then .greatAnd else .great, .word target])
      (.simple ⟨word :: words, [if descriptor then .toDescriptor target else .toFile target]⟩) := by
  intro frames done
  rw [Parser.run_append, Parser.fresh, run_simple frames done none words hword, Option.bind_some]
  cases descriptor <;> rfl

theorem parses_pipe {word word' : Word} (words words' : List Word) (hword : isReserved word = false)
    (hword' : isReserved word' = false) :
    Parses ((word :: words).map .word ++ .pipe :: (word' :: words').map .word)
      (.pipe ⟨word :: words, []⟩ ⟨word' :: words', []⟩) := by
  intro frames done
  have hpipe : Parser.step ⟨frames, done, none, ⟨word :: words, []⟩, none, none⟩ .pipe =
      some ⟨frames, done, some ⟨word :: words, []⟩, ⟨[], []⟩, none, none⟩ := rfl
  rw [Parser.run_append, Parser.fresh, run_simple frames done none words hword, Option.bind_some,
    Parser.run_cons, hpipe, Option.bind_some, run_simple _ _ _ words' hword']
  rfl

theorem foldl_seq_ne_skip {done : Command} {commands : List Command} (h : commands ≠ []) :
    commands.foldl .seq done ≠ .skip := by
  obtain ⟨init, last, rfl⟩ := List.eq_nil_or_concat' commands |>.resolve_left h
  rw [List.foldl_append]
  exact nofun

/-- A conditional. -/
theorem parses_ifThen {condition body : List Token} {conditions commands : List Command}
    (hcondition : ParsesAll condition conditions) (hbody : ParsesAll body commands)
    (hne : conditions ≠ []) (hne' : commands ≠ []) :
    Parses (.word (bare (str "if")) :: condition ++ .word (bare (str "then")) :: body ++
        [.word (bare (str "fi"))])
      (.ifThen (sequence conditions) (sequence commands)) := by
  intro frames done
  have hif : (Parser.fresh frames done).step (.word (bare (str "if"))) =
      some (Parser.fresh (.condition done :: frames) .skip) := rfl
  have hthen : ∀ cond, cond ≠ .skip →
      (Parser.fresh (.condition done :: frames) cond).step (.word (bare (str "then"))) =
        some (Parser.fresh (.body done cond :: frames) .skip) := by
    intro cond hcond
    exact if_neg hcond
  have hfi : ∀ cond body, body ≠ .skip →
      (Parser.fresh (.body done cond :: frames) body).step (.word (bare (str "fi"))) =
        some { Parser.fresh frames done with compound := some (.ifThen cond body) } := by
    intro cond body hbody
    exact if_neg hbody
  rw [Parser.run_append, Parser.run_append, Parser.run_cons, hif, Option.bind_some, hcondition,
    Option.bind_some, Parser.run_cons, hthen _ (foldl_seq_ne_skip hne), Option.bind_some, hbody,
    Option.bind_some, Parser.run_cons, hfi _ _ (foldl_seq_ne_skip hne')]
  rfl

/-! ## Texts of commands -/

/-- The text is this command. -/
def Spells (text : Str) (command : Command) : Prop :=
  ∃ read, Ends text read ∧ Parses read command

/-- The text is these commands, with a `;` after each. -/
def SpellsAll (text : Str) (commands : List Command) : Prop :=
  ∃ read, Reads text read ∧ ParsesAll read commands

theorem spells_simple {text : Str} {word : Word} {words : List Word}
    (h : Ends text ((word :: words).map .word)) (hword : isReserved word = false) :
    Spells text (.simple ⟨word :: words, []⟩) :=
  ⟨_, h, parses_simple words hword⟩

theorem Spells.all {text : Str} {command : Command} (h : Spells text command) :
    SpellsAll (text ++ str "; ") [command] := by
  obtain ⟨read, hends, hparses⟩ := h
  exact ⟨_, hends.semicolon, hparses.all⟩

theorem SpellsAll.append {text text' : Str} {commands commands' : List Command}
    (h : SpellsAll text commands) (h' : SpellsAll text' commands') :
    SpellsAll (text ++ text') (commands ++ commands') := by
  obtain ⟨read, hreads, hparses⟩ := h
  obtain ⟨read', hreads', hparses'⟩ := h'
  exact ⟨_, hreads.append hreads', hparses.append hparses'⟩

theorem spellsAll_flatMap {texts : List Str} {commands : List Command}
    (h : List.Forall₂ Spells texts commands) :
    SpellsAll (texts.flatMap (· ++ str "; ")) commands := by
  induction h with
  | nil => exact ⟨[], rfl, parsesAll_nil⟩
  | cons hfirst _ ih => exact hfirst.all.append ih

theorem join_concat (texts : List Str) (last : Str) :
    join (str "; ") (texts ++ [last]) = texts.flatMap (· ++ str "; ") ++ last := by
  induction texts with
  | nil => rfl
  | cons text texts ih =>
    rw [List.flatMap_cons, List.append_assoc, ← ih]
    cases texts <;> rfl

/-- `if condition; then body; fi` -/
theorem Spells.ifThen {text : Str} {condition : Command} {texts : List Str} {commands : List Command}
    (hcondition : Spells text condition) (hbody : List.Forall₂ Spells texts commands)
    (hne : commands ≠ []) :
    Spells (str "if " ++ text ++ str "; then " ++ join (str "; ") texts ++ str "; fi")
      (.ifThen (sequence [condition]) (sequence commands)) := by
  obtain ⟨read, hreads, hparses⟩ := hcondition.all
  obtain ⟨read', hreads', hparses'⟩ := spellsAll_flatMap hbody
  have hif : Reads (str "if ") [.word (bare (str "if"))] := rfl
  have hthen : Reads (str "then ") [.word (bare (str "then"))] := rfl
  have hfi : Ends (str "fi") [.word (bare (str "fi"))] := ⟨_, rfl, rfl, rfl⟩
  have htexts : texts ≠ [] := by
    intro hnil
    rw [hnil, List.forall₂_nil_left_iff] at hbody
    exact hne hbody
  have htext : str "if " ++ text ++ str "; then " ++ join (str "; ") texts ++ str "; fi" =
      str "if " ++ ((text ++ str "; ") ++ (str "then " ++
        (texts.flatMap (· ++ str "; ") ++ str "fi"))) := by
    obtain ⟨init, last, rfl⟩ := List.eq_nil_or_concat' texts |>.resolve_left htexts
    rw [join_concat, List.flatMap_append]
    have hsplit : str "; then " = str "; " ++ str "then " := rfl
    have hsplit' : str "; fi" = str "; " ++ str "fi" := rfl
    rw [hsplit, hsplit']
    simp
  rw [htext]
  refine ⟨_, hif.ends (hreads.ends (hthen.ends (hreads'.ends hfi))), ?_⟩
  have hshape := parses_ifThen hparses hparses' (List.cons_ne_nil condition []) hne
  simpa using hshape

theorem parse_join {texts : List Str} {commands : List Command}
    (h : List.Forall₂ Spells texts commands) (hne : texts ≠ []) :
    ∃ read, Ends (join (str "; ") texts) read ∧ parse read = some (sequence commands) := by
  obtain ⟨init, last, rfl⟩ := List.eq_nil_or_concat' texts |>.resolve_left hne
  have hne' : commands ≠ [] := by
    rintro rfl
    simpa using h.length_eq
  obtain ⟨commands, command, rfl⟩ := List.eq_nil_or_concat' commands |>.resolve_left hne'
  have hlength : init.length = commands.length := by simpa using h.length_eq
  have hinit := List.forall₂_take_append _ commands [command] h
  have hlast := List.forall₂_drop_append _ commands [command] h
  rw [← hlength, List.take_left] at hinit
  rw [← hlength, List.drop_left] at hlast
  obtain ⟨read, hreads, hparses⟩ := spellsAll_flatMap hinit
  obtain ⟨read', hends, hparses'⟩ := (List.forall₂_cons.mp hlast).1
  rw [join_concat]
  exact ⟨_, hreads.ends hends, parse_of_parses hparses hparses'⟩

end Shell
