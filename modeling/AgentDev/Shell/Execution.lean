import AgentDev.Interleaving.Program
import AgentDev.Shell.Commands

/-!
# Execution of shell scripts

What a script does is a program over the actions of the utilities that it calls. The shell itself
keeps variables and the options `-e` and `-u`: a command that fails ends the script, except in the
condition of an `if`, and so does a variable that is not set. What a script does outside of the subset
of the language is `Ending.unsupported`.
-/

namespace Shell

open Python Interleaving

/-- How a script ends before its last command is over. -/
inductive Ending
  | exited (status : Nat)
  /-- Something that is not modelled. -/
  | unsupported
  /-- The process has been killed. -/
  | interrupted
  deriving DecidableEq

variable {A : Type} {R : A → Type}

/-- The commands that are no part of the shell. -/
structure Utilities (R : A → Type) where
  /-- A command with its arguments and its standard input: the status and the output. -/
  run (name : Str) (arguments : List Str) (input : Str) : Program R Ending (Nat × Str)
  /-- To open a file for writing, which empties it. -/
  create (path : Str) : Program R Ending Bool

structure State where
  bindings : List (Str × Str)
  errexit : Bool
  nounset : Bool

def State.start : State := ⟨[], false, false⟩

def State.assign (st : State) (name value : Str) : State :=
  { st with bindings := (name, value) :: st.bindings }

/-! ## Words -/

/-- `none` is the error of `-u`. -/
def expandPiece (st : State) : Piece → Option Str
  | .char c _ => some [c]
  | .variable name =>
    match st.bindings.lookup name with
    | some value => some value
    | none => if st.nounset then none else some []

def expand (st : State) : Word → Option Str
  | [] => some []
  | piece :: rest => (expandPiece st piece).bind fun text => (expand st rest).map (text ++ ·)

def splitAssignment : Word → Option (Str × Word)
  | .char c false :: rest =>
    if c = ord '=' then some ([], rest)
    else (splitAssignment rest).map fun parts => (c :: parts.1, parts.2)
  | _ => none

/-- `name=value` -/
def assignment? (word : Word) : Option (Str × Word) :=
  (splitAssignment word).bind fun parts => if isIdentifier parts.1 then some parts else none

/-- `name+=value`, which is not modelled. -/
def isAppending (word : Word) : Bool :=
  (splitAssignment word).any fun parts => parts.1.getLast? = some (ord '+')

/-! ## Commands -/

variable (u : Utilities R)

def openRedirects (st : State) : List Redirect → Program R Ending Bool
  | [] => .ret true
  | .toFile path :: rest =>
    match expand st path with
    | some path => (u.create path).bind fun opened =>
      if opened then openRedirects st rest else .ret false
    | none => .fail (.exited 1)
  | .toDescriptor descriptor :: rest =>
    match expand st descriptor with
    | some text => if text = str "1" || text = str "2" then openRedirects st rest else .fail .unsupported
    | none => .fail (.exited 1)

def Redirect.isFile : Redirect → Bool
  | .toFile _ => true
  | .toDescriptor _ => false

def builtins : List Str := [str ":", str "set", str "exit"]

def runBuiltin (st : State) (name : Str) (arguments : List Str) : Program R Ending (Nat × State) :=
  if name = str ":" then .ret (0, st)
  else if name = str "set" then
    if arguments = [str "-eu"] then .ret (0, { st with errexit := true, nounset := true })
    else .fail .unsupported
  else
    match arguments with
    | [status] =>
      if status ≠ [] ∧ status.all isDigit then .fail (.exited (natOfDigits status % 256))
      else .fail .unsupported
    | _ => .fail .unsupported

/-- A command after its words have been expanded. The output of a utility into a file is not
modelled. -/
def runCommand (st : State) (name : Str) (arguments : List Str) (redirects : List Redirect) :
    Program R Ending (Nat × State) :=
  if name ∉ builtins && redirects.any Redirect.isFile then .fail .unsupported
  else (openRedirects u st redirects).bind fun opened =>
    if !opened then .ret (1, st)
    else if name ∈ builtins then runBuiltin st name arguments
    else (u.run name arguments []).bind fun result => .ret (result.1, st)

def runSimple (st : State) (command : Simple) : Program R Ending (Nat × State) :=
  match command.words with
  | [] => .fail .unsupported
  | word :: words =>
    match assignment? word with
    | some (name, value) =>
      if words ≠ [] || command.redirects ≠ [] then .fail .unsupported
      else match expand st value with
        | some text => .ret (0, st.assign name text)
        | none => .fail (.exited 1)
    | none =>
      if isAppending word then .fail .unsupported
      else match (word :: words).mapM (expand st) with
        | some (name :: arguments) => runCommand u st name arguments command.redirects
        | _ => .fail (.exited 1)

theorem runSimple_of_expand {st : State} {word : Word} {words : List Word} {redirects : List Redirect}
    {name : Str} {arguments : List Str} (hword : assignment? word = none)
    (hplain : isAppending word = false)
    (hexpand : (word :: words).mapM (expand st) = some (name :: arguments)) :
    runSimple u st ⟨word :: words, redirects⟩ = runCommand u st name arguments redirects := by
  simp only [runSimple, hword, hplain, hexpand, Bool.false_eq_true, if_false]

/-- One side of a pipeline. -/
def runSide (st : State) (command : Simple) (input : Str) : Program R Ending (Nat × Str) :=
  match command.words.mapM (expand st) with
  | some (name :: arguments) =>
    if name ∈ builtins || command.redirects ≠ [] then .fail .unsupported
    else u.run name arguments input
  | _ => .fail .unsupported

/-- The option `-e`. -/
def settle (checked : Bool) (result : Nat × State) : Program R Ending (Nat × State) :=
  if result.2.errexit && !checked && result.1 ≠ 0 then .fail (.exited result.1) else .ret result

theorem settle_checked (result : Nat × State) :
    (settle true result : Program R Ending (Nat × State)) = .ret result := by
  simp [settle]

/-- What a command does. If it is `checked`, then its failure is no error. -/
def eval (checked : Bool) : Command → State → Program R Ending (Nat × State)
  | .skip, st => .ret (0, st)
  | .simple command, st => (runSimple u st command).bind (settle checked)
  | .pipe left right, st =>
    (runSide u st left []).bind fun output => (runSide u st right output.2).bind fun result =>
      settle checked (result.1, st)
  | .ifThen condition body, st =>
    (eval true condition st).bind fun result =>
      if result.1 = 0 then eval checked body result.2 else .ret (0, result.2)
  | .seq first second, st =>
    (eval checked first st).bind fun result => eval checked second result.2

/-- What a script does, and its status. -/
def runScript (text : Str) : Program R Ending Nat :=
  match (tokens text).bind parse with
  | some command => (eval u false command .start).bind fun result => .ret result.1
  | none => .fail .unsupported

/-! ## Sequences -/

variable {u}

/-- One command after another, from the result of what is before them. -/
def evalAll (u : Utilities R) (checked : Bool) :
    List Command → Nat × State → Program R Ending (Nat × State)
  | [], result => .ret result
  | command :: rest, result => (eval u checked command result.2).bind (evalAll u checked rest)

theorem eval_foldl (checked : Bool) (commands : List Command) (first : Command) (st : State) :
    eval u checked (commands.foldl .seq first) st =
      (eval u checked first st).bind (evalAll u checked commands) := by
  induction commands generalizing first with
  | nil => exact (Program.bind_ret _).symm
  | cons command commands ih =>
    rw [List.foldl_cons, ih, eval, Program.bind_assoc]
    rfl

theorem eval_sequence (checked : Bool) (commands : List Command) (st : State) :
    eval u checked (sequence commands) st = evalAll u checked commands (0, st) :=
  eval_foldl checked commands .skip st

theorem evalAll_append (checked : Bool) (commands commands' : List Command) (result : Nat × State) :
    evalAll u checked (commands ++ commands') result =
      (evalAll u checked commands result).bind (evalAll u checked commands') := by
  induction commands generalizing result with
  | nil => rfl
  | cons command commands ih =>
    simp only [List.cons_append, evalAll, Program.bind_assoc]
    exact congrArg _ (funext ih)

/-- Two texts one after the other. -/
theorem runScript_eq {text : Str} {read : List Token} {commands : List Command} (htext : Ends text read)
    (hparse : parse read = some (sequence commands)) :
    runScript u text = (evalAll u false commands (0, .start)).bind fun result => .ret result.1 := by
  unfold runScript
  rw [htext.tokens_eq, Option.bind_some, hparse]
  simp only
  rw [eval_sequence]

/-! ## Words without variables -/

variable {st : State}

theorem expand_append (word word' : Word) :
    expand st (word ++ word') =
      (expand st word).bind fun text => (expand st word').map (text ++ ·) := by
  induction word with
  | nil => simp [expand]
  | cons piece word ih =>
    simp only [List.cons_append, expand, ih]
    cases expandPiece st piece with
    | none => rfl
    | some text =>
      cases expand st word <;> cases expand st word' <;> simp

theorem expand_bare (text : Str) : expand st (bare text) = some text := by
  induction text with
  | nil => rfl
  | cons c text ih =>
    show (some [c]).bind (fun first => (expand st (bare text)).map (first ++ ·)) = _
    rw [ih]
    rfl

theorem expand_quoted (text : Str) : expand st (quoted text) = some text := by
  induction text with
  | nil => rfl
  | cons c text ih =>
    show (some [c]).bind (fun first => (expand st (quoted text)).map (first ++ ·)) = _
    rw [ih]
    rfl

theorem expand_quotedWord (text : Str) : expand st (quotedWord text) = some text := by
  unfold quotedWord
  split
  · exact expand_bare text
  · exact expand_quoted text

/-- A name, a `=`, and a value. -/
theorem assignment?_bare {name : Str} (hname : isIdentifier name = true) (value : Word) :
    assignment? (bare (name ++ str "=") ++ value) = some (name, value) := by
  have hsplit : ∀ letters : Str, ord '=' ∉ letters →
      splitAssignment (bare (letters ++ str "=") ++ value) = some (letters, value) := by
    intro letters hletters
    induction letters with
    | nil => rfl
    | cons c letters ih =>
      have hne : c ≠ ord '=' := fun heq => hletters (heq ▸ List.mem_cons_self)
      show (if c = ord '=' then _ else _) = _
      rw [if_neg hne]
      show (splitAssignment (bare (letters ++ str "=") ++ value)).map _ = _
      rw [ih fun hmem => hletters (List.mem_cons_of_mem c hmem)]
      rfl
  have hequals : ord '=' ∉ name := by
    intro hmem
    cases name with
    | nil => cases hmem
    | cons c rest =>
      obtain ⟨hc, hrest⟩ := Bool.and_eq_true_iff.mp hname
      rcases List.mem_cons.mp hmem with heq | hmem
      · rw [← heq] at hc
        exact absurd hc (by decide)
      · exact absurd (List.all_eq_true.mp hrest _ hmem) (by decide)
  rw [assignment?, hsplit name hequals, Option.bind_some, if_pos hname]

end Shell
