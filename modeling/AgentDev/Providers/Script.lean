import AgentDev.Agents.State
import AgentDev.Providers.Volumes

/-!
# The migration script

`_migration_script` in `broker/daemon.py`: the text of a shell script that is made from an adapter. If
the names that the script assigns are names to the shell, then the shell reads it as the commands
that are meant, whatever the other texts of the adapter are (`parse_migrationScript`).
-/

namespace AgentDev.Providers

open Python Interleaving Shell Agents

variable {D : Type}

/-! ## The text -/

/-- `marker_var` -/
def markerVar (index : Nat) (layout : StateVolumeLayout) : Str :=
  if index = 0 then str "marker" else layout.key ++ str "_marker"

/-- `marker_path` -/
def markerPath (layout : StateVolumeLayout) : Str := layout.stagingTarget ++ slash :: layout.marker

/-- `legacy_path` -/
def legacyPath (path : Str) : Str := str "/legacy/" ++ path

def emptyCheck (index : Nat) (layout : StateVolumeLayout) : Str :=
  str "if find " ++ quote layout.stagingTarget ++
    str " -mindepth 1 -maxdepth 1 -print -quit | grep -q .; then echo " ++ quote layout.emptyError ++
    str " >&2; exit " ++ natRepr (2 + index) ++ str "; fi"

def copyCommand (layout : StateVolumeLayout) (path : Str) : Str :=
  str "if [ -d " ++ quote (legacyPath path) ++ str " ]; then cp -a " ++ quote (legacyPath path) ++
    str "/. " ++ quote layout.stagingTarget ++ str "/; fi"

def removeCommand (layout : StateVolumeLayout) (relative : Str) : Str :=
  str "rm -f " ++ quote (layout.stagingTarget ++ slash :: relative)

def createCommand (index : Nat) (layout : StateVolumeLayout) : Str :=
  str ": > \"$" ++ markerVar index layout ++ str "\""

/-- `body` -/
def migrationBody (index : Nat) (layout : StateVolumeLayout) : List Str :=
  emptyCheck index layout :: layout.legacyPath.toList.map (copyCommand layout) ++
    layout.cleanupAfterCopy.map (removeCommand layout) ++ [createCommand index layout]

/-- What `parts` gets for one volume. -/
def migrationPart (index : Nat) (layout : StateVolumeLayout) : List Str :=
  [markerVar index layout ++ str "=" ++ quote (markerPath layout),
    str "if [ ! -e \"$" ++ markerVar index layout ++ str "\" ]; then " ++
      join (str "; ") (migrationBody index layout) ++ str "; fi"]

def migrationParts : Nat → List StateVolumeLayout → List Str
  | _, [] => []
  | index, layout :: rest => migrationPart index layout ++ migrationParts (index + 1) rest

/-- `_migration_script` -/
def migrationScript (adapter : ProviderStateAdapter) : Str :=
  join (str "; ") (str "set -eu" :: migrationParts 0 adapter.volumes)

/-! ## The commands that the shell reads -/

def assignCommand (index : Nat) (layout : StateVolumeLayout) : Command :=
  .simple ⟨[bare (markerVar index layout ++ str "=") ++ quotedWord (markerPath layout)], []⟩

def emptyCheckCommand (index : Nat) (layout : StateVolumeLayout) : Command :=
  .ifThen
    (sequence [.pipe
      ⟨bare (str "find") :: quotedWord layout.stagingTarget ::
        ["-mindepth", "1", "-maxdepth", "1", "-print", "-quit"].map (bare ∘ str), []⟩
      ⟨["grep", "-q", "."].map (bare ∘ str), []⟩])
    (sequence [
      .simple ⟨[bare (str "echo"), quotedWord layout.emptyError], [.toDescriptor (bare (str "2"))]⟩,
      .simple ⟨[bare (str "exit"), bare (natRepr (2 + index))], []⟩])

def copyCommandRead (layout : StateVolumeLayout) (path : Str) : Command :=
  .ifThen
    (sequence [.simple
      ⟨[bare (str "["), bare (str "-d"), quotedWord (legacyPath path), bare (str "]")], []⟩])
    (sequence [.simple
      ⟨[bare (str "cp"), bare (str "-a"), quotedWord (legacyPath path) ++ bare (str "/."),
        quotedWord layout.stagingTarget ++ bare (str "/")], []⟩])

def removeCommandRead (layout : StateVolumeLayout) (relative : Str) : Command :=
  .simple ⟨[bare (str "rm"), bare (str "-f"), quotedWord (layout.stagingTarget ++ slash :: relative)],
    []⟩

def createCommandRead (index : Nat) (layout : StateVolumeLayout) : Command :=
  .simple ⟨[bare (str ":")], [.toFile [.variable (markerVar index layout)]]⟩

def bodyCommands (index : Nat) (layout : StateVolumeLayout) : List Command :=
  emptyCheckCommand index layout :: layout.legacyPath.toList.map (copyCommandRead layout) ++
    layout.cleanupAfterCopy.map (removeCommandRead layout) ++ [createCommandRead index layout]

def partCommands (index : Nat) (layout : StateVolumeLayout) : List Command :=
  [assignCommand index layout,
    .ifThen
      (sequence [.simple
        ⟨[bare (str "["), bare (str "!"), bare (str "-e"), [.variable (markerVar index layout)],
          bare (str "]")], []⟩])
      (sequence (bodyCommands index layout))]

def scriptCommands : Nat → List StateVolumeLayout → List Command
  | _, [] => []
  | index, layout :: rest => partCommands index layout ++ scriptCommands (index + 1) rest

variable {index : Nat} {layout : StateVolumeLayout}

theorem spells_assign (h : isIdentifier (markerVar index layout) = true) :
    Spells (markerVar index layout ++ str "=" ++ quote (markerPath layout))
      (assignCommand index layout) := by
  have hsafe : (markerVar index layout ++ str "=").all isSafe = true := by
    rw [List.all_append, isIdentifier_safe h]
    decide +kernel
  have hword := (continues_safe hsafe (List.append_ne_nil_of_right_ne_nil _ (by decide))).append (continues_quote (markerPath layout))
  have hplain := (isPlain_bare hsafe).append (isPlain_quotedWord (markerPath layout))
  refine spells_simple (hword.ends hplain.isPattern) ?_
  -- the reserved words have no `=`
  have hreserved : (reserved.all fun name => ord '=' ∉ name) = true := by decide +kernel
  have hmem : Piece.char (ord '=') false ∈
      bare (markerVar index layout ++ str "=") ++ quotedWord (markerPath layout) :=
    List.mem_append_left _ (List.mem_map_of_mem (List.mem_append_right _ (by decide)))
  rw [isReserved, decide_eq_false_iff_not]
  intro hin
  obtain ⟨name, hname, heq⟩ := List.mem_map.mp hin
  rw [← heq] at hmem
  obtain ⟨c, hc, hceq⟩ := List.mem_map.mp hmem
  cases hceq
  exact of_decide_eq_true (List.all_eq_true.mp hreserved name hname) hc

theorem natRepr_ne_nil (n : Nat) : natRepr n ≠ [] := by
  rcases natRepr_head n with h | ⟨c, rest, h, -⟩ <;> simp [h]

theorem natRepr_safe (n : Nat) : (natRepr n).all isSafe = true := by
  rw [List.all_eq_true]
  intro c hc
  unfold isSafe
  rw [natRepr_digits n c hc]
  simp

theorem spells_find (text : Str) :
    Spells (str "find " ++ quote text ++ str " " ++
        str "-mindepth 1 -maxdepth 1 -print -quit | grep -q .")
      (.pipe
        ⟨bare (str "find") :: quotedWord text ::
          ["-mindepth", "1", "-maxdepth", "1", "-print", "-quit"].map (bare ∘ str), []⟩
        ⟨["grep", "-q", "."].map (bare ∘ str), []⟩) := by
  have hfind : Reads (str "find ") [.word (bare (str "find"))] := rfl
  have hoptions : Shell.Ends (str "-mindepth 1 -maxdepth 1 -print -quit | grep -q .")
      ((["-mindepth", "1", "-maxdepth", "1", "-print", "-quit"].map (Token.word ∘ bare ∘ str)) ++
        .pipe :: ["grep", "-q", "."].map (Token.word ∘ bare ∘ str)) := ⟨_, rfl, rfl, rfl⟩
  have hparses := parses_pipe
    (quotedWord text :: ["-mindepth", "1", "-maxdepth", "1", "-print", "-quit"].map (bare ∘ str))
    (["-q", "."].map (bare ∘ str)) (show isReserved (bare (str "find")) = false from rfl)
    (show isReserved (bare (str "grep")) = false from rfl)
  exact ⟨_, (hfind.ends (ends_quote text)).blank.ends hoptions, hparses⟩

theorem spells_echo (text : Str) :
    Spells (str "echo " ++ quote text ++ str " " ++ str ">&2")
      (.simple ⟨[bare (str "echo"), quotedWord text], [.toDescriptor (bare (str "2"))]⟩) := by
  have hecho : Reads (str "echo ") [.word (bare (str "echo"))] := rfl
  have hstderr : Shell.Ends (str ">&2") [.greatAnd, .word (bare (str "2"))] := ⟨_, rfl, rfl, rfl⟩
  have hparses := parses_redirect [quotedWord text]
    (show isReserved (bare (str "echo")) = false from rfl) (bare (str "2")) true
  exact ⟨_, (hecho.ends (ends_quote text)).blank.ends hstderr, hparses⟩

theorem spells_exit (n : Nat) :
    Spells (str "exit " ++ natRepr n) (.simple ⟨[bare (str "exit"), bare (natRepr n)], []⟩) := by
  have hexit : Reads (str "exit ") [.word (bare (str "exit"))] := rfl
  have hdigits := (continues_safe (natRepr_safe n) (natRepr_ne_nil n)).ends
    (isPlain_bare (natRepr_safe n)).isPattern
  exact spells_simple (hexit.ends hdigits) rfl

theorem spells_emptyCheck (index : Nat) (layout : StateVolumeLayout) :
    Spells (emptyCheck index layout) (emptyCheckCommand index layout) := by
  have hspells := (spells_find layout.stagingTarget).ifThen
    (.cons (spells_echo layout.emptyError) (.cons (spells_exit (2 + index)) .nil))
    (List.cons_ne_nil _ _)
  have hoptions : str " -mindepth 1 -maxdepth 1 -print -quit | grep -q .; then echo " =
      str " " ++ (str "-mindepth 1 -maxdepth 1 -print -quit | grep -q ." ++
        (str "; then " ++ str "echo ")) := rfl
  have hstatus : str " >&2; exit " = str " " ++ (str ">&2" ++ (str "; " ++ str "exit ")) := rfl
  have hif : str "if find " = str "if " ++ str "find " := rfl
  have htext : emptyCheck index layout =
      str "if " ++ (str "find " ++ quote layout.stagingTarget ++ str " " ++
        str "-mindepth 1 -maxdepth 1 -print -quit | grep -q .") ++ str "; then " ++
        join (str "; ") [str "echo " ++ quote layout.emptyError ++ str " " ++ str ">&2",
          str "exit " ++ natRepr (2 + index)] ++ str "; fi" := by
    unfold emptyCheck
    rw [hoptions, hstatus, hif]
    simp only [join, List.append_assoc]
  rw [htext]
  exact hspells

theorem spells_test (text : Str) :
    Spells (str "[ -d " ++ quote text ++ str " " ++ str "]")
      (.simple ⟨[bare (str "["), bare (str "-d"), quotedWord text, bare (str "]")], []⟩) := by
  have htest : Reads (str "[ -d ") [.word (bare (str "[")), .word (bare (str "-d"))] := rfl
  have hclosing : Shell.Ends (str "]") [.word (bare (str "]"))] := ⟨_, rfl, rfl, rfl⟩
  exact spells_simple ((htest.ends (ends_quote text)).blank.ends hclosing) rfl

theorem ends_quote_safe (text : Str) {tail : Str} (hsafe : tail.all isSafe = true)
    (hne : tail ≠ []) : Shell.Ends (quote text ++ tail) [.word (quotedWord text ++ bare tail)] :=
  ((continues_quote text).append (continues_safe hsafe hne)).ends
    ((isPlain_quotedWord text).append (isPlain_bare hsafe)).isPattern

theorem spells_cp (source target : Str) :
    Spells (str "cp -a " ++ (quote source ++ str "/.") ++ str " " ++ (quote target ++ str "/"))
      (.simple ⟨[bare (str "cp"), bare (str "-a"), quotedWord source ++ bare (str "/."),
        quotedWord target ++ bare (str "/")], []⟩) := by
  have hcp : Reads (str "cp -a ") [.word (bare (str "cp")), .word (bare (str "-a"))] := rfl
  have hsource := ends_quote_safe source (show (str "/.").all isSafe = true by decide +kernel)
    (by decide)
  have htarget := ends_quote_safe target (show (str "/").all isSafe = true by decide +kernel)
    (by decide)
  exact spells_simple ((hcp.ends hsource).blank.ends htarget) rfl

theorem spells_copy (layout : StateVolumeLayout) (path : Str) :
    Spells (copyCommand layout path) (copyCommandRead layout path) := by
  have hspells := (spells_test (legacyPath path)).ifThen
    (.cons (spells_cp (legacyPath path) layout.stagingTarget) .nil) (List.cons_ne_nil _ _)
  have hif : str "if [ -d " = str "if " ++ str "[ -d " := rfl
  have hcp : str " ]; then cp -a " = str " " ++ (str "]" ++ (str "; then " ++ str "cp -a ")) := rfl
  have hdot : str "/. " = str "/." ++ str " " := rfl
  have hfi : str "/; fi" = str "/" ++ str "; fi" := rfl
  have htext : copyCommand layout path =
      str "if " ++ (str "[ -d " ++ quote (legacyPath path) ++ str " " ++ str "]") ++
        str "; then " ++ join (str "; ") [str "cp -a " ++ (quote (legacyPath path) ++ str "/.") ++ str " " ++
          (quote layout.stagingTarget ++ str "/")] ++ str "; fi" := by
    unfold copyCommand
    rw [hif, hcp, hdot, hfi]
    simp only [join, List.append_assoc]
  rw [htext]
  exact hspells

theorem spells_remove (layout : StateVolumeLayout) (relative : Str) :
    Spells (removeCommand layout relative) (removeCommandRead layout relative) := by
  have hcommand : Reads (str "rm -f ") [.word (bare (str "rm")), .word (bare (str "-f"))] := rfl
  exact spells_simple (hcommand.ends (ends_quote _)) rfl

theorem spells_create (h : isIdentifier (markerVar index layout) = true) :
    Spells (createCommand index layout) (createCommandRead index layout) := by
  have hcommand : Reads (str ": > ") [.word (bare (str ":")), .great] := rfl
  have hvariable := hcommand.ends (ends_variable h)
  refine ⟨_, ?_, parses_redirect [] rfl _ false⟩
  have htext : str ": > " ++ (str "\"$" ++ markerVar index layout ++ str "\"") =
      createCommand index layout := by
    rw [createCommand, ← List.append_assoc, ← List.append_assoc]
    rfl
  rw [← htext]
  exact hvariable

theorem spells_map {α : Type} {texts : α → Str} {commands : α → Command}
    (h : ∀ a, Spells (texts a) (commands a)) (items : List α) :
    List.Forall₂ Spells (items.map texts) (items.map commands) := by
  rw [List.forall₂_map_left_iff, List.forall₂_map_right_iff, List.forall₂_same]
  exact fun a _ => h a

theorem spells_body (h : isIdentifier (markerVar index layout) = true) :
    List.Forall₂ Spells (migrationBody index layout) (bodyCommands index layout) :=
  List.rel_append (List.rel_append (.cons (spells_emptyCheck index layout)
    (spells_map (spells_copy layout) _)) (spells_map (spells_remove layout) _))
    (.cons (spells_create h) .nil)

theorem spells_part (h : isIdentifier (markerVar index layout) = true) :
    List.Forall₂ Spells (migrationPart index layout) (partCommands index layout) := by
  have htest : Reads (str "[ ! -e ")
      [.word (bare (str "[")), .word (bare (str "!")), .word (bare (str "-e"))] := rfl
  have hclosing : Shell.Ends (str "]") [.word (bare (str "]"))] := ⟨_, rfl, rfl, rfl⟩
  have hcondition : Spells
      (str "[ ! -e " ++ (str "\"$" ++ markerVar index layout ++ str "\"") ++ str " " ++ str "]")
      (.simple ⟨[bare (str "["), bare (str "!"), bare (str "-e"),
        [.variable (markerVar index layout)], bare (str "]")], []⟩) :=
    spells_simple ((htest.ends (ends_variable h)).blank.ends hclosing) rfl
  have hif := hcondition.ifThen (spells_body h) (by simp [bodyCommands])
  have hopen : str "if [ ! -e \"$" = str "if " ++ (str "[ ! -e " ++ str "\"$") := rfl
  have hthen : str "\" ]; then " = str "\"" ++ (str " " ++ (str "]" ++ str "; then ")) := rfl
  have htext : str "if [ ! -e \"$" ++ markerVar index layout ++ str "\" ]; then " ++
      join (str "; ") (migrationBody index layout) ++ str "; fi" =
      str "if " ++ (str "[ ! -e " ++ (str "\"$" ++ markerVar index layout ++ str "\"") ++ str " " ++
        str "]") ++ str "; then " ++ join (str "; ") (migrationBody index layout) ++ str "; fi" := by
    rw [hopen, hthen]
    simp only [List.append_assoc]
  unfold migrationPart
  rw [htext]
  exact .cons (spells_assign h) (.cons hif .nil)

/-- The names that the script assigns. -/
def assigned : Nat → List StateVolumeLayout → List Str
  | _, [] => []
  | index, layout :: rest => markerVar index layout :: assigned (index + 1) rest

theorem spells_parts (layouts : List StateVolumeLayout)
    (h : ∀ name ∈ assigned index layouts, isIdentifier name = true) :
    List.Forall₂ Spells (migrationParts index layouts) (scriptCommands index layouts) := by
  induction layouts generalizing index with
  | nil => exact .nil
  | cons layout rest ih =>
    exact List.rel_append (spells_part (h _ List.mem_cons_self))
      (ih fun name hname => h name (List.mem_cons_of_mem _ hname))

/-- The script as the shell reads it. -/
theorem parse_migrationScript {adapter : ProviderStateAdapter}
    (h : ∀ name ∈ assigned 0 adapter.volumes, isIdentifier name = true) :
    ∃ read, Shell.Ends (migrationScript adapter) read ∧ parse read =
      some (sequence (.simple ⟨[bare (str "set"), bare (str "-eu")], []⟩ ::
        scriptCommands 0 adapter.volumes)) := by
  have hset : Shell.Ends (str "set -eu") [.word (bare (str "set")), .word (bare (str "-eu"))] :=
    ⟨_, rfl, rfl, rfl⟩
  have hspells : Spells (str "set -eu") (.simple ⟨[bare (str "set"), bare (str "-eu")], []⟩) :=
    spells_simple hset rfl
  exact parse_join (.cons hspells (spells_parts adapter.volumes h)) (List.cons_ne_nil _ _)

end AgentDev.Providers
