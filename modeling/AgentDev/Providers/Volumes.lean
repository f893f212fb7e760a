import AgentDev.Interleaving.Program
import AgentDev.Shell.Execution
import AgentDev.Python.PosixPaths
import Mathlib.Data.List.AList
import Mathlib.Logic.Function.Basic

/-!
# Volumes and the utilities that change them

What the preparation of provider state sees of its containers: every scoped volume at its staging
target, and the directories of the legacy volume, which is mounted read-only. Each of them is a place of
its own; what volumes look like that are mounted into one another, Podman decides. The utilities `[`, `find`,
`grep`, `echo`, `cp` and `rm` are programs over the actions that they perform on the entries of a
volume. A copy takes two actions for each entry, so that it can be seen, and interrupted, while the
entry is not complete.
-/

namespace AgentDev.Providers

open Python Interleaving Shell

/-- An entry of a directory; `D` is what its data, or for a directory its subtree, is made of. -/
inductive Node (D : Type)
  | directory (data : D)
  | file (data : D)
  /-- A symbolic link. A special file is like a link. -/
  | link (target : D)
  deriving DecidableEq

variable {D : Type}

def Node.isDirectory : Node D → Bool
  | directory _ => true
  | _ => false

/-- The entry while its data is being copied. -/
def Node.begun (part : D) : Node D → Node D
  | directory _ => .directory part
  | file _ => .file part
  | link target => .link target

/-- The entries of a directory, by their names. -/
abbrev Contents (D : Type) := AList fun _ : Str => Node D

/-- The scoped volumes, by their staging targets. -/
abbrev Volumes (D : Type) := Str → Contents D

/-- What does not change while migrations run. -/
structure Container (D : Type) where
  /-- The data of an empty file. -/
  empty : D
  /-- The directories of the legacy volume, by their paths. -/
  legacy : Str → Option (Contents D)
  /-- The files of the image that the shell and the utilities need. -/
  tools : List Str
  /-- Whether a staging target is found to have its declared owner. -/
  owned : Str → Bool
  /-- Whether a link of a volume leads to something. -/
  leads : Contents D → D → Bool
  /-- Writing to what a link of a volume leads to. -/
  through : Contents D → D → Option (Contents D)
  through_link : ∀ {contents contents' : Contents D} {target target' : D} {name : Str},
    through contents target = some contents' → contents.lookup name = some (.link target') →
      contents'.lookup name = some (.link target')

/-! ## Entries -/

/-- Removing a file. -/
def remove (name : Str) (contents : Contents D) : Option (Contents D) :=
  match contents.lookup name with
  | some (.directory _) => none
  | _ => some (contents.erase name)

/-- Copying an entry to where there may be one already. -/
def copy (name : Str) (node : Node D) (contents : Contents D) : Option (Contents D) :=
  if (contents.lookup name).any fun old => old.isDirectory != node.isDirectory then none
  else some (contents.insert name node)

namespace Container

variable (box : Container D)

def present (name : Str) (contents : Contents D) : Bool :=
  match contents.lookup name with
  | some (.link target) => box.leads contents target
  | entry => entry.isSome

/-- Opening a file for writing, which empties it. -/
def create (name : Str) (contents : Contents D) : Option (Contents D) :=
  match contents.lookup name with
  | some (.directory _) => none
  | some (.link target) => box.through contents target
  | _ => some (contents.insert name (.file box.empty))

end Container

/-! ## Actions -/

inductive Action (D : Type)
  | present (dir name : Str)
  | isDirectory (path : Str)
  | listing (path : Str)
  /-- The name of any entry. -/
  | first (dir : Str)
  | beginCopy (dir name : Str) (node : Node D)
  | endCopy (dir name : Str) (node : Node D)
  | remove (dir name : Str)
  | create (dir name : Str)
  /-- The check of a marker in a container of its own. -/
  | ready (dir name : Str)
  /-- The check of the owner and its marker in a container of its own. -/
  | ownerReady (dir name : Str)
  /-- The adjustment of the owner in a container of its own, which creates the owner's marker. -/
  | adjustOwner (dir name : Str)

@[reducible] def Answer : Action D → Type
  | .listing _ => Option (Contents D)
  | .first _ => Option Str
  | _ => Bool

/-- There is no answer for a process that has been killed. -/
abbrev Reply (action : Action D) : Type := Option (Answer action)

/-- A program of a migration. -/
abbrev Process (D α : Type) := Program (Reply (D := D)) Ending α

def call (action : Action D) : Process D (Answer action) :=
  .act action fun reply =>
    match reply with
    | some answer => .ret answer
    | none => .fail .interrupted

/-- The change of one volume, unless it fails. -/
def change (dir : Str) (f : Contents D → Option (Contents D)) (v : Volumes D) : Bool × Volumes D :=
  match f (v dir) with
  | some contents => (true, Function.update v dir contents)
  | none => (false, v)

/-- What an action answers and does. `part` is what has been copied so far of an entry. -/
def Container.perform (box : Container D) (part : D) :
    (action : Action D) → Volumes D → Answer action × Volumes D
  | .present dir name, v => (box.present name (v dir), v)
  | .isDirectory path, v => ((box.legacy path).isSome, v)
  | .listing path, v => (box.legacy path, v)
  | .first dir, v => ((v dir).keys.head?, v)
  | .beginCopy dir name node, v => change dir (copy name (node.begun part)) v
  | .endCopy dir name node, v => change dir (copy name node) v
  | .remove dir name, v => change dir (Providers.remove name) v
  | .create dir name, v => change dir (box.create name) v
  | .ready dir name, v => (box.present name (v dir), v)
  | .ownerReady dir name, v => (box.owned dir && box.present name (v dir), v)
  | .adjustOwner dir name, v => change dir (box.create name) v

/-- The actions of a process that is not killed. -/
def Container.undisturbed (box : Container D) (part : D) (action : Action D) (v : Volumes D) :
    Reply action × Volumes D :=
  ((box.perform part action v).1, (box.perform part action v).2)

/-! ## Utilities -/

/-- What comes after the last `/`. -/
def baseName (path : Str) : Str := (path.reverse.takeWhile (· ≠ slash)).reverse

/-- What comes before the last `/`. -/
def dirName (path : Str) : Str := ((path.reverse.dropWhile (· ≠ slash)).drop 1).reverse

/-- The status of a utility that prints nothing. -/
def status (ok : Bool) : Nat × Str := (if ok then 0 else 1, [])

/-- `[` -/
def bracket (arguments : List Str) : Process D (Nat × Str) :=
  match arguments with
  | [negation, operator, path, closing] =>
    if negation = str "!" ∧ operator = str "-e" ∧ closing = str "]" then
      (call (.present (dirName path) (baseName path))).bind fun present => .ret (status !present)
    else .fail .unsupported
  | [operator, path, closing] =>
    if operator = str "-d" ∧ closing = str "]" then
      (call (.isDirectory path)).bind fun isDirectory => .ret (status isDirectory)
    else .fail .unsupported
  | _ => .fail .unsupported

def find (arguments : List Str) : Process D (Nat × Str) :=
  match arguments with
  | dir :: options =>
    if options = ["-mindepth", "1", "-maxdepth", "1", "-print", "-quit"].map str then
      (call (.first dir)).bind fun entry =>
        .ret (0, entry.elim [] fun name => dir ++ slash :: name ++ str "\n")
    else .fail .unsupported
  | [] => .fail .unsupported

def grep (arguments : List Str) (input : Str) : Process D (Nat × Str) :=
  if arguments = [str "-q", str "."] then .ret (status (input.any (· ≠ ord '\n')))
  else .fail .unsupported

/-- The command goes on after an entry that cannot be copied. -/
def copyEntries (dir : Str) : List (Σ _ : Str, Node D) → Process D Bool
  | [] => .ret true
  | ⟨name, node⟩ :: rest =>
    (call (.beginCopy dir name node)).bind fun begun =>
      (if begun then call (.endCopy dir name node) else .ret false).bind fun ended =>
        (copyEntries dir rest).bind fun copied => .ret (ended && copied)

/-- `cp -a path/. dir/` -/
def copyAll (path dir : Str) : Process D Bool :=
  (call (.listing path)).bind fun listing =>
    match listing with
    | some contents => copyEntries dir contents.entries
    | none => .ret false

def cp (arguments : List Str) : Process D (Nat × Str) :=
  match arguments with
  | [option, source, target] =>
    if option = str "-a" ∧ str "/." <:+ source ∧ str "/" <:+ target then
      (copyAll (source.take (source.length - 2)) target.dropLast).bind fun copied =>
        .ret (status copied)
    else .fail .unsupported
  | _ => .fail .unsupported

def rm (arguments : List Str) : Process D (Nat × Str) :=
  match arguments with
  | [option, path] =>
    if option = str "-f" then
      (call (.remove (dirName path) (baseName path))).bind fun removed => .ret (status removed)
    else .fail .unsupported
  | _ => .fail .unsupported

/-- A command whose name is a path is not found. What `echo` prints is left out. -/
def utilities : Utilities (Reply (D := D)) where
  run name arguments input :=
    if name = str "[" then bracket arguments
    else if name = str "find" then find arguments
    else if name = str "grep" then grep arguments input
    else if name = str "echo" then .ret (status true)
    else if name = str "cp" then cp arguments
    else if name = str "rm" then rm arguments
    else if slash ∈ name then .ret (127, [])
    else .fail .unsupported
  create path := call (.create (dirName path) (baseName path))

section

variable (arguments : List Str) (input : Str)

theorem run_bracket : (utilities (D := D)).run (str "[") arguments input = bracket arguments := rfl

theorem run_find : (utilities (D := D)).run (str "find") arguments input = find arguments := rfl

theorem run_cp : (utilities (D := D)).run (str "cp") arguments input = cp arguments := rfl

theorem run_rm : (utilities (D := D)).run (str "rm") arguments input = rm arguments := rfl

end

/-! ## Paths -/

section

variable {dir name : Str} (h : slash ∉ name)

theorem reverse_path (dir name : Str) :
    (dir ++ slash :: name).reverse = name.reverse ++ slash :: dir.reverse := by
  simp

include h

theorem mem_reverse_ne : ∀ c ∈ name.reverse, decide (c ≠ slash) = true := by
  intro c hc
  rw [decide_eq_true_eq]
  rintro rfl
  exact h (List.mem_reverse.mp hc)

theorem baseName_path : baseName (dir ++ slash :: name) = name := by
  rw [baseName, reverse_path, List.takeWhile_append_of_pos (mem_reverse_ne h)]
  simp

theorem dirName_path : dirName (dir ++ slash :: name) = dir := by
  rw [dirName, reverse_path, List.dropWhile_append_of_pos (mem_reverse_ne h)]
  simp

/-- What is done with a path, by its parts. -/
theorem apply_path {α : Type} (f : Str → Str → α) :
    f (dirName (dir ++ slash :: name)) (baseName (dir ++ slash :: name)) = f dir name := by
  rw [baseName_path h, dirName_path h]

end

/-! ## What an action leaves alone -/

variable {box : Container D} {part : D} {dir dir' : Str} {v v' : Volumes D}

theorem change_other {f : Contents D → Option (Contents D)} (h : dir' ≠ dir) :
    (change dir f v).2 dir' = v dir' := by
  unfold change
  split
  · exact Function.update_of_ne h _ v
  · rfl

/-- The volume that an action is about. -/
def Action.volume : Action D → Option Str
  | present dir _ | first dir | beginCopy dir _ _ | endCopy dir _ _ | remove dir _ | create dir _
  | ready dir _ | ownerReady dir _ | adjustOwner dir _ => some dir
  | isDirectory _ | listing _ => none

theorem perform_other {action : Action D} (h : action.volume ≠ some dir') :
    (box.perform part action v).2 dir' = v dir' := by
  cases action with
  | present dir name => rfl
  | isDirectory path => rfl
  | listing path => rfl
  | first dir => rfl
  | beginCopy dir name node => exact change_other fun heq => h (congrArg some heq.symm)
  | endCopy dir name node => exact change_other fun heq => h (congrArg some heq.symm)
  | remove dir name => exact change_other fun heq => h (congrArg some heq.symm)
  | create dir name => exact change_other fun heq => h (congrArg some heq.symm)
  | ready dir name => rfl
  | ownerReady dir name => rfl
  | adjustOwner dir name => exact change_other fun heq => h (congrArg some heq.symm)

end AgentDev.Providers
