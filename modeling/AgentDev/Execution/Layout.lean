import AgentDev.Execution.Plan
import AgentDev.Files.Tree

/-!
# Project layout

`core/validation.py`, `resolve_project_paths` of `core/projects.py`, and `load_task` of
`core/tasks.py`, on a file system that does not change meanwhile: the checks on directories and
files, and the places that they find. A path is absolute; what it resolves to is a place, a list of
names.
-/

namespace AgentDev.Execution

open Python Policy Agents Files

/-! ## Errors and paths -/

inductive RunError
  /-- `InputValidationError` -/
  | request (message : Message)
  /-- The exceptions of the checks of values. -/
  | failed (error : Policy.Error)
  /-- Any other exception: of the file system, of an operation on a value of the wrong type, of a
  command. -/
  | other

/-- What raises no `InputValidationError`. -/
def lift {α : Type} : Except Policy.Error α → Except RunError α
  | .ok a => .ok a
  | .error error => .error (.failed error)

theorem lift_ok {α : Type} {x : Except Policy.Error α} {a : α} : lift x = .ok a ↔ x = .ok a := by
  cases x <;> simp [lift]

abbrev Path := List (Files.Part Str)

abbrev Place := List Str

def partText : Files.Part Str → Str
  | .name name => name
  | .up => str ".."

/-- `str(path)` -/
def pathText (path : Path) : Str := showPath (path.map partText)

def requestError (text : Str) : RunError := .request [.text text]

/-- `valid_name` -/
def validName (value : Value) (what : Str) : Except RunError Str :=
  match value with
  | .str name =>
    if Agents.isValidName name then .ok name else .error (requestError (str "invalid " ++ what))
  | _ => .error (requestError (str "invalid " ++ what))

theorem validName_ok {value : Value} {what name : Str} (h : validName value what = .ok name) :
    value = .str name ∧ Agents.isValidName name = true := by
  unfold validName at h
  split at h
  · split at h
    · rename_i hvalid
      cases h
      exact ⟨rfl, hvalid⟩
    · cases h
  · cases h

section

variable (fs : FileSystem Str)

/-! ## Directories and files -/

/-- `path.resolve(strict=True)` -/
def resolveStrict (path : Path) : Except RunError Place :=
  match fs.resolve path with
  | some place => .ok place
  | none => .error .other

/-- `ensure_under` -/
def ensureUnder (path root : Path) : Except RunError Place := do
  let resolved ← resolveStrict fs path
  let rootResolved ← resolveStrict fs root
  ensure (rootResolved <+: resolved : Bool)
    (.failed (valueError (str "path escapes allowed root: " ++ pathText path)))
  return resolved

/-- `canonical_dir` and `canonical_file`: what is found is of a kind, and the last part of the path is
no link. -/
def canonical (isKind : Place → Bool) (notKind : Str) (path root : Path) (label : Str) :
    Except RunError Place := do
  ensure (!fs.isSymlink path)
    (.failed (valueError (label ++ str " must not be a symlink: " ++ pathText path)))
  let resolved ← ensureUnder fs path root
  ensure (isKind resolved) (.failed (valueError (label ++ notKind ++ pathText path)))
  return resolved

def canonicalDir (path root : Path) (label : Str) : Except RunError Place :=
  canonical fs fs.isDirAt (str " is not a directory: ") path root label

def canonicalFile (path root : Path) (label : Str) : Except RunError Place :=
  canonical fs fs.isFileAt (str " is not a regular file: ") path root label

end

/-- What the checks find: the path is resolved, below the root, and its last part is no link. -/
structure Canonical (fs : FileSystem Str) (path root : Path) (place : Place) : Prop where
  noLink : fs.isSymlink path = false
  resolves : fs.resolve path = some place
  below : ∃ rootPlace, fs.resolve root = some rootPlace ∧ rootPlace <+: place

section

variable {fs : FileSystem Str} {path root : Path} {place : Place}

theorem resolveStrict_ok : resolveStrict fs path = .ok place ↔ fs.resolve path = some place := by
  unfold resolveStrict
  split <;> simp_all

theorem ensureUnder_ok (h : ensureUnder fs path root = .ok place) :
    fs.resolve path = some place ∧
      ∃ rootPlace, fs.resolve root = some rootPlace ∧ rootPlace <+: place := by
  obtain ⟨resolved, hresolved, h⟩ := bind_ok_iff.mp h
  obtain ⟨rootPlace, hroot, h⟩ := bind_ok_iff.mp h
  obtain ⟨hbelow, h⟩ := ensure_then_ok.mp h
  cases h
  exact ⟨resolveStrict_ok.mp hresolved, rootPlace, resolveStrict_ok.mp hroot,
    of_decide_eq_true hbelow⟩

theorem canonical_ok {isKind : Place → Bool} {notKind label : Str}
    (h : canonical fs isKind notKind path root label = .ok place) :
    Canonical fs path root place ∧ isKind place = true := by
  obtain ⟨hlink, h⟩ := ensure_then_ok.mp h
  obtain ⟨resolved, hresolved, h⟩ := bind_ok_iff.mp h
  obtain ⟨hkind, h⟩ := ensure_then_ok.mp h
  cases h
  obtain ⟨hpath, hroot⟩ := ensureUnder_ok hresolved
  exact ⟨⟨by simpa using hlink, hpath, hroot⟩, hkind⟩

namespace Canonical

theorem real (h : Canonical fs path root place) : fs.Real place := FileSystem.resolve_real h.resolves

/-- Below a place without links, the root is that place. -/
theorem of_real {above : Place} (h : Canonical fs path (names above) place) (habove : fs.Real above) :
    above <+: place := by
  obtain ⟨rootPlace, hroot, hbelow⟩ := h.below
  rw [FileSystem.resolve_of_real habove] at hroot
  rw [Option.some.inj hroot]
  exact hbelow

/-- A place without links is found as it is. -/
theorem eq_of_real {found : Place} (h : Canonical fs (names found) root place)
    (hfound : fs.Real found) : place = found := by
  have hresolves := h.resolves
  rw [FileSystem.resolve_of_real hfound] at hresolves
  exact (Option.some.inj hresolves).symm

/-- An entry of a place without links is found where it is. -/
theorem eq_child {above : Place} {name : Str} (h : Canonical fs (names (above ++ [name])) root place)
    (habove : fs.Real above) : place = above ++ [name] := by
  have hnames : names (above ++ [name]) = names above ++ [Part.name name] := by simp [names]
  have hlink := h.noLink
  have hresolves := h.resolves
  rw [hnames] at hlink hresolves
  exact FileSystem.resolve_child habove hlink hresolves

end Canonical

end

section

variable (fs : FileSystem Str)

/-! ## Projects -/

/-- `Path(platform_root) / "projects"` -/
def projectsPath (platformRoot : Path) : Path := platformRoot ++ [.name (str "projects")]

def resolveProjectRoot (platformRoot : Path) (project : Str) : Except RunError Place := do
  let project ← validName (.str project) (str "project")
  let projects := projectsPath platformRoot
  let candidate := projects ++ [.name project]
  ensure (!fs.isSymlink candidate) (requestError (str "project root must not be a symlink"))
  let root ← ensureUnder fs candidate projects
  ensure (fs.isDirAt root) (requestError (str "project does not exist: " ++ project))
  return root

/-- The result of `resolve_project_paths`. -/
structure ProjectPaths where
  root : Place
  agent : Place
  worktrees : Place
  tasks : Place
  reference : Place
  results : Place
  runtime : Place
  inbound : Place
  outbound : Place
  projectMeta : Path

def resolveProjectPaths (platformRoot : Path) (project : Str) : Except RunError ProjectPaths := do
  let root ← resolveProjectRoot fs platformRoot project
  let subdir (parts : List Str) (label : Str) : Except RunError Place :=
    canonicalDir fs (names (root ++ parts)) (names root) label
  let agent ← subdir [str "repo", str "agent"] (str "agent repository root")
  let worktrees ← subdir [str "worktrees"] (str "worktrees root")
  let tasks ← subdir [str "tasks"] (str "tasks root")
  let reference ← subdir [str "reference"] (str "reference root")
  let results ← subdir [str "results"] (str "results root")
  let runtime ← subdir [str "runtime"] (str "runtime root")
  let inbound ← subdir [str "exchange", str "inbound"] (str "inbound exchange root")
  let outbound ← subdir [str "exchange", str "outbound"] (str "outbound exchange root")
  return {
    root, agent, worktrees, tasks, reference, results, runtime, inbound, outbound
    projectMeta := names (root ++ [str "project.json"])
  }

end

/-- The root of a project is an entry of the directory of projects, and no link. -/
structure RootOf (fs : FileSystem Str) (platformRoot : Path) (project : Str) (projects root : Place) :
    Prop where
  above : fs.resolve (projectsPath platformRoot) = some projects
  resolves : fs.resolve (projectsPath platformRoot ++ [.name project]) = some root
  eq : root = projects ++ [project]
  noLink : fs.isLinkAt root = false
  real : fs.Real root
  isDir : fs.isDirAt root = true

theorem resolveProjectRoot_ok {fs : FileSystem Str} {platformRoot : Path} {project : Str}
    {root : Place} (h : resolveProjectRoot fs platformRoot project = .ok root) :
    ∃ projects, RootOf fs platformRoot project projects root := by
  obtain ⟨name, hname, h⟩ := bind_ok_iff.mp h
  cases (validName_ok hname).1
  obtain ⟨hlink, h⟩ := ensure_then_ok.mp h
  obtain ⟨resolved, hresolved, h⟩ := bind_ok_iff.mp h
  obtain ⟨hdir, h⟩ := ensure_then_ok.mp h
  cases h
  have hresolves := (ensureUnder_ok hresolved).1
  obtain ⟨projects, hprojects, heq, hnolink⟩ :=
    FileSystem.resolve_concat (by simpa using hlink) hresolves
  subst heq
  exact ⟨projects, hprojects, hresolves, rfl, hnolink, FileSystem.resolve_real hresolves, hdir⟩

/-- Where the directories of a project are that a run uses. Only `repo/agent` can be reached through
a link. -/
structure PathsOf (fs : FileSystem Str) (pp : ProjectPaths) : Prop where
  agent : Canonical fs (names (pp.root ++ [str "repo", str "agent"])) (names pp.root) pp.agent
  worktrees : pp.worktrees = pp.root ++ [str "worktrees"] ∧ fs.Real pp.worktrees
  tasks : pp.tasks = pp.root ++ [str "tasks"] ∧ fs.Real pp.tasks
  reference : pp.reference = pp.root ++ [str "reference"] ∧ fs.Real pp.reference

theorem resolveProjectPaths_ok {fs : FileSystem Str} {platformRoot : Path} {project : Str}
    {pp : ProjectPaths} (h : resolveProjectPaths fs platformRoot project = .ok pp) :
    (∃ projects, RootOf fs platformRoot project projects pp.root) ∧ PathsOf fs pp := by
  obtain ⟨root, hroot, h⟩ := bind_ok_iff.mp h
  obtain ⟨agent, hagent, h⟩ := bind_ok_iff.mp h
  obtain ⟨worktrees, hworktrees, h⟩ := bind_ok_iff.mp h
  obtain ⟨tasks, htasks, h⟩ := bind_ok_iff.mp h
  obtain ⟨reference, hreference, h⟩ := bind_ok_iff.mp h
  obtain ⟨results, -, h⟩ := bind_ok_iff.mp h
  obtain ⟨runtime, -, h⟩ := bind_ok_iff.mp h
  obtain ⟨inbound, -, h⟩ := bind_ok_iff.mp h
  obtain ⟨outbound, -, h⟩ := bind_ok_iff.mp h
  cases h
  obtain ⟨projects, hprojects⟩ := resolveProjectRoot_ok hroot
  have hchild : ∀ {name label : Str} {place : Place},
      canonicalDir fs (names (root ++ [name])) (names root) label = .ok place →
      place = root ++ [name] ∧ fs.Real place := by
    intro name label place hplace
    have hcanonical := (canonical_ok hplace).1
    exact ⟨hcanonical.eq_child hprojects.real, hcanonical.real⟩
  exact ⟨⟨projects, hprojects⟩, (canonical_ok hagent).1, hchild hworktrees, hchild htasks,
    hchild hreference⟩

section

variable (fs : FileSystem Str)

/-! ## Tasks -/

/-- What has no `get` is no record. -/
def requireRecord : Value → Except RunError Dict
  | .dict record => .ok record
  | _ => .error .other

/-- `record.get(name)` -/
def field (record : Dict) (name : Str) : Value := (record.get? name).getD .none

/-- `value in {"integration", "parallel"}` -/
def isTaskMode (mode : Value) : Except RunError Bool :=
  match mode with
  | .str text => .ok (text = str "integration" || text = str "parallel")
  | .seq _ => .error .other
  | .dict _ => .error .other
  | _ => .ok false

/-- `f"{task}.json"` -/
def metadataName (task : Str) : Str := task ++ str ".json"

/-- `task_meta_path` -/
def taskMetaPath (pp : ProjectPaths) (task : Str) : Except RunError Path := do
  let task ← validName (.str task) (str "task")
  return names (pp.tasks ++ [metadataName task])

/-- The task works in a worktree of its own. -/
def inWorktree (mode status : Value) : Bool :=
  mode.isStr (str "parallel") && !status.isStr (str "merged")

/-- The result of `load_task`. -/
structure LoadedTask where
  record : Dict
  paths : ProjectPaths
  workspace : Place

def loadTask (readJson : Place → Except RunError Value) (platformRoot : Path) (project task : Str) :
    Except RunError LoadedTask := do
  let task ← validName (.str task) (str "task")
  let pp ← resolveProjectPaths fs platformRoot project
  let metaPath ← canonicalFile fs (← taskMetaPath pp task) (names pp.tasks) (str "task metadata")
  let record ← requireRecord (← readJson metaPath)
  ensure ((field record (str "project")).isStr project && (field record (str "task")).isStr task)
    (.failed (valueError (str "task metadata identity mismatch")))
  let mode := field record (str "mode")
  let status := field record (str "status")
  ensure (← isTaskMode mode) (.failed (valueError (str "unsupported task mode")))
  ensure (!status.isStr (str "aborted")) (requestError (str "task is aborted"))
  let workspace :=
    if mode.isStr (str "integration") || status.isStr (str "merged") then names pp.agent
    else names (pp.worktrees ++ [task])
  let workspaceRoot :=
    if mode.isStr (str "integration") || status.isStr (str "merged") then names pp.agent
    else names pp.worktrees
  let workspace ← canonicalDir fs workspace
    (if mode.isStr (str "parallel") && !status.isStr (str "merged") then workspaceRoot
      else names pp.root) (str "task workspace")
  return ⟨record, pp, workspace⟩

end

/-- Where a task works. -/
def workspaceOf (pp : ProjectPaths) (task : Str) (mode status : Value) : Place :=
  if inWorktree mode status then pp.worktrees ++ [task] else pp.agent

theorem isTaskMode_ok {mode : Value} (h : isTaskMode mode = .ok true) :
    mode.isStr (str "integration") = true ∨ mode.isStr (str "parallel") = true := by
  unfold isTaskMode at h
  split at h <;> simp_all [Value.isStr]

theorem isStr_ne {value : Value} {text other : Str} (h : value.isStr text = true)
    (hne : text ≠ other) : value.isStr other = false := by
  unfold Value.isStr at h ⊢
  split
  · rename_i found
    have heq : found = text := by simpa using h
    rw [heq]
    simpa using hne
  · rfl

/-- There are two modes. -/
theorem inWorktree_path {mode status : Value} (h : isTaskMode mode = .ok true)
    (agent worktree : Path) :
    (if mode.isStr (str "integration") || status.isStr (str "merged") then agent else worktree) =
      if inWorktree mode status then worktree else agent := by
  rcases isTaskMode_ok h with hintegration | hparallel
  · have hnot : mode.isStr (str "parallel") = false := isStr_ne hintegration (by decide)
    simp [inWorktree, hintegration, hnot]
  · have hnot : mode.isStr (str "integration") = false := isStr_ne hparallel (by decide)
    cases hmerged : status.isStr (str "merged") <;> simp [inWorktree, hparallel, hnot, hmerged]

/-- What is known of a task that has been loaded. -/
structure TaskOf (fs : FileSystem Str) (task : Str) (loaded : LoadedTask) : Prop where
  paths : PathsOf fs loaded.paths
  workspace : loaded.workspace = workspaceOf loaded.paths task (field loaded.record (str "mode"))
    (field loaded.record (str "status"))
  real : fs.Real loaded.workspace

theorem loadTask_ok {fs : FileSystem Str} {readJson : Place → Except RunError Value}
    {platformRoot : Path} {project task : Str} {loaded : LoadedTask}
    (h : loadTask fs readJson platformRoot project task = .ok loaded) :
    (∃ projects, RootOf fs platformRoot project projects loaded.paths.root) ∧
      TaskOf fs task loaded := by
  obtain ⟨name, hname, h⟩ := bind_ok_iff.mp h
  cases (validName_ok hname).1
  obtain ⟨pp, hpp, h⟩ := bind_ok_iff.mp h
  obtain ⟨path, -, h⟩ := bind_ok_iff.mp h
  obtain ⟨metaPath, -, h⟩ := bind_ok_iff.mp h
  obtain ⟨value, -, h⟩ := bind_ok_iff.mp h
  obtain ⟨record, -, h⟩ := bind_ok_iff.mp h
  obtain ⟨-, h⟩ := ensure_then_ok.mp h
  obtain ⟨isMode, hmode, h⟩ := bind_ok_iff.mp h
  obtain ⟨hisMode, h⟩ := ensure_then_ok.mp h
  obtain ⟨-, h⟩ := ensure_then_ok.mp h
  obtain ⟨workspace, hworkspace, h⟩ := bind_ok_iff.mp h
  cases h
  rw [hisMode] at hmode
  obtain ⟨hroot, hpaths⟩ := resolveProjectPaths_ok hpp
  have hcanonical := (canonical_ok hworkspace).1
  refine ⟨hroot, hpaths, ?_, hcanonical.real⟩
  rw [inWorktree_path hmode (names pp.agent) (names (pp.worktrees ++ [task]))] at hcanonical
  unfold workspaceOf
  split
  · rename_i hworktree
    rw [if_pos hworktree] at hcanonical
    exact hcanonical.eq_child hpaths.worktrees.2
  · rename_i hagent
    rw [if_neg hagent] at hcanonical
    exact hcanonical.eq_of_real hpaths.agent.real

end AgentDev.Execution
