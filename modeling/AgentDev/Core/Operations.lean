import AgentDev.Core.World

/-!
# The broker's requests

The requests that work on the tasks of a project, as programs over the atomic steps of the
shared world (`broker/daemon.py`, `core/tasks.py`, `core/worktrees.py`,
`core/git_handoff.py`). Each reads what it needs and runs its checks without a lock, takes its
locks, runs its locked body on what it has read before, and releases.

Errors keep the text of the source; where the source lets an exception of Git or of the
file system through, the text names the command.
-/

namespace AgentDev

open Interleaving

abbrev Op := Program Action.Reply Error

def act (action : Action) : Op action.Reply := Program.perform action

def require (ok : Bool) (error : Error) : Op Unit := if ok then pure () else .fail error

def orFail {α : Type} (result : Option α) (error : Error) : Op α :=
  match result with
  | some value => pure value
  | none => .fail error

/-- A step whose failure is an exception. -/
def check (action : Action) (ok : action.Reply → Bool) (error : Error) : Op Unit := do
  require (ok (← act action)) error

/-- `lock_one`: the lock is given back however the body ends. -/
def lockOne {α : Type} (lock : Name) (readonly : Bool) (body : Op α) : Op α := do
  act (.acquire lock readonly)
  body.ensuring (act (.release lock))

/-- `resolve_project_paths` -/
def projectPaths : Op Unit := check (.probe .projectPaths) id (.internal "project layout")

/-- `ensure_git_repo` for `repo/agent` -/
def ensureGitRepo : Op Unit :=
  check (.probe .agentIsGitRepo) id (.internal "repo/agent is not a Git checkout")

def ensureClean (workspace : Workspace) (label : String) : Op Unit := do
  let dirty ← orFail (← act (.gitStatus workspace)) (.internal "git status")
  require (!dirty) (.internal s!"{label} has uncommitted or untracked changes")

/-! ## Task records -/

/-- The records of the files; a name whose record is gone by then gives none. -/
def readRecords : List Name → Op (List TaskRecord)
  | [] => pure []
  | task :: rest => do
    let record ← act (.readRecord task)
    let records ← readRecords rest
    pure (Option.toList record ++ records)

def taskRecords : Op (List TaskRecord) := do readRecords (← act .listRecords)

def writeJson (task : Name) (record : TaskRecord) : Op Unit :=
  check (.writeRecord task record) id (.internal "write task metadata")

def loadTask (project task : Name) : Op (TaskRecord × Workspace) := do
  projectPaths
  let record ← orFail (← act (.readRecord task)) (.internal "cannot read task metadata")
  require (record.project = project && record.task = task)
    (.internal "task metadata identity mismatch")
  require (record.status ≠ .aborted) (.request "task is aborted")
  check (.workspaceExists (workspaceOf task record)) id (.internal "task workspace")
  pure (record, workspaceOf task record)

/-! ## Starting a task -/

def Status.text : Status → String
  | .active => "active"
  | .completed => "completed"
  | .merged => "merged"
  | .aborted => "aborted"

/-- The integrated commit of a dependency. -/
def requiredCommit (dep : Name) (record : TaskRecord) : Op Commit :=
  match record.mode with
  | .parallel => do
    require (record.status = .merged)
      (.request s!"parallel dependency {dep.value} must be merged, got '{record.status.text}'")
    orFail record.mergeCommit
      (.internal s!"dependency {dep.value} has no recorded integrated commit")
  | .integration => do
    require (record.status = .completed)
      (.request
        s!"integration dependency {dep.value} must be completed, got '{record.status.text}'")
    orFail record.headCommit
      (.internal s!"dependency {dep.value} has no recorded integrated commit")

def validateDependencies (baseCommit : Commit) : List Name → Op Unit
  | [] => pure ()
  | dep :: rest => do
    check (.recordExists dep) id
      (.request s!"dependency metadata does not exist: {dep.value}")
    let record ← orFail (← act (.readRecord dep)) (.internal "cannot read dependency metadata")
    let required ← requiredCommit dep record
    check (.isAncestor required baseCommit) id
      (.request s!"dependency {dep.value} commit is not present in the current integration base")
    validateDependencies baseCommit rest

/-- The gates of the two modes over all records. -/
def startGates (parallel : Bool) (records : List TaskRecord) : Op Unit :=
  if parallel then
    require (activeSequential records).isEmpty
      (.request "cannot start a parallel task while an integration task is active")
  else do
    require (activeSequential records).isEmpty
      (.request "another integration task is already active")
    require (pendingParallel records).isEmpty
      (.request "parallel tasks must be merged/aborted before sequential work continues")

def createParallelWorktree (task : Name) : Op Unit := do
  if ← act (.workspaceExists (.worktree task)) then
    .fail (.request s!"worktree path already exists: worktrees/{task.value}")
  else
    check (.worktreeAdd (taskBranch task) task) Addition.succeeded (.internal "git worktree")

def startTaskLocked (project task : Name) (parallel : Bool) (dependencies : List Name) :
    Op TaskRecord := do
  ensureClean .agent "repo/agent"
  check .gitSwitch id (.internal "git switch")
  let base ← orFail (← act (.revParseHead .agent)) (.internal "git rev-parse")
  validateDependencies base dependencies
  let records ← taskRecords
  startGates parallel records
  if parallel then createParallelWorktree task
  let now ← act .nowIso
  let record := startedRecord project task parallel base dependencies now
  writeJson task record
  pure record

def taskStart (project task : Name) (parallel : Bool) (dependencies : List Name) :
    Op TaskRecord := do
  require (dependencies.length ≤ 128) (.request "dependencies must be a list")
  require (task ∉ dependencies) (.request "a task cannot depend on itself")
  projectPaths
  ensureGitRepo
  if ← act (.recordExists task) then
    .fail (.request "task metadata already exists")
  else
    lockOne integrationLock false (startTaskLocked project task parallel dependencies)

/-! ## Completing a task -/

def completeTaskLocked (task : Name) (record : TaskRecord) (workspace : Workspace) :
    Op TaskRecord := do
  ensureClean workspace "task workspace"
  let branch ← orFail (← act (.currentBranch workspace)) (.internal "git branch")
  require (branch = record.branch) (.request s!"task workspace branch mismatch: '{branch}'")
  let head ← orFail (← act (.revParseHead workspace)) (.internal "git rev-parse")
  let now ← act .nowIso
  let record := record.complete head now
  writeJson task record
  pure record

def validateTaskCompletion (record : TaskRecord) : Op Unit :=
  require (record.status = .active) (.request "task status must be active")

def taskComplete (project task : Name) : Op TaskRecord := do
  let (record, workspace) ← loadTask project task
  validateTaskCompletion record
  lockOne (taskLockName task record) false (completeTaskLocked task record workspace)

/-! ## Merging a task -/

def validateRecordedHead (record : TaskRecord) (workspace : Workspace) : Op Commit := do
  let recordedHead ← orFail record.headCommit
    (.internal "completed parallel task has no recorded head_commit")
  let branchHead ← orFail (← act (.revParse record.branch)) (.internal "git rev-parse")
  let workspaceHead ← orFail (← act (.revParseHead workspace)) (.internal "git rev-parse")
  require (branchHead = recordedHead && workspaceHead = recordedHead)
    (.request
      "parallel task branch changed after completion; re-complete the task before merging")
  pure recordedHead

def mergeParallelWorktree (record : TaskRecord) (workspace : Workspace) : Op Commit := do
  ensureClean workspace "parallel task worktree"
  ensureClean .agent "repo/agent"
  let recordedHead ← validateRecordedHead record workspace
  check .gitSwitch id (.internal "git switch")
  if ← act (.gitMerge recordedHead) then
    let mergeCommit ← orFail (← act (.revParseHead .agent)) (.internal "git rev-parse")
    check (.worktreeRemove workspace false) id (.internal "git worktree")
    check (.branchDelete record.branch false) id (.internal "git branch")
    pure mergeCommit
  else
    let _ ← act .gitMergeAbort
    .fail (.request "merge failed or conflicted; integration branch restored")

def mergeTaskLocked (task : Name) (record : TaskRecord) (workspace : Workspace) :
    Op TaskRecord := do
  let mergeCommit ← mergeParallelWorktree record workspace
  let now ← act .nowIso
  let record := record.merge mergeCommit now
  writeJson task record
  pure record

def validateTaskMerge (record : TaskRecord) : Op Unit :=
  require (record.mode = .parallel && record.status = .completed)
    (.request "task-merge requires a completed parallel task")

def taskMerge (project task : Name) : Op TaskRecord := do
  let (record, workspace) ← loadTask project task
  validateTaskMerge record
  lockOne integrationLock false (lockOne task false (mergeTaskLocked task record workspace))

/-! ## Aborting a task -/

def abortParallelWorktree (record : TaskRecord) (workspace : Workspace) : Op Unit := do
  if ← act (.workspaceExists workspace) then
    check (.worktreeRemove workspace true) id (.internal "git worktree")
  if ← act (.showRef record.branch) then
    check (.branchDelete record.branch true) id (.internal "git branch")

def abortTaskLocked (task : Name) (record : TaskRecord) (workspace : Workspace) :
    Op TaskRecord := do
  abortParallelWorktree record workspace
  let now ← act .nowIso
  let record := record.abort now
  writeJson task record
  pure record

def validateTaskAbort (record : TaskRecord) : Op Unit :=
  require (record.mode = .parallel && (record.status = .active || record.status = .completed))
    (.request "only active/completed parallel tasks can be aborted")

def taskAbort (project task : Name) : Op TaskRecord := do
  let (record, workspace) ← loadTask project task
  validateTaskAbort record
  lockOne integrationLock false (lockOne task false (abortTaskLocked task record workspace))

/-! ## Handing over to and from the human repository -/

inductive SyncAction
  | alreadySynchronized
  | fastForwarded
  | integrationAhead
  deriving DecidableEq, Repr

def integrateHuman (integration human : Commit) : Op SyncAction := do
  if integration = human then pure .alreadySynchronized
  else if ← act (.isAncestor integration human) then
    check .gitMergeFf id (.internal "git merge")
    pure .fastForwarded
  else if ← act (.isAncestor human integration) then pure .integrationAhead
  else
    .fail (.request
      "human main and agent/integration diverged; explicit human resolution is required")

def synchronizeAgentRepository (bundle : Name) : Op (SyncAction × Commit) := do
  ensureClean .agent "repo/agent"
  check (.bundleVerify bundle) id (.internal "git bundle")
  check (.gitFetch bundle) id (.internal "git fetch")
  check .gitSwitch id (.internal "git switch")
  let integration ← orFail (← act (.revParse integrationBranch)) (.internal "git rev-parse")
  let human ← orFail (← act .revParseInbound) (.internal "git rev-parse")
  let action ← integrateHuman integration human
  let head ← orFail (← act (.revParseHead .agent)) (.internal "git rev-parse")
  check (.unlinkBundle bundle) id (.internal "unlink bundle")
  pure (action, head)

def synchronizeAgentProject (bundle : Name) : Op (SyncAction × Commit) := do
  projectPaths
  ensureGitRepo
  check (.probe .projectMeta) id (.internal "project metadata")
  check (.bundleIsFile bundle) id (.internal "inbound bundle")
  synchronizeAgentRepository bundle

def projectSync (bundle : Name) : Op (SyncAction × Commit) := do
  projectPaths
  ensureGitRepo
  let records ← taskRecords
  require ((activeSequential records).isEmpty && (pendingParallel records).isEmpty)
    (.request "cannot sync while tasks are active or parallel tasks await merge")
  lockOne integrationLock false (synchronizeAgentProject bundle)

def exportAgentProject : Op Commit := do
  projectPaths
  ensureGitRepo
  ensureClean .agent "repo/agent"
  let head ← orFail (← act (.revParse integrationBranch)) (.internal "git rev-parse")
  check (.probe .createBundle) id (.internal "git bundle")
  pure head

def projectExport : Op Commit := do
  projectPaths
  ensureGitRepo
  let head ← lockOne integrationLock true exportAgentProject
  check (.probe .bundleAcl) id (.internal "setfacl")
  pure head

/-- What `project-status` reports. -/
structure ProjectStatus where
  branch : String
  head : Commit
  clean : Bool
  tasks : List TaskRecord

def projectGitStatus : Op (String × Commit × Bool) := do
  ensureGitRepo
  let branch ← orFail (← act (.currentBranch .agent)) (.internal "git branch")
  let head ← orFail (← act (.revParseHead .agent)) (.internal "git rev-parse")
  let dirty ← orFail (← act (.gitStatus .agent)) (.internal "git status")
  pure (branch, head, !dirty)

def projectStatus : Op ProjectStatus := do
  projectPaths
  lockOne integrationLock true do
    let (branch, head, clean) ← projectGitStatus
    let tasks ← taskRecords
    pure ⟨branch, head, clean, tasks⟩

/-! ## Executions -/

/-- The broker streams while the provider works; the client may go away at any time. -/
def stream (workspace : Workspace) (readonly : Bool) : Nat → Op Unit
  | 0 => pure ()
  | n + 1 => do
    act (.providerWork workspace readonly)
    check .send id (.internal "send")
    stream workspace readonly n

/-- The exit code of `podman run` when the container cannot start. -/
def notStarted : Op Nat := do
  check .send id (.internal "send")
  pure 125

/-- `run_interactive_argv`: the container is removed however the streaming ends. -/
def runInteractive (task : Name) (workspace : Workspace) (readonly : Bool) : Op Nat := do
  if ← act (.startContainer task workspace readonly) then
    let streaming : Op Nat := do
      stream workspace readonly (← act .choose)
      act .choose
    streaming.ensuring (act .stopContainer)
  else notStarted

/-- `run_noninteractive_argv`: the process is waited for, but not when the streaming fails. -/
def runNoninteractive (task : Name) (workspace : Workspace) : Op Nat := do
  if ← act (.startContainer task workspace false) then
    stream workspace false (← act .choose)
    act .stopContainer
    act .choose
  else notStarted

/-- An exit code that cannot be delivered is an error, unless the run was cancelled. -/
def executeRun (task : Name) (workspace : Workspace) (readonly : Bool) : Op Nat := do
  check .send id (.internal "send")
  let code ← runInteractive task workspace readonly
  let sent ← act .send
  require (sent || code = 130) (.internal "send")
  pure code

/-- The mounts of an execution are resolved before its lock is taken. -/
def resolveMounts (task : Name) (workspace : Workspace) : Op Unit := do
  check (.workspaceExists workspace) id (.internal "workspace mount")
  check (.recordExists task) id (.internal "task metadata mount")

def run (project task : Name) (readonly : Bool) : Op Nat := do
  let (record, workspace) ← loadTask project task
  require (readonly || record.status = .active)
    (.request "write execution is allowed only while task status is active")
  check (.probe .providerHome) id (.internal "provider home")
  resolveMounts task workspace
  check (.probe .runPlan) id (.internal "execution plan")
  lockOne (runLockName task record) readonly (executeRun task workspace readonly)

def index (project task : Name) : Op Nat := do
  let (record, workspace) ← loadTask project task
  require (record.status = .active || record.status = .completed)
    (.request "index is allowed only for active/completed task workspaces")
  check (.probe .intelligenceImage) id
    (.request
      "optional GitNexus intelligence image is not available; rebuild or continue without indexing")
  check (.probe .gitnexusHome) id (.internal "GitNexus runtime home")
  resolveMounts task workspace
  lockOne (taskLockName task record) false (runNoninteractive task workspace)

/-! ## Requests -/

inductive Request
  | taskStart (task : Name) (parallel : Bool) (dependencies : List Name)
  | taskComplete (task : Name)
  | taskMerge (task : Name)
  | taskAbort (task : Name)
  | projectSync (bundle : Name)
  | projectExport
  | projectStatus
  | run (task : Name) (readonly : Bool)
  | index (task : Name)
  deriving DecidableEq

inductive Outcome
  | record (record : TaskRecord)
  | synced (action : SyncAction) (head : Commit)
  | exported (head : Commit)
  | status (status : ProjectStatus)
  | exited (code : Nat)

/-- The record that a task request returns. -/
def Outcome.record? : Outcome → Option TaskRecord
  | record result => some result
  | _ => none

theorem Outcome.record?_value {program : Op Outcome} {record : TaskRecord}
    (h : program.value?.bind Outcome.record? = some record) : program = .ret (.record record) := by
  obtain ⟨outcome, hvalue, hrecord⟩ := Option.bind_eq_some_iff.mp h
  cases outcome with
  | record record' =>
    cases hrecord
    exact Program.value?_eq_some_iff.mp hvalue
  | _ => cases hrecord

def Request.program (project : Name) : Request → Op Outcome
  | .taskStart task parallel dependencies => do
    return .record (← AgentDev.taskStart project task parallel dependencies)
  | .taskComplete task => do return .record (← AgentDev.taskComplete project task)
  | .taskMerge task => do return .record (← AgentDev.taskMerge project task)
  | .taskAbort task => do return .record (← AgentDev.taskAbort project task)
  | .projectSync bundle => do
    let (action, head) ← AgentDev.projectSync bundle
    return .synced action head
  | .projectExport => do return .exported (← AgentDev.projectExport)
  | .projectStatus => do return .status (← AgentDev.projectStatus)
  | .run task readonly => do return .exited (← AgentDev.run project task readonly)
  | .index task => do return .exited (← AgentDev.index project task)

/-- Request `i` of any number of requests is `requests i`. -/
def pool (project : Name) (requests : Nat → Request) (world : World) :
    Config Action.Reply World Error Outcome :=
  ⟨fun i => (requests i).program project, ⟨world, []⟩⟩

end AgentDev
