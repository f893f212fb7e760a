import AgentDev.Core.Validation
import Mathlib.Data.Char
import Mathlib.Data.List.AList
import Mathlib.Data.List.Lex
import Mathlib.Data.List.Sort

/-!
# Task records

The metadata file `tasks/<task>.json` of a task (`core/tasks.py`), the store of all of them, the
two filters that decide whether a task may start or a project may be synchronized, and the
selection of workspaces and locks (`core/locking.py`).
-/

namespace AgentDev

inductive Mode
  | integration
  | parallel
  deriving DecidableEq, Repr

inductive Status
  | active
  | completed
  | merged
  | aborted
  deriving DecidableEq, Repr

/-- A directory in which a task is worked on: `repo/agent` or `worktrees/<task>`. -/
inductive Workspace
  | agent
  | worktree (task : Name)
  deriving DecidableEq

/-- `merge_commit` and `aborted_at` are absent from a record until they are set. -/
structure TaskRecord where
  project : Name
  task : Name
  mode : Mode
  branch : String
  baseCommit : Commit
  headCommit : Option Commit
  status : Status
  dependencies : List Name
  startedAt : Nat
  completedAt : Option Nat
  mergedAt : Option Nat
  workspace : Workspace
  mergeCommit : Option Commit
  abortedAt : Option Nat
  deriving DecidableEq

/-! ## Names of branches and locks -/

def integrationBranch : String := "agent/integration"

def branchPrefix : String := "agent/"

def taskBranch (task : Name) : String := branchPrefix ++ task.value

/-- `INTEGRATION_LOCK` -/
def integrationLock : Name := ⟨"integration", by decide⟩

/-- `task_lock_name`: the lock of completion and indexing. -/
def taskLockName (task : Name) (record : TaskRecord) : Name :=
  if record.mode = .integration then integrationLock else task

/-- `run_lock_name`: the lock of provider executions. -/
def runLockName (task : Name) (record : TaskRecord) : Name :=
  if record.mode = .integration ∨ record.status = .merged then integrationLock else task

/-- The workspace that `load_task` selects. -/
def workspaceOf (task : Name) (record : TaskRecord) : Workspace :=
  if record.mode = .integration ∨ record.status = .merged then .agent else .worktree task

/-- The lock that protects a workspace. -/
def lockOf : Workspace → Name
  | .agent => integrationLock
  | .worktree task => task

/-- Although they are separate functions, the lock of a provider execution is always the lock of
the workspace that is loaded with the record. -/
theorem lockOf_workspaceOf (task : Name) (record : TaskRecord) :
    lockOf (workspaceOf task record) = runLockName task record := by
  unfold workspaceOf runLockName
  split <;> rfl

/-- The locks of completion and execution differ only on merged records. -/
theorem taskLockName_eq_runLockName {task : Name} {record : TaskRecord}
    (h : record.status ≠ .merged) : taskLockName task record = runLockName task record := by
  simp [taskLockName, runLockName, h]

/-! ## Filters over the records -/

def isActiveSequential (record : TaskRecord) : Bool :=
  record.mode = .integration && record.status = .active

def isPendingParallel (record : TaskRecord) : Bool :=
  record.mode = .parallel && (record.status = .active || record.status = .completed)

def activeSequential (records : List TaskRecord) : List TaskRecord :=
  records.filter isActiveSequential

def pendingParallel (records : List TaskRecord) : List TaskRecord :=
  records.filter isPendingParallel

theorem activeSequential_isEmpty_iff {records : List TaskRecord} :
    (activeSequential records).isEmpty = true ↔ ∀ r ∈ records, isActiveSequential r = false := by
  simp [activeSequential]

theorem pendingParallel_isEmpty_iff {records : List TaskRecord} :
    (pendingParallel records).isEmpty = true ↔ ∀ r ∈ records, isPendingParallel r = false := by
  simp [pendingParallel]

/-! ## What the operations write -/

/-- The record of a task that starts. -/
def startedRecord (project task : Name) (parallel : Bool) (base : Commit)
    (dependencies : List Name) (now : Nat) : TaskRecord where
  project := project
  task := task
  mode := if parallel then .parallel else .integration
  branch := if parallel then taskBranch task else integrationBranch
  baseCommit := base
  headCommit := none
  status := .active
  dependencies := dependencies
  startedAt := now
  completedAt := none
  mergedAt := none
  workspace := if parallel then .worktree task else .agent
  mergeCommit := none
  abortedAt := none

def TaskRecord.complete (record : TaskRecord) (head : Commit) (now : Nat) : TaskRecord :=
  { record with headCommit := some head, status := .completed, completedAt := some now }

def TaskRecord.merge (record : TaskRecord) (mergeCommit : Commit) (now : Nat) : TaskRecord :=
  { record with status := .merged, mergedAt := some now, mergeCommit := some mergeCommit,
                workspace := .agent }

def TaskRecord.abort (record : TaskRecord) (now : Nat) : TaskRecord :=
  { record with status := .aborted, abortedAt := some now }

/-- What no operation on an existing task changes. -/
structure TaskRecord.Continues (record old : TaskRecord) : Prop where
  mode : record.mode = old.mode
  branch : record.branch = old.branch
  baseCommit : record.baseCommit = old.baseCommit
  dependencies : record.dependencies = old.dependencies

/-! ## The store -/

/-- The files `tasks/*.json`. -/
abbrev TaskStore := AList fun _ : Name => TaskRecord

/-- `sorted(tasks.glob("*.json"))`, in the order of the file names. -/
def TaskStore.names (store : TaskStore) : List Name :=
  store.keys.insertionSort fun a b =>
    (a.value ++ ".json").toList ≤ (b.value ++ ".json").toList

theorem TaskStore.mem_names {store : TaskStore} {task : Name} :
    task ∈ store.names ↔ (store.lookup task).isSome = true := by
  rw [names, List.mem_insertionSort, AList.lookup_isSome, AList.mem_keys]

end AgentDev
