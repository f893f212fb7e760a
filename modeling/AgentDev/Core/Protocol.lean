import AgentDev.Core.Effects
import AgentDev.Core.Operations

/-!
# What a request has done before each of its steps

The rules that the requests keep, as conditions on the own history of a request: which locks it
holds when it works in a workspace, from what it has read a record is written, what it has seen
before it fast-forwards, and how it ends. They are checked on the programs of the requests
alone; that the locks are then as the rules say, and that the replies told the state, holds in
every run of a pool of requests.
-/

namespace AgentDev

open Interleaving

abbrev History := List (Event Action.Reply)

/-! ## Conditions on histories -/

/-- The workspaces that a step uses; the creation of a worktree only uses `repo/agent`. -/
def Action.uses : Action → Workspace → Prop
  | .gitStatus workspace, w | .currentBranch workspace, w | .revParseHead workspace, w
  | .startContainer _ workspace _, w | .providerWork workspace _, w => w = workspace
  | .revParse _, w | .revParseInbound, w | .isAncestor _ _, w | .showRef _, w | .gitSwitch, w
  | .gitMerge _, w | .gitMergeAbort, w | .gitMergeFf, w | .worktreeAdd _ _, w
  | .branchDelete _ _, w | .bundleVerify _, w | .gitFetch _, w => w = .agent
  | .worktreeRemove workspace _, w => w = workspace ∨ w = .agent
  | _, _ => False

/-- Steps that take or give back a lock, write a record, add a worktree, or start or stop an
execution; all others are plain. -/
def Action.plain : Action → Bool
  | .acquire _ _ | .release _ | .writeRecord _ _ | .worktreeAdd _ _ | .startContainer _ _ _
  | .stopContainer => false
  | _ => true

/-- `h'` goes on from `h` by plain steps. -/
def Plainly (h h' : History) : Prop := ∃ new, h' = h ++ new ∧ ∀ e ∈ new, e.action.plain = true

/-- No record has been written. -/
def Unwritten (h : History) : Prop := ∀ e ∈ h, ∀ task record, e.action ≠ .writeRecord task record

/-- A worktree that has been added belongs to a record that has been written, or whose write has
failed. -/
def Settled (h : History) : Prop :=
  ∀ i branch task, ⟨i, .worktreeAdd branch task, Addition.added⟩ ∈ h →
    ∃ e ∈ h, ∃ task record, e.action = .writeRecord task record

/-- The containers that thread `i` has started and not stopped. -/
def started (i : Nat) (h : History) : List Container :=
  h.foldl (fun containers e => e.action.running i containers e.reply) []

/-- The locks `locks` are held exclusively since `h₁`. -/
structure Locked (locks : List Name) (h h₁ h₂ : History) : Prop where
  split : h = h₁ ++ h₂
  held : ∀ lock ∈ locks, (lock, false) ∈ fileLocks.held h₁
  kept : ∀ e ∈ h₂, e.action.releases = none

/-- A listing of the records and the reading of each: `records` has all that could be read. -/
def Scanned (i : Nat) (h : History) (records : List TaskRecord) : Prop :=
  ∃ names before after, h = before ++ ⟨i, .listRecords, names⟩ :: after ∧
    ∀ task ∈ names, ∃ reply, ⟨i, .readRecord task, reply⟩ ∈ after ∧
      ∀ record, reply = some record → record ∈ records

/-! ## The rules -/

section

variable (i : Nat) (project : Name)

/-- What `task-start` has done before it writes. -/
structure StartWrite (task : Name) (parallel : Bool) (dependencies : List Name) (h : History)
    (record : TaskRecord) : Prop where
  absent : ⟨i, .recordExists task, false⟩ ∈ h
  value : ∃ base now, record = startedRecord project task parallel base dependencies now
  gates : ∃ h₁ h₂ records, Locked [integrationLock] h h₁ h₂ ∧ Scanned i h₂ records ∧
    (activeSequential records).isEmpty = true ∧
    if parallel then ⟨i, .worktreeAdd (taskBranch task) task, Addition.added⟩ ∈ h₂
    else (pendingParallel records).isEmpty = true

/-- What `task-complete` has done before it writes. -/
structure CompleteWrite (task : Name) (h : History) (record old : TaskRecord) : Prop where
  read : ⟨i, .readRecord task, some old⟩ ∈ h
  active : old.status = .active
  locked : ∃ h₁ h₂ head now, Locked [taskLockName task old] h h₁ h₂ ∧
    ⟨i, .gitStatus (workspaceOf task old), some false⟩ ∈ h₂ ∧
    ⟨i, .revParseHead (workspaceOf task old), some head⟩ ∈ h₂ ∧ record = old.complete head now

/-- What `task-merge` has done before it writes. -/
structure MergeWrite (task : Name) (h : History) (record old : TaskRecord) : Prop where
  read : ⟨i, .readRecord task, some old⟩ ∈ h
  parallel : old.mode = .parallel
  completed : old.status = .completed
  locked : ∃ h₁ h₂ head mergeCommit now, Locked [integrationLock, task] h h₁ h₂ ∧
    old.headCommit = some head ∧ ⟨i, .gitStatus (.worktree task), some false⟩ ∈ h₂ ∧
    (∃ before after, h₂ = before ++ ⟨i, .gitMerge head, true⟩ :: after ∧
      ⟨i, .revParseHead .agent, some mergeCommit⟩ ∈ after) ∧
    ⟨i, .worktreeRemove (.worktree task) false, true⟩ ∈ h₂ ∧ record = old.merge mergeCommit now

/-- What `task-abort` has done before it writes. -/
structure AbortWrite (task : Name) (h : History) (record old : TaskRecord) : Prop where
  read : ⟨i, .readRecord task, some old⟩ ∈ h
  parallel : old.mode = .parallel
  pending : old.status = .active ∨ old.status = .completed
  locked : ∃ h₁ h₂ now, Locked [integrationLock, task] h h₁ h₂ ∧
    (⟨i, .workspaceExists (.worktree task), false⟩ ∈ h₂ ∨
      ⟨i, .worktreeRemove (.worktree task) true, true⟩ ∈ h₂) ∧ record = old.abort now

/-- What a request has done before it writes `record` as the record of `task`. -/
inductive RecordWrite (task : Name) (h : History) (record : TaskRecord) : Request → Prop
  | start (parallel : Bool) (dependencies : List Name)
      (write : StartWrite i project task parallel dependencies h record) :
      RecordWrite task h record (.taskStart task parallel dependencies)
  | complete (old : TaskRecord) (write : CompleteWrite i task h record old) :
      RecordWrite task h record (.taskComplete task)
  | merge (old : TaskRecord) (write : MergeWrite i task h record old) :
      RecordWrite task h record (.taskMerge task)
  | abort (old : TaskRecord) (write : AbortWrite i task h record old) :
      RecordWrite task h record (.taskAbort task)

/-- What a request has done before it starts an execution. -/
inductive ExecutionStart (task : Name) (workspace : Workspace) (h : History) :
    Bool → Request → Prop
  | run (readonly : Bool) (old : TaskRecord) (read : ⟨i, .readRecord task, some old⟩ ∈ h)
      (selected : workspace = workspaceOf task old)
      (active : readonly = false → old.status = .active)
      (held : (lockOf workspace, readonly) ∈ fileLocks.held h) :
      ExecutionStart task workspace h readonly (.run task readonly)
  | index (held : (lockOf workspace, false) ∈ fileLocks.held h) :
      ExecutionStart task workspace h false (.index task)

/-- What a request has done before a step that changes what other requests see. -/
def Licence (request : Request) (h : History) : Action → Prop
  | .acquire _ shared => shared = true →
    request = .projectStatus ∨ request = .projectExport ∨ ∃ task, request = .run task true
  | .release _ =>
    (∀ task dependencies, request = .taskStart task true dependencies → Settled h) ∧
      ∀ task readonly, request = .run task readonly → started i h = []
  | .writeRecord task record => Unwritten h ∧ RecordWrite i project task h record request
  | .worktreeAdd branch task => branch = taskBranch task ∧ Unwritten h ∧
    (integrationLock, false) ∈ fileLocks.held h ∧
    ∃ dependencies, request = .taskStart task true dependencies
  | .worktreeRemove workspace _ => ∃ task, workspace = .worktree task ∧
    (integrationLock, false) ∈ fileLocks.held h ∧ (task, false) ∈ fileLocks.held h ∧
    (request = .taskMerge task ∨ request = .taskAbort task)
  | .gitSwitch | .gitMerge _ | .gitMergeAbort | .branchDelete _ _ =>
    (integrationLock, false) ∈ fileLocks.held h
  | .gitMergeFf => (integrationLock, false) ∈ fileLocks.held h ∧
    ∃ bundle records, request = .projectSync bundle ∧ Scanned i h records ∧
      (activeSequential records).isEmpty = true ∧ (pendingParallel records).isEmpty = true
  | .startContainer task workspace readonly =>
    ExecutionStart i task workspace h readonly request
  | .providerWork workspace readonly => (lockOf workspace, readonly) ∈ fileLocks.held h
  | _ => True

/-- What a request is allowed to do after its own history. -/
structure Allowed (request : Request) (h : History) (action : Action) : Prop where
  covered : fileLocks.Covered Action.uses lockOf h action
  licence : Licence i project request h action

/-- A task request that succeeds has written the record that it returns. -/
def Answered (request : Request) (outcome : Outcome) (h : History) : Prop :=
  ∀ record, outcome = .record record → ∃ task, ⟨i, .writeRecord task record, true⟩ ∈ h ∧
    (request = .taskComplete task ∨ request = .taskMerge task ∨ request = .taskAbort task ∨
      ∃ parallel dependencies, request = .taskStart task parallel dependencies)

end

/-- The rules of the requests. -/
def rules (project : Name) (requests : Nat → Request) : Rules Action.Reply Error Outcome where
  allowed i := Allowed i project (requests i)
  post i := Answered i (requests i)
  postE _ _ _ := True

end AgentDev
