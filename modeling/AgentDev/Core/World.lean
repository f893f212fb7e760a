import AgentDev.Core.Repository
import AgentDev.Interleaving.Locks

/-!
# The shared world of the broker's requests

Everything of one project that its requests share: the task records, the Git state, the inbound
bundles, the lock files and the running containers; and the atomic steps that requests
consist of, with their replies.

A step whose outcome depends on the shared state only succeeds exactly when its precondition
holds. What the state does not decide is a choice of the environment: that a step fails all
the same (`fault`), that `git worktree add` fails with its branch created (`halfway`) or with its
worktree, too (`late`), that a merge conflicts, what a bundle brings, what a provider does in its
workspace, and what the clock shows.
Every other command that fails has changed nothing; in particular no `git worktree remove` stops
part-way.
-/

namespace AgentDev

open Interleaving

/-- An execution that a request has started in a workspace. -/
structure Container where
  thread : Nat
  task : Name
  workspace : Workspace
  readonly : Bool
  deriving DecidableEq

structure World where
  tasks : TaskStore
  repo : Repository
  /-- The files of the inbound exchange. -/
  bundles : List Name
  locks : LockTable Name
  containers : List Container

/-- Checks and preparations whose outcome depends on what the model leaves out. -/
inductive Probe
  | projectPaths
  | agentIsGitRepo
  | projectMeta
  | providerHome
  | runPlan
  | intelligenceImage
  | gitnexusHome
  | createBundle
  | bundleAcl
  deriving DecidableEq

inductive Action
  | probe (what : Probe)
  /-- `path.exists()` of a record file -/
  | recordExists (task : Name)
  | readRecord (task : Name)
  /-- `sorted(tasks.glob("*.json"))` -/
  | listRecords
  | writeRecord (task : Name) (record : TaskRecord)
  | workspaceExists (workspace : Workspace)
  | acquire (lock : Name) (shared : Bool)
  | release (lock : Name)
  /-- `git status --porcelain`: whether there are changes -/
  | gitStatus (workspace : Workspace)
  | currentBranch (workspace : Workspace)
  | revParseHead (workspace : Workspace)
  /-- `git rev-parse branch` in `repo/agent` -/
  | revParse (branch : String)
  | revParseInbound
  | isAncestor (commit head : Commit)
  /-- `git show-ref --verify --quiet refs/heads/branch` -/
  | showRef (branch : String)
  /-- `git switch agent/integration` in `repo/agent` -/
  | gitSwitch
  /-- `git merge --no-ff --no-edit commit` in `repo/agent` -/
  | gitMerge (commit : Commit)
  | gitMergeAbort
  /-- `git merge --ff-only refs/remotes/human-main/main` in `repo/agent` -/
  | gitMergeFf
  | worktreeAdd (branch : String) (task : Name)
  | worktreeRemove (workspace : Workspace) (force : Bool)
  | branchDelete (branch : String) (force : Bool)
  | bundleIsFile (bundle : Name)
  | bundleVerify (bundle : Name)
  | gitFetch (bundle : Name)
  | unlinkBundle (bundle : Name)
  | nowIso
  /-- A frame to the client of the request. -/
  | send
  | startContainer (task : Name) (workspace : Workspace) (readonly : Bool)
  | providerWork (workspace : Workspace) (readonly : Bool)
  | stopContainer
  /-- A number that the environment chooses: an exit code, or how long a provider works. -/
  | choose

/-- How `git worktree add -b` ends: when it fails, it may have created the branch, or all. -/
inductive Addition
  | added
  | refused
  | branchLeft
  | bothLeft
  deriving DecidableEq

/-- Whether the worktree has been created. -/
def Addition.isDone : Addition → Bool
  | .added | .bothLeft => true
  | .refused | .branchLeft => false

def Addition.succeeded : Addition → Bool
  | .added => true
  | .refused | .branchLeft | .bothLeft => false

theorem Addition.ne_refused {addition : Addition} (h : addition.isDone = true) :
    addition ≠ .refused := by
  rintro rfl
  cases h

theorem Addition.succeeded_iff {addition : Addition} :
    addition.succeeded = true ↔ addition = .added := by
  cases addition <;> decide

abbrev Action.Reply : Action → Type
  | .readRecord _ => Option TaskRecord
  | .listRecords => List Name
  | .gitStatus _ => Option Bool
  | .currentBranch _ => Option String
  | .revParseHead _ | .revParse _ | .revParseInbound => Option Commit
  | .acquire _ _ | .release _ | .providerWork _ _ | .stopContainer => Unit
  | .nowIso | .choose => Nat
  | .worktreeAdd _ _ => Addition
  | _ => Bool

inductive Choice
  | go
  | fault
  /-- `git worktree add` fails after it has created the branch. -/
  | halfway
  /-- It fails when all is done, as after a hook that fails. -/
  | late
  | conflict
  /-- The commits that a bundle brings, and its head. -/
  | fetched (news : List (List Commit)) (head : Commit)
  | moves (move : Move)
  | clock (now : Nat)
  | count (n : Nat)

def Choice.isFault : Choice → Bool
  | .fault | .halfway | .late => true
  | _ => false

/-- A Git command succeeds exactly when it is defined, and else changes nothing. -/
def World.command (world : World) (result : Option Repository) : Bool × World :=
  match result with
  | some repo => (true, { world with repo := repo })
  | none => (false, world)

/-- `git worktree add` where it does not fail halfway or later. -/
def World.addWorktree (world : World) (branch : String) (task : Name) : Addition × World :=
  match world.repo.addWorktree branch task with
  | some repo => (.added, { world with repo := repo })
  | none => (.refused, world)

/-- Steps that may fail although their precondition holds. -/
def Action.canFail : Action → Bool
  | .recordExists _ | .readRecord _ | .listRecords | .workspaceExists _ | .acquire _ _
  | .release _ | .nowIso | .providerWork _ _ | .stopContainer | .choose => false
  | _ => true

/-- The reply of a step that fails. -/
def Action.failed : (action : Action) → action.Reply
  | .readRecord _ => none
  | .listRecords => []
  | .gitStatus _ => none
  | .currentBranch _ => none
  | .revParseHead _ | .revParse _ | .revParseInbound => none
  | .acquire _ _ | .release _ | .providerWork _ _ | .stopContainer => ()
  | .nowIso | .choose => (0 : Nat)
  | .worktreeAdd _ _ => Addition.refused
  | .probe _ | .recordExists _ | .writeRecord _ _ | .workspaceExists _ | .isAncestor _ _
  | .showRef _ | .gitSwitch | .gitMerge _ | .gitMergeAbort | .gitMergeFf
  | .worktreeRemove _ _ | .branchDelete _ _ | .bundleIsFile _ | .bundleVerify _ | .gitFetch _
  | .unlinkBundle _ | .send | .startContainer _ _ _ => false

/-- The steps whose outcome the state decides. -/
def Action.go (thread : Nat) (world : World) :
    (action : Action) → Option (action.Reply × World)
  | .probe _ => some (true, world)
  | .recordExists task => some ((world.tasks.lookup task).isSome, world)
  | .readRecord task => some (world.tasks.lookup task, world)
  | .listRecords => some (world.tasks.names, world)
  | .writeRecord task record =>
    some (true, { world with tasks := world.tasks.insert task record })
  | .workspaceExists workspace => some ((world.repo.checkout? workspace).isSome, world)
  | .acquire lock shared =>
    (world.locks.acquire thread lock shared).map fun locks => ((), { world with locks := locks })
  | .release lock => some ((), { world with locks := world.locks.release thread lock })
  | .gitStatus workspace => some ((world.repo.checkout? workspace).map (·.dirty), world)
  | .currentBranch workspace => some ((world.repo.checkout? workspace).map (·.branch), world)
  | .revParseHead workspace => some (world.repo.headOf workspace, world)
  | .revParse branch => some (world.repo.refs branch, world)
  | .revParseInbound => some (world.repo.inbound, world)
  | .isAncestor commit head => some (world.repo.graph.isAncestor commit head, world)
  | .showRef branch => some ((world.repo.refs branch).isSome, world)
  | .gitSwitch => some (world.command world.repo.switchIntegration)
  | .gitMerge commit => some (world.command (world.repo.mergeNoFf commit))
  | .gitMergeAbort => some (world.command world.repo.abortMerge)
  | .gitMergeFf => some (world.command world.repo.mergeFfOnly)
  | .worktreeAdd branch task => some (world.addWorktree branch task)
  | .worktreeRemove workspace force =>
    some (world.command (world.repo.removeWorktree workspace force))
  | .branchDelete branch force => some (world.command (world.repo.deleteBranch branch force))
  | .bundleIsFile bundle | .bundleVerify bundle => some (bundle ∈ world.bundles, world)
  | .unlinkBundle bundle =>
    if bundle ∈ world.bundles then
      some (true, { world with bundles := world.bundles.erase bundle })
    else some (false, world)
  | .send => some (true, world)
  | .startContainer task workspace readonly =>
    if (world.repo.checkout? workspace).isSome then
      some (true,
        { world with containers := ⟨thread, task, workspace, readonly⟩ :: world.containers })
    else some (false, world)
  | .providerWork _ _ => some ((), world)
  | .stopContainer =>
    some ((), { world with containers := world.containers.filter fun c => c.thread ≠ thread })
  | .gitFetch _ | .nowIso | .choose => none

/-- The steps of thread `thread`, under every choice of the environment. A step that is `none`
cannot happen: a lock that is not free, or a choice that is about another step. -/
def exec (thread : Nat) (action : Action) (choice : Choice) (world : World) :
    Option (action.Reply × World) :=
  match choice with
  | .go => action.go thread world
  | .fault => if action.canFail then some (action.failed, world) else none
  | .halfway =>
    match action with
    | .worktreeAdd branch task => (world.repo.createBranch branch task).map fun repo =>
        (.branchLeft, { world with repo := repo })
    | _ => none
  | .late =>
    match action with
    | .worktreeAdd branch task => (world.repo.addWorktree branch task).map fun repo =>
        (.bothLeft, { world with repo := repo })
    | _ => none
  | .conflict =>
    match action with
    | .gitMerge commit => (world.repo.mergeConflict commit).map fun repo =>
        (false, { world with repo := repo })
    | _ => none
  | .fetched news head =>
    match action with
    | .gitFetch bundle =>
      if bundle ∈ world.bundles then some (world.command (world.repo.fetch news head))
      else some (false, world)
    | _ => none
  | .moves move =>
    match action with
    | .providerWork workspace false => (world.repo.work workspace move).map fun repo =>
        ((), { world with repo := repo })
    | _ => none
  | .clock now =>
    match action with
    | .nowIso => some (now, world)
    | _ => none
  | .count n =>
    match action with
    | .choose => some (n, world)
    | _ => none

def machine : Machine Action.Reply World Choice := ⟨exec⟩

/-- A project just after its initialization: one commit, and no tasks. -/
def newProject : World where
  tasks := ∅
  repo :=
    { graph :=
        { size := 1
          parents := fun _ => []
          parents_lt := by simp
          parents_fresh := by simp }
      refs := fun branch => if branch = integrationBranch then some 0 else none
      inbound := none
      agent := { branch := integrationBranch }
      worktrees := ∅ }
  bundles := []
  locks := []
  containers := []

end AgentDev
