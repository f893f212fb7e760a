import AgentDev.Core.World

/-!
# What a step can do

Every step of the shared world changes at most one of its parts, and how it changes it is known
from the action and the reply (`exec_effect`). From this follows, for each part, what a step
does to it: the records, the locks, the containers, and which worktrees exist are
functions of the events, and the other way round the replies of reading steps tell the state.
-/

namespace AgentDev

open Interleaving

/-! ## The effect of a step -/

/-- Steps that change nothing. -/
def Action.effectless : (action : Action) → action.Reply → Bool
  | .writeRecord _ _, (ok : Bool) | .startContainer _ _ _, ok | .gitSwitch, ok | .gitMerge _, ok
  | .gitMergeAbort, ok | .gitMergeFf, ok | .worktreeRemove _ _, ok
  | .branchDelete _ _, ok | .gitFetch _, ok | .unlinkBundle _, ok => !ok
  | .worktreeAdd _ _, (addition : Addition) => addition = .refused
  | .acquire _ _, _ | .release _, _ | .stopContainer, _ => false
  | _, _ => true

/-- The steps that change the Git state. -/
inductive GitEffect (repo repo' : Repository) : (action : Action) → action.Reply → Prop
  | switched (h : repo.switchIntegration = some repo') : GitEffect repo repo' .gitSwitch true
  | merged (commit : Commit) (h : repo.mergeNoFf commit = some repo') :
      GitEffect repo repo' (.gitMerge commit) true
  | conflicted (commit : Commit) (h : repo.mergeConflict commit = some repo') :
      GitEffect repo repo' (.gitMerge commit) false
  | aborted (h : repo.abortMerge = some repo') : GitEffect repo repo' .gitMergeAbort true
  | forwarded (h : repo.mergeFfOnly = some repo') : GitEffect repo repo' .gitMergeFf true
  | added (branch : String) (task : Name) (addition : Addition) (hdone : addition.isDone = true)
      (h : repo.addWorktree branch task = some repo') :
      GitEffect repo repo' (.worktreeAdd branch task) addition
  | branchLeft (branch : String) (task : Name) (h : repo.createBranch branch task = some repo') :
      GitEffect repo repo' (.worktreeAdd branch task) Addition.branchLeft
  | removed (workspace : Workspace) (force : Bool)
      (h : repo.removeWorktree workspace force = some repo') :
      GitEffect repo repo' (.worktreeRemove workspace force) true
  | deleted (branch : String) (force : Bool) (h : repo.deleteBranch branch force = some repo') :
      GitEffect repo repo' (.branchDelete branch force) true
  | fetched (bundle : Name) (news : List (List Commit)) (head : Commit)
      (h : repo.fetch news head = some repo') : GitEffect repo repo' (.gitFetch bundle) true
  | worked (workspace : Workspace) (move : Move) (h : repo.work workspace move = some repo') :
      GitEffect repo repo' (.providerWork workspace false) ()

/-- The world after a step of thread `thread`, for every action and reply. -/
inductive Effect (thread : Nat) (world : World) : (action : Action) → action.Reply → World → Prop
  | nothing {action : Action} {reply : action.Reply} (h : action.effectless reply = true) :
      Effect thread world action reply world
  | wrote (task : Name) (record : TaskRecord) :
      Effect thread world (.writeRecord task record) true
        { world with tasks := world.tasks.insert task record }
  | acquired (lock : Name) (shared : Bool) (locks : LockTable Name)
      (h : world.locks.acquire thread lock shared = some locks) :
      Effect thread world (.acquire lock shared) () { world with locks := locks }
  | released (lock : Name) :
      Effect thread world (.release lock) ()
        { world with locks := world.locks.release thread lock }
  | unlinked (bundle : Name) :
      Effect thread world (.unlinkBundle bundle) true
        { world with bundles := world.bundles.erase bundle }
  | started (task : Name) (workspace : Workspace) (readonly : Bool) :
      Effect thread world (.startContainer task workspace readonly) true
        { world with containers := ⟨thread, task, workspace, readonly⟩ :: world.containers }
  | stopped :
      Effect thread world .stopContainer ()
        { world with containers := world.containers.filter fun c => c.thread ≠ thread }
  | git {action : Action} {reply : action.Reply} (repo : Repository)
      (h : GitEffect world.repo repo action reply) :
      Effect thread world action reply { world with repo := repo }

section

variable {thread : Nat} {action : Action} {choice : Choice} {world world' : World}
  {reply : action.Reply}

/-- A step that fails at once changes nothing. -/
theorem Action.effectless_failed (h : action.canFail = true) :
    action.effectless action.failed = true := by
  cases action <;> first | rfl | cases h

theorem World.command_effect {result : Option Repository} {ok : Bool}
    (h : some (world.command result) = some (ok, world')) :
    (ok = false ∧ world' = world) ∨
      ∃ repo, result = some repo ∧ ok = true ∧ world' = { world with repo := repo } := by
  cases result with
  | none =>
    cases h
    exact Or.inl ⟨rfl, rfl⟩
  | some repo =>
    cases h
    exact Or.inr ⟨repo, rfl, rfl, rfl⟩

theorem Action.effect_of_go (h : action.go thread world = some (reply, world')) :
    Effect thread world action reply world' := by
  cases action with
  | probe | recordExists | readRecord | listRecords | workspaceExists | gitStatus | currentBranch
  | revParseHead | revParse | revParseInbound | isAncestor | showRef | bundleIsFile | bundleVerify
  | send | providerWork =>
    cases h
    exact .nothing rfl
  | gitFetch | nowIso | choose => cases h
  | writeRecord task record =>
    cases h
    exact .wrote task record
  | acquire lock shared =>
    obtain ⟨locks, hlocks, heq⟩ := Option.map_eq_some_iff.mp h
    cases heq
    exact .acquired lock shared locks hlocks
  | release lock =>
    cases h
    exact .released lock
  | unlinkBundle bundle =>
    simp only [Action.go] at h
    split at h
    · cases h
      exact .unlinked bundle
    · cases h
      exact .nothing rfl
  | startContainer task workspace readonly =>
    simp only [Action.go] at h
    split at h
    · cases h
      exact .started task workspace readonly
    · cases h
      exact .nothing rfl
  | stopContainer =>
    cases h
    exact .stopped
  | gitSwitch =>
    obtain ⟨rfl, rfl⟩ | ⟨repo, hrepo, rfl, rfl⟩ := World.command_effect h
    · exact .nothing rfl
    · exact .git repo (.switched hrepo)
  | gitMerge commit =>
    obtain ⟨rfl, rfl⟩ | ⟨repo, hrepo, rfl, rfl⟩ := World.command_effect h
    · exact .nothing rfl
    · exact .git repo (.merged commit hrepo)
  | gitMergeAbort =>
    obtain ⟨rfl, rfl⟩ | ⟨repo, hrepo, rfl, rfl⟩ := World.command_effect h
    · exact .nothing rfl
    · exact .git repo (.aborted hrepo)
  | gitMergeFf =>
    obtain ⟨rfl, rfl⟩ | ⟨repo, hrepo, rfl, rfl⟩ := World.command_effect h
    · exact .nothing rfl
    · exact .git repo (.forwarded hrepo)
  | worktreeAdd branch task =>
    simp only [Action.go, World.addWorktree] at h
    split at h
    · rename_i repo hrepo
      cases h
      exact .git repo (.added branch task .added rfl hrepo)
    · cases h
      exact .nothing rfl
  | worktreeRemove workspace force =>
    obtain ⟨rfl, rfl⟩ | ⟨repo, hrepo, rfl, rfl⟩ := World.command_effect h
    · exact .nothing rfl
    · exact .git repo (.removed workspace force hrepo)
  | branchDelete branch force =>
    obtain ⟨rfl, rfl⟩ | ⟨repo, hrepo, rfl, rfl⟩ := World.command_effect h
    · exact .nothing rfl
    · exact .git repo (.deleted branch force hrepo)

/-- What a step does to the world is known from its action and its reply. -/
theorem exec_effect (h : exec thread action choice world = some (reply, world')) :
    Effect thread world action reply world' := by
  cases choice with
  | go => exact Action.effect_of_go h
  | fault =>
    simp only [exec] at h
    split at h
    · rename_i hfail
      cases h
      exact .nothing (Action.effectless_failed hfail)
    · cases h
  | halfway =>
    cases action with
    | worktreeAdd branch task =>
      obtain ⟨repo, hrepo, heq⟩ := Option.map_eq_some_iff.mp h
      cases heq
      exact .git repo (.branchLeft branch task hrepo)
    | _ => cases h
  | late =>
    cases action with
    | worktreeAdd branch task =>
      obtain ⟨repo, hrepo, heq⟩ := Option.map_eq_some_iff.mp h
      cases heq
      exact .git repo (.added branch task .bothLeft rfl hrepo)
    | _ => cases h
  | conflict =>
    cases action with
    | gitMerge commit =>
      obtain ⟨repo, hrepo, heq⟩ := Option.map_eq_some_iff.mp h
      cases heq
      exact .git repo (.conflicted commit hrepo)
    | _ => cases h
  | fetched news head =>
    cases action with
    | gitFetch bundle =>
      simp only [exec] at h
      split at h
      · obtain ⟨rfl, rfl⟩ | ⟨repo, hrepo, rfl, rfl⟩ := World.command_effect h
        · exact .nothing rfl
        · exact .git repo (.fetched bundle news head hrepo)
      · cases h
        exact .nothing rfl
    | _ => cases h
  | moves move =>
    cases action with
    | providerWork workspace readonly =>
      cases readonly with
      | true => cases h
      | false =>
        obtain ⟨repo, hrepo, heq⟩ := Option.map_eq_some_iff.mp h
        cases heq
        exact .git repo (.worked workspace move hrepo)
    | _ => cases h
  | clock now =>
    cases action with
    | nowIso =>
      cases h
      exact .nothing rfl
    | _ => cases h
  | count n =>
    cases action with
    | choose =>
      cases h
      exact .nothing rfl
    | _ => cases h

/-! ## Each part of the world -/

/-- The records after a step. -/
def Action.recorded (tasks : TaskStore) : (action : Action) → action.Reply → TaskStore
  | .writeRecord task record, (true : Bool) => tasks.insert task record
  | _, _ => tasks

/-- The containers after a step of `thread`. -/
def Action.running (thread : Nat) (containers : List Container) :
    (action : Action) → action.Reply → List Container
  | .startContainer task workspace readonly, (true : Bool) =>
    ⟨thread, task, workspace, readonly⟩ :: containers
  | .stopContainer, _ => containers.filter fun c => c.thread ≠ thread
  | _, _ => containers

/-- Whether the worktree of `task` exists after a step, when `before` says so for before it. -/
def Action.worktreeAfter (task : Name) (before : Bool) : (action : Action) → action.Reply → Bool
  | .worktreeAdd _ added, Addition.added | .worktreeAdd _ added, Addition.bothLeft =>
    before || added = task
  | .worktreeRemove (.worktree removed) _, (true : Bool) => before && removed ≠ task
  | _, _ => before

def World.hasWorktree (world : World) (task : Name) : Bool :=
  (world.repo.worktrees.lookup task).isSome

theorem exec_tasks (h : exec thread action choice world = some (reply, world')) :
    world'.tasks = action.recorded world.tasks reply := by
  cases exec_effect h with
  | nothing hnone =>
    unfold Action.recorded
    split
    · cases hnone
    · rfl
  | git repo hgit => cases hgit <;> rfl
  | _ => rfl

theorem exec_containers (h : exec thread action choice world = some (reply, world')) :
    world'.containers = action.running thread world.containers reply := by
  cases exec_effect h with
  | nothing hnone =>
    unfold Action.running
    split
    · cases hnone
    · cases hnone
    · rfl
  | git repo hgit => cases hgit <;> rfl
  | _ => rfl

theorem work_hasWorktree {repo repo' : Repository} {workspace : Workspace} {move : Move}
    (h : repo.work workspace move = some repo') (task : Name) :
    (repo'.worktrees.lookup task).isSome = (repo.worktrees.lookup task).isSome := by
  have hset : ∀ checkout checkout', repo.checkout? workspace = some checkout →
      ((repo.setCheckout workspace checkout').worktrees.lookup task).isSome =
        (repo.worktrees.lookup task).isSome := by
    intro checkout checkout' hcheckout
    cases workspace with
    | agent => rfl
    | worktree task' =>
      by_cases htask : task = task'
      · subst htask
        have hsome : repo.worktrees.lookup task = some checkout := hcheckout
        simp [Repository.setCheckout, hsome]
      · simp [Repository.setCheckout, AList.lookup_insert_ne htask]
  cases move with
  | commit others =>
    obtain ⟨checkout, hcheckout, h⟩ := Option.bind_eq_some_iff.mp h
    obtain ⟨head, -, h⟩ := Option.bind_eq_some_iff.mp h
    split at h
    · cases h
      exact hset checkout _ hcheckout
    · cases h
  | edit dirty =>
    obtain ⟨checkout, hcheckout, rfl⟩ := Option.map_eq_some_iff.mp h
    exact hset checkout _ hcheckout
  | switch branch =>
    obtain ⟨checkout, hcheckout, h⟩ := Option.bind_eq_some_iff.mp h
    split at h
    · cases h
    · cases h
      exact hset checkout _ hcheckout
  | reset branch commit =>
    simp only [Repository.work] at h
    split at h
    · cases h
      rfl
    · cases h

theorem exec_hasWorktree (h : exec thread action choice world = some (reply, world'))
    (task : Name) :
    world'.hasWorktree task = action.worktreeAfter task (world.hasWorktree task) reply := by
  cases exec_effect h with
  | nothing hnone =>
    unfold Action.worktreeAfter
    split
    · cases hnone
    · cases hnone
    · cases hnone
    · rfl
  | git repo hgit =>
    cases hgit with
    | added branch added addition hdone hadd =>
      obtain ⟨-, head, -, rfl⟩ := Repository.addWorktree_eq hadd
      have hafter : Action.worktreeAfter task (world.hasWorktree task) (.worktreeAdd branch added)
          addition = (world.hasWorktree task || decide (added = task)) := by
        cases addition <;> first | rfl | cases hdone
      rw [hafter, World.hasWorktree, World.hasWorktree]
      by_cases htask : task = added
      · subst htask
        simp
      · simp [AList.lookup_insert_ne htask, Ne.symm htask]
    | branchLeft branch task hrepo =>
      obtain ⟨-, head, -, rfl⟩ := Repository.createBranch_eq hrepo
      rfl
    | removed workspace force hremove =>
      obtain ⟨removed, rfl, rfl⟩ := Repository.removeWorktree_eq hremove
      simp only [World.hasWorktree, Action.worktreeAfter]
      by_cases htask : task = removed
      · subst htask
        simp
      · simp [AList.lookup_erase_ne htask, Ne.symm htask]
    | worked workspace move hwork => exact work_hasWorktree hwork task
    | switched hrepo =>
      obtain ⟨-, rfl⟩ := Repository.switchIntegration_eq hrepo
      rfl
    | merged commit hrepo =>
      obtain ⟨head, head', -, -, -, graph, -, rfl⟩ := Repository.mergeNoFf_eq hrepo
      rfl
    | conflicted commit hrepo =>
      cases Repository.mergeConflict_eq hrepo
      rfl
    | aborted hrepo =>
      cases Repository.abortMerge_eq hrepo
      rfl
    | forwarded hrepo =>
      obtain ⟨head, head', -, -, rfl⟩ := Repository.mergeFfOnly_eq hrepo
      rfl
    | deleted branch force hrepo =>
      obtain ⟨-, rfl⟩ := Repository.deleteBranch_eq hrepo
      rfl
    | fetched bundle news head hrepo =>
      obtain ⟨graph, -, rfl⟩ := Repository.fetch_eq hrepo
      rfl
  | _ => rfl

/-! ## Branches -/

def World.hasBranch (world : World) (branch : String) : Bool := (world.repo.refs branch).isSome

/-- Whether `branch` exists after a step, when `before` says so for before it. -/
def Action.branchAfter (branch : String) (before : Bool) : (action : Action) → action.Reply → Bool
  | .worktreeAdd added _, Addition.added | .worktreeAdd added _, Addition.branchLeft
  | .worktreeAdd added _, Addition.bothLeft => before || added = branch
  | .branchDelete deleted _, (true : Bool) => before && deleted ≠ branch
  | _, _ => before

/-- A branch that moves was there before. -/
theorem isSome_update {refs : String → Option Commit} {moved : String} {head : Commit}
    (hmoved : refs moved = some head) (commit : Commit) (branch : String) :
    (Function.update refs moved (some commit) branch).isSome = (refs branch).isSome := by
  by_cases heq : branch = moved
  · subst heq
    simp [hmoved]
  · rw [Function.update_of_ne heq]

theorem work_refs_isSome {repo repo' : Repository} {workspace : Workspace} {move : Move}
    (h : repo.work workspace move = some repo') (branch : String) :
    (repo'.refs branch).isSome = (repo.refs branch).isSome := by
  cases move with
  | commit others =>
    obtain ⟨checkout, head, head', graph, -, hhead, -, -, rfl⟩ := Repository.commitIn_eq h
    exact isSome_update hhead head' branch
  | edit dirty =>
    obtain ⟨checkout, -, rfl⟩ := Option.map_eq_some_iff.mp h
    rw [Repository.setCheckout_refs]
  | switch other =>
    obtain ⟨checkout, -, h⟩ := Option.bind_eq_some_iff.mp h
    split at h
    · cases h
    · cases h
      rw [Repository.setCheckout_refs]
  | reset other commit =>
    simp only [Repository.work] at h
    split at h
    · rename_i hexists
      cases h
      simp only [Bool.and_eq_true, Option.isSome_iff_exists] at hexists
      obtain ⟨-, head, hhead⟩ := hexists
      exact isSome_update hhead commit branch
    · cases h

/-- Branches are created with worktrees, or by a failing attempt at one, and are there until they are
deleted. -/
theorem exec_hasBranch (h : exec thread action choice world = some (reply, world'))
    (branch : String) :
    world'.hasBranch branch = action.branchAfter branch (world.hasBranch branch) reply := by
  cases exec_effect h with
  | nothing hnone =>
    unfold Action.branchAfter
    split
    · cases hnone
    · cases hnone
    · cases hnone
    · cases hnone
    · rfl
  | git repo hgit =>
    cases hgit with
    | added added task addition hdone hrepo =>
      obtain ⟨-, head, -, rfl⟩ := Repository.addWorktree_eq hrepo
      have hafter : Action.branchAfter branch (world.hasBranch branch) (.worktreeAdd added task)
          addition = (world.hasBranch branch || decide (added = branch)) := by
        cases addition <;> first | rfl | cases hdone
      rw [hafter, World.hasBranch, World.hasBranch]
      by_cases heq : branch = added
      · subst heq
        simp
      · simp [Function.update_of_ne heq, Ne.symm heq]
    | branchLeft created task hrepo =>
      obtain ⟨-, head, -, rfl⟩ := Repository.createBranch_eq hrepo
      simp only [World.hasBranch, Action.branchAfter]
      by_cases heq : branch = created
      · subst heq
        simp
      · simp [Function.update_of_ne heq, Ne.symm heq]
    | deleted deleted force hrepo =>
      obtain ⟨-, rfl⟩ := Repository.deleteBranch_eq hrepo
      simp only [World.hasBranch, Action.branchAfter]
      by_cases heq : branch = deleted
      · subst heq
        simp
      · simp [Function.update_of_ne heq, Ne.symm heq]
    | switched hrepo =>
      obtain ⟨-, rfl⟩ := Repository.switchIntegration_eq hrepo
      rfl
    | merged commit hrepo =>
      obtain ⟨head, head', hhead, -, -, graph, -, rfl⟩ := Repository.mergeNoFf_eq hrepo
      exact isSome_update hhead head' branch
    | conflicted commit hrepo =>
      cases Repository.mergeConflict_eq hrepo
      rfl
    | aborted hrepo =>
      cases Repository.abortMerge_eq hrepo
      rfl
    | forwarded hrepo =>
      obtain ⟨head, head', hhead, -, rfl⟩ := Repository.mergeFfOnly_eq hrepo
      exact isSome_update hhead head' branch
    | removed workspace force hrepo =>
      obtain ⟨removed, -, rfl⟩ := Repository.removeWorktree_eq hrepo
      rfl
    | fetched bundle news head hrepo =>
      obtain ⟨graph, -, rfl⟩ := Repository.fetch_eq hrepo
      rfl
    | worked workspace move hrepo => exact work_refs_isSome hrepo branch
  | _ => rfl

theorem branchAfter_of_kept {branch : String}
    (h : ∀ force, action ≠ .branchDelete branch force) :
    action.branchAfter branch true reply = true := by
  unfold Action.branchAfter
  split
  · rfl
  · rfl
  · rfl
  · rename_i deleted force
    have hne : deleted ≠ branch := by
      rintro rfl
      exact h force rfl
    simp [hne]
  · rfl

/-! ## Commits -/

theorem work_graph {repo repo' : Repository} {workspace : Workspace} {move : Move}
    (h : repo.work workspace move = some repo') : repo.graph.Extends repo'.graph := by
  cases move with
  | commit others =>
    obtain ⟨checkout, head, head', graph, -, -, hextends, -, rfl⟩ := Repository.commitIn_eq h
    exact hextends
  | edit dirty =>
    obtain ⟨checkout, -, rfl⟩ := Option.map_eq_some_iff.mp h
    rw [Repository.setCheckout_graph]
    exact .refl _
  | switch other =>
    obtain ⟨checkout, -, h⟩ := Option.bind_eq_some_iff.mp h
    split at h
    · cases h
    · cases h
      rw [Repository.setCheckout_graph]
      exact .refl _
  | reset other commit =>
    simp only [Repository.work] at h
    split at h
    · cases h
      exact .refl _
    · cases h

/-- Commits are never lost. -/
theorem exec_graph (h : exec thread action choice world = some (reply, world')) :
    world.repo.graph.Extends world'.repo.graph := by
  cases exec_effect h with
  | git repo hgit =>
    cases hgit with
    | switched hrepo =>
      obtain ⟨-, rfl⟩ := Repository.switchIntegration_eq hrepo
      exact .refl _
    | merged commit hrepo =>
      obtain ⟨head, head', -, -, -, graph, hextends, rfl⟩ := Repository.mergeNoFf_eq hrepo
      exact hextends
    | conflicted commit hrepo =>
      cases Repository.mergeConflict_eq hrepo
      exact .refl _
    | aborted hrepo =>
      cases Repository.abortMerge_eq hrepo
      exact .refl _
    | forwarded hrepo =>
      obtain ⟨head, head', -, -, rfl⟩ := Repository.mergeFfOnly_eq hrepo
      exact .refl _
    | added branch task addition hdone hrepo =>
      obtain ⟨-, head, -, rfl⟩ := Repository.addWorktree_eq hrepo
      exact .refl _
    | branchLeft branch task hrepo =>
      obtain ⟨-, head, -, rfl⟩ := Repository.createBranch_eq hrepo
      exact .refl _
    | removed workspace force hrepo =>
      obtain ⟨removed, -, rfl⟩ := Repository.removeWorktree_eq hrepo
      exact .refl _
    | deleted branch force hrepo =>
      obtain ⟨-, rfl⟩ := Repository.deleteBranch_eq hrepo
      exact .refl _
    | fetched bundle news head hrepo =>
      obtain ⟨graph, hextends, rfl⟩ := Repository.fetch_eq hrepo
      exact hextends
    | worked workspace move hrepo => exact work_graph hrepo
  | _ => exact .refl _

/-- Branches always point to commits. -/
theorem exec_valid (hvalid : world.repo.Valid)
    (h : exec thread action choice world = some (reply, world')) : world'.repo.Valid := by
  cases exec_effect h with
  | git repo hgit =>
    cases hgit with
    | switched hrepo =>
      obtain ⟨-, rfl⟩ := Repository.switchIntegration_eq hrepo
      exact ⟨hvalid.refs, hvalid.inbound⟩
    | merged commit hrepo => exact hvalid.mergeNoFf hrepo
    | conflicted commit hrepo =>
      cases Repository.mergeConflict_eq hrepo
      exact ⟨hvalid.refs, hvalid.inbound⟩
    | aborted hrepo =>
      cases Repository.abortMerge_eq hrepo
      exact ⟨hvalid.refs, hvalid.inbound⟩
    | forwarded hrepo => exact hvalid.mergeFfOnly hrepo
    | added branch task addition hdone hrepo => exact hvalid.addWorktree hrepo
    | branchLeft branch task hrepo => exact hvalid.createBranch hrepo
    | removed workspace force hrepo =>
      obtain ⟨removed, -, rfl⟩ := Repository.removeWorktree_eq hrepo
      exact ⟨hvalid.refs, hvalid.inbound⟩
    | deleted branch force hrepo =>
      obtain ⟨-, rfl⟩ := Repository.deleteBranch_eq hrepo
      exact hvalid.of_update (.refl _) (by simp) rfl rfl
    | fetched bundle news head hrepo => exact hvalid.fetch hrepo
    | worked workspace move hrepo => exact hvalid.work hrepo
  | _ => exact hvalid

/-- So they do in every state of a run. -/
theorem reaches_valid {ε β : Type} {guard : Guard Action.Reply World Choice}
    {c c' : Config Action.Reply World ε β} (hvalid : c.state.repo.Valid)
    (hrun : machine.Reaches guard c c') : c'.state.repo.Valid := by
  induction hrun with
  | refl => exact hvalid
  | step _ hstep ih =>
    obtain ⟨rest, choice, state, -, -, hexec, rfl⟩ := hstep
    exact exec_valid ih hexec

/-! ## Locks -/

def Action.acquires : Action → Option (Name × Bool)
  | .acquire lock shared => some (lock, shared)
  | _ => none

def Action.releases : Action → Option Name
  | .release lock => some lock
  | _ => none

/-- The lock files, which no other step touches. -/
def fileLocks : Locking machine Name where
  table := World.locks
  acquires := Action.acquires
  releases := Action.releases
  exec_acquires := by
    intro thread action choice world reply world' lock shared hacq h
    cases action with
    | acquire lock' shared' =>
      cases hacq
      cases exec_effect h with
      | nothing hnone => cases hnone
      | acquired lock shared locks hlocks => exact hlocks
      | git repo hgit => cases hgit
    | _ => cases hacq
  exec_releases := by
    intro thread action choice world reply world' lock _ hrel h
    cases action with
    | release lock' =>
      cases hrel
      cases exec_effect h with
      | nothing hnone => cases hnone
      | released lock => rfl
      | git repo hgit => cases hgit
    | _ => cases hrel
  exec_other := by
    intro thread action choice world reply world' hacq hrel h
    cases exec_effect h with
    | acquired => cases hacq
    | released => cases hrel
    | _ => rfl

/-! ## What the replies of reading steps tell -/

/-- Steps whose reply tells whether they have changed the world: a merge that conflicts fails and
yet leaves its traces, and nobody is told what a provider does. -/
def Action.reports : Action → Bool
  | .gitMerge _ | .providerWork _ _ => false
  | _ => true

theorem exec_unchanged (h : exec thread action choice world = some (reply, world'))
    (hreports : action.reports = true) (hnone : action.effectless reply = true) :
    world' = world := by
  cases exec_effect h with
  | nothing => rfl
  | git repo hgit =>
    cases hgit with
    | conflicted => cases hreports
    | worked => cases hreports
    | added _ _ addition hdone => exact absurd (of_decide_eq_true hnone) (Addition.ne_refused hdone)
    | _ => cases hnone
  | _ => cases hnone

theorem exec_recordExists {task : Name} {found : Bool}
    (h : exec thread (.recordExists task) choice world = some (found, world')) :
    found = (world.tasks.lookup task).isSome := by
  cases choice <;> cases h
  rfl

theorem exec_readRecord {task : Name} {record : Option TaskRecord}
    (h : exec thread (.readRecord task) choice world = some (record, world')) :
    record = world.tasks.lookup task := by
  cases choice <;> cases h
  rfl

theorem exec_listRecords {names : List Name}
    (h : exec thread .listRecords choice world = some (names, world')) :
    names = world.tasks.names := by
  cases choice <;> cases h
  rfl

/-- `git status` tells something only where there is a checkout. -/
theorem exec_gitStatus {task : Name} {dirty : Bool}
    (h : exec thread (.gitStatus (.worktree task)) choice world = some (some dirty, world')) :
    world.hasWorktree task = true := by
  cases choice with
  | go =>
    have hstatus : (world.repo.worktrees.lookup task).map (·.dirty) = some dirty :=
      congrArg Prod.fst (Option.some.inj h)
    obtain ⟨checkout, hcheckout, -⟩ := Option.map_eq_some_iff.mp hstatus
    rw [World.hasWorktree, hcheckout]
    rfl
  | _ => cases h

theorem exec_revParseHead {workspace : Workspace} {head : Commit}
    (h : exec thread (.revParseHead workspace) choice world = some (some head, world')) :
    world.repo.headOf workspace = some head := by
  cases choice with
  | go => exact congrArg Prod.fst (Option.some.inj h)
  | _ => cases h

theorem exec_workspaceExists {task : Name} {found : Bool}
    (h : exec thread (.workspaceExists (.worktree task)) choice world = some (found, world')) :
    found = world.hasWorktree task := by
  cases choice <;> cases h
  rfl

theorem exec_showRef {branch : String} {found : Bool} (hchoice : choice ≠ .fault)
    (h : exec thread (.showRef branch) choice world = some (found, world')) :
    found = world.hasBranch branch := by
  cases choice with
  | go =>
    cases h
    rfl
  | fault => exact absurd rfl hchoice
  | _ => cases h

theorem exec_worktreeAdd {branch : String} {task : Name}
    (h : exec thread (.worktreeAdd branch task) choice world = some (Addition.added, world')) :
    world.hasBranch branch = false := by
  cases exec_effect h with
  | nothing hnone => cases hnone
  | git repo hgit =>
    cases hgit with
    | added branch task addition hdone hadd =>
      rw [World.hasBranch, (Repository.addWorktree_eq hadd).1]
      rfl

end

end AgentDev
