import AgentDev.Commits.Graph
import AgentDev.Core.Records

/-!
# The agent repository

The Git state behind `repo/agent` and the worktrees of parallel tasks: the commit graph, the
branches, the inbound ref of the human main branch, and the checkouts. Each command that the
broker runs is a partial function: it fails exactly when its precondition does not hold,
and then changes nothing (`merge` may also conflict, and then leaves a merge in progress, and
`worktree add` may fail with its branch created).
-/

namespace AgentDev

/-- A checked-out branch. `dirty` stands for changes that `git status --porcelain` reports,
`merging` for an unfinished merge. -/
structure Checkout where
  branch : String
  dirty : Bool := false
  merging : Bool := false
  deriving DecidableEq

structure Repository where
  graph : Commits.Graph
  /-- `refs/heads/*` -/
  refs : String → Option Commit
  /-- `refs/remotes/human-main/<main>` -/
  inbound : Option Commit
  /-- `repo/agent` -/
  agent : Checkout
  /-- `worktrees/*` -/
  worktrees : AList fun _ : Name => Checkout

namespace Repository

def checkout? (repo : Repository) : Workspace → Option Checkout
  | .agent => some repo.agent
  | .worktree task => repo.worktrees.lookup task

def setCheckout (repo : Repository) : Workspace → Checkout → Repository
  | .agent, checkout => { repo with agent := checkout }
  | .worktree task, checkout => { repo with worktrees := repo.worktrees.insert task checkout }

/-- `git rev-parse HEAD` in a workspace. -/
def headOf (repo : Repository) (workspace : Workspace) : Option Commit :=
  (repo.checkout? workspace).bind fun checkout => repo.refs checkout.branch

/-- Git neither deletes nor checks out again a branch that is checked out somewhere. -/
def isCheckedOut (repo : Repository) (branch : String) : Bool :=
  repo.agent.branch = branch || repo.worktrees.entries.any fun e => e.2.branch = branch

/-- `git switch agent/integration` in `repo/agent` -/
def switchIntegration (repo : Repository) : Option Repository :=
  if repo.agent.merging || (repo.refs integrationBranch).isNone then none
  else if repo.agent.branch = integrationBranch then some repo
  else if repo.agent.dirty || repo.isCheckedOut integrationBranch then none
  else some { repo with agent := { repo.agent with branch := integrationBranch } }

/-- `git worktree add -b branch worktrees/task agent/integration` -/
def addWorktree (repo : Repository) (branch : String) (task : Name) : Option Repository :=
  if (repo.refs branch).isSome || (repo.worktrees.lookup task).isSome then none
  else (repo.refs integrationBranch).map fun head =>
    { repo with refs := Function.update repo.refs branch (some head)
                worktrees := repo.worktrees.insert task { branch := branch } }

/-- The same when it fails after the branch has been created: the worktree is taken back, the branch
is not. -/
def createBranch (repo : Repository) (branch : String) (task : Name) : Option Repository :=
  if (repo.refs branch).isSome || (repo.worktrees.lookup task).isSome then none
  else (repo.refs integrationBranch).map fun head =>
    { repo with refs := Function.update repo.refs branch (some head) }

/-- `git worktree remove [--force] workspace` -/
def removeWorktree (repo : Repository) (workspace : Workspace) (force : Bool) :
    Option Repository :=
  match workspace with
  | .agent => none
  | .worktree task =>
    (repo.worktrees.lookup task).bind fun checkout =>
      if force || !checkout.dirty then some { repo with worktrees := repo.worktrees.erase task }
      else none

/-- `git branch -d branch`, or `-D` with `force` -/
def deleteBranch (repo : Repository) (branch : String) (force : Bool) : Option Repository :=
  (repo.refs branch).bind fun tip =>
    if repo.isCheckedOut branch then none
    else if force || (repo.headOf .agent).any (repo.graph.isAncestor tip) then
      some { repo with refs := Function.update repo.refs branch none }
    else none

/-- `git merge --no-ff --no-edit commit` without a conflict: nothing to do when `commit` is
integrated already, else a merge commit. -/
def mergeNoFf (repo : Repository) (commit : Commit) : Option Repository :=
  (repo.refs repo.agent.branch).bind fun head =>
    if repo.agent.merging then none
    else if repo.graph.isAncestor commit head then some repo
    else if repo.agent.dirty then none
    else if h : ∀ p ∈ [head, commit], p < repo.graph.size then
      some { repo with graph := repo.graph.commit [head, commit] h
                       refs := Function.update repo.refs repo.agent.branch (some repo.graph.size) }
    else none

/-- The same with a conflict, which only a commit that is not integrated yet can have. -/
def mergeConflict (repo : Repository) (commit : Commit) : Option Repository :=
  (repo.refs repo.agent.branch).bind fun head =>
    if repo.agent.merging || repo.agent.dirty || repo.graph.isAncestor commit head then none
    else some { repo with agent := { repo.agent with dirty := true, merging := true } }

/-- `git merge --abort` -/
def abortMerge (repo : Repository) : Option Repository :=
  if repo.agent.merging then
    some { repo with agent := { repo.agent with dirty := false, merging := false } }
  else none

/-- `git merge --ff-only refs/remotes/human-main/<main>` -/
def mergeFfOnly (repo : Repository) : Option Repository :=
  (repo.refs repo.agent.branch).bind fun head => repo.inbound.bind fun human =>
    if repo.agent.merging then none
    else if repo.graph.isAncestor human head then some repo
    else if repo.graph.isAncestor head human && !repo.agent.dirty then
      some { repo with refs := Function.update repo.refs repo.agent.branch (some human) }
    else none

/-- `git fetch bundle refs/heads/main:refs/remotes/human-main/main`: the bundle brings the
commits `news` and the head `human`. Updates that are not fast-forward are refused. -/
def fetch (repo : Repository) (news : List (List Commit)) (human : Commit) : Option Repository :=
  let graph := repo.graph.commitAll news
  if human < graph.size && repo.inbound.all (graph.isAncestor · human) then
    some { repo with graph := graph, inbound := some human }
  else none

end Repository

/-! ## What a provider does in its workspace -/

inductive Move
  /-- A commit on the branch that is checked out, possibly merging other commits. -/
  | commit (others : List Commit)
  /-- Changes to files that are not committed, or their removal. -/
  | edit (dirty : Bool)
  | switch (branch : String)
  /-- `git reset` of the branch that is checked out, or `git branch -f` of another one. -/
  | reset (branch : String) (commit : Commit)
  deriving DecidableEq

namespace Repository

/-- `git commit` in a workspace. -/
def commitIn (repo : Repository) (workspace : Workspace) (others : List Commit) :
    Option Repository :=
  (repo.checkout? workspace).bind fun checkout => (repo.refs checkout.branch).bind fun head =>
    if h : ∀ p ∈ head :: others, p < repo.graph.size then
      some { repo.setCheckout workspace { checkout with dirty := false, merging := false } with
        graph := repo.graph.commit (head :: others) h
        refs := Function.update repo.refs checkout.branch (some repo.graph.size) }
    else none

def work (repo : Repository) (workspace : Workspace) : Move → Option Repository
  | .commit others => repo.commitIn workspace others
  | .edit dirty =>
    (repo.checkout? workspace).map fun checkout =>
      repo.setCheckout workspace { checkout with dirty := dirty }
  | .switch branch =>
    (repo.checkout? workspace).bind fun checkout =>
      if (repo.refs branch).isNone || repo.isCheckedOut branch then none
      else some (repo.setCheckout workspace { checkout with branch := branch })
  | .reset branch commit =>
    if commit < repo.graph.size && (repo.refs branch).isSome then
      some { repo with refs := Function.update repo.refs branch (some commit) }
    else none

/-! ## What each command does -/

variable {repo repo' : Repository} {workspace : Workspace} {branch : String} {task : Name}
  {commit : Commit} {force : Bool}

theorem switchIntegration_eq (h : repo.switchIntegration = some repo') :
    repo.agent.merging = false ∧
      repo' = { repo with agent := { repo.agent with branch := integrationBranch } } := by
  unfold switchIntegration at h
  split at h
  · cases h
  · rename_i hready
    simp only [Bool.or_eq_true, not_or, Bool.not_eq_true] at hready
    split at h
    · rename_i hbranch
      cases h
      refine ⟨hready.1, ?_⟩
      rw [← hbranch]
    · split at h
      · cases h
      · cases h
        exact ⟨hready.1, rfl⟩

theorem addWorktree_eq (h : repo.addWorktree branch task = some repo') :
    repo.refs branch = none ∧ ∃ head, repo.refs integrationBranch = some head ∧
      repo' = { repo with refs := Function.update repo.refs branch (some head)
                          worktrees := repo.worktrees.insert task { branch := branch } } := by
  unfold addWorktree at h
  split at h
  · cases h
  · rename_i hfree
    obtain ⟨head, hhead, rfl⟩ := Option.map_eq_some_iff.mp h
    simp only [Bool.or_eq_true, not_or, Bool.not_eq_true, Option.isSome_eq_false_iff,
      Option.isNone_iff_eq_none] at hfree
    exact ⟨hfree.1, head, hhead, rfl⟩

theorem createBranch_eq (h : repo.createBranch branch task = some repo') :
    repo.refs branch = none ∧ ∃ head, repo.refs integrationBranch = some head ∧
      repo' = { repo with refs := Function.update repo.refs branch (some head) } := by
  unfold createBranch at h
  split at h
  · cases h
  · rename_i hfree
    obtain ⟨head, hhead, rfl⟩ := Option.map_eq_some_iff.mp h
    simp only [Bool.or_eq_true, not_or, Bool.not_eq_true, Option.isSome_eq_false_iff,
      Option.isNone_iff_eq_none] at hfree
    exact ⟨hfree.1, head, hhead, rfl⟩

theorem removeWorktree_eq (h : repo.removeWorktree workspace force = some repo') :
    ∃ task, workspace = .worktree task ∧
      repo' = { repo with worktrees := repo.worktrees.erase task } := by
  cases workspace with
  | agent => cases h
  | worktree task =>
    obtain ⟨checkout, -, h⟩ := Option.bind_eq_some_iff.mp h
    split at h
    · cases h
      exact ⟨task, rfl, rfl⟩
    · cases h

theorem deleteBranch_eq (h : repo.deleteBranch branch force = some repo') :
    repo.isCheckedOut branch = false ∧
      repo' = { repo with refs := Function.update repo.refs branch none } := by
  obtain ⟨tip, -, h⟩ := Option.bind_eq_some_iff.mp h
  split at h
  · cases h
  · rename_i hout
    split at h
    · cases h
      exact ⟨by simpa using hout, rfl⟩
    · cases h

/-- The merged commit is an ancestor of the new head, and so is the old head. -/
theorem mergeNoFf_eq (h : repo.mergeNoFf commit = some repo') :
    ∃ head head', repo.refs repo.agent.branch = some head ∧
      repo'.graph.Anc head head' ∧ repo'.graph.Anc commit head' ∧
      ∃ graph, repo.graph.Extends graph ∧
        repo' = { repo with graph := graph
                            refs := Function.update repo.refs repo.agent.branch (some head') } := by
  obtain ⟨head, hhead, h⟩ := Option.bind_eq_some_iff.mp h
  split at h
  · cases h
  · split at h
    · rename_i hanc
      cases h
      refine ⟨head, head, hhead, .refl head, Commits.Graph.isAncestor_iff.mp hanc, repo.graph,
        .refl _, ?_⟩
      rw [Function.update_eq_self_iff.mpr hhead.symm]
    · split at h
      · cases h
      · split at h
        · rename_i hparents
          cases h
          have hanc := fun p hp => Commits.Graph.anc_commit hparents (p := p) hp
          exact ⟨head, repo.graph.size, hhead, hanc head (by simp), hanc commit (by simp), _,
            repo.graph.commit_extends _ hparents, rfl⟩
        · cases h

/-- A merge changes nothing when the commit is integrated already, and else moves the branch. -/
theorem mergeNoFf_cases (h : repo.mergeNoFf commit = some repo') :
    ∃ head, repo.refs repo.agent.branch = some head ∧
      ((repo.graph.Anc commit head ∧ repo' = repo) ∨
        (¬repo.graph.Anc commit head ∧ ∃ graph head', head' ≠ head ∧
          repo' = { repo with graph := graph
                              refs := Function.update repo.refs repo.agent.branch (some head') })) := by
  obtain ⟨head, hhead, h⟩ := Option.bind_eq_some_iff.mp h
  refine ⟨head, hhead, ?_⟩
  split at h
  · cases h
  · split at h
    · rename_i hanc
      cases h
      exact Or.inl ⟨Commits.Graph.isAncestor_iff.mp hanc, rfl⟩
    · rename_i hanc
      split at h
      · cases h
      · split at h
        · rename_i hparents
          cases h
          have hne : repo.graph.size ≠ head := (hparents head (by simp)).ne'
          exact Or.inr ⟨fun hanc' => hanc (Commits.Graph.isAncestor_iff.mpr hanc'), _, _, hne, rfl⟩
        · cases h

theorem mergeConflict_eq (h : repo.mergeConflict commit = some repo') :
    repo' = { repo with agent := { repo.agent with dirty := true, merging := true } } := by
  obtain ⟨head, -, h⟩ := Option.bind_eq_some_iff.mp h
  split at h
  · cases h
  · cases h
    rfl

theorem abortMerge_eq (h : repo.abortMerge = some repo') :
    repo' = { repo with agent := { repo.agent with dirty := false, merging := false } } := by
  unfold abortMerge at h
  split at h
  · cases h
    rfl
  · cases h

/-- A fast-forward leads to a descendant. -/
theorem mergeFfOnly_eq (h : repo.mergeFfOnly = some repo') :
    ∃ head head', repo.refs repo.agent.branch = some head ∧ repo.graph.Anc head head' ∧
      repo' = { repo with refs := Function.update repo.refs repo.agent.branch (some head') } := by
  obtain ⟨head, hhead, h⟩ := Option.bind_eq_some_iff.mp h
  obtain ⟨human, -, h⟩ := Option.bind_eq_some_iff.mp h
  split at h
  · cases h
  · split at h
    · cases h
      refine ⟨head, head, hhead, .refl head, ?_⟩
      rw [Function.update_eq_self_iff.mpr hhead.symm]
    · split at h
      · rename_i hanc
        cases h
        simp only [Bool.and_eq_true] at hanc
        exact ⟨head, human, hhead, Commits.Graph.isAncestor_iff.mp hanc.1, rfl⟩
      · cases h

theorem fetch_eq {news : List (List Commit)} {human : Commit}
    (h : repo.fetch news human = some repo') :
    ∃ graph, repo.graph.Extends graph ∧
      repo' = { repo with graph := graph, inbound := some human } := by
  simp only [fetch] at h
  split at h
  · cases h
    exact ⟨_, repo.graph.commitAll_extends news, rfl⟩
  · cases h

/-- A commit advances the branch that is checked out. -/
theorem commitIn_eq {others : List Commit} (h : repo.commitIn workspace others = some repo') :
    ∃ checkout head head' graph, repo.checkout? workspace = some checkout ∧
      repo.refs checkout.branch = some head ∧ repo.graph.Extends graph ∧ graph.Anc head head' ∧
      repo' = { repo.setCheckout workspace { checkout with dirty := false, merging := false } with
        graph := graph
        refs := Function.update repo.refs checkout.branch (some head') } := by
  obtain ⟨checkout, hcheckout, h⟩ := Option.bind_eq_some_iff.mp h
  obtain ⟨head, hhead, h⟩ := Option.bind_eq_some_iff.mp h
  split at h
  · rename_i hparents
    cases h
    exact ⟨checkout, head, repo.graph.size, _, hcheckout, hhead,
      repo.graph.commit_extends _ hparents,
      Commits.Graph.anc_commit hparents List.mem_cons_self, rfl⟩
  · cases h

theorem setCheckout_refs (workspace : Workspace) (checkout : Checkout) :
    (repo.setCheckout workspace checkout).refs = repo.refs := by
  cases workspace <;> rfl

theorem setCheckout_graph (workspace : Workspace) (checkout : Checkout) :
    (repo.setCheckout workspace checkout).graph = repo.graph := by
  cases workspace <;> rfl

/-! ## Branches point to commits -/

/-- Every branch, and the inbound ref, points to a commit that exists. -/
structure Valid (repo : Repository) : Prop where
  refs : ∀ branch commit, repo.refs branch = some commit → commit < repo.graph.size
  inbound : ∀ commit, repo.inbound = some commit → commit < repo.graph.size

theorem Valid.of_extends (h : repo.Valid) (hgraph : repo.graph.Extends repo'.graph)
    (hrefs : repo'.refs = repo.refs) (hinbound : repo'.inbound = repo.inbound) : repo'.Valid := by
  constructor
  · intro branch commit hcommit
    rw [hrefs] at hcommit
    exact Nat.lt_of_lt_of_le (h.refs branch commit hcommit) hgraph.size_le
  · intro commit hcommit
    rw [hinbound] at hcommit
    exact Nat.lt_of_lt_of_le (h.inbound commit hcommit) hgraph.size_le

theorem Valid.of_update (h : repo.Valid) (hgraph : repo.graph.Extends repo'.graph)
    {head : Option Commit} (hhead : ∀ commit, head = some commit → commit < repo'.graph.size)
    (hrefs : repo'.refs = Function.update repo.refs branch head)
    (hinbound : repo'.inbound = repo.inbound) : repo'.Valid := by
  constructor
  · intro other commit hcommit
    rw [hrefs] at hcommit
    by_cases hbranch : other = branch
    · subst hbranch
      rw [Function.update_self] at hcommit
      exact hhead commit hcommit
    · rw [Function.update_of_ne hbranch] at hcommit
      exact Nat.lt_of_lt_of_le (h.refs other commit hcommit) hgraph.size_le
  · intro commit hcommit
    rw [hinbound] at hcommit
    exact Nat.lt_of_lt_of_le (h.inbound commit hcommit) hgraph.size_le

theorem Valid.mergeNoFf (hvalid : repo.Valid) (h : repo.mergeNoFf commit = some repo') :
    repo'.Valid := by
  obtain ⟨head, -, h⟩ := Option.bind_eq_some_iff.mp h
  split at h
  · cases h
  · split at h
    · cases h
      exact hvalid
    · split at h
      · cases h
      · split at h
        · rename_i hparents
          cases h
          refine hvalid.of_update (repo.graph.commit_extends _ hparents) ?_ rfl rfl
          rintro _ ⟨⟩
          exact Nat.lt_succ_self _
        · cases h

theorem Valid.mergeFfOnly (hvalid : repo.Valid) (h : repo.mergeFfOnly = some repo') :
    repo'.Valid := by
  obtain ⟨head, -, h⟩ := Option.bind_eq_some_iff.mp h
  obtain ⟨human, hhuman, h⟩ := Option.bind_eq_some_iff.mp h
  split at h
  · cases h
  · split at h
    · cases h
      exact hvalid
    · split at h
      · cases h
        refine hvalid.of_update (.refl _) ?_ rfl rfl
        rintro _ ⟨⟩
        exact hvalid.inbound human hhuman
      · cases h

theorem Valid.fetch (hvalid : repo.Valid) {news : List (List Commit)} {human : Commit}
    (h : repo.fetch news human = some repo') : repo'.Valid := by
  have hgrown := repo.graph.commitAll_extends news
  simp only [Repository.fetch] at h
  split at h
  · rename_i hhuman
    cases h
    simp only [Bool.and_eq_true, decide_eq_true_eq] at hhuman
    constructor
    · intro branch commit hcommit
      exact Nat.lt_of_lt_of_le (hvalid.refs branch commit hcommit) hgrown.size_le
    · rintro _ ⟨⟩
      exact hhuman.1
  · cases h

theorem Valid.addWorktree (hvalid : repo.Valid) (h : repo.addWorktree branch task = some repo') :
    repo'.Valid := by
  obtain ⟨-, head, hhead, rfl⟩ := addWorktree_eq h
  refine hvalid.of_update (.refl _) ?_ rfl rfl
  rintro _ ⟨⟩
  exact hvalid.refs integrationBranch head hhead

theorem Valid.createBranch (hvalid : repo.Valid) (h : repo.createBranch branch task = some repo') :
    repo'.Valid := by
  obtain ⟨-, head, hhead, rfl⟩ := createBranch_eq h
  refine hvalid.of_update (.refl _) ?_ rfl rfl
  intro commit hcommit
  cases hcommit
  exact hvalid.refs integrationBranch head hhead

theorem setCheckout_inbound (workspace : Workspace) (checkout : Checkout) :
    (repo.setCheckout workspace checkout).inbound = repo.inbound := by
  cases workspace <;> rfl

theorem Valid.setCheckout (hvalid : repo.Valid) (workspace : Workspace) (checkout : Checkout) :
    (repo.setCheckout workspace checkout).Valid := by
  refine hvalid.of_extends ?_ (setCheckout_refs ..) (setCheckout_inbound ..)
  rw [setCheckout_graph]
  exact .refl _

theorem Valid.work (hvalid : repo.Valid) {move : Move} (h : repo.work workspace move = some repo') :
    repo'.Valid := by
  cases move with
  | commit others =>
    obtain ⟨checkout, -, h⟩ := Option.bind_eq_some_iff.mp h
    obtain ⟨head, -, h⟩ := Option.bind_eq_some_iff.mp h
    split at h
    · rename_i hparents
      cases h
      refine hvalid.of_update (repo.graph.commit_extends _ hparents) ?_ rfl (setCheckout_inbound ..)
      rintro _ ⟨⟩
      exact Nat.lt_succ_self _
    · cases h
  | edit dirty =>
    obtain ⟨checkout, -, rfl⟩ := Option.map_eq_some_iff.mp h
    exact hvalid.setCheckout workspace _
  | switch other =>
    obtain ⟨checkout, -, h⟩ := Option.bind_eq_some_iff.mp h
    split at h
    · cases h
    · cases h
      exact hvalid.setCheckout workspace _
  | reset other commit =>
    simp only [Repository.work] at h
    split at h
    · rename_i hcommit
      cases h
      simp only [Bool.and_eq_true, decide_eq_true_eq] at hcommit
      refine hvalid.of_update (.refl _) ?_ rfl rfl
      rintro _ ⟨⟩
      exact hcommit.1
    · cases h

end Repository

end AgentDev
