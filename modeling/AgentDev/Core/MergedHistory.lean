import AgentDev.Core.FailedMerges

/-!
# What a merge integrates

Between `task-complete` and `task-merge` an agent can do to the worktree of the task, and to the
repository that it shares, whatever Git lets it do. A merge that succeeds nevertheless integrates
the recorded head and nothing else (`merge_integrates_completed`): the worktree and `repo/agent`
are clean, the branch and the worktree are at the recorded head, and the history of the new
integration head is that of the old one and of the recorded head.
-/

namespace AgentDev

open Interleaving

/-- What a step does to the world, whatever the choice of the environment. -/
def served : Effects Action.Reply World :=
  fun world action reply world' => ∃ thread choice, exec thread action choice world = some (reply, world')

/-- The task whose record a step writes. -/
def Action.written : Action → Option Name
  | .writeRecord task _ => some task
  | _ => none

/-- Steps that leave the record of `task` as it is. -/
def sparing (task : Name) : Guard Action.Reply World Choice :=
  fun _ _ action _ => action.written ≠ some task

/-- What agents can do between two requests on a task: they add commits, and leave branches and
checkouts in any state. The record of the task is out of their reach. -/
structure Activity (task : Name) (world world' : World) : Prop where
  grown : world.repo.graph.Extends world'.repo.graph
  record : world'.tasks.lookup task = world.tasks.lookup task

/-- The integration head `old` becomes `new` by the merge of `commit`. -/
inductive Integrated (graph graph' : Commits.Graph) (commit old : Commit) : Commit → Prop
  | already (hanc : graph.Anc commit old) (hgraph : graph' = graph) :
      Integrated graph graph' commit old old
  | merged (hanc : ¬graph.Anc commit old) (hparents : ∀ p ∈ [old, commit], p < graph.size)
      (hgraph : graph' = graph.commit [old, commit] hparents) :
      Integrated graph graph' commit old graph.size

/-- The repository before and after a merge of the branch `branch`, which is at `commit`. -/
structure Merged (repo repo' : Repository) (task : Name) (branch : String)
    (commit old new : Commit) : Prop where
  clean : ∃ checkout, repo.worktrees.lookup task = some checkout ∧ checkout.dirty = false
  agentClean : repo.agent.dirty = false
  tip : repo.refs branch = some commit
  head : repo.headOf (.worktree task) = some commit
  before : repo.refs integrationBranch = some old
  integrated : Integrated repo.graph repo'.graph commit old new
  other : branch ≠ integrationBranch
  refs : repo'.refs =
    Function.update (Function.update repo.refs integrationBranch (some new)) branch none

namespace Integrated

variable {graph graph' : Commits.Graph} {commit old new : Commit}

theorem grown (h : Integrated graph graph' commit old new) : graph.Extends graph' := by
  cases h with
  | already _ hgraph =>
    rw [hgraph]
    exact .refl graph
  | merged _ hparents hgraph =>
    rw [hgraph]
    exact graph.commit_extends _ hparents

/-- A commit that is integrated already changes nothing. -/
theorem eq_old (h : Integrated graph graph' commit old new) (hanc : graph.Anc commit old) :
    new = old ∧ graph'.ancestors new = graph.ancestors old ∪ graph.ancestors commit := by
  cases h with
  | already _ hgraph =>
    refine ⟨rfl, ?_⟩
    rw [hgraph]
    exact (Set.union_eq_left.mpr (Commits.Graph.ancestors_subset hanc)).symm
  | merged hnot => exact absurd hanc hnot

/-- Else there is a new commit, and its history is that of the two heads. -/
theorem eq_merge (h : Integrated graph graph' commit old new) (hnot : ¬graph.Anc commit old) :
    new = graph.size ∧
      graph'.ancestors new \ {new} = graph.ancestors old ∪ graph.ancestors commit := by
  cases h with
  | already hanc => exact absurd hanc hnot
  | merged _ hparents hgraph =>
    refine ⟨rfl, ?_⟩
    have hold : old < graph.size := hparents old (by simp)
    have hcommit : commit < graph.size := hparents commit (by simp)
    ext x
    rw [hgraph]
    simp only [Set.mem_sdiff, Commits.Graph.mem_ancestors, Commits.Graph.anc_commit_iff,
      Set.mem_singleton_iff, Set.mem_union, List.mem_cons, List.not_mem_nil, or_false,
      exists_eq_or_imp, exists_eq_left]
    constructor
    · rintro ⟨rfl | hanc, hne⟩
      · exact absurd rfl hne
      · exact hanc
    · intro hanc
      refine ⟨Or.inr hanc, ?_⟩
      rintro rfl
      rcases hanc with hanc | hanc
      · exact absurd hanc.le (Nat.not_le.mpr hold)
      · exact absurd hanc.le (Nat.not_le.mpr hcommit)

theorem anc (h : Integrated graph graph' commit old new) :
    graph'.Anc old new ∧ graph'.Anc commit new := by
  cases h with
  | already hanc hgraph =>
    rw [hgraph]
    exact ⟨.refl old, hanc⟩
  | merged _ hparents hgraph =>
    rw [hgraph]
    exact ⟨Commits.Graph.anc_commit hparents (by simp), Commits.Graph.anc_commit hparents (by simp)⟩

end Integrated

/-! ## Steps of a merge that succeeds -/

section

variable {world world' : World}

theorem alone_served {guard : Guard Action.Reply World Choice} {i : Nat}
    {v v' : View Action.Reply World} {action : Action} {reply : action.Reply}
    (h : machine.alone guard i v action reply v') : served v.state action reply v'.state := by
  obtain ⟨choice, state, -, hexec, rfl⟩ := h
  exact ⟨i, choice, hexec⟩

theorem served_unchanged {action : Action} {reply : action.Reply}
    (h : served world action reply world') (hreports : action.reports = true)
    (hnone : action.effectless reply = true) : world' = world := by
  obtain ⟨thread, choice, hexec⟩ := h
  exact exec_unchanged hexec hreports hnone

theorem served_gitStatus {workspace : Workspace} {dirty : Bool}
    (h : served world (.gitStatus workspace) (some dirty) world') :
    ∃ checkout, world.repo.checkout? workspace = some checkout ∧ checkout.dirty = dirty := by
  obtain ⟨thread, choice, hexec⟩ := h
  cases choice with
  | go =>
    have hstatus : (world.repo.checkout? workspace).map (·.dirty) = some dirty :=
      congrArg Prod.fst (Option.some.inj hexec)
    exact Option.map_eq_some_iff.mp hstatus
  | _ => cases hexec

theorem served_revParse {branch : String} {commit : Commit}
    (h : served world (.revParse branch) (some commit) world') :
    world.repo.refs branch = some commit := by
  obtain ⟨thread, choice, hexec⟩ := h
  cases choice with
  | go => exact congrArg Prod.fst (Option.some.inj hexec)
  | _ => cases hexec

theorem served_gitSwitch (h : served world .gitSwitch true world') :
    world' = { world with repo :=
      { world.repo with agent := { world.repo.agent with branch := integrationBranch } } } := by
  obtain ⟨thread, choice, hexec⟩ := h
  cases exec_effect hexec with
  | nothing hnone => cases hnone
  | git repo hgit =>
    cases hgit with
    | switched hrepo =>
      obtain ⟨-, rfl⟩ := Repository.switchIntegration_eq hrepo
      rfl

theorem exec_worktreeRemove_graph {thread : Nat} {choice : Choice} {workspace : Workspace}
    {force : Bool}
    (h : exec thread (.worktreeRemove workspace force) choice world = some (true, world')) :
    world'.repo.graph = world.repo.graph := by
  cases exec_effect h with
  | nothing hnone => cases hnone
  | git repo hgit =>
    cases hgit with
    | removed workspace force hrepo =>
      obtain ⟨removed, -, rfl⟩ := Repository.removeWorktree_eq hrepo
      rfl

theorem exec_branchDelete_eq {thread : Nat} {choice : Choice} {branch : String} {force : Bool}
    (h : exec thread (.branchDelete branch force) choice world = some (true, world')) :
    world.repo.isCheckedOut branch = false ∧ world' = { world with repo :=
      { world.repo with refs := Function.update world.repo.refs branch none } } := by
  cases exec_effect h with
  | nothing hnone => cases hnone
  | git repo hgit =>
    cases hgit with
    | deleted branch force hrepo =>
      obtain ⟨hout, rfl⟩ := Repository.deleteBranch_eq hrepo
      exact ⟨hout, rfl⟩

theorem integrated_of_mergeNoFf {repo repo' : Repository} {commit : Commit}
    (h : repo.mergeNoFf commit = some repo') (hbranch : repo.agent.branch = integrationBranch) :
    ∃ old new, repo.refs integrationBranch = some old ∧
      Integrated repo.graph repo'.graph commit old new ∧ repo'.agent = repo.agent ∧
      repo'.refs = Function.update repo.refs integrationBranch (some new) := by
  obtain ⟨old, hold, h⟩ := Option.bind_eq_some_iff.mp h
  rw [hbranch] at hold
  split at h
  · cases h
  · split at h
    · rename_i hanc
      cases h
      refine ⟨old, old, hold, .already (Commits.Graph.isAncestor_iff.mp hanc) rfl, rfl, ?_⟩
      exact (Function.update_eq_self_iff.mpr hold.symm).symm
    · rename_i hnot
      split at h
      · cases h
      · split at h
        · rename_i hparents
          cases h
          rw [← hbranch] at hold ⊢
          refine ⟨old, repo.graph.size, hold, .merged ?_ hparents rfl, rfl, rfl⟩
          exact fun hanc => hnot (Commits.Graph.isAncestor_iff.mpr hanc)
        · cases h

end

/-! ## The parts of a merge that succeeds -/

/-- What a part of a request has done when it ends normally. -/
abbrev Serves {α : Type} (Q : α → World → Prop) (world : World) (body : Op α) : Prop :=
  Spec served (fun _ _ => True) Q (fun _ _ => True) world body

section

variable {world : World} {α β : Type} {Q : β → World → Prop}

theorem serves_look {action : Action} {next : action.Reply → Op β}
    (hreports : action.reports = true) (hnone : ∀ reply, action.effectless reply = true)
    (hnext : ∀ reply, served world action reply world → Serves Q world (next reply)) :
    Serves Q world (act action >>= next) := by
  refine spec_act trivial fun reply world' hserved => ?_
  obtain rfl := served_unchanged hserved hreports (hnone reply)
  exact hnext reply hserved

theorem serves_ensureClean {workspace : Workspace} {label : String} {next : Unit → Op β}
    (hnext : ∀ checkout, world.repo.checkout? workspace = some checkout → checkout.dirty = false →
      Serves Q world (next ())) :
    Serves Q world (ensureClean workspace label >>= next) := by
  refine serves_look rfl (fun _ => rfl) fun reply hserved => ?_
  match reply with
  | none => trivial
  | some true => trivial
  | some false =>
    obtain ⟨checkout, hcheckout, hclean⟩ := served_gitStatus hserved
    exact hnext checkout hcheckout hclean

theorem validateRecordedHead_serves {record : TaskRecord} {workspace : Workspace} :
    Serves (fun head world' => world' = world ∧ record.headCommit = some head ∧
        world.repo.refs record.branch = some head ∧ world.repo.headOf workspace = some head)
      world (validateRecordedHead record workspace) := by
  refine spec_orFail trivial fun head hhead => ?_
  refine serves_look rfl (fun _ => rfl) fun reply hbranch => spec_orFail trivial ?_
  rintro branchHead rfl
  refine serves_look rfl (fun _ => rfl) fun reply hworkspace => spec_orFail trivial ?_
  rintro workspaceHead rfl
  refine spec_require trivial fun hsame => ?_
  simp only [Bool.and_eq_true, decide_eq_true_eq] at hsame
  obtain ⟨rfl, rfl⟩ := hsame
  refine ⟨rfl, hhead, served_revParse hbranch, ?_⟩
  obtain ⟨thread, choice, hexec⟩ := hworkspace
  exact exec_revParseHead hexec

/-- What comes after the merge: the worktree and the branch are removed. -/
theorem removal_serves {task : Name} {branch : String} {new : Commit}
    (hbranch : world.repo.agent.branch = integrationBranch)
    (hnew : world.repo.refs integrationBranch = some new) :
    Serves (fun mergeCommit world' => mergeCommit = new ∧ branch ≠ integrationBranch ∧
        world'.tasks = world.tasks ∧ world'.repo.graph = world.repo.graph ∧
        world'.repo.refs = Function.update world.repo.refs branch none)
      world (do
        let mergeCommit ← orFail (← act (.revParseHead .agent)) (.internal "git rev-parse")
        check (.worktreeRemove (.worktree task) false) id (.internal "git worktree")
        check (.branchDelete branch false) id (.internal "git branch")
        pure mergeCommit) := by
  refine serves_look rfl (fun _ => rfl) fun reply hserved => spec_orFail trivial ?_
  rintro head rfl
  have hhead : head = new := by
    obtain ⟨thread, choice, hexec⟩ := hserved
    have hhead := exec_revParseHead hexec
    unfold Repository.headOf at hhead
    simp only [Repository.checkout?, Option.bind_some, hbranch, hnew, Option.some.injEq] at hhead
    exact hhead.symm
  refine spec_check trivial (fun _ _ _ _ => trivial) ?_
  rintro removed world₁ ⟨thread₁, choice₁, hexec₁⟩ (rfl : removed = true)
  obtain ⟨htasks₁, hagent₁, hrefs₁⟩ := exec_worktreeRemove hexec₁
  have hgraph₁ := exec_worktreeRemove_graph hexec₁
  refine spec_check trivial (fun _ _ _ _ => trivial) ?_
  rintro deleted world₂ ⟨thread₂, choice₂, hexec₂⟩ (rfl : deleted = true)
  obtain ⟨hout, rfl⟩ := exec_branchDelete_eq hexec₂
  refine ⟨hhead, ?_, htasks₁, hgraph₁, congrArg (Function.update · branch none) hrefs₁⟩
  rintro rfl
  simp [Repository.isCheckedOut, hagent₁, hbranch] at hout

theorem mergeParallelWorktree_serves {record : TaskRecord} {task : Name} :
    Serves (fun new world' => ∃ commit old, record.headCommit = some commit ∧
        Merged world.repo world'.repo task record.branch commit old new ∧
        world'.tasks = world.tasks)
      world (mergeParallelWorktree record (.worktree task)) := by
  refine serves_ensureClean fun checkout hcheckout hclean => ?_
  refine serves_ensureClean fun agent hagent hagentClean => ?_
  refine validateRecordedHead_serves.bind ?_
  rintro commit world₁ ⟨rfl, hrecorded, htip, hhead⟩
  refine spec_check trivial (fun _ _ _ _ => trivial) ?_
  rintro switched world₂ hswitch (rfl : switched = true)
  obtain rfl := served_gitSwitch hswitch
  refine spec_act trivial ?_
  rintro (merged : Bool) world₃ hmerge
  cases merged with
  | false => exact spec_act trivial fun _ _ _ => trivial
  | true =>
    obtain ⟨thread, choice, hexec⟩ := hmerge
    obtain ⟨repo, hrepo, rfl⟩ := exec_gitMerge hexec
    obtain ⟨old, new, hold, hintegrated, hsame, hrefs⟩ := integrated_of_mergeNoFf hrepo rfl
    refine Spec.mono (@removal_serves _ task record.branch new ?_ ?_) ?_ fun _ _ _ => trivial
    · exact congrArg Checkout.branch hsame
    · rw [hrefs]
      exact Function.update_self ..
    · rintro mergeCommit world₄ ⟨rfl, hother, htasks, hgraph, hrefs'⟩
      cases hagent
      refine ⟨commit, old, hrecorded, ?_, htasks⟩
      refine ⟨⟨checkout, hcheckout, hclean⟩, hagentClean, htip, hhead, hold, hgraph ▸ hintegrated,
        hother, ?_⟩
      rw [hrefs', hrefs]

theorem mergeTaskLocked_serves {record : TaskRecord} {task : Name} :
    Serves (fun merged world' => ∃ commit old new, record.headCommit = some commit ∧
        merged.mergeCommit = some new ∧ Merged world.repo world'.repo task record.branch commit old new)
      world (mergeTaskLocked task record (.worktree task)) := by
  refine mergeParallelWorktree_serves.bind ?_
  rintro new world₁ ⟨commit, old, hrecorded, hmerged, -⟩
  refine serves_look rfl (fun _ => rfl) fun now _ => ?_
  refine spec_check trivial (fun _ _ _ _ => trivial) ?_
  rintro written world₂ ⟨thread, choice, hexec⟩ (rfl : written = true)
  obtain rfl := exec_writeRecord hexec
  exact ⟨commit, old, new, hrecorded, rfl, hmerged⟩

/-! ## Whole requests -/

theorem loadTask_serves {project task : Name} :
    Serves (fun value world' => world' = world ∧ world.tasks.lookup task = some value.1 ∧
        value.2 = workspaceOf task value.1) world (loadTask project task) := by
  refine spec_check trivial (fun _ _ _ _ => trivial) fun reply world₁ hprobe _ => ?_
  obtain rfl := served_unchanged hprobe rfl rfl
  refine serves_look rfl (fun _ => rfl) fun reply hread => spec_orFail trivial ?_
  rintro record rfl
  refine spec_require trivial fun _ => spec_require trivial fun _ => ?_
  refine spec_check trivial (fun _ _ _ _ => trivial) fun reply world₂ hexists _ => ?_
  obtain rfl := served_unchanged hexists rfl rfl
  obtain ⟨thread, choice, hexec⟩ := hread
  exact ⟨rfl, (exec_readRecord hexec).symm, rfl⟩

theorem served_lock {action : Action} {reply : action.Reply} {world' : World}
    (h : served world action reply world')
    (haction : action.acquires.isSome = true ∨ action.releases.isSome = true) :
    world'.repo = world.repo ∧ world'.tasks = world.tasks := by
  obtain ⟨thread, choice, hexec⟩ := h
  cases exec_effect hexec with
  | wrote => rcases haction with haction | haction <;> cases haction
  | git repo hgit => cases hgit <;> rcases haction with haction | haction <;> cases haction
  | _ => exact ⟨rfl, rfl⟩

/-- Locks are not seen by what a request does under them. -/
theorem serves_lockOne {lock : Name} {readonly : Bool} {body : Op β}
    (hbody : ∀ world₁, world₁.repo = world.repo → world₁.tasks = world.tasks →
      Serves Q world₁ body)
    (hend : ∀ value world₁ world₂, Q value world₁ → world₂.repo = world₁.repo →
      world₂.tasks = world₁.tasks → Q value world₂) :
    Serves Q world (lockOne lock readonly body) := by
  refine spec_lockOne (Q := Q) (E := fun _ _ => True) trivial ?_ ?_
    fun _ _ _ => ⟨trivial, fun _ _ => trivial⟩
  · intro world₁ hserved
    obtain ⟨hrepo, htasks⟩ := served_lock hserved (Or.inl rfl)
    exact hbody world₁ hrepo htasks
  · refine fun value world₁ hvalue => ⟨trivial, fun world₂ hserved => ?_⟩
    obtain ⟨hrepo, htasks⟩ := served_lock hserved (Or.inr rfl)
    exact hend value world₁ world₂ hvalue hrepo htasks

theorem taskMerge_serves {project task : Name} {record : TaskRecord}
    (hrecord : world.tasks.lookup task = some record) :
    Serves (fun merged world' => record.mode = .parallel ∧
        ∃ commit old new, record.headCommit = some commit ∧ merged.mergeCommit = some new ∧
          Merged world.repo world'.repo task record.branch commit old new)
      world (taskMerge project task) := by
  refine loadTask_serves.bind ?_
  rintro ⟨loaded, workspace⟩ world₁ ⟨rfl, hloaded, hselected⟩
  obtain rfl : record = loaded := Option.some.inj (hrecord.symm.trans hloaded)
  refine spec_require trivial fun hok => ?_
  simp only [Bool.and_eq_true, decide_eq_true_eq] at hok
  obtain rfl : workspace = .worktree task := by
    simpa [workspaceOf, hok.1, hok.2] using hselected
  refine serves_lockOne (fun world₂ hrepo₂ _ => serves_lockOne (fun world₃ hrepo₃ _ => ?_) ?_) ?_
  · rw [← hrepo₂, ← hrepo₃]
    exact mergeTaskLocked_serves.mono (fun _ _ hmerged => ⟨hok.1, hmerged⟩) fun _ _ _ => trivial
  · rintro merged world₄ world₅ hmerged hrepo -
    rwa [hrepo]
  · rintro merged world₄ world₅ hmerged hrepo -
    rwa [hrepo]

/-- The record of a completion tells the head of the workspace. -/
theorem completeTaskLocked_serves {task : Name} {record : TaskRecord} {workspace : Workspace} :
    Serves (fun completed world' => world'.repo = world.repo ∧
        world'.tasks.lookup task = some completed ∧ ∃ head now,
          world.repo.headOf workspace = some head ∧ completed = record.complete head now)
      world (completeTaskLocked task record workspace) := by
  refine serves_ensureClean fun checkout hcheckout _ => ?_
  refine serves_look rfl (fun _ => rfl) fun reply _ => spec_orFail trivial ?_
  rintro branch rfl
  refine spec_require trivial fun _ => ?_
  refine serves_look rfl (fun _ => rfl) fun reply hhead => spec_orFail trivial ?_
  rintro head rfl
  refine serves_look rfl (fun _ => rfl) fun now _ => ?_
  refine spec_check trivial (fun _ _ _ _ => trivial) ?_
  rintro written world₂ ⟨thread, choice, hexec⟩ (rfl : written = true)
  obtain rfl := exec_writeRecord hexec
  obtain ⟨thread', choice', hexec'⟩ := hhead
  exact ⟨rfl, AList.lookup_insert .., head, now, exec_revParseHead hexec', rfl⟩

theorem taskComplete_serves {project task : Name} :
    Serves (fun completed world' => world'.repo = world.repo ∧
        world'.tasks.lookup task = some completed ∧ ∃ head, completed.headCommit = some head ∧
          (completed.mode = .parallel → world.repo.headOf (.worktree task) = some head) ∧
          ∃ workspace, world.repo.headOf workspace = some head)
      world (taskComplete project task) := by
  refine loadTask_serves.bind ?_
  rintro ⟨loaded, workspace⟩ world₁ ⟨rfl, -, hworkspace⟩
  obtain rfl : workspace = workspaceOf task loaded := hworkspace
  refine spec_require trivial fun hactive => ?_
  refine serves_lockOne (fun world₂ hrepo₂ _ => ?_) ?_
  · refine completeTaskLocked_serves.mono ?_ fun _ _ _ => trivial
    rintro completed world₃ ⟨hrepo₃, hlookup, head, now, hhead, rfl⟩
    rw [hrepo₂] at hhead hrepo₃
    refine ⟨hrepo₃, hlookup, head, rfl, fun hparallel => ?_, _, hhead⟩
    have hmode : loaded.mode = .parallel := hparallel
    have hstatus : loaded.status = .active := by simpa using hactive
    simpa [workspaceOf, hmode, hstatus] using hhead
  · rintro completed world₃ world₄ ⟨hrepo₃, hlookup, hhead⟩ hrepo htasks
    exact ⟨hrepo.trans hrepo₃, by rw [htasks, hlookup], hhead⟩

end

/-! ## From the completion to the merge -/

/-- Requests that work on tasks. -/
abbrev TaskPool := Config Action.Reply World Error TaskRecord

theorem Serves.alone {v : View Action.Reply World} {i : Nat} {Q : TaskRecord → World → Prop}
    {body : Op TaskRecord} (h : Serves Q v.state body) :
    Spec (machine.alone anyStep i) (fun _ _ => True) (fun record v => Q record v.state)
      (fun _ _ => True) v body :=
  Spec.of_simulation (fun _ _ _ _ => alone_served) h

theorem Serves.ret {c c' : TaskPool} {i : Nat} {record : TaskRecord} {Q : TaskRecord → World → Prop}
    {body : Op TaskRecord} (h : Serves Q c.state body) (hprogram : c.programs i = body)
    (hrun : machine.Reaches (anyStep.only i) c c') (hret : c'.programs i = .ret record) :
    Q record c'.state := by
  subst hprogram
  exact (Serves.alone h).post hrun hret

namespace Activity

variable {task : Name} {world world' world'' : World}

theorem refl (task : Name) (world : World) : Activity task world world := ⟨.refl _, rfl⟩

theorem trans (h : Activity task world world') (h' : Activity task world' world'') :
    Activity task world world'' :=
  ⟨h.grown.trans h'.grown, h'.record.trans h.record⟩

/-- Steps that do not write the record are an activity. -/
theorem of_exec {thread : Nat} {action : Action} {choice : Choice} {reply : action.Reply}
    (h : exec thread action choice world = some (reply, world'))
    (hrecord : action.written ≠ some task) : Activity task world world' := by
  refine ⟨exec_graph h, ?_⟩
  rw [exec_tasks h]
  unfold Action.recorded
  split
  · apply AList.lookup_insert_ne
    intro heq
    subst heq
    exact hrecord rfl
  · rfl

/-- So is every run of agents and requests in which no step writes it. -/
theorem of_reaches {c c' : TaskPool} (hrun : machine.Reaches (sparing task) c c') :
    Activity task c.state c'.state := by
  induction hrun with
  | refl => exact .refl task _
  | step _ hstep ih =>
    obtain ⟨rest, choice, state, -, hspares, hexec, rfl⟩ := hstep
    exact ih.trans (.of_exec hexec hspares)

end Activity

namespace Merged

variable {repo repo' : Repository} {task : Name} {branch : String} {commit old new : Commit}

theorem new_head (h : Merged repo repo' task branch commit old new) :
    repo'.refs integrationBranch = some new := by
  rw [h.refs, Function.update_of_ne h.other.symm, Function.update_self]

/-- What any branch has reached before the merge is reached by a branch after it. -/
theorem reached (h : Merged repo repo' task branch commit old new) {other : String}
    {tip x : Commit} (htip : repo.refs other = some tip) (hx : repo.graph.Anc x tip) :
    ∃ other' tip', repo'.refs other' = some tip' ∧ repo'.graph.Anc x tip' := by
  have hx' := hx.mono h.integrated.grown
  by_cases hbranch : other = branch
  · subst hbranch
    obtain rfl : commit = tip := Option.some.inj (h.tip.symm.trans htip)
    exact ⟨integrationBranch, new, h.new_head, hx'.trans h.integrated.anc.2⟩
  · by_cases hintegration : other = integrationBranch
    · subst hintegration
      obtain rfl : old = tip := Option.some.inj (h.before.symm.trans htip)
      exact ⟨integrationBranch, new, h.new_head, hx'.trans h.integrated.anc.1⟩
    · refine ⟨other, tip, ?_, hx'⟩
      rw [h.refs, Function.update_of_ne hbranch, Function.update_of_ne hintegration, htip]

end Merged

/-- What a merge has integrated: `covered` is the graph at the completion of the task, `repo` and
`repo'` are the repository before and after the merge. -/
structure IntegratesCompleted (covered : Commits.Graph) (repo repo' : Repository) (task : Name)
    (branch : String) (commit old new : Commit) : Prop where
  clean : ∃ checkout, repo.worktrees.lookup task = some checkout ∧ checkout.dirty = false
  agentClean : repo.agent.dirty = false
  tip : repo.refs branch = some commit
  head : repo.headOf (.worktree task) = some commit
  before : repo.refs integrationBranch = some old
  after : repo'.refs integrationBranch = some new
  /-- Without a new commit, when `commit` has been integrated before. -/
  unchanged : repo.graph.Anc commit old → new = old ∧
    repo'.graph.ancestors new = repo.graph.ancestors old ∪ repo.graph.ancestors commit
  /-- Else with one merge commit. -/
  history : ¬repo.graph.Anc commit old → new = repo.graph.size ∧
    repo'.graph.ancestors new \ {new} = repo.graph.ancestors old ∪ repo.graph.ancestors commit
  /-- The recorded head has the history that it had when the task was completed. -/
  covers : repo.graph.ancestors commit = covered.ancestors commit
  removed : repo'.refs branch = none
  /-- No commit is lost with the branch. -/
  reached : ∀ other tip x, repo.refs other = some tip → x ∈ repo.graph.ancestors tip →
    ∃ other' tip', repo'.refs other' = some tip' ∧ x ∈ repo'.graph.ancestors tip'

/-- A completed task, any activity of agents, and a merge that succeeds. -/
theorem merge_integrates_completed {project task : Name} {record merged : TaskRecord} {i j : Nat}
    {c c₀ c₁ c₂ c₃ : TaskPool}
    (hvalid : c.state.repo.Valid) (hrun : machine.Reaches anyStep c c₀)
    (hcomplete : c₀.programs i = taskComplete project task)
    (hrun₁ : machine.Reaches (anyStep.only i) c₀ c₁) (hret₁ : c₁.programs i = .ret record)
    (hactivity : Activity task c₁.state c₂.state)
    (hmerge : c₂.programs j = taskMerge project task)
    (hrun₂ : machine.Reaches (anyStep.only j) c₂ c₃) (hret₂ : c₃.programs j = .ret merged) :
    ∃ commit old new, record.headCommit = some commit ∧ merged.mergeCommit = some new ∧
      c₁.state.repo.headOf (.worktree task) = some commit ∧
      IntegratesCompleted c₁.state.repo.graph c₂.state.repo c₃.state.repo task record.branch
        commit old new := by
  obtain ⟨hrepo, hlookup, head, hrecorded, hparallel, workspace, hworkspace⟩ :=
    taskComplete_serves.ret hcomplete hrun₁ hret₁
  rw [← hactivity.record] at hlookup
  obtain ⟨hmode, commit, old, new, hcommit, hnew, hmerged⟩ :=
    (taskMerge_serves hlookup).ret hmerge hrun₂ hret₂
  obtain rfl : head = commit := Option.some.inj (hrecorded.symm.trans hcommit)
  have hexists : head < c₁.state.repo.graph.size := by
    obtain ⟨checkout, -, hhead⟩ := Option.bind_eq_some_iff.mp hworkspace
    rw [hrepo]
    exact (reaches_valid hvalid hrun).refs checkout.branch head hhead
  refine ⟨head, old, new, hcommit, hnew, hrepo ▸ hparallel hmode, ?_⟩
  exact {
    clean := hmerged.clean
    agentClean := hmerged.agentClean
    tip := hmerged.tip
    head := hmerged.head
    before := hmerged.before
    after := hmerged.new_head
    unchanged := hmerged.integrated.eq_old
    history := hmerged.integrated.eq_merge
    covers := hactivity.grown.ancestors_eq hexists
    removed := by rw [hmerged.refs, Function.update_self]
    reached := fun other tip x htip hx => hmerged.reached htip hx }

/-- The task of `parallelProject` before it was completed. -/
def unfinishedProject : World :=
  { parallelProject with
    tasks := parallelProject.tasks.insert exampleTask
      (startedRecord exampleProject exampleTask true 0 [] 0) }

/-- An agent that makes `n` moves in the worktree of the task. -/
def workingAgent : Nat → Op TaskRecord
  | 0 => .fail (.internal "stopped")
  | n + 1 => .act (.providerWork (.worktree exampleTask) false) fun _ => workingAgent n

/-- Request 0 completes the task, 1 merges it, and the others are agents. -/
def completionAndMerge : TaskPool :=
  ⟨fun
    | 0 => taskComplete exampleProject exampleTask
    | 1 => taskMerge exampleProject exampleTask
    | _ => workingAgent 4, ⟨unfinishedProject, []⟩⟩

def makes (moves : List Move) : List (Nat × Choice) :=
  moves.map fun move => (2, .moves move)

theorem sparing_thread {i : Nat} {task : Name} (v : View Action.Reply World) (j : Nat)
    (action : Action) (choice : Choice)
    (h : (decide (j = i) && decide (action.written ≠ some task)) = true) :
    ((sparing task).only i) v j action choice := by
  obtain ⟨hthread, hspares⟩ := Bool.and_eq_true_iff.mp h
  have hwritten : action.written ≠ some task := of_decide_eq_true hspares
  exact ⟨of_decide_eq_true hthread, hwritten⟩

theorem unfinishedProject_valid : unfinishedProject.repo.Valid := by
  constructor
  · intro branch commit hcommit
    have hcommit' : Function.update (fun branch => if branch = integrationBranch then some 0 else none)
        (taskBranch exampleTask) (some 1) branch = some commit := hcommit
    show commit < 2
    by_cases hbranch : branch = taskBranch exampleTask
    · subst hbranch
      rw [Function.update_self] at hcommit'
      cases hcommit'
      exact Nat.lt_succ_self 1
    · rw [Function.update_of_ne hbranch] at hcommit'
      split at hcommit'
      · cases hcommit'
        exact Nat.zero_lt_succ 1
      · cases hcommit'
  · intro commit hcommit
    cases hcommit

/-- The agent commits once more after the completion, and takes the commit back. -/
theorem merge_integrates_completed_example :
    ∃ c₁ c₂ c₃ : TaskPool, ∃ old new,
      c₁.programs 0 = .ret exampleCompleted ∧ c₃.programs 1 = .ret (exampleCompleted.merge 3 2) ∧
      IntegratesCompleted c₁.state.repo.graph c₂.state.repo c₃.state.repo exampleTask
        (taskBranch exampleTask) 1 old new := by
  have hruns : ((machine.run (fun _ j _ _ => j = 2) completionAndMerge
      (makes [.edit true, .edit false])).bind fun c₀ =>
        (machine.run (fun _ j _ _ => j = 0) c₀
          (goes 0 7 ++ [(0, .clock 1)] ++ goes 0 2)).bind fun c₁ =>
            (machine.run (fun _ j action _ => j = 2 && action.written ≠ some exampleTask) c₁
              (makes [.commit [], .reset (taskBranch exampleTask) 1])).bind fun c₂ =>
                (machine.run (fun _ j _ _ => j = 1) c₂
                  (goes 1 14 ++ [(1, .clock 2)] ++ goes 1 3)).map fun c₃ =>
                    ((c₁.programs 0).value?, (c₃.programs 1).value?)) =
      some (some exampleCompleted, some (exampleCompleted.merge 3 2)) := by
    decide +kernel
  obtain ⟨c₀, hrun₀, hruns⟩ := Machine.exists_of_bound_run only_thread hruns
  obtain ⟨c₁, hrun₁, hruns⟩ := Machine.exists_of_bound_run only_thread hruns
  obtain ⟨c₂, hrun₂, hruns⟩ := Machine.exists_of_bound_run sparing_thread hruns
  obtain ⟨c₃, hrun₃, hvalue⟩ := Machine.exists_of_guarded_run only_thread hruns
  simp only [Prod.mk.injEq] at hvalue
  have hret₁ := Program.value?_eq_some_iff.mp hvalue.1
  have hret₃ := Program.value?_eq_some_iff.mp hvalue.2
  have hmerge : c₂.programs 1 = taskMerge exampleProject exampleTask :=
    (hrun₂.only_other (by decide)).1.trans
      ((hrun₁.only_other (by decide)).1.trans (hrun₀.only_other (by decide)).1)
  obtain ⟨commit, old, new, hcommit, -, -, hintegrates⟩ :=
    merge_integrates_completed unfinishedProject_valid hrun₀.of_only
      (hrun₀.only_other (by decide)).1 hrun₁ hret₁ (.of_reaches hrun₂.of_only) hmerge hrun₃
      hret₃
  cases hcommit
  exact ⟨c₁, c₂, c₃, old, new, hret₁, hret₃, hintegrates⟩

end AgentDev
