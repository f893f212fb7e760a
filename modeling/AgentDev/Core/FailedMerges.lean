import AgentDev.Core.Attempts
import AgentDev.Core.LockOrder

/-!
# Merges that fail

`task-merge` checks, switches, merges, reads the new head, removes the worktree, deletes the branch
and writes the record. A step that fails before the merge, or the merge itself, leaves the
integration branch and the record as they were. A step that fails after the merge does not: the
integration branch has moved, and the record still says `completed`
(`merge_left_unrecorded`). So a merge changes all or nothing exactly when no step fails after
a merge that has moved the branch (`merge_atomic_iff`).
-/

namespace AgentDev

open Interleaving

/-! ## What a failing merge leaves behind -/

/-- A step of a merge that has failed although it comes after the merge itself. -/
def failsLate (e : Event Action.Reply) : Bool :=
  match e with
  | ⟨_, .revParseHead .agent, none⟩ => true
  | ⟨_, .worktreeRemove _ _, (false : Bool)⟩ => true
  | ⟨_, .branchDelete _ _, (false : Bool)⟩ => true
  | ⟨_, .writeRecord _ _, (false : Bool)⟩ => true
  | _ => false

/-- The commit that the event has merged. -/
def mergesCommit (e : Event Action.Reply) : Option Commit :=
  match e with
  | ⟨_, .gitMerge commit, (true : Bool)⟩ => some commit
  | _ => none

/-- No step has failed after a merge, or the merged commit was integrated before. -/
def MergeKept (world : World) (trace : History) : Prop :=
  ∀ e ∈ trace, ∀ commit, mergesCommit e = some commit → (∃ e' ∈ trace, failsLate e' = true) →
    ∃ head, world.repo.refs integrationBranch = some head ∧ world.repo.graph.Anc commit head

/-- The merge has succeeded and recorded the head of the integration branch. -/
structure Integrates (task : Name) (record : TaskRecord) (world' : World) : Prop where
  status : record.status = .merged
  recorded : world'.tasks.lookup task = some record
  commit : record.mergeCommit.isSome = true
  head : world'.repo.refs integrationBranch = record.mergeCommit

/-- The record of the task and the integration branch are as before. -/
structure Restores (world : World) (task : Name) (world' : World) : Prop where
  recorded : world'.tasks.lookup task = world.tasks.lookup task
  head : world'.repo.refs integrationBranch = world.repo.refs integrationBranch

/-- The merge has succeeded, or has changed nothing. -/
def MergeAtomic (world : World) (task : Name) (c : Pool) : Prop :=
  (∃ record, c.programs 0 = .ret (.record record) ∧ Integrates task record c.state) ∨
    ∃ error, c.programs 0 = .fail error ∧ Restores world task c.state

/-! ## Steps that a merge makes before and after it -/

/-- Steps that change neither records nor branches, and are not among those after the merge. -/
def Action.tame : Action → Bool
  | .writeRecord _ _ | .worktreeAdd _ _ | .worktreeRemove _ _ | .branchDelete _ _ | .gitMerge _
  | .gitMergeFf | .gitFetch _ | .providerWork _ _ | .revParseHead .agent => false
  | _ => true

section

variable {thread : Nat} {action : Action} {choice : Choice} {world world' : World}
  {reply : action.Reply}

theorem exec_tame (h : exec thread action choice world = some (reply, world'))
    (htame : action.tame = true) :
    world'.tasks = world.tasks ∧ world'.repo.refs = world.repo.refs ∧
      world'.repo.graph = world.repo.graph := by
  cases exec_effect h with
  | nothing => exact ⟨rfl, rfl, rfl⟩
  | wrote => cases htame
  | git repo hgit =>
    cases hgit with
    | switched hrepo =>
      obtain ⟨-, rfl⟩ := Repository.switchIntegration_eq hrepo
      exact ⟨rfl, rfl, rfl⟩
    | aborted hrepo =>
      cases Repository.abortMerge_eq hrepo
      exact ⟨rfl, rfl, rfl⟩
    | _ => cases htame
  | _ => exact ⟨rfl, rfl, rfl⟩

theorem failsLate_of_tame (htame : action.tame = true) :
    failsLate ⟨thread, action, reply⟩ = false ∧ mergesCommit ⟨thread, action, reply⟩ = none := by
  cases action with
  | revParseHead workspace =>
    cases workspace with
    | agent => cases htame
    | worktree task => exact ⟨rfl, rfl⟩
  | writeRecord => cases htame
  | worktreeRemove => cases htame
  | branchDelete => cases htame
  | gitMerge => cases htame
  | _ => exact ⟨rfl, rfl⟩

theorem exec_gitSwitch {ok : Bool} (hok : ok = true)
    (h : exec thread .gitSwitch choice world = some (ok, world')) :
    world'.repo.agent.branch = integrationBranch := by
  subst hok
  cases exec_effect h with
  | nothing hnone => cases hnone
  | git repo hgit =>
    cases hgit with
    | switched hrepo =>
      obtain ⟨-, rfl⟩ := Repository.switchIntegration_eq hrepo
      rfl

theorem exec_gitMerge {commit : Commit}
    (h : exec thread (.gitMerge commit) choice world = some (true, world')) :
    ∃ repo, world.repo.mergeNoFf commit = some repo ∧ world' = { world with repo := repo } := by
  cases exec_effect h with
  | nothing hnone => cases hnone
  | git repo hgit =>
    cases hgit with
    | merged commit hrepo => exact ⟨repo, hrepo, rfl⟩

theorem exec_worktreeRemove {workspace : Workspace} {force : Bool}
    (h : exec thread (.worktreeRemove workspace force) choice world = some (true, world')) :
    world'.tasks = world.tasks ∧ world'.repo.agent = world.repo.agent ∧
      world'.repo.refs = world.repo.refs := by
  cases exec_effect h with
  | nothing hnone => cases hnone
  | git repo hgit =>
    cases hgit with
    | removed workspace force hrepo =>
      obtain ⟨removed, -, rfl⟩ := Repository.removeWorktree_eq hrepo
      exact ⟨rfl, rfl, rfl⟩

/-- Git does not delete the branch that is checked out. -/
theorem exec_branchDelete {branch : String} {force : Bool}
    (h : exec thread (.branchDelete branch force) choice world = some (true, world')) :
    world'.tasks = world.tasks ∧ world'.repo.agent = world.repo.agent ∧
      world'.repo.refs world.repo.agent.branch = world.repo.refs world.repo.agent.branch := by
  cases exec_effect h with
  | nothing hnone => cases hnone
  | git repo hgit =>
    cases hgit with
    | deleted branch force hrepo =>
      obtain ⟨hout, rfl⟩ := Repository.deleteBranch_eq hrepo
      have hne : world.repo.agent.branch ≠ branch := by
        rintro rfl
        simp [Repository.isCheckedOut] at hout
      exact ⟨rfl, rfl, Function.update_of_ne hne ..⟩

theorem exec_writeRecord {task : Name} {record : TaskRecord}
    (h : exec thread (.writeRecord task record) choice world = some (true, world')) :
    world' = { world with tasks := world.tasks.insert task record } := by
  cases exec_effect h with
  | nothing hnone => cases hnone
  | wrote => rfl
  | git repo hgit => cases hgit

/-- A merge that fails moves no branch. -/
theorem exec_gitMerge_failed {commit : Commit}
    (h : exec thread (.gitMerge commit) choice world = some (false, world')) :
    world'.tasks = world.tasks ∧ world'.repo.refs = world.repo.refs := by
  cases exec_effect h with
  | nothing => exact ⟨rfl, rfl⟩
  | git repo hgit =>
    cases hgit with
    | conflicted commit hrepo =>
      cases Repository.mergeConflict_eq hrepo
      exact ⟨rfl, rfl⟩

end

/-! ## A merge that is served alone -/

/-- What a part of a merge does, when every step that it comes to can happen. -/
abbrev Merges {α : Type} (Q : α → WorldView → Prop) (E : Error → WorldView → Prop)
    (v : WorldView) (body : Op α) : Prop :=
  Spec (machine.alone anyStep 0) (machine.Enabled anyStep 0) Q E v body

/-- How a merge ends when it fails. -/
def MergeFailed (world : World) (task : Name) (v : WorldView) : Prop :=
  Restores world task v.state ↔ MergeKept world v.trace

/-- How a merge ends when it succeeds. -/
def MergeSucceeded (world : World) (task : Name) (record : TaskRecord) (v : WorldView) : Prop :=
  Integrates task record v.state ∧ MergeKept world v.trace

/-- Nothing has been merged yet. -/
structure BeforeMerge (world : World) (locks : LockTable Name) (v : WorldView) : Prop where
  tasks : v.state.tasks = world.tasks
  refs : v.state.repo.refs = world.repo.refs
  graph : v.state.repo.graph = world.repo.graph
  locks : v.state.locks = locks
  unmerged : ∀ e ∈ v.trace, mergesCommit e = none
  late : ∀ e ∈ v.trace, failsLate e = false

/-- The commit has been merged, and nothing has failed since. -/
structure AfterMerge (world : World) (commit : Commit) (v : WorldView) : Prop where
  tasks : v.state.tasks = world.tasks
  branch : v.state.repo.agent.branch = integrationBranch
  head : ∃ head head', world.repo.refs integrationBranch = some head ∧
    v.state.repo.refs integrationBranch = some head' ∧
    (head' = head ↔ world.repo.graph.Anc commit head)
  merged : ∃ e ∈ v.trace, mergesCommit e = some commit
  only : ∀ e ∈ v.trace, ∀ other, mergesCommit e = some other → other = commit
  late : ∀ e ∈ v.trace, failsLate e = false

section

variable {world : World} {task : Name} {locks : LockTable Name} {commit : Commit}
  {v v' : WorldView} {α β : Type} {Q : β → WorldView → Prop}

theorem failed_of_unmerged (htasks : v.state.tasks = world.tasks)
    (hrefs : v.state.repo.refs = world.repo.refs)
    (hunmerged : ∀ e ∈ v.trace, mergesCommit e = none) : MergeFailed world task v := by
  refine iff_of_true ⟨by rw [htasks], by rw [hrefs]⟩ ?_
  intro e he commit hcommit
  rw [hunmerged e he] at hcommit
  cases hcommit

theorem BeforeMerge.failed (h : BeforeMerge world locks v) : MergeFailed world task v :=
  failed_of_unmerged h.tasks h.refs h.unmerged

theorem BeforeMerge.tame {action : Action} {reply : action.Reply} (h : BeforeMerge world locks v)
    (htame : action.tame = true) (hinternal : fileLocks.Internal action)
    (halone : machine.alone anyStep 0 v action reply v') : BeforeMerge world locks v' := by
  have htrace := alone_trace halone
  obtain ⟨choice, state, -, hexec, rfl⟩ := halone
  obtain ⟨htasks, hrefs, hgraph⟩ := exec_tame hexec htame
  have hlocks : state.locks = v.state.locks :=
    fileLocks.exec_other hinternal.1 hinternal.2 hexec
  refine ⟨htasks.trans h.tasks, hrefs.trans h.refs, hgraph.trans h.graph, hlocks.trans h.locks, ?_,
    ?_⟩
  · rw [htrace]
    exact forall_snoc h.unmerged (failsLate_of_tame htame).2
  · rw [htrace]
    exact forall_snoc h.late (failsLate_of_tame htame).1

/-- One step before the merge. -/
theorem before_act {action : Action} {next : action.Reply → Op β} {E : Error → WorldView → Prop}
    (h : BeforeMerge world locks v) (htame : action.tame = true) (hinternal : fileLocks.Internal action)
    (hnext : ∀ reply v', BeforeMerge world locks v' → machine.alone anyStep 0 v action reply v' →
      Merges Q E v' (next reply)) : Merges Q E v (act action >>= next) :=
  ⟨enabled_unlocking anyStep_tolerant hinternal.1, fun reply v' halone => hnext reply v' (h.tame htame hinternal halone) halone⟩

theorem before_check {action : Action} {ok : action.Reply → Bool} {error : Error}
    {next : Unit → Op β} (h : BeforeMerge world locks v) (htame : action.tame = true)
    (hinternal : fileLocks.Internal action)
    (hnext : ∀ reply v', BeforeMerge world locks v' → machine.alone anyStep 0 v action reply v' →
      ok reply = true → Merges Q (fun _ => MergeFailed world task) v' (next ())) :
    Merges Q (fun _ => MergeFailed world task) v (check action ok error >>= next) := by
  refine spec_check (enabled_unlocking anyStep_tolerant hinternal.1) (fun reply v' halone _ => ?_) fun reply v' halone hok => ?_
  · exact (h.tame htame hinternal halone).failed
  · exact hnext reply v' (h.tame htame hinternal halone) halone hok

theorem before_ensureClean {workspace : Workspace} {label : String} {next : Unit → Op β}
    (h : BeforeMerge world locks v)
    (hnext : ∀ v', BeforeMerge world locks v' → Merges Q (fun _ => MergeFailed world task) v' (next ())) :
    Merges Q (fun _ => MergeFailed world task) v (ensureClean workspace label >>= next) := by
  refine before_act h rfl ⟨rfl, rfl⟩ fun reply v' hv' _ => ?_
  match reply with
  | none => exact hv'.failed
  | some true => exact hv'.failed
  | some false => exact hnext v' hv'

/-! ### After the merge -/

/-- A step after the merge fails. -/
theorem AfterMerge.failed {action : Action} {reply : action.Reply} (h : AfterMerge world commit v)
    (halone : machine.alone anyStep 0 v action reply v') (hstate : v'.state = v.state)
    (hfails : failsLate ⟨0, action, reply⟩ = true)
    (hunmerged : mergesCommit ⟨0, action, reply⟩ = none) : MergeFailed world task v' := by
  have htrace := alone_trace halone
  obtain ⟨head, head', hhead, hhead', hiff⟩ := h.head
  have hlate : ∃ e ∈ v'.trace, failsLate e = true := by
    rw [htrace]
    exact ⟨_, List.mem_append_right _ (List.mem_singleton_self _), hfails⟩
  have honly : ∀ e ∈ v'.trace, ∀ other, mergesCommit e = some other → other = commit := by
    rw [htrace]
    refine forall_snoc h.only fun other hother => ?_
    rw [hunmerged] at hother
    cases hother
  have hrestores : Restores world task v'.state ↔ head' = head := by
    constructor
    · intro hrestores
      have heq := hrestores.head
      rw [hstate, hhead', hhead] at heq
      exact Option.some.inj heq
    · rintro rfl
      exact ⟨by rw [hstate, h.tasks], by rw [hstate, hhead', hhead]⟩
  have hkept : MergeKept world v'.trace ↔ world.repo.graph.Anc commit head := by
    constructor
    · intro hkept
      obtain ⟨e, he, hmerges⟩ := h.merged
      obtain ⟨found, hfound, hanc⟩ :=
        hkept e (by rw [htrace]; exact List.mem_append_left _ he) commit hmerges hlate
      rw [hhead] at hfound
      cases hfound
      exact hanc
    · intro hanc e he other hother _
      rw [honly e he other hother]
      exact ⟨head, hhead, hanc⟩
  exact hrestores.trans (hiff.trans hkept.symm)

/-- A step after the merge succeeds. -/
theorem AfterMerge.step {action : Action} {reply : action.Reply} (h : AfterMerge world commit v)
    (halone : machine.alone anyStep 0 v action reply v') (htasks : v'.state.tasks = v.state.tasks)
    (hbranch : v'.state.repo.agent.branch = v.state.repo.agent.branch)
    (hhead : v'.state.repo.refs integrationBranch = v.state.repo.refs integrationBranch)
    (hlate : failsLate ⟨0, action, reply⟩ = false)
    (hunmerged : mergesCommit ⟨0, action, reply⟩ = none) : AfterMerge world commit v' := by
  have htrace := alone_trace halone
  refine ⟨htasks.trans h.tasks, hbranch.trans h.branch, ?_, ?_, ?_, ?_⟩
  · rw [hhead]
    exact h.head
  · obtain ⟨e, he, hmerges⟩ := h.merged
    rw [htrace]
    exact ⟨e, List.mem_append_left _ he, hmerges⟩
  · rw [htrace]
    refine forall_snoc h.only fun other hother => ?_
    rw [hunmerged] at hother
    cases hother
  · rw [htrace]
    exact forall_snoc h.late hlate

/-- The step that merges. -/
theorem BeforeMerge.merge (h : BeforeMerge world locks v)
    (hbranch : v.state.repo.agent.branch = integrationBranch)
    (halone : machine.alone anyStep 0 v (.gitMerge commit) true v') : AfterMerge world commit v' := by
  have htrace := alone_trace halone
  obtain ⟨choice, state, -, hexec, rfl⟩ := halone
  obtain ⟨repo, hmerge, rfl⟩ := exec_gitMerge hexec
  obtain ⟨head, hhead, hcases⟩ := Repository.mergeNoFf_cases hmerge
  rw [hbranch] at hhead
  have hhead₀ : world.repo.refs integrationBranch = some head := by
    rw [← h.refs]
    exact hhead
  refine ⟨h.tasks, ?_, ?_, ?_, ?_, ?_⟩
  · rcases hcases with ⟨-, rfl⟩ | ⟨-, graph, head', -, rfl⟩ <;> exact hbranch
  · refine ⟨head, ?_⟩
    rcases hcases with ⟨hanc, rfl⟩ | ⟨hanc, graph, head', hne, rfl⟩
    · rw [h.graph] at hanc
      exact ⟨head, hhead₀, hhead, iff_of_true rfl hanc⟩
    · rw [h.graph] at hanc
      refine ⟨head', hhead₀, ?_, iff_of_false hne hanc⟩
      show Function.update v.state.repo.refs v.state.repo.agent.branch _ integrationBranch = _
      rw [hbranch, Function.update_self]
  · rw [htrace]
    exact ⟨_, List.mem_append_right _ (List.mem_singleton_self _), rfl⟩
  · rw [htrace]
    refine forall_snoc (fun e he other hother => ?_) fun other hother => ?_
    · rw [h.unmerged e he] at hother
      cases hother
    · cases hother
      rfl
  · rw [htrace]
    exact forall_snoc h.late rfl

/-! ### The parts of a merge -/

theorem validateRecordedHead_before {record : TaskRecord} (h : BeforeMerge world locks v) :
    Merges (fun _ => BeforeMerge world locks) (fun _ => MergeFailed world task) v
      (validateRecordedHead record (.worktree task)) := by
  refine spec_orFail h.failed fun head _ => ?_
  refine before_act h rfl ⟨rfl, rfl⟩ fun reply v' hv' _ => spec_orFail hv'.failed fun _ _ => ?_
  refine before_act hv' rfl ⟨rfl, rfl⟩ fun reply v' hv' _ => spec_orFail hv'.failed fun _ _ => ?_
  exact spec_require hv'.failed fun _ => hv'

/-- What comes after the merge, up to the record. -/
theorem after_merge {record : TaskRecord} (h : AfterMerge world commit v) :
    Merges (fun mergeCommit v' => AfterMerge world commit v' ∧
        v'.state.repo.refs integrationBranch = some mergeCommit) (fun _ => MergeFailed world task) v (do
      let mergeCommit ← orFail (← act (.revParseHead .agent)) (.internal "git rev-parse")
      check (.worktreeRemove (.worktree task) false) id (.internal "git worktree")
      check (.branchDelete record.branch false) id (.internal "git branch")
      pure mergeCommit) := by
  refine spec_act (enabled_unlocking anyStep_tolerant rfl) fun reply v₁ halone₁ => ?_
  have hsame₁ : v₁.state = v.state := by
    obtain ⟨choice, state, -, hexec, rfl⟩ := halone₁
    exact exec_unchanged hexec rfl rfl
  cases reply with
  | none => exact h.failed halone₁ hsame₁ rfl rfl
  | some mergeCommit =>
    have hcommit : v.state.repo.refs integrationBranch = some mergeCommit := by
      obtain ⟨choice, state, -, hexec, -⟩ := halone₁
      rw [← h.branch]
      exact exec_revParseHead hexec
    have h₁ : AfterMerge world commit v₁ :=
      h.step halone₁ (by rw [hsame₁]) (by rw [hsame₁]) (by rw [hsame₁]) rfl rfl
    rw [← hsame₁] at hcommit
    refine spec_check (enabled_unlocking anyStep_tolerant rfl) ?_ ?_
    · rintro removed v₂ halone₂ (rfl : removed = false)
      refine h₁.failed halone₂ ?_ rfl rfl
      obtain ⟨choice, state, -, hexec, rfl⟩ := halone₂
      exact exec_unchanged hexec rfl rfl
    rintro removed v₂ halone₂ (rfl : removed = true)
    obtain ⟨htasks₂, hagent₂, hrefs₂⟩ : v₂.state.tasks = v₁.state.tasks ∧
        v₂.state.repo.agent = v₁.state.repo.agent ∧ v₂.state.repo.refs = v₁.state.repo.refs := by
      obtain ⟨choice, state, -, hexec, rfl⟩ := halone₂
      exact exec_worktreeRemove hexec
    have h₂ : AfterMerge world commit v₂ :=
      h₁.step halone₂ htasks₂ (by rw [hagent₂]) (by rw [hrefs₂]) rfl rfl
    rw [← hrefs₂] at hcommit
    refine spec_check (enabled_unlocking anyStep_tolerant rfl) ?_ ?_
    · rintro deleted v₃ halone₃ (rfl : deleted = false)
      refine h₂.failed halone₃ ?_ rfl rfl
      obtain ⟨choice, state, -, hexec, rfl⟩ := halone₃
      exact exec_unchanged hexec rfl rfl
    rintro deleted v₃ halone₃ (rfl : deleted = true)
    -- the integration branch is checked out, so it is another branch that has been deleted
    obtain ⟨htasks₃, hagent₃, hrefs₃⟩ : v₃.state.tasks = v₂.state.tasks ∧
        v₃.state.repo.agent = v₂.state.repo.agent ∧
        v₃.state.repo.refs v₂.state.repo.agent.branch = v₂.state.repo.refs v₂.state.repo.agent.branch := by
      obtain ⟨choice, state, -, hexec, rfl⟩ := halone₃
      exact exec_branchDelete hexec
    rw [h₂.branch] at hrefs₃
    refine ⟨h₂.step halone₃ htasks₃ (by rw [hagent₃]) hrefs₃ rfl rfl, ?_⟩
    rw [hrefs₃]
    exact hcommit

theorem mergeParallelWorktree_spec {record : TaskRecord} (h : BeforeMerge world locks v) :
    Merges (fun mergeCommit v' => ∃ commit, AfterMerge world commit v' ∧
        v'.state.repo.refs integrationBranch = some mergeCommit)
      (fun _ => MergeFailed world task) v (mergeParallelWorktree record (.worktree task)) := by
  refine before_ensureClean h fun v₁ h₁ => before_ensureClean h₁ fun v₂ h₂ => ?_
  refine (validateRecordedHead_before h₂).bind fun head v₃ h₃ => ?_
  refine before_check h₃ rfl ⟨rfl, rfl⟩ fun switched v₄ h₄ halone hok => ?_
  have hbranch : v₄.state.repo.agent.branch = integrationBranch := by
    obtain ⟨choice, state, -, hexec, rfl⟩ := halone
    exact exec_gitSwitch hok hexec
  refine spec_act (enabled_unlocking anyStep_tolerant rfl) ?_
  rintro (merged : Bool) v₅ halone₅
  cases merged with
  | true =>
    refine Spec.mono (after_merge (h₄.merge hbranch halone₅)) ?_ fun _ _ hfailed => hfailed
    exact fun _ _ hend => ⟨head, hend⟩
  | false =>
    have htrace := alone_trace halone₅
    obtain ⟨choice, state, -, hexec, rfl⟩ := halone₅
    obtain ⟨htasks, hrefs⟩ := exec_gitMerge_failed hexec
    refine spec_act (enabled_unlocking anyStep_tolerant rfl) fun reply v₆ halone₆ => ?_
    have htrace₆ := alone_trace halone₆
    obtain ⟨choice₆, state₆, -, hexec₆, rfl⟩ := halone₆
    obtain ⟨htasks₆, hrefs₆, -⟩ := exec_tame hexec₆ rfl
    refine failed_of_unmerged ((htasks₆.trans htasks).trans h₄.tasks)
      ((hrefs₆.trans hrefs).trans h₄.refs) ?_
    rw [htrace₆, htrace]
    exact forall_snoc (forall_snoc h₄.unmerged rfl) rfl

theorem mergeTaskLocked_spec {record : TaskRecord} (h : BeforeMerge world locks v) :
    Merges (MergeSucceeded world task) (fun _ => MergeFailed world task) v
      (mergeTaskLocked task record (.worktree task)) := by
  refine (mergeParallelWorktree_spec h).bind ?_
  rintro mergeCommit v₁ ⟨commit, h₁, hhead⟩
  refine spec_act (enabled_unlocking anyStep_tolerant rfl) fun now v₂ halone₂ => ?_
  have hsame₂ : v₂.state = v₁.state := by
    obtain ⟨choice, state, -, hexec, rfl⟩ := halone₂
    exact exec_unchanged hexec rfl rfl
  have h₂ : AfterMerge world commit v₂ :=
    h₁.step halone₂ (by rw [hsame₂]) (by rw [hsame₂]) (by rw [hsame₂]) rfl rfl
  rw [← hsame₂] at hhead
  refine spec_check (enabled_unlocking anyStep_tolerant rfl) ?_ ?_
  · rintro written v₃ halone₃ (rfl : written = false)
    refine h₂.failed halone₃ ?_ rfl rfl
    obtain ⟨choice, state, -, hexec, rfl⟩ := halone₃
    exact exec_unchanged hexec rfl rfl
  rintro written v₃ halone₃ (rfl : written = true)
  have htrace := alone_trace halone₃
  obtain ⟨choice, state, -, hexec, rfl⟩ := halone₃
  obtain rfl := exec_writeRecord hexec
  refine ⟨⟨rfl, AList.lookup_insert .., rfl, hhead⟩, fun e he other hother hlate => ?_⟩
  obtain ⟨e', he', hfails⟩ := hlate
  rw [htrace] at he'
  rw [forall_snoc h₂.late rfl e' he'] at hfails
  cases hfails

theorem loadTask_before {project : Name} (h : BeforeMerge world locks v) :
    Merges (fun value v' => BeforeMerge world locks v' ∧ world.tasks.lookup task = some value.1 ∧
        value.2 = workspaceOf task value.1)
      (fun _ => MergeFailed world task) v (loadTask project task) := by
  refine before_check h rfl ⟨rfl, rfl⟩ fun _ v₁ h₁ _ _ => ?_
  refine before_act h₁ rfl ⟨rfl, rfl⟩ fun reply v₂ h₂ halone => ?_
  have hread : reply = world.tasks.lookup task := by
    obtain ⟨choice, state, -, hexec, -⟩ := halone
    rw [← h₁.tasks]
    exact exec_readRecord hexec
  refine spec_orFail h₂.failed fun record hrecord => ?_
  refine spec_require h₂.failed fun _ => spec_require h₂.failed fun _ => ?_
  refine before_check h₂ rfl ⟨rfl, rfl⟩ fun _ v₃ h₃ _ _ => ?_
  exact ⟨h₃, hread.symm.trans hrecord, rfl⟩

/-- A lock that is free is taken. -/
theorem BeforeMerge.acquire {lock : Name} (h : BeforeMerge world locks v)
    (halone : machine.alone anyStep 0 v (.acquire lock false) () v') :
    BeforeMerge world (⟨0, lock, false⟩ :: locks) v' := by
  have htrace := alone_trace halone
  obtain ⟨choice, state, -, hexec, rfl⟩ := halone
  obtain ⟨htasks, hrefs, hgraph⟩ := exec_tame hexec rfl
  have hlocks := fileLocks.exec_acquires rfl hexec
  obtain ⟨-, hlocks⟩ := LockTable.acquire_eq_some_iff.mp hlocks
  refine ⟨htasks.trans h.tasks, hrefs.trans h.refs, hgraph.trans h.graph, ?_, ?_, ?_⟩
  · exact hlocks.trans (congrArg _ h.locks)
  · rw [htrace]
    exact forall_snoc h.unmerged rfl
  · rw [htrace]
    exact forall_snoc h.late rfl

/-- Giving back a lock changes nothing that counts. -/
theorem mergeKept_release {lock : Name} {i : Nat} {trace : History} :
    MergeKept world (trace ++ [⟨i, .release lock, ()⟩]) ↔ MergeKept world trace := by
  constructor
  · rintro hkept e he commit hcommit ⟨e', he', hfails⟩
    exact hkept e (List.mem_append_left _ he) commit hcommit
      ⟨e', List.mem_append_left _ he', hfails⟩
  · rintro hkept e he commit hcommit ⟨e', he', hfails⟩
    rcases List.mem_append.mp he with he | he
    · rcases List.mem_append.mp he' with he' | he'
      · exact hkept e he commit hcommit ⟨e', he', hfails⟩
      · rw [List.mem_singleton.mp he'] at hfails
        cases hfails
    · rw [List.mem_singleton.mp he] at hcommit
      cases hcommit

theorem MergeSucceeded.release {lock : Name} {record : TaskRecord}
    (halone : machine.alone anyStep 0 v (.release lock) () v')
    (h : MergeSucceeded world task record v) : MergeSucceeded world task record v' := by
  have htrace := alone_trace halone
  obtain ⟨choice, state, -, hexec, rfl⟩ := halone
  obtain ⟨htasks, hrefs, -⟩ := exec_tame hexec rfl
  obtain ⟨⟨hstatus, hrecorded, hcommit, hhead⟩, hmerge⟩ := h
  refine ⟨⟨hstatus, htasks ▸ hrecorded, hcommit, hrefs ▸ hhead⟩, ?_⟩
  rw [htrace]
  exact mergeKept_release.mpr hmerge

theorem MergeFailed.release {lock : Name} (halone : machine.alone anyStep 0 v (.release lock) () v')
    (h : MergeFailed world task v) : MergeFailed world task v' := by
  have htrace := alone_trace halone
  obtain ⟨choice, state, -, hexec, rfl⟩ := halone
  obtain ⟨htasks, hrefs, -⟩ := exec_tame hexec rfl
  have hrestores : Restores world task state ↔ Restores world task v.state := by
    constructor
    · rintro ⟨hrecorded, hhead⟩
      exact ⟨htasks ▸ hrecorded, hrefs ▸ hhead⟩
    · rintro ⟨hrecorded, hhead⟩
      exact ⟨htasks ▸ hrecorded, hrefs ▸ hhead⟩
  unfold MergeFailed
  rw [htrace]
  exact (hrestores.trans h).trans mergeKept_release.symm

theorem lockOne_merges {lock : Name} {body : Op TaskRecord} (h : BeforeMerge world locks v)
    (hfree : locks.grants lock false = true)
    (hbody : ∀ v', BeforeMerge world (⟨0, lock, false⟩ :: locks) v' →
      Merges (MergeSucceeded world task) (fun _ => MergeFailed world task) v' body) :
    Merges (MergeSucceeded world task) (fun _ => MergeFailed world task) v (lockOne lock false body) := by
  refine spec_lockOne ?_ (fun v' halone => hbody v' (h.acquire halone)) ?_ ?_
  · refine enabled_acquire anyStep_tolerant ?_
    rw [h.locks]
    exact hfree
  · intro record v' hsucceeded
    exact ⟨enabled_unlocking anyStep_tolerant rfl, fun v'' halone => hsucceeded.release halone⟩
  · intro error v' hfailed
    exact ⟨enabled_unlocking anyStep_tolerant rfl, fun v'' halone => hfailed.release halone⟩

/-- A merge of a task that is not called `integration` always comes to an end, and fails or succeeds
as said. -/
theorem taskMerge_spec {project : Name} (h : BeforeMerge world [] v) (hreserved : world.Reserved) :
    Merges (MergeSucceeded world task) (fun _ => MergeFailed world task) v (taskMerge project task) := by
  refine (loadTask_before h).bind ?_
  rintro ⟨record, workspace⟩ v₁ ⟨h₁, hrecord, hselected⟩
  refine spec_require h₁.failed fun hok => ?_
  simp only [Bool.and_eq_true, decide_eq_true_eq] at hok
  obtain ⟨hparallel, hcompleted⟩ := hok
  obtain rfl : workspace = .worktree task := by
    simpa [workspaceOf, hparallel, hcompleted] using hselected
  have hne : task ≠ integrationLock := (hreserved.stored task record hrecord hparallel).1
  refine lockOne_merges h₁ rfl fun v₂ h₂ => lockOne_merges h₂ ?_ fun v₃ h₃ => ?_
  · simp [LockTable.grants, Ne.symm hne]
  · exact mergeTaskLocked_spec h₃

end

section

variable {project task : Name} {world : World} {c : Pool}

/-- A merge that is served alone changes all or nothing exactly when no step fails after a merge that
has moved the integration branch. -/
theorem merge_atomic_iff (hidle : world.Idle) (hreserved : world.Reserved)
    (hrun : machine.Reaches (anyStep.only 0) (pool project (fun _ => .taskMerge task) world) c)
    (hfinal : machine.Final anyStep 0 c) :
    MergeAtomic world task c ↔ MergeKept world c.trace := by
  have hbefore : BeforeMerge world [] (pool project (fun _ => .taskMerge task) world).view :=
    ⟨rfl, rfl, rfl, hidle.locks, (fun _ hmem => nomatch hmem), fun _ hmem => nomatch hmem⟩
  have hspec : Merges (fun outcome v => ∃ record, outcome = .record record ∧
      MergeSucceeded world task record v) (fun _ => MergeFailed world task)
      (pool project (fun _ => .taskMerge task) world).view
      ((pool project (fun _ => .taskMerge task) world).programs 0) :=
    (taskMerge_spec hbefore hreserved).bind fun record v hend => ⟨record, rfl, hend⟩
  rcases hspec.ended_of_final (fun _ _ henabled => henabled) hrun hfinal with
    ⟨outcome, hret, record, rfl, hintegrates, hkept⟩ | ⟨error, hfail, hfailed⟩
  · exact iff_of_true (Or.inl ⟨record, hret, hintegrates⟩) hkept
  · refine Iff.trans ?_ hfailed
    constructor
    · rintro (⟨record, hret, -⟩ | ⟨error', -, hrestores⟩)
      · rw [hfail] at hret
        cases hret
      · exact hrestores
    · intro hrestores
      exact Or.inr ⟨error, hfail, hrestores⟩

end

theorem merge_atomic_iff_example :
    ∃ c, machine.Reaches (anyStep.only 0)
        (pool exampleProject (fun _ => .taskMerge exampleTask) parallelProject) c ∧
      c.programs 0 = .ret (.record (exampleCompleted.merge 2 2)) ∧
      (MergeAtomic parallelProject exampleTask c ↔ MergeKept parallelProject c.trace) := by
  have hvalue : (machine.run (fun _ j _ _ => j = 0)
      (pool exampleProject (fun _ => .taskMerge exampleTask) parallelProject)
      (goes 0 14 ++ [(0, .clock 2)] ++ goes 0 3)).map (fun c =>
        (c.programs 0).value?.bind Outcome.record?) = some (some (exampleCompleted.merge 2 2)) := by
    decide +kernel
  obtain ⟨c, hrun, hc⟩ := Machine.exists_of_guarded_run only_thread hvalue
  have hret := Outcome.record?_value hc
  exact ⟨c, hrun, hret, merge_atomic_iff parallelProject_idle parallelProject_reserved hrun
    (Machine.final_of_ended (by simp [hret]))⟩

/-- The branch has been merged when the removal of the worktree fails: the request is answered
with an error, the integration branch has moved, and the record still says `completed`. -/
theorem merge_left_unrecorded :
    ∃ c, machine.Reaches (anyStep.only 0)
        (pool exampleProject (fun _ => .taskMerge exampleTask) parallelProject) c ∧
      (∃ error, c.programs 0 = .fail error) ∧
      parallelProject.repo.refs integrationBranch = some 0 ∧
      c.state.repo.refs integrationBranch = some 2 ∧
      c.state.tasks.lookup exampleTask = some exampleCompleted ∧
      ¬MergeAtomic parallelProject exampleTask c := by
  have hvalue : (machine.run (fun _ j _ _ => j = 0)
      (pool exampleProject (fun _ => .taskMerge exampleTask) parallelProject)
      (goes 0 12 ++ [(0, .fault)] ++ goes 0 2)).map (fun c =>
        ((c.programs 0).error?, c.state.repo.refs integrationBranch,
          c.state.tasks.lookup exampleTask)) =
      some (some (.internal "git worktree"), some 2, some exampleCompleted) := by
    decide +kernel
  obtain ⟨c, hrun, hc⟩ := Machine.exists_of_guarded_run only_thread hvalue
  simp only [Prod.mk.injEq, Program.error?_eq_some_iff] at hc
  obtain ⟨hfail, hhead, hrecord⟩ := hc
  refine ⟨c, hrun, ⟨_, hfail⟩, rfl, hhead, hrecord, ?_⟩
  rintro (⟨record, hret, -⟩ | ⟨error, -, hrestores⟩)
  · rw [hfail] at hret
    cases hret
  · have heq := hrestores.head
    rw [hhead] at heq
    cases heq

end AgentDev
