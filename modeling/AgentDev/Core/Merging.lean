import AgentDev.Core.Runs

/-!
# Merging and aborting a parallel task

`task-merge` and `task-abort` both check a record that they have read before they take their
locks. A late merge or completion is stopped by the worktree, which the first merge has
removed; a late abort skips what is gone already, and records the merged task as aborted
(`merged_task_aborted`). When no merge writes between the read of an abort and its write, a
merged task stays merged (`merged_kept_iff`).
-/

namespace AgentDev

open Interleaving

section

variable {project : Name} {requests : Nat → Request} {world : World}
  {guard : Guard Action.Reply World Choice} {c c' c₁ c₂ : Pool} {e : Event Action.Reply}
  {task : Name} {record : TaskRecord}

/-- The record that an event writes for a merge of `task`. -/
def mergeWrites (requests : Nat → Request) (task : Name) (e : Event Action.Reply) :
    Option TaskRecord :=
  if requests e.thread = .taskMerge task then writes task e else none

theorem mergeWrites_eq_some_iff :
    mergeWrites requests task e = some record ↔
      requests e.thread = .taskMerge task ∧ writes task e = some record := by
  simp [mergeWrites]

/-- In the run from `c₀` to `c`, what a merge has written has stayed, and so has what it has
returned. -/
structure MergedKept (requests : Nat → Request) (task : Name) (c₀ c : Pool) : Prop where
  kept : ∀ c₁ e c₂ c₃ record, machine.Reaches anyStep c₀ c₁ → machine.Step anyStep e c₁ c₂ →
    machine.Reaches anyStep c₂ c₃ → machine.Reaches anyStep c₃ c →
    mergeWrites requests task e = some record → c₃.state.tasks.lookup task = some record
  returned : ∀ c₁ i record, requests i = .taskMerge task → machine.Reaches anyStep c₀ c₁ →
    c₁.programs i = .ret (.record record) →
    record.status = .merged ∧ record.mergeCommit.isSome = true ∧
      ∀ c₂, machine.Reaches anyStep c₁ c₂ → machine.Reaches anyStep c₂ c →
        c₂.state.tasks.lookup task = some record

/-- No merge of the task writes between the read of an abort and its write. -/
def AbortsApart (requests : Nat → Request) (task : Name) (trace : List (Event Action.Reply)) :
    Prop :=
  ∀ before e after, trace = before ++ e :: after → requests e.thread = .taskAbort task →
    (writes task e).isSome = true →
    ∀ e' ∈ since (reads e.thread task) before, mergeWrites requests task e' = none

/-! ## Without starts, a worktree that is gone stays gone -/

theorem worktree_gone_mono
    (hstart : ∀ i parallel dependencies, requests i ≠ .taskStart task parallel dependencies)
    (h₁ : machine.Reaches guard (pool project requests world) c₁)
    (h : machine.Reaches guard c₁ c₂) (hgone : c₁.state.hasWorktree task = false) :
    c₂.state.hasWorktree task = false := by
  induction h with
  | refl => exact hgone
  | @step c c' e hreach hstep ih =>
    rw [step_hasWorktree hstep]
    have hallowed := step_allowed (h₁.trans hreach) hstep
    obtain ⟨i, action, reply⟩ := e
    cases action with
    | worktreeAdd branch added =>
      obtain ⟨-, -, -, dependencies, hrequest⟩ := hallowed.licence
      have hne : added ≠ task := by
        rintro rfl
        exact hstart _ _ _ hrequest
      cases (reply : Addition) <;> simp [Action.worktreeAfter, ih, hne]
    | worktreeRemove workspace force =>
      cases workspace <;> cases (reply : Bool) <;> simp [Action.worktreeAfter, ih]
    | _ => exact ih

/-- What a merge writes is a merged record, and its worktree is gone. -/
theorem merge_write
    (hstart : ∀ i parallel dependencies, requests i ≠ .taskStart task parallel dependencies)
    (hrun : machine.Reaches guard (pool project requests world) c)
    (hstep : machine.Step guard e c c') (hwrites : mergeWrites requests task e = some record) :
    record.status = .merged ∧ record.mergeCommit.isSome = true ∧
      c'.state.hasWorktree task = false := by
  obtain ⟨hrequest, hwrites⟩ := mergeWrites_eq_some_iff.mp hwrites
  obtain ⟨-, hwrite⟩ := step_write hrun hstep hwrites
  rw [hrequest] at hwrite
  cases hwrite with
  | merge old hwrite =>
    obtain ⟨h₁, h₂, head, mergeCommit, now, hlocked, -, -, -, hremove, rfl⟩ := hwrite.locked
    refine ⟨rfl, rfl, ?_⟩
    have hmem : ⟨e.thread, .worktreeRemove (.worktree task) false, true⟩ ∈ own e.thread c.trace := by
      rw [hlocked.split]
      exact List.mem_append_right _ hremove
    obtain ⟨d, d', -, hrund, hstepd, hrest, -⟩ := hrun.split_of_mem rfl (mem_own.mp hmem).1
    refine worktree_gone_mono hstart (hrund.step hstepd) (hrest.step hstep) ?_
    rw [step_hasWorktree hstepd]
    simp [Action.worktreeAfter]

theorem merged_worktree_gone
    (hstart : ∀ i parallel dependencies, requests i ≠ .taskStart task parallel dependencies)
    (hrun : machine.Reaches guard (pool project requests world) c) (hmem : e ∈ c.trace)
    (hwrites : mergeWrites requests task e = some record) :
    c.state.hasWorktree task = false := by
  obtain ⟨d, d', -, hrund, hstepd, hrest, -⟩ := hrun.split_of_mem rfl hmem
  exact worktree_gone_mono hstart (hrund.step hstepd) hrest (merge_write hstart hrund hstepd hwrites).2.2

/-- Who sees the worktree under the lock of the task comes before every merge. -/
theorem unmerged_of_gitStatus (hidle : world.Idle)
    (hstart : ∀ i parallel dependencies, requests i ≠ .taskStart task parallel dependencies)
    (hrun : machine.Reaches guard (pool project requests world) c) {i : Nat} {locks : List Name}
    {h₁ h₂ : History} (hlocked : Locked locks (own i c.trace) h₁ h₂) (hlock : task ∈ locks)
    (hunwritten : Unwritten (own i c.trace)) {dirty : Bool}
    (hstatus : ⟨i, .gitStatus (.worktree task), some dirty⟩ ∈ h₂) :
    ∀ e ∈ c.trace, mergeWrites requests task e = none := by
  obtain ⟨c₁, c₂, hrun₁, hstep, -, -, hkeep⟩ := since_event hidle hrun hlocked hlock hstatus
  let I : Pool → Prop := fun c => ∀ e ∈ c.trace, mergeWrites requests task e = none
  have hsnoc : ∀ c e c', machine.Step guard e c c' → mergeWrites requests task e = none → I c → I c' := by
    intro d e d' hstepd hnone hI e' he'
    rw [hstepd.trace_eq] at he'
    rcases List.mem_append.mp he' with he' | he'
    · exact hI e' he'
    · rw [List.mem_singleton.mp he']
      exact hnone
  refine hkeep I ?_ ?_ ?_
  · intro d e d' he _ hstepd hI
    refine hsnoc d e d' hstepd ?_ hI
    by_contra hne
    obtain ⟨written, hwrites⟩ := Option.ne_none_iff_exists'.mp hne
    have hevent := writes_eq_some_iff.mp (mergeWrites_eq_some_iff.mp hwrites).2
    have hmem : e ∈ own i c.trace := by
      rw [hlocked.split]
      exact List.mem_append_right _ he
    exact hunwritten e hmem task written (congrArg Event.action hevent)
  · intro d e d' _ hfree hrund hstepd hI
    refine hsnoc d e d' hstepd ?_ hI
    by_contra hne
    obtain ⟨written, hwrites⟩ := Option.ne_none_iff_exists'.mp hne
    obtain ⟨hrequest, hwrites⟩ := mergeWrites_eq_some_iff.mp hwrites
    obtain ⟨-, hwrite⟩ := step_write hrund hstepd hwrites
    rw [hrequest] at hwrite
    cases hwrite with
    | merge old hwrite =>
      obtain ⟨g₁, g₂, _, _, _, hlocked', -⟩ := hwrite.locked
      exact hfree false (hlocked'.held_now (by simp))
  · refine hsnoc c₁ _ c₂ hstep (by simp [mergeWrites, writes]) ?_
    intro e he
    by_contra hne
    obtain ⟨written, hwrites⟩ := Option.ne_none_iff_exists'.mp hne
    have hgone := merged_worktree_gone hstart hrun₁ he hwrites
    rw [step_gitStatus hstep] at hgone
    cases hgone

/-! ## A merged record stays -/

/-- After a merge has written, nobody else writes: a late completion or merge finds no worktree,
and a late abort has read the merged record. -/
theorem merged_not_written (hidle : world.Idle)
    (hstart : ∀ i parallel dependencies, requests i ≠ .taskStart task parallel dependencies)
    (hmode : ∀ r, world.tasks.lookup task = some r → r.mode = .parallel)
    (hrun : machine.Reaches anyStep (pool project requests world) c)
    (hstep : machine.Step anyStep e c c') {merged : Event Action.Reply}
    (hmem : merged ∈ c.trace) (hmerged : mergeWrites requests task merged = some record)
    (hread : ∀ old, requests e.thread = .taskAbort task →
      ⟨e.thread, .readRecord task, some old⟩ ∈ own e.thread c.trace → old.status = .merged) :
    writes task e = none := by
  by_contra hne
  obtain ⟨written, hwrites⟩ := Option.ne_none_iff_exists'.mp hne
  obtain ⟨hunwritten, hwrite⟩ := step_write hrun hstep hwrites
  have hunmerged : ∀ locks h₁ h₂, Locked locks (own e.thread c.trace) h₁ h₂ → task ∈ locks →
      ⟨e.thread, .gitStatus (.worktree task), some false⟩ ∉ h₂ := by
    intro locks h₁ h₂ hlocked hlock hstatus
    have hnone := unmerged_of_gitStatus hidle hstart hrun hlocked hlock hunwritten hstatus merged hmem
    rw [hmerged] at hnone
    cases hnone
  generalize hrequest : requests e.thread = request at hwrite
  cases hwrite with
  | start parallel dependencies => exact hstart _ _ _ hrequest
  | complete old hwrite =>
    obtain ⟨first, hfirst, hold⟩ := (mode_kept hstart hrun).read _ old (mem_own.mp hwrite.read).1
    have hparallel : old.mode = .parallel := hold.trans (hmode first hfirst)
    obtain ⟨h₁, h₂, head, now, hlocked, hstatus, -⟩ := hwrite.locked
    have hworkspace : workspaceOf task old = .worktree task := by
      simp [workspaceOf, hparallel, hwrite.active]
    rw [hworkspace] at hstatus
    exact hunmerged _ h₁ h₂ hlocked (by simp [taskLockName, hparallel]) hstatus
  | merge old hwrite =>
    obtain ⟨h₁, h₂, head, mergeCommit, now, hlocked, -, hstatus, -⟩ := hwrite.locked
    exact hunmerged _ h₁ h₂ hlocked (by simp) hstatus
  | abort old hwrite =>
    have hstatus := hread old hrequest hwrite.read
    rcases hwrite.pending with hpending | hpending <;> rw [hstatus] at hpending <;> cases hpending

/-- What a merge has written stays, and is what all later reads see. -/
theorem merged_stays (hidle : world.Idle)
    (hstart : ∀ i parallel dependencies, requests i ≠ .taskStart task parallel dependencies)
    (hmode : ∀ r, world.tasks.lookup task = some r → r.mode = .parallel)
    (hrun : machine.Reaches anyStep (pool project requests world) c)
    (hstep : machine.Step anyStep e c c₁) (hmerged : mergeWrites requests task e = some record)
    (hrest : machine.Reaches anyStep c₁ c₂) (hapart : AbortsApart requests task c₂.trace) :
    ∃ events, c₂.trace = c.trace ++ e :: events ∧ c₂.state.tasks.lookup task = some record ∧
      ∀ i old, ⟨i, .readRecord task, some old⟩ ∈ events → old = record := by
  induction hrest with
  | refl =>
    refine ⟨[], hstep.trace_eq, ?_, fun i old hmem => nomatch hmem⟩
    rw [step_lookup hstep, (mergeWrites_eq_some_iff.mp hmerged).2]
    rfl
  | @step d d' e' hreach hstepd ih =>
    have htrace' := hstepd.trace_eq
    obtain ⟨events, htrace, hlookup, hreads⟩ := ih fun before f after hsplit =>
      hapart before f (after ++ [e']) (by rw [htrace', hsplit]; simp)
    have hrund := (hrun.step hstep).trans hreach
    have hnot : writes task e' = none := by
      by_contra hne
      have hmem : e ∈ d.trace := by simp [htrace]
      refine hne (merged_not_written hidle hstart hmode hrund hstepd hmem hmerged ?_)
      -- an abort that writes has read after the merge has written
      intro old hrequest hread
      have hne' : e ≠ ⟨e'.thread, .readRecord task, some old⟩ := by
        rintro rfl
        simp [mergeWrites, writes] at hmerged
      rcases mem_since_or_mem (p := reads e'.thread task) htrace (mem_own.mp hread).1
        (by simp [reads]) hne' with hsince | hmem
      · have hno := hapart d.trace e' [] htrace' hrequest (Option.isSome_iff_ne_none.mpr hne) e hsince
        rw [hmerged] at hno
        cases hno
      · rw [hreads _ old hmem]
        exact (merge_write hstart hrun hstep hmerged).1
    refine ⟨events ++ [e'], by rw [htrace', htrace]; simp, ?_, ?_⟩
    · rw [step_lookup_of_not_writes hstepd hnot]
      exact hlookup
    · intro i old hmem
      rcases List.mem_append.mp hmem with hmem | hmem
      · exact hreads i old hmem
      · rw [← List.mem_singleton.mp hmem] at hstepd
        have hold := step_readRecord hstepd
        rw [hlookup] at hold
        exact Option.some.inj hold

/-- Merged records stay exactly when no merge writes between the read and the write of an abort. -/
theorem merged_kept_iff (hidle : world.Idle)
    (hstart : ∀ i parallel dependencies, requests i ≠ .taskStart task parallel dependencies)
    (hmode : ∀ r, world.tasks.lookup task = some r → r.mode = .parallel)
    (hrun : machine.Reaches anyStep (pool project requests world) c) :
    MergedKept requests task (pool project requests world) c ↔
      AbortsApart requests task c.trace := by
  constructor
  · intro hkept before e after htrace hrequest hwrites e' he'
    by_contra hne
    obtain ⟨merged, hmerged⟩ := Option.ne_none_iff_exists'.mp hne
    obtain ⟨aborted, haborted⟩ := Option.isSome_iff_exists.mp hwrites
    obtain ⟨first, middle, hsplit⟩ := split_of_mem_since_before htrace he'
    obtain ⟨d₁, d₂, c₁, c₂, hrund, hstepd, hrestd, -, hstep, hrest⟩ := hrun.at_events rfl hsplit
    have hrun₁ := (hrund.step hstepd).trans hrestd
    have hlookup := hkept.kept d₁ e' d₂ c₂ merged hrund hstepd (hrestd.step hstep) hrest hmerged
    rw [step_lookup hstep, haborted] at hlookup
    obtain rfl : aborted = merged := Option.some.inj hlookup
    have hstatus := (merge_write hstart hrund hstepd hmerged).1
    obtain ⟨-, hwrite⟩ := step_write hrun₁ hstep haborted
    rw [hrequest] at hwrite
    cases hwrite with
    | abort old hwrite =>
      obtain ⟨h₁, h₂, now, -, -, rfl⟩ := hwrite.locked
      cases hstatus
  · intro hapart
    have hearlier : ∀ c₁, machine.Reaches anyStep c₁ c → AbortsApart requests task c₁.trace := by
      intro c₁ hrest before e after htrace
      obtain ⟨tail, htail⟩ := hrest.trace_prefix
      exact hapart before e (after ++ tail) (by rw [htail, htrace]; simp)
    have hkept : ∀ c₁ e c₂ c₃ record, machine.Reaches anyStep (pool project requests world) c₁ →
        machine.Step anyStep e c₁ c₂ → machine.Reaches anyStep c₂ c₃ →
        machine.Reaches anyStep c₃ c → mergeWrites requests task e = some record →
        c₃.state.tasks.lookup task = some record := by
      intro c₁ e c₂ c₃ record hrun₁ hstep hrest hrest' hmerged
      obtain ⟨_, -, hlookup, -⟩ := merged_stays hidle hstart hmode hrun₁ hstep hmerged hrest
        (hearlier c₃ hrest')
      exact hlookup
    refine ⟨hkept, fun c₁ i record hrequest hrun₁ hret => ?_⟩
    have hmem := written_of_ret hrun₁ (Or.inr (Or.inl hrequest)) hret
    have hmerged : mergeWrites requests task ⟨i, .writeRecord task record, true⟩ = some record :=
      mergeWrites_eq_some_iff.mpr ⟨hrequest, writes_eq_some_iff.mpr rfl⟩
    obtain ⟨d₁, d₂, -, hrund, hstepd, hrestd, -⟩ := hrun₁.split_of_mem rfl hmem
    obtain ⟨hstatus, hcommit, -⟩ := merge_write hstart hrund hstepd hmerged
    exact ⟨hstatus, hcommit, fun c₂ hreach hrest =>
      hkept d₁ _ d₂ c₂ record hrund hstepd (hrestd.trans hreach) hrest hmerged⟩

end

/-- Request 0 merges the task, request 1 aborts it, and the others complete it. -/
def exampleMerges : Nat → Request
  | 0 => .taskMerge exampleTask
  | 1 => .taskAbort exampleTask
  | _ => .taskComplete exampleTask

theorem exampleMerges_noStarts (i : Nat) (parallel : Bool) (dependencies : List Name) :
    exampleMerges i ≠ .taskStart exampleTask parallel dependencies := by
  unfold exampleMerges
  split <;> simp

theorem parallelProject_parallel :
    ∀ r, parallelProject.tasks.lookup exampleTask = some r → r.mode = .parallel := by
  intro r hr
  cases hr
  rfl

/-- The abort reads the completed record; then the merge integrates the task and returns; then
the abort finds nothing to remove, and records the task as aborted. -/
theorem merged_task_aborted :
    ∃ (c c' : Pool) (merged aborted : TaskRecord),
      machine.Reaches anyStep (pool exampleProject exampleMerges parallelProject) c ∧
      c.programs 0 = .ret (.record merged) ∧ merged.status = .merged ∧
      merged.mergeCommit = some 2 ∧ machine.Reaches anyStep c c' ∧
      c'.programs 1 = .ret (.record aborted) ∧ aborted.status = .aborted ∧
      c'.state.tasks.lookup exampleTask = some aborted ∧
      c'.state.repo.refs integrationBranch = some 2 ∧
      c'.state.repo.graph.isAncestor 1 2 = true := by
  have hrun : ((machine.run (fun _ _ _ _ => true)
      (pool exampleProject exampleMerges parallelProject)
      (goes 1 3 ++ goes 0 14 ++ [(0, .clock 2)] ++ goes 0 3)).map fun c =>
        ((c.programs 0).value?.bind Outcome.record?,
          (machine.run (fun _ _ _ _ => true) c (goes 1 4 ++ [(1, .clock 3)] ++ goes 1 3)).map
            fun c' => ((c'.programs 1).value?.bind Outcome.record?,
              decide (c'.state.tasks.lookup exampleTask = some (exampleCompleted.abort 3) ∧
                c'.state.repo.refs integrationBranch = some 2 ∧
                c'.state.repo.graph.isAncestor 1 2 = true)))) =
      some (some (exampleCompleted.merge 2 2), some (some (exampleCompleted.abort 3), true)) := by
    decide +kernel
  obtain ⟨c, hreaches, hvalue⟩ := Machine.exists_of_run hrun
  simp only [Prod.mk.injEq] at hvalue
  obtain ⟨c', hreaches', hvalue'⟩ := Machine.exists_of_run hvalue.2
  simp only [Prod.mk.injEq, decide_eq_true_eq] at hvalue'
  exact ⟨c, c', _, _, hreaches, Outcome.record?_value hvalue.1, rfl, rfl, hreaches',
    Outcome.record?_value hvalue'.1, rfl, hvalue'.2⟩

theorem merged_kept_iff_example :
    ∃ (c : Pool) (merged : TaskRecord),
      machine.Reaches anyStep (pool exampleProject exampleMerges parallelProject) c ∧
      c.programs 0 = .ret (.record merged) ∧
      (MergedKept exampleMerges exampleTask (pool exampleProject exampleMerges parallelProject) c ↔
        AbortsApart exampleMerges exampleTask c.trace) := by
  have hrun : ((machine.run (fun _ _ _ _ => true)
      (pool exampleProject exampleMerges parallelProject)
      (goes 0 14 ++ [(0, .clock 2)] ++ goes 0 3)).map fun c =>
        (c.programs 0).value?.bind Outcome.record?) =
      some (some (exampleCompleted.merge 2 2)) := by
    decide +kernel
  obtain ⟨c, hreaches, hvalue⟩ := Machine.exists_of_run hrun
  exact ⟨c, _, hreaches, Outcome.record?_value hvalue, merged_kept_iff parallelProject_idle
    exampleMerges_noStarts parallelProject_parallel hreaches⟩

end AgentDev
