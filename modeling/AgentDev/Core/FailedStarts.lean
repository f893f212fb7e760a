import AgentDev.Core.Attempts

/-!
# Starts that fail

A parallel `task-start` creates the branch and the worktree of its task in one Git command, and then
writes the record. Nothing takes back the branch when Git fails after it has created it, or the
branch and the worktree when the write fails: the name is used up, since a later start of it is
rejected because of what was left (`branch_left_behind`, `start_left_unrecorded`). These are the only
ways in which a start leaves something behind (`start_atomic_iff`).
-/

namespace AgentDev

open Interleaving

/-! ## What a failing start leaves behind -/

/-- Neither the branch nor the worktree nor the record of the task exists. -/
structure Absent (task : Name) (world : World) : Prop where
  branch : world.hasBranch (taskBranch task) = false
  worktree : world.hasWorktree task = false
  record : world.tasks.lookup task = none

/-- The branch, the worktree and the record of the task exist. -/
structure Present (task : Name) (record : TaskRecord) (world : World) : Prop where
  name : record.branch = taskBranch task
  branch : world.hasBranch record.branch = true
  worktree : world.hasWorktree task = true
  record : world.tasks.lookup task = some record

/-- The start has succeeded with all three, or has failed with none of them. -/
def StartAtomic (task : Name) (c : Pool) : Prop :=
  (∃ record, c.programs 0 = .ret (.record record) ∧ Present task record c.state) ∨
    ∃ error, c.programs 0 = .fail error ∧ Absent task c.state

/-- A record could not be written, or `git worktree add` has failed after it has created the branch. -/
def leavesBehind (e : Event Action.Reply) : Bool :=
  match e with
  | ⟨_, .writeRecord _ _, (false : Bool)⟩ => true
  | ⟨_, .worktreeAdd _ _, Addition.branchLeft⟩ | ⟨_, .worktreeAdd _ _, Addition.bothLeft⟩ => true
  | _ => false

/-- The name is new, and neither does `git worktree add` fail after it has created the branch, nor the
write of the record when it comes to it. -/
structure StartKept (world : World) (task : Name) (trace : History) : Prop where
  absent : Absent task world
  written : ∀ e ∈ trace, leavesBehind e = false

theorem absent_iff {task : Name} {world : World} :
    Absent task world ↔ taskBranch task ∉ world.ledger.branches ∧
      task ∉ world.ledger.worktrees ∧ world.ledger.records task = none := by
  constructor
  · rintro ⟨hbranch, hworktree, hrecord⟩
    exact ⟨fun h => Bool.false_ne_true (hbranch.symm.trans h),
      fun h => Bool.false_ne_true (hworktree.symm.trans h), hrecord⟩
  · rintro ⟨hbranch, hworktree, hrecord⟩
    exact ⟨Bool.eq_false_iff.mpr hbranch, Bool.eq_false_iff.mpr hworktree, hrecord⟩

theorem absent_congr {task : Name} {world world' : World} (h : world'.ledger = world.ledger) :
    Absent task world' ↔ Absent task world := by
  rw [absent_iff, absent_iff, h]

/-! ## A start that is served alone -/

/-- How a start ends when it fails. -/
def StartFailed (world : World) (task : Name) (v : WorldView) : Prop :=
  Absent task v.state ↔ StartKept world task v.trace

/-- How a start ends when it succeeds. -/
def StartSucceeded (world : World) (task : Name) (record : TaskRecord) (v : WorldView) : Prop :=
  Present task record v.state ∧ StartKept world task v.trace

/-- What a start does, when every step that it comes to can happen. -/
abbrev Starts {α : Type} (world : World) (task : Name) (Q : α → WorldView → Prop) (v : WorldView)
    (body : Op α) : Prop :=
  Does anyStep Q (StartFailed world task) v body

/-- Nothing has been created. -/
abbrev NotStarted (world : World) (locks : LockTable Name) : WorldView → Prop :=
  Untouched leavesBehind world.ledger locks

/-- The branch and the worktree of the task have been created. -/
abbrev HalfStarted (world : World) (task : Name) (locks : LockTable Name) : WorldView → Prop :=
  Untouched leavesBehind
    { world.ledger with
      worktrees := insert task world.ledger.worktrees
      branches := insert (taskBranch task) world.ledger.branches } locks

theorem overlooks_leavesBehind : Overlooks leavesBehind := by
  intro i action reply hsilent
  cases action with
  | writeRecord => exact hsilent.elim
  | worktreeAdd => exact hsilent.elim
  | _ => rfl

section

variable {world : World} {project task : Name} {dependencies : List Name} {locks : LockTable Name}
  {record : TaskRecord} {v v' : WorldView} {β : Type} {Q : β → WorldView → Prop}

theorem startFailed_of_untouched (h : NotStarted world locks v) : StartFailed world task v := by
  unfold StartFailed
  rw [absent_congr h.ledger]
  constructor
  · exact fun habsent => ⟨habsent, h.trace⟩
  · exact StartKept.absent

/-- A start fails at a step that leaves the branch behind. -/
theorem startFailed_of_left {action : Action} {reply : action.Reply}
    (halone : machine.alone anyStep 0 v action reply v')
    (hleft : leavesBehind ⟨0, action, reply⟩ = true)
    (hbranch : taskBranch task ∈ v'.state.ledger.branches) : StartFailed world task v' := by
  have hlast : ⟨0, action, reply⟩ ∈ v'.trace := by
    rw [alone_trace halone]
    exact List.mem_append_right _ (List.mem_singleton_self _)
  apply iff_of_false
  · intro habsent
    exact (absent_iff.mp habsent).1 hbranch
  · intro hkept
    have hwritten := hkept.written _ hlast
    rw [hleft] at hwritten
    cases hwritten

/-- A part of a start that only looks. -/
theorem starts_bind {α : Type} {first : Op α} {next : α → Op β} (h : NotStarted world locks v)
    (hfirst : first.Only Action.quiet)
    (hnext : ∀ value v', NotStarted world locks v' → Starts world task Q v' (next value)) :
    Starts world task Q v (first >>= next) :=
  untouched_bind h anyStep_tolerant overlooks_leavesBehind hfirst
    (fun _ => startFailed_of_untouched) hnext

/-- The worktree is created with its branch, or the start fails. -/
theorem createParallelWorktree_starts (h : NotStarted world locks v) :
    Starts world task (fun _ v' => taskBranch task ∉ world.ledger.branches ∧
        task ∉ world.ledger.worktrees ∧ HalfStarted world task locks v') v
      (createParallelWorktree task) := by
  refine spec_act (enabled_unlocking anyStep_tolerant rfl) ?_
  rintro (found : Bool) v₁ halone₁
  have h₁ := h.look halone₁ overlooks_leavesBehind trivial
  cases found with
  | true => exact startFailed_of_untouched h₁
  | false =>
    have hworktree : task ∉ world.ledger.worktrees := by
      obtain ⟨choice, state, -, hexec, -⟩ := halone₁
      rw [← h.ledger]
      intro hmem
      exact Bool.false_ne_true ((exec_workspaceExists hexec).trans hmem)
    refine ⟨enabled_unlocking anyStep_tolerant rfl, ?_⟩
    rintro (addition : Addition) v₂ halone₂
    cases addition with
    | refused => exact startFailed_of_untouched (h₁.step halone₂ ⟨rfl, rfl⟩ rfl)
    | branchLeft =>
      have hledger : v₂.state.ledger =
          { v₁.state.ledger with branches := insert (taskBranch task) v₁.state.ledger.branches } :=
        alone_changes halone₂
      apply startFailed_of_left halone₂ rfl
      rw [hledger]
      exact Set.mem_insert ..
    | bothLeft =>
      have hledger : v₂.state.ledger =
          { v₁.state.ledger with
            worktrees := insert task v₁.state.ledger.worktrees
            branches := insert (taskBranch task) v₁.state.ledger.branches } :=
        alone_changes halone₂
      apply startFailed_of_left halone₂ rfl
      rw [hledger]
      exact Set.mem_insert ..
    | added =>
      have h₂ := h₁.step halone₂ ⟨rfl, rfl⟩ rfl
      refine ⟨?_, hworktree, h₂⟩
      obtain ⟨choice, state, -, hexec, -⟩ := halone₂
      rw [← h₁.ledger]
      intro hmem
      exact Bool.false_ne_true ((exec_worktreeAdd hexec).symm.trans hmem)

/-- The record is written, or the branch and the worktree are left behind. -/
theorem writeJson_starts (hname : record.branch = taskBranch task)
    (hnew : world.ledger.records task = none) (hbranch : taskBranch task ∉ world.ledger.branches)
    (hworktree : task ∉ world.ledger.worktrees) (h : HalfStarted world task locks v) :
    Starts world task (fun _ => StartSucceeded world task record) v (writeJson task record) := by
  refine ⟨enabled_unlocking anyStep_tolerant rfl, ?_⟩
  rintro (written : Bool) v' halone
  cases written with
  | true =>
    have h' := h.step halone ⟨rfl, rfl⟩ rfl
    refine ⟨⟨hname, ?_, ?_, ?_⟩, absent_iff.mpr ⟨hbranch, hworktree, hnew⟩, h'.trace⟩
    · show record.branch ∈ v'.state.ledger.branches
      rw [h'.ledger, hname]
      exact Set.mem_insert ..
    · show task ∈ v'.state.ledger.worktrees
      rw [h'.ledger]
      exact Set.mem_insert ..
    · show v'.state.ledger.records task = some record
      rw [h'.ledger]
      exact Ledger.enter_self
  | false =>
    have hsame : v'.state.ledger = v.state.ledger := alone_changes halone
    apply startFailed_of_left halone rfl
    rw [hsame, h.ledger]
    exact Set.mem_insert ..

theorem startTaskLocked_starts (hnew : world.ledger.records task = none)
    (h : NotStarted world locks v) :
    Starts world task (StartSucceeded world task) v
      (startTaskLocked project task true dependencies) := by
  refine starts_bind h (only_ensureClean trivial) fun _ v₁ h₁ => ?_
  refine starts_bind h₁ (only_check trivial) fun _ v₂ h₂ => ?_
  refine starts_bind h₂ (only_act trivial) fun reply v₃ h₃ => ?_
  refine spec_orFail (startFailed_of_untouched h₃) fun base _ => ?_
  refine starts_bind h₃ validateDependencies_only fun _ v₄ h₄ => ?_
  refine starts_bind h₄ taskRecords_only fun records v₅ h₅ => ?_
  refine starts_bind h₅ startGates_only fun _ v₆ h₆ => ?_
  refine Spec.bind (createParallelWorktree_starts h₆) ?_
  rintro _ v₇ ⟨hbranch, hworktree, h₇⟩
  refine spec_act (enabled_unlocking anyStep_tolerant rfl) fun now v₈ halone₈ => ?_
  have h₈ : HalfStarted world task locks v₈ := h₇.look halone₈ overlooks_leavesBehind trivial
  have hname : (startedRecord project task true base dependencies now).branch = taskBranch task := rfl
  exact (writeJson_starts hname hnew hbranch hworktree h₈).bind fun _ _ hend => hend

/-! ### Giving back the lock -/

theorem startKept_release {lock : Name} {i : Nat} {trace : History} :
    StartKept world task (trace ++ [⟨i, .release lock, ()⟩]) ↔ StartKept world task trace := by
  constructor
  · intro hkept
    exact ⟨hkept.absent, fun e he => hkept.written e (List.mem_append_left _ he)⟩
  · intro hkept
    exact ⟨hkept.absent, forall_snoc hkept.written rfl⟩

theorem StartSucceeded.release {lock : Name}
    (halone : machine.alone anyStep 0 v (.release lock) () v')
    (h : StartSucceeded world task record v) : StartSucceeded world task record v' := by
  obtain ⟨⟨hname, hbranch, hworktree, hrecord⟩, hkept⟩ := h
  have hsame : v'.state.ledger = v.state.ledger := alone_changes halone
  refine ⟨⟨hname, ?_, ?_, ?_⟩, ?_⟩
  · show record.branch ∈ v'.state.ledger.branches
    rw [hsame]
    exact hbranch
  · show task ∈ v'.state.ledger.worktrees
    rw [hsame]
    exact hworktree
  · show v'.state.ledger.records task = some record
    rw [hsame]
    exact hrecord
  · rw [alone_trace halone]
    exact startKept_release.mpr hkept

theorem StartFailed.release {lock : Name}
    (halone : machine.alone anyStep 0 v (.release lock) () v') (h : StartFailed world task v) :
    StartFailed world task v' := by
  have hsame : v'.state.ledger = v.state.ledger := alone_changes halone
  unfold StartFailed
  rw [absent_congr hsame, alone_trace halone]
  exact h.trans startKept_release.symm

theorem taskStart_starts (h : NotStarted world [] v) :
    Starts world task (StartSucceeded world task) v (taskStart project task true dependencies) := by
  refine spec_require (startFailed_of_untouched h) fun _ => ?_
  refine spec_require (startFailed_of_untouched h) fun _ => ?_
  refine starts_bind h (only_check trivial) fun _ v₁ h₁ => ?_
  refine starts_bind h₁ (only_check trivial) fun _ v₂ h₂ => ?_
  refine spec_act (enabled_unlocking anyStep_tolerant rfl) ?_
  rintro (found : Bool) v₃ halone₃
  have h₃ := h₂.look halone₃ overlooks_leavesBehind trivial
  cases found with
  | true => exact startFailed_of_untouched h₃
  | false =>
    have hnew : world.ledger.records task = none := by
      obtain ⟨choice, state, -, hexec, -⟩ := halone₃
      rw [← h₂.ledger]
      have hfound := exec_recordExists hexec
      exact Option.isNone_iff_eq_none.mp (Option.isSome_eq_false_iff.mp hfound.symm)
    have hbody : ∀ v₄, machine.alone anyStep 0 v₃ (.acquire integrationLock false) () v₄ →
        Starts world task (StartSucceeded world task) v₄
          (startTaskLocked project task true dependencies) := by
      intro v₄ halone₄
      exact startTaskLocked_starts hnew (h₃.acquire overlooks_leavesBehind halone₄)
    refine spec_lockOne ?_ hbody ?_ ?_
    · refine enabled_acquire anyStep_tolerant ?_
      rw [h₃.locks]
      rfl
    · intro record v' hsucceeded
      exact ⟨enabled_unlocking anyStep_tolerant rfl, fun v'' halone => hsucceeded.release halone⟩
    · intro error v' hfailed
      exact ⟨enabled_unlocking anyStep_tolerant rfl, fun v'' halone => hfailed.release halone⟩

end

section

variable {project task : Name} {dependencies : List Name} {world : World} {c : Pool}

/-- A start that is served alone creates all or nothing exactly when the name is new, and neither
`git worktree add` fails after it has created the branch nor the write of the record. -/
theorem start_atomic_iff (hidle : world.Idle)
    (hrun : machine.Reaches (anyStep.only 0)
      (pool project (fun _ => .taskStart task true dependencies) world) c)
    (hfinal : machine.Final anyStep 0 c) :
    StartAtomic task c ↔ StartKept world task c.trace := by
  let c₀ := pool project (fun _ => .taskStart task true dependencies) world
  have hstart : NotStarted world [] c₀.view := ⟨rfl, hidle.locks, fun _ hmem => nomatch hmem⟩
  have hspec : Starts world task (fun outcome v => ∃ record, outcome = .record record ∧
      StartSucceeded world task record v) c₀.view (c₀.programs 0) :=
    (taskStart_starts hstart).bind fun record v hend => ⟨record, rfl, hend⟩
  rcases hspec.ended_of_final (fun _ _ henabled => henabled) hrun hfinal with
    ⟨outcome, hret, record, rfl, hpresent, hkept⟩ | ⟨error, hfail, hfailed⟩
  · exact iff_of_true (Or.inl ⟨record, hret, hpresent⟩) hkept
  · refine Iff.trans ?_ hfailed
    constructor
    · rintro (⟨record, hret, -⟩ | ⟨error', -, habsent⟩)
      · rw [hfail] at hret
        cases hret
      · exact habsent
    · intro habsent
      exact Or.inr ⟨error, hfail, habsent⟩

end

theorem start_atomic_iff_example :
    ∃ c, machine.Reaches (anyStep.only 0)
        (pool exampleProject (fun _ => .taskStart exampleTask true []) newProject) c ∧
      c.state.hasWorktree exampleTask = true ∧
      (StartAtomic exampleTask c ↔ StartKept newProject exampleTask c.trace) := by
  have hvalue : (machine.run (fun _ j _ _ => j = 0)
      (pool exampleProject (fun _ => .taskStart exampleTask true []) newProject)
      (goes 0 10 ++ [(0, .clock 1)] ++ goes 0 2)).map (fun c =>
        (((c.programs 0).value?.bind Outcome.record?).isSome, c.state.hasWorktree exampleTask)) =
      some (true, true) := by
    decide +kernel
  obtain ⟨c, hrun, hc⟩ := Machine.exists_of_guarded_run only_thread hvalue
  simp only [Prod.mk.injEq] at hc
  obtain ⟨record, hrecord⟩ := Option.isSome_iff_exists.mp hc.1
  have hret := Outcome.record?_value hrecord
  exact ⟨c, hrun, hc.2, start_atomic_iff newProject_idle hrun
    (Machine.final_of_ended (by simp [hret]))⟩

/-- The record cannot be written: the start fails and leaves the branch and the worktree behind, and
a second start of the same name is rejected because of them. -/
theorem start_left_unrecorded :
    ∃ c c', machine.Reaches (anyStep.only 0)
        (pool exampleProject (fun _ => .taskStart exampleTask true []) newProject) c ∧
      c.programs 0 = .fail (.internal "write task metadata") ∧
      c.state.hasBranch (taskBranch exampleTask) = true ∧
      c.state.hasWorktree exampleTask = true ∧
      c.state.tasks.lookup exampleTask = none ∧
      ¬StartAtomic exampleTask c ∧
      machine.Reaches (anyStep.only 1) c c' ∧
      c'.programs 1 = .fail (.request "worktree path already exists: worktrees/feature") := by
  have hvalue : ((machine.run (fun _ j _ _ => j = 0)
      (pool exampleProject (fun _ => .taskStart exampleTask true []) newProject)
      (goes 0 10 ++ [(0, .clock 1), (0, .fault), (0, .go)])).bind fun c =>
        (machine.run (fun _ j _ _ => j = 1) c (goes 1 10)).map fun c' =>
          ((c.programs 0).error?, c.state.hasBranch (taskBranch exampleTask),
            c.state.hasWorktree exampleTask, c.state.tasks.lookup exampleTask,
            (c'.programs 1).error?)) =
      some (some (.internal "write task metadata"), true, true, none,
        some (.request "worktree path already exists: worktrees/feature")) := by
    decide +kernel
  obtain ⟨c, c', hrun, hrun', hc⟩ := Machine.exists_of_two_runs only_thread only_thread id hvalue
  simp only [Prod.mk.injEq, Program.error?_eq_some_iff] at hc
  obtain ⟨hfail, hbranch, hworktree, hrecord, hrejected⟩ := hc
  refine ⟨c, c', hrun, hfail, hbranch, hworktree, hrecord, ?_, hrun', hrejected⟩
  rintro (⟨record, hret, -⟩ | ⟨error, -, habsent⟩)
  · rw [hfail] at hret
    cases hret
  · exact Bool.false_ne_true (habsent.branch.symm.trans hbranch)

/-- Git fails after it has created the branch: nothing but the branch is there, and Git refuses a
second start of the same name because of it. -/
theorem branch_left_behind :
    ∃ c c', machine.Reaches (anyStep.only 0)
        (pool exampleProject (fun _ => .taskStart exampleTask true []) newProject) c ∧
      c.programs 0 = .fail (.internal "git worktree") ∧
      c.state.hasBranch (taskBranch exampleTask) = true ∧
      c.state.hasWorktree exampleTask = false ∧
      c.state.tasks.lookup exampleTask = none ∧
      machine.Reaches (anyStep.only 1) c c' ∧
      c'.programs 1 = .fail (.internal "git worktree") := by
  have hvalue : ((machine.run (fun _ j _ _ => j = 0)
      (pool exampleProject (fun _ => .taskStart exampleTask true []) newProject)
      (goes 0 9 ++ [(0, .halfway), (0, .go)])).bind fun c =>
        (machine.run (fun _ j _ _ => j = 1) c (goes 1 11)).map fun c' =>
          ((c.programs 0).error?, c.state.hasBranch (taskBranch exampleTask),
            c.state.hasWorktree exampleTask, c.state.tasks.lookup exampleTask,
            (c'.programs 1).error?)) =
      some (some (.internal "git worktree"), true, false, none, some (.internal "git worktree")) := by
    decide +kernel
  obtain ⟨c, c', hrun, hrun', hc⟩ := Machine.exists_of_two_runs only_thread only_thread id hvalue
  simp only [Prod.mk.injEq, Program.error?_eq_some_iff] at hc
  obtain ⟨hfail, hbranch, hworktree, hrecord, hrejected⟩ := hc
  exact ⟨c, c', hrun, hfail, hbranch, hworktree, hrecord, hrun', hrejected⟩

end AgentDev
