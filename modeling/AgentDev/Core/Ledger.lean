import AgentDev.Core.Records
import Mathlib.Data.Set.Insert

/-!
# The life of tasks

What the operations on tasks are for, without the steps that they take: a ledger has the records
of the tasks and says which worktrees and branches exist, and an operation that succeeds
changes all of them at once (`Ledger.Step`). In a consistent ledger the worktrees and branches
are exactly those of the pending parallel tasks, beside the integration branch, and every
step keeps it so (`Ledger.Consistent.step`).

Branches have the names of tasks, and `agent/integration` is both the integration branch and the
branch that a parallel task called `integration` would have. There is no such task: a start
needs a name whose branch does not exist.
-/

namespace AgentDev

theorem taskBranch_eq_iff {task task' : Name} : taskBranch task = taskBranch task' ↔ task = task' := by
  unfold taskBranch
  rw [String.append_right_inj]
  constructor
  · exact Name.ext_value
  · rintro rfl
    rfl

/-- The branch of a task called `integration` would be the integration branch. -/
theorem taskBranch_integration : taskBranch integrationLock = integrationBranch := rfl

theorem taskBranch_ne_integration {task : Name} (h : task ≠ integrationLock) :
    taskBranch task ≠ integrationBranch := by
  rw [← taskBranch_integration]
  exact fun heq => h (taskBranch_eq_iff.mp heq)

/-- No parallel task is called `integration`, and its branch is named after the task. -/
def TaskRecord.Named (record : TaskRecord) (task : Name) : Prop :=
  record.mode = .parallel → task ≠ integrationLock ∧ record.branch = taskBranch task

/-- The branch of another task than `integration` is not the integration branch. -/
theorem TaskRecord.Named.branch_ne {record : TaskRecord} {task : Name} (h : record.Named task)
    (hmode : record.mode = .parallel) : record.branch ≠ integrationBranch := by
  obtain ⟨hne, hbranch⟩ := h hmode
  rw [hbranch]
  exact taskBranch_ne_integration hne

/-- A completed record has a head, and a merged one a merge commit. -/
structure TaskRecord.Settled (record : TaskRecord) : Prop where
  head : record.status = .completed → record.headCommit.isSome = true
  merge : record.status = .merged → record.mergeCommit.isSome = true

/-- A record of the kind that needs a worktree and a branch is one of a parallel task. -/
theorem isPendingParallel_mode {record : TaskRecord} (h : isPendingParallel record = true) :
    record.mode = .parallel := by
  simp only [isPendingParallel, Bool.and_eq_true, decide_eq_true_eq] at h
  exact h.1

structure Ledger where
  records : Name → Option TaskRecord
  worktrees : Set Name
  branches : Set String

namespace Ledger

variable {L L' : Ledger} {task other : Name} {record : TaskRecord}

/-- The ledger with the record of one task changed. -/
def enter (L : Ledger) (task : Name) (record : TaskRecord) : Ledger :=
  { L with records := Function.update L.records task (some record) }

/-- The task is parallel, and neither merged nor aborted. -/
def Pending (L : Ledger) (task : Name) : Prop :=
  ∃ record, L.records task = some record ∧ isPendingParallel record = true

/-- The gate of a start: no record is of this kind. -/
def Free (L : Ledger) (kind : TaskRecord → Bool) : Prop :=
  ∀ task record, L.records task = some record → kind record = false

/-! ## Operations -/

/-- Operations that succeed. -/
inductive Step (project : Name) (L : Ledger) : Ledger → Prop
  | start (task : Name) (dependencies : List Name) (base now : Nat)
      (hnew : L.records task = none) (hsequential : L.Free isActiveSequential)
      (hparallel : L.Free isPendingParallel) :
      Step project L (L.enter task (startedRecord project task false base dependencies now))
  | startParallel (task : Name) (dependencies : List Name) (base now : Nat)
      (hnew : L.records task = none) (hsequential : L.Free isActiveSequential)
      (hbranch : taskBranch task ∉ L.branches) :
      Step project L
        { L.enter task (startedRecord project task true base dependencies now) with
          worktrees := insert task L.worktrees
          branches := insert (taskBranch task) L.branches }
  | complete (task : Name) (old : TaskRecord) (head now : Nat) (hold : L.records task = some old)
      (hactive : old.status = .active) : Step project L (L.enter task (old.complete head now))
  | merge (task : Name) (old : TaskRecord) (commit now : Nat) (hold : L.records task = some old)
      (hpending : isPendingParallel old = true) :
      Step project L
        { L.enter task (old.merge commit now) with
          worktrees := L.worktrees \ {task}
          branches := L.branches \ {old.branch} }
  | abort (task : Name) (old : TaskRecord) (now : Nat) (hold : L.records task = some old)
      (hpending : isPendingParallel old = true) :
      Step project L
        { L.enter task (old.abort now) with
          worktrees := L.worktrees \ {task}
          branches := L.branches \ {old.branch} }

/-! ## Consistency -/

/-- The worktrees and branches are those of the pending tasks. -/
structure Consistent (L : Ledger) : Prop where
  integration : integrationBranch ∈ L.branches
  worktree : ∀ task, task ∈ L.worktrees ↔ L.Pending task
  branch : ∀ task, task ≠ integrationLock → (taskBranch task ∈ L.branches ↔ L.Pending task)
  named : ∀ task record, L.records task = some record → record.Named task
  settled : ∀ task record, L.records task = some record → record.Settled
  exclusive : L.Free isActiveSequential ∨ L.Free isPendingParallel

theorem pending_iff (hold : L.records task = some record) :
    L.Pending task ↔ isPendingParallel record = true := by
  constructor
  · rintro ⟨record', hrecord', hpending⟩
    rw [hold] at hrecord'
    cases hrecord'
    exact hpending
  · intro hpending
    exact ⟨record, hold, hpending⟩

theorem not_pending (hnew : L.records task = none) : ¬L.Pending task := by
  rintro ⟨record, hrecord, -⟩
  rw [hnew] at hrecord
  cases hrecord

theorem enter_self : (L.enter task record).records task = some record :=
  Function.update_self ..

theorem enter_of_ne (h : other ≠ task) : (L.enter task record).records other = L.records other :=
  Function.update_of_ne h ..

/-- A kind that is free of records stays so when the new record is not of the kind. -/
theorem Free.enter {kind : TaskRecord → Bool} (h : L.Free kind) (hkind : kind record = false) :
    (L.enter task record).Free kind := by
  intro other found hfound
  by_cases hother : other = task
  · subst hother
    rw [enter_self] at hfound
    cases hfound
    exact hkind
  · rw [enter_of_ne hother] at hfound
    exact h other found hfound

/-- The record of one task is written, and its worktree and branch follow it. -/
theorem Consistent.change (h : L.Consistent) {worktrees : Set Name} {branches : Set String}
    (hnamed : record.Named task) (hsettled : record.Settled)
    (hself : task ∈ worktrees ↔ isPendingParallel record = true)
    (hothers : ∀ other, other ≠ task → (other ∈ worktrees ↔ other ∈ L.worktrees))
    (hbranch : task ≠ integrationLock → (taskBranch task ∈ branches ↔ isPendingParallel record = true))
    (hbranches : ∀ branch, branch ≠ taskBranch task → (branch ∈ branches ↔ branch ∈ L.branches))
    (hintegration : integrationBranch ∈ branches)
    (hexclusive : (L.enter task record).Free isActiveSequential ∨
      (L.enter task record).Free isPendingParallel) :
    Consistent { L.enter task record with worktrees := worktrees, branches := branches } := by
  have hpending : ∀ other, other ≠ task → ((L.enter task record).Pending other ↔ L.Pending other) := by
    intro other hother
    unfold Pending
    rw [enter_of_ne hother]
  refine ⟨hintegration, fun other => ?_, fun other hne => ?_, fun other found hfound => ?_,
    fun other found hfound => ?_, hexclusive⟩
  · by_cases hother : other = task
    · subst hother
      exact hself.trans (pending_iff enter_self).symm
    · exact ((hothers other hother).trans (h.worktree other)).trans (hpending other hother).symm
  · by_cases hother : other = task
    · subst hother
      exact (hbranch hne).trans (pending_iff enter_self).symm
    · have hne' : taskBranch other ≠ taskBranch task := fun heq => hother (taskBranch_eq_iff.mp heq)
      exact ((hbranches _ hne').trans (h.branch other hne)).trans (hpending other hother).symm
  · by_cases hother : other = task
    · subst hother
      cases enter_self.symm.trans hfound
      exact hnamed
    · exact h.named other found ((enter_of_ne hother).symm.trans hfound)
  · by_cases hother : other = task
    · subst hother
      cases enter_self.symm.trans hfound
      exact hsettled
    · exact h.settled other found ((enter_of_ne hother).symm.trans hfound)

/-- A task whose worktree and branch go is not pending any more. -/
theorem Consistent.close (h : L.Consistent) {old : TaskRecord} (hold : L.records task = some old)
    (hpending : isPendingParallel old = true) (hmode : record.mode = old.mode)
    (hbranch : record.branch = old.branch) (hsettled : record.Settled)
    (hclosed : isPendingParallel record = false) :
    Consistent { L.enter task record with
      worktrees := L.worktrees \ {task}
      branches := L.branches \ {old.branch} } := by
  have hparallel := isPendingParallel_mode hpending
  obtain ⟨hne, hname⟩ := h.named task old hold hparallel
  have hsequential : isActiveSequential record = false := by
    simp [isActiveSequential, hmode, hparallel]
  refine h.change ?_ hsettled ?_ ?_ (fun _ => ?_) ?_ ?_ ?_
  · intro _
    exact ⟨hne, hbranch.trans hname⟩
  · simp [hclosed]
  · intro other hother
    simp [hother]
  · simp [hclosed, hname]
  · intro branch hother
    rw [hname]
    simp [hother]
  · refine ⟨h.integration, ?_⟩
    rw [hname]
    exact fun heq => taskBranch_ne_integration hne heq.symm
  · exact h.exclusive.imp (·.enter hsequential) (·.enter hclosed)

theorem Consistent.step {project : Name} (h : L.Consistent) (hstep : Step project L L') :
    L'.Consistent := by
  cases hstep with
  | start task dependencies base now hnew hsequential hparallel =>
    refine h.change (fun hmode => nomatch hmode) ⟨(fun hstatus => nomatch hstatus),
      fun hstatus => nomatch hstatus⟩ ?_ (fun _ _ => Iff.rfl) (fun hne => ?_) (fun _ _ => Iff.rfl)
      h.integration (Or.inr (hparallel.enter rfl))
    · rw [h.worktree task]
      exact iff_of_false (not_pending hnew) Bool.false_ne_true
    · rw [h.branch task hne]
      exact iff_of_false (not_pending hnew) Bool.false_ne_true
  | startParallel task dependencies base now hnew hsequential hbranch =>
    -- the integration branch exists, so the new branch is another one
    have hne : task ≠ integrationLock := by
      rintro rfl
      exact hbranch h.integration
    refine h.change (fun _ => ⟨hne, rfl⟩) ⟨(fun hstatus => nomatch hstatus),
      fun hstatus => nomatch hstatus⟩ ?_ ?_ (fun _ => ?_) ?_ ?_ (Or.inl (hsequential.enter rfl))
    · exact iff_of_true (Set.mem_insert ..) rfl
    · intro other hother
      simp [hother]
    · exact iff_of_true (Set.mem_insert ..) rfl
    · intro branch hother
      simp [hother]
    · exact Set.mem_insert_of_mem _ h.integration
  | complete task old head now hold hactive =>
    have hsame : isPendingParallel (old.complete head now) = isPendingParallel old := by
      unfold isPendingParallel
      rw [hactive]
      rfl
    have hsequential : isActiveSequential (old.complete head now) = false := by
      simp [isActiveSequential, TaskRecord.complete]
    refine h.change (h.named task old hold) ⟨(fun _ => rfl), fun hstatus => nomatch hstatus⟩ ?_
      (fun _ _ => Iff.rfl) (fun hne => ?_) (fun _ _ => Iff.rfl) h.integration ?_
    · rw [h.worktree task, hsame]
      exact pending_iff hold
    · rw [h.branch task hne, hsame]
      exact pending_iff hold
    · refine h.exclusive.imp (·.enter hsequential) fun hfree => hfree.enter ?_
      rw [hsame]
      exact hfree task old hold
  | merge task old commit now hold hpending =>
    refine h.close hold hpending rfl rfl ⟨(fun hstatus => nomatch hstatus), fun _ => rfl⟩ ?_
    simp [isPendingParallel, TaskRecord.merge]
  | abort task old now hold hpending =>
    refine h.close hold hpending rfl rfl ⟨(fun hstatus => nomatch hstatus),
      fun hstatus => nomatch hstatus⟩ ?_
    simp [isPendingParallel, TaskRecord.abort]

end Ledger

end AgentDev
