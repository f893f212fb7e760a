import AgentDev.Core.Alone
import AgentDev.Core.Runs

/-!
# Requests served one at a time

A request that is served alone and succeeds is one step of the ledger, or none
(`request_refines`); a run or an index is none however it ends, whatever the provider does in
its workspace. So, when the requests are served one at a time and each of them succeeds or is
rejected before it has changed anything, the ledger is always consistent
(`lifecycle_consistent`): the worktrees and branches of tasks are those of the pending parallel
tasks.

The branch of a task called `integration` is the integration branch, which exists without such a
task (`integration_branch_without_task`).
-/

namespace AgentDev

open Interleaving

/-- When the part of a request is run from the ledger and succeeds, `Q` holds of what it returns
and of the ledger then. -/
abbrev Finds {α : Type} (L : Ledger) (Q : α → Ledger → Prop) (body : Op α) : Prop :=
  Spec ledgerEffect (fun _ _ => True) Q (fun _ _ => True) L body

section

variable {project task : Name} {L : Ledger} {α : Type}

/-! ## Parts of requests -/

/-- Steps that leave every ledger as it is. -/
def Action.silent : Action → Prop
  | .writeRecord _ _ | .worktreeAdd _ _ | .worktreeRemove _ _ | .branchDelete _ _ => False
  | _ => True

theorem Action.silent_of_quiet {action : Action} (h : action.quiet) : action.silent := by
  cases action <;> trivial

theorem Ledger.after_silent {action : Action} (h : action.silent) (reply : action.Reply) :
    L.after action reply = L := by
  cases action with
  | writeRecord => exact h.elim
  | worktreeAdd => exact h.elim
  | worktreeRemove => exact h.elim
  | branchDelete => exact h.elim
  | _ => rfl

/-- Programs that only look leave the ledger as it is. -/
theorem quiet_finds {body : Op α} (hbody : body.Only Action.quiet) :
    Finds L (fun _ L' => L' = L) body := by
  have hkept : Spec ledgerEffect (fun _ _ => True) (fun _ L' => L' = L) (fun _ L' => L' = L) L
      body := by
    refine Spec.of_only hbody (fun _ _ _ _ => trivial) ?_ rfl
    rintro L₁ action reply L₂ rfl hquiet ⟨rfl, -⟩
    exact Ledger.after_silent (Action.silent_of_quiet hquiet) reply
  exact hkept.mono (fun _ _ hsame => hsame) fun _ _ _ => trivial

theorem finds_quiet_bind {β : Type} {first : Op α} {next : α → Op β} {Q : β → Ledger → Prop}
    (hfirst : first.Only Action.quiet) (hnext : ∀ value, Finds L Q (next value)) :
    Finds L Q (first >>= next) := by
  refine (quiet_finds hfirst).bind ?_
  rintro value L' rfl
  exact hnext value

theorem finds_lockOne {lock : Name} {readonly : Bool} {body : Op α} {Q : α → Ledger → Prop}
    (hbody : Finds L Q body) : Finds L Q (lockOne lock readonly body) := by
  refine spec_lockOne (Q := Q) (E := fun _ _ => True) trivial ?_ ?_ fun _ _ _ => ⟨trivial, fun _ _ => trivial⟩
  · rintro L' ⟨rfl, -⟩
    exact hbody
  · intro value L hQ
    refine ⟨trivial, ?_⟩
    rintro L' ⟨rfl, -⟩
    exact hQ

theorem loadTask_finds :
    Finds L (fun value L' => L' = L ∧ L.records task = some value.1 ∧
      value.2 = workspaceOf task value.1) (loadTask project task) := by
  refine finds_quiet_bind (only_check trivial) fun _ => ?_
  refine spec_act trivial ?_
  rintro reply L' ⟨rfl, htells⟩
  refine spec_orFail trivial fun record hrecord => ?_
  refine finds_quiet_bind only_require fun _ => finds_quiet_bind only_require fun _ => ?_
  refine finds_quiet_bind (only_check trivial) fun _ => ?_
  exact ⟨rfl, htells.symm.trans hrecord, rfl⟩

theorem readRecords_finds (names : List Name) :
    Finds L (fun records L' => L' = L ∧
      ∀ task ∈ names, ∀ record, L.records task = some record → record ∈ records)
      (readRecords names) := by
  induction names with
  | nil => exact ⟨rfl, fun _ hmem => nomatch hmem⟩
  | cons first rest ih =>
    refine spec_act trivial ?_
    rintro reply L' ⟨rfl, htells⟩
    refine Spec.bind ih ?_
    rintro records L' ⟨rfl, hread⟩
    refine ⟨rfl, fun task htask record hrecord => ?_⟩
    rcases List.mem_cons.mp htask with rfl | htask
    · have hreply : reply = some record := htells.trans hrecord
      rw [hreply]
      exact List.mem_append_left _ List.mem_cons_self
    · exact List.mem_append_right _ (hread task htask record hrecord)

/-- A request that has the world for itself reads all records. -/
theorem taskRecords_finds :
    Finds L (fun records L' => L' = L ∧
      ∀ task record, L.records task = some record → record ∈ records) taskRecords := by
  refine spec_act trivial ?_
  rintro names L' ⟨rfl, htells⟩
  refine (readRecords_finds names).mono ?_ fun _ _ _ => trivial
  rintro records L' ⟨rfl, hread⟩
  refine ⟨rfl, fun task record hrecord => hread task ((htells task).mpr ?_) record hrecord⟩
  show (L'.records task).isSome = true
  rw [hrecord]
  rfl

theorem writeJson_finds {record : TaskRecord} :
    Finds L (fun _ L' => L' = L.enter task record) (writeJson task record) := by
  refine ⟨trivial, ?_⟩
  rintro (ok : Bool) L' ⟨rfl, -⟩
  cases ok with
  | false => trivial
  | true => rfl

/-! ## Starting -/

theorem startGates_finds {parallel : Bool} {records : List TaskRecord}
    (hall : ∀ task record, L.records task = some record → record ∈ records) :
    Finds L (fun _ L' => L' = L ∧ L.Free isActiveSequential ∧
      (parallel = false → L.Free isPendingParallel)) (startGates parallel records) := by
  have hsequential : (activeSequential records).isEmpty = true → L.Free isActiveSequential :=
    fun hempty task record hrecord =>
      activeSequential_isEmpty_iff.mp hempty record (hall task record hrecord)
  have hpending : (pendingParallel records).isEmpty = true → L.Free isPendingParallel :=
    fun hempty task record hrecord =>
      pendingParallel_isEmpty_iff.mp hempty record (hall task record hrecord)
  unfold startGates require
  cases parallel with
  | true =>
    cases hempty : (activeSequential records).isEmpty with
    | false => trivial
    | true => exact ⟨rfl, hsequential hempty, fun hno => nomatch hno⟩
  | false =>
    cases hempty : (activeSequential records).isEmpty with
    | false => trivial
    | true =>
      cases hnone : (pendingParallel records).isEmpty with
      | false => trivial
      | true => exact ⟨rfl, hsequential hempty, fun _ => hpending hnone⟩

theorem createParallelWorktree_finds :
    Finds L (fun _ L' => taskBranch task ∉ L.branches ∧
      L' = { L with worktrees := insert task L.worktrees
                    branches := insert (taskBranch task) L.branches })
      (createParallelWorktree task) := by
  refine spec_act trivial ?_
  rintro (found : Bool) L' ⟨rfl, -⟩
  cases found with
  | true => trivial
  | false =>
    refine ⟨trivial, ?_⟩
    rintro (addition : Addition) L' ⟨rfl, htells⟩
    cases addition with
    | refused | branchLeft | bothLeft => trivial
    | added => exact ⟨htells, rfl⟩

theorem startTaskLocked_refines {parallel : Bool} {dependencies : List Name}
    (hnew : L.records task = none) :
    Finds L (fun _ L' => L.Step project L') (startTaskLocked project task parallel dependencies) := by
  refine finds_quiet_bind (only_ensureClean trivial) fun _ => ?_
  refine finds_quiet_bind (only_check trivial) fun _ => ?_
  refine finds_quiet_bind (only_act trivial) fun reply => ?_
  refine spec_orFail trivial fun base _ => ?_
  refine finds_quiet_bind validateDependencies_only fun _ => ?_
  refine taskRecords_finds.bind ?_
  rintro records L' ⟨rfl, hall⟩
  refine (startGates_finds hall).bind ?_
  rintro _ L' ⟨rfl, hsequential, hparallel⟩
  have hwrite : ∀ L₁ (found : Nat → TaskRecord), Finds L₁ (fun _ L₂ => ∃ now, L₂ = L₁.enter task (found now))
      (do
        let now ← act .nowIso
        writeJson task (found now)
        pure (found now)) := by
    intro L₁ found
    refine finds_quiet_bind (only_act trivial) fun now => ?_
    refine writeJson_finds.bind ?_
    rintro _ L₂ rfl
    exact ⟨now, rfl⟩
  cases parallel with
  | true =>
    refine Spec.bind createParallelWorktree_finds ?_
    rintro _ L₁ ⟨hbranch, rfl⟩
    refine (hwrite _ _).mono ?_ fun _ _ _ => trivial
    rintro _ L₂ ⟨now, rfl⟩
    exact .startParallel task dependencies base now hnew hsequential hbranch
  | false =>
    refine (hwrite _ _).mono ?_ fun _ _ _ => trivial
    rintro _ L₂ ⟨now, rfl⟩
    exact .start task dependencies base now hnew hsequential (hparallel rfl)

theorem taskStart_refines {parallel : Bool} {dependencies : List Name} :
    Finds L (fun _ L' => L.Step project L') (taskStart project task parallel dependencies) := by
  refine finds_quiet_bind only_require fun _ => finds_quiet_bind only_require fun _ => ?_
  refine finds_quiet_bind (only_check trivial) fun _ => ?_
  refine finds_quiet_bind (only_check trivial) fun _ => ?_
  refine spec_act trivial ?_
  rintro (found : Bool) L' ⟨rfl, htells⟩
  cases found with
  | true => trivial
  | false => exact finds_lockOne (startTaskLocked_refines (by simpa using htells.symm))

/-! ## Completing -/

theorem taskComplete_refines :
    Finds L (fun _ L' => L.Step project L') (taskComplete project task) := by
  refine loadTask_finds.bind ?_
  rintro ⟨record, workspace⟩ L' ⟨rfl, hrecord, -⟩
  refine spec_require trivial fun hactive => finds_lockOne ?_
  refine finds_quiet_bind (only_ensureClean trivial) fun _ => ?_
  refine finds_quiet_bind (only_act trivial) fun reply => finds_quiet_bind only_orFail fun _ => ?_
  refine finds_quiet_bind only_require fun _ => ?_
  refine finds_quiet_bind (only_act trivial) fun reply => spec_orFail trivial fun head _ => ?_
  refine finds_quiet_bind (only_act trivial) fun now => ?_
  refine writeJson_finds.bind ?_
  rintro _ L₁ rfl
  exact .complete task record head now hrecord (by simpa using hactive)

/-! ## Merging and aborting -/

/-- The branch and the worktree of the task are gone, and nothing else has changed. -/
def Ledger.closed (L : Ledger) (task : Name) (branch : String) : Ledger :=
  { L with worktrees := L.worktrees \ {task}, branches := L.branches \ {branch} }

theorem mergeParallelWorktree_finds {record : TaskRecord} :
    Finds L (fun _ L' => L' = L.closed task record.branch)
      (mergeParallelWorktree record (.worktree task)) := by
  refine finds_quiet_bind (only_ensureClean trivial) fun _ => ?_
  refine finds_quiet_bind (only_ensureClean trivial) fun _ => ?_
  refine finds_quiet_bind validateRecordedHead_only fun head => ?_
  refine finds_quiet_bind (only_check trivial) fun _ => ?_
  refine finds_quiet_bind (only_act trivial) fun (merged : Bool) => ?_
  cases merged with
  | false => exact finds_quiet_bind (only_act trivial) fun _ => trivial
  | true =>
    refine finds_quiet_bind (only_act trivial) fun reply => spec_orFail trivial fun commit _ => ?_
    refine spec_check trivial (fun _ _ _ _ => trivial) ?_
    rintro (removed : Bool) L' ⟨rfl, -⟩ (rfl : removed = true)
    refine spec_check trivial (fun _ _ _ _ => trivial) ?_
    rintro (deleted : Bool) L' ⟨rfl, -⟩ (rfl : deleted = true)
    exact rfl

theorem abortParallelWorktree_finds {record : TaskRecord} :
    Finds L (fun _ L' => L' = L.closed task record.branch)
      (abortParallelWorktree record (.worktree task)) := by
  have hbranch : ∀ L₁ : Ledger, Finds L₁
      (fun _ L₂ => L₂ = { L₁ with branches := L₁.branches \ {record.branch} }) (do
        if ← act (.showRef record.branch) then
          check (.branchDelete record.branch true) id (.internal "git branch")) := by
    intro L₁
    refine spec_act trivial ?_
    rintro (found : Bool) L' ⟨rfl, htells⟩
    cases found with
    | false =>
      have hgone : record.branch ∉ L'.branches := fun hmem => nomatch htells.mpr hmem
      show L' = { L' with branches := L'.branches \ {record.branch} }
      rw [Set.sdiff_singleton_eq_self hgone]
    | true =>
      refine ⟨trivial, ?_⟩
      rintro (deleted : Bool) L' ⟨rfl, -⟩
      cases deleted <;> trivial
  refine spec_act trivial ?_
  rintro (found : Bool) L' ⟨rfl, htells⟩
  cases found with
  | false =>
    have hgone : task ∉ L'.worktrees := fun hmem => nomatch htells.mpr hmem
    refine (hbranch L').mono ?_ fun _ _ _ => trivial
    rintro _ L₁ rfl
    rw [Ledger.closed, Set.sdiff_singleton_eq_self hgone]
  | true =>
    refine spec_check trivial (fun _ _ _ _ => trivial) ?_
    rintro (removed : Bool) L' ⟨rfl, -⟩ (rfl : removed = true)
    exact hbranch _

theorem taskMerge_refines :
    Finds L (fun _ L' => L.Step project L') (taskMerge project task) := by
  refine loadTask_finds.bind ?_
  rintro ⟨record, workspace⟩ L' ⟨rfl, hrecord, hselected⟩
  refine spec_require trivial fun hok => finds_lockOne (finds_lockOne ?_)
  simp only [Bool.and_eq_true, decide_eq_true_eq] at hok
  obtain ⟨hparallel, hcompleted⟩ := hok
  obtain rfl : workspace = .worktree task := by
    simpa [workspaceOf, hparallel, hcompleted] using hselected
  refine Spec.bind mergeParallelWorktree_finds ?_
  rintro commit L₁ rfl
  refine finds_quiet_bind (only_act trivial) fun now => writeJson_finds.bind ?_
  rintro _ L₂ rfl
  exact .merge task record commit now hrecord (by simp [isPendingParallel, hparallel, hcompleted])

theorem taskAbort_refines :
    Finds L (fun _ L' => L.Step project L') (taskAbort project task) := by
  refine loadTask_finds.bind ?_
  rintro ⟨record, workspace⟩ L' ⟨rfl, hrecord, hselected⟩
  refine spec_require trivial fun hok => finds_lockOne (finds_lockOne ?_)
  have hpending : isPendingParallel record = true := hok
  simp only [Bool.and_eq_true, Bool.or_eq_true, decide_eq_true_eq] at hok
  obtain rfl : workspace = .worktree task := by
    rcases hok with ⟨hparallel, hactive | hcompleted⟩
    · simpa [workspaceOf, hparallel, hactive] using hselected
    · simpa [workspaceOf, hparallel, hcompleted] using hselected
  refine Spec.bind abortParallelWorktree_finds ?_
  rintro _ L₁ rfl
  refine finds_quiet_bind (only_act trivial) fun now => writeJson_finds.bind ?_
  rintro _ L₂ rfl
  exact .abort task record now hrecord hpending

/-! ## Requests -/

theorem silent_of_quiet {body : Op α} (hbody : body.Only Action.quiet) : body.Only Action.silent :=
  Program.only_mono hbody fun _ => Action.silent_of_quiet

theorem lockOne_silent {lock : Name} {readonly : Bool} {body : Op α}
    (hbody : body.Only Action.quiet) : (lockOne lock readonly body).Only Action.silent := by
  refine Program.only_bind (only_act trivial) fun _ => ?_
  exact Program.only_ensuring (silent_of_quiet hbody) (only_act trivial)

/-- The requests that change the records of tasks. -/
def Request.changesTasks : Request → Bool
  | .taskStart _ _ _ | .taskComplete _ | .taskMerge _ | .taskAbort _ => true
  | _ => false

theorem request_silent {request : Request} (h : request.changesTasks = false) :
    (request.program project).Only Action.silent := by
  cases request with
  | taskStart => cases h
  | taskComplete => cases h
  | taskMerge => cases h
  | taskAbort => cases h
  | projectSync bundle =>
    refine Program.only_bind ?_ fun _ => trivial
    refine Program.only_bind (silent_of_quiet (only_check trivial)) fun _ => ?_
    refine Program.only_bind (silent_of_quiet (only_check trivial)) fun _ => ?_
    refine Program.only_bind (silent_of_quiet taskRecords_only) fun _ => ?_
    refine Program.only_bind only_require fun _ => ?_
    exact lockOne_silent synchronizeAgentProject_only
  | projectExport =>
    refine Program.only_bind ?_ fun _ => trivial
    refine Program.only_bind (silent_of_quiet (only_check trivial)) fun _ => ?_
    refine Program.only_bind (silent_of_quiet (only_check trivial)) fun _ => ?_
    refine Program.only_bind (lockOne_silent exportAgentProject_only) fun _ => ?_
    exact Program.only_bind (silent_of_quiet (only_check trivial)) fun _ => trivial
  | projectStatus =>
    refine Program.only_bind ?_ fun _ => trivial
    refine Program.only_bind (silent_of_quiet (only_check trivial)) fun _ => ?_
    refine lockOne_silent ?_
    exact Program.only_bind projectGitStatus_only fun _ =>
      Program.only_bind taskRecords_only fun _ => trivial
  | run task readonly =>
    refine Program.only_bind ?_ fun _ => trivial
    refine Program.only_bind (silent_of_quiet loadTask_only) fun _ => ?_
    refine Program.only_bind only_require fun _ => ?_
    refine Program.only_bind (silent_of_quiet (only_check trivial)) fun _ => ?_
    refine Program.only_bind (silent_of_quiet resolveMounts_only) fun _ => ?_
    refine Program.only_bind (silent_of_quiet (only_check trivial)) fun _ => ?_
    exact lockOne_silent executeRun_only
  | index task =>
    refine Program.only_bind ?_ fun _ => trivial
    refine Program.only_bind (silent_of_quiet loadTask_only) fun _ => ?_
    refine Program.only_bind only_require fun _ => ?_
    refine Program.only_bind (silent_of_quiet (only_check trivial)) fun _ => ?_
    refine Program.only_bind (silent_of_quiet (only_check trivial)) fun _ => ?_
    refine Program.only_bind (silent_of_quiet resolveMounts_only) fun _ => ?_
    exact lockOne_silent runNoninteractive_only

/-- A request that changes tasks is one step of the ledger when it succeeds. -/
theorem request_refines {request : Request} (h : request.changesTasks = true) :
    Finds L (fun _ L' => L.Step project L') (request.program project) := by
  cases request with
  | taskStart task parallel dependencies => exact Spec.bind taskStart_refines fun _ _ hstep => hstep
  | taskComplete task => exact Spec.bind taskComplete_refines fun _ _ hstep => hstep
  | taskMerge task => exact Spec.bind taskMerge_refines fun _ _ hstep => hstep
  | taskAbort task => exact Spec.bind taskAbort_refines fun _ _ hstep => hstep
  | _ => cases h

end

/-! ## Serial runs -/

/-- A request that changes tasks has succeeded, or has been rejected and has changed nothing. -/
def Completes (requests : Nat → Request) (i : Nat) (c c' : Pool) : Prop :=
  (requests i).changesTasks = true → (∃ outcome, c'.programs i = .ret outcome) ∨
    (c'.state.tasks = c.state.tasks ∧ c'.state.repo = c.state.repo)

section

variable {project : Name} {requests : Nat → Request} {world : World} {i : Nat} {c c' : Pool}

theorem ledger_of_unchanged {world world' : World} (htasks : world'.tasks = world.tasks)
    (hrepo : world'.repo = world.repo) : world'.ledger = world.ledger := by
  unfold World.ledger World.hasWorktree World.hasBranch
  rw [htasks, hrepo]

/-- The requests that do not change tasks leave the ledger as it is, whatever becomes of them. -/
theorem served_silent (hprogram : c.programs i = (requests i).program project)
    (hrun : machine.Reaches (truthful.only i) c c')
    (hchanges : (requests i).changesTasks = false) : c'.state.ledger = c.state.ledger := by
  have hspec : Spec (machine.alone truthful i) (fun _ action => action.silent) (fun _ _ => True)
      (fun _ _ => True) c.view (c.programs i) := by
    rw [hprogram]
    exact Spec.of_only (request_silent hchanges) (fun _ _ _ hsilent => hsilent)
      (fun _ _ _ _ _ _ _ => trivial) trivial
  refine hspec.kept (I := fun v => v.state.ledger = c.state.ledger) ?_ hrun rfl
  intro v action reply v' hsilent halone hsame
  rw [(alone_ledger halone).1, Ledger.after_silent hsilent, hsame]

/-- What a request does when it is served alone. -/
theorem served_step (hprogram : c.programs i = (requests i).program project)
    (hrun : machine.Reaches (truthful.only i) c c') (hends : Completes requests i c c') :
    c'.state.ledger = c.state.ledger ∨ c.state.ledger.Step project c'.state.ledger := by
  cases hchanges : (requests i).changesTasks with
  | true =>
    rcases hends hchanges with ⟨outcome, hret⟩ | ⟨htasks, hrepo⟩
    · have hrefines : Finds c.state.ledger (fun _ L' => c.state.ledger.Step project L')
          ((requests i).program project) := request_refines hchanges
      have hspec := alone_of_ledger (i := i) (v := c.view) hrefines
      rw [← hprogram] at hspec
      exact Or.inr (hspec.post hrun hret)
    · exact Or.inl (ledger_of_unchanged htasks hrepo)
  | false => exact Or.inl (served_silent hprogram hrun hchanges)

theorem serial_consistent (hconsistent : world.ledger.Consistent)
    (hserial : machine.Serial truthful (Completes requests) (pool project requests world) i c) :
    c.state.ledger.Consistent := by
  refine hserial.invariant (I := fun world => world.ledger.Consistent) hconsistent ?_
  intro i c c' hprogram hI hrun _ hends
  rcases served_step hprogram hrun hends with hsame | hstep
  · rw [hsame]
    exact hI
  · exact hI.step hstep

/-! ## The life of tasks -/

/-- `pp["worktrees"] / task`, below the root of the project -/
def worktreePath (task : Name) : String := "worktrees/" ++ task.value

/-- `task_meta_path`, below the root of the project -/
def taskMetaPath (task : Name) : String := "tasks/" ++ task.value ++ ".json"

theorem worktreePath_eq_iff {task task' : Name} :
    worktreePath task = worktreePath task' ↔ task = task' := by
  unfold worktreePath
  rw [String.append_right_inj]
  exact ⟨Name.ext_value, congrArg Name.value⟩

theorem taskMetaPath_eq_iff {task task' : Name} :
    taskMetaPath task = taskMetaPath task' ↔ task = task' := by
  unfold taskMetaPath
  rw [String.append_left_inj, String.append_right_inj]
  exact ⟨Name.ext_value, congrArg Name.value⟩

theorem worktreePath_ne_taskMetaPath (task task' : Name) :
    worktreePath task ≠ taskMetaPath task' := by
  intro heq
  have hfirst := congrArg (fun path => path.toList.head?) heq
  simp [worktreePath, taskMetaPath] at hfirst

/-- Where the branches, worktrees and records of two tasks are. -/
structure Apart (task task' : Name) : Prop where
  branch : taskBranch task ≠ taskBranch task'
  worktree : worktreePath task ≠ worktreePath task'
  record : taskMetaPath task ≠ taskMetaPath task'
  worktree_record : worktreePath task ≠ taskMetaPath task'

theorem apart_of_ne {task task' : Name} (h : task ≠ task') : Apart task task' where
  branch heq := h (taskBranch_eq_iff.mp heq)
  worktree heq := h (worktreePath_eq_iff.mp heq)
  record heq := h (taskMetaPath_eq_iff.mp heq)
  worktree_record := worktreePath_ne_taskMetaPath task task'

/-- The records, worktrees and branches of the tasks agree. -/
structure World.Lifecycle (world : World) : Prop where
  worktree : ∀ task, world.hasWorktree task = true ↔ world.ledger.Pending task
  branch : ∀ task, task ≠ integrationLock →
    (world.hasBranch (taskBranch task) = true ↔ world.ledger.Pending task)
  integration : ¬world.ledger.Pending integrationLock ∧ world.hasBranch integrationBranch = true
  exclusive : ∀ task record other record', world.tasks.lookup task = some record →
    isActiveSequential record = true → world.tasks.lookup other = some record' →
    isPendingParallel record' = false
  completed : ∀ task record, world.tasks.lookup task = some record →
    record.status = .completed → record.headCommit.isSome = true
  merged : ∀ task record, world.tasks.lookup task = some record →
    record.status = .merged → record.mergeCommit.isSome = true
  apart : ∀ task task', task ≠ task' → Apart task task'
  named : ∀ task, task ≠ integrationLock → taskBranch task ≠ integrationBranch

theorem Ledger.Consistent.lifecycle (h : world.ledger.Consistent) : world.Lifecycle where
  worktree := h.worktree
  branch := h.branch
  integration := by
    refine ⟨?_, h.integration⟩
    rintro ⟨record, hrecord, hpending⟩
    exact (h.named _ record hrecord (isPendingParallel_mode hpending)).1 rfl
  exclusive := by
    intro task record other record' hrecord hactive hrecord'
    rcases h.exclusive with hfree | hfree
    · have hnone := hfree task record hrecord
      rw [hactive] at hnone
      cases hnone
    · exact hfree other record' hrecord'
  completed task record hrecord := (h.settled task record hrecord).head
  merged task record hrecord := (h.settled task record hrecord).merge
  apart _ _ := apart_of_ne
  named _ := taskBranch_ne_integration

/-- When requests are served one at a time, and each of them completes or is rejected, the
records, worktrees and branches always agree. -/
theorem lifecycle_consistent (hconsistent : world.ledger.Consistent)
    (hserial : machine.Serial truthful (Completes requests) (pool project requests world) i c) :
    c.state.Lifecycle :=
  (serial_consistent hconsistent hserial).lifecycle

end

theorem newProject_consistent : newProject.ledger.Consistent where
  integration := rfl
  worktree task := by
    constructor
    · intro hworktree
      cases hworktree
    · rintro ⟨record, hrecord, -⟩
      cases hrecord
  branch task hne := by
    constructor
    · intro hbranch
      have hnone : newProject.hasBranch (taskBranch task) = false := by
        simp [World.hasBranch, newProject, taskBranch_ne_integration hne]
      exact absurd hbranch (Bool.not_eq_true _ ▸ hnone)
    · rintro ⟨record, hrecord, -⟩
      cases hrecord
  named _ _ hrecord := nomatch hrecord
  settled _ _ hrecord := nomatch hrecord
  exclusive := Or.inl fun _ _ hrecord => nomatch hrecord

/-- Request `i` runs alone, and nothing fails. -/
def goesAlone (i : Nat) : View Action.Reply World → Nat → Action → Choice → Bool :=
  fun _ j _ choice => j = i && !choice.isFault

theorem goesAlone_truthful {i : Nat} (v : View Action.Reply World) (j : Nat) (action : Action)
    (choice : Choice) (h : goesAlone i v j action choice = true) :
    (truthful.only i) v j action choice := by
  simp only [goesAlone, Bool.and_eq_true, decide_eq_true_eq, Bool.not_eq_true'] at h
  refine ⟨h.1, ?_⟩
  rintro branch - rfl
  cases h.2

/-- In a new project a parallel task is started, which then has its worktree and its branch. -/
theorem lifecycle_consistent_example :
    ∃ c, machine.Serial truthful (Completes fun _ => .taskStart exampleTask true [])
        (pool exampleProject (fun _ => .taskStart exampleTask true []) newProject) 1 c ∧
      c.state.hasWorktree exampleTask = true ∧ c.state.Lifecycle := by
  have hvalue : (machine.run (goesAlone 0)
      (pool exampleProject (fun _ => .taskStart exampleTask true []) newProject)
      (goes 0 10 ++ [(0, .clock 1)] ++ goes 0 2)).map (fun c =>
        ((c.programs 0).value?.bind Outcome.record?, c.state.hasWorktree exampleTask)) =
      some (some (startedRecord exampleProject exampleTask true 0 [] 1), true) := by
    decide +kernel
  obtain ⟨c, hrun, hc⟩ := Machine.exists_of_guarded_run goesAlone_truthful hvalue
  obtain ⟨hrecord, hworktree⟩ := Prod.mk.inj hc
  have hret := Outcome.record?_value hrecord
  have hserial : machine.Serial truthful (Completes fun _ => .taskStart exampleTask true [])
      (pool exampleProject (fun _ => .taskStart exampleTask true []) newProject) 1 c :=
    .next .start hrun (Machine.final_of_ended (by simp [hret])) fun _ => Or.inl ⟨_, hret⟩
  exact ⟨c, hserial, hworktree, lifecycle_consistent newProject_consistent hserial⟩

/-- Without any task, the branch that a task called `integration` would have exists, and it is
the integration branch. -/
theorem integration_branch_without_task :
    ∃ (c : Pool) (task : Name),
      machine.Serial truthful (Completes fun _ => .projectStatus)
        (pool exampleProject (fun _ => .projectStatus) newProject) 0 c ∧
      c.state.tasks.lookup task = none ∧ c.state.hasBranch (taskBranch task) = true ∧
      taskBranch task = integrationBranch :=
  ⟨_, integrationLock, .start, rfl, rfl, rfl⟩

end AgentDev
