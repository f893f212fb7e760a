import AgentDev.Core.Footprints
import AgentDev.Core.Ledger
import AgentDev.Core.Runs
import AgentDev.Interleaving.Deadlock

/-!
# Requests that wait for locks

Most requests hold one lock at a time. A merge and an abort take the lock of their task while
they hold the integration lock, which has the same name when the task is called
`integration`. That a request never waits for itself therefore rests on the names of branches:
`agent/integration` always exists, so no parallel task of this name can be started
(`Reserved`), and a merge or abort of it is rejected before it takes a lock. With the
integration lock before all others, locks are then taken in order, and no requests ever wait for
one another (`requests_not_deadlocked`).
-/

namespace AgentDev

open Interleaving

/-! ## What a request knows when it takes a lock or deletes a branch -/

section

variable {i : Nat} {task : Name} {h : History}

/-- A parallel record of the task that the request has read. -/
def ReadParallel (i : Nat) (task : Name) (record : TaskRecord) (h : History) : Prop :=
  ⟨i, .readRecord task, some record⟩ ∈ h ∧ record.mode = .parallel

/-- A request that holds a lock takes another one only when it merges or aborts a parallel task,
whose branch is the only one that it may delete. -/
def Orderly (i : Nat) (h : History) : Action → Prop
  | .acquire lock _ => ∀ held ∈ fileLocks.held h, held.1 = integrationLock ∧
    ∃ record, ReadParallel i lock record h
  | .branchDelete branch _ => ∃ task record, ReadParallel i task record h ∧ branch = record.branch
  | _ => True

/-- Steps that neither take nor give back a lock, nor delete a branch other than that of `record`. -/
def Action.keepsLocks (record : Option TaskRecord) : Action → Prop
  | .acquire _ _ | .release _ => False
  | .branchDelete branch _ => ∃ deleted, record = some deleted ∧ branch = deleted.branch
  | _ => True

theorem Action.internal_of_keepsLocks {record : Option TaskRecord} {action : Action}
    (h : action.keepsLocks record) : fileLocks.Internal action := by
  cases action with
  | acquire => exact h.elim
  | release => exact h.elim
  | _ => exact ⟨rfl, rfl⟩

theorem Action.keepsLocks_of_quiet {record : Option TaskRecord} {action : Action}
    (h : action.quiet) : action.keepsLocks record := by
  cases action with
  | acquire => exact h
  | release => exact h
  | branchDelete => exact h.elim
  | _ => trivial

theorem only_keepsLocks {α : Type} {record : Option TaskRecord} {body : Op α}
    (h : body.Only Action.quiet) : body.Only (Action.keepsLocks record) :=
  Program.only_mono h fun _ => Action.keepsLocks_of_quiet

theorem Action.orderly_of_keepsLocks {record : Option TaskRecord} {action : Action}
    (hkeeps : action.keepsLocks record)
    (hrecord : ∀ deleted, record = some deleted → ∃ task, ReadParallel i task deleted h) :
    Orderly i h action := by
  cases action with
  | acquire => exact hkeeps.elim
  | branchDelete =>
    obtain ⟨deleted, hdeleted, rfl⟩ := hkeeps
    obtain ⟨task, hread⟩ := hrecord deleted hdeleted
    exact ⟨task, deleted, hread, rfl⟩
  | _ => trivial

end

/-! ## The bodies that run under a lock -/

section

variable {record : Option TaskRecord}

theorem startTaskLocked_only {project task : Name} {parallel : Bool} {dependencies : List Name} :
    (startTaskLocked project task parallel dependencies).Only (Action.keepsLocks record) := by
  refine Program.only_bind (only_ensureClean trivial) fun _ => ?_
  refine Program.only_bind (only_check trivial) fun _ => ?_
  refine Program.only_bind (only_act trivial) fun _ => Program.only_bind only_orFail fun _ => ?_
  refine Program.only_bind (only_keepsLocks validateDependencies_only) fun _ => ?_
  refine Program.only_bind (only_keepsLocks taskRecords_only) fun _ => ?_
  refine Program.only_bind (only_keepsLocks startGates_only) fun _ => ?_
  have hwrite : ∀ found : Nat → TaskRecord, (do
      let now ← act .nowIso
      writeJson task (found now)
      pure (found now) : Op TaskRecord).Only (Action.keepsLocks record) := by
    intro found
    refine Program.only_bind (only_act trivial) fun _ => ?_
    exact Program.only_bind (only_check trivial) fun _ => trivial
  cases parallel with
  | true =>
    exact Program.only_bind
      (createParallelWorktree_only (fun _ => Action.keepsLocks_of_quiet) trivial) fun _ => hwrite _
  | false => exact hwrite _

theorem completeTaskLocked_only {task : Name} {found : TaskRecord} {workspace : Workspace} :
    (completeTaskLocked task found workspace).Only (Action.keepsLocks record) := by
  refine Program.only_bind (only_ensureClean trivial) fun _ => ?_
  refine Program.only_bind (only_act trivial) fun _ => Program.only_bind only_orFail fun _ => ?_
  refine Program.only_bind only_require fun _ => ?_
  refine Program.only_bind (only_act trivial) fun _ => Program.only_bind only_orFail fun _ => ?_
  refine Program.only_bind (only_act trivial) fun _ => ?_
  exact Program.only_bind (only_check trivial) fun _ => trivial

theorem mergeTaskLocked_only {task : Name} {found : TaskRecord} {workspace : Workspace} :
    (mergeTaskLocked task found workspace).Only (Action.keepsLocks (some found)) := by
  refine Program.only_bind (mergeParallelWorktree_only (fun _ => Action.keepsLocks_of_quiet) trivial
    ⟨found, rfl, rfl⟩) fun _ => ?_
  refine Program.only_bind (only_act trivial) fun _ => ?_
  exact Program.only_bind (only_check trivial) fun _ => trivial

theorem abortTaskLocked_only {task : Name} {found : TaskRecord} {workspace : Workspace} :
    (abortTaskLocked task found workspace).Only (Action.keepsLocks (some found)) := by
  refine Program.only_bind (abortParallelWorktree_only (fun _ => Action.keepsLocks_of_quiet) trivial
    ⟨found, rfl, rfl⟩) fun _ => ?_
  refine Program.only_bind (only_act trivial) fun _ => ?_
  exact Program.only_bind (only_check trivial) fun _ => trivial

end

/-! ## Every request takes its locks in order -/

section

variable {i : Nat} {project task : Name} {h h' : History} {α : Type}

/-- Programs that end as they may. -/
abbrev OrderlyProgram (i : Nat) (h : History) (body : Op α) : Prop :=
  Obeys i (Orderly i) (fun _ _ => True) (fun _ _ => True) h body

theorem orderly_of_only {record : Option TaskRecord} {body : Op α}
    (hrecord : ∀ deleted, record = some deleted → ∃ task, ReadParallel i task deleted h)
    (hbody : body.Only (Action.keepsLocks record)) : OrderlyProgram i h body := by
  refine Obeys.of_only hbody (fun new action _ hkeeps => ?_) (fun _ _ _ => trivial)
    fun _ _ _ => trivial
  refine Action.orderly_of_keepsLocks hkeeps fun deleted hdeleted => ?_
  obtain ⟨task, hread, hmode⟩ := hrecord deleted hdeleted
  exact ⟨task, List.mem_append_left _ hread, hmode⟩

theorem orderly_lockOne {lock : Name} {readonly : Bool} {body : Op α}
    (hacquire : Orderly i h (.acquire lock readonly))
    (hbody : OrderlyProgram i (h ++ [⟨i, .acquire lock readonly, ()⟩]) body) :
    OrderlyProgram i h (lockOne lock readonly body) :=
  obeys_lockOne hacquire hbody (fun _ _ _ => ⟨trivial, trivial⟩) fun _ _ _ => ⟨trivial, trivial⟩

/-- A request that holds no lock takes one, for steps that keep it. -/
theorem orderly_lockOne_of_only {lock : Name} {readonly : Bool} {body : Op α}
    (hheld : fileLocks.held h = []) (hbody : body.Only (Action.keepsLocks none)) :
    OrderlyProgram i h (lockOne lock readonly body) := by
  refine orderly_lockOne ?_ (orderly_of_only ?_ hbody)
  · intro held hmem
    rw [hheld] at hmem
    cases hmem
  · intro deleted hnone
    cases hnone

/-- Before a request takes its first lock it only reads. -/
theorem orderly_bind_of_only {β : Type} {first : Op α} {next : α → Op β}
    (hheld : fileLocks.held h = []) (hfirst : first.Only Action.quiet)
    (hnext : ∀ value h', fileLocks.held h' = [] → OrderlyProgram i h' (next value)) :
    OrderlyProgram i h (first >>= next) := by
  have hbefore : Obeys i (Orderly i) (fun _ h' => fileLocks.held h' = []) (fun _ _ => True) h
      first := by
    have hkeeps : first.Only (Action.keepsLocks none) := only_keepsLocks hfirst
    refine Obeys.of_only hkeeps (fun new action _ hkeeps => ?_) (fun new value hnew => ?_)
      fun _ _ _ => trivial
    · exact Action.orderly_of_keepsLocks hkeeps fun _ hnone => nomatch hnone
    · rw [Locking.held_append_internal fun e he => Action.internal_of_keepsLocks (hnew e he)]
      exact hheld
  exact hbefore.bind hnext

/-- The record that `load_task` returns has been read. -/
theorem orderly_loadTask_bind {β : Type} {next : TaskRecord × Workspace → Op β}
    (hheld : fileLocks.held h = [])
    (hnext : ∀ value h', fileLocks.held h' = [] → ⟨i, .readRecord task, some value.1⟩ ∈ h' →
      OrderlyProgram i h' (next value)) :
    OrderlyProgram i h (loadTask project task >>= next) := by
  have hload : Obeys i (Allowed i project (.taskComplete task)) _ _ h (loadTask project task) :=
    loadTask_obeys
  have horderly : ∀ (h : History) (action : Action), action.keepsLocks none → Orderly i h action :=
    fun h action hkeeps => Action.orderly_of_keepsLocks hkeeps fun _ hnone => nomatch hnone
  refine (hload.allowing (only_keepsLocks loadTask_only) horderly).bind fun value h' hvalue => ?_
  refine hnext value h' ?_ hvalue.2.read
  rw [hvalue.1.held]
  exact hheld

/-- A merge or an abort takes the lock of its parallel task under the integration lock. -/
theorem orderly_lockBoth {record : TaskRecord} {body : Op α} (hheld : fileLocks.held h = [])
    (hread : ReadParallel i task record h)
    (hbody : body.Only (Action.keepsLocks (some record))) :
    OrderlyProgram i h (lockOne integrationLock false (lockOne task false body)) := by
  have hread' : ∀ new, ReadParallel i task record (h ++ new) :=
    fun new => ⟨List.mem_append_left _ hread.1, hread.2⟩
  refine orderly_lockOne ?_ (orderly_lockOne ?_ (orderly_of_only ?_ hbody))
  · intro held hmem
    rw [hheld] at hmem
    cases hmem
  · rw [Orderly, held_acquire, hheld]
    intro held hmem
    rw [List.mem_singleton.mp hmem]
    exact ⟨rfl, record, hread' _⟩
  · intro deleted hdeleted
    cases hdeleted
    exact ⟨task, by simpa using hread' [_, _]⟩

theorem request_orderly (request : Request) :
    Obeys i (Orderly i) (fun _ _ => True) (fun _ _ => True) [] (request.program project) := by
  have hnone : fileLocks.held ([] : History) = [] := rfl
  cases request with
  | taskStart task parallel dependencies =>
    refine Obeys.bind (Q := fun _ _ => True) ?_ fun _ _ _ => trivial
    refine orderly_bind_of_only hnone only_require fun _ h hheld => ?_
    refine orderly_bind_of_only hheld only_require fun _ h hheld => ?_
    refine orderly_bind_of_only hheld (only_check trivial) fun _ h hheld => ?_
    refine orderly_bind_of_only hheld (only_check trivial) fun _ h hheld => ?_
    refine orderly_bind_of_only hheld (only_act trivial) fun found h hheld => ?_
    cases (found : Bool) with
    | true => trivial
    | false => exact orderly_lockOne_of_only hheld startTaskLocked_only
  | taskComplete task =>
    refine Obeys.bind (Q := fun _ _ => True) ?_ fun _ _ _ => trivial
    refine orderly_bind_of_only hnone loadTask_only fun value h hheld => ?_
    refine orderly_bind_of_only hheld only_require fun _ h hheld => ?_
    exact orderly_lockOne_of_only hheld completeTaskLocked_only
  | taskMerge task =>
    refine Obeys.bind (Q := fun _ _ => True) ?_ fun _ _ _ => trivial
    refine orderly_loadTask_bind hnone fun value h hheld hread => ?_
    refine obeys_require trivial fun hok => ?_
    simp only [Bool.and_eq_true, decide_eq_true_eq] at hok
    exact orderly_lockBoth hheld ⟨hread, hok.1⟩ mergeTaskLocked_only
  | taskAbort task =>
    refine Obeys.bind (Q := fun _ _ => True) ?_ fun _ _ _ => trivial
    refine orderly_loadTask_bind hnone fun value h hheld hread => ?_
    refine obeys_require trivial fun hok => ?_
    simp only [Bool.and_eq_true, decide_eq_true_eq] at hok
    exact orderly_lockBoth hheld ⟨hread, hok.1⟩ abortTaskLocked_only
  | projectSync bundle =>
    refine Obeys.bind (Q := fun _ _ => True) ?_ fun _ _ _ => trivial
    refine orderly_bind_of_only hnone (only_check trivial) fun _ h hheld => ?_
    refine orderly_bind_of_only hheld (only_check trivial) fun _ h hheld => ?_
    refine orderly_bind_of_only hheld taskRecords_only fun _ h hheld => ?_
    refine orderly_bind_of_only hheld only_require fun _ h hheld => ?_
    exact orderly_lockOne_of_only hheld (only_keepsLocks synchronizeAgentProject_only)
  | projectExport =>
    refine Obeys.bind (Q := fun _ _ => True) ?_ fun _ _ _ => trivial
    refine orderly_bind_of_only hnone (only_check trivial) fun _ h hheld => ?_
    refine orderly_bind_of_only hheld (only_check trivial) fun _ h hheld => ?_
    refine Obeys.bind (Q := fun _ _ => True)
      (orderly_lockOne_of_only hheld (only_keepsLocks exportAgentProject_only)) fun head h _ => ?_
    have honly : (check (.probe .bundleAcl) id (.internal "setfacl") >>= fun _ =>
        pure head : Op Commit).Only (Action.keepsLocks none) :=
      Program.only_bind (only_check trivial) fun _ => trivial
    refine orderly_of_only (fun deleted hnone => ?_) honly
    cases hnone
  | projectStatus =>
    refine Obeys.bind (Q := fun _ _ => True) ?_ fun _ _ _ => trivial
    refine orderly_bind_of_only hnone (only_check trivial) fun _ h hheld => ?_
    refine orderly_lockOne_of_only hheld ?_
    exact Program.only_bind (only_keepsLocks projectGitStatus_only) fun _ =>
      Program.only_bind (only_keepsLocks taskRecords_only) fun _ => trivial
  | run task readonly =>
    refine Obeys.bind (Q := fun _ _ => True) ?_ fun _ _ _ => trivial
    refine orderly_bind_of_only hnone loadTask_only fun value h hheld => ?_
    refine orderly_bind_of_only hheld only_require fun _ h hheld => ?_
    refine orderly_bind_of_only hheld (only_check trivial) fun _ h hheld => ?_
    refine orderly_bind_of_only hheld resolveMounts_only fun _ h hheld => ?_
    refine orderly_bind_of_only hheld (only_check trivial) fun _ h hheld => ?_
    exact orderly_lockOne_of_only hheld (only_keepsLocks executeRun_only)
  | index task =>
    refine Obeys.bind (Q := fun _ _ => True) ?_ fun _ _ _ => trivial
    refine orderly_bind_of_only hnone loadTask_only fun value h hheld => ?_
    refine orderly_bind_of_only hheld only_require fun _ h hheld => ?_
    refine orderly_bind_of_only hheld (only_check trivial) fun _ h hheld => ?_
    refine orderly_bind_of_only hheld (only_check trivial) fun _ h hheld => ?_
    refine orderly_bind_of_only hheld resolveMounts_only fun _ h hheld => ?_
    exact orderly_lockOne_of_only hheld (only_keepsLocks runNoninteractive_only)

theorem pool_orderly (project : Name) (requests : Nat → Request) (world : World) :
    Rules.Obeyed ⟨Orderly, fun _ _ _ => True, fun _ _ _ => True⟩ (pool project requests world) :=
  fun i => request_orderly (requests i)

end

/-! ## The name `integration` -/

/-- The integration branch exists, and the parallel tasks have other branches. -/
structure World.Reserved (world : World) : Prop where
  integration : world.hasBranch integrationBranch = true
  stored : ∀ task record, world.tasks.lookup task = some record → record.Named task

/-- The same of all that the requests know. -/
structure Reserved (c : Pool) : Prop extends World.Reserved c.state where
  read : ∀ i task record, ⟨i, .readRecord task, some record⟩ ∈ c.trace → record.Named task
  added : ∀ i branch task, ⟨i, .worktreeAdd branch task, Addition.added⟩ ∈ c.trace →
    branch ≠ integrationBranch

section

variable {project : Name} {requests : Nat → Request} {world : World}
  {guard : Guard Action.Reply World Choice} {c c' : Pool} {e : Event Action.Reply}
  {task : Name} {record : TaskRecord}

/-- Git creates no branch that exists. -/
theorem step_worktreeAdd {i : Nat} {branch : String}
    (hstep : machine.Step guard ⟨i, .worktreeAdd branch task, Addition.added⟩ c c') :
    c.state.hasBranch branch = false := by
  obtain ⟨rest, choice, state, -, -, hexec, rfl⟩ := hstep
  exact exec_worktreeAdd hexec

/-- Whoever deletes a branch has read its name in the record of a parallel task. -/
theorem Reserved.integration_step
    (hrun : machine.Reaches guard (pool project requests world) c) (hstep : machine.Step guard e c c')
    (h : Reserved c) : c'.state.hasBranch integrationBranch = true := by
  have horderly := ((pool_orderly project requests world).reaches hrun).allowed hstep
  obtain ⟨rest, choice, state, -, -, hexec, rfl⟩ := hstep
  refine (exec_hasBranch hexec integrationBranch).trans ?_
  rw [show c.state.hasBranch integrationBranch = true from h.integration]
  refine branchAfter_of_kept fun force hdelete => ?_
  rw [hdelete] at horderly
  obtain ⟨task, record, ⟨hread, hmode⟩, hbranch⟩ := horderly
  exact (h.read _ _ _ (mem_own.mp hread).1).branch_ne hmode hbranch.symm

/-- Whoever writes the record of a parallel task has created its branch or has read its name. -/
theorem Reserved.named_write (hrun : machine.Reaches guard (pool project requests world) c)
    (hstep : machine.Step guard e c c') (h : Reserved c) (hwrites : writes task e = some record) :
    record.Named task := by
  obtain ⟨-, hwrite⟩ := step_write hrun hstep hwrites
  by_cases hstart : ∃ parallel dependencies,
      requests e.thread = .taskStart task parallel dependencies
  · obtain ⟨parallel, dependencies, hrequest⟩ := hstart
    rw [hrequest] at hwrite
    cases hwrite with
    | start _ _ hwrite =>
      obtain ⟨base, now, rfl⟩ := hwrite.value
      intro hmode
      cases parallel with
      | false => cases hmode
      | true =>
        obtain ⟨h₁, h₂, records, hlocked, -, -, hadded⟩ := hwrite.gates
        have hmem : ⟨e.thread, .worktreeAdd (taskBranch task) task, Addition.added⟩ ∈ own e.thread c.trace := by
          rw [hlocked.split]
          exact List.mem_append_right _ hadded
        refine ⟨?_, rfl⟩
        rintro rfl
        exact h.added _ _ _ (mem_own.mp hmem).1 taskBranch_integration
  · have hother : ∀ parallel dependencies,
        requests e.thread ≠ .taskStart task parallel dependencies := by
      intro parallel dependencies heq
      exact hstart ⟨parallel, dependencies, heq⟩
    obtain ⟨old, hread, hsame, -⟩ := write_read hwrite hother
    intro hmode
    rw [hsame.mode] at hmode
    rw [hsame.branch]
    exact h.read _ _ _ (mem_own.mp hread).1 hmode

theorem Reserved.step (hrun : machine.Reaches guard (pool project requests world) c)
    (hstep : machine.Step guard e c c') (h : Reserved c) : Reserved c' := by
  refine ⟨⟨h.integration_step hrun hstep, fun task record hrecord => ?_⟩, ?_, ?_⟩
  · rcases step_lookup_cases hstep hrecord with hwrites | ⟨-, hsame⟩
    · exact h.named_write hrun hstep hwrites
    · exact h.stored task record hsame
  · intro i task record hread
    rw [hstep.trace_eq] at hread
    rcases List.mem_append.mp hread with hread | hread
    · exact h.read i task record hread
    · rw [← List.mem_singleton.mp hread] at hstep
      exact h.stored task record (step_readRecord hstep).symm
  · intro i branch task hadded
    rw [hstep.trace_eq] at hadded
    rcases List.mem_append.mp hadded with hadded | hadded
    · exact h.added i branch task hadded
    · rw [← List.mem_singleton.mp hadded] at hstep
      rintro rfl
      have hexists := h.integration
      rw [step_worktreeAdd hstep] at hexists
      cases hexists

theorem Reserved.reaches (hreserved : world.Reserved)
    (hrun : machine.Reaches guard (pool project requests world) c) : Reserved c := by
  induction hrun with
  | refl => exact ⟨hreserved, (fun _ _ _ hmem => nomatch hmem), fun _ _ _ hmem => nomatch hmem⟩
  | step hreach hstep ih => exact ih.step hreach hstep

/-! ## No deadlock -/

/-- The order of the locks: the integration lock comes before all others. -/
def lockBefore (lock lock' : Name) : Prop := lock = integrationLock ∧ lock' ≠ integrationLock

theorem lockBefore_wellFounded : WellFounded fun lock lock' => lockBefore lock' lock := by
  -- after the lock of a task there is none
  have hlast : ∀ lock, lock ≠ integrationLock → Acc (fun lock lock' => lockBefore lock' lock) lock :=
    fun lock hlock => .intro lock fun _ hbefore => absurd hbefore.1 hlock
  refine ⟨fun lock => .intro lock fun next hbefore => ?_⟩
  exact hlast next hbefore.2

/-- A request that holds a lock holds the integration lock, and asks for the lock of a task. -/
theorem locks_inOrder (hreserved : world.Reserved)
    (hrun : machine.Reaches guard (pool project requests world) c) {i : Nat} {action : Action}
    {rest : action.Reply → Op Outcome} (hprog : c.programs i = .act action rest) :
    fileLocks.InOrder lockBefore (own i c.trace) action := by
  intro lock shared hacquires held hheld
  have hobeys := (pool_orderly project requests world).reaches hrun i
  rw [hprog] at hobeys
  cases action with
  | acquire lock' shared' =>
    cases hacquires
    obtain ⟨hintegration, record, hread, hmode⟩ := hobeys.1 held hheld
    exact ⟨hintegration,
      ((Reserved.reaches hreserved hrun).read _ _ _ (mem_own.mp hread).1 hmode).1⟩
  | _ => cases hacquires

/-- However the requests are interleaved, they never wait for one another in a circle, and none
of them waits for itself. -/
theorem requests_not_deadlocked (hidle : world.Idle) (hreserved : world.Reserved)
    (hrun : machine.Reaches anyStep (pool project requests world) c) :
    (∀ threads, ¬fileLocks.Deadlocked c threads) ∧ ∀ i, ¬fileLocks.BlockedBy c i i := by
  have hstarted : fileLocks.Started (pool project requests world) := ⟨rfl, hidle.locks⟩
  have hfree := hstarted.not_deadlocked lockBefore_wellFounded
    (fun c i action rest hreach hprog => locks_inOrder hreserved hreach hprog) hrun
  refine ⟨hfree, fun i hblocked => hfree {i} ⟨⟨i, rfl⟩, fun j hj => ⟨i, rfl, ?_⟩⟩⟩
  rw [Set.mem_singleton_iff.mp hj]
  exact hblocked

end

/-- The lock that request `i` asks for. -/
def asksFor (c : Pool) (i : Nat) : Option (Name × Bool) :=
  match c.programs i with
  | .act action _ => action.acquires
  | _ => none

theorem wants_of_asksFor {c : Pool} {i : Nat} {lock : Name} {shared : Bool}
    (h : asksFor c i = some (lock, shared)) : fileLocks.Wants c i lock shared := by
  unfold asksFor at h
  split at h
  · rename_i action rest hprog
    exact ⟨action, rest, hprog, h⟩
  · cases h

theorem parallelProject_reserved : parallelProject.Reserved := by
  refine ⟨by decide +kernel, fun task record hrecord _ => ?_⟩
  by_cases htask : task = exampleTask
  · subst htask
    have hexample : parallelProject.tasks.lookup exampleTask = some exampleCompleted :=
      AList.lookup_insert ..
    rw [hexample] at hrecord
    cases hrecord
    exact ⟨by decide, rfl⟩
  · have hother : parallelProject.tasks.lookup task = none := AList.lookup_insert_ne htask
    rw [hother] at hrecord
    cases hrecord

/-- Two merges of one task: the second one waits for the first one, and nobody else waits. -/
theorem requests_not_deadlocked_example :
    ∃ c, machine.Reaches anyStep
        (pool exampleProject (fun _ => .taskMerge exampleTask) parallelProject) c ∧
      fileLocks.BlockedBy c 1 0 ∧ ∀ threads, ¬fileLocks.Deadlocked c threads := by
  have hvalue : (machine.run (fun _ _ _ _ => true)
      (pool exampleProject (fun _ => .taskMerge exampleTask) parallelProject)
      (goes 0 5 ++ goes 1 3)).map (fun c => (asksFor c 1, c.state.locks)) =
      some (some (integrationLock, false),
        [⟨0, exampleTask, false⟩, ⟨0, integrationLock, false⟩]) := by decide +kernel
  obtain ⟨c, hrun, hc⟩ := Machine.exists_of_run hvalue
  obtain ⟨hasks, hlocks⟩ := Prod.mk.inj hc
  refine ⟨c, hrun, ?_, (requests_not_deadlocked parallelProject_idle parallelProject_reserved hrun).1⟩
  refine ⟨integrationLock, false, false, wants_of_asksFor hasks, ?_, rfl⟩
  show _ ∈ c.state.locks
  rw [hlocks]
  simp

end AgentDev
