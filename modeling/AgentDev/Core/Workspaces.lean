import AgentDev.Core.Runs

/-!
# Workspaces and their locks

The workspace of a request and the name of its lock are computed by different functions from a
record that may be old. Nevertheless every request holds the lock of each workspace that it
uses (`Allowed.covered`), so two requests that use one workspace at the same time are both
readonly runs, and nobody else is near when a worktree is removed or `repo/agent` is moved
(`workspaces_exclusive`).

The creation of a worktree is not covered: a start holds the integration lock only, and another
request may already work in the new worktree before the start has given it back
(`creation_not_locked`).
-/

namespace AgentDev

open Interleaving

/-- The workspaces that a step touches, the worktree that it creates included. That a path exists
is asked without touching it. -/
def Action.touches : Action → Workspace → Prop
  | .worktreeAdd _ task, w => w = .agent ∨ w = .worktree task
  | action, w => action.uses w

/-- Steps that remove the workspace or move what is checked out in it. -/
def Action.disturbs : Action → Workspace → Prop
  | .worktreeRemove workspace _, w => w = workspace
  | .gitSwitch, w | .gitMerge _, w | .gitMergeAbort, w | .gitMergeFf, w => w = .agent
  | _, _ => False

section

variable {project : Name} {requests : Nat → Request} {world : World}
  {guard : Guard Action.Reply World Choice} {c c' : Pool} {e : Event Action.Reply}
  {workspace : Workspace}

/-- Request `i` is a readonly run that holds the lock of the workspace in shared mode. -/
structure SharedRun (requests : Nat → Request) (c : Pool) (i : Nat) (workspace : Workspace) :
    Prop where
  locked : (lockOf workspace, true) ∈ fileLocks.held (own i c.trace)
  readonly : ∃ task, requests i = .run task true

/-- Two requests that touch one workspace in critical sections that overlap are readonly runs. -/
def WorkspacesExclusive (touches : Action → Workspace → Prop) (requests : Nat → Request)
    (c : Pool) : Prop :=
  ∀ i j workspace, i ≠ j → fileLocks.Touching touches c i workspace →
    fileLocks.Touching touches c j workspace →
    SharedRun requests c i workspace ∧ SharedRun requests c j workspace

/-- The requests that hold a lock in shared mode are readonly runs, a status or an export. -/
theorem shared_request (hrun : machine.Reaches guard (pool project requests world) c) {i : Nat}
    {l : Name} (hheld : (l, true) ∈ fileLocks.held (own i c.trace)) :
    requests i = .projectStatus ∨ requests i = .projectExport ∨
      ∃ task, requests i = .run task true := by
  obtain ⟨e, hmem, hacquires⟩ := Locking.acquired_of_held hheld
  obtain ⟨hmem, hthread⟩ := mem_own.mp hmem
  obtain ⟨before, after, htrace⟩ := List.append_of_mem hmem
  have hallowed := (pool_obeyed project requests world).allowed_of_split rfl hrun htrace
  have hlicence : Licence e.thread project (requests e.thread) (own e.thread before) e.action :=
    hallowed.licence
  obtain ⟨j, action, reply⟩ := e
  obtain rfl : j = i := hthread
  cases action with
  | acquire lock shared =>
    cases hacquires
    exact hlicence rfl
  | _ => cases hacquires

/-- Whoever removes a worktree or moves `repo/agent` holds the lock of it exclusively. -/
theorem disturbs_locked (hrun : machine.Reaches guard (pool project requests world) c)
    (hstep : machine.Step guard e c c') (hdisturbs : e.action.disturbs workspace) :
    (lockOf workspace, false) ∈ fileLocks.held (own e.thread c.trace) := by
  have hlicence := (step_allowed hrun hstep).licence
  obtain ⟨i, action, reply⟩ := e
  cases action with
  | worktreeRemove removed force =>
    obtain rfl : workspace = removed := hdisturbs
    obtain ⟨task, rfl, -, hheld, -⟩ := hlicence
    exact hheld
  | gitSwitch =>
    obtain rfl : workspace = .agent := hdisturbs
    exact hlicence
  | gitMerge commit =>
    obtain rfl : workspace = .agent := hdisturbs
    exact hlicence
  | gitMergeAbort =>
    obtain rfl : workspace = .agent := hdisturbs
    exact hlicence
  | gitMergeFf =>
    obtain rfl : workspace = .agent := hdisturbs
    exact hlicence.1
  | _ => exact hdisturbs.elim

/-- Apart from the creation of worktrees, requests that touch one workspace at the same time are
readonly runs; and nobody holds the lock of a workspace that another request removes or moves. -/
theorem workspaces_exclusive (hidle : world.Idle)
    (hrequests : ∀ i, requests i ≠ .projectStatus ∧ requests i ≠ .projectExport)
    (hrun : machine.Reaches guard (pool project requests world) c) :
    WorkspacesExclusive Action.uses requests c ∧
      ∀ e c' workspace, machine.Step guard e c c' → e.action.disturbs workspace →
        ∀ j, j ≠ e.thread → ∀ shared, (lockOf workspace, shared) ∉ fileLocks.held (own j c.trace) := by
  have hlocks : fileLocks.Started (pool project requests world) := ⟨rfl, hidle.locks⟩
  have hreadonly : ∀ i workspace, (lockOf workspace, true) ∈ fileLocks.held (own i c.trace) →
      SharedRun requests c i workspace := by
    intro i workspace hheld
    refine ⟨hheld, ?_⟩
    rcases shared_request hrun hheld with hstatus | hexport | hread
    · exact absurd hstatus (hrequests i).1
    · exact absurd hexport (hrequests i).2
    · exact hread
  constructor
  · intro i j workspace hne hi hj
    obtain ⟨hheld, hheld'⟩ := hlocks.shared_of_touching (pool_obeyed project requests world)
      (fun _ _ _ hallowed => hallowed.covered) hrun hne hi hj
    exact ⟨hreadonly i workspace hheld, hreadonly j workspace hheld'⟩
  · intro e c' workspace hstep hdisturbs j hne shared
    exact hlocks.not_held hrun (disturbs_locked hrun hstep hdisturbs) hne shared

end

/-- Request 0 starts a parallel task, and the others run a provider for it. -/
def exampleCreation : Nat → Request
  | 0 => .taskStart exampleTask true []
  | _ => .run exampleTask false

instance (action : Action) (workspace : Workspace) : Decidable (action.touches workspace) := by
  cases action <;> dsimp only [Action.touches, Action.uses] <;> infer_instance

instance (action : Action) : Decidable (fileLocks.Internal action) :=
  inferInstanceAs (Decidable (action.acquires = none ∧ action.releases = none))

/-- The start has created the worktree and written the record, and still holds the integration
lock, when the run has read the record, taken the lock of the task and started an execution there. -/
theorem creation_not_locked :
    ∃ c, machine.Reaches anyStep (pool exampleProject exampleCreation newProject) c ∧
      fileLocks.held (own 0 c.trace) = [(integrationLock, false)] ∧
      fileLocks.held (own 1 c.trace) = [(exampleTask, false)] ∧
      ¬WorkspacesExclusive Action.touches exampleCreation c := by
  have hrun : ((machine.run (fun _ _ _ _ => true) (pool exampleProject exampleCreation newProject)
      (goes 0 10 ++ [(0, .clock 1)] ++ goes 0 1 ++ goes 1 10)).map fun c =>
        (fileLocks.held (own 0 c.trace), fileLocks.held (own 1 c.trace),
          ((own 0 c.trace).reverse.takeWhile fun e => fileLocks.Internal e.action).any fun e =>
            e.action.touches (.worktree exampleTask),
          ((own 1 c.trace).reverse.takeWhile fun e => fileLocks.Internal e.action).any fun e =>
            e.action.touches (.worktree exampleTask))) =
      some ([(integrationLock, false)], [(exampleTask, false)], true, true) := by
    decide +kernel
  obtain ⟨c, hreaches, hvalue⟩ := Machine.exists_of_run hrun
  simp only [Prod.mk.injEq] at hvalue
  obtain ⟨hheld, hheld', htouched, htouched'⟩ := hvalue
  refine ⟨c, hreaches, hheld, hheld', fun hexclusive => ?_⟩
  obtain ⟨-, hshared⟩ := hexclusive 0 1 (.worktree exampleTask) (by decide)
    (Or.inl (Locking.hasTouched_of_any htouched)) (Or.inl (Locking.hasTouched_of_any htouched'))
  obtain ⟨task, hrequest⟩ := hshared.readonly
  cases hrequest

/-- Two readonly runs in one workspace. -/
def exampleReaders : Nat → Request := fun _ => .run exampleTask true

theorem workspaces_exclusive_example :
    ∃ c, machine.Reaches anyStep (pool exampleProject exampleReaders parallelProject) c ∧
      fileLocks.held (own 0 c.trace) = [(exampleTask, true)] ∧
      fileLocks.held (own 1 c.trace) = [(exampleTask, true)] ∧
      WorkspacesExclusive Action.uses exampleReaders c := by
  have hrun : ((machine.run (fun _ _ _ _ => true) (pool exampleProject exampleReaders parallelProject)
      (goes 0 10 ++ goes 1 10)).map fun c =>
        (fileLocks.held (own 0 c.trace), fileLocks.held (own 1 c.trace))) =
      some ([(exampleTask, true)], [(exampleTask, true)]) := by
    decide +kernel
  obtain ⟨c, hreaches, hvalue⟩ := Machine.exists_of_run hrun
  simp only [Prod.mk.injEq] at hvalue
  exact ⟨c, hreaches, hvalue.1, hvalue.2, (workspaces_exclusive parallelProject_idle
    (fun i => ⟨Request.noConfusion, Request.noConfusion⟩) hreaches).1⟩

end AgentDev
