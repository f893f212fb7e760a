import AgentDev.Core.Runs

/-!
# Executions

A writable `run` checks that its task is active before it waits for the lock of the workspace,
and not again when it has the lock. A task that is completed, merged or aborted meanwhile is then
worked on all the same (`completed_task_runs`). When no request writes the record between the read
of a run and the start of its execution, the execution starts on an active task; and from
then on the lock that the run holds keeps the record as it is (`executions_active_iff`).
-/

namespace AgentDev

open Interleaving

section

variable {project : Name} {requests : Nat → Request} {world : World}
  {guard : Guard Action.Reply World Choice} {c c' : Pool} {e : Event Action.Reply} {task : Name}

/-- Requests that do anything but start tasks. -/
def NoStarts (requests : Nat → Request) : Prop :=
  ∀ task i parallel dependencies, requests i ≠ .taskStart task parallel dependencies

/-- The container is the provider execution of a writable `run`. -/
def Writing (requests : Nat → Request) (container : Container) : Prop :=
  container.readonly = false ∧ requests container.thread = .run container.task false

/-- The task of the execution is active, and its workspace is locked. -/
structure Safely (container : Container) (c : Pool) : Prop where
  active : ∃ record, c.state.tasks.lookup container.task = some record ∧
    record.status = .active ∧ container.workspace = workspaceOf container.task record
  locked : (lockOf container.workspace, false) ∈ fileLocks.held (own container.thread c.trace)

/-- In the run from `c₀` to `c`, whenever a writable execution has started its task was active,
and every execution that is still running has an active task. -/
structure ExecutionsActive (requests : Nat → Request) (c₀ c : Pool) : Prop where
  starts : ∀ c₁ c₂ i task workspace, requests i = .run task false →
    machine.Reaches anyStep c₀ c₁ →
    machine.Step anyStep ⟨i, .startContainer task workspace false, true⟩ c₁ c₂ →
    machine.Reaches anyStep c₂ c → Safely ⟨i, task, workspace, false⟩ c₁
  runs : ∀ c₁ container, machine.Reaches anyStep c₀ c₁ → machine.Reaches anyStep c₁ c →
    container ∈ c₁.state.containers → Writing requests container → Safely container c₁

/-- No request writes the record of the task between the read of a writable run and the start of
its execution. -/
def RunsFresh (requests : Nat → Request) (trace : List (Event Action.Reply)) : Prop :=
  ∀ before i task workspace after, requests i = .run task false →
    trace = before ++ ⟨i, .startContainer task workspace false, true⟩ :: after →
    ∀ e ∈ since (reads i task) before, writes task e = none

/-! ## Containers and their requests -/

theorem running_cases {i : Nat} {containers : List Container} {container : Container}
    (h : container ∈ e.action.running i containers e.reply) :
    (container ∈ containers ∧ (e.action = .stopContainer → container.thread ≠ i)) ∨
      (container.thread = i ∧ e = ⟨e.thread,
        .startContainer container.task container.workspace container.readonly, true⟩) := by
  obtain ⟨thread, action, reply⟩ := e
  cases action with
  | startContainer task workspace readonly =>
    cases (reply : Bool) with
    | false => exact Or.inl ⟨h, fun heq => nomatch heq⟩
    | true =>
      rcases List.mem_cons.mp h with rfl | h
      · exact Or.inr ⟨rfl, rfl⟩
      · exact Or.inl ⟨h, fun heq => nomatch heq⟩
  | stopContainer =>
    obtain ⟨hmem, hne⟩ := List.mem_filter.mp h
    exact Or.inl ⟨hmem, fun _ => by simpa using hne⟩
  | _ => exact Or.inl ⟨h, fun heq => nomatch heq⟩

theorem running_started {containers : List Container} {i : Nat} {container : Container}
    {action : Action} {reply : action.Reply} (hmem : container ∈ containers)
    (hstop : action = .stopContainer → container.thread ≠ i) :
    container ∈ action.running i containers reply := by
  cases action with
  | startContainer task workspace readonly =>
    cases (reply : Bool) with
    | false => exact hmem
    | true => exact List.mem_cons_of_mem _ hmem
  | stopContainer => exact List.mem_filter.mpr ⟨hmem, by simpa using hstop rfl⟩
  | _ => exact hmem

/-- A container has been started by its request, which has not stopped it. -/
theorem containers_started (hidle : world.Idle)
    (hrun : machine.Reaches guard (pool project requests world) c) {container : Container}
    (hmem : container ∈ c.state.containers) :
    container ∈ started container.thread (own container.thread c.trace) := by
  induction hrun with
  | refl =>
    have hnone : container ∈ world.containers := hmem
    rw [hidle.containers] at hnone
    cases hnone
  | @step c c' e _ hstep ih =>
    rw [step_containers hstep] at hmem
    rw [hstep.trace_eq, own_append]
    rcases running_cases hmem with ⟨hmem, hstop⟩ | ⟨hthread, hevent⟩
    · by_cases hthread : e.thread = container.thread
      · rw [own_cons_self hthread, own_nil, started_snoc]
        exact running_started (ih hmem) fun heq => absurd hthread.symm (hstop heq)
      · rw [own_cons_of_ne hthread, own_nil, List.append_nil]
        exact ih hmem
    · rw [own_cons_self hthread.symm, own_nil, started_snoc, hevent]
      exact List.mem_cons_self

/-! ## Executions keep their tasks active -/

/-- The lock under which a record is written is the lock of the workspace of its task. -/
theorem taskLockName_eq_lockOf {old record : TaskRecord} (hmode : record.mode = old.mode)
    (hactive : record.status = .active) :
    taskLockName task old = lockOf (workspaceOf task record) := by
  rw [lockOf_workspaceOf, ← taskLockName_eq_runLockName]
  · simp [taskLockName, hmode]
  · rw [hactive]
    intro heq
    cases heq

/-- While an execution runs, its request keeps the lock. -/
theorem execution_keeps_lock (hrun : machine.Reaches guard (pool project requests world) c)
    (hstep : machine.Step guard e c c') {container : Container} (hwriting : Writing requests container)
    (hstarted : container ∈ started container.thread (own container.thread c.trace))
    {l : Name} (hlock : (l, false) ∈ fileLocks.held (own container.thread c.trace)) :
    (l, false) ∈ fileLocks.held (own container.thread c'.trace) := by
  rw [hstep.trace_eq, own_append]
  by_cases hthread : e.thread = container.thread
  · rw [own_cons_self hthread, own_nil, Locking.held_snoc]
    refine Locking.mem_hold hlock fun hreleases => ?_
    obtain ⟨i, action, reply⟩ := e
    obtain rfl : i = container.thread := hthread
    cases action with
    | release lock =>
      have hstopped := (step_allowed hrun hstep).licence.2 container.task false hwriting.2
      rw [hstopped] at hstarted
      cases hstarted
    | _ => cases hreleases
  · rw [own_cons_of_ne hthread, own_nil, List.append_nil]
    exact hlock

/-- While an execution runs on an active task, nobody writes the record: that takes the lock. -/
theorem execution_keeps_record (hidle : world.Idle) (hstart : NoStarts requests)
    (hrun : machine.Reaches guard (pool project requests world) c)
    (hstep : machine.Step guard e c c') {container : Container} (hwriting : Writing requests container)
    (hsafe : Safely container c) : writes container.task e = none := by
  by_contra hne
  obtain ⟨written, hwrites⟩ := Option.ne_none_iff_exists'.mp hne
  obtain ⟨record, hlookup, hactive, hworkspace⟩ := hsafe.active
  obtain ⟨-, hwrite⟩ := step_write hrun hstep hwrites
  have hother : e.thread ≠ container.thread := by
    intro heq
    rw [heq, hwriting.2] at hwrite
    cases hwrite
  obtain ⟨old, hread, -, hheld⟩ := write_read hwrite (hstart container.task e.thread)
  have hkept := mode_kept (hstart container.task) hrun
  obtain ⟨first, hfirst, hmode⟩ := hkept.stored record hlookup
  obtain ⟨first', hfirst', hmode'⟩ := hkept.read _ old (mem_own.mp hread).1
  obtain rfl : first = first' := Option.some.inj (hfirst.symm.trans hfirst')
  rw [taskLockName_eq_lockOf (hmode.trans hmode'.symm) hactive, ← hworkspace] at hheld
  have hlocks : fileLocks.Started (pool project requests world) := ⟨rfl, hidle.locks⟩
  exact hlocks.not_held hrun hsafe.locked hother false hheld

/-- A writable execution that nobody has come before starts on an active task. -/
theorem execution_starts {i : Nat} {workspace : Workspace} (hrequest : requests i = .run task false)
    (hrun : machine.Reaches guard (pool project requests world) c)
    (hstep : machine.Step guard ⟨i, .startContainer task workspace false, true⟩ c c')
    (hfresh : ∀ e ∈ since (reads i task) c.trace, writes task e = none) :
    Safely ⟨i, task, workspace, false⟩ c := by
  have hlicence := (step_allowed hrun hstep).licence
  change ExecutionStart i task workspace (own i c.trace) false (requests i) at hlicence
  rw [hrequest] at hlicence
  cases hlicence with
  | run _ old hread hselected hactive hheld =>
    have hlookup := lookup_of_read hrun hread hfresh
    exact ⟨⟨old, hlookup, hactive rfl, hselected⟩, hheld⟩

/-- The start of an execution changes neither its record nor the locks of its request. -/
theorem Safely.started {i : Nat} {workspace : Workspace} {readonly : Bool}
    (hsafe : Safely ⟨i, task, workspace, readonly⟩ c)
    (hstep : machine.Step guard ⟨i, .startContainer task workspace readonly, true⟩ c c') :
    Safely ⟨i, task, workspace, readonly⟩ c' := by
  constructor
  · rw [step_lookup_of_not_writes hstep rfl]
    exact hsafe.active
  · have hown : own i c'.trace =
        own i c.trace ++ [⟨i, .startContainer task workspace readonly, true⟩] := by
      rw [hstep.trace_eq, own_append]
      simp [own]
    change (lockOf workspace, false) ∈ fileLocks.held (own i c'.trace)
    rw [hown, Locking.held_snoc]
    apply Locking.mem_hold hsafe.locked
    intro hreleases
    cases hreleases

/-- While an execution runs, its task stays active. -/
theorem Safely.step (hidle : world.Idle) (hstart : NoStarts requests)
    (hrun : machine.Reaches guard (pool project requests world) c)
    (hstep : machine.Step guard e c c') {container : Container} (hwriting : Writing requests container)
    (hmem : container ∈ c.state.containers) (hsafe : Safely container c) : Safely container c' := by
  have hstarted := containers_started hidle hrun hmem
  have hkept := execution_keeps_record hidle hstart hrun hstep hwriting hsafe
  refine ⟨?_, execution_keeps_lock hrun hstep hwriting hstarted hsafe.locked⟩
  rw [step_lookup_of_not_writes hstep hkept]
  exact hsafe.active

/-- Writable executions start on active tasks, and keep them active as long as they run, exactly
when no record is written between the read of a run and the start of its execution. -/
theorem executions_active_iff (hidle : world.Idle) (hstart : NoStarts requests)
    (hrun : machine.Reaches anyStep (pool project requests world) c) :
    ExecutionsActive requests (pool project requests world) c ↔ RunsFresh requests c.trace := by
  constructor
  · intro hactive before i task workspace after hrequest htrace e he
    by_contra hne
    obtain ⟨record, hwrites⟩ := Option.ne_none_iff_exists'.mp hne
    obtain ⟨first, middle, hsplit⟩ := split_of_mem_since_before htrace he
    obtain ⟨d₁, d₂, c₁, c₂, hrund, hstepd, hrestd, -, hstep, hrest⟩ := hrun.at_events rfl hsplit
    have hrun₁ := (hrund.step hstepd).trans hrestd
    obtain ⟨record', hlookup, hstatus, -⟩ :=
      (hactive.starts c₁ c₂ i task workspace hrequest hrun₁ hstep hrest).active
    -- the write has ended the task, and nobody has started it again
    exact not_active_of_write (hstart task) hrund hstepd hwrites hrestd record' hlookup hstatus
  · intro hfresh
    have hstarts : ∀ c₁ c₂ i task workspace, requests i = .run task false →
        machine.Reaches anyStep (pool project requests world) c₁ →
        machine.Step anyStep ⟨i, .startContainer task workspace false, true⟩ c₁ c₂ →
        machine.Reaches anyStep c₂ c → Safely ⟨i, task, workspace, false⟩ c₁ := by
      intro c₁ c₂ i task workspace hrequest hrun₁ hstep hrest
      obtain ⟨after, htrace, -⟩ := hstep.trace_split hrest
      exact execution_starts hrequest hrun₁ hstep (hfresh _ _ _ _ _ hrequest htrace)
    refine ⟨hstarts, fun c₁ container hrun₁ hrest => ?_⟩
    induction hrun₁ with
    | refl =>
      intro hmem
      have hnone : container ∈ world.containers := hmem
      rw [hidle.containers] at hnone
      cases hnone
    | @step d d' e hrund hstepd ih =>
      intro hmem hwriting
      have hrest' : machine.Reaches anyStep d c := Machine.Reaches.trans (.step .refl hstepd) hrest
      rw [step_containers hstepd] at hmem
      rcases running_cases hmem with ⟨hmem, -⟩ | ⟨hthread, hevent⟩
      · exact (ih hrest' hmem hwriting).step hidle hstart hrund hstepd hwriting hmem
      · rw [hevent, ← hthread, hwriting.1] at hstepd
        have hsafe := hstarts d d' _ _ _ hwriting.2 hrund hstepd hrest
        have hstarted := hsafe.started hstepd
        rw [← hwriting.1] at hstarted
        exact hstarted

end

/-- Request 0 runs a provider in the workspace of the task that the others complete. -/
def exampleRuns : Nat → Request
  | 0 => .run exampleTask false
  | _ => .taskComplete exampleTask

theorem exampleRuns_noStarts : NoStarts exampleRuns := by
  intro task i parallel dependencies
  unfold exampleRuns
  split <;> simp

/-- The run reads the record as active and then waits while the task is completed. Then it takes
the lock, and its execution works on the completed task. -/
theorem completed_task_runs :
    ∃ (c c' : Pool) (e : Event Action.Reply),
      machine.Reaches anyStep (pool exampleProject exampleRuns sequentialProject) c ∧
      machine.Step anyStep e c c' ∧ c.state.containers = [] ∧
      c'.state.containers = [⟨0, exampleTask, .agent, false⟩] ∧
      (c.state.tasks.lookup exampleTask).map (·.status) = some .completed ∧
      ¬ExecutionsActive exampleRuns (pool exampleProject exampleRuns sequentialProject) c' := by
  have hrun : ((machine.run (fun _ _ _ _ => true)
      (pool exampleProject exampleRuns sequentialProject)
      (goes 0 7 ++ goes 1 7 ++ [(1, .clock 1)] ++ goes 1 2 ++ goes 0 2)).bind fun c =>
        (machine.step (fun _ _ _ _ => true) c (0, .go)).map fun c' =>
          (c.state.containers, c'.state.containers,
            (c.state.tasks.lookup exampleTask).map (·.status),
            (c'.state.tasks.lookup exampleTask).map (·.status))) =
      some ([], [⟨0, exampleTask, .agent, false⟩], some .completed, some .completed) := by
    decide +kernel
  obtain ⟨c, c', e, hreaches, -, hstep, hvalue⟩ := Machine.exists_step_of_run hrun
  simp only [Prod.mk.injEq] at hvalue
  obtain ⟨hbefore, hafter, hcompleted, hcompleted'⟩ := hvalue
  refine ⟨c, c', e, hreaches, hstep, hbefore, hafter, hcompleted, fun hactive => ?_⟩
  have hsafe := hactive.runs c' ⟨0, exampleTask, .agent, false⟩ (hreaches.step hstep) .refl
    (by simp [hafter]) ⟨rfl, rfl⟩
  obtain ⟨record, hlookup, hstatus, -⟩ := hsafe.active
  simp [hlookup, hstatus] at hcompleted'

theorem executions_active_iff_example :
    ∃ c, machine.Reaches anyStep (pool exampleProject exampleRuns sequentialProject) c ∧
      c.state.containers = [⟨0, exampleTask, .agent, false⟩] ∧
      (ExecutionsActive exampleRuns (pool exampleProject exampleRuns sequentialProject) c ↔
        RunsFresh exampleRuns c.trace) := by
  have hrun : ((machine.run (fun _ _ _ _ => true)
      (pool exampleProject exampleRuns sequentialProject) (goes 0 10)).map fun c =>
        c.state.containers) = some [⟨0, exampleTask, .agent, false⟩] := by
    decide +kernel
  obtain ⟨c, hreaches, hcontainers⟩ := Machine.exists_of_run hrun
  exact ⟨c, hreaches, hcontainers,
    executions_active_iff sequentialProject_idle exampleRuns_noStarts hreaches⟩

end AgentDev
