import AgentDev.Core.Conformance

/-!
# Runs of any number of requests

What every run of a pool of requests has in common: who may change what, in terms of the events.
A record changes only when an event writes it, and each such event was allowed by the rules;
a thread that holds a lock exclusively keeps everyone else away from what the lock protects;
and what a thread has read was true when it read it.
-/

namespace AgentDev

open Interleaving

abbrev Pool := Config Action.Reply World Error Outcome

/-- Every step that can happen may happen. -/
abbrev anyStep : Guard Action.Reply World Choice := fun _ _ _ _ => True

/-- Nothing is under way. -/
structure World.Idle (world : World) : Prop where
  locks : world.locks = []
  containers : world.containers = []

/-- The record that an event writes as the record of `task`. -/
def writes (task : Name) (e : Event Action.Reply) : Option TaskRecord :=
  match e with
  | ⟨_, .writeRecord written record, (true : Bool)⟩ => if written = task then some record else none
  | _ => none

/-- Request `i` reads the record of `task`. -/
def reads (i : Nat) (task : Name) (e : Event Action.Reply) : Bool :=
  e.thread = i && match e.action with
    | .readRecord read => read = task
    | _ => false

theorem writes_eq_some_iff {task : Name} {e : Event Action.Reply} {record : TaskRecord} :
    writes task e = some record ↔ e = ⟨e.thread, .writeRecord task record, true⟩ := by
  constructor
  · intro h
    unfold writes at h
    split at h
    · rename_i i written record'
      split at h
      · rename_i heq
        cases h
        rw [heq]
      · cases h
    · cases h
  · intro h
    rw [h]
    simp [writes]

section

variable {project : Name} {requests : Nat → Request} {world : World}
  {guard : Guard Action.Reply World Choice} {c c' c₁ c₂ : Pool} {e : Event Action.Reply}
  {task : Name} {record : TaskRecord}

/-! ## Steps -/

theorem recorded_lookup (tasks : TaskStore) (e : Event Action.Reply) (task : Name) :
    (e.action.recorded tasks e.reply).lookup task = (writes task e).or (tasks.lookup task) := by
  obtain ⟨i, action, reply⟩ := e
  cases action with
  | writeRecord written record =>
    cases (reply : Bool) with
    | false => rfl
    | true =>
      by_cases htask : task = written
      · subst htask
        simp [writes, Action.recorded]
      · simp [writes, Action.recorded, AList.lookup_insert_ne htask, Ne.symm htask]
  | _ => rfl

theorem step_lookup (hstep : machine.Step guard e c c') (task : Name) :
    c'.state.tasks.lookup task = (writes task e).or (c.state.tasks.lookup task) := by
  obtain ⟨rest, choice, state, -, -, hexec, rfl⟩ := hstep
  rw [← recorded_lookup, ← exec_tasks hexec]
  rfl

theorem step_lookup_of_not_writes (hstep : machine.Step guard e c c')
    (hnot : writes task e = none) :
    c'.state.tasks.lookup task = c.state.tasks.lookup task := by
  rw [step_lookup hstep, hnot]
  rfl

/-- A record after a step is the one that the step writes, or one that was there. -/
theorem step_lookup_cases (hstep : machine.Step guard e c c')
    (hlookup : c'.state.tasks.lookup task = some record) :
    writes task e = some record ∨
      (writes task e = none ∧ c.state.tasks.lookup task = some record) := by
  rw [step_lookup hstep] at hlookup
  cases hwrites : writes task e with
  | none =>
    rw [hwrites] at hlookup
    exact Or.inr ⟨rfl, hlookup⟩
  | some written =>
    rw [hwrites] at hlookup
    exact Or.inl hlookup

theorem step_hasWorktree (hstep : machine.Step guard e c c') (task : Name) :
    c'.state.hasWorktree task =
      e.action.worktreeAfter task (c.state.hasWorktree task) e.reply := by
  obtain ⟨rest, choice, state, -, -, hexec, rfl⟩ := hstep
  exact exec_hasWorktree hexec task

theorem step_containers (hstep : machine.Step guard e c c') :
    c'.state.containers = e.action.running e.thread c.state.containers e.reply := by
  obtain ⟨rest, choice, state, -, -, hexec, rfl⟩ := hstep
  exact exec_containers hexec

theorem step_readRecord {i : Nat} {reply : Option TaskRecord}
    (hstep : machine.Step guard ⟨i, .readRecord task, reply⟩ c c') :
    reply = c.state.tasks.lookup task := by
  obtain ⟨rest, choice, state, -, -, hexec, rfl⟩ := hstep
  exact exec_readRecord hexec

theorem step_recordExists {i : Nat} {found : Bool}
    (hstep : machine.Step guard ⟨i, .recordExists task, found⟩ c c') :
    found = (c.state.tasks.lookup task).isSome := by
  obtain ⟨rest, choice, state, -, -, hexec, rfl⟩ := hstep
  exact exec_recordExists hexec

theorem step_listRecords {i : Nat} {names : List Name}
    (hstep : machine.Step guard ⟨i, .listRecords, names⟩ c c') :
    names = c.state.tasks.names := by
  obtain ⟨rest, choice, state, -, -, hexec, rfl⟩ := hstep
  exact exec_listRecords hexec

theorem step_gitStatus {i : Nat} {dirty : Bool}
    (hstep : machine.Step guard ⟨i, .gitStatus (.worktree task), some dirty⟩ c c') :
    c.state.hasWorktree task = true := by
  obtain ⟨rest, choice, state, -, -, hexec, rfl⟩ := hstep
  exact exec_gitStatus hexec

/-! ## What the rules say of a step in a run -/

theorem step_allowed (hrun : machine.Reaches guard (pool project requests world) c)
    (hstep : machine.Step guard e c c') :
    Allowed e.thread project (requests e.thread) (own e.thread c.trace) e.action :=
  ((pool_obeyed project requests world).reaches hrun).allowed hstep

/-- Whoever writes a record has kept the rules for it. -/
theorem step_write (hrun : machine.Reaches guard (pool project requests world) c)
    (hstep : machine.Step guard e c c') (hwrites : writes task e = some record) :
    Unwritten (own e.thread c.trace) ∧
      RecordWrite e.thread project task (own e.thread c.trace) record (requests e.thread) := by
  have hlicence := (step_allowed hrun hstep).licence
  rw [writes_eq_some_iff.mp hwrites] at hlicence
  exact hlicence

/-- Whoever writes a record still holds the locks since which it has worked. -/
theorem Locked.held_now {locks : List Name} {h h₁ h₂ : History} (hlocked : Locked locks h h₁ h₂)
    {lock : Name} (hlock : lock ∈ locks) : (lock, false) ∈ fileLocks.held h := by
  rw [hlocked.split]
  refine Locking.mem_held_append (hlocked.held lock hlock) fun e he => ?_
  show e.action.releases ≠ some lock
  rw [hlocked.kept e he]
  exact fun heq => nomatch heq

/-- A record that is active is written by a start only. -/
theorem write_active {i : Nat} {h : History} {request : Request}
    (hwrite : RecordWrite i project task h record request) (hactive : record.status = .active) :
    ∃ parallel dependencies, request = .taskStart task parallel dependencies ∧
      StartWrite i project task parallel dependencies h record := by
  cases hwrite with
  | start parallel dependencies hwrite => exact ⟨parallel, dependencies, rfl, hwrite⟩
  | complete old hwrite =>
    obtain ⟨h₁, h₂, head, now, -, -, -, rfl⟩ := hwrite.locked
    cases hactive
  | merge old hwrite =>
    obtain ⟨h₁, h₂, head, mergeCommit, now, -, -, -, -, -, rfl⟩ := hwrite.locked
    cases hactive
  | abort old hwrite =>
    obtain ⟨h₁, h₂, now, -, -, rfl⟩ := hwrite.locked
    cases hactive

/-- Whoever writes a record has read one before, and holds the lock for its kind of tasks, unless it
starts the task. -/
theorem write_read {i : Nat} {h : History} {request : Request}
    (hwrite : RecordWrite i project task h record request)
    (hstart : ∀ parallel dependencies, request ≠ .taskStart task parallel dependencies) :
    ∃ old, ⟨i, .readRecord task, some old⟩ ∈ h ∧ record.Continues old ∧
      (taskLockName task old, false) ∈ fileLocks.held h := by
  have hlock : ∀ old : TaskRecord, old.mode = .parallel → taskLockName task old = task := by
    intro old hmode
    simp [taskLockName, hmode]
  cases hwrite with
  | start parallel dependencies hwrite => exact absurd rfl (hstart parallel dependencies)
  | complete old hwrite =>
    obtain ⟨h₁, h₂, head, now, hlocked, -, -, rfl⟩ := hwrite.locked
    exact ⟨old, hwrite.read, ⟨rfl, rfl, rfl, rfl⟩, hlocked.held_now (by simp)⟩
  | merge old hwrite =>
    obtain ⟨h₁, h₂, head, mergeCommit, now, hlocked, -, -, -, -, rfl⟩ := hwrite.locked
    rw [← hlock old hwrite.parallel] at hlocked
    exact ⟨old, hwrite.read, ⟨rfl, rfl, rfl, rfl⟩, hlocked.held_now (by simp)⟩
  | abort old hwrite =>
    obtain ⟨h₁, h₂, now, hlocked, -, rfl⟩ := hwrite.locked
    rw [← hlock old hwrite.parallel] at hlocked
    exact ⟨old, hwrite.read, ⟨rfl, rfl, rfl, rfl⟩, hlocked.held_now (by simp)⟩

/-! ## Records over a run -/

/-- Records are never deleted. -/
theorem lookup_isSome_mono (hrun : machine.Reaches guard c₁ c₂)
    (hsome : (c₁.state.tasks.lookup task).isSome = true) :
    (c₂.state.tasks.lookup task).isSome = true := by
  induction hrun with
  | refl => exact hsome
  | @step c c' e _ hstep ih =>
    rw [step_lookup hstep]
    cases hwrites : writes task e with
    | none => exact ih
    | some record => rfl

/-- A record that nothing writes stays as it is. -/
theorem lookup_eq_of_not_written (hrun : machine.Reaches guard c₁ c₂)
    {events : List (Event Action.Reply)} (htrace : c₂.trace = c₁.trace ++ events)
    (hnot : ∀ e ∈ events, writes task e = none) :
    c₂.state.tasks.lookup task = c₁.state.tasks.lookup task := by
  apply hrun.interval (I := fun c => c.state.tasks.lookup task = c₁.state.tasks.lookup task)
    htrace rfl
  intro c e c' before after hsplit _ _ hstep hI
  rw [step_lookup_of_not_writes hstep (hnot e (by simp [hsplit]))]
  exact hI

/-- A record is as the last write has left it, or as it was. -/
theorem lookup_last_write (hrun : machine.Reaches guard c₁ c₂) {events : List (Event Action.Reply)}
    (htrace : c₂.trace = c₁.trace ++ events)
    (hlookup : c₂.state.tasks.lookup task = some record) :
    (∃ before e after, events = before ++ e :: after ∧ writes task e = some record ∧
      ∀ e' ∈ after, writes task e' = none) ∨
      ((∀ e ∈ events, writes task e = none) ∧ c₁.state.tasks.lookup task = some record) := by
  induction hrun generalizing events with
  | refl =>
    obtain rfl : events = [] := List.self_eq_append_right.mp htrace
    exact Or.inr ⟨(fun e he => nomatch he), hlookup⟩
  | @step c c' e hreach hstep ih =>
    obtain ⟨tail, htail⟩ := hreach.trace_prefix
    have hevents : events = tail ++ [e] := by
      rw [hstep.trace_eq, htail, List.append_assoc] at htrace
      exact (List.append_cancel_left htrace).symm
    rcases step_lookup_cases hstep hlookup with hwrites | ⟨hnot, hsame⟩
    · exact Or.inl ⟨tail, e, [], hevents, hwrites, fun e' he' => nomatch he'⟩
    · rcases ih htail hsame with ⟨before, f, after, rfl, hwrites, hafter⟩ | ⟨hnone, hfirst⟩
      · refine Or.inl ⟨before, f, after ++ [e], by rw [hevents]; simp, hwrites, fun e' he' => ?_⟩
        rcases List.mem_append.mp he' with he' | he'
        · exact hafter e' he'
        · rw [List.mem_singleton.mp he']
          exact hnot
      · refine Or.inr ⟨fun e' he' => ?_, hfirst⟩
        rw [hevents] at he'
        rcases List.mem_append.mp he' with he' | he'
        · exact hnone e' he'
        · rw [List.mem_singleton.mp he']
          exact hnot

/-- What a thread has read of a record was there, so a record is there ever after. -/
theorem lookup_isSome_of_read (hrun : machine.Reaches guard (pool project requests world) c)
    {i : Nat} (hread : ⟨i, .readRecord task, some record⟩ ∈ own i c.trace) :
    (c.state.tasks.lookup task).isSome = true := by
  obtain ⟨c₁, c₂, after, -, hstep, hrest, -⟩ := hrun.split_of_mem rfl (mem_own.mp hread).1
  refine lookup_isSome_mono hrest ?_
  refine lookup_isSome_mono (.step .refl hstep) ?_
  rw [← step_readRecord hstep]
  rfl

/-- A record that nothing has written since a request read it is as the request has read it. -/
theorem lookup_of_read (hrun : machine.Reaches guard (pool project requests world) c) {i : Nat}
    (hread : ⟨i, .readRecord task, some record⟩ ∈ own i c.trace)
    (hapart : ∀ e ∈ since (reads i task) c.trace, writes task e = none) :
    c.state.tasks.lookup task = some record := by
  obtain ⟨c₁, c₂, after, -, hstep, hrest, htrace, hevents⟩ :=
    hrun.split_of_mem rfl (mem_own.mp hread).1
  have hnot : ∀ e ∈ after, writes task e = none := fun e he =>
    hapart e (mem_since htrace (by simp [reads]) he)
  rw [lookup_eq_of_not_written hrest hevents hnot, step_lookup_of_not_writes hstep rfl,
    ← step_readRecord hstep]

/-- A task request that has succeeded has written the record that it returned. -/
theorem written_of_ret (hrun : machine.Reaches guard (pool project requests world) c) {i : Nat}
    (hrequest : requests i = .taskComplete task ∨ requests i = .taskMerge task ∨
      requests i = .taskAbort task)
    (hret : c.programs i = .ret (.record record)) :
    ⟨i, .writeRecord task record, true⟩ ∈ c.trace := by
  have hanswered := ((pool_obeyed project requests world).reaches hrun).post hret
  obtain ⟨task', hmem, hcases⟩ := hanswered record rfl
  have heq : task' = task := by
    rcases hrequest with heq | heq | heq <;> rw [heq] at hcases <;> simpa [eq_comm] using hcases
  rw [heq] at hmem
  exact (mem_own.mp hmem).1

/-! ## Tasks that nobody starts -/

/-- A record that is not active is never active again. -/
theorem not_active_mono
    (hstart : ∀ i parallel dependencies, requests i ≠ .taskStart task parallel dependencies)
    (h₁ : machine.Reaches guard (pool project requests world) c₁)
    (h : machine.Reaches guard c₁ c₂)
    (hstatus : ∀ r, c₁.state.tasks.lookup task = some r → r.status ≠ .active) :
    ∀ r, c₂.state.tasks.lookup task = some r → r.status ≠ .active := by
  induction h with
  | refl => exact hstatus
  | @step c c' e hreach hstep ih =>
    intro r hr
    rcases step_lookup_cases hstep hr with hwrites | ⟨-, hsame⟩
    · intro hactive
      obtain ⟨-, hwrite⟩ := step_write (h₁.trans hreach) hstep hwrites
      obtain ⟨parallel, dependencies, hrequest, -⟩ := write_active hwrite hactive
      exact hstart _ _ _ hrequest
    · exact ih r hsame

/-- A task that somebody has written to is not active any more. -/
theorem not_active_of_write
    (hstart : ∀ i parallel dependencies, requests i ≠ .taskStart task parallel dependencies)
    (hrun : machine.Reaches guard (pool project requests world) c)
    (hstep : machine.Step guard e c c₁) (hwrites : writes task e = some record)
    (hrest : machine.Reaches guard c₁ c₂) :
    ∀ r, c₂.state.tasks.lookup task = some r → r.status ≠ .active := by
  refine not_active_mono hstart (hrun.step hstep) hrest fun r hr hactive => ?_
  rw [step_lookup hstep, hwrites] at hr
  obtain rfl : record = r := Option.some.inj hr
  obtain ⟨-, hwrite⟩ := step_write hrun hstep hwrites
  obtain ⟨parallel, dependencies, hrequest, -⟩ := write_active hwrite hactive
  exact hstart _ _ _ hrequest

/-- Every record of the task that is there or that a request has read has the mode of the first
one. -/
structure ModeKept (world : World) (task : Name) (c : Pool) : Prop where
  stored : ∀ record, c.state.tasks.lookup task = some record →
    ∃ first, world.tasks.lookup task = some first ∧ record.mode = first.mode
  read : ∀ i record, ⟨i, .readRecord task, some record⟩ ∈ c.trace →
    ∃ first, world.tasks.lookup task = some first ∧ record.mode = first.mode

theorem mode_kept
    (hstart : ∀ i parallel dependencies, requests i ≠ .taskStart task parallel dependencies)
    (hrun : machine.Reaches guard (pool project requests world) c) : ModeKept world task c := by
  induction hrun with
  | refl => exact ⟨fun record hrecord => ⟨record, hrecord, rfl⟩, fun i record hread => nomatch hread⟩
  | @step c c' e hreach hstep ih =>
    constructor
    · intro record hrecord
      rcases step_lookup_cases hstep hrecord with hwrites | ⟨-, hsame⟩
      · obtain ⟨-, hwrite⟩ := step_write hreach hstep hwrites
        obtain ⟨old, hread, hsame, -⟩ := write_read hwrite (hstart e.thread)
        obtain ⟨first, hfirst, hold⟩ := ih.read _ old (mem_own.mp hread).1
        exact ⟨first, hfirst, hsame.mode.trans hold⟩
      · exact ih.stored record hsame
    · intro i record hread
      rw [hstep.trace_eq] at hread
      rcases List.mem_append.mp hread with hread | hread
      · exact ih.read i record hread
      · rw [← List.mem_singleton.mp hread] at hstep
        exact ih.stored record (step_readRecord hstep).symm

/-! ## While a lock is held -/

/-- Between an event under a lock and the present, whatever only the holder of the lock could
change is as the holder has left it. -/
theorem since_event (hidle : world.Idle)
    (hrun : machine.Reaches guard (pool project requests world) c) {i : Nat} {locks : List Name}
    {h₁ h₂ : History} (hlocked : Locked locks (own i c.trace) h₁ h₂) {l : Name}
    (hlock : l ∈ locks) (hmem : e ∈ h₂) :
    ∃ c₁ c₂, machine.Reaches guard (pool project requests world) c₁ ∧
      machine.Step guard e c₁ c₂ ∧ e.thread = i ∧ machine.Reaches guard c₂ c ∧
      ∀ I : Pool → Prop,
        (∀ c e c', e ∈ h₂ → machine.Reaches guard (pool project requests world) c →
          machine.Step guard e c c' → I c → I c') →
        (∀ c e c', e.thread ≠ i →
          (∀ shared, (l, shared) ∉ fileLocks.held (own e.thread c.trace)) →
          machine.Reaches guard (pool project requests world) c →
          machine.Step guard e c c' → I c → I c') →
        I c₂ → I c := by
  obtain ⟨before, after, hsplit⟩ := List.append_of_mem hmem
  have hown : own i c.trace = (h₁ ++ before) ++ e :: after := by
    rw [hlocked.split, hsplit, List.append_assoc]
  obtain ⟨c₁, c₂, rest, hrun₁, hstep, hrun₂, hthread, -, -, hbefore, hafter⟩ :=
    hrun.own_split rfl hown
  refine ⟨c₁, c₂, hrun₁, hstep, hthread, hrun₂, fun I hself hother hbase => ?_⟩
  have hstarted : fileLocks.Started (pool project requests world) := ⟨rfl, hidle.locks⟩
  have hown₂ : own i c₂.trace = h₁ ++ (before ++ [e]) := by
    rw [hstep.trace_eq, own_append, own_cons_self hthread, hbefore, own_nil, List.append_assoc]
  refine hstarted.while_held (m := after) (hrun₁.step hstep) hrun₂ ?_ ?_ ?_ hbase ?_ hother
  · rw [hown, hown₂]
    simp
  · rw [hown₂]
    refine Locking.mem_held_append (hlocked.held l hlock) fun e' he' => ?_
    have hkept := hlocked.kept e' (by rw [hsplit]; simp at he' ⊢; tauto)
    show e'.action.releases ≠ some l
    rw [hkept]
    exact fun heq => nomatch heq
  · intro e' he'
    have hkept := hlocked.kept e' (by rw [hsplit]; simp [he'])
    show e'.action.releases ≠ some l
    rw [hkept]
    exact fun heq => nomatch heq
  · intro d e' d' he'
    exact hself d e' d' (by rw [hsplit]; simp [he'])

end

/-! ## Runs to look at -/

def exampleProject : Name := ⟨"demo", by decide⟩

def exampleTask : Name := ⟨"feature", by decide⟩

def otherTask : Name := ⟨"other", by decide⟩

/-- `n` steps of request `i` whose outcome the state decides. -/
def goes (i n : Nat) : List (Nat × Choice) := List.replicate n (i, .go)

theorem newProject_idle : newProject.Idle := ⟨rfl, rfl⟩

/-- A project with one task, which works on the integration branch. -/
def sequentialProject : World :=
  { newProject with
    tasks := newProject.tasks.insert exampleTask
      (startedRecord exampleProject exampleTask false 0 [] 0) }

def exampleCompleted : TaskRecord :=
  (startedRecord exampleProject exampleTask true 0 [] 0).complete 1 1

/-- A project with one parallel task, which has been completed with one commit in its worktree. -/
def parallelProject : World :=
  { newProject with
    tasks := newProject.tasks.insert exampleTask exampleCompleted
    repo :=
      { newProject.repo with
        graph := newProject.repo.graph.commit [0] (by simp [newProject])
        refs := Function.update newProject.repo.refs (taskBranch exampleTask) (some 1)
        worktrees := newProject.repo.worktrees.insert exampleTask
          { branch := taskBranch exampleTask } } }

theorem sequentialProject_idle : sequentialProject.Idle := ⟨rfl, rfl⟩

theorem parallelProject_idle : parallelProject.Idle := ⟨rfl, rfl⟩

end AgentDev
