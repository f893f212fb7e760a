import AgentDev.Core.Runs

/-!
# Starting tasks

`task-start` scans all records under the integration lock and then writes an active record of
its own. No other request makes a record active, so what the scan has not found is not there
when the start writes: at most one integration task is active, and then no parallel task is
(`active_integration_exclusive`).

That no record exists yet under the new name is checked before the lock is taken and not again
under it. A second start of the same name that was checked early overwrites whatever the
first one has become (`started_twice`). When no other start of the name writes between the
check and the write of a start, a name is started at most once (`starts_fresh_iff`).
-/

namespace AgentDev

open Interleaving

section

variable {project : Name} {requests : Nat → Request} {world : World}
  {guard : Guard Action.Reply World Choice} {c c' : Pool} {e : Event Action.Reply} {task : Name}

/-! ## The scan of a start -/

/-- Whether a record is one of a kind that only a start can write. -/
def OfStarts (bad : TaskRecord → Bool) : Prop := ∀ record, bad record = true → record.status = .active

/-- When the scan of a start has found no record of a kind that only starts write, there is none
until the start writes. -/
theorem scan_current (hidle : world.Idle)
    (hrun : machine.Reaches guard (pool project requests world) c) {i : Nat} {h₁ h₂ : History}
    {records : List TaskRecord} (hlocked : Locked [integrationLock] (own i c.trace) h₁ h₂)
    (hunwritten : Unwritten (own i c.trace)) (hscan : Scanned i h₂ records)
    {bad : TaskRecord → Bool} (hbad : OfStarts bad) (hnone : ∀ r ∈ records, bad r = false)
    {record : TaskRecord} (hlookup : c.state.tasks.lookup task = some record) :
    bad record = false := by
  -- `I` cannot be lost: a record of the kind is written under the integration lock only
  let I : Pool → Prop := fun c => ∀ r, c.state.tasks.lookup task = some r → bad r = false
  have hself : ∀ c e c', e ∈ h₂ → machine.Reaches guard (pool project requests world) c →
      machine.Step guard e c c' → I c → I c' := by
    intro d e d' he _ hstep hI r hr
    cases hwrites : writes task e with
    | none =>
      rw [step_lookup_of_not_writes hstep hwrites] at hr
      exact hI r hr
    | some written =>
      have hmem : e ∈ own i c.trace := by
        rw [hlocked.split]
        exact List.mem_append_right _ he
      rw [writes_eq_some_iff.mp hwrites] at hmem
      exact absurd rfl (hunwritten _ hmem task written)
  have hother : ∀ c e c', e.thread ≠ i →
      (∀ shared, (integrationLock, shared) ∉ fileLocks.held (own e.thread c.trace)) →
      machine.Reaches guard (pool project requests world) c →
      machine.Step guard e c c' → I c → I c' := by
    intro d e d' _ hfree hreach hstep hI r hr
    cases hwrites : writes task e with
    | none =>
      rw [step_lookup_of_not_writes hstep hwrites] at hr
      exact hI r hr
    | some written =>
      rw [step_lookup hstep, hwrites] at hr
      obtain rfl : written = r := Option.some.inj hr
      by_contra hne
      have hactive := hbad written (by simpa using hne)
      obtain ⟨-, hwrite⟩ := step_write hreach hstep hwrites
      obtain ⟨parallel, dependencies, -, hstart⟩ := write_active hwrite hactive
      obtain ⟨g₁, g₂, _, hlocked', -⟩ := hstart.gates
      exact hfree false (hlocked'.held_now (by simp))
  obtain ⟨names, before, after, hsplit, hread⟩ := hscan
  have hlist : (⟨i, .listRecords, names⟩ : Event Action.Reply) ∈ h₂ := by simp [hsplit]
  by_cases hin : task ∈ names
  · obtain ⟨reply, hmem, hrecords⟩ := hread task hin
    have hmem' : (⟨i, .readRecord task, reply⟩ : Event Action.Reply) ∈ h₂ := by
      rw [hsplit]
      simp [hmem]
    obtain ⟨c₁, c₂, -, hstep, -, -, hkeep⟩ :=
      since_event hidle hrun hlocked (l := integrationLock) (by simp) hmem'
    refine hkeep I hself hother ?_ record hlookup
    intro r hr
    rw [step_lookup_of_not_writes hstep rfl, ← step_readRecord hstep] at hr
    exact hnone r (hrecords r hr)
  · obtain ⟨c₁, c₂, -, hstep, -, -, hkeep⟩ :=
      since_event hidle hrun hlocked (l := integrationLock) (by simp) hlist
    refine hkeep I hself hother ?_ record hlookup
    intro r hr
    rw [step_lookup_of_not_writes hstep rfl] at hr
    rw [step_listRecords hstep, TaskStore.mem_names, hr] at hin
    exact absurd rfl hin

/-! ## At most one active integration task -/

def isActiveParallel (record : TaskRecord) : Bool :=
  record.mode = .parallel && record.status = .active

/-- At most one record is an active integration task, and when there is one, none is an active
parallel task. -/
structure IntegrationExclusive (tasks : TaskStore) : Prop where
  unique : ∀ task record other record', tasks.lookup task = some record →
    tasks.lookup other = some record' → isActiveSequential record = true →
    isActiveSequential record' = true → task = other
  alone : ∀ task record other record', tasks.lookup task = some record →
    tasks.lookup other = some record' → isActiveSequential record = true →
    isActiveParallel record' = false

/-- What a start that writes an active record has excluded. -/
theorem start_excludes (hidle : world.Idle)
    (hrun : machine.Reaches guard (pool project requests world) c) {i : Nat} {parallel : Bool}
    {dependencies : List Name} {record : TaskRecord} (hunwritten : Unwritten (own i c.trace))
    (hwrite : StartWrite i project task parallel dependencies (own i c.trace) record) :
    ∀ other record', c.state.tasks.lookup other = some record' →
      isActiveSequential record' = false ∧ (parallel = false → isActiveParallel record' = false) := by
  intro other record' hlookup
  obtain ⟨h₁, h₂, records, hlocked, hscan, hactive, hmode⟩ := hwrite.gates
  refine ⟨?_, fun hparallel => ?_⟩
  · refine scan_current hidle hrun hlocked hunwritten hscan ?_
      (activeSequential_isEmpty_iff.mp hactive) hlookup
    intro r hr
    simp only [isActiveSequential, Bool.and_eq_true, decide_eq_true_eq] at hr
    exact hr.2
  · rw [hparallel] at hmode
    have hpending := pendingParallel_isEmpty_iff.mp hmode
    refine scan_current hidle hrun hlocked hunwritten hscan ?_ ?_ hlookup
    · intro r hr
      simp only [isActiveParallel, Bool.and_eq_true, decide_eq_true_eq] at hr
      exact hr.2
    · intro r hr
      have hnot := hpending r hr
      by_contra htrue
      simp only [Bool.not_eq_false, isActiveParallel, Bool.and_eq_true, decide_eq_true_eq] at htrue
      simp [isPendingParallel, htrue.1, htrue.2] at hnot

/-- Every write keeps it: a start has found no task that is in its way, and no other request
makes a record active. -/
theorem integrationExclusive_step (hidle : world.Idle)
    (hrun : machine.Reaches guard (pool project requests world) c)
    (hstep : machine.Step guard e c c') (hold : IntegrationExclusive c.state.tasks) :
    IntegrationExclusive c'.state.tasks := by
  -- what a step writes as active excludes the active records that were there
  have hwritten : ∀ task record other record', writes task e = some record →
      record.status = .active → writes other e = none →
      c.state.tasks.lookup other = some record' → isActiveSequential record' = false ∧
        (record.mode = .integration → isActiveParallel record' = false) := by
    intro task record other record' hwrites hactive _ hlookup
    obtain ⟨hunwritten, hwrite⟩ := step_write hrun hstep hwrites
    obtain ⟨parallel, dependencies, -, hstart⟩ := write_active hwrite hactive
    obtain ⟨hsequential, hparallel⟩ :=
      start_excludes hidle hrun hunwritten hstart other record' hlookup
    refine ⟨hsequential, fun hmode => hparallel ?_⟩
    obtain ⟨base, now, rfl⟩ := hstart.value
    cases parallel with
    | false => rfl
    | true => cases hmode
  have hsame : ∀ task record other record', writes task e = some record →
      writes other e = some record' → task = other ∧ record = record' := by
    intro task record other record' h h'
    have heq := (writes_eq_some_iff.mp h).symm.trans (writes_eq_some_iff.mp h')
    simp only [Event.mk.injEq, Action.writeRecord.injEq] at heq
    exact ⟨heq.2.1.1, heq.2.1.2⟩
  have hkind : ∀ record, isActiveSequential record = true →
      record.mode = .integration ∧ record.status = .active := by
    intro record h
    simpa [isActiveSequential] using h
  constructor
  · intro task record other record' hlookup hlookup' hactive hactive'
    rcases step_lookup_cases hstep hlookup with hw | ⟨hw, hlookup⟩ <;>
      rcases step_lookup_cases hstep hlookup' with hw' | ⟨hw', hlookup'⟩
    · exact (hsame _ _ _ _ hw hw').1
    · have hno := (hwritten _ _ _ _ hw (hkind _ hactive).2 hw' hlookup').1
      rw [hactive'] at hno
      cases hno
    · have hno := (hwritten _ _ _ _ hw' (hkind _ hactive').2 hw hlookup).1
      rw [hactive] at hno
      cases hno
    · exact hold.unique _ _ _ _ hlookup hlookup' hactive hactive'
  · intro task record other record' hlookup hlookup' hactive
    rcases step_lookup_cases hstep hlookup with hw | ⟨hw, hlookup⟩ <;>
      rcases step_lookup_cases hstep hlookup' with hw' | ⟨hw', hlookup'⟩
    · obtain ⟨-, rfl⟩ := hsame _ _ _ _ hw hw'
      simp [isActiveParallel, (hkind _ hactive).1]
    · exact (hwritten _ _ _ _ hw (hkind _ hactive).2 hw' hlookup').2 (hkind _ hactive).1
    · by_contra htrue
      simp only [Bool.not_eq_false, isActiveParallel, Bool.and_eq_true, decide_eq_true_eq] at htrue
      have hno := (hwritten _ _ _ _ hw' htrue.2 hw hlookup).1
      rw [hactive] at hno
      cases hno
    · exact hold.alone _ _ _ _ hlookup hlookup' hactive

/-- In every state that any requests reach, at most one integration task is active, and then no
parallel task is. -/
theorem active_integration_exclusive (hidle : world.Idle)
    (hworld : IntegrationExclusive world.tasks)
    (hrun : machine.Reaches guard (pool project requests world) c) :
    IntegrationExclusive c.state.tasks := by
  induction hrun with
  | refl => exact hworld
  | step hreach hstep ih => exact integrationExclusive_step hidle hreach hstep ih

/-- A task that has been started in a new project. -/
def exampleStart : Nat → Request := fun _ => .taskStart exampleTask false []

theorem active_integration_exclusive_example :
    ∃ c, machine.Reaches anyStep (pool exampleProject exampleStart newProject) c ∧
      (c.state.tasks.lookup exampleTask).map isActiveSequential = some true ∧
      IntegrationExclusive c.state.tasks := by
  have hrun : ((machine.run (fun _ _ _ _ => true) (pool exampleProject exampleStart newProject)
      (goes 0 8 ++ [(0, .clock 1)] ++ goes 0 2)).map fun c =>
        (c.state.tasks.lookup exampleTask).map isActiveSequential) = some (some true) := by
    decide +kernel
  obtain ⟨c, hreaches, hactive⟩ := Machine.exists_of_run hrun
  refine ⟨c, hreaches, hactive, active_integration_exclusive newProject_idle ?_ hreaches⟩
  constructor
  · intro task record other record' hlookup
    cases hlookup
  · intro task record other record' hlookup
    cases hlookup

/-! ## Every name is started once -/

variable (requests) in
/-- The event is the record write of a start of `task`. -/
def startWrites (task : Name) (e : Event Action.Reply) : Bool :=
  (writes task e).isSome && match requests e.thread with
    | .taskStart started _ _ => started = task
    | _ => false

/-- Request `i` sees that there is no record of `task` yet. -/
def seesAbsent (i : Nat) (task : Name) (e : Event Action.Reply) : Bool :=
  match e with
  | ⟨j, .recordExists checked, (false : Bool)⟩ => j = i && checked = task
  | _ => false

variable (requests) in
/-- No other start of the same name writes its record between the existence check of a start and
its write. -/
def StartsApart (trace : List (Event Action.Reply)) : Prop :=
  ∀ before e after task, trace = before ++ e :: after → startWrites requests task e = true →
    ∀ e' ∈ since (seesAbsent e.thread task) before, startWrites requests task e' = false

/-- In the run from `c₀` to `c` no start has overwritten a record, no name has been started twice,
and no record that was not active has become active again. -/
structure StartsFresh (requests : Nat → Request) (c₀ c : Pool) : Prop where
  fresh : ∀ c₁ e c₂ task, machine.Reaches anyStep c₀ c₁ → machine.Step anyStep e c₁ c₂ →
    machine.Reaches anyStep c₂ c → startWrites requests task e = true →
    c₁.state.tasks.lookup task = none
  once : ∀ before e middle e' after task, c.trace = before ++ e :: (middle ++ e' :: after) →
    startWrites requests task e = true → startWrites requests task e' = false
  final : ∀ c₁ e c₂ task old new, machine.Reaches anyStep c₀ c₁ → machine.Step anyStep e c₁ c₂ →
    machine.Reaches anyStep c₂ c → c₁.state.tasks.lookup task = some old →
    old.status ≠ .active → c₂.state.tasks.lookup task = some new → new.status ≠ .active

theorem startWrites_eq_true_iff :
    startWrites requests task e = true ↔ ∃ record, writes task e = some record ∧
      ∃ parallel dependencies, requests e.thread = .taskStart task parallel dependencies := by
  unfold startWrites
  rw [Bool.and_eq_true, Option.isSome_iff_exists]
  constructor
  · rintro ⟨⟨record, hwrites⟩, hstart⟩
    refine ⟨record, hwrites, ?_⟩
    split at hstart
    · rename_i started parallel dependencies heq
      obtain rfl : started = task := by simpa using hstart
      exact ⟨parallel, dependencies, heq⟩
    · cases hstart
  · rintro ⟨record, hwrites, parallel, dependencies, heq⟩
    refine ⟨⟨record, hwrites⟩, ?_⟩
    rw [heq]
    simp

/-- Only a start makes a record out of none. -/
theorem lookup_none_step (hrun : machine.Reaches guard (pool project requests world) c)
    (hstep : machine.Step guard e c c') (hnone : c.state.tasks.lookup task = none)
    (hother : startWrites requests task e = false) : c'.state.tasks.lookup task = none := by
  cases hwrites : writes task e with
  | none =>
    rw [step_lookup_of_not_writes hstep hwrites]
    exact hnone
  | some record =>
    obtain ⟨-, hwrite⟩ := step_write hrun hstep hwrites
    have hstart : ∀ parallel dependencies,
        requests e.thread ≠ .taskStart task parallel dependencies := by
      intro parallel dependencies heq
      have htrue := startWrites_eq_true_iff.mpr ⟨record, hwrites, parallel, dependencies, heq⟩
      rw [hother] at htrue
      cases htrue
    obtain ⟨old, hread, -⟩ := write_read hwrite hstart
    have hsome := lookup_isSome_of_read hrun hread
    rw [hnone] at hsome
    cases hsome

/-- When no other start of the name has written since its check, a start finds no record. -/
theorem start_fresh (hrun : machine.Reaches guard (pool project requests world) c)
    (hstep : machine.Step guard e c c') (hstart : startWrites requests task e = true)
    (hapart : ∀ e' ∈ since (seesAbsent e.thread task) c.trace,
      startWrites requests task e' = false) : c.state.tasks.lookup task = none := by
  obtain ⟨record, hwrites, parallel, dependencies, hrequest⟩ := startWrites_eq_true_iff.mp hstart
  obtain ⟨-, hwrite⟩ := step_write hrun hstep hwrites
  rw [hrequest] at hwrite
  cases hwrite with
  | start _ _ hwrite =>
    obtain ⟨c₁, c₂, after, hrun₁, hcheck, hrun₂, htrace, hevents⟩ :=
      hrun.split_of_mem rfl (mem_own.mp hwrite.absent).1
    refine hrun₂.interval (I := fun c => c.state.tasks.lookup task = none) hevents ?_ ?_
    · rw [step_lookup_of_not_writes hcheck rfl]
      have hfound := step_recordExists hcheck
      simpa using hfound.symm
    · intro d e' d' before rest hsplit _ hreach hstep' hnone
      refine lookup_none_step ((hrun₁.step hcheck).trans hreach) hstep' hnone ?_
      refine hapart e' (mem_since htrace ?_ (by simp [hsplit]))
      simp [seesAbsent]

/-- No name is started twice and no record is overwritten by a start exactly when no other start
of the same name writes between the check and the write of a start. -/
theorem starts_fresh_iff (hrun : machine.Reaches anyStep (pool project requests world) c) :
    StartsFresh requests (pool project requests world) c ↔ StartsApart requests c.trace := by
  constructor
  · intro hfresh before e after task htrace hstart e' he'
    obtain ⟨first, middle, hsplit⟩ := split_of_mem_since_before htrace he'
    by_contra htrue
    have hno := hfresh.once _ _ _ _ _ task hsplit (by simpa using htrue)
    rw [hstart] at hno
    cases hno
  · intro hapart
    have hfresh : ∀ c₁ e c₂ task, machine.Reaches anyStep (pool project requests world) c₁ →
        machine.Step anyStep e c₁ c₂ → machine.Reaches anyStep c₂ c →
        startWrites requests task e = true → c₁.state.tasks.lookup task = none := by
      intro c₁ e c₂ task hrun₁ hstep hrun₂ hstart
      obtain ⟨after, htrace, -⟩ := hstep.trace_split hrun₂
      exact start_fresh hrun₁ hstep hstart (hapart _ _ _ task htrace hstart)
    refine ⟨hfresh, ?_, ?_⟩
    · intro before e middle e' after task htrace hstart
      by_contra htrue
      obtain ⟨record, hwrites, -⟩ := startWrites_eq_true_iff.mp hstart
      obtain ⟨d₁, d₂, c₁, c₂, hrund, hstepd, hrestd, -, hstep, hrest⟩ := hrun.at_events rfl htrace
      have hrun₁ := (hrund.step hstepd).trans hrestd
      have hnone := hfresh c₁ e' c₂ task hrun₁ hstep hrest (by simpa using htrue)
      have hsome : (c₁.state.tasks.lookup task).isSome = true := by
        apply lookup_isSome_mono hrestd
        rw [step_lookup hstepd, hwrites]
        rfl
      rw [hnone] at hsome
      cases hsome
    · intro c₁ e c₂ task old new hrun₁ hstep hrun₂ hold hstatus hnew hactive
      rcases step_lookup_cases hstep hnew with hwrites | ⟨-, hsame⟩
      · obtain ⟨-, hwrite⟩ := step_write hrun₁ hstep hwrites
        obtain ⟨parallel, dependencies, hrequest, -⟩ := write_active hwrite hactive
        have hstart := startWrites_eq_true_iff.mpr ⟨new, hwrites, parallel, dependencies, hrequest⟩
        have hnone := hfresh c₁ e c₂ task hrun₁ hstep hrun₂ hstart
        rw [hold] at hnone
        cases hnone
      · rw [hold] at hsame
        cases hsame
        exact hstatus hactive

/-- Request 2 completes the task, the others start it. -/
def exampleRestart : Nat → Request
  | 2 => .taskComplete exampleTask
  | _ => .taskStart exampleTask false []

/-- The start 1 checks the name before the start 0 has written, and writes after the task of the
start 0 has been completed: the completed record becomes active again, and the start succeeds. -/
theorem started_twice :
    ∃ (c c' c'' : Pool) (e : Event Action.Reply) (record : TaskRecord),
      machine.Reaches anyStep (pool exampleProject exampleRestart newProject) c ∧ e.thread = 1 ∧
      machine.Step anyStep e c c' ∧ machine.Reaches anyStep c' c'' ∧
      (c.state.tasks.lookup exampleTask).map (·.status) = some .completed ∧
      c'.state.tasks.lookup exampleTask = some record ∧ record.status = .active ∧
      c''.programs 1 = .ret (.record record) := by
  have hrun : ((machine.run (fun _ _ _ _ => true) (pool exampleProject exampleRestart newProject)
      (goes 1 3 ++ goes 0 8 ++ [(0, .clock 1)] ++ goes 0 2 ++ goes 2 7 ++ [(2, .clock 2)] ++
        goes 2 2 ++ goes 1 6 ++ [(1, .clock 3)])).bind fun c =>
          (machine.step (fun _ _ _ _ => true) c (1, .go)).map fun c' =>
            ((c.state.tasks.lookup exampleTask).map (·.status),
              (c'.state.tasks.lookup exampleTask).map (·.status),
              (machine.run (fun _ _ _ _ => true) c' (goes 1 1)).map fun c'' =>
                decide ((c''.programs 1).value?.bind Outcome.record? =
                  c'.state.tasks.lookup exampleTask))) =
      some (some .completed, some .active, some true) := by
    decide +kernel
  obtain ⟨c, c', e, hreaches, hthread, hstep, hvalue⟩ := Machine.exists_step_of_run hrun
  simp only [Prod.mk.injEq] at hvalue
  obtain ⟨hcompleted, hactive, hend⟩ := hvalue
  obtain ⟨record, hrecord, hstatus⟩ := Option.map_eq_some_iff.mp hactive
  obtain ⟨c'', hreaches', hsame⟩ := Machine.exists_of_run hend
  rw [decide_eq_true_eq, hrecord] at hsame
  exact ⟨c, c', c'', e, record, hreaches, hthread, hstep, hreaches', hcompleted, hrecord, hstatus,
    Outcome.record?_value hsame⟩

theorem starts_fresh_iff_example :
    ∃ c, machine.Reaches anyStep (pool exampleProject exampleRestart newProject) c ∧
      (c.state.tasks.lookup exampleTask).map (·.status) = some .completed ∧
      (StartsFresh exampleRestart (pool exampleProject exampleRestart newProject) c ↔
        StartsApart exampleRestart c.trace) := by
  have hrun : ((machine.run (fun _ _ _ _ => true) (pool exampleProject exampleRestart newProject)
      (goes 0 8 ++ [(0, .clock 1)] ++ goes 0 2 ++ goes 2 7 ++ [(2, .clock 2)] ++ goes 2 2)).map
        fun c => (c.state.tasks.lookup exampleTask).map (·.status)) = some (some .completed) := by
    decide +kernel
  obtain ⟨c, hreaches, hstatus⟩ := Machine.exists_of_run hrun
  exact ⟨c, hreaches, hstatus, starts_fresh_iff hreaches⟩

end

end AgentDev
