import AgentDev.Core.Runs

/-!
# Synchronizing with the human repository

`project-sync` lists the records before it waits for the integration lock, and decides by
this listing that no task is unfinished. A task that is started meanwhile is not seen, and the
integration branch is fast-forwarded under it (`synced_under_active_task`). The
fast-forward finds no unfinished task exactly when no unfinished record, written since the listing,
is left (`syncs_finished_iff`).
-/

namespace AgentDev

open Interleaving

section

variable {project : Name} {requests : Nat → Request} {world : World}
  {guard : Guard Action.Reply World Choice} {c c' : Pool} {e : Event Action.Reply}

/-- An active integration task, or a parallel task that is neither merged nor aborted. -/
def isUnfinished (record : TaskRecord) : Bool :=
  isActiveSequential record || isPendingParallel record

/-- The event is a fast-forward of the integration branch. -/
def forwards (e : Event Action.Reply) : Bool :=
  match e with
  | ⟨_, .gitMergeFf, (true : Bool)⟩ => true
  | _ => false

theorem forwards_eq_true_iff : forwards e = true ↔ e = ⟨e.thread, .gitMergeFf, true⟩ := by
  constructor
  · intro h
    unfold forwards at h
    split at h
    · rfl
    · cases h
  · intro h
    rw [h]
    rfl

/-- Every fast-forward in the run from `c₀` to `c` happened when no task was unfinished. -/
def SyncsFinished (c₀ c : Pool) : Prop :=
  ∀ c₁ e c₂, machine.Reaches anyStep c₀ c₁ → machine.Step anyStep e c₁ c₂ →
    machine.Reaches anyStep c₂ c → forwards e = true →
    ∀ task record, c₁.state.tasks.lookup task = some record → isUnfinished record = false

/-- An unfinished record that is written between the listing of a sync and its fast-forward is
written again in between. -/
def SyncsApart (trace : List (Event Action.Reply)) : Prop :=
  ∀ before i names first e second forward after task record,
    trace = before ++ ⟨i, .listRecords, names⟩ :: (first ++ e :: second) ++ forward :: after →
    forwards forward = true → forward.thread = i → writes task e = some record →
    isUnfinished record = true → ∃ e' ∈ second, (writes task e').isSome = true

/-- A record that nothing has written since the listing has been read, and passed the gate. -/
theorem gate_holds (hrun : machine.Reaches guard (pool project requests world) c)
    (hstep : machine.Step guard e c c') (hforwards : forwards e = true) :
    ∃ names c₁ c₂ rest, machine.Reaches guard (pool project requests world) c₁ ∧
      machine.Step guard ⟨e.thread, .listRecords, names⟩ c₁ c₂ ∧ machine.Reaches guard c₂ c ∧
      c.trace = c₁.trace ++ ⟨e.thread, .listRecords, names⟩ :: rest ∧ c.trace = c₂.trace ++ rest ∧
      ∀ task record, c₂.state.tasks.lookup task = some record →
        (∀ e' ∈ rest, writes task e' = none) → isUnfinished record = false := by
  have hlicence := (step_allowed hrun hstep).licence
  rw [forwards_eq_true_iff.mp hforwards] at hlicence
  obtain ⟨-, bundle, records, -, ⟨names, before, after, hown, hread⟩, hactive, hpending⟩ := hlicence
  obtain ⟨c₁, c₂, rest, hrun₁, hlist, hrest, -, htrace, hevents, -, hafter⟩ :=
    hrun.own_split rfl hown
  refine ⟨names, c₁, c₂, rest, hrun₁, hlist, hrest, htrace, hevents,
    fun task record hlookup hnot => ?_⟩
  have hlisted : task ∈ names := by
    rw [step_listRecords hlist, TaskStore.mem_names, ← step_lookup_of_not_writes hlist rfl, hlookup]
    rfl
  obtain ⟨reply, hmem, hrecords⟩ := hread task hlisted
  rw [← hafter] at hmem
  obtain ⟨u, v, hsplit⟩ := List.append_of_mem (mem_own.mp hmem).1
  have hsplit' : c.trace = c₂.trace ++ u ++ ⟨e.thread, .readRecord task, reply⟩ :: v := by
    rw [hevents, hsplit, List.append_assoc]
  obtain ⟨d₁, d₂, hrund, htrd, hstepd, -, -⟩ := hrest.split hsplit'
  have hsame : d₁.state.tasks.lookup task = some record := by
    rw [lookup_eq_of_not_written hrund htrd fun e' he' => hnot e' (by simp [hsplit, he'])]
    exact hlookup
  have hmem' := hrecords record ((step_readRecord hstepd).trans hsame)
  have hno := activeSequential_isEmpty_iff.mp hactive record hmem'
  have hno' := pendingParallel_isEmpty_iff.mp hpending record hmem'
  simp [isUnfinished, hno, hno']

/-- A sync fast-forwards only when no task is unfinished, exactly when no unfinished record is left
that was written after the listing of the sync. -/
theorem syncs_finished_iff (hrun : machine.Reaches anyStep (pool project requests world) c) :
    SyncsFinished (pool project requests world) c ↔ SyncsApart c.trace := by
  constructor
  · intro hfinished before i names first e second forward after task record htrace hforwards _
      hwrites hunfinished
    by_contra hlast
    have hnot : ∀ e' ∈ second, writes task e' = none := by
      intro e' he'
      by_contra hne
      exact hlast ⟨e', he', Option.isSome_iff_ne_none.mpr hne⟩
    have hsplit : c.trace = (before ++ ⟨i, .listRecords, names⟩ :: first) ++ e ::
        (second ++ forward :: after) := by
      rw [htrace]
      simp
    obtain ⟨d₁, d₂, c₁, c₂, hrund, hstepd, hrestd, hevents, hstep, hrest⟩ :=
      hrun.at_events rfl hsplit
    have hrun₁ := (hrund.step hstepd).trans hrestd
    have hlookup : c₁.state.tasks.lookup task = some record := by
      rw [lookup_eq_of_not_written hrestd hevents hnot, step_lookup hstepd, hwrites]
      rfl
    rw [hfinished c₁ forward c₂ hrun₁ hstep hrest hforwards task record hlookup] at hunfinished
    cases hunfinished
  · intro hapart c₁ e c₂ hrun₁ hstep hrest hforwards task record hlookup
    obtain ⟨names, d₁, d₂, rest, hrund, hlist, hrestd, htrace, hevents, hgate⟩ :=
      gate_holds hrun₁ hstep hforwards
    obtain ⟨after, hafter, -⟩ := hstep.trace_split hrest
    rcases lookup_last_write hrestd hevents hlookup with ⟨first, f, second, hsplit, hwrites, hlast⟩ |
      ⟨hnot, hfirst⟩
    · by_contra hunfinished
      have hsplit' : c.trace = d₁.trace ++ ⟨e.thread, .listRecords, names⟩ :: (first ++ f :: second) ++
          e :: after := by
        rw [hafter, htrace, hsplit]
      obtain ⟨e', he', hwrites'⟩ := hapart _ _ _ _ _ _ _ _ _ _ hsplit' hforwards rfl hwrites
        (by simpa using hunfinished)
      rw [hlast e' he'] at hwrites'
      cases hwrites'
    · exact hgate task record hfirst hnot

end

def exampleBundle : Name := ⟨"inbound", by decide⟩

/-- A new project for which the human has exported a bundle. -/
def inboundProject : World := { newProject with bundles := [exampleBundle] }

/-- Request 0 synchronizes the project, the others start the task. -/
def exampleSyncs : Nat → Request
  | 0 => .projectSync exampleBundle
  | _ => .taskStart exampleTask false []

/-- The sync lists no records; then the task is started; then the sync fetches the new commit of
the human and fast-forwards the branch that the active task works on. -/
theorem synced_under_active_task :
    ∃ (c c' : Pool) (e : Event Action.Reply),
      machine.Reaches anyStep (pool exampleProject exampleSyncs inboundProject) c ∧
      machine.Step anyStep e c c' ∧ forwards e = true ∧
      (c.state.tasks.lookup exampleTask).map isActiveSequential = some true ∧
      c.state.repo.refs integrationBranch = some 0 ∧ c'.state.repo.refs integrationBranch = some 1 ∧
      ¬SyncsFinished (pool exampleProject exampleSyncs inboundProject) c' := by
  have hrun : ((machine.run (fun _ _ _ _ => true)
      (pool exampleProject exampleSyncs inboundProject)
      (goes 0 3 ++ goes 1 8 ++ [(1, .clock 1)] ++ goes 1 2 ++ goes 0 7 ++
        [(0, .fetched [[0]] 1)] ++ goes 0 4)).bind fun c =>
        (machine.step (fun _ _ _ _ => true) c (0, .go)).map fun c' =>
          (c'.trace.getLast?.map forwards,
            (c.state.tasks.lookup exampleTask).map isActiveSequential,
            c.state.repo.refs integrationBranch, c'.state.repo.refs integrationBranch)) =
      some (some true, some true, some 0, some 1) := by
    decide +kernel
  obtain ⟨c, c', e, hreaches, -, hstep, hvalue⟩ := Machine.exists_step_of_run hrun
  simp only [Prod.mk.injEq, hstep.trace_eq, List.getLast?_append, List.getLast?_singleton,
    Option.some_or, Option.map_some, Option.some.injEq] at hvalue
  obtain ⟨hforwards, hactive, hbefore, hafter⟩ := hvalue
  refine ⟨c, c', e, hreaches, hstep, hforwards, hactive, hbefore, hafter, fun hfinished => ?_⟩
  obtain ⟨record, hlookup, hsequential⟩ := Option.map_eq_some_iff.mp hactive
  have hno := hfinished c e c' hreaches hstep .refl hforwards exampleTask record hlookup
  rw [isUnfinished, hsequential] at hno
  cases hno

theorem syncs_finished_iff_example :
    ∃ c, machine.Reaches anyStep (pool exampleProject exampleSyncs inboundProject) c ∧
      c.state.repo.refs integrationBranch = some 1 ∧
      (SyncsFinished (pool exampleProject exampleSyncs inboundProject) c ↔ SyncsApart c.trace) := by
  have hrun : ((machine.run (fun _ _ _ _ => true)
      (pool exampleProject exampleSyncs inboundProject)
      (goes 0 10 ++ [(0, .fetched [[0]] 1)] ++ goes 0 5)).map fun c =>
        c.state.repo.refs integrationBranch) = some (some 1) := by
    decide +kernel
  obtain ⟨c, hreaches, hhead⟩ := Machine.exists_of_run hrun
  exact ⟨c, hreaches, hhead, syncs_finished_iff hreaches⟩

end AgentDev
