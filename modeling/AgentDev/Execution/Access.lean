import AgentDev.Execution.Sources
import AgentDev.Execution.Targets

/-!
# Access to the project

What a run can write in the directory of its project: nothing in a run that only reads, and otherwise
the workspace and, for a task with a worktree of its own, the repository of the worktree. An option
`-v` is read as `source:target:mode` in any way that its text allows, since a source may contain
colons.
-/

namespace AgentDev.Execution

open Python Policy Agents Files

/-! ## Options as texts -/

/-- The mode is what the text ends with. -/
theorem volumeArgument_mode {source target source' target' : Str} {readOnly readOnly' : Bool}
    (h : volumeArgument source target readOnly = volumeArgument source' target' readOnly') :
    readOnly = readOnly' := by
  have hlast : ∀ (text : Str) (mode : Bool),
      (text ++ if mode then str "ro" else str "rw").getLast? = some (if mode then 111 else 119) := by
    intro text mode
    cases mode <;> rw [List.getLast?_append] <;> rfl
  have heq := congrArg List.getLast? h
  unfold volumeArgument at heq
  rw [hlast, hlast] at heq
  cases readOnly <;> cases readOnly' <;> first | rfl | exact absurd heq (by decide)

/-- The text begins with a slash if the source does. -/
theorem isAbsolute_volumeArgument (source target : Str) (readOnly : Bool) :
    isAbsolute (volumeArgument source target readOnly) = isAbsolute source := by
  unfold volumeArgument isAbsolute
  cases source with
  | nil => rfl
  | cons c rest => rfl

theorem volumeArguments_of_length_le_one {args : List Str} (h : args.length ≤ 1) :
    volumeArguments args = [] := by
  match args with
  | [] => rfl
  | [_] => rfl
  | _ :: _ :: _ => simp at h

/-- If the image is called `-v`, then the command stands where a volume is expected. -/
theorem volumeArguments_command {image first : Str} {args last : List Str}
    (hargs : str "-v" ∉ first :: args) (hlast : last.length ≤ 1) {text : Str}
    (h : text ∈ volumeArguments (image :: (first :: args ++ last))) : text = first := by
  have hrest : volumeArguments (first :: args ++ last) = [] := by
    rw [volumeArguments_of_not_mem hargs, volumeArguments_of_length_le_one hlast]
  have hrest' : volumeArguments (args ++ last) = [] := by
    rw [volumeArguments_of_not_mem fun hmem => hargs (List.mem_cons_of_mem first hmem),
      volumeArguments_of_length_le_one hlast]
  by_cases himage : image = str "-v"
  · rw [List.cons_append, volumeArguments, if_pos himage, hrest'] at h
    exact List.mem_singleton.mp h
  · rw [List.cons_append, volumeArguments, if_neg himage, ← List.cons_append, hrest] at h
    cases h

/-! ## What a run can write -/

/-- An option that makes a place of the directory writable. -/
def WritesInto (root : Place) (text : Str) : Prop :=
  ∃ place target, text = volumeArgument (showPath place) target false ∧ root <+: place

theorem WritesInto.isAbsolute {root : Place} {text : Str} (h : WritesInto root text) :
    isAbsolute text = true := by
  obtain ⟨place, target, rfl, -⟩ := h
  rw [isAbsolute_volumeArgument]
  rfl

/-- A run cannot write through a mount of the provider, as far as its project goes. -/
theorem not_writesInto_of_provider {mount : ExecutionMount} (h : IsProviderMount mount.toFields)
    (root : Place) : ¬ WritesInto root mount.volume := by
  intro hwrites
  rcases h with ⟨-, hrelative⟩ | ⟨-, hreadOnly⟩
  · have habsolute := hwrites.isAbsolute
    rw [ExecutionMount.Fields.volume, isAbsolute_volumeArgument, hrelative] at habsolute
    cases habsolute
  · obtain ⟨place, target, htext, -⟩ := hwrites
    rw [volumeArgument_mode htext] at hreadOnly
    cases hreadOnly

/-- The options of a run that make something in the project writable. -/
def writableVolumes (loaded : LoadedTask) : List Str :=
  volumeArgument (showPath loaded.workspace) (str "/workspace") false ::
    if loaded.inWorktree then
      [volumeArgument (showPath loaded.workspace) (showPath loaded.workspace) false,
        volumeArgument (showPath (gitCommonOf loaded.paths)) (showPath (gitCommonOf loaded.paths))
          false]
    else []

/-- The mounts of the task that can be written through. -/
theorem mem_writableVolumes {loaded : LoadedTask} (task : Str) {text : Str} {readonly : Bool} :
    (∃ mount, (mount ∈ taskMounts loaded task readonly ∨ mount ∈ worktreeMounts loaded readonly) ∧
      mount.readOnly = false ∧ mount.volume = text) ↔
      readonly = false ∧ text ∈ writableVolumes loaded := by
  constructor
  · rintro ⟨mount, hmount, hmode, rfl⟩
    rcases hmount with hmount | hmount
    · simp only [taskMounts, List.mem_cons, List.not_mem_nil, or_false] at hmount
      rcases hmount with rfl | rfl | rfl
      · cases hmode
        exact ⟨rfl, List.mem_cons_self⟩
      · cases hmode
      · cases hmode
    · unfold worktreeMounts at hmount
      split at hmount
      · rename_i hin
        unfold writableVolumes
        rw [if_pos hin]
        rcases List.mem_pair.mp hmount with rfl | rfl
        · cases hmode
          exact ⟨rfl, List.mem_cons_of_mem _ List.mem_cons_self⟩
        · cases hmode
          exact ⟨rfl, List.mem_cons_of_mem _ (List.mem_cons_of_mem _ List.mem_cons_self)⟩
      · cases hmount
  · rintro ⟨rfl, htext⟩
    rcases List.mem_cons.mp htext with rfl | htext
    · exact ⟨_, Or.inl List.mem_cons_self, rfl, rfl⟩
    · unfold worktreeMounts
      split at htext
      · rename_i hin
        rw [if_pos hin]
        rcases List.mem_pair.mp htext with rfl | rfl
        · exact ⟨_, Or.inr List.mem_cons_self, rfl, rfl⟩
        · exact ⟨_, Or.inr (List.mem_cons_of_mem _ List.mem_cons_self), rfl, rfl⟩
      · cases htext

section

variable {env : Surroundings} {cfg : Config} {request : Dict} {plan : ResolvedExecutionPlan}
  {project task : Str} {driver : AgentDriver} {loaded : LoadedTask} {projects : Place}

/-- The options of a run are its mounts, and perhaps the command. -/
theorem AcceptedRun.mem_volumeArguments
    (h : AcceptedRun env cfg request plan project task driver loaded projects) {text : Str} :
    text ∈ volumeArguments (executionPlanArgv env.shown plan) →
      (∃ mount ∈ plan.allMounts, mount.volume = text) ∨ isAbsolute text = false := by
  intro htext
  rw [volumeArguments_argv] at htext
  rcases List.mem_append.mp htext with hmount | hcommand
  · obtain ⟨mount, hmem, heq⟩ := List.mem_map.mp hmount
    exact Or.inl ⟨mount, hmem, heq⟩
  · obtain ⟨policy, prompt, runSpec, outerOnly, hpolicy, hrunSpec, hmounts⟩ := h.mounts
    have hplain := builtinAgentRegistry_plain driver (getDriver_mem h.hasProvider)
    obtain ⟨-, first, args, last, hargv, hfirst, hargs, hlast⟩ := hplain.command hpolicy hrunSpec
    rw [hmounts.argv, hargv] at hcommand
    rw [volumeArguments_command hargs hlast hcommand]
    exact Or.inr hfirst

theorem AcceptedRun.mount_mem
    (h : AcceptedRun env cfg request plan project task driver loaded projects)
    {mount : ExecutionMount.Fields} (hmount : mount ∈ taskMounts loaded task (readonlyOf request) ∨
      mount ∈ worktreeMounts loaded (readonlyOf request)) :
    ∃ full ∈ plan.allMounts, full.toFields = mount := by
  obtain ⟨others, hmounts, -⟩ := h.allMounts
  have hmem : mount ∈ plan.allMounts.map (·.toFields) := by
    rw [hmounts]
    rcases hmount with htask | hworktree
    · exact List.mem_append_left _ (List.mem_append_left _ htask)
    · exact List.mem_append_right _ hworktree
  obtain ⟨full, hfull, heq⟩ := List.mem_map.mp hmem
  exact ⟨full, hfull, heq⟩

theorem AcceptedRun.volume_mem
    (h : AcceptedRun env cfg request plan project task driver loaded projects)
    {mount : ExecutionMount.Fields} (hmount : mount ∈ taskMounts loaded task (readonlyOf request) ∨
      mount ∈ worktreeMounts loaded (readonlyOf request)) :
    mount.volume ∈ volumeArguments (executionPlanArgv env.shown plan) := by
  obtain ⟨full, hfull, rfl⟩ := h.mount_mem hmount
  rw [volumeArguments_argv]
  exact List.mem_append_left _ (List.mem_map_of_mem (f := (·.volume)) hfull)

/-- What is mounted at `/workspace` is the workspace, in the mode of the run. -/
theorem AcceptedRun.workspace_mounted
    (h : AcceptedRun env cfg request plan project task driver loaded projects) :
    ∀ mount ∈ plan.allMounts, mount.target = str "/workspace" →
      mount.source = showPath loaded.workspace ∧ mount.readOnly = readonlyOf request := by
  intro mount hmem htarget
  obtain ⟨workspace, hworkspace, hfields⟩ := h.mount_mem (Or.inl List.mem_cons_self)
  have hsame : mount = workspace := by
    apply plan.unambiguous mount hmem workspace hworkspace
    rw [htarget, hfields]
  rw [hsame, hfields]
  exact ⟨rfl, rfl⟩

theorem AcceptedRun.readOnly_of_role
    (h : AcceptedRun env cfg request plan project task driver loaded projects) :
    ∀ mount ∈ plan.allMounts, mount.role = .reference ∨ mount.role = .taskMetadata →
      mount.readOnly = true := by
  intro mount hmem hrole
  obtain ⟨others, hmounts, hothers⟩ := h.allMounts
  have hfields := List.mem_map_of_mem (f := (·.toFields)) hmem
  rw [hmounts, List.mem_append, List.mem_append] at hfields
  rcases hfields with (htask | hprovider) | hworktree
  · simp only [taskMounts, List.mem_cons, List.not_mem_nil, or_false] at htask
    rcases htask with heq | heq | heq
    · rw [heq] at hrole
      rcases hrole with hrole | hrole <;> cases hrole
    · rw [heq]
    · rw [heq]
  · obtain ⟨other, hother, heq⟩ := List.mem_map.mp hprovider
    have hprovider := hothers other hother
    rw [heq] at hprovider
    rcases hprovider with ⟨hstate, -⟩ | ⟨hpolicy, -⟩
    · rw [hstate] at hrole
      rcases hrole with hrole | hrole <;> cases hrole
    · rw [hpolicy] at hrole
      rcases hrole with hrole | hrole <;> cases hrole
  · unfold worktreeMounts at hworktree
    split at hworktree
    · rcases List.mem_pair.mp hworktree with heq | heq <;> rw [heq] at hrole <;>
        rcases hrole with hrole | hrole <;> cases hrole
    · cases hworktree

/-- The options that make something in the project writable. -/
theorem AcceptedRun.writes_iff
    (h : AcceptedRun env cfg request plan project task driver loaded projects) (text : Str) :
    text ∈ volumeArguments (executionPlanArgv env.shown plan) ∧ WritesInto loaded.paths.root text ↔
      readonlyOf request = false ∧ text ∈ writableVolumes loaded := by
  rw [← mem_writableVolumes task]
  constructor
  · rintro ⟨htext, hwrites⟩
    rcases h.mem_volumeArguments htext with ⟨mount, hmem, rfl⟩ | hrelative
    · have hmode : mount.readOnly = false := by
        obtain ⟨place, target, heq, -⟩ := hwrites
        exact volumeArgument_mode heq
      obtain ⟨others, hmounts, hothers⟩ := h.allMounts
      have hfields := List.mem_map_of_mem (f := (·.toFields)) hmem
      rw [hmounts, List.mem_append, List.mem_append] at hfields
      rcases hfields with (htask | hprovider) | hworktree
      · exact ⟨mount.toFields, Or.inl htask, hmode, rfl⟩
      · obtain ⟨other, hother, heq⟩ := List.mem_map.mp hprovider
        exact absurd (heq ▸ hwrites) (not_writesInto_of_provider (hothers other hother) _)
      · exact ⟨mount.toFields, Or.inr hworktree, hmode, rfl⟩
    · rw [hwrites.isAbsolute] at hrelative
      cases hrelative
  · rintro ⟨mount, hmount, hmode, rfl⟩
    obtain ⟨place, hsource, -, hprefix⟩ := h.sources hmount
    refine ⟨h.volume_mem hmount, place, mount.target, ?_, hprefix⟩
    rw [ExecutionMount.Fields.volume, hsource, hmode]

end

/-- What an accepted run can write in its project: nothing if it only reads, and else its workspace
and, for a task that works in a worktree, the repository of the worktree. Its workspace is mounted at
`/workspace` in every run, and nothing else is mounted there. -/
theorem run_access {env : Surroundings} {cfg : Config} {request : Dict}
    {plan : ResolvedExecutionPlan} (h : opRun env cfg request = .ok plan) :
    ∃ project task loaded, field request (str "project") = .str project ∧
      field request (str "task") = .str task ∧
      loadTask env.fs env.readJson cfg.root project task = .ok loaded ∧
      env.fs.resolve (names (loaded.paths.root ++ [str "repo", str "agent"])) =
        some loaded.paths.agent ∧
      loaded.workspace = (if loaded.inWorktree then
        loaded.paths.root ++ [str "worktrees", task] else loaded.paths.agent) ∧
      volumeArgument (showPath loaded.workspace) (str "/workspace") (readonlyOf request) ∈
        volumeArguments (executionPlanArgv env.shown plan) ∧
      (∀ mount ∈ plan.allMounts, mount.target = str "/workspace" →
        mount.source = showPath loaded.workspace ∧ mount.readOnly = readonlyOf request) ∧
      (readonlyOf request = true → ∀ text ∈ volumeArguments (executionPlanArgv env.shown plan),
        ¬ WritesInto loaded.paths.root text) ∧
      (readonlyOf request = false → ∀ text,
        text ∈ volumeArguments (executionPlanArgv env.shown plan) ∧
          WritesInto loaded.paths.root text ↔ text ∈ writableVolumes loaded) ∧
      (∀ mount ∈ plan.allMounts, mount.role = .reference ∨ mount.role = .taskMetadata →
        mount.readOnly = true) ∧
      volumeArgument (showPath (loaded.paths.root ++ [str "reference"])) (str "/reference") true ∈
        volumeArguments (executionPlanArgv env.shown plan) ∧
      volumeArgument (showPath (loaded.paths.root ++ [str "tasks", metadataName task]))
        (str "/task/metadata.json") true ∈ volumeArguments (executionPlanArgv env.shown plan) := by
  obtain ⟨project, task, driver, loaded, projects, hrun⟩ := opRun_ok h
  have hpaths := hrun.known.paths
  refine ⟨project, task, loaded, hrun.hasProject, hrun.hasTask, hrun.isLoaded,
    hpaths.agent.resolves, ?_, ?_, ?_, ?_, ?_, ?_, ?_, ?_⟩
  · rw [hrun.known.workspace, workspaceOf, hpaths.worktrees.1, List.append_assoc]
    rfl
  · exact hrun.volume_mem (Or.inl List.mem_cons_self)
  · exact hrun.workspace_mounted
  · intro hreadonly text htext hwrites
    have hwritable := ((hrun.writes_iff text).mp ⟨htext, hwrites⟩).1
    rw [hreadonly] at hwritable
    cases hwritable
  · intro hwritable text
    rw [hrun.writes_iff text]
    exact and_iff_right hwritable
  · exact hrun.readOnly_of_role
  · have hmem := hrun.volume_mem (Or.inl (List.mem_cons_of_mem _ List.mem_cons_self))
    rw [hpaths.reference.1] at hmem
    exact hmem
  · have hmem := hrun.volume_mem
      (Or.inl (List.mem_cons_of_mem _ (List.mem_cons_of_mem _ List.mem_cons_self)))
    rw [hpaths.tasks.1, List.append_assoc] at hmem
    exact hmem

theorem run_access_example :
    ∃ plan loaded, opRun exampleSurroundings exampleConfig exampleRun = .ok plan ∧
      readonlyOf exampleRun = false ∧
      ∀ text, text ∈ volumeArguments (executionPlanArgv exampleSurroundings.shown plan) ∧
        WritesInto loaded.paths.root text ↔ text ∈ writableVolumes loaded := by
  obtain ⟨plan, hplan⟩ := exampleRun_accepted
  obtain ⟨project, task, loaded, -, -, -, -, -, -, -, -, hwrites, -⟩ := run_access hplan
  exact ⟨plan, loaded, hplan, by decide, hwrites (by decide)⟩

end AgentDev.Execution
