import AgentDev.Execution.Runs

/-!
# Sources of mounts

Every mount of an accepted run that comes from the project shows a place inside the root of the
project, which no link leads out of, whatever the tree of files looks like. The checks of the broker
find such places in three ways: the last part of a path is no link and what is before it has been
resolved (`Canonical.eq_child`), the path has been resolved before (`Canonical.eq_of_real`), or it
has been compared with the root after it was resolved (`Canonical.of_real`).
-/

namespace AgentDev.Execution

open Python Policy Agents Files

variable {env : Surroundings} {cfg : Config}

/-! ## The mounts of a plan -/

/-- What the mounts of a plan are made from. -/
structure MountsFrom (env : Surroundings) (cfg : Config) (driver : AgentDriver) (runSpec : RunSpec)
    (readonly : Bool) (reference : Path) (gitCommon : Option Path) (workspace taskMeta : Place)
    (plan : ResolvedExecutionPlan) : Prop where
  argv : plan.argv = runSpec.argv
  workspaceMount : plan.workspaceMount.toFields =
    ⟨showPath workspace, str "/workspace", readonly, .workspace⟩
  taskMetadataMount : plan.taskMetadataMount.toFields =
    ⟨showPath taskMeta, str "/task/metadata.json", true, .taskMetadata⟩
  references : referenceMountsOf env cfg reference = .ok plan.referenceMounts
  states : driver.stateSpec.mapM stateMountOf = .ok plan.providerStateMounts
  policies : ∃ files generated seeds, runSpec.policyArtifacts.files.mapM policyFileMountOf = .ok files ∧
    materializeGeneratedPolicyFiles env (names taskMeta) driver.id
      runSpec.policyArtifacts.generatedFiles = .ok generated ∧
    seedPolicyMounts env cfg driver = .ok seeds ∧
    plan.providerPolicyArtifacts.mounts = files ++ generated ++ seeds
  auxiliary : auxiliaryMountsOf env cfg workspace gitCommon readonly = .ok plan.auxiliaryMounts

theorem createRunExecutionPlan_ok {driver : AgentDriver} {context : TaskContext} {runSpec : RunSpec}
    {readonly outerOnly : Bool} {securityClass : Str} {reference : Path} {gitCommon : Option Path}
    {plan : ResolvedExecutionPlan}
    (h : createRunExecutionPlan env cfg driver context runSpec readonly outerOnly securityClass
      reference gitCommon = .ok plan) :
    ∃ workspace taskMeta,
      Canonical env.fs (names context.workspace) (projectsRoot cfg) workspace ∧
      Canonical env.fs context.metadataPath (projectsRoot cfg) taskMeta ∧
      MountsFrom env cfg driver runSpec readonly reference gitCommon workspace taskMeta plan := by
  obtain ⟨workspace, hworkspace, h⟩ := bind_ok_iff.mp h
  obtain ⟨taskMeta, htaskMeta, h⟩ := bind_ok_iff.mp h
  obtain ⟨references, hreferences, h⟩ := bind_ok_iff.mp h
  obtain ⟨states, hstates, h⟩ := bind_ok_iff.mp h
  obtain ⟨files, hfiles, h⟩ := bind_ok_iff.mp h
  obtain ⟨generated, hgenerated, h⟩ := bind_ok_iff.mp h
  obtain ⟨seeds, hseeds, h⟩ := bind_ok_iff.mp h
  obtain ⟨auxiliary, hauxiliary, h⟩ := bind_ok_iff.mp h
  obtain ⟨baseCommit, -, h⟩ := bind_ok_iff.mp h
  obtain ⟨environment, -, h⟩ := bind_ok_iff.mp h
  split at h
  · obtain ⟨workspaceMount, hworkspaceMount, h⟩ := bind_ok_iff.mp h
    obtain ⟨taskMetadataMount, htaskMetadataMount, h⟩ := bind_ok_iff.mp h
    obtain ⟨artifacts, hartifacts, h⟩ := bind_ok_iff.mp h
    obtain ⟨limits, -, h⟩ := bind_ok_iff.mp h
    have hfields := ResolvedExecutionPlan.make_ok (lift_ok.mp h)
    obtain ⟨_, rfl⟩ := construct_ok.mp (lift_ok.mp hartifacts)
    refine ⟨workspace, taskMeta, (canonical_ok hworkspace).1, (canonical_ok htaskMeta).1, ?_⟩
    constructor
    · rw [hfields]
    · rw [hfields]
      exact ExecutionMount.make_ok (lift_ok.mp hworkspaceMount)
    · rw [hfields]
      exact ExecutionMount.make_ok (lift_ok.mp htaskMetadataMount)
    · rw [hfields]
      exact hreferences
    · rw [hfields]
      exact hstates
    · rw [hfields]
      exact ⟨files, generated, seeds, hfiles, hgenerated, hseeds, rfl⟩
    · rw [hfields]
      exact hauxiliary
  · cases h

/-- The repository that a worktree belongs to. -/
def gitCommonOf (pp : ProjectPaths) : Place := pp.agent ++ [str ".git"]

def LoadedTask.inWorktree (loaded : LoadedTask) : Bool :=
  Execution.inWorktree (field loaded.record (str "mode")) (field loaded.record (str "status"))

/-- Whether the request asks for a run that only reads. -/
def readonlyOf (request : Dict) : Bool := truthy (argument request (str "readonly") (.bool false))

/-- What is known of an accepted run. -/
structure AcceptedRun (env : Surroundings) (cfg : Config) (request : Dict)
    (plan : ResolvedExecutionPlan) (project task : Str) (driver : AgentDriver) (loaded : LoadedTask)
    (projects : Place) : Prop where
  hasProject : field request (str "project") = .str project
  hasTask : field request (str "task") = .str task
  hasProvider : getDriver (field request (str "provider")) = some driver
  isLoaded : loadTask env.fs env.readJson cfg.root project task = .ok loaded
  root : RootOf env.fs cfg.root project projects loaded.paths.root
  known : TaskOf env.fs task loaded
  metadataReal : env.fs.Real (loaded.paths.tasks ++ [metadataName task])
  mounts : ∃ (policy : ProviderPolicyArtifacts) (prompt : Str) (runSpec : RunSpec)
    (outerOnly : Bool), driver.compilePolicy (readonlyOf request) outerOnly = .ok policy ∧
    driver.createRunSpec policy prompt = .ok runSpec ∧
    MountsFrom env cfg driver runSpec (readonlyOf request) (names loaded.paths.reference)
      (if loaded.inWorktree then some (names (gitCommonOf loaded.paths)) else none)
      loaded.workspace (loaded.paths.tasks ++ [metadataName task]) plan

theorem item_field {record : Dict} {name : Str} {value : Value} (h : item record name = .ok value) :
    field record name = value := by
  rw [field, item_ok h]
  rfl

theorem opRun_ok {request : Dict} {plan : ResolvedExecutionPlan}
    (h : opRun env cfg request = .ok plan) :
    ∃ project task driver loaded projects,
      AcceptedRun env cfg request plan project task driver loaded projects := by
  unfold opRun at h
  split at h
  · rename_i driver hdriver
    obtain ⟨project, hproject, h⟩ := bind_ok_iff.mp h
    obtain ⟨task, htask, h⟩ := bind_ok_iff.mp h
    obtain ⟨mapping, hmapping, h⟩ := bind_ok_iff.mp h
    obtain ⟨profileId, hflags⟩ := resolveRunProfileRequest_flags
      (truthy (argument request (str "readonly") (.bool false)))
      (truthy (argument request (str "outer_only") (.bool false)))
    rw [hflags] at hmapping
    cases hmapping
    obtain ⟨prompt, -, h⟩ := bind_ok_iff.mp h
    obtain ⟨loaded, hloaded, h⟩ := bind_ok_iff.mp h
    obtain ⟨-, h⟩ := ensure_then_ok.mp h
    obtain ⟨-, -, h⟩ := bind_ok_iff.mp h
    obtain ⟨mode, hmode, h⟩ := bind_ok_iff.mp h
    obtain ⟨status, -, h⟩ := bind_ok_iff.mp h
    obtain ⟨-, h⟩ := ensure_then_ok.mp h
    obtain ⟨policy, hpolicy, h⟩ := bind_ok_iff.mp h
    obtain ⟨runSpec, hrunSpec, h⟩ := bind_ok_iff.mp h
    obtain ⟨resolved, hresolved, h⟩ := bind_ok_iff.mp h
    obtain ⟨-, -, h⟩ := bind_ok_iff.mp h
    cases h
    obtain ⟨workspace, taskMeta, hworkspace, htaskMeta, hmounts⟩ :=
      createRunExecutionPlan_ok hresolved
    obtain ⟨⟨projects, hroot⟩, hknown⟩ := loadTask_ok hloaded
    have hplace := htaskMeta.eq_child hknown.paths.tasks.2
    subst hplace
    rw [hworkspace.eq_of_real hknown.real, ← item_field (lift_ok.mp hmode)] at hmounts
    exact ⟨project, task, driver, loaded, projects, (validName_ok hproject).1,
      (validName_ok htask).1, hdriver, hloaded, hroot, hknown, htaskMeta.real, policy, prompt,
      runSpec, _, lift_ok.mp hpolicy, lift_ok.mp hrunSpec, hmounts⟩
  · cases h

/-! ## The mounts of a run -/

/-- The mounts that every run has of its project. -/
def taskMounts (loaded : LoadedTask) (task : Str) (readonly : Bool) : List ExecutionMount.Fields :=
  [⟨showPath loaded.workspace, str "/workspace", readonly, .workspace⟩,
    ⟨showPath loaded.paths.reference, str "/reference", true, .reference⟩,
    ⟨showPath (loaded.paths.tasks ++ [metadataName task]), str "/task/metadata.json", true,
      .taskMetadata⟩]

/-- The mounts of a run that works in a worktree. -/
def worktreeMounts (loaded : LoadedTask) (readonly : Bool) : List ExecutionMount.Fields :=
  if loaded.inWorktree then
    [⟨showPath loaded.workspace, showPath loaded.workspace, readonly, .gitWorktree⟩,
      ⟨showPath (gitCommonOf loaded.paths), showPath (gitCommonOf loaded.paths), readonly,
        .gitCommon⟩]
  else []

/-- A mount of the provider: a named volume, or a policy file that cannot be written to. -/
def IsProviderMount (mount : ExecutionMount.Fields) : Prop :=
  mount.role = .providerState ∧ isAbsolute mount.source = false ∨
    mount.role = .providerPolicy ∧ mount.readOnly = true

theorem referenceMountsOf_ok {reference : Place} {mounts : List ExecutionMount}
    (hreal : env.fs.Real reference)
    (h : referenceMountsOf env cfg (names reference) = .ok mounts) :
    mounts.map (·.toFields) = [⟨showPath reference, str "/reference", true, .reference⟩] := by
  unfold referenceMountsOf at h
  have hexists : env.fs.pathExists (names reference) = true := by
    rw [FileSystem.pathExists, FileSystem.resolve_of_real hreal]
    rfl
  rw [if_pos hexists] at h
  obtain ⟨place, hplace, h⟩ := bind_ok_iff.mp h
  obtain ⟨mount, hmount, h⟩ := bind_ok_iff.mp h
  cases h
  rw [← (canonical_ok hplace).1.eq_of_real hreal]
  exact congrArg (fun fields => [fields]) (ExecutionMount.make_ok (lift_ok.mp hmount))

theorem auxiliaryMountsOf_ok {workspace agent : Place} {name : Str} {readonly : Bool}
    {mounts : List ExecutionMount} (hreal : env.fs.Real agent)
    (h : auxiliaryMountsOf env cfg workspace (some (names (agent ++ [name]))) readonly = .ok mounts) :
    env.fs.Real (agent ++ [name]) ∧ mounts.map (·.toFields) =
      [⟨showPath workspace, showPath workspace, readonly, .gitWorktree⟩,
        ⟨showPath (agent ++ [name]), showPath (agent ++ [name]), readonly, .gitCommon⟩] := by
  obtain ⟨place, hplace, h⟩ := bind_ok_iff.mp h
  obtain ⟨worktree, hworktree, h⟩ := bind_ok_iff.mp h
  obtain ⟨common, hcommon, h⟩ := bind_ok_iff.mp h
  cases h
  have hcanonical := (canonical_ok hplace).1
  have heq := hcanonical.eq_child hreal
  subst heq
  refine ⟨hcanonical.real, ?_⟩
  rw [List.map_cons, List.map_cons, ExecutionMount.make_ok (lift_ok.mp hworktree),
    ExecutionMount.make_ok (lift_ok.mp hcommon), List.map_nil]

theorem providerMounts {driver : AgentDriver} {runSpec : RunSpec} {readonly : Bool}
    {reference : Path} {gitCommon : Option Path} {workspace taskMeta : Place}
    {plan : ResolvedExecutionPlan}
    (h : MountsFrom env cfg driver runSpec readonly reference gitCommon workspace taskMeta plan)
    (hplain : driver.Plain) (hfiles : runSpec.policyArtifacts.files = [])
    (hgenerated : runSpec.policyArtifacts.generatedFiles = []) :
    ∀ mount ∈ plan.providerStateMounts ++ plan.providerPolicyArtifacts.mounts,
      IsProviderMount mount.toFields := by
  intro mount hmount
  rcases List.mem_append.mp hmount with hstate | hpolicy
  · obtain ⟨state, hstate, hok⟩ := mem_of_mapM_ok h.states hstate
    rw [ExecutionMount.make_ok (lift_ok.mp hok)]
    exact Or.inl ⟨rfl, hplain.volumes state hstate⟩
  · obtain ⟨files, generated, seeds, hfilesOk, hgeneratedOk, hseeds, hmounts⟩ := h.policies
    rw [hfiles] at hfilesOk
    rw [hgenerated] at hgeneratedOk
    cases hfilesOk
    cases hgeneratedOk
    rw [hmounts] at hpolicy
    have hpolicy : mount ∈ seeds := hpolicy
    unfold seedPolicyMounts at hseeds
    split at hseeds
    · cases hseeds
      cases hpolicy
    · obtain ⟨seed, -, hseeds⟩ := bind_ok_iff.mp hseeds
      obtain ⟨policy, hmem, hok⟩ := mem_of_mapM_ok hseeds hpolicy
      obtain ⟨source, -, hok⟩ := bind_ok_iff.mp hok
      rw [ExecutionMount.make_ok (lift_ok.mp hok)]
      exact Or.inr ⟨rfl, hplain.policyMounts policy hmem⟩

section

variable {request : Dict} {plan : ResolvedExecutionPlan} {project task : Str} {driver : AgentDriver}
  {loaded : LoadedTask} {projects : Place}

/-- All mounts of a run. -/
theorem AcceptedRun.allMounts
    (h : AcceptedRun env cfg request plan project task driver loaded projects) :
    ∃ others : List ExecutionMount, plan.allMounts.map (·.toFields) =
        taskMounts loaded task (readonlyOf request) ++ others.map (·.toFields) ++
          worktreeMounts loaded (readonlyOf request) ∧
      ∀ mount ∈ others, IsProviderMount mount.toFields := by
  obtain ⟨policy, prompt, runSpec, outerOnly, hpolicy, hrunSpec, hmounts⟩ := h.mounts
  have hplain := builtinAgentRegistry_plain driver (getDriver_mem h.hasProvider)
  obtain ⟨hfiles, hgenerated⟩ := hplain.policyFiles hpolicy
  obtain ⟨hartifacts, -⟩ := hplain.command hpolicy hrunSpec
  rw [← hartifacts] at hfiles hgenerated
  refine ⟨plan.providerStateMounts ++ plan.providerPolicyArtifacts.mounts, ?_,
    providerMounts hmounts hplain hfiles hgenerated⟩
  have hauxiliary : plan.auxiliaryMounts.map (·.toFields) =
      worktreeMounts loaded (readonlyOf request) := by
    have hok := hmounts.auxiliary
    unfold worktreeMounts
    split at hok
    · rename_i hworktree
      rw [if_pos hworktree]
      exact (auxiliaryMountsOf_ok h.known.paths.agent.real hok).2
    · rename_i hnot
      have hnone : [] = plan.auxiliaryMounts := Except.ok.inj hok
      rw [if_neg hnot, ← hnone, List.map_nil]
  simp only [ResolvedExecutionPlan.Fields.allMounts, List.map_append, hauxiliary,
    referenceMountsOf_ok h.known.paths.reference.2 hmounts.references, List.map_cons,
    hmounts.workspaceMount, hmounts.taskMetadataMount, taskMounts, List.append_assoc,
    List.cons_append, List.nil_append]

/-! ## Containment -/

/-- Where the sources of the mounts are. -/
structure AcceptedRun.Contained (env : Surroundings) (loaded : LoadedTask) (task : Str) : Prop where
  workspace : env.fs.Real loaded.workspace ∧ loaded.paths.root <+: loaded.workspace
  reference : env.fs.Real loaded.paths.reference ∧ loaded.paths.root <+: loaded.paths.reference
  metadata : env.fs.Real (loaded.paths.tasks ++ [metadataName task]) ∧
    loaded.paths.root <+: loaded.paths.tasks ++ [metadataName task]
  gitCommon : loaded.inWorktree = true → env.fs.Real (gitCommonOf loaded.paths)
  agent : loaded.paths.root <+: loaded.paths.agent

theorem AcceptedRun.contained
    (h : AcceptedRun env cfg request plan project task driver loaded projects) :
    AcceptedRun.Contained env loaded task := by
  have hpaths := h.known.paths
  have hagent : loaded.paths.root <+: loaded.paths.agent := hpaths.agent.of_real h.root.real
  constructor
  · refine ⟨h.known.real, ?_⟩
    rw [h.known.workspace, workspaceOf]
    split
    · rw [hpaths.worktrees.1, List.append_assoc]
      exact List.prefix_append ..
    · exact hagent
  · rw [hpaths.reference.1]
    exact ⟨hpaths.reference.1 ▸ hpaths.reference.2, List.prefix_append ..⟩
  · refine ⟨h.metadataReal, ?_⟩
    rw [hpaths.tasks.1, List.append_assoc]
    exact List.prefix_append ..
  · intro hworktree
    obtain ⟨policy, prompt, runSpec, outerOnly, -, -, hmounts⟩ := h.mounts
    have hauxiliary := hmounts.auxiliary
    rw [if_pos hworktree] at hauxiliary
    exact (auxiliaryMountsOf_ok hpaths.agent.real hauxiliary).1
  · exact hagent

/-- A source that is a place inside the root of the project. -/
def IsContained (env : Surroundings) (root : Place) (source : Str) : Prop :=
  ∃ place, source = showPath place ∧ env.fs.Real place ∧ root <+: place

theorem AcceptedRun.sources
    (h : AcceptedRun env cfg request plan project task driver loaded projects) {readonly : Bool}
    {mount : ExecutionMount.Fields}
    (hmount : mount ∈ taskMounts loaded task readonly ∨ mount ∈ worktreeMounts loaded readonly) :
    IsContained env loaded.paths.root mount.source := by
  have hcontained := h.contained
  rcases hmount with hmount | hmount
  · simp only [taskMounts, List.mem_cons, List.not_mem_nil, or_false] at hmount
    rcases hmount with rfl | rfl | rfl
    · exact ⟨_, rfl, hcontained.workspace⟩
    · exact ⟨_, rfl, hcontained.reference⟩
    · exact ⟨_, rfl, hcontained.metadata⟩
  · unfold worktreeMounts at hmount
    split at hmount
    · rename_i hworktree
      rcases List.mem_pair.mp hmount with rfl | rfl
      · exact ⟨_, rfl, hcontained.workspace⟩
      · exact ⟨_, rfl, hcontained.gitCommon hworktree,
          hcontained.agent.trans (List.prefix_append ..)⟩
    · cases hmount

/-- The roles of the mounts whose source is chosen by the project and the task. -/
def MountRole.isProject : MountRole → Bool
  | .workspace | .reference | .taskMetadata | .gitWorktree | .gitCommon => true
  | .providerState | .providerPolicy => false

end

/-- Every source that an accepted run mounts from its project is a resolved place inside the root of
that project, and in no other one. -/
theorem run_sources_contained {request : Dict} {plan : ResolvedExecutionPlan}
    (h : opRun env cfg request = .ok plan) :
    ∃ project projects, field request (str "project") = .str project ∧
      env.fs.resolve (projectsPath cfg.root) = some projects ∧
      env.fs.resolve (projectsPath cfg.root ++ [.name project]) = some (projects ++ [project]) ∧
      env.fs.isDirAt (projects ++ [project]) = true ∧
      env.fs.isLinkAt (projects ++ [project]) = false ∧
      ∀ mount ∈ plan.allMounts, mount.role.isProject = true →
        ∃ place, mount.source = showPath place ∧ env.fs.Real place ∧
          projects ++ [project] <+: place ∧
          ∀ other, other ≠ project → ¬ projects ++ [other] <+: place := by
  obtain ⟨project, task, driver, loaded, projects, hrun⟩ := opRun_ok h
  obtain ⟨others, hmounts, hothers⟩ := hrun.allMounts
  have hroot := hrun.root
  refine ⟨project, projects, hrun.hasProject, hroot.above, hroot.eq ▸ hroot.resolves,
    hroot.eq ▸ hroot.isDir, hroot.eq ▸ hroot.noLink, ?_⟩
  intro mount hmount hrole
  have hfields := List.mem_map_of_mem (f := (·.toFields)) hmount
  rw [hmounts, List.mem_append, List.mem_append] at hfields
  have hproject : mount.toFields ∈ taskMounts loaded task (readonlyOf request) ∨
      mount.toFields ∈ worktreeMounts loaded (readonlyOf request) := by
    rcases hfields with (htask | hprovider) | hworktree
    · exact Or.inl htask
    · obtain ⟨other, hother, heq⟩ := List.mem_map.mp hprovider
      have hprovider := hothers other hother
      rw [heq] at hprovider
      rcases hprovider with ⟨hstate, -⟩ | ⟨hpolicy, -⟩
      · rw [hstate] at hrole
        cases hrole
      · rw [hpolicy] at hrole
        cases hrole
    · exact Or.inr hworktree
  obtain ⟨place, hsource, hreal, hprefix⟩ := hrun.sources hproject
  rw [hroot.eq] at hprefix
  refine ⟨place, hsource, hreal, hprefix, ?_⟩
  intro other hne hother
  have hlength : (projects ++ [other]).length = (projects ++ [project]).length := by simp
  have heq := (List.prefix_of_prefix_length_le hother hprefix (le_of_eq hlength)).eq_of_length hlength
  exact hne (List.singleton_inj.mp (List.append_cancel_left heq))

/-- The directory of a project, reached through a link, with another link inside the project. -/
def exampleFiles : FileSystem Str :=
  let p := [str "srv", str "projects", str "p"]
  .ofEntries [([], .dir), ([str "srv"], .dir), ([str "agent-dev"], .link true [.name (str "srv")]),
    ([str "srv", str "projects"], .dir), (p, .dir),
    (p ++ [str "repo"], .link false [.name (str "store")]), (p ++ [str "store"], .dir),
    (p ++ [str "store", str "agent"], .dir), (p ++ [str "store", str "agent", str ".git"], .dir),
    (p ++ [str "worktrees"], .dir), (p ++ [str "worktrees", str "t"], .dir),
    (p ++ [str "tasks"], .dir), (p ++ [str "tasks", str "t.json"], .file),
    (p ++ [str "reference"], .dir), (p ++ [str "results"], .dir), (p ++ [str "runtime"], .dir),
    (p ++ [str "exchange"], .dir), (p ++ [str "exchange", str "inbound"], .dir),
    (p ++ [str "exchange", str "outbound"], .dir), ([str "srv", str "platform"], .dir),
    ([str "srv", str "platform", str "seed"], .dir),
    ([str "srv", str "platform", str "seed", str "codex"], .dir),
    ([str "srv", str "platform", str "seed", str "codex", str "config.toml"], .file)] 2
    (by decide +kernel) (by decide +kernel)

def exampleSurroundings : Surroundings where
  fs := exampleFiles
  readJson _ := .ok (.dict [(.str (str "project"), .str (str "p")), (.str (str "task"), .str (str "t")),
    (.str (str "mode"), .str (str "parallel")), (.str (str "status"), .str (str "active")),
    (.str (str "base_commit"), .str (str "c0"))])
  shown _ := str "4"
  seedProviderHome _ := .ok ()
  materialize _ _ _ := .error .other

def exampleConfig : Config where
  root := [.name (str "agent-dev")]
  images := [(str "codex", str "localhost/codex")]
  pids := 4
  memory := str "4g"
  cpus := .int 4

def exampleRun : Dict := [(.str (str "provider"), .str (str "codex")),
  (.str (str "project"), .str (str "p")), (.str (str "task"), .str (str "t")),
  (.str (str "prompt"), .str (str "go on"))]

theorem exampleRun_accepted : ∃ plan, opRun exampleSurroundings exampleConfig exampleRun = .ok plan := by
  have hsome : (opRun exampleSurroundings exampleConfig exampleRun).toOption.isSome = true := by
    decide +kernel
  cases h : opRun exampleSurroundings exampleConfig exampleRun with
  | error error =>
    rw [h] at hsome
    cases hsome
  | ok plan => exact ⟨plan, rfl⟩

theorem run_sources_contained_example :
    ∃ plan project projects, opRun exampleSurroundings exampleConfig exampleRun = .ok plan ∧
      field exampleRun (str "project") = .str project ∧
      ∀ mount ∈ plan.allMounts, mount.role.isProject = true →
        ∃ place, mount.source = showPath place ∧ exampleFiles.Real place ∧
          projects ++ [project] <+: place := by
  obtain ⟨plan, hplan⟩ := exampleRun_accepted
  obtain ⟨project, projects, hproject, -, -, -, -, hmounts⟩ := run_sources_contained hplan
  refine ⟨plan, project, projects, hplan, hproject, ?_⟩
  intro mount hmount hrole
  obtain ⟨place, hsource, hreal, hprefix, -⟩ := hmounts mount hmount hrole
  exact ⟨place, hsource, hreal, hprefix⟩

end AgentDev.Execution
