import AgentDev.Execution.Sources

/-!
# Commands besides runs

The arguments that `broker/daemon.py` builds for the operations other than `run`:
`common_runtime_args`, `provider_policy_mounts` and `provider_state_smoke_isolation`, the specifications
of the two drivers for authentication, and `op_index` up to the lock of the workspace.

An index is written into the workspace and into a directory of its own. Whatever the tree of files
looks like, everything that an index mounts lies inside the root of the project, and the directory
lies in the one for the runtime (`index_sources_contained`).
-/

namespace AgentDev.Execution

open Python Policy Agents Files

/-! ## Authentication -/

structure AuthSpec.Fields where
  argv : List Str
  environment : Environment := []
  interactive : Bool := true
  timeoutSeconds : Option Int := none
  runtimeIsolation : RuntimeIsolationRequirements

def AuthSpec.Fields.postInit (spec : Fields) : Except Policy.Error Unit := do
  requireArgv spec.argv (str "auth")
  requireEnvironment spec.environment (str "auth")
  ensure (spec.timeoutSeconds.all (0 < ·))
    (valueError (str "timeout_seconds must be a positive integer or None"))

structure AuthSpec extends AuthSpec.Fields where
  checked : toFields.postInit = .ok ()

/-- What a driver says about its control operations. -/
structure ControlSpecs where
  auth : AuthSpec
  /-- `auth_status_spec`; what makes it a `RunSpec` is not used. -/
  authStatus : AuthSpec
  /-- `version_probe().argv` -/
  versionProbe : List Str

def codexControlSpecs : ControlSpecs where
  auth := {
    argv := [str "codex", str "login", str "--device-auth"]
    timeoutSeconds := some 900
    runtimeIsolation := codexControlIsolation
    checked := by decide +kernel
  }
  authStatus := {
    argv := [str "codex", str "login", str "status"]
    interactive := false
    runtimeIsolation := codexControlIsolation
    checked := by decide +kernel
  }
  versionProbe := [str "codex", str "--version"]

def cursorControlSpecs : ControlSpecs where
  auth := {
    argv := [str "agent", str "login"]
    environment := [(str "NO_OPEN_BROWSER", str "1")]
    timeoutSeconds := some 900
    runtimeIsolation := cursorControlIsolation
    checked := by decide +kernel
  }
  authStatus := {
    argv := [str "agent", str "status"]
    interactive := false
    runtimeIsolation := cursorControlIsolation
    checked := by decide +kernel
  }
  versionProbe := [str "agent", str "--version"]

/-- The specifications of a driver of the registry. -/
def controlSpecs (driver : AgentDriver) : ControlSpecs :=
  if driver.id = str "codex" then codexControlSpecs else cursorControlSpecs

/-! ## The class of a plan -/

theorem securityClass_of_plan {env : Surroundings} {cfg : Config} {driver : AgentDriver}
    {context : TaskContext} {runSpec : RunSpec} {readonly outerOnly : Bool} {securityClass : Str}
    {reference : Path} {gitCommon : Option Path} {plan : ResolvedExecutionPlan}
    (h : createRunExecutionPlan env cfg driver context runSpec readonly outerOnly securityClass
      reference gitCommon = .ok plan) : plan.securityClass = some securityClass := by
  obtain ⟨workspace, -, h⟩ := bind_ok_iff.mp h
  obtain ⟨taskMeta, -, h⟩ := bind_ok_iff.mp h
  obtain ⟨references, -, h⟩ := bind_ok_iff.mp h
  obtain ⟨states, -, h⟩ := bind_ok_iff.mp h
  obtain ⟨files, -, h⟩ := bind_ok_iff.mp h
  obtain ⟨generated, -, h⟩ := bind_ok_iff.mp h
  obtain ⟨seeds, -, h⟩ := bind_ok_iff.mp h
  obtain ⟨auxiliary, -, h⟩ := bind_ok_iff.mp h
  obtain ⟨baseCommit, -, h⟩ := bind_ok_iff.mp h
  obtain ⟨environment, -, h⟩ := bind_ok_iff.mp h
  split at h
  · obtain ⟨workspaceMount, -, h⟩ := bind_ok_iff.mp h
    obtain ⟨taskMetadataMount, -, h⟩ := bind_ok_iff.mp h
    obtain ⟨artifacts, -, h⟩ := bind_ok_iff.mp h
    obtain ⟨limits, -, h⟩ := bind_ok_iff.mp h
    rw [ResolvedExecutionPlan.make_ok (lift_ok.mp h)]
  · cases h

/-! ## Smoke tests of the state -/

/-- `writable_smoke_targets` -/
def writableSmokeTargets (adapter : ProviderStateAdapter) : List (Str × Str) :=
  (adapter.volumes.filter fun layout => !layout.mount.readOnly).map fun layout =>
    (layout.mount.target, layout.smokeMarker)

/-- `provider_state_smoke_isolation` -/
def providerStateSmokeIsolation (driver : AgentDriver) :
    Except RunError (Option RuntimeIsolationRequirements) :=
  let writable := driver.stateAdapter.volumes.filter fun layout => !layout.mount.readOnly
  let owners := (writable.map fun layout => (layout.ownerUid, layout.ownerGid)).dedup
  match owners with
  | [] => .ok none
  | [(none, none)] => .ok none
  | [(some uid, some gid)] =>
    lift (some <$> construct fun h => ⟨{ uid := some uid, gid := some gid }, h⟩)
  | _ =>
    .error (.failed (valueError
      (str "writable provider state must declare one consistent runtime owner")))

section

variable (env : Surroundings) (cfg : Config)

/-! ## Arguments of podman -/

/-- `provider_policy_mounts` -/
def providerPolicyMounts (driver : AgentDriver) : Except RunError (List Str) :=
  if driver.stateAdapter.policyMounts.isEmpty then .ok []
  else do
    let seed ← providerSeedDir env cfg driver.id
    let mounts ← driver.stateAdapter.policyMounts.mapM fun mount => do
      let source ← canonicalFile env.fs (names (seed ++ pathParts mount.seedRelativePath))
        (names seed) (driver.id ++ str " policy")
      return [str "-v", volumeArgument (showPath source) mount.target mount.readOnly]
    return mounts.flatten

def stateArguments (driver : AgentDriver) : List Str :=
  driver.stateSpec.flatMap fun state =>
    [str "-v", volumeArgument state.source state.target state.readOnly]

/-- `-v` for a directory or file below the projects, if there is one to show. -/
def mountArguments (found : Except RunError Place) (target : Str) (readonly : Bool)
    (more : List Str) : Except RunError (List Str) := do
  let place ← found
  return [str "-v", volumeArgument (showPath place) target readonly] ++ more

def workspaceArguments (workspace : Option Path) (readonly : Bool) : Except RunError (List Str) :=
  match workspace with
  | some workspace =>
    mountArguments (canonicalDir env.fs workspace (projectsRoot cfg) (str "workspace mount"))
      (str "/workspace") readonly [str "-w", str "/workspace"]
  | none => .ok []

def referenceArguments (reference : Option Path) : Except RunError (List Str) :=
  match reference with
  | some reference =>
    if env.fs.pathExists reference then
      mountArguments (canonicalDir env.fs reference (projectsRoot cfg) (str "reference mount"))
        (str "/reference") true []
    else .ok []
  | none => .ok []

def metadataArguments (taskMeta : Option Path) : Except RunError (List Str) :=
  match taskMeta with
  | some taskMeta =>
    mountArguments (canonicalFile env.fs taskMeta (projectsRoot cfg) (str "task metadata mount"))
      (str "/task/metadata.json") true []
  | none => .ok []

/-- The worktree and its repository at their own paths. -/
def gitArguments (gitCommon workspace : Option Path) (readonly : Bool) :
    Except RunError (List Str) :=
  match gitCommon with
  | some gitCommon => do
    let gitCommon ← canonicalDir env.fs gitCommon (projectsRoot cfg) (str "Git common directory")
    match workspace with
    | some workspace => do
      let workspace ← canonicalDir env.fs workspace (projectsRoot cfg) (str "workspace mount")
      return [str "-v", volumeArgument (showPath workspace) (showPath workspace) readonly,
        str "-v", volumeArgument (showPath gitCommon) (showPath gitCommon) readonly]
    | none => .error (.failed (valueError (str "Git common directory requires a workspace")))
  | none => .ok []

def driverArguments (driver : Option AgentDriver) : Except RunError (List Str) :=
  match driver with
  | some driver => do
    let policies ← providerPolicyMounts env cfg driver
    return stateArguments driver ++ policies
  | none => .ok []

/-- What comes before the mounts. -/
def isolationArguments (networkMode : Str) (isolation : Option RuntimeIsolationRequirements) :
    List Str :=
  [str "podman", str "run", str "--rm", str "--network=" ++ networkMode, str "--http-proxy=false",
    str "--read-only", str "--cap-drop=all", str "--security-opt=no-new-privileges",
    str "--pids-limit=" ++ env.shown (.int cfg.pids), str "--memory=" ++ cfg.memory,
    str "--cpus=" ++ textOf env.shown cfg.cpus, str "--tmpfs", str "/tmp:rw,nosuid,nodev,size=512m",
    str "--tmpfs", str "/run:rw,nosuid,nodev,size=64m"] ++
  (match isolation with
    | some isolation => runtimeIsolationArgs env.shown isolation
    | none => [])

/-- What `common_runtime_args` shows of a task. -/
structure TaskMounts where
  workspace : Option Path := none
  readonly : Bool := false
  reference : Option Path := none
  taskMeta : Option Path := none
  gitCommon : Option Path := none

def commonRuntimeArgs (driver : Option AgentDriver) (task : TaskMounts) (networkEnabled : Bool)
    (isolation : Option RuntimeIsolationRequirements) : Except RunError (List Str) := do
  let networkMode :=
    if driver.isSome && networkEnabled then providerNetworkMode.mode else str "none"
  let provider ← driverArguments env cfg driver
  let workspace ← workspaceArguments env cfg task.workspace task.readonly
  let reference ← referenceArguments env cfg task.reference
  let metadata ← metadataArguments env cfg task.taskMeta
  let git ← gitArguments env cfg task.gitCommon task.workspace task.readonly
  return isolationArguments env cfg networkMode isolation ++ provider ++ workspace ++ reference ++
    metadata ++ git

/-! ## Indexing -/

/-- `value in {"active", "completed"}` -/
def isIndexable (status : Value) : Except RunError Bool :=
  match status with
  | .str text => .ok (text = str "active" || text = str "completed")
  | .seq _ => .error .other
  | .dict _ => .error .other
  | _ => .ok false

/-- The file system after `path.mkdir(parents=True, exist_ok=True)`, and whether the image is there. -/
structure IndexServices where
  imageExists : Str → Except RunError Bool
  makeDirectory : Path → Except RunError (FileSystem Str)

/-- The image that indexes, which is optional. -/
def intelligenceImage (services : IndexServices) : Except RunError Str :=
  let missing := requestError (str "optional GitNexus intelligence image is not available; " ++
    str "rebuild or continue without indexing")
  match cfg.images.lookup (str "intelligence") with
  | some image => do
    ensure (image ≠ []) missing
    ensure (← services.imageExists image) missing
    return image
  | none => .error missing

/-- The home of the index of a task. -/
def gitnexusHome (pp : ProjectPaths) (task : Str) : Place := pp.runtime ++ [str "gitnexus", task]

/-- `op_index`, up to the lock of the workspace: the arguments that are executed. -/
def opIndex (services : IndexServices) (request : Dict) : Except RunError (List Str) := do
  let project ← validName (field request (str "project")) (str "project")
  let task ← validName (field request (str "task")) (str "task")
  let loaded ← loadTask env.fs env.readJson cfg.root project task
  let record := loaded.record
  let pp := loaded.paths
  ensure (← isIndexable (field record (str "status")))
    (requestError (str "index is allowed only for active/completed task workspaces"))
  let image ← intelligenceImage cfg services
  let mode ← lift (item record (str "mode"))
  let gitCommon :=
    if inWorktree mode (field record (str "status")) then some (names (pp.agent ++ [str ".git"]))
    else none
  let fs ← services.makeDirectory (names (gitnexusHome pp task))
  let env := { env with fs := fs }
  let home ← canonicalDir fs (names (gitnexusHome pp task)) (names pp.runtime)
    (str "GitNexus runtime home")
  let runtime ← commonRuntimeArgs env cfg none {
    workspace := some (names loaded.workspace)
    reference := some (names pp.reference)
    taskMeta := some (names (pp.tasks ++ [metadataName task]))
    gitCommon := gitCommon
  } true none
  let registered := fs.resolve (names (home ++ [str ".gitnexus", str "registry.json"]))
  return runtime ++
    [str "-v", volumeArgument (showPath home) (str "/gitnexus-home") false,
      str "-e", str "HOME=/gitnexus-home"] ++
    [image, str "gitnexus", str "analyze", str "--skip-agents-md", str "--skip-skills"] ++
    (if registered.any fs.isFileAt then [] else [str "--force"])

end

/-! ## What an index mounts -/

section

variable {env : Surroundings} {cfg : Config}

theorem volumeArguments_volume (volume : Str) (rest : List Str) :
    volumeArguments (str "-v" :: volume :: rest) = volume :: volumeArguments rest := by
  rw [volumeArguments, if_pos rfl]

theorem not_mem_isolationArguments (networkMode : Str)
    (isolation : Option RuntimeIsolationRequirements) :
    str "-v" ∉ isolationArguments env cfg networkMode isolation := by
  have hword : ∀ head tail : Str, 61 ∈ head → head ++ tail ≠ str "-v" := by
    intro head tail hmem
    exact ne_dash_v_of_mem (List.mem_append_left tail hmem) (by decide)
  intro h
  rcases List.mem_append.mp h with h | h
  · simp only [List.mem_cons, List.not_mem_nil, or_false] at h
    rcases h with h | h | h | h | h | h | h | h | h | h | h | h | h | h | h
    all_goals first | exact absurd h (by decide) | exact hword _ _ (by decide) h.symm
  · cases isolation with
    | none => cases h
    | some isolation => exact not_mem_runtimeIsolationArgs _ _ h

theorem mountArguments_ok {found : Except RunError Place} {target : Str} {readonly : Bool}
    {more args : List Str} (h : mountArguments found target readonly more = .ok args) :
    ∃ place, found = .ok place ∧
      args = [str "-v", volumeArgument (showPath place) target readonly] ++ more := by
  obtain ⟨place, hplace, h⟩ := bind_ok_iff.mp h
  cases h
  exact ⟨place, hplace, rfl⟩

theorem workspaceArguments_ok {workspace : Place} {readonly : Bool} {args : List Str}
    (hreal : env.fs.Real workspace)
    (h : workspaceArguments env cfg (some (names workspace)) readonly = .ok args) :
    args = [str "-v", volumeArgument (showPath workspace) (str "/workspace") readonly, str "-w",
      str "/workspace"] := by
  obtain ⟨place, hplace, rfl⟩ := mountArguments_ok h
  rw [(canonical_ok hplace).1.eq_of_real hreal]
  rfl

theorem referenceArguments_ok {reference : Place} {args : List Str}
    (hreal : env.fs.Real reference)
    (h : referenceArguments env cfg (some (names reference)) = .ok args) :
    args = [str "-v", volumeArgument (showPath reference) (str "/reference") true] := by
  unfold referenceArguments at h
  have hexists : env.fs.pathExists (names reference) = true := by
    rw [FileSystem.pathExists, FileSystem.resolve_of_real hreal]
    rfl
  dsimp only at h
  rw [if_pos hexists] at h
  obtain ⟨place, hplace, rfl⟩ := mountArguments_ok h
  rw [(canonical_ok hplace).1.eq_of_real hreal]
  rfl

theorem metadataArguments_ok {tasks : Place} {name : Str} {args : List Str}
    (hreal : env.fs.Real tasks)
    (h : metadataArguments env cfg (some (names (tasks ++ [name]))) = .ok args) :
    env.fs.Real (tasks ++ [name]) ∧ args =
      [str "-v", volumeArgument (showPath (tasks ++ [name])) (str "/task/metadata.json") true] := by
  obtain ⟨place, hplace, rfl⟩ := mountArguments_ok h
  have hcanonical := (canonical_ok hplace).1
  have heq := hcanonical.eq_child hreal
  subst heq
  exact ⟨hcanonical.real, rfl⟩

theorem gitArguments_ok {agent workspace : Place} {name : Str} {readonly : Bool} {args : List Str}
    (hagent : env.fs.Real agent) (hworkspace : env.fs.Real workspace)
    (h : gitArguments env cfg (some (names (agent ++ [name]))) (some (names workspace)) readonly =
      .ok args) :
    env.fs.Real (agent ++ [name]) ∧ args =
      [str "-v", volumeArgument (showPath workspace) (showPath workspace) readonly,
        str "-v", volumeArgument (showPath (agent ++ [name])) (showPath (agent ++ [name]))
          readonly] := by
  obtain ⟨common, hcommon, h⟩ := bind_ok_iff.mp h
  obtain ⟨place, hplace, h⟩ := bind_ok_iff.mp h
  cases h
  have hcanonical := (canonical_ok hcommon).1
  have heq := hcanonical.eq_child hagent
  subst heq
  rw [(canonical_ok hplace).1.eq_of_real hworkspace]
  exact ⟨hcanonical.real, rfl⟩

theorem runtime_of_loadTask {project task : Str} {loaded : LoadedTask}
    (h : loadTask env.fs env.readJson cfg.root project task = .ok loaded) :
    loaded.paths.runtime = loaded.paths.root ++ [str "runtime"] ∧
      env.fs.Real loaded.paths.runtime := by
  obtain ⟨⟨projects, hroot⟩, -⟩ := loadTask_ok h
  obtain ⟨name, -, h⟩ := bind_ok_iff.mp h
  obtain ⟨pp, hpp, h⟩ := bind_ok_iff.mp h
  obtain ⟨path, -, h⟩ := bind_ok_iff.mp h
  obtain ⟨metaPath, -, h⟩ := bind_ok_iff.mp h
  obtain ⟨value, -, h⟩ := bind_ok_iff.mp h
  obtain ⟨record, -, h⟩ := bind_ok_iff.mp h
  obtain ⟨-, h⟩ := ensure_then_ok.mp h
  obtain ⟨isMode, -, h⟩ := bind_ok_iff.mp h
  obtain ⟨-, h⟩ := ensure_then_ok.mp h
  obtain ⟨-, h⟩ := ensure_then_ok.mp h
  obtain ⟨workspace, -, h⟩ := bind_ok_iff.mp h
  cases h
  have hreal := hroot.real
  obtain ⟨root, -, hpp⟩ := bind_ok_iff.mp hpp
  obtain ⟨agent, -, hpp⟩ := bind_ok_iff.mp hpp
  obtain ⟨worktrees, -, hpp⟩ := bind_ok_iff.mp hpp
  obtain ⟨tasks, -, hpp⟩ := bind_ok_iff.mp hpp
  obtain ⟨reference, -, hpp⟩ := bind_ok_iff.mp hpp
  obtain ⟨results, -, hpp⟩ := bind_ok_iff.mp hpp
  obtain ⟨runtime, hruntime, hpp⟩ := bind_ok_iff.mp hpp
  obtain ⟨inbound, -, hpp⟩ := bind_ok_iff.mp hpp
  obtain ⟨outbound, -, hpp⟩ := bind_ok_iff.mp hpp
  cases hpp
  have hcanonical := (canonical_ok hruntime).1
  exact ⟨hcanonical.eq_child hreal, hcanonical.real⟩

/-- The file system still has the places that a task was loaded from. -/
structure LoadedTask.Kept (loaded : LoadedTask) (env : Surroundings) : Prop where
  workspace : env.fs.Real loaded.workspace
  reference : env.fs.Real loaded.paths.reference
  tasks : env.fs.Real loaded.paths.tasks
  agent : env.fs.Real loaded.paths.agent

/-- The options that show a task are those of a run that writes. -/
theorem commonRuntimeArgs_ok {loaded : LoadedTask} {task : Str} {networkEnabled : Bool}
    {isolation : Option RuntimeIsolationRequirements} {args : List Str} (hkept : loaded.Kept env)
    (h : commonRuntimeArgs env cfg none {
      workspace := some (names loaded.workspace)
      reference := some (names loaded.paths.reference)
      taskMeta := some (names (loaded.paths.tasks ++ [metadataName task]))
      gitCommon := if loaded.inWorktree then some (names (gitCommonOf loaded.paths)) else none
    } networkEnabled isolation = .ok args) (rest : List Str) :
    volumeArguments (args ++ rest) =
        (taskMounts loaded task false ++ worktreeMounts loaded false).map (·.volume) ++
          volumeArguments rest ∧
      env.fs.Real (loaded.paths.tasks ++ [metadataName task]) ∧
      (loaded.inWorktree = true → env.fs.Real (gitCommonOf loaded.paths)) := by
  obtain ⟨provider, hprovider, h⟩ := bind_ok_iff.mp h
  obtain ⟨workspace, hworkspace, h⟩ := bind_ok_iff.mp h
  obtain ⟨reference, hreference, h⟩ := bind_ok_iff.mp h
  obtain ⟨metadata, hmetadata, h⟩ := bind_ok_iff.mp h
  obtain ⟨git, hgit, h⟩ := bind_ok_iff.mp h
  cases h
  cases hprovider
  obtain ⟨hmetadataReal, rfl⟩ := metadataArguments_ok hkept.tasks hmetadata
  rw [workspaceArguments_ok hkept.workspace hworkspace,
    referenceArguments_ok hkept.reference hreference]
  have hworktree : (loaded.inWorktree = true → env.fs.Real (gitCommonOf loaded.paths)) ∧
      ∀ rest, volumeArguments (git ++ rest) =
        (worktreeMounts loaded false).map (·.volume) ++ volumeArguments rest := by
    unfold worktreeMounts
    by_cases hmode : loaded.inWorktree = true
    · rw [if_pos hmode] at hgit ⊢
      obtain ⟨hreal, rfl⟩ := gitArguments_ok hkept.agent hkept.workspace hgit
      refine ⟨fun _ => hreal, fun rest => ?_⟩
      simp only [List.cons_append, List.nil_append, volumeArguments_volume]
      rfl
    · rw [if_neg hmode] at hgit ⊢
      cases hgit
      exact ⟨fun hworktree => absurd hworktree hmode, fun rest => rfl⟩
  refine ⟨?_, hmetadataReal, hworktree.1⟩
  have hdirectory : ∀ rest, volumeArguments (str "-w" :: str "/workspace" :: rest) =
      volumeArguments rest := by
    intro rest
    have hnot : str "-v" ∉ [str "-w", str "/workspace"] := by decide
    exact volumeArguments_of_not_mem hnot
  simp only [List.append_assoc]
  rw [volumeArguments_of_not_mem (not_mem_isolationArguments _ _)]
  simp only [List.cons_append, List.nil_append, volumeArguments_volume, hdirectory, hworktree.2]
  rfl

theorem intelligenceImage_ok {services : IndexServices} {image : Str}
    (h : intelligenceImage cfg services = .ok image) :
    cfg.images.lookup (str "intelligence") = some image := by
  unfold intelligenceImage at h
  dsimp only at h
  split at h
  · rename_i found hfound
    obtain ⟨-, h⟩ := ensure_then_ok.mp h
    obtain ⟨available, -, h⟩ := bind_ok_iff.mp h
    obtain ⟨-, h⟩ := ensure_then_ok.mp h
    cases h
    exact hfound
  · cases h

/-- What an index shows: its task, as a run that writes does, and a directory of its own in the one
for the runtime of the project. All of it lies inside the root of the project. -/
theorem index_sources_contained {services : IndexServices} {request : Dict} {argv : List Str}
    (hkeeps : ∀ path fs, services.makeDirectory path = .ok fs →
      ∀ place, env.fs.Real place → fs.Real place)
    (h : opIndex env cfg services request = .ok argv) :
    ∃ project task loaded projects fs home options command,
      field request (str "project") = .str project ∧ field request (str "task") = .str task ∧
      loadTask env.fs env.readJson cfg.root project task = .ok loaded ∧
      RootOf env.fs cfg.root project projects loaded.paths.root ∧
      services.makeDirectory (names (gitnexusHome loaded.paths task)) = .ok fs ∧
      argv = options ++ command ∧ cfg.images.lookup (str "intelligence") = command.head? ∧
      volumeArguments options =
        (taskMounts loaded task false ++ worktreeMounts loaded false).map (·.volume) ++
          [volumeArgument (showPath home) (str "/gitnexus-home") false] ∧
      fs.Real home ∧ loaded.paths.root ++ [str "runtime"] <+: home ∧
      ∀ mount ∈ taskMounts loaded task false ++ worktreeMounts loaded false,
        IsContained { env with fs := fs } loaded.paths.root mount.source := by
  obtain ⟨project, hproject, h⟩ := bind_ok_iff.mp h
  obtain ⟨task, htask, h⟩ := bind_ok_iff.mp h
  obtain ⟨loaded, hloaded, h⟩ := bind_ok_iff.mp h
  obtain ⟨indexable, -, h⟩ := bind_ok_iff.mp h
  obtain ⟨-, h⟩ := ensure_then_ok.mp h
  obtain ⟨image, himage, h⟩ := bind_ok_iff.mp h
  obtain ⟨mode, hmode, h⟩ := bind_ok_iff.mp h
  obtain ⟨fs, hfs, h⟩ := bind_ok_iff.mp h
  obtain ⟨home, hhome, h⟩ := bind_ok_iff.mp h
  obtain ⟨runtime, hruntime, h⟩ := bind_ok_iff.mp h
  cases h
  obtain ⟨⟨projects, hroot⟩, hknown⟩ := loadTask_ok hloaded
  obtain ⟨hplace, hreal⟩ := runtime_of_loadTask hloaded
  have hpaths := hknown.paths
  have hkept := hkeeps _ _ hfs
  rw [← item_field (lift_ok.mp hmode)] at hruntime
  obtain ⟨hvolumes, hmetadata, hgit⟩ := commonRuntimeArgs_ok
    ⟨hkept _ hknown.real, hkept _ hpaths.reference.2, hkept _ hpaths.tasks.2,
      hkept _ hpaths.agent.real⟩ hruntime
    [str "-v", volumeArgument (showPath home) (str "/gitnexus-home") false, str "-e",
      str "HOME=/gitnexus-home"]
  have hcanonical := (canonical_ok hhome).1
  have hagent : loaded.paths.root <+: loaded.paths.agent := hpaths.agent.of_real hroot.real
  have hworkspace : loaded.paths.root <+: loaded.workspace := by
    rw [hknown.workspace, workspaceOf, hpaths.worktrees.1]
    split
    · rw [List.append_assoc]
      exact List.prefix_append ..
    · exact hagent
  refine ⟨project, task, loaded, projects, fs, home, _, _, (validName_ok hproject).1,
    (validName_ok htask).1, hloaded, hroot, hfs, (List.append_assoc ..).trans rfl,
    intelligenceImage_ok himage, hvolumes, hcanonical.real, ?_, ?_⟩
  · rw [← hplace]
    exact hcanonical.of_real (hkept _ hreal)
  · intro mount hmount
    rcases List.mem_append.mp hmount with hmount | hmount
    · simp only [taskMounts, List.mem_cons, List.not_mem_nil, or_false] at hmount
      rcases hmount with rfl | rfl | rfl
      · exact ⟨_, rfl, hkept _ hknown.real, hworkspace⟩
      · refine ⟨_, rfl, hkept _ hpaths.reference.2, ?_⟩
        rw [hpaths.reference.1]
        exact List.prefix_append ..
      · refine ⟨_, rfl, hmetadata, ?_⟩
        rw [hpaths.tasks.1, List.append_assoc]
        exact List.prefix_append ..
    · unfold worktreeMounts at hmount
      split at hmount
      · rename_i hworktree
        rcases List.mem_pair.mp hmount with rfl | rfl
        · exact ⟨_, rfl, hkept _ hknown.real, hworkspace⟩
        · exact ⟨_, rfl, hgit hworktree, hagent.trans (List.prefix_append ..)⟩
      · cases hmount

end

/-- The project of `exampleFiles`, which has been indexed before. -/
def indexedFiles : FileSystem Str :=
  let p := [str "srv", str "projects", str "p"]
  .ofEntries [([], .dir), ([str "srv"], .dir), ([str "agent-dev"], .link true [.name (str "srv")]),
    ([str "srv", str "projects"], .dir), (p, .dir), (p ++ [str "repo"], .dir),
    (p ++ [str "repo", str "agent"], .dir), (p ++ [str "repo", str "agent", str ".git"], .dir),
    (p ++ [str "worktrees"], .dir), (p ++ [str "worktrees", str "t"], .dir),
    (p ++ [str "tasks"], .dir), (p ++ [str "tasks", str "t.json"], .file),
    (p ++ [str "reference"], .dir), (p ++ [str "results"], .dir), (p ++ [str "runtime"], .dir),
    (p ++ [str "runtime", str "gitnexus"], .dir),
    (p ++ [str "runtime", str "gitnexus", str "t"], .dir),
    (p ++ [str "exchange"], .dir), (p ++ [str "exchange", str "inbound"], .dir),
    (p ++ [str "exchange", str "outbound"], .dir)] 2 (by decide +kernel) (by decide +kernel)

def indexedSurroundings : Surroundings := { exampleSurroundings with fs := indexedFiles }

def indexingConfig : Config :=
  { exampleConfig with images := [(str "intelligence", str "localhost/gitnexus")] }

def indexServices : IndexServices where
  imageExists _ := .ok true
  makeDirectory _ := .ok indexedFiles

theorem index_sources_contained_example :
    ∃ argv home, opIndex indexedSurroundings indexingConfig indexServices exampleRun = .ok argv ∧
      indexedFiles.Real home ∧ ∃ root, root ++ [str "runtime"] <+: home := by
  have hsome :
      (opIndex indexedSurroundings indexingConfig indexServices exampleRun).toOption.isSome = true := by
    decide +kernel
  cases h : opIndex indexedSurroundings indexingConfig indexServices exampleRun with
  | error error =>
    rw [h] at hsome
    cases hsome
  | ok argv =>
    have hkeeps : ∀ path fs, indexServices.makeDirectory path = .ok fs →
        ∀ place, indexedSurroundings.fs.Real place → fs.Real place := by
      intro path fs hfs place hreal
      cases hfs
      exact hreal
    obtain ⟨project, task, loaded, projects, fs, home, options, command, -, -, -, -, hfs, -, -, -,
      hreal, hbelow, -⟩ := index_sources_contained hkeeps h
    cases hfs
    exact ⟨argv, home, rfl, hreal, loaded.paths.root, hbelow⟩

end AgentDev.Execution
