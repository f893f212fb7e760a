import AgentDev.Execution.Layout
import AgentDev.Policy.Capabilities
import AgentDev.Policy.Profiles

/-!
# Run requests

`op_run` of `broker/daemon.py` up to the execution of the plan: the mapping of the legacy flags
(`policy/legacy.py`), the checks on the record of the task, and `create_run_execution_plan`.
-/

namespace AgentDev.Execution

open Python Policy Agents Files

/-! ## Profiles of the legacy flags -/

structure RunProfileMapping where
  profileId : Str
  readonly : Bool
  outerOnly : Bool
  securityClass : Option Str

/-- `_optional_bool` -/
def optionalBool (value : Value) (label : Str) : Except Policy.Error (Option Bool) :=
  match value with
  | .none => .ok none
  | .bool b => .ok (some b)
  | _ => .error (.type [.text (label ++ str " must be boolean or None")])

def resolveRunProfileRequest (profile readonly outerOnly : Value) :
    Except Policy.Error RunProfileMapping := do
  let readonly ← optionalBool readonly (str "readonly")
  let outerOnly ← optionalBool outerOnly (str "outer_only")
  let effectiveOuterOnly := outerOnly.getD false
  match profile with
  | .none =>
    let effectiveReadonly := readonly.getD false
    return {
      profileId := if effectiveReadonly then str "review" else str "implement"
      readonly := effectiveReadonly
      outerOnly := effectiveOuterOnly
      securityClass := some (str "compatibility")
    }
  | .str id =>
    let _ ← getProfile (.str id)
    let effectiveReadonly ←
      if id = str "review" then
        if readonly = some false then
          .error (valueError (str "profile 'review' conflicts with legacy readonly=False"))
        else .ok true
      else if id = str "implement" || id = str "dependency" then
        if readonly = some true then
          .error (.value [.text (str "profile "), .repr (.str id),
            .text (str " conflicts with legacy readonly=True")])
        else .ok false
      else .ok (readonly.getD false)
    return {
      profileId := id
      readonly := effectiveReadonly
      outerOnly := effectiveOuterOnly
      securityClass :=
        if id = str "compatibility" || effectiveOuterOnly then some (str "compatibility") else none
    }
  | _ => .error (.type [.text (str "profile must be a string or None")])

/-- The flags are taken as they are. -/
theorem resolveRunProfileRequest_flags (readonly outerOnly : Bool) :
    ∃ profileId, resolveRunProfileRequest .none (.bool readonly) (.bool outerOnly) =
      .ok ⟨profileId, readonly, outerOnly, some (str "compatibility")⟩ := ⟨_, rfl⟩

/-! ## What a run finds -/

/-- What the broker reads of its configuration. -/
structure Config where
  root : Path
  images : List (Str × Str)
  pids : Int
  memory : Str
  cpus : Value

structure Surroundings where
  fs : FileSystem Str
  /-- `read_json` -/
  readJson : Place → Except RunError Value
  /-- `str` of a value that is no string. -/
  shown : Value → Str
  /-- How `seed_provider_home` ends. -/
  seedProviderHome : Str → Except RunError Unit
  /-- How the files of a policy that has some are written. -/
  materialize : Path → Str → List GeneratedPolicyFileSpec → Except RunError (List ExecutionMount)

structure TaskContext where
  project : Str
  task : Str
  mode : Value
  status : Value
  metadataPath : Path
  workspace : Place
  record : Dict

def providerNetworkMode : NetworkRuntimeRequirements where
  mode := str "slirp4netns:allow_host_loopback=false"
  checked := by decide +kernel

section

variable (env : Surroundings) (cfg : Config)

/-! ## The plan of a run -/

/-- `platform_root / "projects"` -/
def projectsRoot : Path := projectsPath cfg.root

def providerSeedDir (provider : Str) : Except RunError Place := do
  let seedRoot ← canonicalDir env.fs (cfg.root ++ names [str "platform", str "seed"])
    (cfg.root ++ names [str "platform"]) (str "provider seed root")
  canonicalDir env.fs (names (seedRoot ++ [provider])) (names seedRoot)
    (provider ++ str " policy directory")

def materializeGeneratedPolicyFiles (taskMeta : Path) (provider : Str)
    (files : List GeneratedPolicyFileSpec) : Except RunError (List ExecutionMount) :=
  if files.isEmpty then .ok [] else env.materialize taskMeta provider files

def policyMountOf (provider : Str) (seed : Place) (mount : StatePolicyMount) :
    Except RunError ExecutionMount := do
  let source ← canonicalFile env.fs (names (seed ++ pathParts mount.seedRelativePath)) (names seed)
    (provider ++ str " policy")
  lift (ExecutionMount.make (showPath source) mount.target mount.readOnly .providerPolicy)

/-- The mounts of the policy files that the provider's state declares. -/
def seedPolicyMounts (driver : AgentDriver) : Except RunError (List ExecutionMount) :=
  if driver.stateAdapter.policyMounts.isEmpty then .ok []
  else do
    let seed ← providerSeedDir env cfg driver.id
    driver.stateAdapter.policyMounts.mapM (policyMountOf env driver.id seed)

def mergeEnvironmentItems (seen : List Str) : Environment → Except Policy.Error Environment
  | [] => .ok []
  | (name, value) :: rest => do
    ensure (name ∉ seen)
      (.value [.text (str "duplicate resolved execution environment key "), .repr (.str name)])
    let merged ← mergeEnvironmentItems (name :: seen) rest
    return (name, value) :: merged

/-- `_merge_plan_environment` -/
def mergePlanEnvironment (groups : List Environment) : Except Policy.Error Environment :=
  mergeEnvironmentItems [] groups.flatten

/-- The mounts of a worktree and of the repository it belongs to, at their own paths. -/
def auxiliaryMountsOf (workspace : Place) (gitCommon : Option Path) (readonly : Bool) :
    Except RunError (List ExecutionMount) := do
  let some gitCommon := gitCommon | return []
  let gitCommon ← canonicalDir env.fs gitCommon (projectsRoot cfg) (str "Git common directory")
  let worktree ← lift (ExecutionMount.make (showPath workspace) (showPath workspace) readonly
    .gitWorktree)
  let common ← lift (ExecutionMount.make (showPath gitCommon) (showPath gitCommon) readonly
    .gitCommon)
  return [worktree, common]

def referenceMountsOf (reference : Path) : Except RunError (List ExecutionMount) := do
  if env.fs.pathExists reference then do
    let reference ← canonicalDir env.fs reference (projectsRoot cfg) (str "reference mount")
    let mount ← lift (ExecutionMount.make (showPath reference) (str "/reference") true .reference)
    return [mount]
  else return []

/-- The mount of the provider's state at `state`. -/
def stateMountOf (state : ProviderStateSpec) : Except RunError ExecutionMount :=
  lift (ExecutionMount.make state.source state.target state.readOnly .providerState)

def policyFileMountOf (file : PolicyFileSpec) : Except RunError ExecutionMount :=
  lift (ExecutionMount.make file.source file.target file.readOnly .providerPolicy)

def createRunExecutionPlan (driver : AgentDriver) (context : TaskContext) (runSpec : RunSpec)
    (readonly outerOnly : Bool) (securityClass : Str) (reference : Path)
    (gitCommon : Option Path) : Except RunError ResolvedExecutionPlan := do
  let workspace ← canonicalDir env.fs (names context.workspace) (projectsRoot cfg)
    (str "workspace mount")
  let taskMeta ← canonicalFile env.fs context.metadataPath (projectsRoot cfg)
    (str "task metadata mount")
  let references ← referenceMountsOf env cfg reference
  let stateMounts ← driver.stateSpec.mapM stateMountOf
  let fileMounts ← runSpec.policyArtifacts.files.mapM policyFileMountOf
  let generatedMounts ← materializeGeneratedPolicyFiles env (names taskMeta) driver.id
    runSpec.policyArtifacts.generatedFiles
  let seedMounts ← seedPolicyMounts env cfg driver
  let auxiliary ← auxiliaryMountsOf env cfg workspace gitCommon readonly
  let baseCommit ← lift (item context.record (str "base_commit"))
  let environment ← lift (mergePlanEnvironment [
    [(str "AGENT_TASK_ID", context.task), (str "AGENT_TASK_MODE", textOf env.shown context.mode),
      (str "AGENT_TASK_BASE_COMMIT", textOf env.shown baseCommit)],
    runSpec.environment, runSpec.policyArtifacts.environment])
  let some image := cfg.images.lookup driver.id | .error (.failed (.key driver.id))
  let workspaceMount ← lift (ExecutionMount.make (showPath workspace) (str "/workspace") readonly
    .workspace)
  let taskMetadataMount ← lift (ExecutionMount.make (showPath taskMeta) (str "/task/metadata.json")
    true .taskMetadata)
  let artifacts ← lift (ResolvedProviderPolicyArtifacts.make {
    mounts := fileMounts ++ generatedMounts ++ seedMounts
    argv := runSpec.policyArtifacts.argv
    environment := runSpec.policyArtifacts.environment
  })
  let limits ← lift (ResourceLimits.make ⟨cfg.pids, cfg.memory, cfg.cpus⟩)
  lift (ResolvedExecutionPlan.make {
    agentId := driver.id
    image := image
    argv := runSpec.argv
    environment := environment
    workspaceMount := workspaceMount
    referenceMounts := references
    taskMetadataMount := taskMetadataMount
    providerStateMounts := stateMounts
    providerPolicyArtifacts := artifacts
    resourceLimits := limits
    network := providerNetworkMode
    readonly := readonly
    interactionMode := if runSpec.interactive then .interactive else .noninteractive
    runtimeIsolation := runSpec.runtimeIsolation
    securityClass := some securityClass
    requiredCapabilities :=
      [if readonly then str "workspace:readonly" else str "workspace:writable",
        securityClassPrefix ++ securityClass] ++
      (if runSpec.interactive then [str "interactive-run"] else []) ++
      (if outerOnly then [str "compatibility:outer-only"] else [])
    auxiliaryMounts := auxiliary
  })

/-! ## Requests -/

/-- `bool(value)` -/
def truthy : Value → Bool
  | .none => false
  | .bool b => b
  | .int n => n ≠ 0
  | .float (.finite q) => q ≠ 0
  | .str text => text ≠ []
  | .seq items => !items.isEmpty
  | .dict items => !items.isEmpty
  | _ => true

/-- `request.get(name, default)` -/
def argument (request : Dict) (name : Str) (default : Value) : Value :=
  (request.get? name).getD default

def promptOf (request : Dict) : Except RunError Str :=
  let failure := requestError (str "prompt must be a string <= 100000 characters")
  match argument request (str "prompt") (.str []) with
  | .str prompt => if prompt.length ≤ 100000 then .ok prompt else .error failure
  | _ => .error failure

def checkCapabilities (plan : ResolvedExecutionPlan) (driver : AgentDriver) : Except RunError Unit :=
  match requireCapabilities (.names (plan.requiredCapabilities.map .str)) driver.capabilities
      (some driver.id) with
  | .ok () => .ok ()
  | .error (.missing _ _ message) => .error (.request message)
  | .error (.value message) => .error (.failed (.value message))

/-- `op_run`, up to the lock of the workspace: the plan that is executed. -/
def opRun (request : Dict) : Except RunError ResolvedExecutionPlan := do
  let some driver := getDriver (field request (str "provider"))
    | .error (requestError (str "unsupported provider"))
  let project ← validName (field request (str "project")) (str "project")
  let task ← validName (field request (str "task")) (str "task")
  let mapping ← lift (resolveRunProfileRequest .none
    (.bool (truthy (argument request (str "readonly") (.bool false))))
    (.bool (truthy (argument request (str "outer_only") (.bool false)))))
  let readonly := mapping.readonly
  let outerOnly := mapping.outerOnly
  let some securityClass := mapping.securityClass
    | .error (requestError (str "run request did not resolve an effective security class"))
  let prompt ← promptOf request
  let loaded ← loadTask env.fs env.readJson cfg.root project task
  let record := loaded.record
  let pp := loaded.paths
  ensure (readonly || (field record (str "status")).isStr (str "active"))
    (requestError (str "write execution is allowed only while task status is active"))
  env.seedProviderHome driver.id
  let metadataPath := names (pp.tasks ++ [metadataName task])
  let mode ← lift (item record (str "mode"))
  let gitCommon :=
    if inWorktree mode (field record (str "status")) then some (names (pp.agent ++ [str ".git"]))
    else none
  let status ← lift (item record (str "status"))
  let context : TaskContext := {
    project, task, mode, status, metadataPath, workspace := loaded.workspace, record
  }
  ensure (!outerOnly || str "outer-only" ∈ driver.capabilities.compatibilityModes)
    (requestError (str "outer-only mode is Codex-only"))
  let policy ← lift (driver.compilePolicy readonly outerOnly)
  let runSpec ← lift (driver.createRunSpec policy prompt)
  let plan ← createRunExecutionPlan env cfg driver context runSpec readonly outerOnly securityClass
    (names pp.reference) gitCommon
  checkCapabilities plan driver
  return plan

end

end AgentDev.Execution
