import AgentDev.Agents.Drivers

/-!
# Execution plans

`execution/plan.py` and `execution_plan_argv` of `runtime/podman.py`: what a run needs of the runtime,
the checks on it, and its translation to the arguments of `podman`. The `-v` options of the
translation are the mounts of the plan, in their order (`volumeArguments_argv`).
-/

namespace AgentDev.Execution

open Python Policy Agents

/-! ## Mounts -/

/-- `_MOUNT_ROLES` -/
inductive MountRole
  | workspace
  | reference
  | taskMetadata
  | providerState
  | providerPolicy
  | gitWorktree
  | gitCommon
  deriving DecidableEq

structure ExecutionMount.Fields where
  source : Str
  target : Str
  readOnly : Bool
  role : MountRole
  deriving DecidableEq

def ExecutionMount.Fields.postInit (mount : Fields) : Except Policy.Error Unit := do
  requireText mount.source (str "mount source")
  requireContainerTarget mount.target (str "mount target")

structure ExecutionMount extends ExecutionMount.Fields where
  checked : toFields.postInit = .ok ()

def ExecutionMount.make (source target : Str) (readOnly : Bool) (role : MountRole) :
    Except Policy.Error ExecutionMount :=
  construct fun h => ⟨⟨source, target, readOnly, role⟩, h⟩

theorem ExecutionMount.make_ok {source target : Str} {readOnly : Bool} {role : MountRole}
    {mount : ExecutionMount} (h : make source target readOnly role = .ok mount) :
    mount.toFields = ⟨source, target, readOnly, role⟩ := by
  obtain ⟨_, rfl⟩ := construct_ok.mp h
  rfl

/-! ## Limits, network, and policy -/

structure ResourceLimits.Fields where
  pids : Int
  memory : Str
  cpus : Value

/-- A number that is not `<= 0`. -/
def isPositiveNumber : Value → Bool
  | .int n => 0 < n
  | .float (.finite q) => 0 < q
  | .float (.inf negative) => !negative
  | .float .nan => true
  | _ => false

def ResourceLimits.Fields.postInit (limits : Fields) : Except Policy.Error Unit := do
  ensure (0 < limits.pids) (valueError (str "pids must be a positive integer"))
  requireText limits.memory (str "memory limit")
  ensure (isPositiveNumber limits.cpus) (valueError (str "cpus must be a positive number"))

structure ResourceLimits extends ResourceLimits.Fields where
  checked : toFields.postInit = .ok ()

def ResourceLimits.make (fields : ResourceLimits.Fields) : Except Policy.Error ResourceLimits :=
  construct fun h => ⟨fields, h⟩

structure NetworkRuntimeRequirements.Fields where
  mode : Str
  httpProxy : Bool := false

def NetworkRuntimeRequirements.Fields.postInit (network : Fields) : Except Policy.Error Unit :=
  requireText network.mode (str "network mode")

structure NetworkRuntimeRequirements extends NetworkRuntimeRequirements.Fields where
  checked : toFields.postInit = .ok ()

structure ResolvedProviderPolicyArtifacts.Fields where
  mounts : List ExecutionMount := []
  argv : List Str := []
  environment : Environment := []

def ResolvedProviderPolicyArtifacts.Fields.postInit (artifacts : Fields) : Except Policy.Error Unit := do
  ensure (artifacts.mounts.all fun mount => mount.role = .providerPolicy)
    (valueError (str "policy mounts must be provider-policy ExecutionMount values"))
  checkAll (requireText · (str "policy argv item")) artifacts.argv
  requireEnvironment artifacts.environment (str "plan")

structure ResolvedProviderPolicyArtifacts extends ResolvedProviderPolicyArtifacts.Fields where
  checked : toFields.postInit = .ok ()

def ResolvedProviderPolicyArtifacts.make (fields : ResolvedProviderPolicyArtifacts.Fields) :
    Except Policy.Error ResolvedProviderPolicyArtifacts :=
  construct fun h => ⟨fields, h⟩

/-! ## Plans -/

/-- `_INTERACTION_MODES` -/
inductive InteractionMode
  | interactive
  | noninteractive
  deriving DecidableEq

structure ResolvedExecutionPlan.Fields where
  agentId : Str
  image : Str
  argv : List Str
  environment : Environment
  workspaceMount : ExecutionMount
  referenceMounts : List ExecutionMount
  taskMetadataMount : ExecutionMount
  providerStateMounts : List ExecutionMount
  providerPolicyArtifacts : ResolvedProviderPolicyArtifacts
  resourceLimits : ResourceLimits
  network : NetworkRuntimeRequirements
  readonly : Bool
  interactionMode : InteractionMode
  runtimeIsolation : RuntimeIsolationRequirements
  securityClass : Option Str := none
  /-- The elements of a set. -/
  requiredCapabilities : List Str := []
  auxiliaryMounts : List ExecutionMount := []
  workingDirectory : Str := str "/workspace"

/-- `all_mounts` -/
def ResolvedExecutionPlan.Fields.allMounts (plan : Fields) : List ExecutionMount :=
  [plan.workspaceMount] ++ plan.referenceMounts ++ [plan.taskMetadataMount] ++
    plan.providerStateMounts ++ plan.providerPolicyArtifacts.mounts ++ plan.auxiliaryMounts

/-- Two different mounts on one target contradict each other. -/
def checkTargets (targets : List ExecutionMount) : List ExecutionMount → Except Policy.Error Unit
  | [] => .ok ()
  | mount :: rest => do
    let previous := targets.find? fun other => other.target = mount.target
    ensure (previous.all fun other => other.toFields = mount.toFields)
      (.value [.text (str "contradictory mounts target "), .repr (.str mount.target)])
    checkTargets (mount :: targets) rest

def ResolvedExecutionPlan.Fields.postInit (plan : Fields) : Except Policy.Error Unit := do
  requireText plan.agentId (str "agent_id")
  requireText plan.image (str "image")
  requireArgv plan.argv (str "plan")
  requireEnvironment plan.environment (str "plan")
  ensure (plan.workspaceMount.role = .workspace)
    (valueError (str "workspace_mount must have role 'workspace'"))
  ensure (plan.workspaceMount.target = str "/workspace")
    (valueError (str "workspace mount target must be /workspace"))
  ensure (plan.workspaceMount.readOnly = plan.readonly)
    (valueError (str "workspace mount mode contradicts plan readonly mode"))
  ensure (plan.referenceMounts.all fun mount => mount.role = .reference && mount.readOnly)
    (valueError (str "reference mounts must be read-only reference mounts"))
  ensure (plan.taskMetadataMount.role = .taskMetadata && plan.taskMetadataMount.readOnly)
    (valueError (str "task metadata mount must be read-only"))
  ensure (plan.providerStateMounts.all fun mount => mount.role = .providerState)
    (valueError (str "provider state mounts must have role 'provider-state'"))
  checkAll (requireText · (str "security_class")) plan.securityClass.toList
  checkAll (requireText · (str "required capability")) plan.requiredCapabilities
  requireContainerTarget plan.workingDirectory (str "working_directory")
  checkTargets [] plan.allMounts

structure ResolvedExecutionPlan extends ResolvedExecutionPlan.Fields where
  checked : toFields.postInit = .ok ()

def ResolvedExecutionPlan.make (fields : ResolvedExecutionPlan.Fields) :
    Except Policy.Error ResolvedExecutionPlan :=
  construct fun h => ⟨fields, h⟩

theorem ResolvedExecutionPlan.make_ok {fields : ResolvedExecutionPlan.Fields}
    {plan : ResolvedExecutionPlan} (h : make fields = .ok plan) : plan.toFields = fields := by
  obtain ⟨_, rfl⟩ := construct_ok.mp h
  rfl

theorem isAbsolute_of_requireContainerTarget {value label : Str}
    (h : requireContainerTarget value label = .ok ()) : isAbsolute value = true := by
  obtain ⟨⟨⟩, -, h⟩ := bind_ok_iff.mp h
  exact (Bool.and_eq_true_iff.mp (ensure_ok.mp h)).1

theorem ResolvedExecutionPlan.isAbsolute_workingDirectory (plan : ResolvedExecutionPlan) :
    isAbsolute plan.workingDirectory = true := by
  have h := plan.checked
  simp only [ResolvedExecutionPlan.Fields.postInit, bind_ok_iff] at h
  obtain ⟨_, -, _, -, _, -, _, -, _, -, _, -, _, -, _, -, _, -, _, -, _, -, _, -, _, hdirectory, -⟩ := h
  exact isAbsolute_of_requireContainerTarget hdirectory

/-! ## Arguments of podman -/

/-- `str(value)`, where `shown` writes the values that are no strings. -/
def textOf (shown : Value → Str) : Value → Str
  | .str text => text
  | value => shown value

def environmentArgs (environment : Environment) : List Str :=
  environment.flatMap fun (name, value) => [str "-e", name ++ str "=" ++ value]

def runtimeIsolationArgs (shown : Value → Str) (requirements : RuntimeIsolationRequirements) :
    List Str :=
  (match requirements.uid, requirements.gid with
    | some uid, some gid => [str "--user", shown (.int uid) ++ str ":" ++ shown (.int gid)]
    | _, _ => []) ++
  (if requirements.nestedSandboxBootstrap then [str "--security-opt=unmask=/proc/*"] else [])

/-- `source:target:mode` -/
def volumeArgument (source target : Str) (readOnly : Bool) : Str :=
  source ++ str ":" ++ target ++ str ":" ++ (if readOnly then str "ro" else str "rw")

def ExecutionMount.Fields.volume (mount : ExecutionMount.Fields) : Str :=
  volumeArgument mount.source mount.target mount.readOnly

def executionPlanArgv (shown : Value → Str) (plan : ResolvedExecutionPlan) : List Str :=
  [str "podman", str "run", str "--rm", str "--network=" ++ plan.network.mode,
    str "--http-proxy=" ++ (if plan.network.httpProxy then str "true" else str "false"),
    str "--read-only", str "--cap-drop=all", str "--security-opt=no-new-privileges",
    str "--pids-limit=" ++ shown (.int plan.resourceLimits.pids),
    str "--memory=" ++ plan.resourceLimits.memory,
    str "--cpus=" ++ shown plan.resourceLimits.cpus,
    str "--tmpfs", str "/tmp:rw,nosuid,nodev,size=512m",
    str "--tmpfs", str "/run:rw,nosuid,nodev,size=64m"] ++
  runtimeIsolationArgs shown plan.runtimeIsolation ++
  plan.allMounts.flatMap (fun mount => [str "-v", mount.volume]) ++
  [str "-w", plan.workingDirectory] ++
  environmentArgs plan.environment ++
  plan.image :: plan.argv

/-- The arguments that follow a `-v`. -/
def volumeArguments : List Str → List Str
  | [] => []
  | [_] => []
  | option :: value :: rest =>
    if option = str "-v" then value :: volumeArguments rest else volumeArguments (value :: rest)

theorem volumeArguments_of_not_mem {args rest : List Str} (h : str "-v" ∉ args) :
    volumeArguments (args ++ rest) = volumeArguments rest := by
  induction args with
  | nil => rfl
  | cons option args ih =>
    have hne : option ≠ str "-v" := fun heq => h (heq ▸ List.mem_cons_self)
    rw [List.cons_append, ← ih fun hmem => h (List.mem_cons_of_mem option hmem)]
    cases args ++ rest with
    | nil => rfl
    | cons value tail => rw [volumeArguments, if_neg hne]

theorem volumeArguments_flatMap (mounts : List ExecutionMount) (rest : List Str) :
    volumeArguments (mounts.flatMap (fun mount => [str "-v", mount.volume]) ++ rest) =
      mounts.map (·.volume) ++ volumeArguments rest := by
  induction mounts with
  | nil => rfl
  | cons mount mounts ih =>
    simp only [List.flatMap_cons, List.cons_append, List.nil_append, List.map_cons]
    rw [volumeArguments, if_pos rfl, ih]

theorem ne_dash_v_of_mem {text : Str} {c : CodePoint} (hmem : c ∈ text) (hc : c ∉ str "-v") :
    text ≠ str "-v" := fun heq => hc (heq ▸ hmem)

theorem not_mem_environmentArgs (environment : Environment) :
    str "-v" ∉ environmentArgs environment := by
  intro h
  obtain ⟨⟨name, value⟩, -, hmem⟩ := List.mem_flatMap.mp h
  rcases List.mem_pair.mp hmem with heq | heq
  · exact absurd heq (by decide)
  · refine ne_dash_v_of_mem (c := 61) ?_ (by decide) heq.symm
    exact List.mem_append_left _ (List.mem_append_right _ (by decide))

theorem not_mem_runtimeIsolationArgs (shown : Value → Str)
    (requirements : RuntimeIsolationRequirements) :
    str "-v" ∉ runtimeIsolationArgs shown requirements := by
  intro h
  rcases List.mem_append.mp h with h | h
  · split at h
    · rcases List.mem_pair.mp h with heq | heq
      · exact absurd heq (by decide)
      · refine ne_dash_v_of_mem (c := 58) ?_ (by decide) heq.symm
        exact List.mem_append_left _ (List.mem_append_right _ (by decide))
    · cases h
  · split at h
    · exact absurd (List.mem_singleton.mp h) (by decide)
    · cases h

/-- The `-v` options are the mounts, unless the image or an argument of the command is a `-v`. -/
theorem volumeArguments_argv (shown : Value → Str) (plan : ResolvedExecutionPlan) :
    volumeArguments (executionPlanArgv shown plan) =
      plan.allMounts.map (·.volume) ++ volumeArguments (plan.image :: plan.argv) := by
  have hdirectory : plan.workingDirectory ≠ str "-v" := by
    intro heq
    have habsolute := plan.isAbsolute_workingDirectory
    rw [heq] at habsolute
    exact absurd habsolute (by decide)
  have hword : ∀ head tail : Str, 61 ∈ head → head ++ tail ≠ str "-v" := fun head tail hmem =>
    ne_dash_v_of_mem (List.mem_append_left tail hmem) (by decide)
  unfold executionPlanArgv
  simp only [List.append_assoc]
  rw [volumeArguments_of_not_mem, volumeArguments_of_not_mem (not_mem_runtimeIsolationArgs _ _),
    volumeArguments_flatMap, volumeArguments_of_not_mem,
    volumeArguments_of_not_mem (not_mem_environmentArgs _)]
  · intro h
    rcases List.mem_pair.mp h with heq | heq
    · exact absurd heq (by decide)
    · exact hdirectory heq.symm
  · intro h
    simp only [List.mem_cons, List.not_mem_nil, or_false] at h
    rcases h with h | h | h | h | h | h | h | h | h | h | h | h | h | h | h
    all_goals first | exact absurd h (by decide) | exact hword _ _ (by decide) h.symm

end AgentDev.Execution
