import AgentDev.Agents.State

/-!
# Drivers

`agents/base.py`, `agents/codex.py`, `agents/cursor.py`, `agents/registry.py`, and
`execution/isolation.py`: what a driver says about the runs of its provider, and the two drivers of
the registry. Of `compile_policy` the branch of the legacy flags is here, which is the one that
`run` requests take.
-/

namespace AgentDev.Agents

open Python Policy

/-! ## Specifications -/

structure RuntimeIsolationRequirements.Fields where
  uid : Option Int := none
  gid : Option Int := none
  nestedSandboxBootstrap : Bool := false
  deriving DecidableEq

def RuntimeIsolationRequirements.Fields.postInit (requirements : Fields) : Except Policy.Error Unit := do
  ensure (requirements.uid.isNone == requirements.gid.isNone)
    (valueError (str "uid and gid must be set together"))
  requireOwner requirements.uid (str "uid")
  requireOwner requirements.gid (str "gid")
  ensure (!(requirements.nestedSandboxBootstrap && requirements.uid.isNone))
    (valueError (str "nested sandbox bootstrap requires an explicit non-root identity"))
  ensure (!(requirements.nestedSandboxBootstrap && requirements.uid = some 0))
    (valueError (str "nested sandbox bootstrap requires a non-root uid"))

structure RuntimeIsolationRequirements extends RuntimeIsolationRequirements.Fields where
  checked : toFields.postInit = .ok ()

abbrev Environment := List (Str × Str)

def requireArgv (argv : List Str) (label : Str) : Except Policy.Error Unit := do
  ensure (!argv.isEmpty) (valueError (label ++ str " argv must be a non-empty tuple"))
  checkAll (requireText · (label ++ str " argv item")) argv

def requireEnvironmentItems (label : Str) (seen : List Str) : Environment → Except Policy.Error Unit
  | [] => .ok ()
  | (name, value) :: rest => do
    requireText name (label ++ str " environment name")
    ensure (61 ∉ name) (valueError (label ++ str " environment name must not contain '='"))
    ensure (name ∉ seen)
      (.value [.text (label ++ str " environment contains duplicate key "), .repr (.str name)])
    ensure (0 ∉ value)
      (valueError (label ++ str " environment value must be a string without NUL"))
    requireEnvironmentItems label (name :: seen) rest

/-- `_require_environment` -/
def requireEnvironment (environment : Environment) (label : Str) : Except Policy.Error Unit :=
  requireEnvironmentItems label [] environment

/-- `_require_container_target` and `_require_container_path` -/
def requireContainerTarget (value label : Str) : Except Policy.Error Unit := do
  requireText value label
  ensure (isAbsolute value && staysBelow value)
    (valueError (label ++ str " must be an absolute container path without '..'"))

structure PolicyFileSpec.Fields where
  source : Str
  target : Str
  readOnly : Bool := true

def PolicyFileSpec.Fields.postInit (file : Fields) : Except Policy.Error Unit := do
  requireText file.source (str "policy source")
  requireContainerTarget file.target (str "policy target")

structure PolicyFileSpec extends PolicyFileSpec.Fields where
  checked : toFields.postInit = .ok ()

structure GeneratedPolicyFileSpec.Fields where
  name : Str
  target : Str
  content : Str
  readOnly : Bool := true

def GeneratedPolicyFileSpec.Fields.postInit (file : Fields) : Except Policy.Error Unit := do
  requireText file.name (str "generated policy name")
  ensure (!isAbsolute file.name && (pathParts file.name).length = 1 &&
      file.name ∉ [str ".", str ".."])
    (valueError (str "generated policy name must be one basename"))
  requireContainerTarget file.target (str "generated policy target")
  ensure (0 ∉ file.content)
    (valueError (str "generated policy content must be text without NUL"))

structure GeneratedPolicyFileSpec extends GeneratedPolicyFileSpec.Fields where
  checked : toFields.postInit = .ok ()

structure ProviderPolicyArtifacts.Fields where
  files : List PolicyFileSpec := []
  argv : List Str := []
  environment : Environment := []
  runtimeIsolation : RuntimeIsolationRequirements
  generatedFiles : List GeneratedPolicyFileSpec := []

def ProviderPolicyArtifacts.Fields.postInit (artifacts : Fields) : Except Policy.Error Unit := do
  let targets := artifacts.files.map (fun file => file.target) ++
    artifacts.generatedFiles.map fun file => file.target
  ensure targets.Nodup (valueError (str "policy file targets must be unique"))
  checkAll (requireText · (str "policy argv item")) artifacts.argv
  requireEnvironment artifacts.environment (str "policy")

structure ProviderPolicyArtifacts extends ProviderPolicyArtifacts.Fields where
  checked : toFields.postInit = .ok ()

def ProviderPolicyArtifacts.make (fields : ProviderPolicyArtifacts.Fields) :
    Except Policy.Error ProviderPolicyArtifacts :=
  construct fun h => ⟨fields, h⟩

structure RunSpec.Fields where
  argv : List Str
  environment : Environment := []
  interactive : Bool := true
  policyArtifacts : ProviderPolicyArtifacts
  runtimeIsolation : RuntimeIsolationRequirements

def RunSpec.Fields.postInit (spec : Fields) : Except Policy.Error Unit := do
  requireArgv spec.argv (str "run")
  requireEnvironment spec.environment (str "run")

structure RunSpec extends RunSpec.Fields where
  checked : toFields.postInit = .ok ()

def RunSpec.make (fields : RunSpec.Fields) : Except Policy.Error RunSpec := construct fun h => ⟨fields, h⟩

/-- What the broker uses of an `AgentDriver` in a run. -/
structure AgentDriver where
  id : Str
  capabilities : AgentCapabilities
  stateAdapter : ProviderStateAdapter
  /-- `compile_policy({"readonly": readonly, "outer_only": outer_only})` -/
  compilePolicy (readonly outerOnly : Bool) : Except Policy.Error ProviderPolicyArtifacts
  createRunSpec (policy : ProviderPolicyArtifacts) (prompt : Str) : Except Policy.Error RunSpec

def AgentDriver.stateSpec (driver : AgentDriver) : List ProviderStateSpec :=
  driver.stateAdapter.stateSpec

/-- The command of the two providers: the prompt is an argument unless it is blank. -/
def createRunSpecOf (command : List Str) (policy : ProviderPolicyArtifacts) (prompt : Str) :
    Except Policy.Error RunSpec :=
  let argv := command ++ policy.argv
  RunSpec.make {
    argv := if strip prompt ≠ [] then argv ++ [prompt] else argv
    policyArtifacts := policy
    runtimeIsolation := policy.runtimeIsolation
  }

/-! ## Codex -/

def codexProviderStateTarget : Str := str "/home/node/.codex"

def codexControlIsolation : RuntimeIsolationRequirements where
  uid := some 1000
  gid := some 1000
  checked := by decide

theorem nestedBootstrap_checked : RuntimeIsolationRequirements.Fields.postInit
    { uid := some 1000, gid := some 1000, nestedSandboxBootstrap := true } = .ok () := by
  decide

def codexSandboxIsolation : RuntimeIsolationRequirements where
  uid := some 1000
  gid := some 1000
  nestedSandboxBootstrap := true
  checked := nestedBootstrap_checked

def codexStateVolume : StateVolumeLayout where
  key := str "state"
  mount := {
    source := str "agent-dev-codex-state"
    target := codexProviderStateTarget
    checked := by decide +kernel
  }
  stagingTarget := str "/state"
  marker := str ".agent-dev-state-layout-v2"
  legacyPath := some (str ".codex")
  emptyError := str "provider state volume is non-empty but has no layout marker"
  smokeMarker := str ".agent-dev-state-write-smoke"
  cleanupAfterCopy := [str "config.toml"]
  ownerUid := some 1000
  ownerGid := some 1000
  checked := by decide +kernel

def codexStateAdapter : ProviderStateAdapter where
  volumes := [codexStateVolume]
  legacyVolume := some (str "agent-dev-codex-home")
  policyMounts := [{
    seedRelativePath := str "config.toml"
    target := codexProviderStateTarget ++ str "/config.toml"
    readOnly := true
    checked := by decide +kernel
  }]
  checked := by decide +kernel

def codexCapabilities : AgentCapabilities where
  workspaceModes := {str "readonly", str "writable"}
  interactiveAuth := true
  interactiveRun := true
  nativePolicy := true
  nativeSandbox := true
  compatibilityModes := {str "outer-only"}
  policyCapabilities := {str "provider_state_protection", str "network_deny", str "network_allowlist"}
  securityClasses := {str "compatibility"}
  workspaceModes_sub := by decide
  workspaceModes_nonempty := by decide
  compatibilityModes_valid := by decide
  policyCapabilities_valid := by decide
  securityClasses_sub := compatibility_sub
  securityClasses_nonempty := compatibility_ne_empty

/-- `_compile_legacy_policy` -/
def codexCompilePolicy (readonly outerOnly : Bool) : Except Policy.Error ProviderPolicyArtifacts :=
  let sandbox :=
    if outerOnly then str "danger-full-access"
    else if readonly then str "read-only"
    else str "workspace-write"
  ProviderPolicyArtifacts.make {
    argv := [str "--sandbox", sandbox, str "-c", str "approval_policy=never"]
    runtimeIsolation := if outerOnly then codexControlIsolation else codexSandboxIsolation
  }

def codexDriver : AgentDriver where
  id := str "codex"
  capabilities := codexCapabilities
  stateAdapter := codexStateAdapter
  compilePolicy := codexCompilePolicy
  createRunSpec := createRunSpecOf [str "codex", str "exec"]

/-! ## Cursor -/

def cursorRuntimeHome : Str := str "/home/node"

def cursorStateTarget : Str := cursorRuntimeHome ++ str "/.cursor"

def cursorAuthTarget : Str := cursorRuntimeHome ++ str "/.config/cursor"

def cursorCredentialDenyTarget : Str := cursorRuntimeHome ++ str "/.cursorignore"

def cursorControlIsolation : RuntimeIsolationRequirements where
  uid := some 1000
  gid := some 1000
  checked := by decide

def cursorStateVolume : StateVolumeLayout where
  key := str "state"
  mount := {
    source := str "agent-dev-cursor-state"
    target := cursorStateTarget
    checked := by decide +kernel
  }
  stagingTarget := str "/state"
  marker := str ".agent-dev-state-layout-v2"
  legacyPath := some (str ".cursor")
  emptyError := str "provider state volume is non-empty but has no layout marker"
  smokeMarker := str ".agent-dev-state-write-smoke"
  ownerUid := some 1000
  ownerGid := some 1000
  checked := by decide +kernel

def cursorAuthVolume : StateVolumeLayout where
  key := str "auth"
  mount := {
    source := str "agent-dev-cursor-auth"
    target := cursorAuthTarget
    checked := by decide +kernel
  }
  stagingTarget := str "/auth"
  marker := str ".agent-dev-auth-layout-v1"
  legacyPath := some (str ".config/cursor")
  emptyError := str "Cursor auth state volume is non-empty but has no layout marker"
  smokeMarker := str ".agent-dev-auth-write-smoke"
  ownerUid := some 1000
  ownerGid := some 1000
  checked := by decide +kernel

def cursorStateAdapter : ProviderStateAdapter where
  volumes := [cursorStateVolume, cursorAuthVolume]
  legacyVolume := some (str "agent-dev-cursor-home")
  policyMounts := [{
    seedRelativePath := str "credential-deny.cursorignore"
    target := cursorCredentialDenyTarget
    readOnly := true
    checked := by decide +kernel
  }]
  reconciliation := some {
    volumeKey := str "state"
    seedRelativePath := str "cli-config.json"
    stateRelativePath := str "cli-config.json"
    managedField := str "permissions"
    managedPaths := [[str "sandbox", str "networkAccess"]]
    checked := by decide +kernel
  }
  checked := by decide +kernel

def cursorCapabilities : AgentCapabilities where
  workspaceModes := {str "readonly", str "writable"}
  interactiveAuth := true
  interactiveRun := true
  nativePolicy := true
  nativeSandbox := true
  compatibilityModes := ∅
  policyCapabilities := {str "provider_state_protection"}
  securityClasses := {str "compatibility"}
  workspaceModes_sub := by decide
  workspaceModes_nonempty := by decide
  compatibilityModes_valid := validText_of_mem_empty
  policyCapabilities_valid := by decide
  securityClasses_sub := compatibility_sub
  securityClasses_nonempty := compatibility_ne_empty

/-- `_compile_legacy_policy` -/
def cursorCompilePolicy (_readonly outerOnly : Bool) : Except Policy.Error ProviderPolicyArtifacts := do
  ensure (!outerOnly) (valueError (str "Cursor does not support outer-only mode"))
  ProviderPolicyArtifacts.make { runtimeIsolation := cursorControlIsolation }

def cursorDriver : AgentDriver where
  id := str "cursor"
  capabilities := cursorCapabilities
  stateAdapter := cursorStateAdapter
  compilePolicy := cursorCompilePolicy
  createRunSpec := createRunSpecOf [str "agent", str "--trust"]

/-! ## The registry -/

def isAlnum (c : CodePoint) : Bool :=
  (48 ≤ c.val && c.val ≤ 57) || (65 ≤ c.val && c.val ≤ 90) || (97 ≤ c.val && c.val ≤ 122)

/-- `NAME_RE.fullmatch`: a letter or digit, then at most 63 letters, digits, `.`, `_`, `-`. -/
def isValidName : Str → Bool
  | [] => false
  | c :: rest => isAlnum c && rest.all (fun d => isAlnum d || d ∈ str "._-") && rest.length ≤ 63

/-- `BUILTIN_AGENT_REGISTRY` -/
def builtinAgentRegistry : List AgentDriver := [codexDriver, cursorDriver]

/-- `AGENT_REGISTRY.get` -/
def getDriver (provider : Value) : Option AgentDriver :=
  match provider with
  | .str id =>
    if isValidName id then builtinAgentRegistry.find? fun driver => driver.id = id else none
  | _ => none

theorem getDriver_mem {provider : Value} {driver : AgentDriver}
    (h : getDriver provider = some driver) : driver ∈ builtinAgentRegistry := by
  unfold getDriver at h
  split at h
  · split at h
    · exact List.mem_of_find?_eq_some h
    · cases h
  · cases h

/-! ## What the registered drivers have in common -/

/-- A driver that mounts only named volumes and read-only policy files, and whose command has no `-v`
before the prompt. -/
structure AgentDriver.Plain (driver : AgentDriver) : Prop where
  volumes : ∀ state ∈ driver.stateSpec, isAbsolute state.source = false
  policyMounts : ∀ mount ∈ driver.stateAdapter.policyMounts, mount.readOnly = true
  policyFiles : ∀ {readonly outerOnly policy}, driver.compilePolicy readonly outerOnly = .ok policy →
    policy.files = [] ∧ policy.generatedFiles = []
  command : ∀ {readonly outerOnly policy prompt spec},
    driver.compilePolicy readonly outerOnly = .ok policy →
    driver.createRunSpec policy prompt = .ok spec → spec.policyArtifacts = policy ∧
      ∃ first args last, spec.argv = first :: args ++ last ∧ isAbsolute first = false ∧
        str "-v" ∉ first :: args ∧ last.length ≤ 1

theorem createRunSpecOf_ok {command : List Str} {policy : ProviderPolicyArtifacts} {prompt : Str}
    {spec : RunSpec} (h : createRunSpecOf command policy prompt = .ok spec) :
    spec.policyArtifacts = policy ∧
      ∃ last : List Str, spec.argv = command ++ policy.argv ++ last ∧ last.length ≤ 1 := by
  obtain ⟨_, rfl⟩ := construct_ok.mp h
  refine ⟨rfl, ?_⟩
  by_cases hprompt : strip prompt ≠ []
  · exact ⟨[prompt], if_pos hprompt, le_refl 1⟩
  · refine ⟨[], ?_, Nat.zero_le 1⟩
    rw [List.append_nil]
    exact if_neg hprompt

theorem codexDriver_plain : codexDriver.Plain where
  volumes := by decide +kernel
  policyMounts := by decide +kernel
  policyFiles := by
    intro readonly outerOnly policy h
    obtain ⟨_, rfl⟩ := construct_ok.mp h
    exact ⟨rfl, rfl⟩
  command := by
    intro readonly outerOnly policy prompt spec hpolicy hspec
    obtain ⟨_, rfl⟩ := construct_ok.mp hpolicy
    obtain ⟨hartifacts, last, hargv, hlast⟩ := createRunSpecOf_ok hspec
    refine ⟨hartifacts, str "codex", _, last, hargv, by decide, ?_, hlast⟩
    show str "-v" ∉ [str "codex", str "exec", str "--sandbox",
      if outerOnly then str "danger-full-access"
      else if readonly then str "read-only" else str "workspace-write",
      str "-c", str "approval_policy=never"]
    cases readonly <;> cases outerOnly <;> decide

theorem cursorDriver_plain : cursorDriver.Plain where
  volumes := by decide +kernel
  policyMounts := by decide +kernel
  policyFiles := by
    intro readonly outerOnly policy h
    obtain ⟨_, rfl⟩ := construct_ok.mp (ensure_then_ok.mp h).2
    exact ⟨rfl, rfl⟩
  command := by
    intro readonly outerOnly policy prompt spec hpolicy hspec
    obtain ⟨_, rfl⟩ := construct_ok.mp (ensure_then_ok.mp hpolicy).2
    obtain ⟨hartifacts, last, hargv, hlast⟩ := createRunSpecOf_ok hspec
    refine ⟨hartifacts, str "agent", _, last, hargv, by decide, ?_, hlast⟩
    show str "-v" ∉ [str "agent", str "--trust"]
    decide

theorem builtinAgentRegistry_plain : ∀ driver ∈ builtinAgentRegistry, driver.Plain := by
  intro driver hdriver
  rcases List.mem_pair.mp hdriver with rfl | rfl
  · exact codexDriver_plain
  · exact cursorDriver_plain

end AgentDev.Agents
