import AgentDev.Agents.Drivers
import AgentDev.Policy.Capabilities
import AgentDev.Python.JsonLines

/-!
# Compilers of execution policies

`_compile_execution_policy` of `agents/codex.py` and of `agents/cursor.py`, and what they build their
artifacts from: the settings that are given to Codex as `-c key=value`, and the file `sandbox.json` of
Cursor.
-/

namespace AgentDev.Agents

open Python Policy

/-- What a compiler raises. -/
inductive CompileError
  /-- `UnsupportedCodexPolicyError` or `UnsupportedCursorPolicyError` -/
  | unsupported (message : Message)
  | other (error : Policy.Error)

def unsupported (text : Str) : CompileError := .unsupported [.text text]

/-- What raises none of the errors of a compiler. -/
def compileLift {α : Type} : Except Policy.Error α → Except CompileError α
  | .ok a => .ok a
  | .error error => .error (.other error)

/-- The check that both compilers begin with. -/
def checkPolicyCapabilities (policy : ExecutionPolicy) (driver : AgentDriver) :
    Except CompileError Unit :=
  match requirePolicyCapabilities policy driver.capabilities (some driver.id) with
  | .ok _ => .ok ()
  | .error (.missing _ _ message) => .error (.unsupported message)
  | .error (.value message) => .error (.other (.value message))

/-! ## Codex -/

/-- `-c setting` for each of the settings. -/
def configArgv (settings : List Str) : List Str :=
  settings.flatMap fun setting => [str "-c", setting]

def codexCredentialPermissionProfile : Str := str "agentdev_credential_confidentiality"

/-- `codex_credential_confidentiality_config_argv` -/
def codexCredentialConfidentialityConfigArgv (workspaceAccess : Access) :
    Except Policy.Error (List Str) := do
  let baseProfile ← match workspaceAccess with
    | .read => .ok (str ":read-only")
    | .write => .ok (str ":workspace")
    | .none => .error (valueError
        (str "Codex credential probe workspace access must be read or write"))
  let profile := codexCredentialPermissionProfile
  return configArgv [
    str "default_permissions=\"" ++ profile ++ str "\"",
    str "permissions." ++ profile ++ str ".extends=\"" ++ baseProfile ++ str "\"",
    str "permissions." ++ profile ++ str ".filesystem=\x7b \"" ++ codexProviderStateTarget ++
      str "\" = \"deny\", \"" ++ codexProviderStateTarget ++ str "/**\" = \"deny\" \x7d",
    str "shell_environment_policy.inherit=\"all\"",
    str "shell_environment_policy.ignore_default_excludes=false",
    str "history.persistence=\"none\""]

/-- `json.dumps(destination, ensure_ascii=False) = "allow"` -/
def domainEntry (destination : Str) : Str :=
  Json.writeStr false destination ++ str " = \"allow\""

/-- The value in `_toml_domain_allowlist`. -/
def domainTable (destinations : List Str) : Str :=
  str "\x7b " ++ join (str ", ") (destinations.map domainEntry) ++ str " \x7d"

/-- `_toml_domain_allowlist` -/
def tomlDomainAllowlist (destinations : List Str) : Str :=
  str "features.network_proxy.domains=" ++ domainTable destinations

/-- `codex_task_egress_config_argv` -/
def codexTaskEgressConfigArgv (mode : NetworkMode) (destinations : List Str) :
    Except Policy.Error (List Str) := do
  if mode = .deny then
    ensure destinations.isEmpty (valueError (str "Codex network deny does not accept destinations"))
    return configArgv [str "sandbox_workspace_write.network_access=false"]
  ensure (mode = .allowlist) (valueError (str "Codex task egress mode must be deny or allowlist"))
  ensure (!destinations.isEmpty) (valueError (str "Codex network allowlist requires destinations"))
  return configArgv [
    str "sandbox_workspace_write.network_access=true",
    str "projects=\x7b \"/workspace\" = \x7b trust_level = \"untrusted\" \x7d \x7d",
    str "features.network_proxy.enabled=true",
    str "features.network_proxy.enable_socks5=false",
    str "features.network_proxy.enable_socks5_udp=false",
    str "features.network_proxy.allow_upstream_proxy=false",
    str "features.network_proxy.dangerously_allow_non_loopback_proxy=false",
    str "features.network_proxy.dangerously_allow_all_unix_sockets=false",
    str "features.network_proxy.mode=\"full\"",
    str "features.network_proxy.allow_local_binding=false",
    tomlDomainAllowlist destinations]

/-- The settings for the network of the task shell. -/
def codexNetworkArgv (access : Access) (network : TaskShellNetworkPolicy) :
    Except CompileError (List Str) :=
  if access = .read then
    if network.mode = .deny then .ok []
    else .error (unsupported
      (str "Codex read-only sandbox cannot enable task-shell network access"))
  else
    match network.mode with
    | .deny => compileLift (codexTaskEgressConfigArgv .deny [])
    | .allow => .ok (configArgv [str "sandbox_workspace_write.network_access=true",
        str "features.network_proxy.enabled=false"])
    | .allowlist => compileLift (codexTaskEgressConfigArgv .allowlist network.destinations.items)

/-- The settings that hide the state of the provider. -/
def codexCredentialArgv (policy : ExecutionPolicy) : Except CompileError (List Str) :=
  if policy.credentials.providerAuth.taskShell = .deny then do
    ensure policy.sandbox.required (unsupported
      (str "Codex provider-auth task-shell deny requires provider-native sandboxing"))
    compileLift (codexCredentialConfidentialityConfigArgv policy.workspace.access)
  else .ok []

/-- `CodexDriver._compile_execution_policy` -/
def codexCompileExecutionPolicy (policy : ExecutionPolicy) :
    Except CompileError ProviderPolicyArtifacts := do
  checkPolicyCapabilities policy codexDriver
  ensure (policy.workspace.access ≠ .none)
    (unsupported (str "Codex policy compiler cannot represent workspace.access=none"))
  let sandbox :=
    if policy.workspace.access = .read then str "read-only" else str "workspace-write"
  let network ← codexNetworkArgv policy.workspace.access policy.network.taskShell
  let credentials ← codexCredentialArgv policy
  compileLift (ProviderPolicyArtifacts.make {
    argv := [str "--sandbox", sandbox, str "-c", str "approval_policy=never"] ++ network ++
      credentials
    runtimeIsolation :=
      if policy.sandbox.required then codexSandboxIsolation else codexControlIsolation
  })

/-! ## Cursor -/

def cursorSandboxIsolation : RuntimeIsolationRequirements where
  uid := some 1000
  gid := some 1000
  nestedSandboxBootstrap := true
  checked := nestedBootstrap_checked

def cursorSandboxPolicyTarget : Str := cursorRuntimeHome ++ str "/.cursor/sandbox.json"

/-- `CURSOR_SANDBOX_PRIVATE_DENIES` -/
def cursorSandboxPrivateDenies : List Str :=
  [str "127.0.0.0/8", str "10.0.0.0/8", str "172.16.0.0/12", str "192.168.0.0/16",
    str "169.254.0.0/16", str "::1/128", str "fc00::/7", str "fe80::/10"]

/-- The document of `cursor_task_egress_sandbox_json`. -/
def sandboxDocument (workspaceAccess : Access) (allow : List Str) : Value :=
  record [
    ("type", .str (if workspaceAccess = .read then str "workspace_readonly"
      else str "workspace_readwrite")),
    ("networkPolicy", record [("default", .str (str "deny")), ("allow", .seq (allow.map .str)),
      ("deny", .seq (cursorSandboxPrivateDenies.map .str))])]

/-- The format of `json.dumps(document, sort_keys=True, separators=(",", ":"))`. -/
def sandboxFormat : Json.Format where
  sortKeys := true
  ensureAscii := true
  allowNan := true

/-- The documents hold no value that cannot be written. -/
def dumpsDocument (floats : Json.FloatText) (document : Value) : Except Policy.Error Str :=
  match Json.dumps floats sandboxFormat document with
  | .ok text => .ok text
  | .error _ => .error (valueError [])

/-- The destinations that the document allows. -/
def sandboxAllowed (mode : NetworkMode) (destinations : List Str) : Except Policy.Error (List Str) :=
  match mode with
  | .deny => do
    ensure destinations.isEmpty
      (valueError (str "Cursor network deny does not accept destinations"))
    return []
  | .allowlist => do
    ensure (!destinations.isEmpty)
      (valueError (str "Cursor network allowlist requires destinations"))
    return destinations
  | .allow => .error (valueError
      (str "Cursor sandbox task egress mode must be deny or allowlist"))

/-- `cursor_task_egress_sandbox_json` -/
def cursorTaskEgressSandboxJson (floats : Json.FloatText) (workspaceAccess : Access)
    (mode : NetworkMode) (destinations : List Str) : Except Policy.Error Str := do
  ensure (workspaceAccess ≠ .none)
    (valueError (str "Cursor sandbox policy requires workspace read or write access"))
  let allow ← sandboxAllowed mode destinations
  let text ← dumpsDocument floats (sandboxDocument workspaceAccess allow)
  return text ++ str "\n"

/-- `GeneratedPolicyFileSpec(...)` -/
def GeneratedPolicyFileSpec.make (fields : GeneratedPolicyFileSpec.Fields) :
    Except Policy.Error GeneratedPolicyFileSpec :=
  construct fun h => ⟨fields, h⟩

/-- `CursorDriver._compile_execution_policy` -/
def cursorCompileExecutionPolicy (floats : Json.FloatText) (policy : ExecutionPolicy) :
    Except CompileError ProviderPolicyArtifacts := do
  checkPolicyCapabilities policy cursorDriver
  ensure (policy.workspace.access ≠ .none)
    (unsupported (str "Cursor policy compiler cannot represent workspace.access=none"))
  ensure (!(policy.credentials.providerAuth.taskShell = .deny && !policy.sandbox.required))
    (unsupported
      (str "Cursor provider-auth task-shell deny requires provider-native sandboxing"))
  if policy.network.taskShell.mode = .allow then do
    ensure (!policy.sandbox.required) (unsupported (str ("Cursor cannot combine " ++
      "sandbox.required=true with unrestricted task-shell network")))
    compileLift (ProviderPolicyArtifacts.make {
      argv := [str "--sandbox", str "disabled"]
      runtimeIsolation := cursorControlIsolation
    })
  else do
    ensure policy.sandbox.required (unsupported (str ("Cursor deny/allowlist task-shell " ++
      "networking requires provider-native sandboxing")))
    let sandboxJson ← compileLift (cursorTaskEgressSandboxJson floats policy.workspace.access
      policy.network.taskShell.mode policy.network.taskShell.destinations.items)
    let file ← compileLift (GeneratedPolicyFileSpec.make {
      name := str "sandbox.json"
      target := cursorSandboxPolicyTarget
      content := sandboxJson
      readOnly := true
    })
    compileLift (ProviderPolicyArtifacts.make {
      generatedFiles := [file]
      argv := [str "--sandbox", str "enabled"]
      runtimeIsolation := cursorSandboxIsolation
    })

end AgentDev.Agents
