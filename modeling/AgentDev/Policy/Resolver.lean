import AgentDev.Policy.Schema

/-!
# Resolving policies

`policy/resolver.py`: a complete platform baseline and up to three sparse layers above it. Each
layer is overlaid on the effective policy, the result is validated as a complete policy
again, and it is refused when it is wider than the effective policy in some field.
-/

namespace AgentDev.Policy

open Python

/-! ## Overlaying a layer -/

/-- `_require_restrictions` -/
def requireRestrictions (value : Value) (name : Str) : Except Error Dict :=
  match value with
  | .dict items =>
    if Dict.hasNames items then .ok items
    else .error (valueError (name ++ str " field names must be strings"))
  | _ => .error (.type [.text (name ++ str " must be a mapping")])

def fieldPath (path name : Str) : Str := if path = [] then name else path ++ str "." ++ name

/-- Destinations that are not restated are not inherited into a mode in which they are invalid. -/
def clearDestinations (path : Str) (restrictions result : Dict) : Dict :=
  match restrictions.get? (str "mode") with
  | some mode =>
    if path = str "network.task_shell" ∧ mode.isStr (str "allowlist") = false ∧
        restrictions.contains (str "destinations") = false then
      result.set (.str (str "destinations")) (.seq [])
    else result
  | none => result

mutual

/-- The value of a field after a layer that restates it as `value`. -/
def mergeValue (layer path : Str) (baseValue : Value) : Value → Except Error Value
  | .dict restrictions =>
    match baseValue with
    | .dict base =>
      if Dict.hasNames restrictions then do
        let result ← mergeItems layer path base base restrictions
        return .dict (clearDestinations path restrictions result)
      else .error (valueError (layer ++ str "." ++ path ++ str " field names must be strings"))
    | _ => .ok (.dict restrictions)
  | value => .ok value

/-- The items of a layer one after the other, into `result`. -/
def mergeItems (layer path : Str) (base result : Dict) : List (Key × Value) → Except Error Dict
  | [] => .ok result
  | (key, value) :: rest =>
    match key with
    | .other => .error (valueError (layer ++ str "." ++ path ++ str " field names must be strings"))
    | .str name =>
      match base.get? name with
      | none =>
        .error (valueError
          (layer ++ str "." ++ fieldPath path name ++ str " is an unknown policy field"))
      | some baseValue => do
        let merged ← mergeValue layer (fieldPath path name) baseValue value
        mergeItems layer path base (result.set key merged) rest

end

def mergeRestrictions (base restrictions : Dict) (layer : Str) : Except Error Dict := do
  let result ← mergeItems layer [] base base restrictions
  return clearDestinations [] restrictions result

/-- A `ValueError` is raised again under the name of the layer. -/
def underLayer {α : Type} (layer : Str) (result : Except Error α) : Except Error α :=
  match result with
  | .error (.value message) => .error (.value (.text (layer ++ str ": ") :: message))
  | result => result

def candidateFromLayer (effective : ExecutionPolicy) (restrictions : Dict) (layer : Str) :
    Except Error ExecutionPolicy := do
  let merged ← mergeRestrictions effective.asDict restrictions layer
  underLayer layer (ExecutionPolicy.fromDict (.dict merged))

/-! ## Comparing policies -/

def Access.order : Access → Nat
  | .none => 0
  | .read => 1
  | .write => 2

def ReferenceAccess.order : ReferenceAccess → Nat
  | .none => 0
  | .read => 1

def ExternalAccess.order : ExternalAccess → Nat
  | .deny => 0
  | .read => 1
  | .write => 2

def NetworkMode.order : NetworkMode → Nat
  | .deny => 0
  | .allowlist => 1
  | .allow => 2

def Visibility.order : Visibility → Nat
  | .deny => 0
  | .allow => 1

def SecurityClass.order : SecurityClass → Nat
  | .compatibility => 0
  | .hardened => 1

/-- The refusal of a field in which a layer is wider. -/
def requireNot (wider : Bool) (layer : Str) (field : String) (upper lower : Value) :
    Except Error Unit :=
  if wider then .error (.escalation layer (str field) upper lower) else .ok ()

def requireRankNotWider {α : Type} (layer : Str) (field : String) (upper lower : α)
    (text : α → Str) (order : α → Nat) : Except Error Unit :=
  requireNot (order upper < order lower) layer field (.str (text upper)) (.str (text lower))

def requirePermissionNotWider (layer : Str) (field : String) (upper lower : Bool) :
    Except Error Unit :=
  requireNot (lower && !upper) layer field (.bool upper) (.bool lower)

def requireRequirementNotWeaker (layer : Str) (field : String) (upper lower : Bool) :
    Except Error Unit :=
  requireNot (upper && !lower) layer field (.bool upper) (.bool lower)

def requireLimitNotWider {α : Type} [LT α] [DecidableLT α] (layer : Str) (field : String)
    (upper lower : α) (value : α → Value) : Except Error Unit :=
  requireNot (upper < lower) layer field (value upper) (value lower)

def validateNetworkNarrowing (layer : Str) (upper lower : ExecutionPolicy) : Except Error Unit := do
  let upperNetwork := upper.network.taskShell
  let lowerNetwork := lower.network.taskShell
  requireRankNotWider layer "network.task_shell.mode" upperNetwork.mode lowerNetwork.mode
    NetworkMode.text NetworkMode.order
  if upperNetwork.mode = .allowlist ∧ lowerNetwork.mode = .allowlist then
    requireNot (!(lowerNetwork.destinations.items ⊆ upperNetwork.destinations.items)) layer
      "network.task_shell.destinations" (.seq (upperNetwork.destinations.items.map .str))
      (.seq (lowerNetwork.destinations.items.map .str))

def validateNarrowing (layer : Str) (upper lower : ExecutionPolicy) : Except Error Unit := do
  requireNot (lower.version ≠ upper.version) layer "version" (.int upper.version)
    (.int lower.version)
  requireRankNotWider layer "workspace.access" upper.workspace.access lower.workspace.access
    Access.text Access.order
  requireRankNotWider layer "reference.access" upper.reference.access lower.reference.access
    ReferenceAccess.text ReferenceAccess.order
  requireRankNotWider layer "filesystem.external" upper.filesystem.external
    lower.filesystem.external ExternalAccess.text ExternalAccess.order
  validateNetworkNarrowing layer upper lower
  requireRankNotWider layer "credentials.provider_auth.task_shell"
    upper.credentials.providerAuth.taskShell lower.credentials.providerAuth.taskShell
    Visibility.text Visibility.order
  requirePermissionNotWider layer "git.read" upper.git.read lower.git.read
  requirePermissionNotWider layer "git.commit" upper.git.commit lower.git.commit
  requirePermissionNotWider layer "git.push" upper.git.push lower.git.push
  requireRequirementNotWeaker layer "sandbox.required" upper.sandbox.required lower.sandbox.required
  requireLimitNotWider layer "resources.cpu" upper.resources.cpu lower.resources.cpu cpuValue
  requireLimitNotWider layer "resources.memory" upper.resources.memoryBytes
    lower.resources.memoryBytes Value.int
  requireLimitNotWider layer "resources.pids" upper.resources.pids lower.resources.pids Value.int
  requireNot (lower.securityClass.order < upper.securityClass.order) layer "security_class"
    (.str upper.securityClass.text) (.str lower.securityClass.text)

/-! ## The hierarchy -/

/-- One layer, which may be absent. -/
def applyLayer (effective : ExecutionPolicy) (name : Str) (value : Option Value) :
    Except Error ExecutionPolicy :=
  match value with
  | none => .ok effective
  | some value => do
    let restrictions ← requireRestrictions value name
    let candidate ← candidateFromLayer effective restrictions name
    validateNarrowing name effective candidate
    return candidate

/-- `PolicyResolver.resolve` -/
def resolve (platformBaseline : ExecutionPolicy)
    (projectPolicy executionProfile runRestrictions : Option Value) :
    Except Error ExecutionPolicy := do
  let effective ← applyLayer platformBaseline (str "project_policy") projectPolicy
  let effective ← applyLayer effective (str "execution_profile") executionProfile
  applyLayer effective (str "run_restrictions") runRestrictions

end AgentDev.Policy
