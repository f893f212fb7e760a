import AgentDev.Python.Values
import Mathlib.Algebra.Group.Int.Defs

/-!
# The execution-policy schema

`policy/schema.py`: complete execution policies, their validation from a mapping, and back. A
value of these types is valid by construction: the choices are enumerations, limits are
positive, and the destinations of the task shell are sorted, distinct, well formed, and present
exactly in allowlist mode.
-/

namespace AgentDev.Policy

open Python

/-! ## Errors -/

/-- A part of an error text: characters, or a value whose `repr` is shown. -/
inductive Piece
  | text (s : Str)
  | repr (value : Value)

abbrev Message := List Piece

inductive Error
  /-- `TypeError` -/
  | type (message : Message)
  /-- `ValueError` -/
  | value (message : Message)
  /-- `KeyError`, of a field that has not been checked to be there -/
  | key (name : Str)
  /-- `PolicyEscalationError` -/
  | escalation (layer field : Str) (upper lower : Value)

def valueError (text : Str) : Error := .value [.text text]

/-! ## Fields -/

theorem bind_ok_iff {ε α β : Type} {x : Except ε α} {f : α → Except ε β} {b : β} :
    x >>= f = .ok b ↔ ∃ a, x = .ok a ∧ f a = .ok b := by
  cases x with
  | error e =>
    constructor
    · intro h
      cases h
    · rintro ⟨a, h, -⟩
      cases h
  | ok a =>
    constructor
    · intro h
      exact ⟨a, rfl, h⟩
    · rintro ⟨a', h, hf⟩
      cases h
      exact hf

def requireMapping (value : Value) (path : Str) : Except Error Dict :=
  match value with
  | .dict items =>
    if Dict.hasNames items then .ok items
    else .error (valueError (path ++ str " field names must be strings"))
  | _ => .error (valueError (path ++ str " must be an object"))

def requireFields (value : Value) (path : Str) (required optional : List Str) :
    Except Error Dict := do
  let mapping ← requireMapping value path
  let unknown := sorted (mapping.names.filter fun name => name ∉ required ∧ name ∉ optional)
  let missing := sorted (required.filter fun name => name ∉ mapping.names)
  if unknown ≠ [] then
    .error (valueError (path ++ str " contains unknown fields: " ++ join (str ", ") unknown))
  else if missing ≠ [] then
    .error (valueError (path ++ str " is missing required fields: " ++ join (str ", ") missing))
  else .ok mapping

/-- `data[name]` -/
def item (data : Dict) (name : Str) : Except Error Value :=
  match data.get? name with
  | some value => .ok value
  | none => .error (.key name)

theorem requireMapping_ok {value : Value} {path : Str} {data : Dict}
    (h : requireMapping value path = .ok data) :
    value = .dict data ∧ data.hasNames = true := by
  cases value with
  | dict items =>
    simp only [requireMapping] at h
    split at h
    · rename_i hnames
      cases h
      exact ⟨rfl, hnames⟩
    · cases h
  | _ => cases h

theorem requireFields_ok {value : Value} {path : Str} {required optional : List Str} {data : Dict}
    (h : requireFields value path required optional = .ok data) :
    value = .dict data ∧ data.hasNames = true ∧
      ∀ name ∈ data.names, name ∈ required ∨ name ∈ optional := by
  obtain ⟨mapping, hmapping, h⟩ := bind_ok_iff.mp h
  obtain ⟨hvalue, hnames⟩ := requireMapping_ok hmapping
  simp only [] at h
  split at h
  · cases h
  · rename_i hunknown
    split at h
    · cases h
    · cases h
      refine ⟨hvalue, hnames, fun name hname => ?_⟩
      by_contra hnot
      refine hunknown fun hempty => ?_
      have hmem : name ∈ sorted (data.names.filter fun name =>
          name ∉ required ∧ name ∉ optional) := by
        rw [sorted, List.mem_insertionSort, List.mem_filter]
        exact ⟨hname, by simpa using not_or.mp hnot⟩
      rw [hempty] at hmem
      cases hmem

theorem item_ok {data : Dict} {name : Str} {value : Value} (h : item data name = .ok value) :
    data.get? name = some value := by
  unfold item at h
  split at h
  · rename_i found hfound
    cases h
    exact hfound
  · cases h

/-- The texts that stand for the values of an enumeration, in their order. -/
abbrev Choices (α : Type) := List (Str × α)

def requireChoice {α : Type} (value : Value) (path : Str) (allowed : Choices α) :
    Except Error α :=
  let failure := valueError
    (path ++ str " must be one of: " ++ join (str ", ") (allowed.map Prod.fst))
  match value with
  | .str text =>
    match allowed.lookup text with
    | some choice => .ok choice
    | none => .error failure
  | _ => .error failure

theorem requireChoice_ok {α : Type} {choices : Choices α} {path : Str} {value : Value} {a : α}
    (h : requireChoice value path choices = .ok a) :
    ∃ text, value = .str text ∧ choices.lookup text = some a := by
  cases value with
  | str text =>
    simp only [requireChoice] at h
    split at h
    · rename_i choice hchoice
      cases h
      exact ⟨text, rfl, hchoice⟩
    · cases h
  | _ => cases h

def requireBool (value : Value) (path : Str) : Except Error Bool :=
  match value with
  | .bool b => .ok b
  | _ => .error (valueError (path ++ str " must be boolean"))

def requirePositiveInt (value : Value) (path : Str) : Except Error { n : Int // 0 < n } :=
  let failure := valueError (path ++ str " must be a positive integer")
  match value with
  | .int n => if h : 0 < n then .ok ⟨n, h⟩ else .error failure
  | _ => .error failure

/-- A float with an integral value becomes that integer; the value is the same. -/
def normalizeCpu (value : Value) : Except Error { q : Rat // 0 < q } :=
  match value with
  | .int n =>
    if h : 0 < n then .ok ⟨n, by exact_mod_cast h⟩
    else .error (valueError (str "resources.cpu must be a positive number"))
  | .float (.finite q) =>
    if h : 0 < q then .ok ⟨q, h⟩
    else .error (valueError (str "resources.cpu must be a positive finite number"))
  | .float _ => .error (valueError (str "resources.cpu must be a positive finite number"))
  | _ => .error (valueError (str "resources.cpu must be a positive number"))

/-- `_MEMORY_MULTIPLIERS`, of the suffix in either case. -/
def memoryMultiplier (suffix : Str) : Option Int :=
  if suffix = [] then some 1
  else if suffix = str "k" ∨ suffix = str "K" then some 1024
  else if suffix = str "m" ∨ suffix = str "M" then some (1024 ^ 2)
  else if suffix = str "g" ∨ suffix = str "G" then some (1024 ^ 3)
  else if suffix = str "t" ∨ suffix = str "T" then some (1024 ^ 4)
  else none

/-- `int` refuses longer texts (`sys.int_info.default_max_str_digits`). -/
def maxStrDigits : Nat := 4300

/-- `([1-9][0-9]*)([kKmMgGtT]?)` -/
def normalizeMemory (value : Value) : Except Error Int :=
  let failure := valueError
    (str "resources.memory must be positive integer bytes or an integer k/m/g/t quantity")
  match value with
  | .int n =>
    if 0 < n then .ok n else .error (valueError (str "resources.memory must be positive"))
  | .str text =>
    let digits := text.takeWhile fun c => (digit? c).isSome
    match digits.head?, memoryMultiplier (text.dropWhile fun c => (digit? c).isSome) with
    | some first, some multiplier =>
      if digit? first = some 0 then .error failure
      else if maxStrDigits < digits.length then
        .error (valueError (str (s!"Exceeds the limit ({maxStrDigits} digits) for integer string " ++
          s!"conversion: value has {digits.length} digits; use sys.set_int_max_str_digits() " ++
          "to increase the limit")))
      else .ok (natOfDigits digits * multiplier)
    | _, _ => .error failure
  | _ => .error failure

/-! ## Destinations -/

def validDestination (item : Str) : Bool :=
  item ≠ [] && item = strip item && 0 ∉ item && 10 ∉ item

/-- A normalized list of destinations. -/
structure Destinations where
  items : List Str
  sorted : items.Pairwise (· < ·)
  valid : ∀ item ∈ items, validDestination item = true

def checkDestinations (seen : List Str) : List Value → Except Error (List Str)
  | [] => .ok seen
  | value :: rest =>
    let failure := valueError (str ("network.task_shell destinations must be non-empty " ++
      "single-line strings without surrounding whitespace"))
    match value with
    | .str item =>
      if validDestination item then
        if item ∈ seen then
          .error (.value [.text (str "network.task_shell contains duplicate destination "),
            .repr value])
        else checkDestinations (seen ++ [item]) rest
      else .error failure
    | _ => .error failure

theorem checkDestinations_ok {seen result : List Str} {values : List Value}
    (h : checkDestinations seen values = .ok result) (hnodup : seen.Nodup)
    (hvalid : ∀ item ∈ seen, validDestination item = true) :
    result.Nodup ∧ ∀ item ∈ result, validDestination item = true := by
  induction values generalizing seen with
  | nil =>
    cases h
    exact ⟨hnodup, hvalid⟩
  | cons value rest ih =>
    cases value with
    | str item =>
      simp only [checkDestinations] at h
      split at h
      · rename_i hitem
        split at h
        · cases h
        · rename_i hnew
          apply ih h
          · rw [List.nodup_append]
            refine ⟨hnodup, List.nodup_singleton item, fun a ha b hb => ?_⟩
            rw [List.mem_singleton.mp hb]
            rintro rfl
            exact hnew ha
          · intro other hother
            rcases List.mem_append.mp hother with hold | hlast
            · exact hvalid other hold
            · rw [List.mem_singleton.mp hlast]
              exact hitem
      · cases h
    | _ => cases h

/-- Sorting distinct strings leaves no equal neighbours. -/
theorem sorted_pairwise {strings : List Str} (h : strings.Nodup) :
    (sorted strings).Pairwise (· < ·) := by
  have hle : (sorted strings).Pairwise (· ≤ ·) := List.pairwise_insertionSort ..
  have hnodup : (sorted strings).Nodup := (List.perm_insertionSort ..).nodup_iff.mpr h
  exact hle.imp₂ (fun _ _ hab hne => lt_of_le_of_ne hab hne) hnodup

def normalizeDestinations (value : Value) : Except Error Destinations :=
  match value with
  | .seq values =>
    match h : checkDestinations [] values with
    | .ok result =>
      have hresult := checkDestinations_ok h List.nodup_nil fun _ hitem => nomatch hitem
      .ok ⟨sorted result, sorted_pairwise hresult.1, fun item hitem =>
        hresult.2 item ((List.mem_insertionSort _).mp hitem)⟩
    | .error error => .error error
  | _ => .error (valueError (str "network.task_shell.destinations must be a list or tuple"))

theorem checkDestinations_eq {seen result : List Str} {values : List Value}
    (h : checkDestinations seen values = .ok result) :
    ∃ items, values = items.map .str ∧ result = seen ++ items := by
  induction values generalizing seen with
  | nil =>
    cases h
    exact ⟨[], rfl, (List.append_nil _).symm⟩
  | cons value rest ih =>
    cases value with
    | str item =>
      simp only [checkDestinations] at h
      split at h
      · split at h
        · cases h
        · obtain ⟨items, rfl, rfl⟩ := ih h
          exact ⟨item :: items, rfl, by simp⟩
      · cases h
    | _ => cases h

theorem normalizeDestinations_ok {value : Value} {destinations : Destinations}
    (h : normalizeDestinations value = .ok destinations) :
    ∃ strings : List Str, value = .seq (strings.map .str) ∧
      destinations.items = Python.sorted strings := by
  cases value with
  | seq values =>
    unfold normalizeDestinations at h
    simp only [] at h
    split at h
    · rename_i result hresult
      obtain ⟨strings, rfl, hstrings⟩ := checkDestinations_eq hresult
      cases h
      exact ⟨strings, rfl, congrArg Python.sorted hstrings⟩
    · cases h
  | _ => cases h

/-! ## Policies -/

inductive Access
  | none
  | read
  | write
  deriving DecidableEq

inductive ReferenceAccess
  | none
  | read
  deriving DecidableEq

inductive ExternalAccess
  | deny
  | read
  | write
  deriving DecidableEq

inductive NetworkMode
  | deny
  | allowlist
  | allow
  deriving DecidableEq

inductive Visibility
  | deny
  | allow
  deriving DecidableEq

inductive SecurityClass
  | hardened
  | compatibility
  deriving DecidableEq

/-- `_WORKSPACE_ACCESS` -/
def Access.choices : Choices Access :=
  [(str "none", .none), (str "read", .read), (str "write", .write)]

/-- `_REFERENCE_ACCESS` -/
def ReferenceAccess.choices : Choices ReferenceAccess :=
  [(str "none", .none), (str "read", .read)]

/-- `_EXTERNAL_FILESYSTEM_ACCESS` -/
def ExternalAccess.choices : Choices ExternalAccess :=
  [(str "deny", .deny), (str "read", .read), (str "write", .write)]

/-- `_TASK_SHELL_NETWORK_MODES` -/
def NetworkMode.choices : Choices NetworkMode :=
  [(str "allow", .allow), (str "allowlist", .allowlist), (str "deny", .deny)]

/-- `_CREDENTIAL_VISIBILITY` -/
def Visibility.choices : Choices Visibility := [(str "allow", .allow), (str "deny", .deny)]

/-- `_SECURITY_CLASSES` -/
def SecurityClass.choices : Choices SecurityClass :=
  [(str "compatibility", .compatibility), (str "hardened", .hardened)]

def Access.text : Access → Str
  | .none => str "none"
  | .read => str "read"
  | .write => str "write"

def ReferenceAccess.text : ReferenceAccess → Str
  | .none => str "none"
  | .read => str "read"

def ExternalAccess.text : ExternalAccess → Str
  | .deny => str "deny"
  | .read => str "read"
  | .write => str "write"

def NetworkMode.text : NetworkMode → Str
  | .deny => str "deny"
  | .allowlist => str "allowlist"
  | .allow => str "allow"

def Visibility.text : Visibility → Str
  | .deny => str "deny"
  | .allow => str "allow"

def SecurityClass.text : SecurityClass → Str
  | .hardened => str "hardened"
  | .compatibility => str "compatibility"

structure WorkspacePolicy where
  access : Access

structure ReferencePolicy where
  access : ReferenceAccess

structure FilesystemPolicy where
  external : ExternalAccess

structure TaskShellNetworkPolicy where
  mode : NetworkMode
  destinations : Destinations
  listed : mode = .allowlist ↔ destinations.items ≠ []

structure NetworkPolicy where
  taskShell : TaskShellNetworkPolicy

structure ProviderAuthPolicy where
  taskShell : Visibility

structure CredentialsPolicy where
  providerAuth : ProviderAuthPolicy

structure GitPolicy where
  read : Bool
  commit : Bool
  push : Bool

structure SandboxPolicy where
  required : Bool

structure PolicyResourceLimits where
  cpu : Rat
  memoryBytes : Int
  pids : Int
  cpu_pos : 0 < cpu
  memoryBytes_pos : 0 < memoryBytes
  pids_pos : 0 < pids

/-- `_POLICY_VERSION` -/
def policyVersion : Int := 1

structure ExecutionPolicy where
  version : Int
  workspace : WorkspacePolicy
  reference : ReferencePolicy
  filesystem : FilesystemPolicy
  network : NetworkPolicy
  credentials : CredentialsPolicy
  git : GitPolicy
  sandbox : SandboxPolicy
  resources : PolicyResourceLimits
  securityClass : SecurityClass
  version_eq : version = policyVersion

/-! ## From mappings -/

def WorkspacePolicy.fromDict (value : Value) : Except Error WorkspacePolicy := do
  let data ← requireFields value (str "workspace") [str "access"] []
  return ⟨← requireChoice (← item data (str "access")) (str "workspace.access") Access.choices⟩

def ReferencePolicy.fromDict (value : Value) : Except Error ReferencePolicy := do
  let data ← requireFields value (str "reference") [str "access"] []
  return ⟨← requireChoice (← item data (str "access")) (str "reference.access")
    ReferenceAccess.choices⟩

def FilesystemPolicy.fromDict (value : Value) : Except Error FilesystemPolicy := do
  let data ← requireFields value (str "filesystem") [str "external"] []
  return ⟨← requireChoice (← item data (str "external")) (str "filesystem.external")
    ExternalAccess.choices⟩

/-- The constructor, for destinations that are normalized already. -/
def TaskShellNetworkPolicy.make (mode : NetworkMode) (destinations : Destinations) :
    Except Error TaskShellNetworkPolicy :=
  if hmode : mode = .allowlist then
    if hitems : destinations.items = [] then
      .error (valueError (str "network.task_shell allowlist mode requires destinations"))
    else .ok ⟨mode, destinations, by simp [hmode, hitems]⟩
  else
    if hitems : destinations.items = [] then .ok ⟨mode, destinations, by simp [hmode, hitems]⟩
    else .error (valueError (str ("network.task_shell destinations are only valid in " ++
      "allowlist mode")))

def TaskShellNetworkPolicy.fromDict (value : Value) : Except Error TaskShellNetworkPolicy := do
  let data ← requireFields value (str "network.task_shell") [str "mode"] [str "destinations"]
  let mode ← requireChoice (← item data (str "mode")) (str "network.task_shell.mode")
    NetworkMode.choices
  let destinations ← normalizeDestinations
    ((data.get? (str "destinations")).getD (.seq []))
  TaskShellNetworkPolicy.make mode destinations

def NetworkPolicy.fromDict (value : Value) : Except Error NetworkPolicy := do
  let data ← requireFields value (str "network") [str "task_shell"] []
  return ⟨← TaskShellNetworkPolicy.fromDict (← item data (str "task_shell"))⟩

def ProviderAuthPolicy.fromDict (value : Value) : Except Error ProviderAuthPolicy := do
  let data ← requireFields value (str "credentials.provider_auth") [str "task_shell"] []
  return ⟨← requireChoice (← item data (str "task_shell"))
    (str "credentials.provider_auth.task_shell") Visibility.choices⟩

def CredentialsPolicy.fromDict (value : Value) : Except Error CredentialsPolicy := do
  let data ← requireFields value (str "credentials") [str "provider_auth"] []
  return ⟨← ProviderAuthPolicy.fromDict (← item data (str "provider_auth"))⟩

def GitPolicy.fromDict (value : Value) : Except Error GitPolicy := do
  let data ← requireFields value (str "git") [str "read", str "commit", str "push"] []
  return ⟨← requireBool (← item data (str "read")) (str "git.read"),
    ← requireBool (← item data (str "commit")) (str "git.commit"),
    ← requireBool (← item data (str "push")) (str "git.push")⟩

def SandboxPolicy.fromDict (value : Value) : Except Error SandboxPolicy := do
  let data ← requireFields value (str "sandbox") [str "required"] []
  return ⟨← requireBool (← item data (str "required")) (str "sandbox.required")⟩

/-- The constructor checks the bytes of a memory limit once more. -/
def PolicyResourceLimits.fromDict (value : Value) : Except Error PolicyResourceLimits := do
  let data ← requireFields value (str "resources") [str "cpu", str "memory", str "pids"] []
  let cpu ← normalizeCpu (← item data (str "cpu"))
  let memory ← normalizeMemory (← item data (str "memory"))
  let pids ← requirePositiveInt (← item data (str "pids")) (str "resources.pids")
  let memoryBytes ← requirePositiveInt (.int memory) (str "resources.memory_bytes")
  return ⟨cpu.val, memoryBytes.val, pids.val, cpu.property, memoryBytes.property, pids.property⟩

def requireVersion (value : Value) : Except Error { n : Int // n = policyVersion } :=
  let failure := valueError (str s!"version must be {policyVersion}")
  match value with
  | .int n => if h : n = policyVersion then .ok ⟨n, h⟩ else .error failure
  | _ => .error failure

def ExecutionPolicy.fields : List Str :=
  [str "version", str "workspace", str "reference", str "filesystem", str "network",
    str "credentials", str "git", str "sandbox", str "resources", str "security_class"]

def ExecutionPolicy.fromDict (value : Value) : Except Error ExecutionPolicy := do
  let data ← requireFields value (str "policy") ExecutionPolicy.fields []
  let version ← requireVersion (← item data (str "version"))
  let workspace ← WorkspacePolicy.fromDict (← item data (str "workspace"))
  let reference ← ReferencePolicy.fromDict (← item data (str "reference"))
  let filesystem ← FilesystemPolicy.fromDict (← item data (str "filesystem"))
  let network ← NetworkPolicy.fromDict (← item data (str "network"))
  let credentials ← CredentialsPolicy.fromDict (← item data (str "credentials"))
  let git ← GitPolicy.fromDict (← item data (str "git"))
  let sandbox ← SandboxPolicy.fromDict (← item data (str "sandbox"))
  let resources ← PolicyResourceLimits.fromDict (← item data (str "resources"))
  let securityClass ← requireChoice (← item data (str "security_class")) (str "security_class")
    SecurityClass.choices
  return ⟨version.val, workspace, reference, filesystem, network, credentials, git, sandbox,
    resources, securityClass, version.property⟩

/-! ## To mappings -/

def items (fields : List (String × Value)) : Dict :=
  fields.map fun field => (.str (str field.1), field.2)

def record (fields : List (String × Value)) : Value := .dict (items fields)

def WorkspacePolicy.asDict (p : WorkspacePolicy) : Value := record [("access", .str p.access.text)]

def ReferencePolicy.asDict (p : ReferencePolicy) : Value := record [("access", .str p.access.text)]

def FilesystemPolicy.asDict (p : FilesystemPolicy) : Value :=
  record [("external", .str p.external.text)]

def TaskShellNetworkPolicy.asDict (p : TaskShellNetworkPolicy) : Value :=
  record [("mode", .str p.mode.text), ("destinations", .seq (p.destinations.items.map .str))]

def NetworkPolicy.asDict (p : NetworkPolicy) : Value := record [("task_shell", p.taskShell.asDict)]

def ProviderAuthPolicy.asDict (p : ProviderAuthPolicy) : Value :=
  record [("task_shell", .str p.taskShell.text)]

def CredentialsPolicy.asDict (p : CredentialsPolicy) : Value :=
  record [("provider_auth", p.providerAuth.asDict)]

def GitPolicy.asDict (p : GitPolicy) : Value :=
  record [("read", .bool p.read), ("commit", .bool p.commit), ("push", .bool p.push)]

def SandboxPolicy.asDict (p : SandboxPolicy) : Value := record [("required", .bool p.required)]

/-- An integral number of CPUs is an `int`. -/
def cpuValue (cpu : Rat) : Value := if cpu.den = 1 then .int cpu.num else .float (.finite cpu)

def PolicyResourceLimits.asDict (p : PolicyResourceLimits) : Value :=
  record [("cpu", cpuValue p.cpu), ("memory", .int p.memoryBytes), ("pids", .int p.pids)]

def ExecutionPolicy.asDict (p : ExecutionPolicy) : Dict :=
  items [("version", .int p.version), ("workspace", p.workspace.asDict),
    ("reference", p.reference.asDict), ("filesystem", p.filesystem.asDict),
    ("network", p.network.asDict), ("credentials", p.credentials.asDict), ("git", p.git.asDict),
    ("sandbox", p.sandbox.asDict), ("resources", p.resources.asDict),
    ("security_class", .str p.securityClass.text)]

end AgentDev.Policy
