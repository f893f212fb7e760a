import AgentDev.Agents.Capabilities
import AgentDev.Policy.Narrowing

/-!
# Matching capabilities

`policy/capabilities.py`: the names of the capabilities that a policy requires, the names that an
agent has, and the check that none is missing. What an agent declares in its typed fields is put
under a prefix into the same set of names as its policy capabilities, which are free text. The
prefixes keep the typed fields apart from each other (`text_injective`) and from the compatibility
modes, but a policy capability can be any of the names.
-/

namespace AgentDev.Policy

open Python Agents

/-! ## Names -/

/-- `_require_capability_name` -/
def validCapabilityName (value : Str) : Bool :=
  value ≠ [] && value = strip value && 0 ∉ value && 10 ∉ value

def capabilityNameMessage : Message :=
  [.text (str ("capability names must be non-empty single-line strings without surrounding " ++
    "whitespace"))]

def securityClassPrefix : Str := str "security_class:"

def workspacePrefix : Str := str "workspace:"

def compatibilityPrefix : Str := str "compatibility:"

/-! ## Requirements -/

structure CapabilityRequirement where
  required : Finset Str
  valid : ∀ name ∈ required, validCapabilityName name = true

/-- The names that a policy requires. -/
def requiredNames (policy : ExecutionPolicy) : List Str :=
  let access :=
    match policy.workspace.access with
    | .none => []
    | .read => [str "workspace:readonly"]
    | .write => [str "workspace:writable"]
  let hardened :=
    if policy.securityClass = .hardened then
      (if policy.sandbox.required then [str "filesystem_sandbox"] else []) ++
      (match policy.network.taskShell.mode with
        | .deny => [str "network_deny"]
        | .allowlist => [str "network_allowlist"]
        | .allow => []) ++
      (if policy.credentials.providerAuth.taskShell = .deny then [str "provider_state_protection"]
        else [])
    else []
  (securityClassPrefix ++ policy.securityClass.text) :: access ++ hardened

theorem requiredNames_valid (policy : ExecutionPolicy) :
    ∀ name ∈ (requiredNames policy).toFinset, validCapabilityName name = true := by
  intro name hname
  have hfixed : ∀ fixed : List Str, fixed.all validCapabilityName = true → name ∈ fixed →
      validCapabilityName name = true := fun fixed hall hmem => List.all_eq_true.mp hall name hmem
  rw [List.mem_toFinset, requiredNames, List.mem_append, List.mem_cons] at hname
  rcases hname with (rfl | haccess) | hhardened
  · cases policy.securityClass <;> decide
  · split at haccess
    · exact hfixed _ (by decide) haccess
    · exact hfixed _ (by decide) haccess
    · exact hfixed _ (by decide) haccess
  · split at hhardened
    · simp only [List.mem_append] at hhardened
      rcases hhardened with (hsandbox | hnetwork) | hcredentials
      · split at hsandbox
        · exact hfixed _ (by decide) hsandbox
        · exact hfixed _ (by decide) hsandbox
      · split at hnetwork
        · exact hfixed _ (by decide) hnetwork
        · exact hfixed _ (by decide) hnetwork
        · exact hfixed _ (by decide) hnetwork
      · split at hcredentials
        · exact hfixed _ (by decide) hcredentials
        · exact hfixed _ (by decide) hcredentials
    · exact hfixed _ (by decide) hhardened

/-- `CapabilityRequirement.from_policy` -/
def CapabilityRequirement.fromPolicy (policy : ExecutionPolicy) : CapabilityRequirement :=
  ⟨(requiredNames policy).toFinset, requiredNames_valid policy⟩

/-! ## Matching -/

/-- `available_capabilities` -/
def availableCapabilities (capabilities : AgentCapabilities) : Finset Str :=
  capabilities.policyCapabilities ∪ capabilities.workspaceModes.image (workspacePrefix ++ ·) ∪
    capabilities.securityClasses.image (securityClassPrefix ++ ·) ∪
    capabilities.compatibilityModes.image (compatibilityPrefix ++ ·) ∪
    (if capabilities.interactiveRun then {str "interactive-run"} else ∅) ∪
    (if capabilities.nativeSandbox then {str "filesystem_sandbox"} else ∅)

/-- `CapabilityRequirement.missing_from` -/
def CapabilityRequirement.missingFrom (requirement : CapabilityRequirement)
    (capabilities : AgentCapabilities) : List Str :=
  (requirement.required \ availableCapabilities capabilities).sort (· ≤ ·)

inductive CapabilityError
  /-- `ValueError` -/
  | value (message : Message)
  /-- `MissingCapabilitiesError` -/
  | missing (missing : List Str) (agentId : Option Str) (message : Message)

/-- `MissingCapabilitiesError(...)`: an identifier of the agent is checked, too. -/
def missingCapabilities (missing : Finset Str) (agentId : Option Str) : CapabilityError :=
  let names := missing.sort (· ≤ ·)
  let tail := str "; missing capabilities: " ++ join (str ", ") names
  match agentId with
  | none => .missing names none [.text (str "agent cannot satisfy execution policy" ++ tail)]
  | some id =>
    if validCapabilityName id then
      .missing names (some id) [.text (str "agent "), .repr (.str id),
        .text (str " cannot satisfy execution policy" ++ tail)]
    else .value capabilityNameMessage

/-- What a caller can require: a requirement, or an iterable of names. -/
inductive Required
  | requirement (requirement : CapabilityRequirement)
  | names (names : List Value)

def Required.Mentions (required : Required) (name : Str) : Prop :=
  match required with
  | .requirement r => name ∈ r.required
  | .names n => .str name ∈ n

def checkNames : List Value → Except CapabilityError (Finset Str)
  | [] => .ok ∅
  | .str name :: rest =>
    if validCapabilityName name then insert name <$> checkNames rest
    else .error (.value capabilityNameMessage)
  | _ :: _ => .error (.value capabilityNameMessage)

def requireCapabilities (required : Required) (capabilities : AgentCapabilities)
    (agentId : Option Str) : Except CapabilityError Unit := do
  let requiredSet ← match required with
    | .requirement r => Except.ok r.required
    | .names names => checkNames names
  let missing := requiredSet \ availableCapabilities capabilities
  if missing = ∅ then .ok () else .error (missingCapabilities missing agentId)

def requirePolicyCapabilities (policy : ExecutionPolicy) (capabilities : AgentCapabilities)
    (agentId : Option Str) : Except CapabilityError CapabilityRequirement := do
  let requirement := CapabilityRequirement.fromPolicy policy
  requireCapabilities (.requirement requirement) capabilities agentId
  return requirement

/-! ## Typed capabilities -/

/-- What an agent declares in a typed field. -/
inductive TypedCapability
  | securityClass (name : Str)
  | workspace (mode : Str)
  | compatibility (mode : Str)
  | interactiveRun

/-- The name under which it is required. -/
def TypedCapability.text : TypedCapability → Str
  | .securityClass name => securityClassPrefix ++ name
  | .workspace mode => workspacePrefix ++ mode
  | .compatibility mode => compatibilityPrefix ++ mode
  | .interactiveRun => str "interactive-run"

def TypedCapability.Declared (capabilities : AgentCapabilities) : TypedCapability → Prop
  | .securityClass name => name ∈ capabilities.securityClasses
  | .workspace mode => mode ∈ capabilities.workspaceModes
  | .compatibility mode => mode ∈ capabilities.compatibilityModes
  | .interactiveRun => capabilities.interactiveRun = true

inductive CapabilityKind
  | securityClass
  | workspace
  | compatibility
  | interactiveRun

def TypedCapability.kind : TypedCapability → CapabilityKind
  | .securityClass _ => .securityClass
  | .workspace _ => .workspace
  | .compatibility _ => .compatibility
  | .interactiveRun => .interactiveRun

/-- What the names of a kind start with. -/
def CapabilityKind.start : CapabilityKind → Str
  | .securityClass => securityClassPrefix
  | .workspace => workspacePrefix
  | .compatibility => compatibilityPrefix
  | .interactiveRun => str "interactive-run"

/-- The first characters tell the kinds apart. -/
theorem CapabilityKind.eq_of_head {a b : CapabilityKind} (h : a.start.head? = b.start.head?) :
    a = b := by
  cases a <;> cases b <;> first | rfl | exact absurd h (by decide)

theorem TypedCapability.head_text (k : TypedCapability) : k.text.head? = k.kind.start.head? := by
  have hhead : ∀ s name : Str, s ≠ [] → (s ++ name).head? = s.head? := by
    intro s name hs
    cases s with
    | nil => exact absurd rfl hs
    | cons c rest => rfl
  cases k with
  | interactiveRun => rfl
  | _ => exact hhead _ _ (by decide)

/-- Different typed capabilities have different names. -/
theorem TypedCapability.text_injective : Function.Injective text := by
  intro k k' h
  have hkind : k.kind = k'.kind := CapabilityKind.eq_of_head (by rw [← head_text, ← head_text, h])
  cases k <;> cases k' <;> first | rfl | rw [List.append_cancel_left h] | cases hkind

/-- The names of the other capabilities start differently. -/
theorem TypedCapability.text_ne (k : TypedCapability) {name : Str}
    (h : name.head? = (str "filesystem_sandbox").head? ∨ name.head? = (str "network").head? ∨
      name.head? = (str "provider_state_protection").head?) : k.text ≠ name := by
  rintro rfl
  rw [head_text] at h
  cases hkind : k.kind <;> rw [hkind] at h <;> exact absurd h (by decide)

theorem mem_available {capabilities : AgentCapabilities} {name : Str} :
    name ∈ availableCapabilities capabilities ↔
      name ∈ capabilities.policyCapabilities ∨
      (∃ k : TypedCapability, k.Declared capabilities ∧ k.text = name) ∨
      capabilities.nativeSandbox = true ∧ name = str "filesystem_sandbox" := by
  simp only [availableCapabilities, Finset.mem_union, Finset.mem_image]
  constructor
  · rintro (((((h | ⟨mode, hmode, rfl⟩) | ⟨name, hname, rfl⟩) | ⟨mode, hmode, rfl⟩) | h) | h)
    · exact Or.inl h
    · exact Or.inr (Or.inl ⟨.workspace mode, hmode, rfl⟩)
    · exact Or.inr (Or.inl ⟨.securityClass name, hname, rfl⟩)
    · exact Or.inr (Or.inl ⟨.compatibility mode, hmode, rfl⟩)
    · split at h
      · rename_i hrun
        exact Or.inr (Or.inl ⟨.interactiveRun, hrun, (Finset.mem_singleton.mp h).symm⟩)
      · exact absurd h (Finset.notMem_empty _)
    · split at h
      · rename_i hsandbox
        exact Or.inr (Or.inr ⟨hsandbox, Finset.mem_singleton.mp h⟩)
      · exact absurd h (Finset.notMem_empty _)
  · rintro (h | ⟨k, hk, rfl⟩ | ⟨hsandbox, rfl⟩)
    · exact Or.inl (Or.inl (Or.inl (Or.inl (Or.inl h))))
    · cases k with
      | securityClass name => exact Or.inl (Or.inl (Or.inl (Or.inr ⟨name, hk, rfl⟩)))
      | workspace mode => exact Or.inl (Or.inl (Or.inl (Or.inl (Or.inr ⟨mode, hk, rfl⟩))))
      | compatibility mode => exact Or.inl (Or.inl (Or.inr ⟨mode, hk, rfl⟩))
      | interactiveRun =>
        have hrun : capabilities.interactiveRun = true := hk
        refine Or.inl (Or.inr ?_)
        rw [if_pos hrun]
        exact Finset.mem_singleton_self _
    · refine Or.inr ?_
      rw [if_pos hsandbox]
      exact Finset.mem_singleton_self _

/-- The name of a typed capability is there because the capability is declared, or because it is a
policy capability. -/
theorem text_mem_available {capabilities : AgentCapabilities} {k : TypedCapability} :
    k.text ∈ availableCapabilities capabilities ↔
      k.text ∈ capabilities.policyCapabilities ∨ k.Declared capabilities := by
  rw [mem_available]
  constructor
  · rintro (h | ⟨k', hk, htext⟩ | ⟨-, h⟩)
    · exact Or.inl h
    · rw [TypedCapability.text_injective htext] at hk
      exact Or.inr hk
    · exact absurd h (k.text_ne (Or.inl rfl))
  · rintro (h | h)
    · exact Or.inl h
    · exact Or.inr (Or.inl ⟨k, h, rfl⟩)

/-! ## What the check says -/

theorem checkNames_ok {names : List Value} {checked : Finset Str} (h : checkNames names = .ok checked) :
    ∀ name, Value.str name ∈ names → name ∈ checked ∧ validCapabilityName name = true := by
  induction names generalizing checked with
  | nil => exact fun name hname => nomatch hname
  | cons value rest ih =>
    cases value with
    | str first =>
      simp only [checkNames] at h
      split at h
      · rename_i hvalid
        cases hrest : checkNames rest with
        | error error =>
          rw [hrest] at h
          cases h
        | ok set =>
          rw [hrest] at h
          cases h
          intro name hname
          rcases List.mem_cons.mp hname with heq | hname
          · cases heq
            exact ⟨Finset.mem_insert_self _ _, hvalid⟩
          · obtain ⟨hmem, hvalid'⟩ := ih hrest name hname
            exact ⟨Finset.mem_insert_of_mem hmem, hvalid'⟩
      · cases h
    | _ => cases h

/-- What is required of an agent that passes is a valid name, and available. -/
theorem requireCapabilities_ok {required : Required} {capabilities : AgentCapabilities}
    {agentId : Option Str} (h : requireCapabilities required capabilities agentId = .ok ())
    {name : Str} (hname : required.Mentions name) :
    name ∈ availableCapabilities capabilities ∧ validCapabilityName name = true := by
  have hmissing : ∀ names : Finset Str, (if names \ availableCapabilities capabilities = ∅ then
      Except.ok () else Except.error (missingCapabilities
        (names \ availableCapabilities capabilities) agentId)) = .ok () →
      names ⊆ availableCapabilities capabilities := by
    intro names hok
    split at hok
    · rename_i hempty
      exact Finset.sdiff_eq_empty_iff_subset.mp hempty
    · cases hok
  cases required with
  | requirement r => exact ⟨hmissing r.required h hname, r.valid name hname⟩
  | names names =>
    rw [requireCapabilities] at h
    cases hchecked : checkNames names with
    | error error =>
      rw [hchecked] at h
      cases h
    | ok checked =>
      rw [hchecked] at h
      obtain ⟨hmem, hvalid⟩ := checkNames_ok hchecked name hname
      exact ⟨hmissing checked h hmem, hvalid⟩

/-- What a policy requires is backed by a declaration of the agent. -/
structure Backed (policy : ExecutionPolicy) (capabilities : AgentCapabilities) : Prop where
  securityClass : policy.securityClass.text ∈ capabilities.securityClasses
  readonly : policy.workspace.access = .read → str "readonly" ∈ capabilities.workspaceModes
  writable : policy.workspace.access = .write → str "writable" ∈ capabilities.workspaceModes
  sandbox : policy.securityClass = .hardened → policy.sandbox.required = true →
    capabilities.nativeSandbox = true ∨ str "filesystem_sandbox" ∈ capabilities.policyCapabilities
  networkDeny : policy.securityClass = .hardened → policy.network.taskShell.mode = .deny →
    str "network_deny" ∈ capabilities.policyCapabilities
  networkAllowlist : policy.securityClass = .hardened → policy.network.taskShell.mode = .allowlist →
    str "network_allowlist" ∈ capabilities.policyCapabilities
  credentials : policy.securityClass = .hardened →
    policy.credentials.providerAuth.taskShell = .deny →
    str "provider_state_protection" ∈ capabilities.policyCapabilities

/-- The agent has every typed capability whose name one of its policy capabilities is. A policy
capability that is no valid name is never required. -/
def NoImpostors (capabilities : AgentCapabilities) : Prop :=
  ∀ k : TypedCapability, k.text ∈ capabilities.policyCapabilities →
    validCapabilityName k.text = true → k.Declared capabilities

section

variable {policy : ExecutionPolicy} {capabilities : AgentCapabilities} {agentId : Option Str}

theorem declared_of_required {required : Required} {k : TypedCapability}
    (hnone : NoImpostors capabilities)
    (h : requireCapabilities required capabilities agentId = .ok ())
    (hk : required.Mentions k.text) : k.Declared capabilities := by
  obtain ⟨hmem, hvalid⟩ := requireCapabilities_ok h hk
  rcases text_mem_available.mp hmem with himpostor | hdeclared
  · exact hnone k himpostor hvalid
  · exact hdeclared

/-- A name that is not that of a typed capability stands for a policy capability. -/
theorem policyCapability_of_available {name : Str} (hmem : name ∈ availableCapabilities capabilities)
    (htext : ∀ k : TypedCapability, k.text ≠ name) (hsandbox : name ≠ str "filesystem_sandbox") :
    name ∈ capabilities.policyCapabilities := by
  rcases mem_available.mp hmem with h | ⟨k, -, hk⟩ | ⟨-, h⟩
  · exact h
  · exact absurd hk (htext k)
  · exact absurd h hsandbox

theorem backed_of_required {requirement : CapabilityRequirement} (hnone : NoImpostors capabilities)
    (h : requirePolicyCapabilities policy capabilities agentId = .ok requirement) :
    Backed policy capabilities := by
  have hok : requireCapabilities (.requirement (.fromPolicy policy)) capabilities agentId =
      .ok () := by
    rw [requirePolicyCapabilities] at h
    cases hcheck : requireCapabilities (.requirement (.fromPolicy policy)) capabilities agentId with
    | ok => rfl
    | error error =>
      rw [hcheck] at h
      cases h
  have hmentions : ∀ name ∈ requiredNames policy,
      (Required.requirement (.fromPolicy policy)).Mentions name :=
    fun name hname => List.mem_toFinset.mpr hname
  have havailable : ∀ name ∈ requiredNames policy, name ∈ availableCapabilities capabilities :=
    fun name hname => (requireCapabilities_ok hok (hmentions name hname)).1
  refine ⟨?_, fun haccess => ?_, fun haccess => ?_, fun hclass hrequired => ?_,
    fun hclass hmode => ?_, fun hclass hmode => ?_, fun hclass hhidden => ?_⟩
  · exact declared_of_required (k := .securityClass policy.securityClass.text) hnone hok
      (hmentions _ (by simp [requiredNames, TypedCapability.text]))
  · have htext : (TypedCapability.workspace (str "readonly")).text = str "workspace:readonly" := by
      decide
    exact declared_of_required (k := .workspace (str "readonly")) hnone hok
      (hmentions _ (by simp [requiredNames, haccess, htext]))
  · have htext : (TypedCapability.workspace (str "writable")).text = str "workspace:writable" := by
      decide
    exact declared_of_required (k := .workspace (str "writable")) hnone hok
      (hmentions _ (by simp [requiredNames, haccess, htext]))
  · have hmem := havailable (str "filesystem_sandbox") (by simp [requiredNames, hclass, hrequired])
    rcases mem_available.mp hmem with h | ⟨k, -, hk⟩ | ⟨hnative, -⟩
    · exact Or.inr h
    · exact absurd hk (k.text_ne (Or.inl rfl))
    · exact Or.inl hnative
  · have hmem := havailable (str "network_deny") (by simp [requiredNames, hclass, hmode])
    exact policyCapability_of_available hmem (fun k => k.text_ne (Or.inr (Or.inl (by decide))))
      (by decide)
  · have hmem := havailable (str "network_allowlist") (by simp [requiredNames, hclass, hmode])
    exact policyCapability_of_available hmem (fun k => k.text_ne (Or.inr (Or.inl (by decide))))
      (by decide)
  · have hmem := havailable (str "provider_state_protection")
      (by simp [requiredNames, hclass, hhidden])
    exact policyCapability_of_available hmem (fun k => k.text_ne (Or.inr (Or.inr rfl))) (by decide)

/-- The check of an agent can be relied on exactly when its policy capabilities name no typed
capability that the agent does not have. -/
theorem capabilities_backed_iff (capabilities : AgentCapabilities) :
    (∀ policy agentId requirement,
      requirePolicyCapabilities policy capabilities agentId = .ok requirement →
        Backed policy capabilities) ∧
    (∀ required agentId (k : TypedCapability),
      requireCapabilities required capabilities agentId = .ok () → required.Mentions k.text →
        k.Declared capabilities) ↔
    NoImpostors capabilities := by
  constructor
  · rintro ⟨-, hdeclared⟩ k hk hvalid
    have hmem : k.text ∈ availableCapabilities capabilities := mem_available.mpr (Or.inl hk)
    have hok : requireCapabilities (.names [.str k.text]) capabilities none = .ok () := by
      have hchecked : checkNames [.str k.text] = .ok {k.text} := by
        rw [checkNames, if_pos hvalid]
        rfl
      have hempty : {k.text} \ availableCapabilities capabilities = ∅ :=
        Finset.sdiff_eq_empty_iff_subset.mpr (Finset.singleton_subset_iff.mpr hmem)
      simp only [requireCapabilities, hchecked, bind, Except.bind, hempty, if_true]
    exact hdeclared _ none k hok (List.mem_singleton.mpr rfl)
  · intro hnone
    exact ⟨fun _ _ _ h => backed_of_required hnone h,
      fun _ _ _ h hk => declared_of_required hnone h hk⟩

end

/-- An agent for compatibility runs. -/
def exampleCapabilities : AgentCapabilities where
  workspaceModes := {str "writable"}
  interactiveAuth := false
  interactiveRun := false
  nativePolicy := false
  nativeSandbox := true
  compatibilityModes := ∅
  policyCapabilities := {str "network_allowlist", str "security_class:hardened"}
  securityClasses := {str "compatibility"}
  workspaceModes_sub := by decide
  workspaceModes_nonempty := by decide
  compatibilityModes_valid := validText_of_mem_empty
  policyCapabilities_valid := by decide
  securityClasses_sub := compatibility_sub
  securityClasses_nonempty := compatibility_ne_empty

def exampleHardenedPolicy : ExecutionPolicy := { exampleBaseline with securityClass := .hardened }

/-- An agent passes the check for a hardened run with a policy capability that looks like the security
class. -/
theorem hardened_impostor :
    requirePolicyCapabilities exampleHardenedPolicy exampleCapabilities none =
        .ok (.fromPolicy exampleHardenedPolicy) ∧
      exampleHardenedPolicy.securityClass.text ∉ exampleCapabilities.securityClasses := by
  have hempty : (CapabilityRequirement.fromPolicy exampleHardenedPolicy).required \
      availableCapabilities exampleCapabilities = ∅ := by decide
  refine ⟨?_, by decide⟩
  simp only [requirePolicyCapabilities, requireCapabilities, bind, Except.bind, hempty, if_true]
  rfl

end AgentDev.Policy
