import AgentDev.Agents.CursorSandbox
import AgentDev.Python.Decimals

/-!
# Confinement by compiled policies

What the artifacts of a compiled policy leave to the task shell (`Grant`), and when that is no more
than the policy leaves to it (`policyGrant`): always for Codex, and for Cursor unless it runs without
a sandbox on a workspace that is only to be read, or a destination has a pair of surrogates
(`compile_confines_iff`). A narrower policy is compiled to artifacts that leave no more, by both
compilers.
-/

namespace AgentDev.Agents

open Python Policy

/-! ## Grants -/

/-- What is left to the task shell, as far as the artifacts go. -/
structure Grant where
  /-- It can write to the workspace. -/
  writes : Prop
  /-- The destinations that it can reach. -/
  hosts : Set Str
  /-- It can read the state of the provider. -/
  readsState : Prop
  /-- It runs without a sandbox of its own. -/
  unconfined : Prop

structure Grant.NoMore (lower upper : Grant) : Prop where
  writes : lower.writes → upper.writes
  hosts : lower.hosts ⊆ upper.hosts
  readsState : lower.readsState → upper.readsState
  unconfined : lower.unconfined → upper.unconfined

/-- What a policy leaves to the task shell. -/
def policyGrant (policy : ExecutionPolicy) : Grant where
  writes := policy.workspace.access = .write
  hosts := policy.network.taskShell.reachable
  readsState := policy.credentials.providerAuth.taskShell = .allow
  unconfined := policy.sandbox.required = false

theorem Narrower.write {p q : ExecutionPolicy} (h : Narrower p q) (hp : p.workspace.access = .write)
    (hq : q.workspace.access ≠ .none) : q.workspace.access = .write := by
  have hmem : Operation.write ∈ q.workspace.access.operations := by
    apply h.workspace
    rw [hp]
    exact Or.inr rfl
  cases hupper : q.workspace.access with
  | none => exact absurd hupper hq
  | read =>
    rw [hupper] at hmem
    cases hmem
  | write => rfl

theorem Narrower.not_required {p q : ExecutionPolicy} (h : Narrower p q)
    (hp : p.sandbox.required = false) : q.sandbox.required = false := by
  cases hupper : q.sandbox.required with
  | false => rfl
  | true =>
    rw [h.sandbox hupper] at hp
    cases hp

/-! ## Codex -/

/-- All traffic goes through the proxy. -/
def Proxied (argv : List Str) : Prop :=
  setting argv proxyEnabled = some (str "true") ∧
    ∀ switch ∈ bypassSwitches, setting argv switch = some (str "false")

/-- The files of the provider's state are hidden in the sandbox. -/
def HidesState (artifacts : ProviderPolicyArtifacts) : Prop :=
  setting artifacts.argv defaultPermissions = some profileText ∧
    setting artifacts.argv (profileKey ".filesystem") = some deniedFiles ∧
    artifacts.runtimeIsolation.nestedSandboxBootstrap = true

/-- What Codex makes of its arguments. -/
def codexGrant (artifacts : ProviderPolicyArtifacts) : Grant where
  writes := sandboxOption artifacts.argv ≠ some (str "read-only")
  hosts := {host | sandboxOption artifacts.argv ≠ some (str "read-only") ∧
    setting artifacts.argv networkAccess = some (str "true") ∧
    (Proxied artifacts.argv → ∃ destinations,
      setting artifacts.argv proxyDomains = some (domainTable destinations) ∧ host ∈ destinations)}
  readsState := ¬ HidesState artifacts
  unconfined := artifacts.runtimeIsolation.nestedSandboxBootstrap = false

/-- What the arguments of Codex say of a policy. -/
structure CodexFaithful (policy : ExecutionPolicy) (artifacts : ProviderPolicyArtifacts) : Prop where
  access : policy.workspace.access ≠ .none
  sandbox : sandboxOption artifacts.argv = some (sandboxName policy.workspace.access)
  readOnly : policy.workspace.access = .read → policy.network.taskShell.mode = .deny
  network : setting artifacts.argv networkAccess = some (str "true") ↔
    policy.workspace.access = .write ∧ policy.network.taskShell.mode ≠ .deny
  allowlist : policy.network.taskShell.mode = .allowlist → Proxied artifacts.argv ∧
    setting artifacts.argv proxyDomains =
      some (domainTable policy.network.taskShell.destinations.items)
  proxy : Proxied artifacts.argv → policy.network.taskShell.mode = .allowlist
  domains : ∀ {destinations}, setting artifacts.argv proxyDomains = some (domainTable destinations) →
    policy.network.taskShell.mode = .allowlist ∧
      destinations = policy.network.taskShell.destinations.items
  credentials : policy.credentials.providerAuth.taskShell = .deny →
    HidesState artifacts ∧ setting artifacts.argv (profileKey ".extends") =
      some (baseProfile policy.workspace.access)
  hidden : HidesState artifacts → policy.credentials.providerAuth.taskShell = .deny
  bootstrap : artifacts.runtimeIsolation.nestedSandboxBootstrap = policy.sandbox.required
  files : artifacts.files = [] ∧ artifacts.generatedFiles = []

/-- The settings of the network and of the credentials are apart. -/
theorem mem_networkSettings {policy : ExecutionPolicy} {key value : Str}
    (hkey : key ∈ [networkAccess, proxyEnabled, proxyDomains] ++ bypassSwitches) :
    (key, value) ∈ codexSettings policy ↔
      (key, value) ∈ networkSettings policy.workspace.access policy.network.taskShell := by
  have hapart : ([networkAccess, proxyEnabled, proxyDomains] ++ bypassSwitches).all (fun key =>
      key ≠ str "approval_policy" && key ∉ (credentialSettings .read).map Prod.fst) = true := by
    decide +kernel
  obtain ⟨hfirst, hcredentials⟩ := Bool.and_eq_true_iff.mp (List.all_eq_true.mp hapart key hkey)
  rw [codexSettings, List.mem_cons, List.mem_append]
  constructor
  · rintro (h | h | h)
    · exact absurd (Prod.mk.inj h).1 (of_decide_eq_true hfirst)
    · exact h
    · split at h
      · exact absurd (List.mem_map_of_mem (f := Prod.fst) h) (of_decide_eq_true hcredentials)
      · cases h
  · intro h
    exact Or.inr (Or.inl h)

theorem mem_credentialSettings {policy : ExecutionPolicy} {key value : Str}
    (hkey : key ∈ [defaultPermissions, profileKey ".extends", profileKey ".filesystem"]) :
    (key, value) ∈ codexSettings policy ↔ policy.credentials.providerAuth.taskShell = .deny ∧
      (key, value) ∈ credentialSettings policy.workspace.access := by
  have hapart : [defaultPermissions, profileKey ".extends", profileKey ".filesystem"].all (fun key =>
      key ≠ str "approval_policy" && key ∉ networkKeys .write .deny &&
        key ∉ networkKeys .write .allow && key ∉ networkKeys .write .allowlist) = true := by
    decide +kernel
  have hkeys := List.all_eq_true.mp hapart key hkey
  simp only [Bool.and_eq_true, decide_eq_true_eq] at hkeys
  obtain ⟨⟨⟨hfirst, hdeny⟩, hallow⟩, hallowlist⟩ := hkeys
  rw [codexSettings, List.mem_cons, List.mem_append]
  constructor
  · rintro (h | h | h)
    · exact absurd (Prod.mk.inj h).1 hfirst
    · have hmem := List.mem_map_of_mem (f := Prod.fst) h
      unfold networkSettings at hmem
      split at hmem
      · exact absurd hmem hdeny
      · exact absurd hmem hallow
      · exact absurd hmem hallowlist
      · cases hmem
    · split at h
      · rename_i hcredentials
        exact ⟨hcredentials, h⟩
      · cases h
  · rintro ⟨hcredentials, h⟩
    rw [if_pos hcredentials]
    exact Or.inr (Or.inr h)

theorem networkSettings_access (access : Access) (network : TaskShellNetworkPolicy) :
    (networkAccess, str "true") ∈ networkSettings access network ↔
      access = .write ∧ network.mode ≠ .deny := by
  obtain ⟨mode, destinations, listed⟩ := network
  cases access with
  | none => exact ⟨fun h => (nomatch h), fun h => (nomatch h.1)⟩
  | read => exact ⟨fun h => (nomatch h), fun h => (nomatch h.1)⟩
  | write =>
    cases mode with
    | deny =>
      constructor
      · intro h
        exact absurd (Prod.mk.inj (List.mem_singleton.mp h)).2 (by decide)
      · intro h
        exact absurd rfl h.2
    | allow => exact ⟨fun _ => ⟨rfl, nofun⟩, fun _ => List.mem_cons_self⟩
    | allowlist => exact ⟨fun _ => ⟨rfl, nofun⟩, fun _ => List.mem_cons_self⟩

theorem networkSettings_allowlist {access : Access} {network : TaskShellNetworkPolicy}
    (haccess : access = .write) (hmode : network.mode = .allowlist) :
    networkSettings access network = allowlistSettings network.destinations.items := by
  obtain ⟨mode, destinations, listed⟩ := network
  subst haccess
  cases hmode
  rfl

theorem bypassSwitch_mem {switch : Str} (h : switch ∈ bypassSwitches) (destinations : List Str) :
    (switch, str "false") ∈ allowlistSettings destinations := by
  rw [← List.take_append_drop 5 bypassSwitches] at h
  rcases List.mem_append.mp h with h | h
  · have hmem := List.mem_map_of_mem (f := fun switch => (switch, str "false")) h
    simp only [allowlistSettings, List.mem_append]
    exact Or.inl (Or.inl (Or.inl (Or.inr hmem)))
  · have hmem := List.mem_map_of_mem (f := fun switch => (switch, str "false")) h
    simp only [allowlistSettings, List.mem_append]
    exact Or.inl (Or.inr hmem)

theorem networkSettings_domains {access : Access} {network : TaskShellNetworkPolicy} {table : Str}
    (h : (proxyDomains, table) ∈ networkSettings access network) :
    network.mode = .allowlist ∧ table = domainTable network.destinations.items := by
  have hfixed : ∀ pairs : List (Str × Str), pairs.all (fun pair => pair.1 ≠ proxyDomains) = true →
      (proxyDomains, table) ∉ pairs := fun pairs hall hmem =>
    of_decide_eq_true (List.all_eq_true.mp hall _ hmem) rfl
  unfold networkSettings at h
  split at h
  · exact absurd h (hfixed _ (by decide +kernel))
  · exact absurd h (hfixed _ (by decide +kernel))
  · rename_i hmode
    rcases List.mem_append.mp h with h | h
    · exact absurd h (hfixed _ (by decide +kernel))
    · exact ⟨hmode, (Prod.mk.inj (List.mem_singleton.mp h)).2⟩
  · cases h

theorem networkSettings_proxy {access : Access} {network : TaskShellNetworkPolicy}
    (h : (proxyEnabled, str "true") ∈ networkSettings access network) : network.mode = .allowlist := by
  have hfixed : ∀ pairs : List (Str × Str), pairs.all (fun pair => pair ≠ (proxyEnabled, str "true")) =
      true → (proxyEnabled, str "true") ∉ pairs := fun pairs hall hmem =>
    of_decide_eq_true (List.all_eq_true.mp hall _ hmem) rfl
  unfold networkSettings at h
  split at h
  · exact absurd h (hfixed _ (by decide +kernel))
  · exact absurd h (hfixed _ (by decide +kernel))
  · rename_i hmode
    exact hmode
  · cases h

theorem codex_faithful {policy : ExecutionPolicy} {artifacts : ProviderPolicyArtifacts}
    (h : codexCompileExecutionPolicy policy = .ok artifacts) : CodexFaithful policy artifacts := by
  obtain ⟨hrepresents, hfields⟩ := codexCompile_ok h
  have hsetting := @setting_codex policy artifacts h
  have hbootstrap : artifacts.runtimeIsolation.nestedSandboxBootstrap = policy.sandbox.required := by
    rw [hfields]
    show (codexIsolation policy).nestedSandboxBootstrap = _
    unfold codexIsolation
    cases policy.sandbox.required <;> rfl
  have hfixed : ∀ access, (defaultPermissions, profileText) ∈ credentialSettings access ∧
      (profileKey ".extends", baseProfile access) ∈ credentialSettings access ∧
      (profileKey ".filesystem", deniedFiles) ∈ credentialSettings access := by
    intro access
    simp [credentialSettings]
  obtain ⟨hdefault, hextends, hfiles⟩ := hfixed policy.workspace.access
  constructor
  · exact hrepresents.access
  · rw [hfields]
    rfl
  · exact hrepresents.network
  · rw [hsetting, mem_networkSettings (by decide)]
    exact networkSettings_access _ _
  · intro hmode
    have haccess : policy.workspace.access = .write := by
      cases haccess : policy.workspace.access with
      | none => exact absurd haccess hrepresents.access
      | read =>
        rw [hrepresents.network haccess] at hmode
        cases hmode
      | write => rfl
    have hsettings := networkSettings_allowlist haccess hmode
    refine ⟨⟨?_, fun switch hswitch => ?_⟩, ?_⟩
    · rw [hsetting, mem_networkSettings (by decide), hsettings]
      simp [allowlistSettings]
    · rw [hsetting, mem_networkSettings (List.mem_append_right _ hswitch), hsettings]
      exact bypassSwitch_mem hswitch _
    · rw [hsetting, mem_networkSettings (by decide), hsettings]
      simp [allowlistSettings]
  · intro hproxied
    exact networkSettings_proxy ((mem_networkSettings (by decide)).mp (hsetting.mp hproxied.1))
  · intro destinations hdomains
    rw [hsetting, mem_networkSettings (by decide)] at hdomains
    obtain ⟨hmode, htable⟩ := networkSettings_domains hdomains
    exact ⟨hmode, domainTable_injective htable⟩
  · intro hcredentials
    refine ⟨⟨?_, ?_, ?_⟩, ?_⟩
    · exact hsetting.mpr ((mem_credentialSettings (by decide)).mpr ⟨hcredentials, hdefault⟩)
    · exact hsetting.mpr ((mem_credentialSettings (by decide)).mpr ⟨hcredentials, hfiles⟩)
    · rw [hbootstrap]
      exact hrepresents.credentials hcredentials
    · exact hsetting.mpr ((mem_credentialSettings (by decide)).mpr ⟨hcredentials, hextends⟩)
  · intro hhides
    exact ((mem_credentialSettings (by decide)).mp (hsetting.mp hhides.1)).1
  · exact hbootstrap
  · rw [hfields]
    exact ⟨rfl, rfl⟩

theorem CodexFaithful.writes_iff {policy : ExecutionPolicy} {artifacts : ProviderPolicyArtifacts}
    (h : CodexFaithful policy artifacts) :
    (codexGrant artifacts).writes ↔ policy.workspace.access = .write := by
  have hsandbox := h.sandbox
  have haccess := h.access
  show sandboxOption artifacts.argv ≠ some (str "read-only") ↔ _
  rw [hsandbox]
  cases hwrite : policy.workspace.access with
  | none => exact absurd hwrite haccess
  | read => exact ⟨fun hne => absurd rfl hne, fun heq => nomatch heq⟩
  | write => exact ⟨fun _ => rfl, fun _ => by decide⟩

/-- What Codex may reach is what the policy lets it reach. -/
theorem CodexFaithful.hosts_eq {policy : ExecutionPolicy} {artifacts : ProviderPolicyArtifacts}
    (h : CodexFaithful policy artifacts) :
    (codexGrant artifacts).hosts = policy.network.taskShell.reachable := by
  have hwrites : policy.network.taskShell.mode ≠ .deny →
      (codexGrant artifacts).writes ∧ setting artifacts.argv networkAccess = some (str "true") := by
    intro hmode
    have haccess : policy.workspace.access = .write := by
      cases haccess : policy.workspace.access with
      | none => exact absurd haccess h.access
      | read => exact absurd (h.readOnly haccess) hmode
      | write => rfl
    exact ⟨h.writes_iff.mpr haccess, h.network.mpr ⟨haccess, hmode⟩⟩
  ext host
  unfold TaskShellNetworkPolicy.reachable
  cases hmode : policy.network.taskShell.mode with
  | deny =>
    constructor
    · rintro ⟨-, hnetwork, -⟩
      exact absurd hmode (h.network.mp hnetwork).2
    · intro hmem
      cases hmem
  | allowlist =>
    obtain ⟨hproxied, hdomains⟩ := h.allowlist hmode
    obtain ⟨hwrites, hnetwork⟩ := hwrites (by rw [hmode]; exact nofun)
    constructor
    · rintro ⟨-, -, hlisted⟩
      obtain ⟨destinations, htable, hmem⟩ := hlisted hproxied
      rw [(h.domains htable).2] at hmem
      exact hmem
    · intro hmem
      exact ⟨hwrites, hnetwork, fun _ => ⟨_, hdomains, hmem⟩⟩
  | allow =>
    obtain ⟨hwrites, hnetwork⟩ := hwrites (by rw [hmode]; exact nofun)
    constructor
    · intro _
      exact Set.mem_univ host
    · intro _
      refine ⟨hwrites, hnetwork, fun hproxied => ?_⟩
      rw [h.proxy hproxied] at hmode
      cases hmode

/-- Codex is left no more than the policy says. -/
theorem CodexFaithful.within {policy : ExecutionPolicy} {artifacts : ProviderPolicyArtifacts}
    (h : CodexFaithful policy artifacts) : (codexGrant artifacts).NoMore (policyGrant policy) where
  writes := h.writes_iff.mp
  hosts := h.hosts_eq.subset
  readsState := by
    intro hreads
    show policy.credentials.providerAuth.taskShell = .allow
    cases hvisibility : policy.credentials.providerAuth.taskShell with
    | allow => rfl
    | deny => exact absurd (h.credentials hvisibility).1 hreads
  unconfined := by
    intro hopen
    show policy.sandbox.required = false
    rw [← h.bootstrap]
    exact hopen

/-- A narrower policy leaves no more to the task shell of Codex. -/
theorem codex_noMore {p q : ExecutionPolicy} {a b : ProviderPolicyArtifacts} (h : Narrower p q)
    (hp : CodexFaithful p a) (hq : CodexFaithful q b) : (codexGrant a).NoMore (codexGrant b) where
  writes := by
    rw [hp.writes_iff, hq.writes_iff]
    exact fun hwrite => Narrower.write h hwrite hq.access
  hosts := by
    rw [hp.hosts_eq, hq.hosts_eq]
    exact h.network
  readsState := by
    intro hreads hhides
    have hupper := hq.hidden hhides
    apply hreads
    apply (hp.credentials _).1
    cases hlower : p.credentials.providerAuth.taskShell with
    | deny => rfl
    | allow =>
      rw [h.credentials hlower] at hupper
      cases hupper
  unconfined := by
    show a.runtimeIsolation.nestedSandboxBootstrap = false →
      b.runtimeIsolation.nestedSandboxBootstrap = false
    rw [hp.bootstrap, hq.bootstrap]
    exact Narrower.not_required h

/-! ## Cursor -/

section

variable {floats : Json.FloatText}

def member (name : Str) : Value → Option Value
  | .dict items => Dict.get? items name
  | _ => none

/-- The value at a path of names. -/
def valueAt : List Str → Value → Option Value
  | [], value => some value
  | name :: rest, value => (member name value).bind (valueAt rest)

theorem member_record (name : String) (value : Value) (rest : List (String × Value)) :
    member (str name) (record ((name, value) :: rest)) = some value := by
  show List.lookup (Key.str (str name)) ((Key.str (str name), value) :: Policy.items rest) = _
  rw [Dict.lookup_cons, if_pos rfl]

theorem member_record_ne {name other : String} (h : str name ≠ str other) (value : Value)
    (rest : List (String × Value)) :
    member (str name) (record ((other, value) :: rest)) = member (str name) (record rest) := by
  show List.lookup (Key.str (str name)) ((Key.str (str other), value) :: Policy.items rest) = _
  rw [Dict.lookup_cons, if_neg fun heq => h (Key.str.inj heq)]
  rfl

/-- What the document of a sandbox says. -/
theorem valueAt_sortedDocument (access : Access) (allow : List Str) :
    valueAt [str "type"] (sortedDocument access allow) = some (.str (sandboxType access)) ∧
    valueAt [str "networkPolicy", str "default"] (sortedDocument access allow) =
      some (.str (str "deny")) ∧
    valueAt [str "networkPolicy", str "allow"] (sortedDocument access allow) =
      some (.seq (allow.map .str)) := by
  simp only [valueAt, sortedDocument]
  refine ⟨?_, ?_, ?_⟩
  · rw [member_record_ne (by decide), member_record]
    rfl
  · rw [member_record, Option.bind_some, member_record_ne (by decide), member_record]
    rfl
  · rw [member_record, Option.bind_some, member_record]
    rfl

def Sandboxed (artifacts : ProviderPolicyArtifacts) : Prop :=
  sandboxOption artifacts.argv = some (str "enabled")

/-- The document that Cursor finds as its `sandbox.json`. -/
def sandboxFile (floats : Json.FloatText) (artifacts : ProviderPolicyArtifacts) : Option Value :=
  (artifacts.generatedFiles.find? fun file => file.target = cursorSandboxPolicyTarget).bind fun file =>
    (Json.loads floats file.content).toOption

/-- What a document says, if there is one. -/
def Says (document : Option Value) (path : List Str) (value : Value) : Prop :=
  document.bind (valueAt path) = some value

/-- What Cursor makes of its arguments and of its file. -/
def cursorGrant (floats : Json.FloatText) (artifacts : ProviderPolicyArtifacts) : Grant where
  writes := Sandboxed artifacts →
    ¬ Says (sandboxFile floats artifacts) [str "type"] (.str (str "workspace_readonly"))
  hosts := {host | Sandboxed artifacts →
    Says (sandboxFile floats artifacts) [str "networkPolicy", str "default"] (.str (str "deny")) →
    ∃ allow : List Str, Says (sandboxFile floats artifacts) [str "networkPolicy", str "allow"]
      (.seq (allow.map .str)) ∧ host ∈ allow}
  readsState := ¬ Sandboxed artifacts
  unconfined := artifacts.runtimeIsolation.nestedSandboxBootstrap = false

/-- What the artifacts of Cursor say of a policy. -/
structure CursorFaithful (floats : Json.FloatText) (policy : ExecutionPolicy)
    (artifacts : ProviderPolicyArtifacts) : Prop where
  access : policy.workspace.access ≠ .none
  sandboxed : policy.network.taskShell.mode ≠ .allow → Sandboxed artifacts ∧
    ∃ file, artifacts.generatedFiles = [file] ∧
      IsSandboxFile floats policy.workspace.access policy.network.taskShell.destinations.items file
  denied : policy.network.taskShell.mode = .deny →
    policy.network.taskShell.destinations.items = []
  disabled : ¬ Sandboxed artifacts → policy.network.taskShell.mode = .allow ∧
    policy.sandbox.required = false ∧ policy.credentials.providerAuth.taskShell = .allow
  required : policy.network.taskShell.mode = .allow → ¬ Sandboxed artifacts
  bootstrap : artifacts.runtimeIsolation.nestedSandboxBootstrap = policy.sandbox.required
  files : artifacts.files = []

theorem cursor_faithful {policy : ExecutionPolicy} {artifacts : ProviderPolicyArtifacts}
    (h : cursorCompileExecutionPolicy floats policy = .ok artifacts) :
    CursorFaithful floats policy artifacts := by
  obtain ⟨haccess, hcredentials, hcases⟩ := cursorCompile_ok h
  have hdenied : policy.network.taskShell.mode = .deny →
      policy.network.taskShell.destinations.items = [] := by
    intro hmode
    by_contra hne
    rw [policy.network.taskShell.listed.mpr hne] at hmode
    cases hmode
  rcases hcases with ⟨hmode, hrequired, hfields⟩ | ⟨hmode, hrequired, file, hfile, hfields⟩
  · have hnot : ¬ Sandboxed artifacts := by
      unfold Sandboxed
      rw [hfields]
      decide
    have hvisible : policy.credentials.providerAuth.taskShell = .allow := by
      cases hvisibility : policy.credentials.providerAuth.taskShell with
      | allow => rfl
      | deny =>
        rw [hcredentials hvisibility] at hrequired
        cases hrequired
    refine ⟨haccess, fun h => absurd hmode h, hdenied, fun _ => ⟨hmode, hrequired, hvisible⟩,
      fun _ => hnot, ?_, ?_⟩
    · rw [hfields, hrequired]
      rfl
    · rw [hfields]
      rfl
  · have hsandboxed : Sandboxed artifacts := by
      unfold Sandboxed
      rw [hfields]
      rfl
    refine ⟨haccess, fun _ => ⟨hsandboxed, file, ?_, hfile⟩, hdenied,
      fun hnot => absurd hsandboxed hnot, fun h => absurd h hmode, ?_, ?_⟩
    · rw [hfields]
      rfl
    · rw [hfields, hrequired]
      rfl
    · rw [hfields]
      rfl

theorem sandboxFile_eq {policy : ExecutionPolicy} {artifacts : ProviderPolicyArtifacts}
    (h : CursorFaithful floats policy artifacts) (hmode : policy.network.taskShell.mode ≠ .allow) :
    sandboxFile floats artifacts = some (sortedDocument policy.workspace.access
      (policy.network.taskShell.destinations.items.map Json.rejoin)) := by
  obtain ⟨-, file, hfiles, hfile⟩ := h.sandboxed hmode
  have hfind : [file].find? (fun file => file.target = cursorSandboxPolicyTarget) = some file :=
    List.find?_cons_of_pos (by rw [hfile.target]; exact decide_eq_true rfl)
  rw [sandboxFile, hfiles, hfind, Option.bind_some, hfile.loads]
  rfl

theorem says_allow {access : Access} {items allow : List Str} :
    Says (some (sortedDocument access items)) [str "networkPolicy", str "allow"]
      (.seq (allow.map .str)) ↔ allow = items := by
  have hread : valueAt [str "networkPolicy", str "allow"] (sortedDocument access items) =
      some (.seq (items.map .str)) := (valueAt_sortedDocument access items).2.2
  rw [Says, Option.bind_some, hread]
  constructor
  · intro h
    have hmap : items.map Value.str = allow.map Value.str := Value.seq.inj (Option.some.inj h)
    exact (List.map_injective_iff.mpr (fun _ _ => Value.str.inj) hmap).symm
  · rintro rfl
    rfl

/-- What Cursor may reach, as a reader of its file finds it. -/
theorem CursorFaithful.hosts_eq {policy : ExecutionPolicy} {artifacts : ProviderPolicyArtifacts}
    (h : CursorFaithful floats policy artifacts) :
    (cursorGrant floats artifacts).hosts = if policy.network.taskShell.mode = .allow then Set.univ
      else Json.rejoin '' policy.network.taskShell.reachable := by
  by_cases hmode : policy.network.taskShell.mode = .allow
  · rw [if_pos hmode]
    exact Set.eq_univ_of_forall fun host hsandboxed => absurd hsandboxed (h.required hmode)
  · rw [if_neg hmode]
    have hfile := sandboxFile_eq h hmode
    have hdeny : Says (sandboxFile floats artifacts) [str "networkPolicy", str "default"]
        (.str (str "deny")) := by
      rw [hfile]
      exact (valueAt_sortedDocument _ _).2.1
    have hreachable : policy.network.taskShell.reachable =
        {host | host ∈ policy.network.taskShell.destinations.items} := by
      unfold TaskShellNetworkPolicy.reachable
      cases hcases : policy.network.taskShell.mode with
      | allow => exact absurd hcases hmode
      | allowlist => rfl
      | deny =>
        rw [h.denied hcases]
        ext host
        exact ⟨fun hmem => (nomatch hmem), fun hmem => (nomatch hmem)⟩
    ext host
    rw [hreachable]
    constructor
    · intro hhost
      obtain ⟨allow, hallow, hmem⟩ := hhost (h.sandboxed hmode).1 hdeny
      rw [hfile, says_allow] at hallow
      rw [hallow] at hmem
      exact List.mem_map.mp hmem
    · rintro ⟨destination, hdestination, rfl⟩ hsandboxed hdefault
      refine ⟨policy.network.taskShell.destinations.items.map Json.rejoin, ?_,
        List.mem_map_of_mem hdestination⟩
      rw [hfile, says_allow]

/-- Without a sandbox, nothing but the mount keeps the workspace from being written to. -/
theorem CursorFaithful.writes_iff {policy : ExecutionPolicy} {artifacts : ProviderPolicyArtifacts}
    (h : CursorFaithful floats policy artifacts) :
    (cursorGrant floats artifacts).writes ↔
      policy.workspace.access = .write ∨ policy.network.taskShell.mode = .allow := by
  by_cases hmode : policy.network.taskShell.mode = .allow
  · exact ⟨fun _ => Or.inr hmode, fun _ hsandboxed => absurd hsandboxed (h.required hmode)⟩
  · have htype : valueAt [str "type"] (sortedDocument policy.workspace.access
        (policy.network.taskShell.destinations.items.map Json.rejoin)) =
        some (.str (sandboxType policy.workspace.access)) := (valueAt_sortedDocument _ _).1
    have hstated : Says (sandboxFile floats artifacts) [str "type"] (.str (str "workspace_readonly")) ↔
        sandboxType policy.workspace.access = str "workspace_readonly" := by
      rw [sandboxFile_eq h hmode, Says, Option.bind_some, htype]
      exact ⟨fun heq => Value.str.inj (Option.some.inj heq), fun heq => by rw [heq]⟩
    constructor
    · intro hwrites
      left
      cases haccess : policy.workspace.access with
      | none => exact absurd haccess h.access
      | read =>
        refine absurd (hstated.mpr ?_) (hwrites (h.sandboxed hmode).1)
        rw [haccess]
        rfl
      | write => rfl
    · rintro (haccess | hallow)
      · intro _ hreadOnly
        have htext := hstated.mp hreadOnly
        rw [haccess] at htext
        exact absurd htext (by decide)
      · exact absurd hallow hmode

/-- Where everything can be reached, nothing narrower is refused. -/
theorem Narrower.mode_allow {p q : ExecutionPolicy} (h : Narrower p q)
    (hp : p.network.taskShell.mode = .allow) : q.network.taskShell.mode = .allow := by
  have hreachable : ∀ host, host ∈ q.network.taskShell.reachable := by
    intro host
    apply h.network
    rw [TaskShellNetworkPolicy.reachable, hp]
    exact Set.mem_univ host
  unfold TaskShellNetworkPolicy.reachable at hreachable
  cases hq : q.network.taskShell.mode with
  | allow => rfl
  | deny =>
    rw [hq] at hreachable
    exact absurd (hreachable []) (Set.notMem_empty _)
  | allowlist =>
    rw [hq] at hreachable
    obtain ⟨host, hhost⟩ := exists_not_mem q.network.taskShell.destinations.items
    exact absurd (hreachable host) hhost

/-- A narrower policy leaves no more to the task shell of Cursor. -/
theorem cursor_noMore {p q : ExecutionPolicy} {a b : ProviderPolicyArtifacts} (h : Narrower p q)
    (hp : CursorFaithful floats p a) (hq : CursorFaithful floats q b) :
    (cursorGrant floats a).NoMore (cursorGrant floats b) where
  writes := by
    rw [hp.writes_iff, hq.writes_iff]
    rintro (hwrite | hmode)
    · exact Or.inl (Narrower.write h hwrite hq.access)
    · exact Or.inr (Narrower.mode_allow h hmode)
  hosts := by
    rw [hp.hosts_eq, hq.hosts_eq]
    by_cases hupper : q.network.taskShell.mode = .allow
    · rw [if_pos hupper]
      exact Set.subset_univ _
    · rw [if_neg hupper, if_neg fun hlower => hupper (Narrower.mode_allow h hlower)]
      exact Set.image_mono h.network
  readsState := by
    intro hlower hsandboxed
    exact hq.required (Narrower.mode_allow h (hp.disabled hlower).1) hsandboxed
  unconfined := by
    show a.runtimeIsolation.nestedSandboxBootstrap = false →
      b.runtimeIsolation.nestedSandboxBootstrap = false
    rw [hp.bootstrap, hq.bootstrap]
    exact Narrower.not_required h

/-- The artifacts leave no more than the policy says, and the file of a sandbox says what the policy
says. -/
structure CursorConfined (floats : Json.FloatText) (policy : ExecutionPolicy)
    (artifacts : ProviderPolicyArtifacts) : Prop where
  noMore : (cursorGrant floats artifacts).NoMore (policyGrant policy)
  file : policy.network.taskShell.mode ≠ .allow → Sandboxed artifacts ∧
    Says (sandboxFile floats artifacts) [str "type"] (.str (sandboxType policy.workspace.access)) ∧
    Says (sandboxFile floats artifacts) [str "networkPolicy", str "default"] (.str (str "deny")) ∧
    Says (sandboxFile floats artifacts) [str "networkPolicy", str "allow"]
      (.seq (policy.network.taskShell.destinations.items.map .str))
  disabled : ¬ Sandboxed artifacts → policy.sandbox.required = false ∧
    policy.credentials.providerAuth.taskShell = .allow

theorem map_rejoin_eq_self {strings : List Str} :
    strings = strings.map Json.rejoin ↔ ∀ s ∈ strings, Json.PairFree s := by
  constructor
  · intro h s hs
    rw [h] at hs
    obtain ⟨t, -, rfl⟩ := List.mem_map.mp hs
    exact Json.pairFree_rejoin t
  · intro h
    calc strings = strings.map id := (List.map_id strings).symm
      _ = strings.map Json.rejoin :=
        List.map_congr_left fun s hs => (Json.rejoin_eq_self.mpr (h s hs)).symm

/-- Where everything can be reached, no destination is listed. -/
theorem destinations_of_allow {network : TaskShellNetworkPolicy} (h : network.mode = .allow) :
    network.destinations.items = [] := by
  by_contra hne
  rw [network.listed.mpr hne] at h
  cases h

/-- Cursor is left no more than the policy says exactly if its workspace can be written to where
everything can be reached, and its destinations are read back as they are. -/
theorem CursorFaithful.confined_iff {policy : ExecutionPolicy} {artifacts : ProviderPolicyArtifacts}
    (h : CursorFaithful floats policy artifacts) :
    CursorConfined floats policy artifacts ↔
      (policy.network.taskShell.mode = .allow → policy.workspace.access = .write) ∧
      ∀ destination ∈ policy.network.taskShell.destinations.items, Json.PairFree destination := by
  constructor
  · intro hconfined
    constructor
    · intro hmode
      exact hconfined.noMore.writes (h.writes_iff.mpr (Or.inr hmode))
    · by_cases hmode : policy.network.taskShell.mode = .allow
      · rw [destinations_of_allow hmode]
        exact List.forall_mem_nil _
      · obtain ⟨-, -, -, hallow⟩ := hconfined.file hmode
        rw [sandboxFile_eq h hmode, says_allow] at hallow
        exact map_rejoin_eq_self.mp hallow
  · intro hcondition
    obtain ⟨hwrite, hplain⟩ := hcondition
    have hread := map_rejoin_eq_self.mpr hplain
    refine ⟨⟨?_, ?_, ?_, ?_⟩, ?_, ?_⟩
    · intro hwrites
      rcases h.writes_iff.mp hwrites with haccess | hmode
      · exact haccess
      · exact hwrite hmode
    · show (cursorGrant floats artifacts).hosts ⊆ policy.network.taskShell.reachable
      rw [h.hosts_eq]
      split
      · rename_i hmode
        rw [TaskShellNetworkPolicy.reachable, hmode]
      · rename_i hmode
        intro host hhost
        obtain ⟨destination, hdestination, rfl⟩ := hhost
        have hlisted := hdestination
        unfold TaskShellNetworkPolicy.reachable at hlisted
        cases hcases : policy.network.taskShell.mode with
        | allow => exact absurd hcases hmode
        | deny =>
          rw [hcases] at hlisted
          cases hlisted
        | allowlist =>
          rw [hcases] at hlisted
          rw [Json.rejoin_eq_self.mpr (hplain destination hlisted)]
          exact hdestination
    · intro hreads
      exact (h.disabled hreads).2.2
    · intro hopen
      show policy.sandbox.required = false
      rw [← h.bootstrap]
      exact hopen
    · intro hmode
      have hvalues := valueAt_sortedDocument policy.workspace.access
        policy.network.taskShell.destinations.items
      rw [sandboxFile_eq h hmode, ← hread]
      exact ⟨(h.sandboxed hmode).1, hvalues⟩
    · intro hopen
      obtain ⟨-, hrequired, hvisible⟩ := h.disabled hopen
      exact ⟨hrequired, hvisible⟩

end

/-! ## Both compilers -/

/-- A policy is refused with the error of the compiler, or its artifacts are as they are meant. -/
def RefusedOr (compiled : Except CompileError ProviderPolicyArtifacts)
    (meant : ProviderPolicyArtifacts → Prop) : Prop :=
  match compiled with
  | .ok artifacts => meant artifacts
  | .error error => ∃ message, error = .unsupported message

/-- What Codex compiles says what the policy says and leaves no more. So does what Cursor compiles,
exactly if no workspace that is only to be read is left without a sandbox, and no destination has a
pair of surrogates. What a narrower policy is compiled to leaves no more to the task shell. -/
theorem compile_confines_iff (floats : Json.FloatText) :
    (∀ policy, RefusedOr (codexCompileExecutionPolicy policy) fun artifacts =>
      CodexFaithful policy artifacts ∧ (codexGrant artifacts).NoMore (policyGrant policy) ∧
        (codexGrant artifacts).hosts = policy.network.taskShell.reachable) ∧
    (∀ policy, RefusedOr (cursorCompileExecutionPolicy floats policy)
        (CursorConfined floats policy) ↔
      (CursorRepresents policy →
        (policy.network.taskShell.mode = .allow → policy.workspace.access = .write) ∧
        ∀ destination ∈ policy.network.taskShell.destinations.items, Json.PairFree destination)) ∧
    (∀ p q a b, Narrower p q → codexCompileExecutionPolicy p = .ok a →
      codexCompileExecutionPolicy q = .ok b → (codexGrant a).NoMore (codexGrant b)) ∧
    (∀ p q a b, Narrower p q → cursorCompileExecutionPolicy floats p = .ok a →
      cursorCompileExecutionPolicy floats q = .ok b →
      (cursorGrant floats a).NoMore (cursorGrant floats b)) := by
  refine ⟨?_, ?_, ?_, ?_⟩
  · intro policy
    cases h : codexCompileExecutionPolicy policy with
    | error error => exact codexCompile_error h
    | ok artifacts =>
      have hfaithful := codex_faithful h
      exact ⟨hfaithful, hfaithful.within, hfaithful.hosts_eq⟩
  · intro policy
    have haccepted := @cursorCompile_ok_iff floats policy
    cases h : cursorCompileExecutionPolicy floats policy with
    | error error =>
      have hrefused : ¬ CursorRepresents policy := by
        intro hrepresents
        obtain ⟨artifacts, hok⟩ := haccepted.mpr hrepresents
        rw [h] at hok
        cases hok
      exact iff_of_true (cursorCompile_error h) fun hrepresents => absurd hrepresents hrefused
    | ok artifacts =>
      have hrepresents := haccepted.mp ⟨artifacts, h⟩
      have hconfined := (cursor_faithful h).confined_iff
      constructor
      · intro hmeant _
        exact hconfined.mp hmeant
      · intro hcondition
        exact hconfined.mpr (hcondition hrepresents)
  · intro p q a b hnarrower hp hq
    exact codex_noMore hnarrower (codex_faithful hp) (codex_faithful hq)
  · intro p q a b hnarrower hp hq
    exact cursor_noMore hnarrower (cursor_faithful hp) (cursor_faithful hq)

/-- The workspace is only to be read, everything can be reached, and no sandbox is required. -/
def exampleOpen : ExecutionPolicy :=
  { exampleBaseline with
    workspace := ⟨.read⟩
    network := ⟨⟨.allow, noDestinations, by decide⟩⟩
    sandbox := ⟨false⟩ }

/-- Codex refuses such a policy. Cursor runs without a sandbox then, and can write to the workspace. -/
theorem cursor_writes_read_only :
    (∃ message, codexCompileExecutionPolicy exampleOpen = .error (.unsupported message)) ∧
    ∃ artifacts, cursorCompileExecutionPolicy Json.exactDecimals exampleOpen = .ok artifacts ∧
      (cursorGrant Json.exactDecimals artifacts).writes ∧
      ¬ (cursorGrant Json.exactDecimals artifacts).NoMore (policyGrant exampleOpen) := by
  constructor
  · cases h : codexCompileExecutionPolicy exampleOpen with
    | error error =>
      obtain ⟨message, rfl⟩ := codexCompile_error h
      exact ⟨message, rfl⟩
    | ok artifacts => exact absurd ((codexCompile_ok h).1.network rfl) (by decide)
  · have hrepresents : CursorRepresents exampleOpen := ⟨rfl, by decide, by decide, by decide⟩
    obtain ⟨artifacts, h⟩ := (@cursorCompile_ok_iff Json.exactDecimals _).mpr hrepresents
    have hwrites := (cursor_faithful h).writes_iff.mpr (Or.inr rfl)
    refine ⟨artifacts, h, hwrites, fun hnoMore => ?_⟩
    have haccess : exampleOpen.workspace.access = .write := hnoMore.writes hwrites
    exact absurd haccess (by decide)

/-- A policy that both can represent. -/
def exampleListed : ExecutionPolicy := { exampleBaseline with credentials := ⟨⟨.deny⟩⟩ }

example : (codexCompileExecutionPolicy exampleListed).toOption.isSome = true ∧
    (cursorCompileExecutionPolicy Json.exactDecimals exampleListed).toOption.isSome = true := by
  decide +kernel

end AgentDev.Agents
