import AgentDev.Agents.DomainTables
import AgentDev.Python.JsonCharacters

/-!
# Settings of Codex

What the compiler of Codex gives: a sandbox, and settings with different keys, of which the last one for
a key would count (`codexCompile_ok`, `setting_codex`). The compiler raises nothing but the error of its
own class (`codexCompile_error`).
-/

namespace AgentDev.Agents

open Python Policy

/-! ## Arguments of Codex -/

/-- The key and the value of a setting. -/
def splitSetting (text : Str) : Str × Str :=
  (text.takeWhile (· ≠ 61), (text.dropWhile (· ≠ 61)).tail)

/-- The settings among the arguments, in order. -/
def settings : List Str → List (Str × Str)
  | [] => []
  | [_] => []
  | option :: value :: rest =>
    if option = str "-c" then splitSetting value :: settings rest else settings (value :: rest)

/-- The value of a key: the last assignment wins. -/
def setting (argv : List Str) (key : Str) : Option Str := (settings argv).reverse.lookup key

/-- The value of the option `--sandbox`. -/
def sandboxOption : List Str → Option Str
  | [] => none
  | [_] => none
  | option :: value :: rest =>
    if option = str "--sandbox" then some value else sandboxOption (value :: rest)

/-- `key=value` -/
def settingText (pair : Str × Str) : Str := pair.1 ++ str "=" ++ pair.2

theorem splitSetting_text {pair : Str × Str} (h : 61 ∉ pair.1) :
    splitSetting (settingText pair) = pair := by
  have hkey : ∀ c ∈ pair.1, decide (c ≠ 61) = true := fun c hc =>
    decide_eq_true fun heq => h (heq ▸ hc)
  have hsplit : settingText pair = pair.1 ++ 61 :: pair.2 := by
    unfold settingText
    rw [List.append_assoc]
    rfl
  rw [splitSetting, hsplit, List.takeWhile_append_of_pos hkey, List.dropWhile_append_of_pos hkey,
    List.takeWhile_cons_of_neg (by decide), List.dropWhile_cons_of_neg (by decide), List.append_nil]
  rfl

theorem settings_configArgv {pairs : List (Str × Str)} (h : ∀ pair ∈ pairs, 61 ∉ pair.1) :
    settings (configArgv (pairs.map settingText)) = pairs := by
  induction pairs with
  | nil => rfl
  | cons pair rest ih =>
    show settings (str "-c" :: settingText pair :: configArgv (rest.map settingText)) = _
    rw [settings, if_pos rfl, splitSetting_text (h pair List.mem_cons_self),
      ih fun other hother => h other (List.mem_cons_of_mem pair hother)]

/-- Keys that differ have one value each. -/
theorem lookup_reverse {pairs : List (Str × Str)} (h : (pairs.map Prod.fst).Nodup) {key value : Str} :
    pairs.reverse.lookup key = some value ↔ (key, value) ∈ pairs := by
  constructor
  · intro hlookup
    obtain ⟨before, after, hsplit, -⟩ := List.lookup_eq_some_iff.mp hlookup
    rw [← List.mem_reverse, hsplit]
    simp
  · intro hmem
    obtain ⟨before, after, hsplit⟩ := List.append_of_mem (List.mem_reverse.mpr hmem)
    refine List.lookup_eq_some_iff.mpr ⟨before, after, hsplit, ?_⟩
    intro pair hpair
    rw [bne_iff_ne]
    have hnodup : (pairs.reverse.map Prod.fst).Nodup := by
      rw [List.map_reverse]
      exact List.nodup_reverse.mpr h
    rw [hsplit, List.map_append, List.nodup_append] at hnodup
    exact (hnodup.2.2 pair.1 (List.mem_map_of_mem hpair) key
      (List.mem_map.mpr ⟨(key, value), List.mem_cons_self, rfl⟩)).symm

/-! ## What is compiled -/

def sandboxName (access : Access) : Str :=
  if access = .read then str "read-only" else str "workspace-write"

/-- The switches that could let traffic pass by the proxy. -/
def bypassSwitches : List Str :=
  [str "features.network_proxy.enable_socks5", str "features.network_proxy.enable_socks5_udp",
    str "features.network_proxy.allow_upstream_proxy",
    str "features.network_proxy.dangerously_allow_non_loopback_proxy",
    str "features.network_proxy.dangerously_allow_all_unix_sockets",
    str "features.network_proxy.allow_local_binding"]

def networkAccess : Str := str "sandbox_workspace_write.network_access"

def proxyEnabled : Str := str "features.network_proxy.enabled"

def proxyDomains : Str := str "features.network_proxy.domains"

def allowlistSettings (destinations : List Str) : List (Str × Str) :=
  [(networkAccess, str "true"),
    (str "projects", str "\x7b \"/workspace\" = \x7b trust_level = \"untrusted\" \x7d \x7d"),
    (proxyEnabled, str "true")] ++
  (bypassSwitches.take 5).map (fun switch => (switch, str "false")) ++
  [(str "features.network_proxy.mode", str "\"full\"")] ++
  (bypassSwitches.drop 5).map (fun switch => (switch, str "false")) ++
  [(proxyDomains, domainTable destinations)]

def networkSettings (access : Access) (network : TaskShellNetworkPolicy) : List (Str × Str) :=
  match access, network.mode with
  | .write, .deny => [(networkAccess, str "false")]
  | .write, .allow => [(networkAccess, str "true"), (proxyEnabled, str "false")]
  | .write, .allowlist => allowlistSettings network.destinations.items
  | _, _ => []

def defaultPermissions : Str := str "default_permissions"

def profileText : Str := str "\"" ++ codexCredentialPermissionProfile ++ str "\""

def profileKey (name : String) : Str :=
  str "permissions." ++ codexCredentialPermissionProfile ++ str name

def baseProfile (access : Access) : Str :=
  if access = .read then str "\":read-only\"" else str "\":workspace\""

def deniedFiles : Str :=
  str "\x7b \"" ++ codexProviderStateTarget ++ str "\" = \"deny\", \"" ++ codexProviderStateTarget ++
    str "/**\" = \"deny\" \x7d"

def credentialSettings (access : Access) : List (Str × Str) :=
  [(defaultPermissions, profileText), (profileKey ".extends", baseProfile access),
    (profileKey ".filesystem", deniedFiles),
    (str "shell_environment_policy.inherit", str "\"all\""),
    (str "shell_environment_policy.ignore_default_excludes", str "false"),
    (str "history.persistence", str "\"none\"")]

def codexSettings (policy : ExecutionPolicy) : List (Str × Str) :=
  (str "approval_policy", str "never") ::
    (networkSettings policy.workspace.access policy.network.taskShell ++
      if policy.credentials.providerAuth.taskShell = .deny then
        credentialSettings policy.workspace.access
      else [])

/-- What Codex cannot represent. -/
structure CodexRepresents (policy : ExecutionPolicy) : Prop where
  access : policy.workspace.access ≠ .none
  network : policy.workspace.access = .read → policy.network.taskShell.mode = .deny
  credentials : policy.credentials.providerAuth.taskShell = .deny → policy.sandbox.required = true

theorem settingText_str (s t : String) : settingText (str s, str t) = str (s ++ "=" ++ t) := by
  rw [settingText, str_append, str_append]

theorem settingText_domains (destinations : List Str) :
    settingText (proxyDomains, domainTable destinations) = tomlDomainAllowlist destinations := by
  simp only [settingText, proxyDomains, ← str_append, String.reduceAppend, tomlDomainAllowlist]

theorem codexTaskEgress_deny :
    codexTaskEgressConfigArgv .deny [] =
      .ok (configArgv ([(networkAccess, str "false")].map settingText)) := by
  simp only [networkAccess, List.map_cons, List.map_nil, settingText_str, String.reduceAppend]
  rfl

theorem codexTaskEgress_allowlist {destinations : List Str} (h : destinations ≠ []) :
    codexTaskEgressConfigArgv .allowlist destinations =
      .ok (configArgv ((allowlistSettings destinations).map settingText)) := by
  simp only [allowlistSettings, networkAccess, proxyEnabled, bypassSwitches, List.take, List.drop,
    List.map_cons, List.map_nil, List.cons_append, List.nil_append, settingText_str,
    settingText_domains, String.reduceAppend]
  cases destinations with
  | nil => exact absurd rfl h
  | cons d rest => rfl

theorem credentialSettings_texts (access : Access) :
    (credentialSettings access).map settingText = [
      str "default_permissions=\"" ++ codexCredentialPermissionProfile ++ str "\"",
      str "permissions." ++ codexCredentialPermissionProfile ++ str ".extends=" ++ baseProfile access,
      str "permissions." ++ codexCredentialPermissionProfile ++ str ".filesystem=\x7b \"" ++
        codexProviderStateTarget ++ str "\" = \"deny\", \"" ++ codexProviderStateTarget ++
        str "/**\" = \"deny\" \x7d",
      str "shell_environment_policy.inherit=\"all\"",
      str "shell_environment_policy.ignore_default_excludes=false",
      str "history.persistence=\"none\""] := by
  have hextends : settingText (profileKey ".extends", baseProfile access) =
      str "permissions." ++ codexCredentialPermissionProfile ++ str ".extends=" ++ baseProfile access := by
    simp only [settingText, profileKey, codexCredentialPermissionProfile, ← str_append,
      String.reduceAppend]
  simp only [credentialSettings, defaultPermissions, profileText, List.map_cons, List.map_nil, hextends]
  simp only [profileKey, deniedFiles, codexCredentialPermissionProfile, codexProviderStateTarget,
    ← str_append, settingText_str, String.reduceAppend]

theorem codexCredentials_ok {access : Access} (h : access ≠ .none) :
    codexCredentialConfidentialityConfigArgv access =
      .ok (configArgv ((credentialSettings access).map settingText)) := by
  rw [credentialSettings_texts]
  cases access with
  | none => exact absurd rfl h
  | read =>
    simp only [codexCredentialConfidentialityConfigArgv, pure, Except.pure, bind, Except.bind,
      baseProfile, codexCredentialPermissionProfile, ← str_append, String.reduceAppend, if_true]
  | write =>
    simp only [codexCredentialConfidentialityConfigArgv, pure, Except.pure, bind, Except.bind,
      baseProfile, codexCredentialPermissionProfile, ← str_append, String.reduceAppend, reduceCtorEq,
      if_false]

/-- Every setting is one line. -/
theorem validText_domains (destinations : List Str) :
    validText (settingText (proxyDomains, domainTable destinations)) = true := by
  have hcontrol : ∀ c ∈ settingText (proxyDomains, domainTable destinations), 0x20 ≤ c.val := by
    have hfixed : ∀ s : Str, s.all (fun c => 0x20 ≤ c.val) = true → ∀ c ∈ s, 0x20 ≤ c.val :=
      fun s hs c hc => of_decide_eq_true (List.all_eq_true.mp hs c hc)
    intro c hc
    simp only [settingText, domainTable, List.mem_append] at hc
    rcases hc with (hc | hc) | ((hc | hc) | hc)
    · exact hfixed _ (by decide) c hc
    · exact hfixed _ (by decide) c hc
    · exact hfixed _ (by decide) c hc
    · rcases Json.mem_join hc with hc | ⟨entry, hentry, hc⟩
      · exact hfixed _ (by decide) c hc
      · obtain ⟨d, -, rfl⟩ := List.mem_map.mp hentry
        rcases List.mem_append.mp hc with hc | hc
        · rcases Json.mem_writeStr hc with hplain | ⟨hrange, -⟩
          · exact hplain.1
          · exact hrange
        · exact hfixed _ (by decide) c hc
    · exact hfixed _ (by decide) c hc
  have hnot : ∀ c : CodePoint, c.val < 0x20 →
      c ∉ settingText (proxyDomains, domainTable destinations) := fun c hlt hmem => by
    have := hcontrol c hmem
    omega
  simp only [validText, Bool.and_eq_true, decide_eq_true_eq]
  exact ⟨⟨List.cons_ne_nil _ _, hnot 0 (by decide)⟩, hnot 10 (by decide)⟩

theorem validText_codexSettings (policy : ExecutionPolicy) :
    ∀ pair ∈ codexSettings policy, validText (settingText pair) = true := by
  have hfixed : ∀ pairs : List (Str × Str), pairs.all (fun pair => validText (settingText pair)) = true →
      ∀ pair ∈ pairs, validText (settingText pair) = true := fun pairs h pair hpair =>
    List.all_eq_true.mp h pair hpair
  intro pair hpair
  rcases List.mem_cons.mp hpair with rfl | hpair
  · decide +kernel
  rcases List.mem_append.mp hpair with hpair | hpair
  · unfold networkSettings at hpair
    split at hpair
    · exact hfixed _ (by decide +kernel) pair hpair
    · exact hfixed _ (by decide +kernel) pair hpair
    · rcases List.mem_append.mp hpair with hpair | hpair
      · exact hfixed _ (by decide +kernel) pair hpair
      · rw [List.mem_singleton.mp hpair]
        exact validText_domains _
    · cases hpair
  · split at hpair
    · cases haccess : policy.workspace.access <;> rw [haccess] at hpair <;>
        exact hfixed _ (by decide +kernel) pair hpair
    · cases hpair

def networkKeys (access : Access) (mode : NetworkMode) : List Str :=
  match access, mode with
  | .write, .deny => [networkAccess]
  | .write, .allow => [networkAccess, proxyEnabled]
  | .write, .allowlist => (allowlistSettings []).map Prod.fst
  | _, _ => []

def codexKeys (access : Access) (mode : NetworkMode) (visibility : Visibility) : List Str :=
  str "approval_policy" :: (networkKeys access mode ++
    if visibility = .deny then (credentialSettings .read).map Prod.fst else [])

theorem codexKeys_eq (policy : ExecutionPolicy) :
    (codexSettings policy).map Prod.fst = codexKeys policy.workspace.access
      policy.network.taskShell.mode policy.credentials.providerAuth.taskShell := by
  have hnetwork : (networkSettings policy.workspace.access policy.network.taskShell).map Prod.fst =
      networkKeys policy.workspace.access policy.network.taskShell.mode := by
    unfold networkSettings networkKeys
    cases policy.workspace.access <;> cases policy.network.taskShell.mode <;> rfl
  rw [codexSettings, codexKeys, List.map_cons, List.map_append, hnetwork]
  split
  · rfl
  · rfl

/-- A list for destinations has all keys. -/
theorem codexKeys_sublist (access : Access) (mode : NetworkMode) (visibility : Visibility) :
    (codexKeys access mode visibility).Sublist (codexKeys .write .allowlist .deny) := by
  have hnetwork : (networkKeys access mode).Sublist (networkKeys .write .allowlist) := by
    cases access with
    | none => exact List.nil_sublist _
    | read => exact List.nil_sublist _
    | write =>
      cases mode with
      | deny => exact (List.nil_sublist _).cons_cons _
      | allow => exact (((List.nil_sublist _).cons_cons _).cons _).cons_cons _
      | allowlist => exact List.Sublist.refl _
  apply List.Sublist.cons_cons
  apply hnetwork.append
  cases visibility with
  | deny => exact List.Sublist.refl _
  | allow => exact List.nil_sublist _

/-- No key is set twice, and no key contains the sign that ends it. -/
theorem codexSettings_keys (policy : ExecutionPolicy) :
    ((codexSettings policy).map Prod.fst).Nodup ∧ ∀ pair ∈ codexSettings policy, 61 ∉ pair.1 := by
  have hnodup : (codexKeys .write .allowlist .deny).Nodup := by decide +kernel
  have hall : (codexKeys .write .allowlist .deny).all (fun key => 61 ∉ key) = true := by
    decide +kernel
  have hsublist : ((codexSettings policy).map Prod.fst).Sublist (codexKeys .write .allowlist .deny) :=
    codexKeys_eq policy ▸ codexKeys_sublist _ _ _
  refine ⟨hnodup.sublist hsublist, fun pair hpair => ?_⟩
  have hkey := hsublist.subset (List.mem_map_of_mem hpair)
  exact of_decide_eq_true (List.all_eq_true.mp hall pair.1 hkey)

/-! ## The compiler -/

/-- Only the error of a compiler is raised. -/
def Unsupporting {α : Type} (x : Except CompileError α) : Prop :=
  ∀ error, x = .error error → ∃ message, error = .unsupported message

theorem unsupporting_ok {α : Type} (a : α) : Unsupporting (.ok a) := fun _ h => nomatch h

theorem unsupporting_of_ok {α : Type} {x : Except CompileError α} {a : α} (h : x = .ok a) :
    Unsupporting x := h ▸ unsupporting_ok a

theorem unsupporting_error {α : Type} (text : Str) :
    Unsupporting (.error (unsupported text) : Except CompileError α) := by
  intro error h
  cases h
  exact ⟨_, rfl⟩

theorem unsupporting_ensure (condition : Bool) (text : Str) :
    Unsupporting (ensure condition (unsupported text)) := by
  unfold ensure
  split
  · exact unsupporting_ok ()
  · exact unsupporting_error text

theorem Unsupporting.bind {α β : Type} {x : Except CompileError α} {f : α → Except CompileError β}
    (hx : Unsupporting x) (hf : ∀ a, x = .ok a → Unsupporting (f a)) : Unsupporting (x >>= f) := by
  cases x with
  | ok a => exact hf a rfl
  | error e =>
    intro error h
    cases h
    exact hx e rfl

theorem requirePolicyCapabilities_eq (policy : ExecutionPolicy) (driver : AgentDriver) :
    requirePolicyCapabilities policy driver.capabilities (some driver.id) =
      if (CapabilityRequirement.fromPolicy policy).required \
          availableCapabilities driver.capabilities = ∅ then
        .ok (CapabilityRequirement.fromPolicy policy)
      else .error (missingCapabilities ((CapabilityRequirement.fromPolicy policy).required \
        availableCapabilities driver.capabilities) (some driver.id)) := by
  show ((if (CapabilityRequirement.fromPolicy policy).required \
      availableCapabilities driver.capabilities = ∅ then Except.ok () else Except.error _) >>=
    fun _ => Except.ok (CapabilityRequirement.fromPolicy policy)) = _
  split
  · rfl
  · rfl

theorem checkPolicyCapabilities_ok {policy : ExecutionPolicy} {driver : AgentDriver} :
    checkPolicyCapabilities policy driver = .ok () ↔
      (CapabilityRequirement.fromPolicy policy).required ⊆ availableCapabilities driver.capabilities := by
  rw [checkPolicyCapabilities, requirePolicyCapabilities_eq, ← Finset.sdiff_eq_empty_iff_subset]
  constructor
  · intro h
    by_contra hmissing
    rw [if_neg hmissing] at h
    split at h
    · rename_i hok
      cases hok
    · cases h
    · cases h
  · intro hmissing
    rw [if_pos hmissing]

/-- The check raises nothing but the error for missing capabilities, when the driver has a name. -/
theorem checkPolicyCapabilities_error {policy : ExecutionPolicy} {driver : AgentDriver}
    (hid : validCapabilityName driver.id = true) {error : CompileError}
    (h : checkPolicyCapabilities policy driver = .error error) :
    ∃ message, error = .unsupported message := by
  rw [checkPolicyCapabilities, requirePolicyCapabilities_eq] at h
  split at h
  · cases h
  · cases h
    exact ⟨_, rfl⟩
  · rename_i message hraised
    split at hraised
    · cases hraised
    · rw [missingCapabilities, if_pos hid] at hraised
      cases hraised

/-- What a compiler gives when its checks pass. -/
theorem codexArtifacts_checked (policy : ExecutionPolicy)
    (isolation : RuntimeIsolationRequirements) :
    (⟨[], [str "--sandbox", sandboxName policy.workspace.access] ++
      configArgv ((codexSettings policy).map settingText), [], isolation, []⟩ :
      ProviderPolicyArtifacts.Fields).postInit = .ok () := by
  refine ensure_then_ok.mpr ⟨rfl, bind_ok_iff.mpr ⟨(), checkAll_ok.mpr ?_, rfl⟩⟩
  intro text htext
  apply ensure_ok.mpr
  rcases List.mem_append.mp htext with htext | htext
  · rcases List.mem_pair.mp htext with rfl | rfl
    · decide +kernel
    · unfold sandboxName
      split <;> decide +kernel
  · obtain ⟨setting, hsetting, htext⟩ := List.mem_flatMap.mp htext
    rcases List.mem_pair.mp htext with rfl | rfl
    · decide +kernel
    · obtain ⟨pair, hpair, rfl⟩ := List.mem_map.mp hsetting
      exact validText_codexSettings policy pair hpair

def codexIsolation (policy : ExecutionPolicy) : RuntimeIsolationRequirements :=
  if policy.sandbox.required then codexSandboxIsolation else codexControlIsolation

theorem codexNetworkArgv_eq {access : Access} (haccess : access ≠ .none)
    (network : TaskShellNetworkPolicy) :
    codexNetworkArgv access network = if access = .read ∧ network.mode ≠ .deny then
        .error (unsupported (str "Codex read-only sandbox cannot enable task-shell network access"))
      else .ok (configArgv ((networkSettings access network).map settingText)) := by
  obtain ⟨mode, destinations, listed⟩ := network
  cases access with
  | none => exact absurd rfl haccess
  | read => cases mode <;> rfl
  | write =>
    cases mode with
    | deny => rw [codexNetworkArgv, codexTaskEgress_deny]; rfl
    | allow =>
      simp only [networkSettings, networkAccess, proxyEnabled, List.map_cons, List.map_nil,
        settingText_str, String.reduceAppend]
      rfl
    | allowlist =>
      show compileLift (codexTaskEgressConfigArgv .allowlist destinations.items) = _
      rw [codexTaskEgress_allowlist (listed.mp rfl)]
      rfl

theorem codexCredentialArgv_eq {policy : ExecutionPolicy} (haccess : policy.workspace.access ≠ .none) :
    codexCredentialArgv policy =
      if policy.credentials.providerAuth.taskShell = .deny ∧ policy.sandbox.required = false then
        .error (unsupported
          (str "Codex provider-auth task-shell deny requires provider-native sandboxing"))
      else .ok (configArgv ((if policy.credentials.providerAuth.taskShell = .deny then
        credentialSettings policy.workspace.access else []).map settingText)) := by
  unfold codexCredentialArgv
  rw [codexCredentials_ok haccess]
  by_cases hcredentials : policy.credentials.providerAuth.taskShell = .deny
  · rw [if_pos hcredentials, if_pos hcredentials]
    cases policy.sandbox.required with
    | true => rw [if_neg fun h => nomatch h.2]; rfl
    | false => rw [if_pos ⟨hcredentials, rfl⟩]; rfl
  · rw [if_neg hcredentials, if_neg hcredentials, if_neg fun h => hcredentials h.1]
    rfl

theorem codexArgv_eq (policy : ExecutionPolicy) :
    [str "--sandbox", if policy.workspace.access = .read then str "read-only"
        else str "workspace-write", str "-c", str "approval_policy=never"] ++
      configArgv ((networkSettings policy.workspace.access policy.network.taskShell).map
        settingText) ++
      configArgv ((if policy.credentials.providerAuth.taskShell = .deny then
        credentialSettings policy.workspace.access else []).map settingText) =
    [str "--sandbox", sandboxName policy.workspace.access] ++
      configArgv ((codexSettings policy).map settingText) := by
  rw [codexSettings, List.map_cons, List.map_append, configArgv, configArgv, configArgv,
    List.flatMap_cons, List.flatMap_append]
  simp only [List.append_assoc, settingText_str, String.reduceAppend]
  rfl

theorem compileLift_ok {α : Type} {x : Except Policy.Error α} {a : α} :
    compileLift x = .ok a ↔ x = .ok a := by
  cases x with
  | ok b => exact ⟨fun h => congrArg Except.ok (Except.ok.inj h), fun h => Except.ok.inj h ▸ rfl⟩
  | error e =>
    constructor
    · intro h
      cases h
    · intro h
      cases h

/-- What can be compiled becomes the sandbox and the settings of the policy. -/
theorem codexCompile_ok {policy : ExecutionPolicy} {artifacts : ProviderPolicyArtifacts}
    (h : codexCompileExecutionPolicy policy = .ok artifacts) :
    CodexRepresents policy ∧ artifacts.toFields = ⟨[], [str "--sandbox",
      sandboxName policy.workspace.access] ++ configArgv ((codexSettings policy).map settingText), [],
      codexIsolation policy, []⟩ := by
  obtain ⟨_, -, h⟩ := bind_ok_iff.mp h
  obtain ⟨haccess, h⟩ := ensure_then_ok.mp h
  have haccess := of_decide_eq_true haccess
  obtain ⟨network, hnetwork, h⟩ := bind_ok_iff.mp h
  obtain ⟨credentials, hcredentials, h⟩ := bind_ok_iff.mp h
  rw [codexNetworkArgv_eq haccess] at hnetwork
  rw [codexCredentialArgv_eq haccess] at hcredentials
  split at hnetwork
  · cases hnetwork
  · rename_i hread
    split at hcredentials
    · cases hcredentials
    · rename_i hhidden
      cases hnetwork
      cases hcredentials
      constructor
      · refine ⟨haccess, fun h => not_not.mp fun hne => hread ⟨h, hne⟩, fun h => ?_⟩
        exact Bool.eq_true_of_not_eq_false fun hfalse => hhidden ⟨h, hfalse⟩
      · obtain ⟨_, rfl⟩ := construct_ok.mp (compileLift_ok.mp h)
        rw [← codexArgv_eq]
        rfl

/-- The compiler raises no error of another class. -/
theorem codexCompile_error {policy : ExecutionPolicy} {error : CompileError}
    (h : codexCompileExecutionPolicy policy = .error error) :
    ∃ message, error = .unsupported message := by
  apply Unsupporting.bind (fun _ => checkPolicyCapabilities_error (by decide +kernel)) _ error h
  intro _ _
  apply Unsupporting.bind (unsupporting_ensure _ _)
  intro _ haccess
  have haccess := of_decide_eq_true (ensure_ok.mp haccess)
  apply Unsupporting.bind
  · rw [codexNetworkArgv_eq haccess]
    split
    · exact unsupporting_error _
    · exact unsupporting_ok _
  intro network hnetwork
  apply Unsupporting.bind
  · rw [codexCredentialArgv_eq haccess]
    split
    · exact unsupporting_error _
    · exact unsupporting_ok _
  intro credentials hcredentials
  rw [codexNetworkArgv_eq haccess] at hnetwork
  rw [codexCredentialArgv_eq haccess] at hcredentials
  split at hnetwork
  · cases hnetwork
  · split at hcredentials
    · cases hcredentials
    · cases hnetwork
      cases hcredentials
      have hchecked := codexArtifacts_checked policy (codexIsolation policy)
      rw [← codexArgv_eq] at hchecked
      have hmake : ProviderPolicyArtifacts.make _ = .ok ⟨_, hchecked⟩ := construct_ok.mpr ⟨hchecked, rfl⟩
      exact unsupporting_of_ok (compileLift_ok.mpr hmake)

/-- Each setting of the policy has its value. -/
theorem setting_codex {policy : ExecutionPolicy} {artifacts : ProviderPolicyArtifacts}
    (h : codexCompileExecutionPolicy policy = .ok artifacts) {key value : Str} :
    setting artifacts.argv key = some value ↔ (key, value) ∈ codexSettings policy := by
  obtain ⟨-, hfields⟩ := codexCompile_ok h
  obtain ⟨hnodup, hkeys⟩ := codexSettings_keys policy
  have hsettings : settings artifacts.argv = codexSettings policy := by
    rw [hfields]
    have hfirst : str "--sandbox" ≠ str "-c" := by decide
    have hsecond : sandboxName policy.workspace.access ≠ str "-c" := by
      unfold sandboxName
      split <;> decide
    show settings (str "--sandbox" :: sandboxName policy.workspace.access :: str "-c" ::
      settingText (str "approval_policy", str "never") :: configArgv _) = _
    rw [settings, if_neg hfirst, settings, if_neg hsecond]
    exact settings_configArgv hkeys
  rw [setting, hsettings]
  exact lookup_reverse hnodup

end AgentDev.Agents
