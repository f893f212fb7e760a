import AgentDev.Agents.CodexSettings
import AgentDev.Policy.Serialization
import AgentDev.Python.Surrogates

/-!
# The sandbox of Cursor

What the compiler of Cursor gives: no sandbox at all, for a policy that requires none and allows every
destination, or the sandbox with a file `sandbox.json` (`cursorCompile_ok`). The file is read as the
document that it was written from, for any destinations; only a pair of surrogates in one of them is
read as the character that it stands for (`sandboxJson_ok`).
-/

namespace AgentDev.Agents

open Python Policy

variable {floats : Json.FloatText}

/-! ## The document -/

def sandboxType (access : Access) : Str :=
  if access = .read then str "workspace_readonly" else str "workspace_readwrite"

/-- The document with its keys in order. -/
def sortedDocument (access : Access) (allow : List Str) : Value :=
  record [
    ("networkPolicy", record [("allow", .seq (allow.map .str)), ("default", .str (str "deny")),
      ("deny", .seq (cursorSandboxPrivateDenies.map .str))]),
    ("type", .str (sandboxType access))]

theorem arrange_sandboxDocument (access : Access) (allow : List Str) :
    Json.arrange (sandboxDocument access allow) = sortedDocument access allow := by
  have hallow : Json.arrange (.seq (allow.map .str)) = .seq (allow.map .str) :=
    congrArg Value.seq (arrangeAll_str allow)
  have hdeny : Json.arrange (.seq (cursorSandboxPrivateDenies.map .str)) =
      .seq (cursorSandboxPrivateDenies.map .str) := congrArg Value.seq (arrangeAll_str _)
  have hpolicy : Json.arrange (record [("default", .str (str "deny")),
      ("allow", .seq (allow.map .str)), ("deny", .seq (cursorSandboxPrivateDenies.map .str))]) =
      record [("allow", .seq (allow.map .str)), ("default", .str (str "deny")),
        ("deny", .seq (cursorSandboxPrivateDenies.map .str))] := by
    show Value.dict (Json.sortItems [(.str (str "default"), .str (str "deny")),
      (.str (str "allow"), Json.arrange (.seq (allow.map .str))),
      (.str (str "deny"), Json.arrange (.seq (cursorSandboxPrivateDenies.map .str)))]) = _
    rw [hallow, hdeny]
    rfl
  show Value.dict (Json.sortItems [(.str (str "type"), .str (sandboxType access)),
    (.str (str "networkPolicy"), Json.arrange _)]) = _
  rw [hpolicy]
  rfl

theorem writeAll_str (strings : List Str) :
    Json.writeAll floats sandboxFormat (strings.map .str) =
      .ok (strings.map (Json.writeStr true)) := by
  induction strings with
  | nil => rfl
  | cons s rest ih =>
    rw [List.map_cons, Json.writeAll, ih]
    rfl

/-- Destinations are written like those in which the pairs of surrogates are joined. -/
theorem write_rejoin (access : Access) (allow : List Str) :
    Json.write floats sandboxFormat (sortedDocument access (allow.map Json.rejoin)) =
      Json.write floats sandboxFormat (sortedDocument access allow) := by
  have hallow : Json.write floats sandboxFormat (.seq ((allow.map Json.rejoin).map .str)) =
      Json.write floats sandboxFormat (.seq (allow.map .str)) := by
    have htexts : (allow.map Json.rejoin).map (Json.writeStr true) = allow.map (Json.writeStr true) := by
      rw [List.map_map]
      exact List.map_congr_left fun s _ => Json.writeStr_rejoin s
    rw [Json.write, Json.write, writeAll_str, writeAll_str, htexts]
  simp only [sortedDocument, record, Policy.items, List.map_cons, List.map_nil, Json.write,
    Json.writeItems] at hallow ⊢
  rw [hallow]

theorem serializable_strings {strings : List Str} (h : ∀ s ∈ strings, Json.PairFree s) :
    Json.AllSerializable sandboxFormat (strings.map .str) := by
  induction strings with
  | nil => trivial
  | cons s rest ih =>
    exact ⟨fun _ => h s List.mem_cons_self, ih fun other hother => h other (List.mem_cons_of_mem s hother)⟩

theorem serializable_document (fields : List (String × Value))
    (hnodup : (Policy.items fields).names.Nodup)
    (h : ∀ field ∈ fields, Json.Serializable sandboxFormat field.2) :
    Json.Serializable sandboxFormat (record fields) := by
  refine ⟨hnodup, Json.itemsSerializable_iff.mpr ?_⟩
  intro item hitem
  obtain ⟨field, hfield, rfl⟩ := List.mem_map.mp hitem
  exact ⟨str field.1, rfl, fun _ => Json.pairFree_str field.1, h field hfield⟩

theorem serializable_sortedDocument (access : Access) {allow : List Str}
    (h : ∀ s ∈ allow, Json.PairFree s) :
    Json.Serializable sandboxFormat (sortedDocument access allow) := by
  have hdeny : ∀ s ∈ cursorSandboxPrivateDenies, Json.PairFree s := by
    simp only [cursorSandboxPrivateDenies, List.forall_mem_cons]
    exact ⟨Json.pairFree_str _, Json.pairFree_str _, Json.pairFree_str _, Json.pairFree_str _,
      Json.pairFree_str _, Json.pairFree_str _, Json.pairFree_str _, Json.pairFree_str _,
      List.forall_mem_nil _⟩
  have htype : Json.PairFree (sandboxType access) := by
    unfold sandboxType
    split
    · exact Json.pairFree_str _
    · exact Json.pairFree_str _
  refine serializable_document _ (show [str "networkPolicy", str "type"].Nodup by decide) ?_
  simp only [List.forall_mem_cons]
  refine ⟨?_, fun _ => htype, List.forall_mem_nil _⟩
  refine serializable_document _
    (show [str "allow", str "default", str "deny"].Nodup by decide) ?_
  simp only [List.forall_mem_cons]
  exact ⟨serializable_strings h, fun _ => Json.pairFree_str _, serializable_strings hdeny,
    List.forall_mem_nil _⟩

/-- The file is read as the document. -/
theorem sandboxJson_ok (floats : Json.FloatText) (access : Access) (allow : List Str) :
    ∃ text, Json.dumps floats sandboxFormat (sandboxDocument access allow) = .ok text ∧
      Json.loads floats (text ++ str "\n") = .ok (sortedDocument access (allow.map Json.rejoin)) ∧
      ∀ c ∈ text, 0x20 ≤ c.val := by
  have hserial : Json.Serializable sandboxFormat
      (sortedDocument access (allow.map Json.rejoin)) := by
    apply serializable_sortedDocument
    intro s hs
    obtain ⟨d, -, rfl⟩ := List.mem_map.mp hs
    exact Json.pairFree_rejoin d
  obtain ⟨text, hwrite⟩ : ∃ text, Json.write floats sandboxFormat
      (sortedDocument access (allow.map Json.rejoin)) = .ok text := Json.write_ok _ hserial
  refine ⟨text, ?_, ?_, fun c hc => (Json.mem_write _ hwrite hserial c hc).not_control⟩
  · rw [write_rejoin] at hwrite
    rw [← hwrite, ← arrange_sandboxDocument]
    rfl
  · apply Json.loads_write_append hwrite hserial
    intro c hc
    rw [List.mem_singleton.mp hc]
    decide

/-! ## The compiler -/

/-- The artifacts without a sandbox. -/
def openArtifacts : ProviderPolicyArtifacts.Fields where
  argv := [str "--sandbox", str "disabled"]
  runtimeIsolation := cursorControlIsolation

/-- The artifacts with a sandbox. -/
def sandboxedArtifacts (file : GeneratedPolicyFileSpec) : ProviderPolicyArtifacts.Fields where
  generatedFiles := [file]
  argv := [str "--sandbox", str "enabled"]
  runtimeIsolation := cursorSandboxIsolation

/-- The file of a sandbox. -/
structure IsSandboxFile (floats : Json.FloatText) (access : Access) (allow : List Str)
    (file : GeneratedPolicyFileSpec) : Prop where
  target : file.target = cursorSandboxPolicyTarget
  readOnly : file.readOnly = true
  content : ∃ text, Json.dumps floats sandboxFormat (sandboxDocument access allow) = .ok text ∧
    file.content = text ++ str "\n"
  loads : Json.loads floats file.content = .ok (sortedDocument access (allow.map Json.rejoin))

/-- What the sandbox allows are the destinations of the policy. -/
theorem cursorTaskEgress_ok (floats : Json.FloatText) {access : Access} (haccess : access ≠ .none)
    {network : TaskShellNetworkPolicy} (hmode : network.mode ≠ .allow) :
    ∃ text, Json.dumps floats sandboxFormat (sandboxDocument access network.destinations.items) =
        .ok text ∧
      cursorTaskEgressSandboxJson floats access network.mode network.destinations.items =
        .ok (text ++ str "\n") ∧
      Json.loads floats (text ++ str "\n") =
        .ok (sortedDocument access (network.destinations.items.map Json.rejoin)) ∧
      ∀ c ∈ text, 0x20 ≤ c.val := by
  obtain ⟨text, hdumps, hloads, hcontrol⟩ :=
    sandboxJson_ok floats access network.destinations.items
  refine ⟨text, hdumps, ?_, hloads, hcontrol⟩
  have hallowed : sandboxAllowed network.mode network.destinations.items =
      .ok network.destinations.items := by
    have hlisted := network.listed
    cases hnetwork : network.mode with
    | allow => exact absurd hnetwork hmode
    | deny =>
      have hnil : network.destinations.items = [] := by
        by_contra hne
        rw [hlisted.mpr hne] at hnetwork
        cases hnetwork
      rw [hnil]
      rfl
    | allowlist =>
      have hne := hlisted.mp hnetwork
      cases hitems : network.destinations.items with
      | nil => exact absurd hitems hne
      | cons d rest => rfl
  have hdocument : dumpsDocument floats (sandboxDocument access network.destinations.items) =
      .ok text := by
    rw [dumpsDocument, hdumps]
  rw [cursorTaskEgressSandboxJson, hallowed, ensure, if_pos (decide_eq_true haccess)]
  show (dumpsDocument floats (sandboxDocument access network.destinations.items) >>= _) = _
  rw [hdocument]
  rfl

theorem sandboxFile_checked {content : Str} (h : 0 ∉ content) :
    (⟨str "sandbox.json", cursorSandboxPolicyTarget, content, true⟩ :
      GeneratedPolicyFileSpec.Fields).postInit = .ok () := by
  have hname : requireText (str "sandbox.json") (str "generated policy name") = .ok () := rfl
  have htarget : requireContainerTarget cursorSandboxPolicyTarget
      (str "generated policy target") = .ok () := rfl
  refine bind_ok_iff.mpr ⟨(), hname, ensure_then_ok.mpr ⟨rfl, ?_⟩⟩
  exact bind_ok_iff.mpr ⟨(), htarget, ensure_ok.mpr (decide_eq_true h)⟩

theorem cursorCompile_ok {policy : ExecutionPolicy} {artifacts : ProviderPolicyArtifacts}
    (h : cursorCompileExecutionPolicy floats policy = .ok artifacts) :
    policy.workspace.access ≠ .none ∧
    (policy.credentials.providerAuth.taskShell = .deny → policy.sandbox.required = true) ∧
    (policy.network.taskShell.mode = .allow ∧ policy.sandbox.required = false ∧
        artifacts.toFields = openArtifacts ∨
      policy.network.taskShell.mode ≠ .allow ∧ policy.sandbox.required = true ∧
        ∃ file, IsSandboxFile floats policy.workspace.access policy.network.taskShell.destinations.items
          file ∧ artifacts.toFields = sandboxedArtifacts file) := by
  obtain ⟨_, -, h⟩ := bind_ok_iff.mp h
  obtain ⟨haccess, h⟩ := ensure_then_ok.mp h
  obtain ⟨hcredentials, h⟩ := ensure_then_ok.mp h
  have haccess := of_decide_eq_true haccess
  refine ⟨haccess, ?_, ?_⟩
  · intro hdeny
    rw [hdeny] at hcredentials
    cases hrequired : policy.sandbox.required with
    | true => rfl
    | false =>
      rw [hrequired] at hcredentials
      cases hcredentials
  split at h
  · rename_i hallow
    obtain ⟨hrequired, h⟩ := ensure_then_ok.mp h
    obtain ⟨_, rfl⟩ := construct_ok.mp (compileLift_ok.mp h)
    exact Or.inl ⟨hallow, by simpa using hrequired, rfl⟩
  · rename_i hmode
    obtain ⟨hrequired, h⟩ := ensure_then_ok.mp h
    obtain ⟨content, hcontent, h⟩ := bind_ok_iff.mp h
    obtain ⟨file, hfile, h⟩ := bind_ok_iff.mp h
    obtain ⟨_, rfl⟩ := construct_ok.mp (compileLift_ok.mp hfile)
    obtain ⟨_, rfl⟩ := construct_ok.mp (compileLift_ok.mp h)
    obtain ⟨text, hdumps, hjson, hloads, -⟩ := cursorTaskEgress_ok floats haccess hmode
    rw [compileLift_ok.mp hcontent] at hjson
    cases hjson
    exact Or.inr ⟨hmode, hrequired, _, ⟨rfl, rfl, ⟨text, hdumps, rfl⟩, hloads⟩, rfl⟩

/-- The artifacts with a sandbox pass their checks. -/
theorem sandboxedArtifacts_checked (floats : Json.FloatText) {access : Access} (haccess : access ≠ .none)
    {network : TaskShellNetworkPolicy} (hmode : network.mode ≠ .allow) :
    ∃ text file artifacts,
      cursorTaskEgressSandboxJson floats access network.mode network.destinations.items =
        .ok (text ++ str "\n") ∧
      GeneratedPolicyFileSpec.make
        ⟨str "sandbox.json", cursorSandboxPolicyTarget, text ++ str "\n", true⟩ = .ok file ∧
      ProviderPolicyArtifacts.make (sandboxedArtifacts file) = .ok artifacts := by
  obtain ⟨text, -, hjson, -, hcontrol⟩ := cursorTaskEgress_ok floats haccess hmode
  have hnul : 0 ∉ text ++ str "\n" := by
    intro hmem
    rcases List.mem_append.mp hmem with hmem | hmem
    · exact absurd (hcontrol 0 hmem) (by decide)
    · exact absurd hmem (by decide)
  have hchecked : (sandboxedArtifacts ⟨_, sandboxFile_checked hnul⟩).postInit = .ok () := rfl
  exact ⟨text, ⟨_, sandboxFile_checked hnul⟩, ⟨_, hchecked⟩, hjson,
    construct_ok.mpr ⟨sandboxFile_checked hnul, rfl⟩, construct_ok.mpr ⟨hchecked, rfl⟩⟩

theorem openArtifacts_checked :
    ∃ artifacts, ProviderPolicyArtifacts.make openArtifacts = .ok artifacts := by
  have hchecked : openArtifacts.postInit = .ok () := rfl
  exact ⟨⟨_, hchecked⟩, construct_ok.mpr ⟨hchecked, rfl⟩⟩

/-- The compiler raises no error of another class. -/
theorem cursorCompile_error {policy : ExecutionPolicy} {error : CompileError}
    (h : cursorCompileExecutionPolicy floats policy = .error error) :
    ∃ message, error = .unsupported message := by
  apply Unsupporting.bind (fun _ => checkPolicyCapabilities_error (by decide +kernel)) _ error h
  intro _ _
  apply Unsupporting.bind (unsupporting_ensure _ _)
  intro _ haccess
  have haccess := of_decide_eq_true (ensure_ok.mp haccess)
  apply Unsupporting.bind (unsupporting_ensure _ _)
  intro _ _
  split
  · apply Unsupporting.bind (unsupporting_ensure _ _)
    intro _ _
    obtain ⟨artifacts, hmake⟩ := openArtifacts_checked
    exact unsupporting_of_ok (compileLift_ok.mpr hmake)
  · rename_i hmode
    apply Unsupporting.bind (unsupporting_ensure _ _)
    intro _ _
    obtain ⟨text, file, artifacts, hjson, hfile, hmake⟩ :=
      sandboxedArtifacts_checked floats haccess hmode
    rw [hjson]
    show Unsupporting (compileLift (GeneratedPolicyFileSpec.make _) >>= _)
    rw [hfile]
    exact unsupporting_of_ok (compileLift_ok.mpr hmake)

/-! ## What is accepted -/

/-- The policies that the compiler accepts. -/
structure CursorRepresents (policy : ExecutionPolicy) : Prop where
  security : policy.securityClass = .compatibility
  access : policy.workspace.access ≠ .none
  credentials : policy.credentials.providerAuth.taskShell = .deny → policy.sandbox.required = true
  network : policy.network.taskShell.mode = .allow ↔ policy.sandbox.required = false

theorem cursorCapabilities_iff {policy : ExecutionPolicy} :
    checkPolicyCapabilities policy cursorDriver = .ok () ↔
      policy.securityClass = .compatibility := by
  rw [checkPolicyCapabilities_ok]
  constructor
  · intro hsubset
    cases hclass : policy.securityClass with
    | compatibility => rfl
    | hardened =>
      have hmem : securityClassPrefix ++ SecurityClass.hardened.text ∈
          (CapabilityRequirement.fromPolicy policy).required := by
        rw [← hclass]
        exact List.mem_toFinset.mpr List.mem_cons_self
      exact absurd (hsubset hmem) (by decide +kernel)
  · intro hclass name hname
    have hname : name ∈ requiredNames policy := List.mem_toFinset.mp hname
    have hfixed : ∀ fixed : List Str, fixed.all (fun name =>
        name ∈ availableCapabilities cursorDriver.capabilities) = true → name ∈ fixed →
        name ∈ availableCapabilities cursorDriver.capabilities := fun fixed hall hmem =>
      of_decide_eq_true (List.all_eq_true.mp hall name hmem)
    simp only [requiredNames, hclass, reduceCtorEq, if_false, List.append_nil] at hname
    cases haccess : policy.workspace.access with
    | none =>
      rw [haccess] at hname
      exact hfixed _ (by decide +kernel) hname
    | read =>
      rw [haccess] at hname
      exact hfixed _ (by decide +kernel) hname
    | write =>
      rw [haccess] at hname
      exact hfixed _ (by decide +kernel) hname

/-- What the compiler accepts depends on four fields. -/
theorem cursorCompile_ok_iff {policy : ExecutionPolicy} :
    (∃ artifacts, cursorCompileExecutionPolicy floats policy = .ok artifacts) ↔
      CursorRepresents policy := by
  constructor
  · intro h
    obtain ⟨artifacts, h⟩ := h
    obtain ⟨haccess, hcredentials, hcases⟩ := cursorCompile_ok h
    obtain ⟨_, hcapable, -⟩ := bind_ok_iff.mp h
    refine ⟨cursorCapabilities_iff.mp hcapable, haccess, hcredentials, ?_⟩
    rcases hcases with ⟨hmode, hrequired, -⟩ | ⟨hmode, hrequired, -⟩
    · exact iff_of_true hmode hrequired
    · exact iff_of_false hmode (by simp [hrequired])
  · intro h
    have hcapable := cursorCapabilities_iff.mpr h.security
    have hhidden : (!(policy.credentials.providerAuth.taskShell = .deny &&
        !policy.sandbox.required)) = true := by
      cases hrequired : policy.sandbox.required with
      | true => simp
      | false =>
        have hvisible : policy.credentials.providerAuth.taskShell ≠ .deny := by
          intro hdeny
          rw [h.credentials hdeny] at hrequired
          cases hrequired
        simp [hvisible]
    by_cases hmode : policy.network.taskShell.mode = .allow
    · obtain ⟨artifacts, hmake⟩ := openArtifacts_checked
      refine ⟨artifacts, bind_ok_iff.mpr ⟨(), hcapable, ensure_then_ok.mpr
        ⟨decide_eq_true h.access, ensure_then_ok.mpr ⟨hhidden, ?_⟩⟩⟩⟩
      rw [if_pos hmode, h.network.mp hmode]
      exact compileLift_ok.mpr hmake
    · have hrequired : policy.sandbox.required = true := by
        cases hrequired : policy.sandbox.required with
        | true => rfl
        | false => exact absurd (h.network.mpr hrequired) hmode
      obtain ⟨text, file, artifacts, hjson, hfile, hmake⟩ :=
        sandboxedArtifacts_checked floats h.access hmode
      refine ⟨artifacts, bind_ok_iff.mpr ⟨(), hcapable, ensure_then_ok.mpr
        ⟨decide_eq_true h.access, ensure_then_ok.mpr ⟨hhidden, ?_⟩⟩⟩⟩
      rw [if_neg hmode]
      refine ensure_then_ok.mpr ⟨hrequired, bind_ok_iff.mpr ⟨_, compileLift_ok.mpr hjson,
        bind_ok_iff.mpr ⟨file, compileLift_ok.mpr hfile, compileLift_ok.mpr hmake⟩⟩⟩

end AgentDev.Agents
