import AgentDev.Execution.Sources

/-!
# Prompts of runs

Which prompts get from a `run` request to the command of its plan. The broker limits the length of a
prompt, and the specification and the plan of a run want every argument on one line: a prompt is
carried exactly if it is blank, and then left out, or a single line (`prompt_carried_iff`).
-/

namespace AgentDev.Execution

open Python Policy Agents Files

/-! ## Commands -/

theorem requireArgv_ok {argv : List Str} {label : Str} :
    requireArgv argv label = .ok () ↔ argv ≠ [] ∧ ∀ text ∈ argv, validText text = true := by
  unfold requireArgv
  rw [ensure_then_ok, checkAll_ok]
  constructor
  · rintro ⟨hne, hall⟩
    refine ⟨?_, fun text htext => ensure_ok.mp (hall text htext)⟩
    intro hnil
    rw [hnil] at hne
    cases hne
  · rintro ⟨hne, hall⟩
    refine ⟨?_, fun text htext => ensure_ok.mpr (hall text htext)⟩
    cases argv with
    | nil => exact absurd rfl hne
    | cons text rest => rfl

/-- The argument for a prompt. -/
def promptArgs (prompt : Str) : List Str := if strip prompt ≠ [] then [prompt] else []

theorem ne_nil_of_strip {prompt : Str} (h : strip prompt ≠ []) : prompt ≠ [] := by
  intro hnil
  rw [hnil] at h
  exact h rfl

/-- A prompt that is no blank must be one line. -/
theorem validText_promptArgs {prompt : Str} :
    (∀ text ∈ promptArgs prompt, validText text = true) ↔
      strip prompt = [] ∨ 0 ∉ prompt ∧ 10 ∉ prompt := by
  unfold promptArgs
  by_cases hblank : strip prompt = []
  · rw [if_neg (not_not.mpr hblank)]
    exact ⟨fun _ => Or.inl hblank, fun _ => List.forall_mem_nil _⟩
  · rw [if_pos hblank, List.forall_mem_singleton]
    have hne := ne_nil_of_strip hblank
    simp [validText, hblank, hne]

theorem createRunSpecOf_eq_ok {command : List Str} {policy : ProviderPolicyArtifacts} {prompt : Str}
    {runSpec : RunSpec} (h : createRunSpecOf command policy prompt = .ok runSpec) :
    runSpec.toFields = {
      argv := command ++ policy.argv ++ promptArgs prompt
      policyArtifacts := policy
      runtimeIsolation := policy.runtimeIsolation
    } := by
  obtain ⟨_, rfl⟩ := construct_ok.mp h
  unfold promptArgs
  split
  · rfl
  · rw [List.append_nil]

/-- The words of a command are valid, the arguments of a policy were checked with it, and so only the
prompt can be refused. -/
theorem createRunSpecOf_ok_iff {command : List Str} {policy : ProviderPolicyArtifacts} {prompt : Str}
    (hne : command ≠ []) (hcommand : ∀ text ∈ command, validText text = true) :
    (∃ runSpec, createRunSpecOf command policy prompt = .ok runSpec) ↔
      strip prompt = [] ∨ 0 ∉ prompt ∧ 10 ∉ prompt := by
  have hpolicy : ∀ text ∈ policy.argv, validText text = true := by
    have hchecked := policy.checked
    obtain ⟨-, hchecked⟩ := ensure_then_ok.mp hchecked
    obtain ⟨_, hargv, -⟩ := bind_ok_iff.mp hchecked
    exact fun text htext => ensure_ok.mp (checkAll_ok.mp hargv text htext)
  rw [← validText_promptArgs]
  constructor
  · rintro ⟨runSpec, h⟩ text htext
    obtain ⟨_, hargv, -⟩ := bind_ok_iff.mp runSpec.checked
    rw [createRunSpecOf_eq_ok h] at hargv
    exact (requireArgv_ok.mp hargv).2 text (List.mem_append_right _ htext)
  · intro hprompt
    have hargv : requireArgv (command ++ policy.argv ++ promptArgs prompt) (str "run") = .ok () := by
      rw [requireArgv_ok]
      refine ⟨by simp [hne], ?_⟩
      intro text htext
      rcases List.mem_append.mp htext with hfixed | hlast
      · rcases List.mem_append.mp hfixed with hword | hflag
        · exact hcommand text hword
        · exact hpolicy text hflag
      · exact hprompt text hlast
    have hargs : (if strip prompt ≠ [] then command ++ policy.argv ++ [prompt]
        else command ++ policy.argv) = command ++ policy.argv ++ promptArgs prompt := by
      unfold promptArgs
      split
      · rfl
      · rw [List.append_nil]
    have hchecked : (⟨command ++ policy.argv ++ promptArgs prompt, [], true, policy,
        policy.runtimeIsolation⟩ : RunSpec.Fields).postInit = .ok () :=
      bind_ok_iff.mpr ⟨(), hargv, rfl⟩
    rw [← hargs] at hchecked
    exact ⟨⟨_, hchecked⟩, construct_ok.mpr ⟨hchecked, rfl⟩⟩

/-! ## Plans -/

section

variable {env : Surroundings} {cfg : Config}

theorem ResolvedExecutionPlan.make_argv {fields : ResolvedExecutionPlan.Fields}
    {plan : ResolvedExecutionPlan} (h : make fields = .ok plan) {argv : List Str}
    (hargv : argv ≠ [] ∧ ∀ text ∈ argv, validText text = true) :
    ∃ plan', make { fields with argv := argv } = .ok plan' ∧ plan'.argv = argv := by
  obtain ⟨hfields, -⟩ := construct_ok.mp h
  have hchecked : ({ fields with argv := argv } : Fields).postInit = .ok () := by
    unfold Fields.postInit at hfields ⊢
    simp only [bind_ok_iff] at hfields ⊢
    obtain ⟨_, hid, _, himage, _, -, hrest⟩ := hfields
    exact ⟨_, hid, _, himage, (), requireArgv_ok.mpr hargv, hrest⟩
  exact ⟨⟨_, hchecked⟩, construct_ok.mpr ⟨hchecked, rfl⟩, rfl⟩

/-- Only the check of the command reads the command. -/
theorem createRunExecutionPlan_argv {driver : AgentDriver} {context : TaskContext}
    {runSpec runSpec' : RunSpec} {readonly outerOnly : Bool} {securityClass : Str} {reference : Path}
    {gitCommon : Option Path} {plan : ResolvedExecutionPlan} {argv : List Str}
    (hsame : runSpec'.toFields = { runSpec.toFields with argv := argv })
    (h : createRunExecutionPlan env cfg driver context runSpec readonly outerOnly securityClass
      reference gitCommon = .ok plan) :
    ∃ plan', createRunExecutionPlan env cfg driver context runSpec' readonly outerOnly securityClass
      reference gitCommon = .ok plan' ∧ plan'.argv = argv := by
  have hargv : argv ≠ [] ∧ ∀ text ∈ argv, validText text = true := by
    obtain ⟨_, hargv, -⟩ := bind_ok_iff.mp runSpec'.checked
    rw [hsame] at hargv
    exact requireArgv_ok.mp hargv
  obtain ⟨workspace, hworkspace, h⟩ := bind_ok_iff.mp h
  obtain ⟨taskMeta, htaskMeta, h⟩ := bind_ok_iff.mp h
  obtain ⟨references, hreferences, h⟩ := bind_ok_iff.mp h
  obtain ⟨states, hstates, h⟩ := bind_ok_iff.mp h
  obtain ⟨files, hfiles, h⟩ := bind_ok_iff.mp h
  obtain ⟨generated, hgenerated, h⟩ := bind_ok_iff.mp h
  obtain ⟨seeds, hseeds, h⟩ := bind_ok_iff.mp h
  obtain ⟨auxiliary, hauxiliary, h⟩ := bind_ok_iff.mp h
  obtain ⟨baseCommit, hbaseCommit, h⟩ := bind_ok_iff.mp h
  obtain ⟨environment, henvironment, h⟩ := bind_ok_iff.mp h
  split at h
  · rename_i image himage
    obtain ⟨workspaceMount, hworkspaceMount, h⟩ := bind_ok_iff.mp h
    obtain ⟨taskMetadataMount, htaskMetadataMount, h⟩ := bind_ok_iff.mp h
    obtain ⟨artifacts, hartifacts, h⟩ := bind_ok_iff.mp h
    obtain ⟨limits, hlimits, h⟩ := bind_ok_iff.mp h
    obtain ⟨plan', hplan', heq⟩ := ResolvedExecutionPlan.make_argv (lift_ok.mp h) hargv
    refine ⟨plan', ?_, heq⟩
    simp only [createRunExecutionPlan, bind_ok_iff, hsame]
    refine ⟨workspace, hworkspace, taskMeta, htaskMeta, references, hreferences, states, hstates,
      files, hfiles, generated, hgenerated, seeds, hseeds, auxiliary, hauxiliary, baseCommit,
      hbaseCommit, environment, henvironment, ?_⟩
    rw [himage]
    exact bind_ok_iff.mpr ⟨workspaceMount, hworkspaceMount, bind_ok_iff.mpr ⟨taskMetadataMount,
      htaskMetadataMount, bind_ok_iff.mpr ⟨artifacts, hartifacts, bind_ok_iff.mpr ⟨limits, hlimits,
        lift_ok.mpr hplan'⟩⟩⟩⟩
  · cases h

end

/-! ## Prompts -/

/-- What stands before the arguments of the policy in the command of a provider. -/
def fixedCommand (driver : AgentDriver) : List Str :=
  if driver.id = str "codex" then [str "codex", str "exec"] else [str "agent", str "--trust"]

theorem createRunSpec_eq {driver : AgentDriver} (h : driver ∈ builtinAgentRegistry) :
    driver.createRunSpec = createRunSpecOf (fixedCommand driver) := by
  rcases List.mem_pair.mp h with rfl | rfl
  · rfl
  · rfl

theorem fixedCommand_valid (driver : AgentDriver) :
    fixedCommand driver ≠ [] ∧ ∀ text ∈ fixedCommand driver, validText text = true := by
  unfold fixedCommand
  split <;> decide

/-- The prompt is the last argument of the run, or none if it is blank: the specification is built, and
the plan is built wherever that of a run without a prompt is. -/
structure Carried (driver : AgentDriver) (policy : ProviderPolicyArtifacts) (prompt : Str) : Prop where
  spec : ∃ runSpec, driver.createRunSpec policy prompt = .ok runSpec ∧
    runSpec.argv = fixedCommand driver ++ policy.argv ++ promptArgs prompt
  plan : ∀ {env cfg context readonly outerOnly securityClass reference gitCommon silent runSpec plan},
    driver.createRunSpec policy [] = .ok silent →
    createRunExecutionPlan env cfg driver context silent readonly outerOnly securityClass reference
      gitCommon = .ok plan →
    driver.createRunSpec policy prompt = .ok runSpec →
    ∃ plan', createRunExecutionPlan env cfg driver context runSpec readonly outerOnly securityClass
        reference gitCommon = .ok plan' ∧
      plan'.argv = fixedCommand driver ++ policy.argv ++ promptArgs prompt

theorem createRunSpec_ok_iff {driver : AgentDriver} (hdriver : driver ∈ builtinAgentRegistry)
    (policy : ProviderPolicyArtifacts) (prompt : Str) :
    (∃ runSpec, driver.createRunSpec policy prompt = .ok runSpec) ↔
      strip prompt = [] ∨ 0 ∉ prompt ∧ 10 ∉ prompt := by
  obtain ⟨hne, hvalid⟩ := fixedCommand_valid driver
  rw [createRunSpec_eq hdriver]
  exact createRunSpecOf_ok_iff hne hvalid

/-- The prompts that the broker accepts and a run can have are the blank ones and the lines. -/
theorem prompt_carried_iff {driver : AgentDriver} (hdriver : driver ∈ builtinAgentRegistry)
    {readonly outerOnly : Bool} {policy : ProviderPolicyArtifacts}
    (_hpolicy : driver.compilePolicy readonly outerOnly = .ok policy) {request : Dict} {prompt : Str}
    (_hprompt : promptOf request = .ok prompt) :
    Carried driver policy prompt ↔ strip prompt = [] ∨ 0 ∉ prompt ∧ 10 ∉ prompt := by
  rw [← createRunSpec_ok_iff hdriver policy prompt]
  constructor
  · intro h
    obtain ⟨runSpec, hspec, -⟩ := h.spec
    exact ⟨runSpec, hspec⟩
  · rintro ⟨runSpec, hspec⟩
    constructor
    · refine ⟨runSpec, hspec, ?_⟩
      rw [createRunSpec_eq hdriver] at hspec
      rw [createRunSpecOf_eq_ok hspec]
    · intro env cfg context readonly outerOnly securityClass reference gitCommon silent runSpec' plan
        hsilent hplan hspec'
      rw [createRunSpec_eq hdriver] at hsilent hspec'
      apply createRunExecutionPlan_argv _ hplan
      rw [createRunSpecOf_eq_ok hspec', createRunSpecOf_eq_ok hsilent]

def exampleLines : Str := str "go on\nthen stop"

theorem prompt_carried_iff_example :
    ∃ policy, codexDriver.compilePolicy false false = .ok policy ∧
      promptOf exampleRun = .ok (str "go on") ∧
      (Carried codexDriver policy (str "go on") ↔ strip (str "go on") = [] ∨
        0 ∉ str "go on" ∧ 10 ∉ str "go on") := by
  have hchecked : (⟨[], [str "--sandbox", str "workspace-write", str "-c", str "approval_policy=never"],
      [], codexSandboxIsolation, []⟩ : ProviderPolicyArtifacts.Fields).postInit = .ok () := rfl
  have hpolicy : codexDriver.compilePolicy false false = .ok ⟨_, hchecked⟩ := rfl
  have hprompt : promptOf exampleRun = .ok (str "go on") := rfl
  exact ⟨_, hpolicy, hprompt, prompt_carried_iff List.mem_cons_self hpolicy hprompt⟩

/-- A prompt of two lines is accepted, and the specification of its run is not. -/
theorem lines_not_carried :
    promptOf [(.str (str "prompt"), .str exampleLines)] = .ok exampleLines ∧
      ∀ driver ∈ builtinAgentRegistry, ∀ policy, driver.compilePolicy false false = .ok policy →
        ¬ Carried driver policy exampleLines := by
  refine ⟨rfl, ?_⟩
  intro driver hdriver policy _ hcarried
  obtain ⟨runSpec, hspec, -⟩ := hcarried.spec
  rcases (createRunSpec_ok_iff hdriver policy exampleLines).mp ⟨runSpec, hspec⟩ with h | h
  · exact absurd h (by decide)
  · exact absurd h (by decide)

end AgentDev.Execution
