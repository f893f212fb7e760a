import AgentDev.Agents.CursorSandbox
import AgentDev.Execution.Prompts
import AgentDev.Python.Decimals

/-!
# Options of provider commands

The command of a run is a fixed part, the arguments of the policy, and the prompt, with no `--` before
it. A provider takes an item that starts with `-` for an option: what the broker's policy says to the
provider does not depend on the prompt unless the prompt starts with `-` (`providerOptions_eq_iff`).
-/

namespace AgentDev.Execution

open Python Policy Agents

/-! ## How a provider reads its command -/

/-- The item starts with `-`. -/
def isDash (item : Str) : Bool := item.head? = some 45

/-- The options and their values, up to a `--`. An option with `takesValue` has the next item as its
value. -/
def optionItems (takesValue : Str → Bool) : List Str → List Str
  | [] => []
  | [item] => if isDash item then [item] else []
  | item :: next :: rest =>
    if item = str "--" then [item]
    else if !isDash item then optionItems takesValue (next :: rest)
    else if takesValue item then item :: next :: optionItems takesValue rest
    else item :: optionItems takesValue (next :: rest)

/-- What a provider can take for options or a subcommand: the fixed part, and the options after it. -/
def providerOptions (takesValue : Str → Bool) (driver : AgentDriver) (argv : List Str) : List Str :=
  argv.take (fixedCommand driver).length ++
    optionItems takesValue (argv.drop (fixedCommand driver).length)

section

variable {takesValue : Str → Bool}

/-- The options of a policy, as a list of options with their values. -/
def pairItems (pairs : List (Str × Str)) : List Str := pairs.flatMap fun pair => [pair.1, pair.2]

theorem optionItems_pairs {pairs : List (Str × Str)}
    (h : ∀ pair ∈ pairs, isDash pair.1 = true ∧ pair.1 ≠ str "--" ∧ takesValue pair.1 = true)
    (rest : List Str) : optionItems takesValue (pairItems pairs ++ rest) =
      pairItems pairs ++ optionItems takesValue rest := by
  induction pairs with
  | nil => rfl
  | cons pair pairs ih =>
    obtain ⟨hdash, hne, htakes⟩ := h pair List.mem_cons_self
    have ih := ih fun other hother => h other (List.mem_cons_of_mem pair hother)
    simp only [pairItems, List.flatMap_cons, List.cons_append, List.nil_append] at ih ⊢
    rw [optionItems, if_neg hne, hdash, htakes, ih]
    rfl

/-- A prompt that starts with `-` is not blank. -/
theorem strip_ne_nil_of_isDash {prompt : Str} (h : isDash prompt = true) : strip prompt ≠ [] := by
  obtain ⟨rest, rfl⟩ : ∃ rest, prompt = 45 :: rest := by
    cases prompt with
    | nil => cases h
    | cons c rest =>
      have hc : c = 45 := by simpa [isDash] using h
      exact ⟨rest, by rw [hc]⟩
  have hspace : isSpace 45 = false := by decide
  intro hstrip
  have hall := List.reverse_eq_nil_iff.mp hstrip
  rw [List.dropWhile_eq_nil_iff] at hall
  have hmem : (45 : CodePoint) ∈ ((45 :: rest).dropWhile isSpace).reverse := by
    rw [List.mem_reverse, List.dropWhile_cons_of_neg (by rw [hspace]; exact Bool.false_ne_true)]
    exact List.mem_cons_self
  have hdash := hall 45 hmem
  rw [hspace] at hdash
  cases hdash

theorem optionItems_promptArgs (prompt : Str) :
    optionItems takesValue (promptArgs prompt) = if isDash prompt then [prompt] else [] := by
  unfold promptArgs
  by_cases hdash : isDash prompt = true
  · rw [if_pos (strip_ne_nil_of_isDash hdash)]
    rfl
  · rw [if_neg hdash]
    split
    · show (if isDash prompt then [prompt] else []) = []
      rw [if_neg hdash]
    · rfl

end

/-! ## What the compilers give -/

/-- The artifacts that `compile_policy` of a driver can return. -/
inductive Compiled (floats : Json.FloatText) : AgentDriver → ProviderPolicyArtifacts → Prop
  | flags {driver : AgentDriver} {readonly outerOnly : Bool} {policy : ProviderPolicyArtifacts}
      (hdriver : driver ∈ builtinAgentRegistry)
      (h : driver.compilePolicy readonly outerOnly = .ok policy) : Compiled floats driver policy
  | codex {execution : ExecutionPolicy} {policy : ProviderPolicyArtifacts}
      (h : codexCompileExecutionPolicy execution = .ok policy) : Compiled floats codexDriver policy
  | cursor {execution : ExecutionPolicy} {policy : ProviderPolicyArtifacts}
      (h : cursorCompileExecutionPolicy floats execution = .ok policy) :
      Compiled floats cursorDriver policy

variable {floats : Json.FloatText} {driver : AgentDriver} {policy : ProviderPolicyArtifacts}

theorem Compiled.mem_registry (h : Compiled floats driver policy) : driver ∈ builtinAgentRegistry := by
  cases h with
  | flags hdriver _ => exact hdriver
  | codex _ => exact List.mem_cons_self
  | cursor _ => exact List.mem_cons_of_mem _ List.mem_cons_self

theorem configArgv_pairs (settings : List Str) :
    configArgv settings = pairItems (settings.map fun setting => (str "-c", setting)) := by
  unfold configArgv pairItems
  rw [List.flatMap_map]

/-- Every option of a compiled policy is `--sandbox`, or `-c` of Codex, with a value. -/
theorem Compiled.argv_pairs (h : Compiled floats driver policy) :
    ∃ pairs, policy.argv = pairItems pairs ∧
      ∀ pair ∈ pairs, pair.1 = str "--sandbox" ∨ driver = codexDriver ∧ pair.1 = str "-c" := by
  cases h with
  | @flags _ readonly outerOnly _ hdriver h =>
    rcases List.mem_pair.mp hdriver with rfl | rfl
    · obtain ⟨_, rfl⟩ := construct_ok.mp h
      refine ⟨[(str "--sandbox", if outerOnly then str "danger-full-access" else if readonly then
        str "read-only" else str "workspace-write"), (str "-c", str "approval_policy=never")], rfl, ?_⟩
      intro pair hpair
      rcases List.mem_pair.mp hpair with rfl | rfl
      · exact Or.inl rfl
      · exact Or.inr ⟨rfl, rfl⟩
    · obtain ⟨_, rfl⟩ := construct_ok.mp (ensure_then_ok.mp h).2
      exact ⟨[], rfl, List.forall_mem_nil _⟩
  | codex h =>
    obtain ⟨-, hfields⟩ := codexCompile_ok h
    rw [hfields, configArgv_pairs]
    refine ⟨(str "--sandbox", _) :: _, rfl, ?_⟩
    intro pair hpair
    rcases List.mem_cons.mp hpair with rfl | hpair
    · exact Or.inl rfl
    · obtain ⟨setting, -, rfl⟩ := List.mem_map.mp hpair
      exact Or.inr ⟨rfl, rfl⟩
  | cursor h =>
    obtain ⟨-, -, ⟨-, -, hfields⟩ | ⟨-, -, file, -, hfields⟩⟩ := cursorCompile_ok h
    · rw [hfields]
      exact ⟨[(str "--sandbox", str "disabled")], rfl, List.forall_mem_singleton.mpr (Or.inl rfl)⟩
    · rw [hfields]
      exact ⟨[(str "--sandbox", str "enabled")], rfl, List.forall_mem_singleton.mpr (Or.inl rfl)⟩

/-! ## Prompts among options -/

/-- The options that the command of a run has: those of the policy, and the prompt if it starts with
`-`. -/
theorem providerOptions_of_createRunSpec {takesValue : Str → Bool}
    (hsandbox : takesValue (str "--sandbox") = true)
    (hconfig : driver = codexDriver → takesValue (str "-c") = true)
    (h : Compiled floats driver policy) {prompt : Str} {runSpec : RunSpec}
    (hspec : driver.createRunSpec policy prompt = .ok runSpec) :
    providerOptions takesValue driver runSpec.argv =
      fixedCommand driver ++ policy.argv ++ if isDash prompt then [prompt] else [] := by
  rw [createRunSpec_eq h.mem_registry] at hspec
  have hargv : runSpec.argv = fixedCommand driver ++ (policy.argv ++ promptArgs prompt) := by
    rw [createRunSpecOf_eq_ok hspec, List.append_assoc]
  obtain ⟨pairs, hpairs, hnames⟩ := h.argv_pairs
  have hoptions : ∀ pair ∈ pairs, isDash pair.1 = true ∧ pair.1 ≠ str "--" ∧
      takesValue pair.1 = true := by
    intro pair hpair
    rcases hnames pair hpair with hname | ⟨hcodex, hname⟩
    · rw [hname]
      exact ⟨by decide, by decide, hsandbox⟩
    · rw [hname]
      exact ⟨by decide, by decide, hconfig hcodex⟩
  rw [providerOptions, hargv, List.take_left, List.drop_left, hpairs, optionItems_pairs hoptions,
    optionItems_promptArgs, List.append_assoc]

/-- Two prompts leave the provider the same options exactly if neither starts with `-`, or they are
the same; and a prompt adds nothing to the options of the policy exactly if it does not start
with `-`. -/
theorem providerOptions_eq_iff {takesValue : Str → Bool}
    (hsandbox : takesValue (str "--sandbox") = true)
    (hconfig : driver = codexDriver → takesValue (str "-c") = true)
    (hpolicy : Compiled floats driver policy) {p q : Str} {specP specQ : RunSpec}
    (hp : driver.createRunSpec policy p = .ok specP) (hq : driver.createRunSpec policy q = .ok specQ) :
    (providerOptions takesValue driver specP.argv = providerOptions takesValue driver specQ.argv ↔
      (p ≠ q → isDash p = false ∧ isDash q = false)) ∧
    (providerOptions takesValue driver specP.argv = fixedCommand driver ++ policy.argv ↔
      isDash p = false) := by
  rw [providerOptions_of_createRunSpec hsandbox hconfig hpolicy hp,
    providerOptions_of_createRunSpec hsandbox hconfig hpolicy hq]
  constructor
  · rw [List.append_cancel_left_eq]
    cases hdashP : isDash p <;> cases hdashQ : isDash q
    · simp
    · have hne : p ≠ q := by
        rintro rfl
        rw [hdashP] at hdashQ
        cases hdashQ
      simp [hne]
    · have hne : p ≠ q := by
        rintro rfl
        rw [hdashP] at hdashQ
        cases hdashQ
      simp [hne]
    · by_cases heq : p = q
      · simp [heq]
      · simp [heq]
  · cases isDash p <;> simp

/-- The options of the policies that have values. -/
def exampleTakesValue (item : Str) : Bool := item ∈ [str "--sandbox", str "-c"]

/-- A run of Codex that may write in its workspace. -/
def exampleArtifacts : ProviderPolicyArtifacts where
  argv := [str "--sandbox", str "workspace-write", str "-c", str "approval_policy=never"]
  runtimeIsolation := codexSandboxIsolation
  checked := rfl

theorem exampleArtifacts_compiled : Compiled Json.exactDecimals codexDriver exampleArtifacts := by
  have hpolicy : codexDriver.compilePolicy false false = .ok exampleArtifacts := rfl
  exact Compiled.flags List.mem_cons_self hpolicy

theorem exampleArtifacts_createRunSpec (prompt : Str) (h : 0 ∉ prompt ∧ 10 ∉ prompt) :
    ∃ runSpec, codexDriver.createRunSpec exampleArtifacts prompt = .ok runSpec :=
  (createRunSpec_ok_iff List.mem_cons_self exampleArtifacts prompt).mpr (Or.inr h)

theorem providerOptions_eq_iff_example :
    ∃ specP specQ, codexDriver.createRunSpec exampleArtifacts (str "go on") = .ok specP ∧
      codexDriver.createRunSpec exampleArtifacts (str "stop - now") = .ok specQ ∧
      providerOptions exampleTakesValue codexDriver specP.argv =
        providerOptions exampleTakesValue codexDriver specQ.argv := by
  obtain ⟨specP, hp⟩ := exampleArtifacts_createRunSpec (str "go on") (by decide)
  obtain ⟨specQ, hq⟩ := exampleArtifacts_createRunSpec (str "stop - now") (by decide)
  refine ⟨specP, specQ, hp, hq, ?_⟩
  apply (providerOptions_eq_iff (by decide) (fun _ => by decide) exampleArtifacts_compiled hp hq).1.mpr
  intro _
  exact ⟨by decide, by decide⟩

/-- A prompt that names another sandbox. -/
def examplePrompt : Str := str "--sandbox=danger-full-access"

/-- The prompt is an option of the provider, after the options of the policy. -/
theorem sandbox_repeated_by_prompt :
    Compiled Json.exactDecimals codexDriver exampleArtifacts ∧
    ∃ specP specQ, codexDriver.createRunSpec exampleArtifacts examplePrompt = .ok specP ∧
      codexDriver.createRunSpec exampleArtifacts (str "go on") = .ok specQ ∧
      providerOptions exampleTakesValue codexDriver specQ.argv = [str "codex", str "exec",
        str "--sandbox", str "workspace-write", str "-c", str "approval_policy=never"] ∧
      providerOptions exampleTakesValue codexDriver specP.argv = [str "codex", str "exec",
        str "--sandbox", str "workspace-write", str "-c", str "approval_policy=never",
        str "--sandbox=danger-full-access"] ∧
      providerOptions exampleTakesValue codexDriver specP.argv ≠
        providerOptions exampleTakesValue codexDriver specQ.argv := by
  obtain ⟨specP, hp⟩ := exampleArtifacts_createRunSpec examplePrompt (by decide)
  obtain ⟨specQ, hq⟩ := exampleArtifacts_createRunSpec (str "go on") (by decide)
  have hsandbox : exampleTakesValue (str "--sandbox") = true := by decide
  have hconfig : codexDriver = codexDriver → exampleTakesValue (str "-c") = true := fun _ => by decide
  refine ⟨exampleArtifacts_compiled, specP, specQ, hp, hq, ?_⟩
  rw [providerOptions_of_createRunSpec hsandbox hconfig exampleArtifacts_compiled hp,
    providerOptions_of_createRunSpec hsandbox hconfig exampleArtifacts_compiled hq]
  decide

end AgentDev.Execution
