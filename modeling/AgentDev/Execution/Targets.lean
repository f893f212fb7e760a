import AgentDev.Execution.Plan

/-!
# Targets of mounts

The constructor of a plan compares the targets of its mounts as texts, and a container looks them up as
paths. No mount of a plan lies at the path of another one, and `/workspace` is read-only as the plan
says, exactly if the plan spells no path in two ways (`pathsApart_iff`).
-/

namespace AgentDev.Execution

open Python Policy Agents

/-! ## Texts -/

/-- Mounts with one text as their target are one mount. -/
def Unambiguous (mounts : List ExecutionMount) : Prop :=
  ∀ mount ∈ mounts, ∀ other ∈ mounts, mount.target = other.target → mount = other

theorem ExecutionMount.ext_fields {mount other : ExecutionMount} (h : mount.toFields = other.toFields) :
    mount = other := by
  cases mount
  cases other
  cases h
  rfl

theorem Unambiguous.subset {mounts others : List ExecutionMount} (h : Unambiguous mounts)
    (hsub : others ⊆ mounts) : Unambiguous others :=
  fun mount hmount other hother => h mount (hsub hmount) other (hsub hother)

/-- The mount that is found on the target stands for all of them there. -/
theorem unambiguous_cons {mount : ExecutionMount} {targets : List ExecutionMount}
    (h : Unambiguous targets) :
    Unambiguous (mount :: targets) ↔
      (targets.find? fun other => other.target = mount.target).all fun other =>
        other.toFields = mount.toFields := by
  cases hfind : targets.find? fun other => other.target = mount.target with
  | none =>
    have hfree : ∀ other ∈ targets, other.target ≠ mount.target := by
      intro other hother heq
      exact List.find?_eq_none.mp hfind other hother (decide_eq_true heq)
    simp only [Option.all_none, iff_true]
    intro first hfirst second hsecond heq
    rcases List.mem_cons.mp hfirst with rfl | hfirst'
    · rcases List.mem_cons.mp hsecond with rfl | hsecond'
      · rfl
      · exact absurd heq.symm (hfree second hsecond')
    · rcases List.mem_cons.mp hsecond with rfl | hsecond'
      · exact absurd heq (hfree first hfirst')
      · exact h first hfirst' second hsecond' heq
  | some previous =>
    have hprevious := List.mem_of_find?_eq_some hfind
    have htarget : previous.target = mount.target := by
      simpa using List.find?_some hfind
    rw [Option.all_some, decide_eq_true_eq]
    constructor
    · intro hall
      have hsame := hall previous (List.mem_cons_of_mem mount hprevious) mount List.mem_cons_self htarget
      rw [hsame]
    · intro hsame
      have hmem : mount ∈ targets := ExecutionMount.ext_fields hsame ▸ hprevious
      exact h.subset (List.cons_subset.mpr ⟨hmem, List.Subset.refl targets⟩)

/-- The check accepts the lists without two mounts on one text. -/
theorem checkTargets_ok {targets mounts : List ExecutionMount} (h : Unambiguous targets) :
    checkTargets targets mounts = .ok () ↔ Unambiguous (mounts.reverse ++ targets) := by
  induction mounts generalizing targets with
  | nil => simp [checkTargets, h]
  | cons mount rest ih =>
    rw [checkTargets, ensure_then_ok, ← unambiguous_cons h, List.reverse_cons, List.append_assoc,
      List.singleton_append]
    constructor
    · rintro ⟨hmount, hrest⟩
      exact (ih hmount).mp hrest
    · intro hall
      have hmount : Unambiguous (mount :: targets) := hall.subset (List.subset_append_right _ _)
      exact ⟨hmount, (ih hmount).mpr hall⟩

/-! ## Paths -/

/-- No mount of the plan lies at the path of another one, and what is mounted on `/workspace` is
read-only as the plan says. -/
structure PathsApart (plan : ResolvedExecutionPlan) : Prop where
  apart : ∀ mount ∈ plan.allMounts, ∀ other ∈ plan.allMounts, mount ≠ other →
    pathParts mount.target ≠ pathParts other.target
  mounted : ∃ mount ∈ plan.allMounts, pathParts mount.target = pathParts (str "/workspace")
  workspace : ∀ mount ∈ plan.allMounts, pathParts mount.target = pathParts (str "/workspace") →
    mount.readOnly = plan.readonly

/-- The plan spells every path in one way. -/
def OneSpelling (plan : ResolvedExecutionPlan) : Prop :=
  ∀ mount ∈ plan.allMounts, ∀ other ∈ plan.allMounts,
    pathParts mount.target = pathParts other.target → mount.target = other.target

theorem ResolvedExecutionPlan.unambiguous (plan : ResolvedExecutionPlan) :
    Unambiguous plan.allMounts := by
  have h := plan.checked
  simp only [Fields.postInit, bind_ok_iff] at h
  obtain ⟨_, -, _, -, _, -, _, -, _, -, _, -, _, -, _, -, _, -, _, -, _, -, _, -, _, -, htargets⟩ := h
  have hnil : Unambiguous [] := by
    intro mount hmount
    cases hmount
  have hall := (checkTargets_ok hnil).mp htargets
  rw [List.append_nil] at hall
  exact hall.subset (List.reverse_subset.mp (List.Subset.refl _))

theorem ResolvedExecutionPlan.workspaceMount_checked (plan : ResolvedExecutionPlan) :
    plan.workspaceMount.target = str "/workspace" ∧ plan.workspaceMount.readOnly = plan.readonly := by
  have h := plan.checked
  simp only [Fields.postInit, bind_ok_iff] at h
  obtain ⟨_, -, _, -, _, -, _, -, _, -, _, htarget, _, hmode, -⟩ := h
  exact ⟨of_decide_eq_true (ensure_ok.mp htarget), of_decide_eq_true (ensure_ok.mp hmode)⟩

theorem pathsApart_iff_oneSpelling (plan : ResolvedExecutionPlan) :
    PathsApart plan ↔ OneSpelling plan := by
  obtain ⟨htarget, hmode⟩ := plan.workspaceMount_checked
  have hworkspace : plan.workspaceMount ∈ plan.allMounts := by
    simp [ResolvedExecutionPlan.Fields.allMounts]
  constructor
  · intro h mount hmount other hother hpath
    by_contra hne
    refine h.apart mount hmount other hother ?_ hpath
    rintro rfl
    exact hne rfl
  · intro h
    constructor
    · intro mount hmount other hother hne hpath
      exact hne (plan.unambiguous mount hmount other hother (h mount hmount other hother hpath))
    · exact ⟨plan.workspaceMount, hworkspace, by rw [htarget]⟩
    · intro mount hmount hpath
      rw [← htarget] at hpath
      have hsame := plan.unambiguous mount hmount _ hworkspace (h mount hmount _ hworkspace hpath)
      rw [hsame, hmode]

/-- A target without superfluous slashes and dots. -/
def IsNormal (target : Str) : Prop := target = showPath (pathParts target)

theorem pathsApart_of_normal {plan : ResolvedExecutionPlan}
    (h : ∀ mount ∈ plan.allMounts, IsNormal mount.target) : PathsApart plan := by
  apply (pathsApart_iff_oneSpelling plan).mpr
  intro mount hmount other hother hpath
  rw [h mount hmount, h other hother, hpath]

/-- The mounts of a plan lie apart exactly if no path is spelled in two ways; and these mounts are
what podman is told to mount, whatever the image and the command are. -/
theorem pathsApart_iff (shown : Value → Str) (plan : ResolvedExecutionPlan) :
    (PathsApart plan ↔ OneSpelling plan) ∧
      volumeArguments (executionPlanArgv shown plan) =
        plan.allMounts.map (·.volume) ++ volumeArguments (plan.image :: plan.argv) :=
  ⟨pathsApart_iff_oneSpelling plan, volumeArguments_argv shown plan⟩

/-- A run that reads its workspace. -/
def readonlyFields (auxiliary : List ExecutionMount) : ResolvedExecutionPlan.Fields where
  agentId := str "codex"
  image := str "localhost/agent-dev-codex"
  argv := [str "codex", str "exec"]
  environment := []
  workspaceMount := {
    source := str "/srv/demo/repo/agent"
    target := str "/workspace"
    readOnly := true
    role := .workspace
    checked := by decide +kernel
  }
  referenceMounts := []
  taskMetadataMount := {
    source := str "/srv/demo/tasks/fix.json"
    target := str "/task.json"
    readOnly := true
    role := .taskMetadata
    checked := by decide +kernel
  }
  providerStateMounts := []
  providerPolicyArtifacts := { checked := by decide +kernel }
  resourceLimits := {
    pids := 512
    memory := str "4g"
    cpus := .int 2
    checked := by decide +kernel
  }
  network := {
    mode := str "none"
    checked := by decide +kernel
  }
  readonly := true
  interactionMode := .interactive
  runtimeIsolation := codexControlIsolation
  auxiliaryMounts := auxiliary

/-- The workspace in another spelling, writable. -/
def slashedMount : ExecutionMount where
  source := str "/srv/demo/repo/agent"
  target := str "/workspace/"
  readOnly := false
  role := .gitWorktree
  checked := by decide +kernel

def slashedPlan : ResolvedExecutionPlan where
  toFields := readonlyFields [slashedMount]
  checked := by decide +kernel

/-- A writable mount lies on the workspace of a run that only reads. -/
theorem slashedPlan_shadowed :
    slashedPlan.readonly = true ∧ slashedMount ∈ slashedPlan.allMounts ∧
      slashedPlan.workspaceMount ∈ slashedPlan.allMounts ∧
      pathParts slashedMount.target = pathParts slashedPlan.workspaceMount.target ∧
      slashedMount.readOnly = false ∧ ¬ PathsApart slashedPlan := by
  have hmem : slashedMount ∈ slashedPlan.allMounts := by
    simp [ResolvedExecutionPlan.Fields.allMounts, slashedPlan, readonlyFields]
  have hworkspace : slashedPlan.workspaceMount ∈ slashedPlan.allMounts := by
    simp [ResolvedExecutionPlan.Fields.allMounts]
  have hpath : pathParts slashedMount.target = pathParts slashedPlan.workspaceMount.target := by
    decide +kernel
  refine ⟨rfl, hmem, hworkspace, hpath, rfl, ?_⟩
  intro h
  cases h.workspace slashedMount hmem hpath

end AgentDev.Execution
