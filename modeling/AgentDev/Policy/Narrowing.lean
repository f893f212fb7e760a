import AgentDev.Policy.Overlay
import Mathlib.Data.Set.Basic

/-!
# Layers only narrow

What a policy permits in each of its dimensions, as sets and bounds, and the order "at least as
restrictive in every dimension" that follows (`Narrower`). The comparison of the resolver decides this
order (`validateNarrowing_ok_iff`); in particular its rank of the network modes agrees with the
inclusion of the destinations, because an allowlist is never empty and never everything. So a
resolved policy is narrower than everything above it, and the resolver refuses no layer that is
valid and narrower (`resolve_narrows`).
-/

namespace AgentDev.Policy

open Python

/-! ## What a policy permits -/

inductive Operation
  | read
  | write

def Access.operations : Access → Set Operation
  | .none => ∅
  | .read => {.read}
  | .write => {.read, .write}

def ReferenceAccess.operations : ReferenceAccess → Set Operation
  | .none => ∅
  | .read => {.read}

def ExternalAccess.operations : ExternalAccess → Set Operation
  | .deny => ∅
  | .read => {.read}
  | .write => {.read, .write}

/-- The destinations that the task shell may reach. -/
def TaskShellNetworkPolicy.reachable (p : TaskShellNetworkPolicy) : Set Str :=
  match p.mode with
  | .deny => ∅
  | .allowlist => {destination | destination ∈ p.destinations.items}
  | .allow => Set.univ

/-- `lower` is at least as restrictive as `upper` in every dimension. -/
structure Narrower (lower upper : ExecutionPolicy) : Prop where
  workspace : lower.workspace.access.operations ⊆ upper.workspace.access.operations
  reference : lower.reference.access.operations ⊆ upper.reference.access.operations
  external : lower.filesystem.external.operations ⊆ upper.filesystem.external.operations
  network : lower.network.taskShell.reachable ⊆ upper.network.taskShell.reachable
  credentials : lower.credentials.providerAuth.taskShell = .allow →
    upper.credentials.providerAuth.taskShell = .allow
  gitRead : lower.git.read = true → upper.git.read = true
  gitCommit : lower.git.commit = true → upper.git.commit = true
  gitPush : lower.git.push = true → upper.git.push = true
  sandbox : upper.sandbox.required = true → lower.sandbox.required = true
  cpu : lower.resources.cpu ≤ upper.resources.cpu
  memory : lower.resources.memoryBytes ≤ upper.resources.memoryBytes
  pids : lower.resources.pids ≤ upper.resources.pids
  security : upper.securityClass = .hardened → lower.securityClass = .hardened

theorem Narrower.trans {p q r : ExecutionPolicy} (h : Narrower p q) (h' : Narrower q r) :
    Narrower p r where
  workspace := h.workspace.trans h'.workspace
  reference := h.reference.trans h'.reference
  external := h.external.trans h'.external
  network := h.network.trans h'.network
  credentials := fun hp => h'.credentials (h.credentials hp)
  gitRead := fun hp => h'.gitRead (h.gitRead hp)
  gitCommit := fun hp => h'.gitCommit (h.gitCommit hp)
  gitPush := fun hp => h'.gitPush (h.gitPush hp)
  sandbox := fun hr => h.sandbox (h'.sandbox hr)
  cpu := Rat.le_trans h.cpu h'.cpu
  memory := h.memory.trans h'.memory
  pids := h.pids.trans h'.pids
  security := fun hr => h.security (h'.security hr)

/-! ## The comparison decides the order -/

theorem requireNot_ok_iff {wider : Bool} {layer : Str} {field : String} {upper lower : Value} :
    requireNot wider layer field upper lower = .ok () ↔ wider = false := by
  unfold requireNot
  cases wider <;> simp

theorem requireRank_ok_iff {α : Type} {layer : Str} {field : String} {upper lower : α}
    {text : α → Str} {order : α → Nat} :
    requireRankNotWider layer field upper lower text order = .ok () ↔ order lower ≤ order upper := by
  rw [requireRankNotWider, requireNot_ok_iff, decide_eq_false_iff_not, Nat.not_lt]

theorem requirePermission_ok_iff {layer : Str} {field : String} {upper lower : Bool} :
    requirePermissionNotWider layer field upper lower = .ok () ↔ (lower = true → upper = true) := by
  rw [requirePermissionNotWider, requireNot_ok_iff]
  cases upper <;> cases lower <;> simp

theorem requireRequirement_ok_iff {layer : Str} {field : String} {upper lower : Bool} :
    requireRequirementNotWeaker layer field upper lower = .ok () ↔ (upper = true → lower = true) := by
  rw [requireRequirementNotWeaker, requireNot_ok_iff]
  cases upper <;> cases lower <;> simp

theorem seq_ok_iff {x y : Except Error Unit} :
    (x >>= fun _ => y) = .ok () ↔ x = .ok () ∧ y = .ok () := by
  rw [bind_ok_iff]
  constructor
  · rintro ⟨⟨⟩, hx, hy⟩
    exact ⟨hx, hy⟩
  · rintro ⟨hx, hy⟩
    exact ⟨(), hx, hy⟩

theorem Access.order_le_iff {lower upper : Access} :
    lower.order ≤ upper.order ↔ lower.operations ⊆ upper.operations := by
  constructor
  · intro h o ho
    cases lower <;> cases upper <;> simp_all [Access.order, Access.operations]
  · intro h
    have hread := @h .read
    have hwrite := @h .write
    clear h
    cases lower <;> cases upper <;> simp_all [Access.order, Access.operations]

theorem ReferenceAccess.order_le_iff {lower upper : ReferenceAccess} :
    lower.order ≤ upper.order ↔ lower.operations ⊆ upper.operations := by
  cases lower <;> cases upper <;> simp [ReferenceAccess.order, ReferenceAccess.operations]

theorem ExternalAccess.order_le_iff {lower upper : ExternalAccess} :
    lower.order ≤ upper.order ↔ lower.operations ⊆ upper.operations := by
  constructor
  · intro h o ho
    cases lower <;> cases upper <;> simp_all [ExternalAccess.order, ExternalAccess.operations]
  · intro h
    have hread := @h .read
    have hwrite := @h .write
    clear h
    cases lower <;> cases upper <;> simp_all [ExternalAccess.order, ExternalAccess.operations]

/-- An allowlist leaves some destination out: one that is longer than all of them. -/
theorem exists_not_mem (items : List Str) : ∃ destination, destination ∉ items := by
  refine ⟨0 :: items.flatten, fun hmem => ?_⟩
  have hle := (List.sublist_flatten_of_mem hmem).length_le
  rw [List.length_cons] at hle
  omega

/-- The rank of the modes and the inclusion of allowlists decide the inclusion of what can be
reached: an allowlist lies strictly between nothing and everything. -/
theorem network_ok_iff {layer : Str} {lower upper : ExecutionPolicy} :
    validateNetworkNarrowing layer upper lower = .ok () ↔
      lower.network.taskShell.reachable ⊆ upper.network.taskShell.reachable := by
  unfold validateNetworkNarrowing
  rw [seq_ok_iff, requireRank_ok_iff]
  generalize lower.network.taskShell = p
  generalize upper.network.taskShell = q
  obtain ⟨mode, ⟨items, -, -⟩, hlisted⟩ := p
  obtain ⟨mode', ⟨items', -, -⟩, hlisted'⟩ := q
  obtain ⟨free, hfree⟩ := exists_not_mem items'
  cases mode with
  | deny => simp [TaskShellNetworkPolicy.reachable, NetworkMode.order, pure, Except.pure]
  | allowlist =>
    obtain ⟨first, hfirst⟩ := List.exists_mem_of_ne_nil items (hlisted.mp rfl)
    cases mode' with
    | deny =>
      simp only [TaskShellNetworkPolicy.reachable, NetworkMode.order]
      constructor
      · intro h
        omega
      · intro h
        exact absurd (h hfirst) (Set.notMem_empty first)
    | allowlist =>
      simp [TaskShellNetworkPolicy.reachable, requireNot_ok_iff, Set.subset_def, List.subset_def]
    | allow => simp [TaskShellNetworkPolicy.reachable, NetworkMode.order, pure, Except.pure]
  | allow =>
    cases mode' with
    | deny =>
      simp only [TaskShellNetworkPolicy.reachable, NetworkMode.order]
      constructor
      · intro h
        omega
      · intro h
        exact absurd (h (Set.mem_univ free)) (Set.notMem_empty free)
    | allowlist =>
      simp only [TaskShellNetworkPolicy.reachable, NetworkMode.order]
      constructor
      · intro h
        omega
      · intro h
        exact absurd (h (Set.mem_univ free)) hfree
    | allow => simp [TaskShellNetworkPolicy.reachable, pure, Except.pure]

/-- The comparison accepts exactly the policies that are at least as restrictive in every
dimension. -/
theorem validateNarrowing_ok_iff {layer : Str} {lower upper : ExecutionPolicy} :
    validateNarrowing layer upper lower = .ok () ↔ Narrower lower upper := by
  have hversion : requireNot (lower.version ≠ upper.version) layer "version" (.int upper.version)
      (.int lower.version) = .ok () := by
    rw [requireNot_ok_iff, lower.version_eq, upper.version_eq]
    simp
  have hcredentials : ∀ a b : Visibility, a.order ≤ b.order ↔ (a = .allow → b = .allow) := by
    intro a b
    cases a <;> cases b <;> simp [Visibility.order]
  have hsecurity : ∀ a b : SecurityClass,
      ¬a.order < b.order ↔ (b = .hardened → a = .hardened) := by
    intro a b
    cases a <;> cases b <;> simp [SecurityClass.order]
  unfold validateNarrowing
  simp only [seq_ok_iff, hversion, true_and, requireRank_ok_iff, Access.order_le_iff,
    ReferenceAccess.order_le_iff, ExternalAccess.order_le_iff, network_ok_iff, hcredentials,
    requirePermission_ok_iff, requireRequirement_ok_iff, requireLimitNotWider, requireNot_ok_iff,
    decide_eq_false_iff_not, hsecurity, Rat.not_lt, Int.not_lt]
  constructor
  · rintro ⟨hworkspace, hreference, hexternal, hnetwork, hvisible, hread, hcommit, hpush, hsandbox,
      hcpu, hmemory, hpids, hclass⟩
    exact ⟨hworkspace, hreference, hexternal, hnetwork, hvisible, hread, hcommit, hpush, hsandbox,
      hcpu, hmemory, hpids, hclass⟩
  · rintro ⟨hworkspace, hreference, hexternal, hnetwork, hvisible, hread, hcommit, hpush, hsandbox,
      hcpu, hmemory, hpids, hclass⟩
    exact ⟨hworkspace, hreference, hexternal, hnetwork, hvisible, hread, hcommit, hpush, hsandbox,
      hcpu, hmemory, hpids, hclass⟩

/-! ## The hierarchy -/

theorem Narrower.refl (p : ExecutionPolicy) : Narrower p p :=
  ⟨subset_rfl, subset_rfl, subset_rfl, subset_rfl, id, id, id, id, id, Rat.le_refl, le_rfl, le_rfl,
    id⟩

theorem applyLayer_narrows {effective p : ExecutionPolicy} {name : Str} {layer : Option Value}
    (h : applyLayer effective name layer = .ok p) : Narrower p effective := by
  cases layer with
  | none =>
    cases h
    exact Narrower.refl effective
  | some value =>
    obtain ⟨restrictions, -, h⟩ := bind_ok_iff.mp h
    obtain ⟨candidate, -, h⟩ := bind_ok_iff.mp h
    obtain ⟨⟨⟩, hnarrow, h⟩ := bind_ok_iff.mp h
    cases h
    exact validateNarrowing_ok_iff.mp hnarrow

/-- The overlay of a layer is a valid policy that is wider in no dimension. A mapping states each
field once. -/
def Overlaid (effective : ExecutionPolicy) (layer : Option Value) (candidate : ExecutionPolicy) :
    Prop :=
  match layer with
  | none => candidate = effective
  | some value => ∃ restrictions, value = .dict restrictions ∧ value.Distinct ∧
      ExecutionPolicy.fromDict (.dict (overlay effective.asDict restrictions)) = .ok candidate ∧
      Narrower candidate effective

theorem Overlaid.applyLayer {effective candidate : ExecutionPolicy} {layer : Option Value}
    (name : Str) (h : Overlaid effective layer candidate) :
    applyLayer effective name layer = .ok candidate := by
  cases layer with
  | none =>
    have hsame : candidate = effective := h
    rw [hsame]
    rfl
  | some value =>
    obtain ⟨restrictions, rfl, hdistinct, hvalid, hnarrow⟩ := h
    obtain ⟨hnames, hcandidate⟩ := candidate_of_overlay name hdistinct hvalid
    have hrestrictions : requireRestrictions (.dict restrictions) name = .ok restrictions := by
      rw [requireRestrictions, if_pos hnames]
    have hok : validateNarrowing name effective candidate = .ok () :=
      validateNarrowing_ok_iff.mpr hnarrow
    simp only [Policy.applyLayer, hrestrictions, hcandidate, hok, bind, Except.bind, pure,
      Except.pure]

/-- A resolved policy is at least as restrictive as the baseline and as the effective policy
after each earlier layer, and layers whose overlays are valid and wider in no dimension are
resolved. -/
theorem resolve_narrows (platformBaseline : ExecutionPolicy)
    (projectPolicy executionProfile runRestrictions : Option Value) :
    (∀ p, resolve platformBaseline projectPolicy executionProfile runRestrictions = .ok p →
      ∃ project profile, resolve platformBaseline projectPolicy none none = .ok project ∧
        resolve platformBaseline projectPolicy executionProfile none = .ok profile ∧
        Narrower p platformBaseline ∧ Narrower p project ∧ Narrower p profile) ∧
    ∀ project profile p, Overlaid platformBaseline projectPolicy project →
      Overlaid project executionProfile profile → Overlaid profile runRestrictions p →
      resolve platformBaseline projectPolicy executionProfile runRestrictions = .ok p := by
  constructor
  · intro p h
    obtain ⟨project, hproject, h⟩ := bind_ok_iff.mp h
    obtain ⟨profile, hprofile, hrun⟩ := bind_ok_iff.mp h
    have hnarrow := (applyLayer_narrows hrun).trans (applyLayer_narrows hprofile)
    refine ⟨project, profile, ?_, ?_, hnarrow.trans (applyLayer_narrows hproject), hnarrow,
      applyLayer_narrows hrun⟩
    · exact bind_ok_iff.mpr ⟨project, hproject, rfl⟩
    · exact bind_ok_iff.mpr ⟨project, hproject, bind_ok_iff.mpr ⟨profile, hprofile, rfl⟩⟩
  · intro project profile p hproject hprofile hrun
    apply bind_ok_iff.mpr
    refine ⟨project, hproject.applyLayer _, bind_ok_iff.mpr ⟨profile, hprofile.applyLayer _, ?_⟩⟩
    exact hrun.applyLayer _

def noDestinations : Destinations := ⟨[], .nil, fun _ hitem => nomatch hitem⟩

def exampleBaseline : ExecutionPolicy where
  version := 1
  workspace := ⟨.write⟩
  reference := ⟨.read⟩
  filesystem := ⟨.read⟩
  network := ⟨⟨.allowlist, ⟨[str "pypi.org"], by decide, by decide⟩, by decide⟩⟩
  credentials := ⟨⟨.allow⟩⟩
  git := ⟨true, true, false⟩
  sandbox := ⟨true⟩
  resources := ⟨2, 1024, 100, by decide, by decide, by decide⟩
  securityClass := .compatibility
  version_eq := rfl

/-- The destinations of the baseline are not restated. -/
def exampleProject : Dict :=
  items [("network", record [("task_shell", record [("mode", .str (str "deny"))])])]

def exampleOffline : ExecutionPolicy :=
  { exampleBaseline with network := ⟨⟨.deny, ⟨[], by decide, by decide⟩, by decide⟩⟩ }

def exampleRestrictions : Dict :=
  items [("workspace", record [("access", .str (str "read"))]),
    ("resources", record [("cpu", .int 1)])]

def exampleRun : ExecutionPolicy :=
  { exampleOffline with
    workspace := ⟨.read⟩
    resources := ⟨1, 1024, 100, by decide, by decide, by decide⟩ }

/-- A project without network, and a run in it that writes nothing and has one CPU. -/
theorem resolve_narrows_example :
    resolve exampleBaseline (some (.dict exampleProject)) none
        (some (.dict exampleRestrictions)) = .ok exampleRun ∧
      Narrower exampleRun exampleBaseline ∧ Narrower exampleRun exampleOffline := by
  have hdistinct : (Value.dict exampleProject).Distinct := by
    simp only [exampleProject, items, record, List.map, Value.Distinct, itemsDistinct]
    decide
  have hdistinct' : (Value.dict exampleRestrictions).Distinct := by
    simp only [exampleRestrictions, items, record, List.map, Value.Distinct, itemsDistinct]
    decide
  have hnarrow : validateNarrowing [] exampleBaseline exampleOffline = .ok () := rfl
  have hnarrow' : validateNarrowing [] exampleOffline exampleRun = .ok () := rfl
  have hproject : Overlaid exampleBaseline (some (.dict exampleProject)) exampleOffline :=
    ⟨exampleProject, rfl, hdistinct, rfl, validateNarrowing_ok_iff.mp hnarrow⟩
  have hrun : Overlaid exampleOffline (some (.dict exampleRestrictions)) exampleRun :=
    ⟨exampleRestrictions, rfl, hdistinct', rfl, validateNarrowing_ok_iff.mp hnarrow'⟩
  obtain ⟨hnarrows, haccepts⟩ := resolve_narrows exampleBaseline (some (.dict exampleProject)) none
    (some (.dict exampleRestrictions))
  have hresolved := haccepts exampleOffline exampleOffline exampleRun hproject rfl hrun
  obtain ⟨project, profile, hproject, -, hbaseline, hnarrow, -⟩ := hnarrows exampleRun hresolved
  have hsame : project = exampleOffline := by
    have hoffline : resolve exampleBaseline (some (.dict exampleProject)) none none =
      .ok exampleOffline := rfl
    exact Except.ok.inj (hproject.symm.trans hoffline)
  rw [hsame] at hnarrow
  exact ⟨hresolved, hbaseline, hnarrow⟩

end AgentDev.Policy
