import AgentDev.Policy.Commutation

/-!
# Execution profiles

`policy/profiles.py`: the four built-in profiles, sparse layers between the project policy and the
restrictions of a run. What a profile states is in force after it, and stays in force below it,
because layers only narrow (`profile_guarantees`).
-/

namespace AgentDev.Policy

open Python

/-! ## Profiles -/

/-- `_PROFILE_IDS` -/
inductive ProfileId
  | review
  | implement
  | dependency
  | compatibility
  deriving DecidableEq

def ProfileId.text : ProfileId → Str
  | .review => str "review"
  | .implement => str "implement"
  | .dependency => str "dependency"
  | .compatibility => str "compatibility"

structure ExecutionProfile where
  id : ProfileId
  sparse : Dict
  requiresTaskShellDestinations : Bool

inductive ProfileError
  /-- `ValueError` -/
  | value (message : Message)
  /-- `KeyError` -/
  | key (name : Str)
  /-- `AssertionError` -/
  | assertion

/-- `data[name]`, which has to be a `dict`. -/
def requireDict (data : Dict) (name : Str) : Except ProfileError Dict :=
  match data.get? name with
  | some (.dict inner) => .ok inner
  | some _ => .error .assertion
  | none => .error (.key name)

def ExecutionProfile.restrictions (profile : ExecutionProfile) (taskShellDestinations : Value) :
    Except ProfileError Dict :=
  let result := profile.sparse
  if profile.requiresTaskShellDestinations then
    match taskShellDestinations with
    | .seq (first :: rest) => do
      let network ← requireDict result (str "network")
      let taskShell ← requireDict network (str "task_shell")
      let taskShell := taskShell.set (.str (str "destinations")) (.seq (first :: rest))
      let network := network.set (.str (str "task_shell")) (.dict taskShell)
      return result.set (.str (str "network")) (.dict network)
    | _ => .error (.value [.text (str "dependency profile requires explicit task-shell destinations")])
  else
    match taskShellDestinations with
    | .none => .ok result
    | _ => .error (.value
        [.text (profile.id.text ++ str " profile does not accept task-shell destinations")])

def review : ExecutionProfile where
  id := .review
  sparse := items [("workspace", record [("access", .str (str "read"))]),
    ("reference", record [("access", .str (str "read"))]),
    ("network", record [("task_shell", record [("mode", .str (str "deny"))])]),
    ("credentials", record [("provider_auth", record [("task_shell", .str (str "deny"))])]),
    ("git", record [("commit", .bool false)]),
    ("sandbox", record [("required", .bool true)])]
  requiresTaskShellDestinations := false

def implement : ExecutionProfile where
  id := .implement
  sparse := items [("workspace", record [("access", .str (str "write"))]),
    ("reference", record [("access", .str (str "read"))]),
    ("network", record [("task_shell", record [("mode", .str (str "deny"))])]),
    ("credentials", record [("provider_auth", record [("task_shell", .str (str "deny"))])]),
    ("git", record [("read", .bool true), ("commit", .bool true), ("push", .bool false)]),
    ("sandbox", record [("required", .bool true)])]
  requiresTaskShellDestinations := false

def dependency : ExecutionProfile where
  id := .dependency
  sparse := items [("workspace", record [("access", .str (str "write"))]),
    ("network", record [("task_shell", record [("mode", .str (str "allowlist"))])]),
    ("credentials", record [("provider_auth", record [("task_shell", .str (str "deny"))])]),
    ("git", record [("commit", .bool true), ("push", .bool false)]),
    ("sandbox", record [("required", .bool true)])]
  requiresTaskShellDestinations := true

def compatibility : ExecutionProfile where
  id := .compatibility
  sparse := items [("security_class", .str (str "compatibility"))]
  requiresTaskShellDestinations := false

/-- `list_profiles` -/
def listProfiles : List ExecutionProfile := [review, implement, dependency, compatibility]

def getProfile (profileId : Value) : Except Error ExecutionProfile :=
  match profileId with
  | .str text =>
    match listProfiles.find? fun profile => profile.id.text = text with
    | some profile => .ok profile
    | none => .error (.value [.text (str "unknown execution profile "), .repr profileId])
  | _ => .error (.type [.text (str "profile_id must be a string")])

/-! ## What a profile states -/

/-- The layer states the text of a choice, or the value of a permission, in a leaf field. -/
theorem leaf_of_layer {e p : ExecutionPolicy} {name : Str} {layer value : Value} (leaf : Leaf)
    {content : leaf.Content} (hdistinct : layer.Distinct)
    (h : applyLayer e name (some layer) = .ok p) (hstated : stated layer leaf.path = some value)
    (hcontent : leaf.normalize value = .ok content) : leaf.get p = content := by
  have hleaf := ExecutionPolicy.restated hdistinct (applyLayer_overlaid h).2 leaf
  rw [hstated] at hleaf
  exact Except.ok.inj (hleaf.symm.trans hcontent)

theorem review_layer {destinations : Value} {layer : Dict}
    (h : review.restrictions destinations = .ok layer) : layer = review.sparse := by
  cases destinations with
  | none =>
    cases h
    rfl
  | _ => cases h

theorem implement_layer {destinations : Value} {layer : Dict}
    (h : implement.restrictions destinations = .ok layer) : layer = implement.sparse := by
  cases destinations with
  | none =>
    cases h
    rfl
  | _ => cases h

def dependencyFields (destinations : List Value) : List (String × Value) :=
  [("workspace", record [("access", .str (str "write"))]),
    ("network", record [("task_shell", record [("mode", .str (str "allowlist")),
      ("destinations", .seq destinations)])]),
    ("credentials", record [("provider_auth", record [("task_shell", .str (str "deny"))])]),
    ("git", record [("commit", .bool true), ("push", .bool false)]),
    ("sandbox", record [("required", .bool true)])]

/-- The layer of the dependency profile for the given destinations. -/
def dependencyLayer (destinations : List Value) : Dict := items (dependencyFields destinations)

theorem dependency_layer {destinations : Value} {layer : Dict}
    (h : dependency.restrictions destinations = .ok layer) :
    ∃ values, destinations = .seq values ∧ layer = dependencyLayer values := by
  cases destinations with
  | seq values =>
    cases values with
    | nil => cases h
    | cons first rest => exact ⟨first :: rest, rfl, (Except.ok.inj h).symm⟩
  | _ => cases h

theorem review_distinct : (Value.dict review.sparse).Distinct := by
  simp only [review, items, record, List.map, Value.Distinct, itemsDistinct]
  decide

theorem implement_distinct : (Value.dict implement.sparse).Distinct := by
  simp only [implement, items, record, List.map, Value.Distinct, itemsDistinct]
  decide

theorem dependency_distinct (values : List Value) :
    (Value.dict (dependencyLayer values)).Distinct := by
  simp only [dependencyLayer, dependencyFields, items, record, List.map, Value.Distinct, itemsDistinct, Dict.names,
    List.filterMap]
  decide

theorem stated_dependency {values : List Value} {field : String × Value} {rest : List Key}
    (hfield : field ∈ dependencyFields values) :
    stated (.dict (dependencyLayer values)) (.str (str field.1) :: rest) = stated field.2 rest :=
  stated_field [str "workspace", str "network", str "credentials", str "git", str "sandbox"] rfl
    (by decide) hfield

/-! ## What is in force after a profile -/

section

variable {e p : ExecutionPolicy} {name : Str}

theorem review_applied (h : applyLayer e name (some (.dict review.sparse)) = .ok p) :
    p.sandbox.required = true ∧ p.credentials.providerAuth.taskShell = .deny ∧
      p.workspace.access = .read ∧ p.git.commit = false ∧ p.network.taskShell.mode = .deny :=
  ⟨leaf_of_layer .sandboxRequired review_distinct h rfl rfl,
    leaf_of_layer .providerAuth review_distinct h rfl rfl,
    leaf_of_layer .workspaceAccess review_distinct h rfl rfl,
    leaf_of_layer .gitCommit review_distinct h rfl rfl,
    leaf_of_layer .networkMode review_distinct h rfl rfl⟩

theorem implement_applied (h : applyLayer e name (some (.dict implement.sparse)) = .ok p) :
    p.sandbox.required = true ∧ p.credentials.providerAuth.taskShell = .deny ∧
      p.git.push = false ∧ p.network.taskShell.mode = .deny :=
  ⟨leaf_of_layer .sandboxRequired implement_distinct h rfl rfl,
    leaf_of_layer .providerAuth implement_distinct h rfl rfl,
    leaf_of_layer .gitPush implement_distinct h rfl rfl,
    leaf_of_layer .networkMode implement_distinct h rfl rfl⟩

theorem dependency_applied {values : List Value}
    (h : applyLayer e name (some (.dict (dependencyLayer values))) = .ok p) :
    p.sandbox.required = true ∧ p.credentials.providerAuth.taskShell = .deny ∧
      p.git.push = false ∧ p.network.taskShell.mode = .allowlist ∧
      ∀ destination ∈ p.network.taskShell.destinations.items, .str destination ∈ values := by
  have hdistinct := dependency_distinct values
  have hnetwork : ∀ rest, stated (.dict (dependencyLayer values)) (.str (str "network") :: rest) =
      stated (record [("task_shell", record [("mode", .str (str "allowlist")),
        ("destinations", .seq values)])]) rest := fun _ => stated_dependency (.tail _ (.head _))
  have hmode : stated (.dict (dependencyLayer values)) Leaf.networkMode.path =
      some (.str (str "allowlist")) := by
    refine (hnetwork _).trans ?_
    refine (stated_field [str "task_shell"] rfl (by decide) (.head _)).trans ?_
    exact stated_field [str "mode", str "destinations"] rfl (by decide) (.head _)
  have hauth : stated (.dict (dependencyLayer values)) Leaf.providerAuth.path =
      some (.str (str "deny")) :=
    (stated_dependency (.tail _ (.tail _ (.head _)))).trans rfl
  have hpush : stated (.dict (dependencyLayer values)) Leaf.gitPush.path = some (.bool false) :=
    (stated_dependency (.tail _ (.tail _ (.tail _ (.head _))))).trans rfl
  have hsandbox : stated (.dict (dependencyLayer values)) Leaf.sandboxRequired.path =
      some (.bool true) :=
    (stated_dependency (.tail _ (.tail _ (.tail _ (.tail _ (.head _)))))).trans rfl
  have hdestinations : stated (.dict (dependencyLayer values)) Leaf.destinations.path =
      some (.seq values) := by
    refine (hnetwork _).trans ?_
    refine (stated_field [str "task_shell"] rfl (by decide) (.head _)).trans ?_
    exact stated_field [str "mode", str "destinations"] rfl (by decide) (.tail _ (.head _))
  refine ⟨leaf_of_layer .sandboxRequired hdistinct h hsandbox rfl,
    leaf_of_layer .providerAuth hdistinct h hauth rfl, leaf_of_layer .gitPush hdistinct h hpush rfl,
    leaf_of_layer .networkMode hdistinct h hmode rfl, fun destination hmem => ?_⟩
  have hleaf := ExecutionPolicy.restated hdistinct (applyLayer_overlaid h).2 .destinations
  rw [hdestinations] at hleaf
  have hnormalized : normalizeDestinations (.seq values) = .ok p.network.taskShell.destinations := hleaf
  obtain ⟨items, hvalues, hitems⟩ := normalizeDestinations_ok hnormalized
  have hmem' : destination ∈ sorted items := hitems ▸ hmem
  rw [sorted, List.mem_insertionSort] at hmem'
  rw [Value.seq.inj hvalues]
  exact List.mem_map_of_mem hmem'

end

/-! ## What stays in force -/

section

variable {p q : ExecutionPolicy}

theorem Narrower.readonly (h : Narrower p q) (hq : q.workspace.access = .read) :
    p.workspace.access = .none ∨ p.workspace.access = .read := by
  have horder := Access.order_le_iff.mpr h.workspace
  rw [hq] at horder
  cases haccess : p.workspace.access with
  | none => exact Or.inl rfl
  | read => exact Or.inr rfl
  | write =>
    rw [haccess] at horder
    exact absurd horder (by decide)

theorem Narrower.hidden (h : Narrower p q) (hq : q.credentials.providerAuth.taskShell = .deny) :
    p.credentials.providerAuth.taskShell = .deny := by
  cases hvisible : p.credentials.providerAuth.taskShell with
  | deny => rfl
  | allow =>
    rw [h.credentials hvisible] at hq
    cases hq

theorem Narrower.denied (h : Narrower p q) (hq : q.network.taskShell.mode = .deny) :
    p.network.taskShell.mode = .deny := by
  have horder := TaskShellNetworkPolicy.order_of_reachable h.network
  rw [hq] at horder
  cases hmode : p.network.taskShell.mode with
  | deny => rfl
  | _ =>
    rw [hmode] at horder
    exact absurd horder (by decide)

theorem Narrower.listed (h : Narrower p q) (hq : q.network.taskShell.mode = .allowlist) :
    p.network.taskShell.mode = .deny ∨ p.network.taskShell.mode = .allowlist := by
  have horder := TaskShellNetworkPolicy.order_of_reachable h.network
  rw [hq] at horder
  cases hmode : p.network.taskShell.mode with
  | deny => exact Or.inl rfl
  | allowlist => exact Or.inr rfl
  | allow =>
    rw [hmode] at horder
    exact absurd horder (by decide)

theorem forbidden {a b : Bool} (h : a = true → b = true) (hb : b = false) : a = false := by
  by_contra ha
  rw [h (Bool.eq_true_of_not_eq_false ha)] at hb
  cases hb

end

/-! ## Resolving with a profile -/

/-- What a run with a built-in profile can rely on, whatever the layers above and below it. -/
theorem profile_guarantees {platformBaseline p : ExecutionPolicy} {profile : ExecutionProfile}
    {projectPolicy runRestrictions : Option Value} {destinations : Value} {layer : Dict}
    (hproject : ∀ project ∈ projectPolicy, project.Distinct) (hprofile : profile ∈ listProfiles)
    (hlayer : profile.restrictions destinations = .ok layer)
    (h : resolve platformBaseline projectPolicy (some (.dict layer)) runRestrictions = .ok p) :
    (profile.id ≠ .compatibility →
      p.sandbox.required = true ∧ p.credentials.providerAuth.taskShell = .deny) ∧
    (profile.id = .review →
      (p.workspace.access = .none ∨ p.workspace.access = .read) ∧ p.git.commit = false ∧
        p.network.taskShell.mode = .deny) ∧
    (profile.id = .implement → p.git.push = false ∧ p.network.taskShell.mode = .deny) ∧
    (profile.id = .dependency → p.git.push = false ∧ (p.network.taskShell.mode = .deny ∨
      p.network.taskShell.mode = .allowlist ∧ ∃ values, destinations = .seq values ∧
        ∀ destination ∈ p.network.taskShell.destinations.items, .str destination ∈ values ∧
          ∀ upper, upper = platformBaseline ∨
              resolve platformBaseline projectPolicy none none = .ok upper →
            upper.network.taskShell.mode = .allowlist →
            destination ∈ upper.network.taskShell.destinations.items)) ∧
    (platformBaseline.securityClass = .hardened ∨
        (∃ project ∈ projectPolicy,
          stated project Leaf.securityClass.path = some (.str (str "hardened"))) →
      p.securityClass = .hardened) := by
  obtain ⟨project, hupper, h⟩ := bind_ok_iff.mp h
  obtain ⟨applied, happlied, hrun⟩ := bind_ok_iff.mp h
  clear h
  have hnarrow := applyLayer_narrows hrun
  have hnarrow' := applyLayer_narrows happlied
  have hnarrow'' := applyLayer_narrows hupper
  have hresolved : resolve platformBaseline projectPolicy none none = .ok project := by
    rw [resolve, hupper]
    rfl
  have hhardened : platformBaseline.securityClass = .hardened ∨
      (∃ project ∈ projectPolicy,
        stated project Leaf.securityClass.path = some (.str (str "hardened"))) →
      p.securityClass = .hardened := by
    rintro (hbaseline | ⟨value, hvalue, hstated⟩)
    · exact hnarrow.security (hnarrow'.security (hnarrow''.security hbaseline))
    · obtain rfl : projectPolicy = some value := hvalue
      have hclass : project.securityClass = .hardened :=
        leaf_of_layer .securityClass (hproject value rfl) hupper hstated rfl
      exact hnarrow.security (hnarrow'.security hclass)
  simp only [listProfiles, List.mem_cons, List.not_mem_nil, or_false] at hprofile
  rcases hprofile with rfl | rfl | rfl | rfl
  · obtain rfl := review_layer hlayer
    obtain ⟨hsandbox, hhidden, haccess, hcommit, hdenied⟩ := review_applied happlied
    refine ⟨fun _ => ⟨hnarrow.sandbox hsandbox, hnarrow.hidden hhidden⟩, fun _ => ?_,
      (fun hid => by cases hid), (fun hid => by cases hid), hhardened⟩
    exact ⟨hnarrow.readonly haccess, forbidden hnarrow.gitCommit hcommit, hnarrow.denied hdenied⟩
  · obtain rfl := implement_layer hlayer
    obtain ⟨hsandbox, hhidden, hpush, hdenied⟩ := implement_applied happlied
    refine ⟨fun _ => ⟨hnarrow.sandbox hsandbox, hnarrow.hidden hhidden⟩, (fun hid => by cases hid),
      fun _ => ?_, (fun hid => by cases hid), hhardened⟩
    exact ⟨forbidden hnarrow.gitPush hpush, hnarrow.denied hdenied⟩
  · obtain ⟨values, rfl, rfl⟩ := dependency_layer hlayer
    obtain ⟨hsandbox, hhidden, hpush, hlisted, hvalues⟩ := dependency_applied happlied
    refine ⟨fun _ => ⟨hnarrow.sandbox hsandbox, hnarrow.hidden hhidden⟩, (fun hid => by cases hid),
      (fun hid => by cases hid), fun _ => ⟨forbidden hnarrow.gitPush hpush, ?_⟩, hhardened⟩
    refine (hnarrow.listed hlisted).imp id fun hmode => ⟨hmode, values, rfl, ?_⟩
    intro destination hmem
    have hmem' := TaskShellNetworkPolicy.subset_of_reachable hnarrow.network hmode hlisted hmem
    refine ⟨hvalues destination hmem', fun upper hupper' hmode' => ?_⟩
    have hnarrower : Narrower p upper := by
      rcases hupper' with rfl | hupper'
      · exact hnarrow.trans (hnarrow'.trans hnarrow'')
      · cases hresolved.symm.trans hupper'
        exact hnarrow.trans hnarrow'
    exact TaskShellNetworkPolicy.subset_of_reachable hnarrower.network hmode hmode' hmem
  · exact ⟨fun hid => absurd rfl hid, (fun hid => by cases hid), (fun hid => by cases hid),
      (fun hid => by cases hid), hhardened⟩

def exampleHardened : Dict := items [("security_class", .str (str "hardened"))]

def exampleDependency : ExecutionPolicy :=
  { exampleBaseline with credentials := ⟨⟨.deny⟩⟩, securityClass := .hardened }

/-- A hardened project, and a run that may reach one of the destinations of the platform. -/
theorem profile_guarantees_example :
    resolve exampleBaseline (some (.dict exampleHardened))
        (some (.dict (dependencyLayer [.str (str "pypi.org")]))) none = .ok exampleDependency ∧
      exampleDependency.securityClass = .hardened ∧ exampleDependency.git.push = false ∧
      exampleDependency.credentials.providerAuth.taskShell = .deny := by
  have hdistinct : ∀ project ∈ some (Value.dict exampleHardened), project.Distinct := by
    intro project hproject
    obtain rfl : Value.dict exampleHardened = project := Option.some.inj hproject
    simp only [exampleHardened, items, List.map, Value.Distinct, itemsDistinct]
    decide
  have hlayer : dependency.restrictions (.seq [.str (str "pypi.org")]) =
      .ok (dependencyLayer [.str (str "pypi.org")]) := rfl
  have hresolved : resolve exampleBaseline (some (.dict exampleHardened))
      (some (.dict (dependencyLayer [.str (str "pypi.org")]))) none = .ok exampleDependency := rfl
  obtain ⟨hauth, -, -, hpush, hhardened⟩ := profile_guarantees hdistinct
    (.tail _ (.tail _ (.head _))) hlayer hresolved
  exact ⟨hresolved, hhardened (Or.inr ⟨_, rfl, rfl⟩), (hpush rfl).1, (hauth (by decide)).2⟩

end AgentDev.Policy
