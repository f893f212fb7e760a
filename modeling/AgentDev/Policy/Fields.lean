import AgentDev.Policy.Overlay

/-!
# The fields of a policy

A complete policy has fifteen leaf fields (`Leaf`), each with its path in the mapping, its content in
the policy, and the check that makes the content of a stated value. The policy is determined by
them (`ext_leaf`), and its mapping has no others (`leaf_of_stated`).
-/

namespace AgentDev.Policy

open Python

/-! ## Stated values -/

/-- What a value states at a path of keys. -/
def stated : Value → List Key → Option Value
  | value, [] => some value
  | .dict items, key :: rest =>
    match items.lookup key with
    | some value => stated value rest
    | none => none
  | _, _ :: _ => none

theorem stated_dict (d : Dict) (name : Str) (rest : List Key) :
    stated (.dict d) (.str name :: rest) = (d.get? name).bind fun value => stated value rest := by
  rw [stated, Dict.get?]
  cases d.lookup (.str name) <;> rfl

theorem stated_of_not_dict {value : Value} {key : Key} {rest : List Key}
    (h : ∀ items, value ≠ .dict items) : stated value (key :: rest) = none := by
  cases value with
  | dict items => exact absurd rfl (h items)
  | _ => rfl

/-- A layer that states known fields only goes beyond the base at most within a leaf. -/
theorem Known.stated {base value result : Value} {path : List Key} (hknown : Known base value)
    (h : stated value path = some result) :
    (Policy.stated base path).isSome = true ∨ ∃ before after leaf items, path = before ++ after ∧
      Policy.stated base before = some leaf ∧ (∀ items, leaf ≠ .dict items) ∧
      Policy.stated value before = some (.dict items) := by
  induction path generalizing base value with
  | nil => exact Or.inl (by rw [Policy.stated]; rfl)
  | cons key rest ih =>
    cases value with
    | dict items =>
      cases hknown with
      | plain hplain => exact absurd rfl (hplain items)
      | leaf hleaf => exact Or.inr ⟨[], key :: rest, base, items, rfl, rfl, hleaf, rfl⟩
      | @dict base _ hnames hfields hvalues =>
        cases key with
        | other =>
          rw [Policy.stated, Dict.hasNames_iff.mp hnames] at h
          cases h
        | str name =>
          rw [stated_dict] at h
          obtain ⟨value, hvalue, h⟩ := Option.bind_eq_some_iff.mp h
          obtain ⟨baseValue, hbase⟩ := Option.isSome_iff_exists.mp (hfields name value hvalue)
          simp only [stated_dict, hbase, Option.bind_some]
          rcases ih (hvalues name value baseValue hvalue hbase) h with
            hsome | ⟨before, after, leaf, items', rfl, hleaf, hplain, hdict⟩
          · exact Or.inl hsome
          · refine Or.inr ⟨.str name :: before, after, leaf, items', rfl, ?_, hplain, ?_⟩
            · rw [stated_dict, hbase]
              exact hleaf
            · rw [stated_dict, hvalue]
              exact hdict
    | _ =>
      rw [stated_of_not_dict (by simp)] at h
      cases h

/-! ## Leaf fields -/

inductive Leaf
  | version
  | workspaceAccess
  | referenceAccess
  | external
  | networkMode
  | destinations
  | providerAuth
  | gitRead
  | gitCommit
  | gitPush
  | sandboxRequired
  | cpu
  | memory
  | pids
  | securityClass
  deriving DecidableEq

namespace Leaf

/-- What a policy has in the field. -/
abbrev Content : Leaf → Type
  | version | memory | pids => Int
  | workspaceAccess => Access
  | referenceAccess => ReferenceAccess
  | external => ExternalAccess
  | networkMode => NetworkMode
  | destinations => Destinations
  | providerAuth => Visibility
  | gitRead | gitCommit | gitPush | sandboxRequired => Bool
  | cpu => Rat
  | securityClass => SecurityClass

def names : Leaf → List String
  | version => ["version"]
  | workspaceAccess => ["workspace", "access"]
  | referenceAccess => ["reference", "access"]
  | external => ["filesystem", "external"]
  | networkMode => ["network", "task_shell", "mode"]
  | destinations => ["network", "task_shell", "destinations"]
  | providerAuth => ["credentials", "provider_auth", "task_shell"]
  | gitRead => ["git", "read"]
  | gitCommit => ["git", "commit"]
  | gitPush => ["git", "push"]
  | sandboxRequired => ["sandbox", "required"]
  | cpu => ["resources", "cpu"]
  | memory => ["resources", "memory"]
  | pids => ["resources", "pids"]
  | securityClass => ["security_class"]

def path (leaf : Leaf) : List Key := leaf.names.map fun name => .str (str name)

def get (leaf : Leaf) (p : ExecutionPolicy) : leaf.Content :=
  match leaf with
  | version => p.version
  | workspaceAccess => p.workspace.access
  | referenceAccess => p.reference.access
  | external => p.filesystem.external
  | networkMode => p.network.taskShell.mode
  | destinations => p.network.taskShell.destinations
  | providerAuth => p.credentials.providerAuth.taskShell
  | gitRead => p.git.read
  | gitCommit => p.git.commit
  | gitPush => p.git.push
  | sandboxRequired => p.sandbox.required
  | cpu => p.resources.cpu
  | memory => p.resources.memoryBytes
  | pids => p.resources.pids
  | securityClass => p.securityClass

/-- The normalized content of a stated value. -/
def normalize (leaf : Leaf) (value : Value) : Except Error leaf.Content :=
  match leaf with
  | version => Subtype.val <$> requireVersion value
  | workspaceAccess => requireChoice value (str "workspace.access") Access.choices
  | referenceAccess => requireChoice value (str "reference.access") ReferenceAccess.choices
  | external => requireChoice value (str "filesystem.external") ExternalAccess.choices
  | networkMode => requireChoice value (str "network.task_shell.mode") NetworkMode.choices
  | destinations => normalizeDestinations value
  | providerAuth =>
    requireChoice value (str "credentials.provider_auth.task_shell") Visibility.choices
  | gitRead => requireBool value (str "git.read")
  | gitCommit => requireBool value (str "git.commit")
  | gitPush => requireBool value (str "git.push")
  | sandboxRequired => requireBool value (str "sandbox.required")
  | cpu => Subtype.val <$> normalizeCpu value
  | memory => normalizeMemory value
  | pids => Subtype.val <$> requirePositiveInt value (str "resources.pids")
  | securityClass => requireChoice value (str "security_class") SecurityClass.choices

/-- No mapping is the value of a leaf. -/
theorem normalize_dict (leaf : Leaf) (items : Dict) (content : leaf.Content) :
    leaf.normalize (.dict items) ≠ .ok content := by
  cases leaf <;> exact fun h => nomatch h

/-- A policy is determined by its leaf fields. -/
theorem ext_leaf {p q : ExecutionPolicy} (h : ∀ leaf : Leaf, leaf.get p = leaf.get q) : p = q := by
  obtain ⟨_, ⟨_⟩, ⟨_⟩, ⟨_⟩, ⟨⟨_, _, _⟩⟩, ⟨⟨_⟩⟩, ⟨_, _, _⟩, ⟨_⟩, ⟨_, _, _, _, _, _⟩, _, _⟩ := p
  obtain ⟨_, ⟨_⟩, ⟨_⟩, ⟨_⟩, ⟨⟨_, _, _⟩⟩, ⟨⟨_⟩⟩, ⟨_, _, _⟩, ⟨_⟩, ⟨_, _, _, _, _, _⟩, _, _⟩ := q
  cases h version
  cases h workspaceAccess
  cases h referenceAccess
  cases h external
  cases h networkMode
  cases h destinations
  cases h providerAuth
  cases h gitRead
  cases h gitCommit
  cases h gitPush
  cases h sandboxRequired
  cases h cpu
  cases h memory
  cases h pids
  cases h securityClass
  rfl

end Leaf

/-! ## The mapping of a policy -/

section

variable {fields : List (String × Value)} {path rest : List Key} {value result : Value}

theorem stated_field {field : String × Value} (names : List Str)
    (hnames : (items fields).names = names) (hnodup : names.Nodup) (hfield : field ∈ fields) :
    stated (record fields) (.str (str field.1) :: rest) = stated field.2 rest := by
  have hlookup : (items fields).get? (str field.1) = some field.2 :=
    Dict.get?_of_mem (hnames ▸ hnodup) (List.mem_map.mpr ⟨field, hfield, rfl⟩)
  rw [record, stated_dict, hlookup, Option.bind_some]

theorem stated_record (h : stated (record fields) path = some result)
    (hplain : ∀ items, result ≠ .dict items) :
    ∃ field ∈ fields, ∃ rest, path = .str (str field.1) :: rest ∧ stated field.2 rest = some result := by
  cases path with
  | nil =>
    cases h
    exact absurd rfl (hplain _)
  | cons key rest =>
    rw [record, stated] at h
    cases hlookup : (items fields).lookup key with
    | none =>
      rw [hlookup] at h
      cases h
    | some value =>
      rw [hlookup] at h
      obtain ⟨before, after, hsplit, -⟩ := List.lookup_eq_some_iff.mp hlookup
      have hmem : (key, value) ∈ items fields := by simp [hsplit]
      obtain ⟨field, hfield, heq⟩ := List.mem_map.mp hmem
      cases heq
      exact ⟨field, hfield, rest, rfl, h⟩

theorem stated_plain (h : stated value rest = some result) (hplain : ∀ items, value ≠ .dict items) :
    rest = [] := by
  cases rest with
  | nil => rfl
  | cons key rest =>
    rw [stated_of_not_dict hplain] at h
    cases h

/-- In a record without mappings, the path is the name of a field. -/
theorem stated_leaves (h : stated (record fields) path = some result)
    (hplain : ∀ items, result ≠ .dict items)
    (hleaves : ∀ field ∈ fields, ∀ items, field.2 ≠ .dict items) :
    ∃ field ∈ fields, path = [.str (str field.1)] := by
  obtain ⟨field, hfield, rest, rfl, hrest⟩ := stated_record h hplain
  rw [stated_plain hrest (hleaves field hfield)]
  exact ⟨field, hfield, rfl⟩

end

/-- What is no mapping in the mapping of a policy is a leaf. -/
theorem leaf_of_stated {p : ExecutionPolicy} {path : List Key} {value : Value}
    (h : stated (.dict p.asDict) path = some value) (hplain : ∀ items, value ≠ .dict items) :
    ∃ leaf : Leaf, path = leaf.path := by
  obtain ⟨field, hfield, rest, rfl, hrest⟩ := stated_record h hplain
  clear h
  simp only [List.mem_cons, List.not_mem_nil, or_false] at hfield
  rcases hfield with rfl | rfl | rfl | rfl | rfl | rfl | rfl | rfl | rfl | rfl
  · rw [stated_plain hrest (by simp)]
    exact ⟨.version, rfl⟩
  · obtain ⟨_, hfield, rfl⟩ := stated_leaves hrest hplain (by simp)
    rw [List.mem_singleton.mp hfield]
    exact ⟨.workspaceAccess, rfl⟩
  · obtain ⟨_, hfield, rfl⟩ := stated_leaves hrest hplain (by simp)
    rw [List.mem_singleton.mp hfield]
    exact ⟨.referenceAccess, rfl⟩
  · obtain ⟨_, hfield, rfl⟩ := stated_leaves hrest hplain (by simp)
    rw [List.mem_singleton.mp hfield]
    exact ⟨.external, rfl⟩
  · obtain ⟨_, hfield, rest, rfl, hinner⟩ := stated_record hrest hplain
    rw [List.mem_singleton.mp hfield] at hinner ⊢
    obtain ⟨_, hfield, rfl⟩ := stated_leaves hinner hplain (by simp)
    simp only [List.mem_cons, List.not_mem_nil, or_false] at hfield
    rcases hfield with rfl | rfl
    · exact ⟨.networkMode, rfl⟩
    · exact ⟨.destinations, rfl⟩
  · obtain ⟨_, hfield, rest, rfl, hinner⟩ := stated_record hrest hplain
    rw [List.mem_singleton.mp hfield] at hinner ⊢
    obtain ⟨_, hfield, rfl⟩ := stated_leaves hinner hplain (by simp)
    rw [List.mem_singleton.mp hfield]
    exact ⟨.providerAuth, rfl⟩
  · obtain ⟨_, hfield, rfl⟩ := stated_leaves hrest hplain (by simp)
    simp only [List.mem_cons, List.not_mem_nil, or_false] at hfield
    rcases hfield with rfl | rfl | rfl
    · exact ⟨.gitRead, rfl⟩
    · exact ⟨.gitCommit, rfl⟩
    · exact ⟨.gitPush, rfl⟩
  · obtain ⟨_, hfield, rfl⟩ := stated_leaves hrest hplain (by simp)
    rw [List.mem_singleton.mp hfield]
    exact ⟨.sandboxRequired, rfl⟩
  · obtain ⟨_, hfield, rfl⟩ := stated_leaves hrest hplain (by simp [cpuValue_ne_dict])
    simp only [List.mem_cons, List.not_mem_nil, or_false] at hfield
    rcases hfield with rfl | rfl | rfl
    · exact ⟨.cpu, rfl⟩
    · exact ⟨.memory, rfl⟩
    · exact ⟨.pids, rfl⟩
  · rw [stated_plain hrest (by simp)]
    exact ⟨.securityClass, rfl⟩

end AgentDev.Policy
