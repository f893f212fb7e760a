import AgentDev.Policy.Resolver

/-!
# The overlay of a layer

What a sparse layer means: fields that it restates replace those of the effective policy, all
others are inherited, and inherited destinations are dropped when it restates the network mode
only. `overlay` says this for every mapping, and keeps fields that no policy has. The resolver
stops at such fields instead; but then the overlay is no valid policy either
(`candidate_of_overlay`).
-/

namespace AgentDev.Policy

open Python

mutual

def overlayValue (path : Str) (baseValue : Value) : Value → Value
  | .dict restrictions =>
    match baseValue with
    | .dict base =>
      .dict (clearDestinations path restrictions (overlayItems path base base restrictions))
    | _ => .dict restrictions
  | value => value

def overlayItems (path : Str) (base result : Dict) : List (Key × Value) → Dict
  | [] => result
  | (.other, value) :: rest => overlayItems path base (result.set .other value) rest
  | (.str name, value) :: rest =>
    overlayItems path base (result.set (.str name)
      (overlayValue (fieldPath path name) ((base.get? name).getD .none) value)) rest

end

def overlay (base restrictions : Dict) : Dict :=
  clearDestinations [] restrictions (overlayItems [] base base restrictions)

/-! ## The fields of an overlay -/

section

variable {path layer name : Str} {base result restrictions rest : Dict} {value baseValue : Value}
  {key : Key}

/-- A field that the items do not state is as it was. -/
theorem lookup_overlayItems_of_not_mem {items : Dict} (hnot : ∀ item ∈ items, item.1 ≠ key) :
    (overlayItems path base result items).lookup key = result.lookup key := by
  induction items generalizing result with
  | nil => simp [overlayItems]
  | cons item rest ih =>
    obtain ⟨first, value⟩ := item
    have hne : key ≠ first := Ne.symm (hnot (first, value) (by simp))
    have hrest : ∀ item ∈ rest, item.1 ≠ key := fun item hitem => hnot item (by simp [hitem])
    cases first with
    | other => rw [overlayItems, ih hrest, Dict.lookup_set, if_neg hne]
    | str name => rw [overlayItems, ih hrest, Dict.lookup_set, if_neg hne]

/-- A field that the items state is overlaid. -/
theorem lookup_overlayItems_of_mem {items : Dict} (hdistinct : items.names.Nodup)
    (hmem : (Key.str name, value) ∈ items) :
    (overlayItems path base result items).lookup (.str name) =
      some (overlayValue (fieldPath path name) ((base.get? name).getD .none) value) := by
  induction items generalizing result with
  | nil => cases hmem
  | cons item rest ih =>
    obtain ⟨first, old⟩ := item
    cases first with
    | other =>
      have hrest : (Key.str name, value) ∈ rest := by simpa using hmem
      rw [overlayItems, ih hdistinct hrest]
    | str first =>
      have hnodup : (first :: Dict.names rest).Nodup := hdistinct
      obtain ⟨hnew, hnodup⟩ := List.nodup_cons.mp hnodup
      rcases List.mem_cons.mp hmem with heq | hrest
      · cases heq
        rw [overlayItems, lookup_overlayItems_of_not_mem, Dict.lookup_set, if_pos rfl]
        intro item hitem heq
        refine hnew (Dict.mem_names.mpr ?_)
        rw [Dict.get?, List.lookup_isSome_iff]
        exact ⟨item, hitem, by simp [heq]⟩
      · rw [overlayItems, ih hnodup hrest]

theorem lookup_overlayItems_isSome {items : Dict} (hkey : (result.lookup key).isSome = true) :
    ((overlayItems path base result items).lookup key).isSome = true := by
  induction items generalizing result with
  | nil => simpa [overlayItems] using hkey
  | cons item rest ih =>
    obtain ⟨first, value⟩ := item
    have hset : ∀ v, ((result.set first v).lookup key).isSome = true := by
      intro v
      rw [Dict.lookup_set]
      split
      · rfl
      · exact hkey
    cases first with
    | other =>
      rw [overlayItems]
      exact ih (hset _)
    | str name =>
      rw [overlayItems]
      exact ih (hset _)

theorem lookup_overlayItems_stated {items : Dict} (hmem : (key, value) ∈ items) :
    ((overlayItems path base result items).lookup key).isSome = true := by
  induction items generalizing result with
  | nil => cases hmem
  | cons item rest ih =>
    obtain ⟨first, old⟩ := item
    have hset : ∀ v, ((result.set first v).lookup first).isSome = true := by
      intro v
      rw [Dict.lookup_set, if_pos rfl]
      rfl
    rcases List.mem_cons.mp hmem with heq | hrest
    · cases heq
      cases key with
      | other =>
        rw [overlayItems]
        exact lookup_overlayItems_isSome (hset _)
      | str name =>
        rw [overlayItems]
        exact lookup_overlayItems_isSome (hset _)
    · cases first with
      | other =>
        rw [overlayItems]
        exact ih hrest
      | str name =>
        rw [overlayItems]
        exact ih hrest

theorem lookup_clearDestinations (hkey : key ≠ .str (str "destinations") ∨
    restrictions.contains (str "destinations") = true) :
    (clearDestinations path restrictions result).lookup key = result.lookup key := by
  unfold clearDestinations
  split
  · split
    · rename_i hclear
      rcases hkey with hkey | hkey
      · rw [Dict.lookup_set, if_neg hkey]
      · rw [hkey] at hclear
        simp at hclear
    · rfl
  · rfl

end

/-! ## Layers that state only fields of the policy -/

/-- All fields of the value are fields of the base, and so in each mapping within. -/
inductive Known : Value → Value → Prop
  | leaf {base value : Value} (h : ∀ items, base ≠ .dict items) : Known base value
  | plain {base value : Value} (h : ∀ items, value ≠ .dict items) : Known base value
  | dict {base items : Dict} (names : items.hasNames = true)
      (fields : ∀ name value, items.get? name = some value → (base.get? name).isSome = true)
      (values : ∀ name value baseValue, items.get? name = some value →
        base.get? name = some baseValue → Known baseValue value) :
      Known (.dict base) (.dict items)

/-- Each field that a layer states has its overlaid value in the overlay, so a layer whose overlay
has only known fields states only such fields. -/
theorem known_restrictions {path : Str} {base restrictions : Dict}
    (hdistinct : restrictions.names.Nodup)
    (hknown : Known (.dict base)
      (.dict (clearDestinations path restrictions (overlayItems path base base restrictions)))) :
    (∀ item ∈ restrictions, item.1 ≠ .other) ∧
      ∀ name value, (Key.str name, value) ∈ restrictions →
        ∃ baseValue, base.get? name = some baseValue ∧
          Known baseValue (overlayValue (fieldPath path name) baseValue value) := by
  cases hknown with
  | leaf h => exact absurd rfl (h base)
  | plain h => exact absurd rfl (h _)
  | dict hnames hfields hvalues =>
    constructor
    · rintro ⟨key, value⟩ hmem rfl
      have hnone := Dict.hasNames_iff.mp hnames
      have hstated : ((overlayItems path base base restrictions).lookup .other).isSome = true :=
        lookup_overlayItems_stated hmem
      rw [← lookup_clearDestinations (Or.inl (by simp)), hnone] at hstated
      cases hstated
    · intro name value hmem
      have hlookup : (overlayItems path base base restrictions).lookup (.str name) =
          some (overlayValue (fieldPath path name) ((base.get? name).getD .none) value) :=
        lookup_overlayItems_of_mem hdistinct hmem
      have hkey : Key.str name ≠ .str (str "destinations") ∨
          restrictions.contains (str "destinations") = true := by
        by_cases hname : name = str "destinations"
        · right
          rw [← hname, Dict.contains, Dict.get?_of_mem hdistinct hmem]
          rfl
        · left
          simpa using hname
      rw [← lookup_clearDestinations hkey] at hlookup
      obtain ⟨baseValue, hbase⟩ := Option.isSome_iff_exists.mp (hfields name _ hlookup)
      rw [hbase] at hlookup
      exact ⟨baseValue, hbase, hvalues name _ baseValue hlookup hbase⟩

mutual

theorem mergeValue_eq {layer path : Str} {baseValue : Value} : ∀ {value : Value}, value.Distinct →
    Known baseValue (overlayValue path baseValue value) →
    mergeValue layer path baseValue value = .ok (overlayValue path baseValue value)
  | .dict restrictions, hdistinct, hknown => by
    cases baseValue with
    | dict base =>
      have hdistinct' : (Dict.names restrictions).Nodup ∧ itemsDistinct restrictions := by
        simpa [Value.Distinct] using hdistinct
      rw [overlayValue] at hknown ⊢
      obtain ⟨hnames, hfields⟩ := known_restrictions hdistinct'.1 hknown
      have hmerged : mergeItems layer path base base restrictions =
          .ok (overlayItems path base base restrictions) :=
        mergeItems_eq hdistinct'.2 hnames hfields
      have hall : Dict.hasNames restrictions = true := by
        rw [Dict.hasNames, List.all_eq_true]
        exact fun item hitem => by simpa using hnames item hitem
      rw [mergeValue, if_pos hall, hmerged]
      rfl
    | _ => simp [mergeValue, overlayValue]
  | .none, _, _ | .bool _, _, _ | .int _, _, _ | .float _, _, _ | .str _, _, _ | .seq _, _, _
  | .other, _, _ => by simp [mergeValue, overlayValue]

theorem mergeItems_eq {layer path : Str} {base result : Dict} : ∀ {items : List (Key × Value)},
    itemsDistinct items → (∀ item ∈ items, item.1 ≠ .other) →
    (∀ name value, (Key.str name, value) ∈ items → ∃ baseValue, base.get? name = some baseValue ∧
      Known baseValue (overlayValue (fieldPath path name) baseValue value)) →
    mergeItems layer path base result items = .ok (overlayItems path base result items)
  | [], _, _, _ => by simp [mergeItems, overlayItems]
  | (.other, value) :: rest, _, hnames, _ => absurd rfl (hnames (.other, value) (by simp))
  | (.str name, value) :: rest, hdistinct, hnames, hfields => by
    obtain ⟨hvalue, hrest⟩ : value.Distinct ∧ itemsDistinct rest := by
      simpa [itemsDistinct] using hdistinct
    obtain ⟨baseValue, hbase, hknown⟩ := hfields name value (by simp)
    let merged := overlayValue (fieldPath path name) baseValue value
    have hmerged : mergeValue layer (fieldPath path name) baseValue value = .ok merged :=
      mergeValue_eq hvalue hknown
    have hrest : mergeItems layer path base (result.set (.str name) merged) rest =
        .ok (overlayItems path base (result.set (.str name) merged) rest) :=
      mergeItems_eq hrest (fun item hitem => hnames item (by simp [hitem]))
        (fun name value hmem => hfields name value (by simp [hmem]))
    rw [mergeItems, overlayItems, hbase]
    simp only [Option.getD_some, hmerged]
    exact hrest

end

/-! ## A valid policy has known fields only -/

/-- A mapping that has passed the check of its fields has known fields, when the values do. -/
theorem known_of_fields {fields : List (String × Value)} {value : Value} {path : Str}
    {required optional : List Str} {data : Dict}
    (hfields : required ++ optional = fields.map fun field => str field.1)
    (hdata : requireFields value path required optional = .ok data)
    (hvalues : ∀ field ∈ fields, ∀ value, data.get? (str field.1) = some value →
      Known field.2 value) : Known (record fields) value := by
  obtain ⟨rfl, hnames, hknown⟩ := requireFields_ok hdata
  refine .dict hnames (fun name value hvalue => ?_) fun name value baseValue hvalue hbase => ?_
  · have hmem : name ∈ required ++ optional := by
      rw [List.mem_append]
      exact hknown name (Dict.mem_names.mpr (by rw [hvalue]; rfl))
    rw [hfields] at hmem
    obtain ⟨field, hfield, rfl⟩ := List.mem_map.mp hmem
    rw [Dict.get?, List.lookup_isSome_iff]
    exact ⟨(.str (str field.1), field.2), List.mem_map.mpr ⟨field, hfield, rfl⟩, by simp⟩
  · obtain ⟨before, after, hsplit, -⟩ := List.lookup_eq_some_iff.mp hbase
    have hmem : (Key.str name, baseValue) ∈ items fields := by simp [hsplit]
    obtain ⟨field, hfield, heq⟩ := List.mem_map.mp hmem
    obtain ⟨hname, hbaseValue⟩ := Prod.mk.inj heq
    rw [← hbaseValue]
    exact hvalues field hfield value (by rw [Key.str.inj hname]; exact hvalue)

/-- The same for fields whose values are no mappings. -/
theorem known_of_leaves {fields : List (String × Value)} {value : Value} {path : Str}
    {required optional : List Str} {data : Dict}
    (hdata : requireFields value path required optional = .ok data)
    (hfields : required ++ optional = fields.map fun field => str field.1)
    (hleaves : ∀ field ∈ fields, ∀ items, field.2 ≠ .dict items) : Known (record fields) value :=
  known_of_fields hfields hdata fun field hfield _ _ => .leaf (hleaves field hfield)

section

variable {value : Value}

theorem WorkspacePolicy.known {p : WorkspacePolicy} (e : WorkspacePolicy)
    (h : WorkspacePolicy.fromDict value = .ok p) : Known e.asDict value := by
  obtain ⟨data, hdata, -⟩ := bind_ok_iff.mp h
  exact known_of_leaves hdata rfl (by simp)

theorem ReferencePolicy.known {p : ReferencePolicy} (e : ReferencePolicy)
    (h : ReferencePolicy.fromDict value = .ok p) : Known e.asDict value := by
  obtain ⟨data, hdata, -⟩ := bind_ok_iff.mp h
  exact known_of_leaves hdata rfl (by simp)

theorem FilesystemPolicy.known {p : FilesystemPolicy} (e : FilesystemPolicy)
    (h : FilesystemPolicy.fromDict value = .ok p) : Known e.asDict value := by
  obtain ⟨data, hdata, -⟩ := bind_ok_iff.mp h
  exact known_of_leaves hdata rfl (by simp)

theorem TaskShellNetworkPolicy.known {p : TaskShellNetworkPolicy} (e : TaskShellNetworkPolicy)
    (h : TaskShellNetworkPolicy.fromDict value = .ok p) : Known e.asDict value := by
  obtain ⟨data, hdata, -⟩ := bind_ok_iff.mp h
  exact known_of_leaves hdata rfl (by simp)

theorem NetworkPolicy.known {p : NetworkPolicy} (e : NetworkPolicy)
    (h : NetworkPolicy.fromDict value = .ok p) : Known e.asDict value := by
  obtain ⟨data, hdata, h⟩ := bind_ok_iff.mp h
  obtain ⟨shell, hshell, h⟩ := bind_ok_iff.mp h
  obtain ⟨policy, hpolicy, -⟩ := bind_ok_iff.mp h
  refine known_of_fields rfl hdata ?_
  simp only [List.mem_singleton, forall_eq, item_ok hshell, Option.some.injEq]
  rintro value rfl
  exact TaskShellNetworkPolicy.known e.taskShell hpolicy

theorem ProviderAuthPolicy.known {p : ProviderAuthPolicy} (e : ProviderAuthPolicy)
    (h : ProviderAuthPolicy.fromDict value = .ok p) : Known e.asDict value := by
  obtain ⟨data, hdata, -⟩ := bind_ok_iff.mp h
  exact known_of_leaves hdata rfl (by simp)

theorem CredentialsPolicy.known {p : CredentialsPolicy} (e : CredentialsPolicy)
    (h : CredentialsPolicy.fromDict value = .ok p) : Known e.asDict value := by
  obtain ⟨data, hdata, h⟩ := bind_ok_iff.mp h
  obtain ⟨auth, hauth, h⟩ := bind_ok_iff.mp h
  obtain ⟨policy, hpolicy, -⟩ := bind_ok_iff.mp h
  refine known_of_fields rfl hdata ?_
  simp only [List.mem_singleton, forall_eq, item_ok hauth, Option.some.injEq]
  rintro value rfl
  exact ProviderAuthPolicy.known e.providerAuth hpolicy

theorem GitPolicy.known {p : GitPolicy} (e : GitPolicy)
    (h : GitPolicy.fromDict value = .ok p) : Known e.asDict value := by
  obtain ⟨data, hdata, -⟩ := bind_ok_iff.mp h
  exact known_of_leaves hdata rfl (by simp)

theorem SandboxPolicy.known {p : SandboxPolicy} (e : SandboxPolicy)
    (h : SandboxPolicy.fromDict value = .ok p) : Known e.asDict value := by
  obtain ⟨data, hdata, -⟩ := bind_ok_iff.mp h
  exact known_of_leaves hdata rfl (by simp)

theorem cpuValue_ne_dict (cpu : Rat) (items : Dict) : cpuValue cpu ≠ .dict items := by
  unfold cpuValue
  split <;> simp

theorem PolicyResourceLimits.known {p : PolicyResourceLimits} (e : PolicyResourceLimits)
    (h : PolicyResourceLimits.fromDict value = .ok p) : Known e.asDict value := by
  obtain ⟨data, hdata, -⟩ := bind_ok_iff.mp h
  exact known_of_leaves hdata rfl (by simp [cpuValue_ne_dict])

theorem ExecutionPolicy.known {p : ExecutionPolicy} (e : ExecutionPolicy)
    (h : ExecutionPolicy.fromDict value = .ok p) : Known (.dict e.asDict) value := by
  obtain ⟨data, hdata, h⟩ := bind_ok_iff.mp h
  obtain ⟨version, hversion, h⟩ := bind_ok_iff.mp h
  obtain ⟨_, _, h⟩ := bind_ok_iff.mp h
  obtain ⟨workspace, hworkspace, h⟩ := bind_ok_iff.mp h
  obtain ⟨_, hworkspace', h⟩ := bind_ok_iff.mp h
  obtain ⟨reference, hreference, h⟩ := bind_ok_iff.mp h
  obtain ⟨_, hreference', h⟩ := bind_ok_iff.mp h
  obtain ⟨filesystem, hfilesystem, h⟩ := bind_ok_iff.mp h
  obtain ⟨_, hfilesystem', h⟩ := bind_ok_iff.mp h
  obtain ⟨network, hnetwork, h⟩ := bind_ok_iff.mp h
  obtain ⟨_, hnetwork', h⟩ := bind_ok_iff.mp h
  obtain ⟨credentials, hcredentials, h⟩ := bind_ok_iff.mp h
  obtain ⟨_, hcredentials', h⟩ := bind_ok_iff.mp h
  obtain ⟨git, hgit, h⟩ := bind_ok_iff.mp h
  obtain ⟨_, hgit', h⟩ := bind_ok_iff.mp h
  obtain ⟨sandbox, hsandbox, h⟩ := bind_ok_iff.mp h
  obtain ⟨_, hsandbox', h⟩ := bind_ok_iff.mp h
  obtain ⟨resources, hresources, h⟩ := bind_ok_iff.mp h
  obtain ⟨_, hresources', h⟩ := bind_ok_iff.mp h
  refine known_of_fields rfl hdata ?_
  simp only [List.forall_mem_cons, item_ok hversion, item_ok hworkspace, item_ok hreference,
    item_ok hfilesystem, item_ok hnetwork, item_ok hcredentials, item_ok hgit, item_ok hsandbox,
    item_ok hresources, Option.some.injEq, forall_eq']
  refine ⟨.leaf (by simp), WorkspacePolicy.known _ hworkspace', ReferencePolicy.known _ hreference',
    FilesystemPolicy.known _ hfilesystem', NetworkPolicy.known _ hnetwork',
    CredentialsPolicy.known _ hcredentials', GitPolicy.known _ hgit', SandboxPolicy.known _ hsandbox',
    PolicyResourceLimits.known _ hresources', ?_, by simp⟩
  intro value _
  exact .leaf (by simp)

end

/-- When the overlay of a layer is a valid policy, it is the candidate of the resolver. -/
theorem candidate_of_overlay {effective candidate : ExecutionPolicy} {restrictions : Dict}
    (layer : Str) (hdistinct : (Value.dict restrictions).Distinct)
    (h : ExecutionPolicy.fromDict (.dict (overlay effective.asDict restrictions)) = .ok candidate) :
    restrictions.hasNames = true ∧
      candidateFromLayer effective restrictions layer = .ok candidate := by
  have hdistinct' : restrictions.names.Nodup ∧ itemsDistinct restrictions := by
    simpa [Value.Distinct] using hdistinct
  obtain ⟨hnames, hfields⟩ := known_restrictions hdistinct'.1 (ExecutionPolicy.known effective h)
  have hmerged : mergeItems layer [] effective.asDict effective.asDict restrictions =
      .ok (overlayItems [] effective.asDict effective.asDict restrictions) :=
    mergeItems_eq hdistinct'.2 hnames hfields
  constructor
  · rw [Dict.hasNames, List.all_eq_true]
    exact fun item hitem => by simpa using hnames item hitem
  · rw [candidateFromLayer, mergeRestrictions, hmerged]
    show underLayer layer (ExecutionPolicy.fromDict (.dict (overlay effective.asDict restrictions))) = _
    rw [h]
    rfl

end AgentDev.Policy
