import AgentDev.Policy.Fields
import AgentDev.Policy.Mappings
import AgentDev.Policy.Narrowing
import AgentDev.Policy.Serialization

/-!
# What a layer changes

A leaf field that a layer states has the normalized stated value in the result, and any other leaf
field has the value of the effective policy (`Restated`). Only the destinations of the task shell
depend on another field: they are dropped by a layer that states a mode without them, unless the
mode is the allowlist. Nothing that exists before a call is changed by it.
-/

namespace AgentDev.Policy

open Python

/-! ## Merging is overlaying -/

mutual

theorem mergeValue_ok {layer path : Str} {baseValue result : Value} : ∀ {value : Value},
    mergeValue layer path baseValue value = .ok result →
    result = overlayValue path baseValue value ∧ Known baseValue value
  | .dict restrictions, h => by
    cases baseValue with
    | dict base =>
      rw [mergeValue] at h
      split at h
      · rename_i hnames
        obtain ⟨merged, hmerged, h⟩ := bind_ok_iff.mp h
        cases h
        obtain ⟨rfl, hfields⟩ := mergeItems_ok hmerged
        have hstated : ∀ name value, Dict.get? restrictions name = some value →
            ∃ baseValue, Dict.get? base name = some baseValue ∧ Known baseValue value := by
          intro name value hvalue
          obtain ⟨before, after, hsplit, -⟩ := List.lookup_eq_some_iff.mp hvalue
          exact hfields name value (by simp [hsplit])
        refine ⟨by rw [overlayValue], .dict hnames (fun name value hvalue => ?_) ?_⟩
        · obtain ⟨baseValue, hbase, -⟩ := hstated name value hvalue
          rw [hbase]
          rfl
        · intro name value baseValue hvalue hbase
          obtain ⟨_, hbase', hknown⟩ := hstated name value hvalue
          cases hbase.symm.trans hbase'
          exact hknown
      · cases h
    | _ =>
      simp only [mergeValue, Except.ok.injEq] at h
      exact ⟨by simp [overlayValue, h], .leaf (by simp)⟩
  | .none, h | .bool _, h | .int _, h | .float _, h | .str _, h | .seq _, h | .other, h => by
    simp only [mergeValue, Except.ok.injEq] at h
    exact ⟨by simp [overlayValue, h], .plain (by simp)⟩

theorem mergeItems_ok {layer path : Str} {base result merged : Dict} :
    ∀ {items : List (Key × Value)}, mergeItems layer path base result items = .ok merged →
    merged = overlayItems path base result items ∧ ∀ name value, (Key.str name, value) ∈ items →
      ∃ baseValue, base.get? name = some baseValue ∧ Known baseValue value
  | [], h => by
    simp only [mergeItems, Except.ok.injEq] at h
    exact ⟨by simp [overlayItems, h], fun _ _ hmem => nomatch hmem⟩
  | (.other, value) :: rest, h => by simp [mergeItems] at h
  | (.str name, value) :: rest, h => by
    rw [mergeItems] at h
    cases hbase : base.get? name with
    | none => simp [hbase] at h
    | some baseValue =>
      rw [hbase] at h
      obtain ⟨result', hvalue, h⟩ := bind_ok_iff.mp h
      obtain ⟨rfl, hknown⟩ := mergeValue_ok hvalue
      obtain ⟨rfl, hrest⟩ := mergeItems_ok h
      refine ⟨by rw [overlayItems, hbase, Option.getD_some], fun name' value' hmem => ?_⟩
      rcases List.mem_cons.mp hmem with heq | hmem
      · cases heq
        exact ⟨baseValue, hbase, hknown⟩
      · exact hrest name' value' hmem

end

theorem underLayer_ok {α : Type} {layer : Str} {result : Except Error α} {a : α}
    (h : underLayer layer result = .ok a) : result = .ok a := by
  unfold underLayer at h
  split at h
  · cases h
  · exact h

/-- A layer that the resolver accepts has known fields only, and the result is its overlay. -/
theorem applyLayer_overlaid {effective p : ExecutionPolicy} {name : Str} {value : Value}
    (h : applyLayer effective name (some value) = .ok p) :
    Known (.dict effective.asDict) value ∧
      ExecutionPolicy.fromDict (overlayValue [] (.dict effective.asDict) value) = .ok p := by
  obtain ⟨restrictions, hrestrictions, h⟩ := bind_ok_iff.mp h
  obtain ⟨candidate, hcandidate, h⟩ := bind_ok_iff.mp h
  obtain ⟨_, -, h⟩ := bind_ok_iff.mp h
  cases h
  obtain ⟨merged, hmerged, hfrom⟩ := bind_ok_iff.mp hcandidate
  have hvalue : value = .dict restrictions ∧ Dict.hasNames restrictions = true := by
    cases value with
    | dict items =>
      simp only [requireRestrictions] at hrestrictions
      split at hrestrictions
      · rename_i hnames
        cases hrestrictions
        exact ⟨rfl, hnames⟩
      · cases hrestrictions
    | _ => cases hrestrictions
  obtain ⟨rfl, hnames⟩ := hvalue
  have hmerge : mergeValue name [] (.dict effective.asDict) (.dict restrictions) =
      .ok (.dict merged) := by
    obtain ⟨result, hresult, hmerged⟩ := bind_ok_iff.mp hmerged
    cases hmerged
    rw [mergeValue, if_pos hnames, hresult]
    rfl
  obtain ⟨heq, hknown⟩ := mergeValue_ok hmerge
  rw [← heq]
  exact ⟨hknown, underLayer_ok hfrom⟩

/-! ## The fields of a section -/

/-- The value of a field after a layer that may state it. -/
def overlaid (path : Str) (baseValue : Value) : Option Value → Value
  | none => baseValue
  | some value => overlayValue path baseValue value

/-- The fields of a section that has been accepted, after a layer that states it as `value`. -/
structure Section (path : Str) (fields : List (String × Value)) (value : Value) (data : Dict) :
    Prop where
  dict : ∃ restrictions, value = .dict restrictions ∧ data =
    clearDestinations path restrictions (overlayItems path (items fields) (items fields) restrictions)
  distinct : value.Distinct
  nodup : (items fields).names.Nodup

section

variable {path : Str} {fields : List (String × Value)} {value : Value} {data : Dict}

theorem section_of_fields {path' : Str} {required optional : List Str}
    (h : requireFields (overlayValue path (record fields) value) path' required optional = .ok data)
    (hdistinct : value.Distinct) (hnames : (items fields).names = required ++ optional)
    (hnodup : (required ++ optional).Nodup) : Section path fields value data := by
  obtain ⟨hdata, -⟩ := requireFields_ok h
  refine ⟨?_, hdistinct, hnames ▸ hnodup⟩
  cases value with
  | dict restrictions =>
    rw [record, overlayValue] at hdata
    exact ⟨restrictions, rfl, (Value.dict.inj hdata).symm⟩
  | _ => simp [overlayValue] at hdata

theorem distinct_of_get? {d : Dict} {name : Str} {value : Value} (h : (Value.dict d).Distinct)
    (hvalue : d.get? name = some value) : value.Distinct := by
  have hitems : itemsDistinct d := by
    have h' : d.names.Nodup ∧ itemsDistinct d := by simpa [Value.Distinct] using h
    exact h'.2
  clear h
  obtain ⟨before, after, hsplit, -⟩ := List.lookup_eq_some_iff.mp hvalue
  subst hsplit
  clear hvalue
  induction before with
  | nil =>
    rw [List.nil_append, itemsDistinct] at hitems
    exact hitems.1
  | cons first rest ih =>
    rw [List.cons_append, itemsDistinct] at hitems
    exact ih hitems.2

/-- The overlay has each field of the base, overlaid when it is stated. -/
theorem get?_overlayItems {base restrictions : Dict} {name : Str} {baseValue : Value}
    (hnodup : restrictions.names.Nodup) (hbase : base.get? name = some baseValue) :
    (overlayItems path base base restrictions).get? name =
      some (overlaid (fieldPath path name) baseValue (restrictions.get? name)) := by
  cases hvalue : restrictions.get? name with
  | none =>
    have hnot : ∀ item ∈ restrictions, item.1 ≠ .str name := by
      intro item hitem
      have hne := List.lookup_eq_none_iff.mp hvalue item hitem
      exact Ne.symm (bne_iff_ne.mp hne)
    rw [Dict.get?, lookup_overlayItems_of_not_mem hnot]
    exact hbase
  | some value =>
    obtain ⟨before, after, hsplit, -⟩ := List.lookup_eq_some_iff.mp hvalue
    have hmem : (Key.str name, value) ∈ restrictions := by simp [hsplit]
    rw [Dict.get?, lookup_overlayItems_of_mem hnodup hmem, hbase]
    rfl

theorem stated_name (d : Dict) (name : Str) : stated (.dict d) [.str name] = d.get? name := by
  rw [stated_dict]
  cases d.get? name <;> rfl

/-- A field of an accepted section is the overlaid one. -/
theorem Section.item {name : String} {baseValue result : Value} (h : Section path fields value data)
    (hitem : item data (str name) = .ok result) (hfield : (name, baseValue) ∈ fields)
    (hdestinations : str name ≠ str "destinations") :
    result = overlaid (fieldPath path (str name)) baseValue (stated value [.str (str name)]) := by
  obtain ⟨⟨restrictions, rfl, rfl⟩, hdistinct, hnodup⟩ := h
  have hrestrictions : Dict.names restrictions |>.Nodup := by
    have h' : (Dict.names restrictions).Nodup ∧ itemsDistinct restrictions := by
      simpa [Value.Distinct] using hdistinct
    exact h'.1
  have hbase : (items fields).get? (str name) = some baseValue :=
    Dict.get?_of_mem hnodup (List.mem_map.mpr ⟨(name, baseValue), hfield, rfl⟩)
  have hlookup := item_ok hitem
  rw [Dict.get?, lookup_clearDestinations (Or.inl (by simpa using hdestinations))] at hlookup
  rw [stated_name]
  exact Option.some.inj (hlookup.symm.trans (get?_overlayItems hrestrictions hbase))

theorem overlaid_leaf {baseValue : Value} (h : ∀ items, baseValue ≠ .dict items)
    (value : Option Value) : overlaid path baseValue value = value.getD baseValue := by
  cases value with
  | none => rfl
  | some value =>
    cases value with
    | dict items =>
      cases baseValue with
      | dict base => exact absurd rfl (h base)
      | _ => simp [overlaid, overlayValue]
    | _ => simp [overlaid, overlayValue]

/-- A section that is not stated is like one that is stated without fields. -/
theorem overlaid_record (value : Option Value) :
    overlaid path (record fields) value = overlayValue path (record fields) (value.getD (.dict [])) := by
  cases value with
  | none =>
    rw [overlaid, Option.getD_none, record, overlayValue, overlayItems]
    rfl
  | some value => rfl

end

/-! ## Leaf fields -/

section

variable {α : Type} {value : Option Value} {normalize : Value → Except Error α} {old new : α}

/-- A stated value is normalized, and a value that is not stated is inherited. -/
def Restated (value : Option Value) (normalize : Value → Except Error α) (old new : α) : Prop :=
  match value with
  | some stated => normalize stated = .ok new
  | none => new = old

theorem restated_of_getD {baseValue : Value} (h : normalize (value.getD baseValue) = .ok new)
    (hbase : normalize baseValue = .ok old) : Restated value normalize old new := by
  cases value with
  | none => exact Except.ok.inj (h.symm.trans hbase)
  | some stated => exact h

end

theorem stated_section {value : Value} {key : Key} {rest : List Key} (hrest : rest ≠ []) :
    stated ((stated value [key]).getD (.dict [])) rest = stated value (key :: rest) := by
  cases rest with
  | nil => exact absurd rfl hrest
  | cons next rest =>
    cases value with
    | dict items =>
      simp only [stated]
      cases items.lookup key <;> rfl
    | _ => rfl

/-- A section within an accepted section. -/
theorem Section.record {path : Str} {fields inner : List (String × Value)} {name : String}
    {value result : Value} {data : Dict} (h : Section path fields value data)
    (hitem : Policy.item data (str name) = .ok result) (hfield : (name, Policy.record inner) ∈ fields)
    (hdestinations : str name ≠ str "destinations") :
    result = overlayValue (fieldPath path (str name)) (Policy.record inner)
        ((stated value [.str (str name)]).getD (.dict [])) ∧
      ((stated value [.str (str name)]).getD (.dict [])).Distinct := by
  have hresult := h.item hitem hfield hdestinations
  rw [overlaid_record] at hresult
  refine ⟨hresult, ?_⟩
  obtain ⟨⟨restrictions, rfl, -⟩, hdistinct, -⟩ := h
  rw [stated_name]
  cases hvalue : Dict.get? restrictions (str name) with
  | none => simp [Value.Distinct, Dict.names, itemsDistinct]
  | some value => exact distinct_of_get? hdistinct hvalue

/-- A leaf field of an accepted section. -/
theorem Section.leaf {α : Type} {path : Str} {fields : List (String × Value)} {name : String}
    {value baseValue result : Value} {data : Dict} {normalize : Value → Except Error α} {old new : α}
    (h : Section path fields value data) (hitem : Policy.item data (str name) = .ok result)
    (hnew : normalize result = .ok new) (hold : normalize baseValue = .ok old)
    (hfield : (name, baseValue) ∈ fields) (hplain : ∀ items, baseValue ≠ .dict items)
    (hdestinations : str name ≠ str "destinations") :
    Restated (stated value [.str (str name)]) normalize old new := by
  have hresult := h.item hitem hfield hdestinations
  rw [hresult, overlaid_leaf hplain] at hnew
  exact restated_of_getD hnew hold

section

variable {path : Str} {value : Value}

theorem WorkspacePolicy.restated {e p : WorkspacePolicy} (hdistinct : value.Distinct)
    (h : fromDict (overlayValue path e.asDict value) = .ok p) :
    Restated (stated value [.str (str "access")]) Leaf.workspaceAccess.normalize e.access
      p.access := by
  obtain ⟨data, hdata, h⟩ := bind_ok_iff.mp h
  obtain ⟨result, hitem, h⟩ := bind_ok_iff.mp h
  obtain ⟨access, haccess, h⟩ := bind_ok_iff.mp h
  cases h
  have hsection := section_of_fields hdata hdistinct rfl (by decide)
  exact hsection.leaf hitem haccess (Access.requireChoice_text (Or.inl rfl)) (.head _) (by simp)
    (by decide)

theorem ReferencePolicy.restated {e p : ReferencePolicy} (hdistinct : value.Distinct)
    (h : fromDict (overlayValue path e.asDict value) = .ok p) :
    Restated (stated value [.str (str "access")]) Leaf.referenceAccess.normalize e.access
      p.access := by
  obtain ⟨data, hdata, h⟩ := bind_ok_iff.mp h
  obtain ⟨result, hitem, h⟩ := bind_ok_iff.mp h
  obtain ⟨access, haccess, h⟩ := bind_ok_iff.mp h
  cases h
  have hsection := section_of_fields hdata hdistinct rfl (by decide)
  exact hsection.leaf hitem haccess (ReferenceAccess.requireChoice_text (Or.inl rfl)) (.head _)
    (by simp) (by decide)

theorem FilesystemPolicy.restated {e p : FilesystemPolicy} (hdistinct : value.Distinct)
    (h : fromDict (overlayValue path e.asDict value) = .ok p) :
    Restated (stated value [.str (str "external")]) Leaf.external.normalize e.external
      p.external := by
  obtain ⟨data, hdata, h⟩ := bind_ok_iff.mp h
  obtain ⟨result, hitem, h⟩ := bind_ok_iff.mp h
  obtain ⟨external, hexternal, h⟩ := bind_ok_iff.mp h
  cases h
  have hsection := section_of_fields hdata hdistinct rfl (by decide)
  exact hsection.leaf hitem hexternal (ExternalAccess.requireChoice_text (Or.inl rfl)) (.head _)
    (by simp) (by decide)

theorem ProviderAuthPolicy.restated {e p : ProviderAuthPolicy} (hdistinct : value.Distinct)
    (h : fromDict (overlayValue path e.asDict value) = .ok p) :
    Restated (stated value [.str (str "task_shell")]) Leaf.providerAuth.normalize e.taskShell
      p.taskShell := by
  obtain ⟨data, hdata, h⟩ := bind_ok_iff.mp h
  obtain ⟨result, hitem, h⟩ := bind_ok_iff.mp h
  obtain ⟨taskShell, htaskShell, h⟩ := bind_ok_iff.mp h
  cases h
  have hsection := section_of_fields hdata hdistinct rfl (by decide)
  exact hsection.leaf hitem htaskShell (Visibility.requireChoice_text (Or.inl rfl)) (.head _)
    (by simp) (by decide)

theorem GitPolicy.restated {e p : GitPolicy} (hdistinct : value.Distinct)
    (h : fromDict (overlayValue path e.asDict value) = .ok p) :
    Restated (stated value [.str (str "read")]) Leaf.gitRead.normalize e.read p.read ∧
      Restated (stated value [.str (str "commit")]) Leaf.gitCommit.normalize e.commit p.commit ∧
      Restated (stated value [.str (str "push")]) Leaf.gitPush.normalize e.push p.push := by
  obtain ⟨data, hdata, h⟩ := bind_ok_iff.mp h
  obtain ⟨_, hread, h⟩ := bind_ok_iff.mp h
  obtain ⟨read, hread', h⟩ := bind_ok_iff.mp h
  obtain ⟨_, hcommit, h⟩ := bind_ok_iff.mp h
  obtain ⟨commit, hcommit', h⟩ := bind_ok_iff.mp h
  obtain ⟨_, hpush, h⟩ := bind_ok_iff.mp h
  obtain ⟨push, hpush', h⟩ := bind_ok_iff.mp h
  cases h
  have hsection := section_of_fields hdata hdistinct rfl (by decide)
  refine ⟨hsection.leaf hread hread' rfl (.head _) (by simp) (by decide),
    hsection.leaf hcommit hcommit' rfl (.tail _ (.head _)) (by simp) (by decide),
    hsection.leaf hpush hpush' rfl (.tail _ (.tail _ (.head _))) (by simp) (by decide)⟩

theorem SandboxPolicy.restated {e p : SandboxPolicy} (hdistinct : value.Distinct)
    (h : fromDict (overlayValue path e.asDict value) = .ok p) :
    Restated (stated value [.str (str "required")]) Leaf.sandboxRequired.normalize e.required
      p.required := by
  obtain ⟨data, hdata, h⟩ := bind_ok_iff.mp h
  obtain ⟨result, hitem, h⟩ := bind_ok_iff.mp h
  obtain ⟨required, hrequired, h⟩ := bind_ok_iff.mp h
  cases h
  have hsection := section_of_fields hdata hdistinct rfl (by decide)
  exact hsection.leaf hitem hrequired rfl (.head _) (by simp) (by decide)

/-- The bytes that the constructor checks once more are those of the normalized limit. -/
theorem PolicyResourceLimits.restated {e p : PolicyResourceLimits} (hdistinct : value.Distinct)
    (h : fromDict (overlayValue path e.asDict value) = .ok p) :
    Restated (stated value [.str (str "cpu")]) Leaf.cpu.normalize e.cpu p.cpu ∧
      Restated (stated value [.str (str "memory")]) Leaf.memory.normalize e.memoryBytes
        p.memoryBytes ∧
      Restated (stated value [.str (str "pids")]) Leaf.pids.normalize e.pids p.pids := by
  obtain ⟨data, hdata, h⟩ := bind_ok_iff.mp h
  obtain ⟨_, hcpu, h⟩ := bind_ok_iff.mp h
  obtain ⟨cpu, hcpu', h⟩ := bind_ok_iff.mp h
  obtain ⟨_, hmemory, h⟩ := bind_ok_iff.mp h
  obtain ⟨memory, hmemory', h⟩ := bind_ok_iff.mp h
  obtain ⟨_, hpids, h⟩ := bind_ok_iff.mp h
  obtain ⟨pids, hpids', h⟩ := bind_ok_iff.mp h
  obtain ⟨bytes, hbytes, h⟩ := bind_ok_iff.mp h
  cases h
  have hsame : memory = bytes.val := by
    simp only [requirePositiveInt] at hbytes
    split at hbytes
    · cases hbytes
      rfl
    · cases hbytes
  rw [hsame] at hmemory'
  have hsection := section_of_fields hdata hdistinct rfl (by decide)
  have hcpuOld : Leaf.cpu.normalize (cpuValue e.cpu) = .ok e.cpu := by
    rw [Leaf.normalize, normalizeCpu_reads (Or.inl rfl) e.cpu_pos]
    rfl
  have hmemoryOld : Leaf.memory.normalize (.int e.memoryBytes) = .ok e.memoryBytes :=
    if_pos e.memoryBytes_pos
  have hpidsOld : Leaf.pids.normalize (.int e.pids) = .ok e.pids := by
    have hpositive : requirePositiveInt (.int e.pids) (str "resources.pids") =
        .ok ⟨e.pids, e.pids_pos⟩ := dif_pos e.pids_pos
    rw [Leaf.normalize, hpositive]
    rfl
  refine ⟨hsection.leaf hcpu ?_ hcpuOld (.head _) (cpuValue_ne_dict e.cpu) (by decide),
    hsection.leaf hmemory hmemory' hmemoryOld (.tail _ (.head _)) (by simp) (by decide),
    hsection.leaf hpids ?_ hpidsOld (.tail _ (.tail _ (.head _))) (by simp) (by decide)⟩
  · rw [Leaf.normalize, hcpu']
    rfl
  · rw [Leaf.normalize, hpids']
    rfl

theorem CredentialsPolicy.restated {e p : CredentialsPolicy} (hdistinct : value.Distinct)
    (h : fromDict (overlayValue path e.asDict value) = .ok p) :
    Restated (stated value [.str (str "provider_auth"), .str (str "task_shell")])
      Leaf.providerAuth.normalize e.providerAuth.taskShell p.providerAuth.taskShell := by
  obtain ⟨data, hdata, h⟩ := bind_ok_iff.mp h
  obtain ⟨result, hitem, h⟩ := bind_ok_iff.mp h
  obtain ⟨auth, hauth, h⟩ := bind_ok_iff.mp h
  cases h
  have hsection := section_of_fields hdata hdistinct rfl (by decide)
  obtain ⟨hresult, hinner⟩ := hsection.record hitem (.head _) (by decide)
  rw [hresult] at hauth
  rw [← stated_section (by simp)]
  exact ProviderAuthPolicy.restated hinner hauth

/-- Whether the section states a mode other than the allowlist. -/
def dropsDestinations (mode : Option Value) : Bool :=
  match mode with
  | some mode => !mode.isStr (str "allowlist")
  | none => false

theorem TaskShellNetworkPolicy.make_ok {mode : NetworkMode} {destinations : Destinations}
    {p : TaskShellNetworkPolicy} (h : make mode destinations = .ok p) :
    p.mode = mode ∧ p.destinations = destinations := by
  unfold make at h
  split at h <;> split at h
  · cases h
  · cases h
    exact ⟨rfl, rfl⟩
  · cases h
    exact ⟨rfl, rfl⟩
  · cases h

/-- The destinations of a merged section. -/
theorem get?_clearDestinations {restrictions result : Dict} {baseValue : Value}
    (hresult : result.get? (str "destinations") =
      some ((restrictions.get? (str "destinations")).getD baseValue)) :
    (clearDestinations (str "network.task_shell") restrictions result).get? (str "destinations") =
      some ((restrictions.get? (str "destinations")).getD
        (if dropsDestinations (restrictions.get? (str "mode")) then .seq [] else baseValue)) := by
  cases hvalue : restrictions.get? (str "destinations") with
  | some value =>
    have hcontains : restrictions.contains (str "destinations") = true := by
      rw [Dict.contains, hvalue]
      rfl
    rw [hvalue] at hresult
    rw [Dict.get?, lookup_clearDestinations (Or.inr hcontains)]
    exact hresult
  | none =>
    have hcontains : restrictions.contains (str "destinations") = false := by
      rw [Dict.contains, hvalue]
      rfl
    rw [hvalue] at hresult
    unfold clearDestinations
    cases hmode : restrictions.get? (str "mode") with
    | none => exact hresult
    | some mode =>
      cases hallow : mode.isStr (str "allowlist") with
      | false => simp [hcontains, dropsDestinations, hallow, Dict.get?, Dict.lookup_set]
      | true => simpa [dropsDestinations, hallow] using hresult

theorem TaskShellNetworkPolicy.restated {e p : TaskShellNetworkPolicy} (hdistinct : value.Distinct)
    (h : fromDict (overlayValue (str "network.task_shell") e.asDict value) = .ok p) :
    Restated (stated value [.str (str "mode")]) Leaf.networkMode.normalize e.mode p.mode ∧
      Restated (stated value [.str (str "destinations")]) Leaf.destinations.normalize
        (if dropsDestinations (stated value [.str (str "mode")]) then noDestinations
          else e.destinations) p.destinations := by
  obtain ⟨data, hdata, h⟩ := bind_ok_iff.mp h
  obtain ⟨result, hitem, h⟩ := bind_ok_iff.mp h
  obtain ⟨mode, hmode, h⟩ := bind_ok_iff.mp h
  obtain ⟨destinations, hdestinations, h⟩ := bind_ok_iff.mp h
  obtain ⟨rfl, rfl⟩ := make_ok h
  have hsection := section_of_fields hdata hdistinct rfl (by decide)
  refine ⟨hsection.leaf hitem hmode (NetworkMode.requireChoice_text (Or.inl rfl)) (.head _) (by simp)
    (by decide), ?_⟩
  obtain ⟨⟨restrictions, rfl, rfl⟩, -, hnodup⟩ := hsection
  have hrestrictions : Dict.names restrictions |>.Nodup := by
    have h' : (Dict.names restrictions).Nodup ∧ itemsDistinct restrictions := by
      simpa [Value.Distinct] using hdistinct
    exact h'.1
  have hbase : Dict.get? (items [("mode", .str e.mode.text),
      ("destinations", .seq (e.destinations.items.map .str))]) (str "destinations") =
      some (.seq (e.destinations.items.map .str)) :=
    Dict.get?_of_mem hnodup (.tail _ (.head _))
  have hlookup := @get?_overlayItems (str "network.task_shell") _ _ _ _ hrestrictions hbase
  rw [overlaid_leaf (by simp)] at hlookup
  rw [get?_clearDestinations hlookup, Option.getD_some] at hdestinations
  rw [stated_name, stated_name]
  refine restated_of_getD hdestinations ?_
  split
  · rfl
  · exact normalizeDestinations_reads (Or.inl rfl)

theorem NetworkPolicy.restated {e p : NetworkPolicy} (hdistinct : value.Distinct)
    (h : fromDict (overlayValue (str "network") e.asDict value) = .ok p) :
    Restated (stated value [.str (str "task_shell"), .str (str "mode")]) Leaf.networkMode.normalize
        e.taskShell.mode p.taskShell.mode ∧
      Restated (stated value [.str (str "task_shell"), .str (str "destinations")])
        Leaf.destinations.normalize
        (if dropsDestinations (stated value [.str (str "task_shell"), .str (str "mode")])
          then noDestinations else e.taskShell.destinations) p.taskShell.destinations := by
  obtain ⟨data, hdata, h⟩ := bind_ok_iff.mp h
  obtain ⟨result, hitem, h⟩ := bind_ok_iff.mp h
  obtain ⟨taskShell, htaskShell, h⟩ := bind_ok_iff.mp h
  cases h
  have hsection := section_of_fields hdata hdistinct rfl (by decide)
  obtain ⟨hresult, hinner⟩ := hsection.record hitem (.head _) (by decide)
  have hpath : fieldPath (str "network") (str "task_shell") = str "network.task_shell" := by decide
  rw [hresult, hpath] at htaskShell
  have hrestated := TaskShellNetworkPolicy.restated hinner htaskShell
  rw [stated_section (by simp), stated_section (by simp)] at hrestated
  exact hrestated

end

/-! ## The whole policy -/

/-- What a leaf field has after a layer that does not state it. -/
def inherited (effective : ExecutionPolicy) (layer : Value) (leaf : Leaf) : leaf.Content :=
  match leaf with
  | .destinations =>
    if dropsDestinations (stated layer Leaf.networkMode.path) then noDestinations
    else effective.network.taskShell.destinations
  | leaf => leaf.get effective

theorem ExecutionPolicy.restated {e p : ExecutionPolicy} {value : Value} (hdistinct : value.Distinct)
    (h : fromDict (overlayValue [] (.dict e.asDict) value) = .ok p) (leaf : Leaf) :
    Restated (stated value leaf.path) leaf.normalize (inherited e value leaf) (leaf.get p) := by
  obtain ⟨data, hdata, h⟩ := bind_ok_iff.mp h
  obtain ⟨_, hversion, h⟩ := bind_ok_iff.mp h
  obtain ⟨version, hversion', h⟩ := bind_ok_iff.mp h
  obtain ⟨_, hworkspace, h⟩ := bind_ok_iff.mp h
  obtain ⟨workspace, hworkspace', h⟩ := bind_ok_iff.mp h
  obtain ⟨_, hreference, h⟩ := bind_ok_iff.mp h
  obtain ⟨reference, hreference', h⟩ := bind_ok_iff.mp h
  obtain ⟨_, hfilesystem, h⟩ := bind_ok_iff.mp h
  obtain ⟨filesystem, hfilesystem', h⟩ := bind_ok_iff.mp h
  obtain ⟨_, hnetwork, h⟩ := bind_ok_iff.mp h
  obtain ⟨network, hnetwork', h⟩ := bind_ok_iff.mp h
  obtain ⟨_, hcredentials, h⟩ := bind_ok_iff.mp h
  obtain ⟨credentials, hcredentials', h⟩ := bind_ok_iff.mp h
  obtain ⟨_, hgit, h⟩ := bind_ok_iff.mp h
  obtain ⟨git, hgit', h⟩ := bind_ok_iff.mp h
  obtain ⟨_, hsandbox, h⟩ := bind_ok_iff.mp h
  obtain ⟨sandbox, hsandbox', h⟩ := bind_ok_iff.mp h
  obtain ⟨_, hresources, h⟩ := bind_ok_iff.mp h
  obtain ⟨resources, hresources', h⟩ := bind_ok_iff.mp h
  obtain ⟨_, hclass, h⟩ := bind_ok_iff.mp h
  obtain ⟨securityClass, hclass', h⟩ := bind_ok_iff.mp h
  cases h
  have hsection : Section [] _ value data := section_of_fields hdata hdistinct rfl (by decide)
  obtain ⟨hresult, hinner⟩ := hsection.record hworkspace (.tail _ (.head _)) (by decide)
  rw [hresult] at hworkspace'
  have hworkspace'' := WorkspacePolicy.restated hinner hworkspace'
  rw [stated_section (by simp)] at hworkspace''
  clear hresult hinner
  obtain ⟨hresult, hinner⟩ := hsection.record hreference (.tail _ (.tail _ (.head _))) (by decide)
  rw [hresult] at hreference'
  have hreference'' := ReferencePolicy.restated hinner hreference'
  rw [stated_section (by simp)] at hreference''
  clear hresult hinner
  obtain ⟨hresult, hinner⟩ := hsection.record hfilesystem (.tail _ (.tail _ (.tail _ (.head _)))) (by decide)
  rw [hresult] at hfilesystem'
  have hfilesystem'' := FilesystemPolicy.restated hinner hfilesystem'
  rw [stated_section (by simp)] at hfilesystem''
  clear hresult hinner
  obtain ⟨hresult, hinner⟩ := hsection.record hnetwork (.tail _ (.tail _ (.tail _ (.tail _ (.head _))))) (by decide)
  have hpath : fieldPath [] (str "network") = str "network" := rfl
  rw [hresult, hpath] at hnetwork'
  have hnetwork'' := NetworkPolicy.restated hinner hnetwork'
  simp only [stated_section (List.cons_ne_nil _ _)] at hnetwork''
  clear hresult hinner
  obtain ⟨hresult, hinner⟩ := hsection.record hcredentials (.tail _ (.tail _ (.tail _ (.tail _ (.tail _ (.head _)))))) (by decide)
  rw [hresult] at hcredentials'
  have hcredentials'' := CredentialsPolicy.restated hinner hcredentials'
  rw [stated_section (by simp)] at hcredentials''
  clear hresult hinner
  obtain ⟨hresult, hinner⟩ := hsection.record hgit (.tail _ (.tail _ (.tail _ (.tail _ (.tail _ (.tail _ (.head _))))))) (by decide)
  rw [hresult] at hgit'
  have hgit'' := GitPolicy.restated hinner hgit'
  simp only [stated_section (List.cons_ne_nil _ _)] at hgit''
  clear hresult hinner
  obtain ⟨hresult, hinner⟩ := hsection.record hsandbox (.tail _ (.tail _ (.tail _ (.tail _ (.tail _ (.tail _ (.tail _ (.head _)))))))) (by decide)
  rw [hresult] at hsandbox'
  have hsandbox'' := SandboxPolicy.restated hinner hsandbox'
  rw [stated_section (by simp)] at hsandbox''
  clear hresult hinner
  obtain ⟨hresult, hinner⟩ := hsection.record hresources (.tail _ (.tail _ (.tail _ (.tail _ (.tail _ (.tail _ (.tail _ (.tail _ (.head _))))))))) (by decide)
  rw [hresult] at hresources'
  have hresources'' := PolicyResourceLimits.restated hinner hresources'
  simp only [stated_section (List.cons_ne_nil _ _)] at hresources''
  clear hresult hinner
  cases leaf with
  | version =>
    refine hsection.leaf hversion ?_ ?_ (.head _) (by simp) (by decide)
    · rw [Leaf.normalize, hversion']
      rfl
    · have hold : requireVersion (.int e.version) = .ok ⟨e.version, e.version_eq⟩ :=
        dif_pos e.version_eq
      rw [Leaf.normalize, hold]
      rfl
  | workspaceAccess => exact hworkspace''
  | referenceAccess => exact hreference''
  | external => exact hfilesystem''
  | networkMode => exact hnetwork''.1
  | destinations => exact hnetwork''.2
  | providerAuth => exact hcredentials''
  | gitRead => exact hgit''.1
  | gitCommit => exact hgit''.2.1
  | gitPush => exact hgit''.2.2
  | sandboxRequired => exact hsandbox''
  | cpu => exact hresources''.1
  | memory => exact hresources''.2.1
  | pids => exact hresources''.2.2
  | securityClass =>
    exact hsection.leaf hclass hclass' (SecurityClass.requireChoice_text (Or.inl rfl))
      (.tail _ (.tail _ (.tail _ (.tail _ (.tail _ (.tail _ (.tail _ (.tail _ (.tail _ (.head _))))))))))
      (by simp) (by decide)

/-! ## Layers that change nothing -/

section

variable {path : Str} {fields : List (String × Value)} {names : List Str}

theorem Dict.set_self {d : Dict} {key : Key} {value : Value} (h : d.lookup key = some value) :
    d.set key value = d := by
  induction d with
  | nil => cases h
  | cons item rest ih =>
    obtain ⟨first, old⟩ := item
    rw [Dict.lookup_cons] at h
    by_cases hkey : key = first
    · rw [if_pos hkey] at h
      cases h
      simp [Dict.set, hkey]
    · rw [if_neg hkey] at h
      simp [Dict.set, Ne.symm hkey, ih h]

/-- Restating fields as they are changes nothing. -/
theorem overlayItems_self {base items : Dict} (h : ∀ item ∈ items, ∃ name, item.1 = .str name ∧
    base.get? name = some item.2 ∧ overlayValue (fieldPath path name) item.2 item.2 = item.2) :
    overlayItems path base base items = base := by
  induction items with
  | nil => rw [overlayItems]
  | cons item rest ih =>
    obtain ⟨name, hname, hbase, hvalue⟩ := h item List.mem_cons_self
    obtain ⟨key, value⟩ := item
    cases hname
    rw [overlayItems, hbase, Option.getD_some, hvalue, Dict.set_self hbase]
    exact ih fun item hitem => h item (List.mem_cons_of_mem _ hitem)

/-- A mapping of distinct keys that has no effect as a layer over itself. -/
structure Steady (value : Value) : Prop where
  overlay : ∀ path, overlayValue path value value = value
  distinct : value.Distinct

theorem steady_plain {value : Value} (h : ∀ items, value ≠ .dict items) : Steady value := by
  cases value with
  | dict items => exact absurd rfl (h items)
  | _ => exact ⟨fun path => by simp [overlayValue], by simp [Value.Distinct]⟩

theorem steady_record (names : List Str) (hnames : (items fields).names = names)
    (hnodup : names.Nodup) (hmode : str "mode" ∈ names → str "destinations" ∈ names)
    (hvalues : ∀ field ∈ fields, Steady field.2) : Steady (record fields) := by
  refine ⟨fun path => ?_, ?_⟩
  · have hitems : overlayItems path (items fields) (items fields) (items fields) = items fields := by
      apply overlayItems_self
      intro item hitem
      obtain ⟨field, hfield, rfl⟩ := List.mem_map.mp hitem
      exact ⟨str field.1, rfl, Dict.get?_of_mem (hnames ▸ hnodup) hitem,
        (hvalues field hfield).overlay _⟩
    have hclear : clearDestinations path (items fields) (items fields) = items fields := by
      unfold clearDestinations
      split
      · rename_i mode hmode'
        have hdestinations := hmode (hnames ▸ Dict.mem_names.mpr (by rw [hmode']; rfl))
        have hcontains : (items fields).contains (str "destinations") = true :=
          Dict.mem_names.mp (hnames.symm ▸ hdestinations)
        rw [if_neg (by simp [hcontains])]
      · rfl
    rw [record, overlayValue, hitems, hclear]
  · have hitems : itemsDistinct (items fields) := by
      clear hnames
      induction fields with
      | nil => trivial
      | cons field rest ih =>
        obtain ⟨hfield, hrest⟩ := List.forall_mem_cons.mp hvalues
        exact ⟨hfield.distinct, ih hrest⟩
    rw [record, Value.Distinct, hnames]
    exact ⟨hnodup, hitems⟩

theorem steady_leaves (names : List Str) (hnames : (items fields).names = names)
    (hnodup : names.Nodup) (hmode : str "mode" ∈ names → str "destinations" ∈ names)
    (hleaves : ∀ field ∈ fields, ∀ items, field.2 ≠ .dict items) : Steady (record fields) :=
  steady_record names hnames hnodup hmode fun field hfield => steady_plain (hleaves field hfield)

end

theorem ExecutionPolicy.steady (e : ExecutionPolicy) : Steady (.dict e.asDict) := by
  have htaskShell : Steady e.network.taskShell.asDict :=
    steady_leaves [str "mode", str "destinations"] rfl (by decide) (by decide) (by simp)
  have hnetwork : Steady e.network.asDict :=
    steady_record [str "task_shell"] rfl (by decide) (by decide) (List.forall_mem_singleton.mpr htaskShell)
  have hauth : Steady e.credentials.providerAuth.asDict :=
    steady_leaves [str "task_shell"] rfl (by decide) (by decide) (by simp)
  have hcredentials : Steady e.credentials.asDict :=
    steady_record [str "provider_auth"] rfl (by decide) (by decide) (List.forall_mem_singleton.mpr hauth)
  refine steady_record fields rfl (by decide) (by decide) ?_
  simp only [List.forall_mem_cons]
  refine ⟨steady_plain (by simp), steady_leaves [str "access"] rfl (by decide) (by decide) (by simp),
    steady_leaves [str "access"] rfl (by decide) (by decide) (by simp),
    steady_leaves [str "external"] rfl (by decide) (by decide) (by simp), hnetwork, hcredentials,
    steady_leaves [str "read", str "commit", str "push"] rfl (by decide) (by decide) (by simp),
    steady_leaves [str "required"] rfl (by decide) (by decide) (by simp),
    steady_leaves [str "cpu", str "memory", str "pids"] rfl (by decide) (by decide)
      (by simp [cpuValue_ne_dict]),
    steady_plain (by simp), fun _ hfield => nomatch hfield⟩

/-- What a layer changes: the leaf fields that it states, and the destinations that it drops. A layer
that states any other field is refused, and one that restates the policy or nothing has no effect. No
object that exists before the call is changed by it, neither the layer nor any other, also when it
raises, and the result is that of the value that the layer holds. -/
theorem applyLayer_inherits (effective : ExecutionPolicy) (name : Str) :
    (∀ (layer : Value) (p : ExecutionPolicy), layer.Distinct →
      applyLayer effective name (some layer) = .ok p →
      (∀ leaf value, stated layer (Leaf.path leaf) = some value →
        leaf.normalize value = .ok (leaf.get p)) ∧
      (∀ leaf, stated layer (Leaf.path leaf) = none → leaf ≠ .destinations →
        leaf.get p = leaf.get effective) ∧
      (stated layer Leaf.destinations.path = none → p.network.taskShell.destinations =
        if dropsDestinations (stated layer Leaf.networkMode.path) then noDestinations
        else effective.network.taskShell.destinations)) ∧
    (∀ (layer : Value) (path : List Key), layer.Distinct → (stated layer path).isSome = true →
      stated (.dict effective.asDict) path = none →
      ∀ p, applyLayer effective name (some layer) ≠ .ok p) ∧
    applyLayer effective name (some (.dict [])) = .ok effective ∧
    applyLayer effective name (some (.dict effective.asDict)) = .ok effective ∧
    (∀ (heap : Heap) (ref : Ref) (layer : Value), Holds heap.objects ref layer →
      (∀ depth, heap <+: (applyLayerAt depth effective name (some ref) heap).2) ∧
      ∃ limit, ∀ depth, limit ≤ depth →
        (applyLayerAt depth effective name (some ref) heap).1 =
          (applyLayer effective name (some layer)).mapError some) := by
  refine ⟨fun layer p hdistinct h => ?_, fun layer path hdistinct hstated hunknown p h => ?_, ?_, ?_,
    fun heap ref layer hheld => ⟨fun depth => ?_, ?_⟩⟩
  · obtain ⟨-, hfrom⟩ := applyLayer_overlaid h
    have hrestated := ExecutionPolicy.restated hdistinct hfrom
    refine ⟨fun leaf value hvalue => ?_, fun leaf hnone hleaf => ?_, fun hnone => ?_⟩
    · have hleaf := hrestated leaf
      rw [hvalue] at hleaf
      exact hleaf
    · have hsame := hrestated leaf
      rw [hnone] at hsame
      cases leaf with
      | destinations => exact absurd rfl hleaf
      | _ => exact hsame
    · have hleaf := hrestated .destinations
      rw [hnone] at hleaf
      exact hleaf
  · obtain ⟨hknown, hfrom⟩ := applyLayer_overlaid h
    obtain ⟨value, hvalue⟩ := Option.isSome_iff_exists.mp hstated
    rcases hknown.stated hvalue with hsome | ⟨before, after, leafValue, items, -, hbase, hplain, hdict⟩
    · rw [hunknown] at hsome
      cases hsome
    · obtain ⟨leaf, rfl⟩ := leaf_of_stated hbase hplain
      have hleaf := ExecutionPolicy.restated hdistinct hfrom leaf
      rw [hdict] at hleaf
      exact leaf.normalize_dict items _ hleaf
  · apply Overlaid.applyLayer
    refine ⟨[], rfl, by simp [Value.Distinct, Dict.names, itemsDistinct], ?_, Narrower.refl effective⟩
    have hempty : overlay effective.asDict [] = effective.asDict := by
      rw [overlay, overlayItems]
      rfl
    rw [hempty]
    exact ExecutionPolicy.fromDict_reads (Or.inl rfl)
  · have hsteady := effective.steady
    have hsame : overlay effective.asDict effective.asDict = effective.asDict := by
      have h := hsteady.overlay []
      rw [overlayValue] at h
      exact Value.dict.inj h
    apply Overlaid.applyLayer
    refine ⟨_, rfl, hsteady.distinct, ?_, Narrower.refl effective⟩
    rw [hsame]
    exact ExecutionPolicy.fromDict_reads (Or.inl rfl)
  · exact (applyLayerAt_keeps effective name (some ref) heap List.prefix_rfl).1
  · obtain ⟨limit, hlimit⟩ := applyLayerAt_ends effective name (some layer)
    refine ⟨limit, fun depth hdepth => ?_⟩
    exact ((hlimit depth hdepth heap (some ref) hheld).weaken fun _ _ _ h => h.2).result_eq

/-- The layer `exampleProject` as the objects of a caller. -/
def exampleObjects : Heap :=
  [.dict [(.str (str "mode"), .plain (.str (str "deny")))],
    .dict [(.str (str "task_shell"), .object 0)], .dict [(.str (str "network"), .object 1)]]

theorem exampleObjects_hold : Holds exampleObjects.objects (.object 2) (.dict exampleProject) := by
  have hmode : Holds exampleObjects.objects (.object 0) (record [("mode", .str (str "deny"))]) := by
    rw [record, Holds]
    refine ⟨0, _, rfl, rfl, ?_⟩
    show ItemsHold _ _ [(Key.str (str "mode"), _)]
    rw [ItemsHold]
    exact ⟨_, [], rfl, holds_plain (by simp) (by simp), by rw [ItemsHold]⟩
  have hshell : Holds exampleObjects.objects (.object 1)
      (record [("task_shell", record [("mode", .str (str "deny"))])]) := by
    rw [record, Holds]
    refine ⟨1, _, rfl, rfl, ?_⟩
    show ItemsHold _ _ [(Key.str (str "task_shell"), _)]
    rw [ItemsHold]
    exact ⟨_, [], rfl, hmode, by rw [ItemsHold]⟩
  rw [exampleProject, Holds]
  refine ⟨2, _, rfl, rfl, ?_⟩
  show ItemsHold _ _ [(Key.str (str "network"), _)]
  rw [ItemsHold]
  exact ⟨_, [], rfl, hshell, by rw [ItemsHold]⟩

/-- The mode of the network alone is restated; its destinations go, and everything else stays. The
objects of the layer stay, too. -/
theorem applyLayer_inherits_example :
    exampleOffline.network.taskShell.destinations = noDestinations ∧
      exampleOffline.workspace.access = exampleBaseline.workspace.access ∧
      (∀ p, applyLayer exampleBaseline (str "project_policy")
        (some (record [("network", record [("task_shel", .none)])])) ≠ .ok p) ∧
      exampleObjects <+: (applyLayerAt 20 exampleBaseline (str "project_policy") (some (.object 2))
        exampleObjects).2 := by
  have hdistinct : (Value.dict exampleProject).Distinct := by
    simp only [exampleProject, items, record, List.map, Value.Distinct, itemsDistinct]
    decide
  have hdistinct' : (record [("network", record [("task_shel", .none)])]).Distinct := by
    simp only [items, record, List.map, Value.Distinct, itemsDistinct]
    decide
  have happly : applyLayer exampleBaseline (str "project_policy") (some (.dict exampleProject)) =
      .ok exampleOffline := rfl
  obtain ⟨hfields, hunknown, -, -, hobjects⟩ :=
    applyLayer_inherits exampleBaseline (str "project_policy")
  obtain ⟨-, hinherited, hdestinations⟩ := hfields _ _ hdistinct happly
  refine ⟨hdestinations rfl, hinherited .workspaceAccess rfl (by decide), ?_, ?_⟩
  · exact hunknown _ [.str (str "network"), .str (str "task_shel")] hdistinct' rfl rfl
  · exact (hobjects _ _ _ exampleObjects_hold).1 20

example : (applyLayerAt 20 exampleBaseline (str "project_policy") (some (.object 2))
    exampleObjects).1.toOption.map (·.network.taskShell.destinations.items) = some [] := by
  decide +kernel

end AgentDev.Policy
