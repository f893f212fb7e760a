import AgentDev.Policy.Resolver
import AgentDev.Python.Objects

/-!
# Layers as objects

The resolver over mappings that can be changed: a layer is an object of the caller, the effective
policy is turned into new mappings, and the candidate is put together in a copy of them. Whatever
happens, no object that was there before is changed (`resolveAt_keeps`), and what comes out is what
`resolve` says of the values that the layers hold (`resolveAt_ends`). A policy is frozen and has
fields that nothing can change, so it is a value here, too.
-/

namespace AgentDev.Policy

open Python

/-- `_require_restrictions` -/
def requireRestrictionsAt (value : Ref) (name : Str) : ObjectM Error Nat := do
  let mapping ← ObjectM.asMapping value
  match mapping with
  | none => ObjectM.raise (.type [.text (name ++ str " must be a mapping")])
  | some mapping => do
    let items ← ObjectM.itemsOf mapping
    if items.all (fun item => item.1 ≠ .other) then return mapping
    else ObjectM.raise (valueError (name ++ str " field names must be strings"))

section

variable (merge : Str → Nat → Nat → ObjectM Error Nat) (depth : Nat) (layer : Str)

/-- The value of a field that a layer states, when `merge` merges mappings. -/
def mergeValueAt (path : Str) (baseValue value : Ref) : ObjectM Error Ref := do
  let restrictions ← ObjectM.asMapping value
  let base ← ObjectM.asMapping baseValue
  match restrictions, base with
  | some _, some base => do
    let restrictions ← requireRestrictionsAt value (layer ++ str "." ++ path)
    let merged ← merge path base restrictions
    return .object merged
  | _, _ => ObjectM.deepcopy depth value

/-- The loop over the items of a layer. -/
def mergeItemsAt (path : Str) (base result : Nat) : List (Key × Ref) → ObjectM Error Unit
  | [] => return ()
  | (.other, _) :: _ =>
    ObjectM.raise (valueError (layer ++ str "." ++ path ++ str " field names must be strings"))
  | (.str name, value) :: rest => do
    let baseValue ← ObjectM.getItem base name
    match baseValue with
    | none =>
      ObjectM.raise (valueError
        (layer ++ str "." ++ fieldPath path name ++ str " is an unknown policy field"))
    | some baseValue => do
      let merged ← mergeValueAt merge depth layer (fieldPath path name) baseValue value
      ObjectM.assign result (.str name) merged
      mergeItemsAt path base result rest

end

/-- The end of `_merge_restrictions`. -/
def clearDestinationsAt (path : Str) (restrictions result : Nat) : ObjectM Error Unit := do
  let mode ← ObjectM.getItem restrictions (str "mode")
  let destinations ← ObjectM.getItem restrictions (str "destinations")
  match mode with
  | some mode =>
    if path = str "network.task_shell" ∧ mode.isStr (str "allowlist") = false ∧
        destinations.isSome = false then do
      let empty ← ObjectM.make (.seq [])
      ObjectM.assign result (.str (str "destinations")) (.object empty)
    else return ()
  | none => return ()

/-- `_merge_restrictions` -/
def mergeRestrictionsAt (layer : Str) : Nat → Str → Nat → Nat → ObjectM Error Nat
  | 0, _, _, _ => ObjectM.recursionError
  | depth + 1, path, base, restrictions => do
    let copy ← ObjectM.copyDict base
    let result ← ObjectM.deepcopyDict (ObjectM.deepcopy depth) copy
    let items ← ObjectM.itemsOf restrictions
    mergeItemsAt (mergeRestrictionsAt layer depth) depth layer path base result items
    clearDestinationsAt path restrictions result
    return result

/-- `_candidate_from_layer`. `from_dict` changes nothing. -/
def candidateFromLayerAt (depth : Nat) (effective : ExecutionPolicy) (restrictions : Nat)
    (layer : Str) : ObjectM Error ExecutionPolicy := do
  let base ← ObjectM.buildDict effective.asDict
  let merged ← mergeRestrictionsAt layer depth [] base restrictions
  let value ← ObjectM.read depth (.object merged)
  ObjectM.lift (underLayer layer (ExecutionPolicy.fromDict value))

/-- One layer of `PolicyResolver.resolve`, which may be absent. -/
def applyLayerAt (depth : Nat) (effective : ExecutionPolicy) (name : Str) (value : Option Ref) :
    ObjectM Error ExecutionPolicy :=
  match value with
  | none => return effective
  | some value => do
    let restrictions ← requireRestrictionsAt value name
    let candidate ← candidateFromLayerAt depth effective restrictions name
    let _ ← ObjectM.lift (validateNarrowing name effective candidate)
    return candidate

/-- `PolicyResolver.resolve` -/
def resolveAt (depth : Nat) (platformBaseline : ExecutionPolicy)
    (projectPolicy executionProfile runRestrictions : Option Ref) :
    ObjectM Error ExecutionPolicy := do
  let effective ← applyLayerAt depth platformBaseline (str "project_policy") projectPolicy
  let effective ← applyLayerAt depth effective (str "execution_profile") executionProfile
  applyLayerAt depth effective (str "run_restrictions") runRestrictions

/-! ## What is kept -/

section

variable {kept : Heap} {depth : Nat} {layer path : Str} {base result restrictions : Nat}

theorem requireRestrictionsAt_keeps {value : Ref} {name : Str} :
    Keeps kept (requireRestrictionsAt value name) fun _ => True := by
  refine Keeps.asMapping.bind fun mapping _ => ?_
  cases mapping with
  | none => exact .raise
  | some mapping =>
    refine Keeps.itemsOf.bind fun items _ => ?_
    split
    · exact .pure trivial
    · exact .raise

theorem mergeValueAt_keeps {merge : Str → Nat → Nat → ObjectM Error Nat}
    (hmerge : ∀ path base restrictions, Keeps kept (merge path base restrictions) fun _ => True)
    {baseValue value : Ref} :
    Keeps kept (mergeValueAt merge depth layer path baseValue value) fun _ => True := by
  refine Keeps.asMapping.bind fun restrictions _ => Keeps.asMapping.bind fun base _ => ?_
  cases restrictions with
  | none => exact .deepcopy _ _
  | some _ =>
    cases base with
    | none => exact .deepcopy _ _
    | some base =>
      refine requireRestrictionsAt_keeps.bind fun restrictions _ => ?_
      exact (hmerge _ _ _).bind fun _ _ => .pure trivial

/-- Only the result is changed, which is new. -/
theorem mergeItemsAt_keeps {merge : Str → Nat → Nat → ObjectM Error Nat}
    (hmerge : ∀ path base restrictions, Keeps kept (merge path base restrictions) fun _ => True)
    (hresult : kept.length ≤ result) (items : List (Key × Ref)) :
    Keeps kept (mergeItemsAt merge depth layer path base result items) fun _ => True := by
  induction items with
  | nil => exact .pure trivial
  | cons item rest ih =>
    obtain ⟨key, value⟩ := item
    cases key with
    | other => exact .raise
    | str name =>
      refine Keeps.getItem.bind fun baseValue _ => ?_
      cases baseValue with
      | none => exact .raise
      | some baseValue =>
        refine (mergeValueAt_keeps hmerge).bind fun merged _ => ?_
        exact (Keeps.assign hresult).bind fun _ _ => ih

theorem clearDestinationsAt_keeps (hresult : kept.length ≤ result) :
    Keeps kept (clearDestinationsAt path restrictions result) fun _ => True := by
  refine Keeps.getItem.bind fun mode _ => Keeps.getItem.bind fun destinations _ => ?_
  cases mode with
  | none => exact .pure trivial
  | some mode =>
    show Keeps kept (if _ then _ else _) _
    split
    · exact Keeps.make.bind fun _ _ => .assign hresult
    · exact .pure trivial

theorem mergeRestrictionsAt_keeps :
    Keeps kept (mergeRestrictionsAt layer depth path base restrictions) fun _ => True := by
  induction depth generalizing path base restrictions with
  | zero => exact .recursionError
  | succ depth ih =>
    refine Keeps.copyDict.bind fun copy _ => ?_
    refine (Keeps.deepcopyDict (Keeps.deepcopy depth)).bind fun result hresult => ?_
    refine Keeps.itemsOf.bind fun items _ => ?_
    refine (mergeItemsAt_keeps (fun _ _ _ => ih) hresult items).bind fun _ _ => ?_
    exact (clearDestinationsAt_keeps hresult).bind fun _ _ => .pure trivial

theorem candidateFromLayerAt_keeps {effective : ExecutionPolicy} {name : Str} :
    Keeps kept (candidateFromLayerAt depth effective restrictions name) fun _ => True := by
  refine (Keeps.buildDict _).bind fun base _ => ?_
  refine mergeRestrictionsAt_keeps.bind fun merged _ => ?_
  exact (Keeps.read _ _).bind fun _ _ => .lift

theorem applyLayerAt_keeps (effective : ExecutionPolicy) (name : Str) (value : Option Ref) :
    Keeps kept (applyLayerAt depth effective name value) fun _ => True := by
  cases value with
  | none => exact .pure trivial
  | some value =>
    refine requireRestrictionsAt_keeps.bind fun restrictions _ => ?_
    refine candidateFromLayerAt_keeps.bind fun candidate _ => ?_
    exact Keeps.lift.bind fun _ _ => .pure trivial

/-- No object that is there before a call is changed by it, also when it raises. -/
theorem resolveAt_keeps (platformBaseline : ExecutionPolicy)
    (projectPolicy executionProfile runRestrictions : Option Ref) :
    Keeps kept (resolveAt depth platformBaseline projectPolicy executionProfile runRestrictions)
      fun _ => True := by
  refine (applyLayerAt_keeps _ _ _).bind fun effective _ => ?_
  exact (applyLayerAt_keeps _ _ _).bind fun _ _ => applyLayerAt_keeps _ _ _

end

/-! ## What is computed -/

section

open ObjectM

variable {heap : Heap} {depth : Nat} {layer path : Str}

theorem asMapping_dict {address : Nat} {items : Dict}
    (h : Holds heap.objects (.object address) (.dict items)) :
    (ObjectM.asMapping (.object address) : ObjectM Error _) heap = (.ok (some address), heap) := by
  rw [Holds] at h
  obtain ⟨_, refs, heq, hobject, -⟩ := h
  cases heq
  show (ObjectM.load address >>= _) heap = _
  rw [bind_ok_run (load_run hobject)]
  rfl

theorem asMapping_plain {ref : Ref} {value : Value} (h : Holds heap.objects ref value)
    (hvalue : ∀ items, value ≠ .dict items) :
    (ObjectM.asMapping ref : ObjectM Error _) heap = (.ok none, heap) := by
  cases value with
  | dict items => exact absurd rfl (hvalue items)
  | seq values =>
    rw [Holds] at h
    obtain ⟨address, refs, rfl, hobject, -⟩ := h
    show (ObjectM.load address >>= _) heap = _
    rw [bind_ok_run (load_run hobject)]
    rfl
  | _ =>
    rw [Holds] at h
    · subst h
      rfl
    all_goals simp

/-- The check of the names of a layer reads the same names. -/
theorem requireRestrictionsAt_run (name : Str) {ref : Ref} {value : Value}
    (h : Holds heap.objects ref value) :
    Ends (requireRestrictionsAt ref name) heap (requireRestrictions value name)
      fun after mapping items => after = heap ∧ ref = .object mapping ∧ value = .dict items := by
  by_cases hdict : ∃ items, value = .dict items
  · obtain ⟨items, rfl⟩ := hdict
    obtain ⟨address, haddress⟩ := h.address
    subst haddress
    refine Ends.after_run (asMapping_dict h) ?_
    rw [Holds] at h
    obtain ⟨_, refs, heq, hobject, hitems⟩ := h
    cases heq
    have hnames : refs.all (fun item => item.1 ≠ .other) = Dict.hasNames items := by
      have hkeys : (refs.map Prod.fst).all (fun key => key ≠ .other) =
          (items.map Prod.fst).all (fun key => key ≠ .other) := by rw [hitems.keys]
      rw [List.all_map, List.all_map] at hkeys
      exact hkeys
    refine Ends.after_run (itemsOf_run hobject) ?_
    rw [hnames, requireRestrictions]
    by_cases hall : Dict.hasNames items = true
    · rw [if_pos hall, if_pos hall]
      exact Ends.pure ⟨rfl, rfl, rfl⟩
    · rw [if_neg hall, if_neg hall]
      exact Ends.raise
  · have hplain : ∀ items, value ≠ .dict items := fun items h => hdict ⟨items, h⟩
    refine Ends.after_run (asMapping_plain h hplain) ?_
    cases value with
    | dict items => exact absurd rfl (hplain items)
    | _ => exact Ends.raise

/-- What `_merge_restrictions` gives, as a value. -/
def mergedAt (layer path : Str) (base restrictions : Dict) : Except Error Dict := do
  let result ← mergeItems layer path base base restrictions
  return clearDestinations path restrictions result

/-- Mappings of some height are merged as their values are. -/
def MergesAt (layer : Str) (depth : Nat) : Prop :=
  ∀ (heap : Heap) (path : Str) (base restrictions : Nat) (baseItems items : Dict),
    Holds heap.objects (.object base) (.dict baseItems) →
    Holds heap.objects (.object restrictions) (.dict items) →
    (Value.dict baseItems).height + (Value.dict items).height ≤ depth →
    Yields (mergeRestrictionsAt layer depth path base restrictions) heap
      (mergedAt layer path baseItems items) fun objects result merged =>
        Holds objects (.object result) (.dict merged)

theorem mergeValue_dict (layer path : Str) (base items : Dict) :
    mergeValue layer path (.dict base) (.dict items) =
      requireRestrictions (.dict items) (layer ++ str "." ++ path) >>= fun items =>
        mergedAt layer path base items >>= fun merged => Except.ok (Value.dict merged) := by
  rw [mergeValue, requireRestrictions]
  split
  · show _ = mergedAt layer path base items >>= fun merged => Except.ok (Value.dict merged)
    rw [mergedAt, bind_assoc]
    rfl
  · rfl

theorem mergeValue_plain {baseValue value : Value}
    (h : (∀ items, value ≠ .dict items) ∨ ∀ items, baseValue ≠ .dict items) :
    mergeValue layer path baseValue value = .ok value := by
  cases value with
  | dict items =>
    cases baseValue with
    | dict baseItems =>
      rcases h with h | h
      · exact absurd rfl (h items)
      · exact absurd rfl (h baseItems)
    | _ => simp [mergeValue]
  | _ => simp [mergeValue]

theorem mergeValueAt_yields (path : Str) (hmerges : MergesAt layer depth) {baseRef ref : Ref}
    {baseValue value : Value} (hbase : Holds heap.objects baseRef baseValue)
    (hvalue : Holds heap.objects ref value) (hdepth : baseValue.height + value.height ≤ depth) :
    Yields (mergeValueAt (mergeRestrictionsAt layer depth) depth layer path baseRef ref) heap
      (mergeValue layer path baseValue value) Holds := by
  have hcopy : Yields (ObjectM.deepcopy depth ref : ObjectM Error Ref) heap (.ok value) Holds :=
    Yields.deepcopy hvalue (by omega)
  by_cases hdict : ∃ items, value = .dict items
  · obtain ⟨items, rfl⟩ := hdict
    obtain ⟨restrictions, hrestrictions⟩ := hvalue.address
    subst hrestrictions
    by_cases hbaseDict : ∃ baseItems, baseValue = .dict baseItems
    · obtain ⟨baseItems, rfl⟩ := hbaseDict
      obtain ⟨base, hbaseAddress⟩ := hbase.address
      subst hbaseAddress
      refine Ends.after_run (asMapping_dict hvalue) (Ends.after_run (asMapping_dict hbase) ?_)
      rw [mergeValue_dict]
      refine Ends.bind (requireRestrictionsAt_run _ hvalue) fun after mapping stated h => ?_
      obtain ⟨rfl, hmapping, hstated⟩ := h
      cases hmapping
      cases hstated
      exact Ends.bind (hmerges _ path base restrictions baseItems items hbase hvalue hdepth)
        fun _ _ _ h => Ends.pure h
    · have hplain : ∀ items, baseValue ≠ .dict items := fun items h => hbaseDict ⟨items, h⟩
      rw [mergeValue_plain (Or.inr hplain)]
      exact Ends.after_run (asMapping_dict hvalue) (Ends.after_run (asMapping_plain hbase hplain) hcopy)
  · have hplain : ∀ items, value ≠ .dict items := fun items h => hdict ⟨items, h⟩
    rw [mergeValue_plain (Or.inl hplain)]
    refine Ends.after_run (asMapping_plain hvalue hplain) ?_
    by_cases hbaseDict : ∃ baseItems, baseValue = .dict baseItems
    · obtain ⟨baseItems, rfl⟩ := hbaseDict
      obtain ⟨base, hbaseAddress⟩ := hbase.address
      subst hbaseAddress
      exact Ends.after_run (asMapping_dict hbase) hcopy
    · exact Ends.after_run (asMapping_plain hbase fun items h => hbaseDict ⟨items, h⟩) hcopy

/-- The loop ends like that over the values, with a result of new objects. -/
theorem mergeItemsAt_run (hmerges : MergesAt layer depth) {start : Heap} {base result : Nat}
    {refs : List (Key × Ref)} {baseItems items resultItems : Dict}
    (hbase : Holds start.objects (.object base) (.dict baseItems))
    (hitems : ItemsHold start.objects refs items) (hresult : NewDict start heap result resultItems)
    (hdepth : itemsHeight baseItems + itemsHeight items ≤ depth) :
    Ends (mergeItemsAt (mergeRestrictionsAt layer depth) depth layer path base result refs) heap
      (mergeItems layer path baseItems resultItems items)
      fun after _ merged => NewDict start after result merged := by
  induction items generalizing refs heap resultItems with
  | nil =>
    rw [ItemsHold] at hitems
    subst hitems
    exact Ends.pure hresult
  | cons item rest ih =>
    obtain ⟨key, value⟩ := item
    rw [ItemsHold] at hitems
    obtain ⟨ref, others, rfl, hvalue, hothers⟩ := hitems
    rw [itemsHeight] at hdepth
    cases key with
    | other => exact Ends.raise
    | str name =>
      have hbaseHeld := hbase
      rw [Holds] at hbaseHeld
      obtain ⟨_, baseRefs, heq, hobject, hbaseItems⟩ := hbaseHeld
      cases heq
      obtain ⟨hfound, hmissing⟩ := @ItemsHold.lookup _ _ _ (Key.str name) hbaseItems
      rw [mergeItems]
      refine Ends.after_run (getItem_run (Heap.objects_mono hresult.kept hobject)) ?_
      cases hlookup : Dict.get? baseItems name with
      | none =>
        rw [hmissing hlookup]
        exact Ends.raise
      | some baseValue =>
        obtain ⟨baseRef, hbaseRef, hbaseValue⟩ := hfound baseValue hlookup
        rw [hbaseRef]
        have hheight := height_le_of_get? hlookup
        have hmerged := mergeValueAt_yields (fieldPath path name) hmerges
          (Holds.mono (Heap.objects_mono hresult.kept) hbaseValue)
          (Holds.mono (Heap.objects_mono hresult.kept) hvalue) (by omega)
        refine Ends.bind hmerged fun next mergedRef merged hnext => ?_
        obtain ⟨after, hassign, hafter⟩ := hresult.assign hnext.1 hnext.2
        exact Ends.after_run hassign (ih hothers hafter (by omega))

theorem Ref_isStr_eq {objects : Nat → Option Object} {ref : Ref} {value : Value} {text : Str}
    (h : Holds objects ref value) : ref.isStr text = value.isStr text := by
  cases value with
  | seq values =>
    rw [Holds] at h
    obtain ⟨address, refs, rfl, -⟩ := h
    rfl
  | dict items =>
    rw [Holds] at h
    obtain ⟨address, refs, rfl, -⟩ := h
    rfl
  | _ =>
    rw [Holds] at h
    · subst h
      rfl
    all_goals simp

theorem clearDestinationsAt_run {start : Heap} {restrictions result : Nat} {items resultItems : Dict}
    (hrestrictions : Holds start.objects (.object restrictions) (.dict items))
    (hresult : NewDict start heap result resultItems) :
    Ends (clearDestinationsAt path restrictions result) heap
      (.ok (clearDestinations path items resultItems))
      fun after _ cleared => NewDict start after result cleared := by
  rw [Holds] at hrestrictions
  obtain ⟨_, refs, heq, hobject, hitems⟩ := hrestrictions
  cases heq
  obtain ⟨hmode, hnoMode⟩ := @ItemsHold.lookup _ _ _ (Key.str (str "mode")) hitems
  obtain ⟨hfound, hmissing⟩ := @ItemsHold.lookup _ _ _ (Key.str (str "destinations")) hitems
  have hrestated : (refs.lookup (.str (str "destinations"))).isSome =
      Dict.contains items (str "destinations") := by
    rw [Dict.contains, Dict.get?]
    cases hlookup : List.lookup (Key.str (str "destinations")) items with
    | none =>
      rw [hmissing hlookup]
      rfl
    | some value =>
      obtain ⟨ref, href, -⟩ := hfound value hlookup
      rw [href]
      rfl
  have hobject := Heap.objects_mono hresult.kept hobject
  refine Ends.after_run (getItem_run hobject) (Ends.after_run (getItem_run hobject) ?_)
  rw [clearDestinations, Dict.get?]
  cases hlookup : List.lookup (Key.str (str "mode")) items with
  | none =>
    rw [hnoMode hlookup]
    exact Ends.pure hresult
  | some mode =>
    obtain ⟨modeRef, hmodeRef, hmodeHeld⟩ := hmode mode hlookup
    rw [hmodeRef]
    show Ends (if _ ∧ modeRef.isStr _ = false ∧ _ then _ else _) heap _ _
    rw [Ref_isStr_eq hmodeHeld, hrestated]
    show Ends _ heap (.ok (if _ then _ else _)) _
    split
    · have hempty : Holds ((heap ++ [.seq []] : Heap).since heap.length) (.object heap.length)
          (.seq []) := Yields.make_seq List.prefix_rfl (by rw [AllHold])
      obtain ⟨after, hassign, hafter⟩ : ∃ after,
          (ObjectM.assign result (.str (str "destinations")) (.object heap.length) :
            ObjectM Error Unit) (heap ++ [.seq []]) = (.ok (), after) ∧
          NewDict start after result (Dict.set resultItems (.str (str "destinations")) (.seq [])) :=
        hresult.assign (List.prefix_append heap _) hempty
      refine Ends.after_run rfl ?_
      exact ⟨(), after, hassign, hafter⟩
    · exact Ends.pure hresult

/-- `_merge_restrictions` merges as its values are merged. -/
theorem merges (layer : Str) (depth : Nat) : MergesAt layer depth := by
  induction depth with
  | zero =>
    intro heap path base restrictions baseItems items _ _ hdepth
    have := (Value.dict baseItems).height_pos
    omega
  | succ depth ih =>
    intro heap path base restrictions baseItems items hbase hrestrictions hdepth
    rw [Value.height, Value.height] at hdepth
    have hbaseHeld := hbase
    rw [Holds] at hbaseHeld
    obtain ⟨_, baseRefs, heq, hobject, hbaseItems⟩ := hbaseHeld
    cases heq
    have hheld := hrestrictions
    rw [Holds] at hheld
    obtain ⟨_, refs, heq, hitemsObject, hitems⟩ := hheld
    cases heq
    have hcopy : (ObjectM.copyDict base : ObjectM Error Nat) heap =
        (.ok heap.length, heap ++ [.dict baseRefs]) := by
      rw [ObjectM.copyDict, bind_ok_run (itemsOf_run hobject)]
      rfl
    have hgrown : heap <+: heap ++ [.dict baseRefs] := List.prefix_append _ _
    obtain ⟨result, next, hdeep, hnew⟩ := @Yields.deepcopyDict Error (heap ++ [.dict baseRefs])
      (ObjectM.deepcopy depth) heap.length baseRefs baseItems List.getElem?_concat_length
      (ItemsHold.mono (Heap.objects_mono hgrown) hbaseItems) depth (by omega)
      fun _ _ _ => Yields.deepcopy
    have hresult : NewDict heap next result baseItems := hnew.older hgrown
    refine Ends.after_run hcopy (Ends.after_run hdeep ?_)
    refine Ends.after_run (itemsOf_run (Heap.objects_mono hresult.kept hitemsObject)) ?_
    refine Ends.bind (mergeItemsAt_run ih hbase hitems hresult (by omega)) fun _ _ merged hmerged => ?_
    refine Ends.bind (clearDestinationsAt_run hrestrictions hmerged) fun _ _ cleared hcleared => ?_
    exact Ends.pure ⟨hcleared.kept, hcleared.holds⟩

theorem lift_ends {α : Type} {result : Except Error α} :
    Ends (ObjectM.lift result) heap result fun after a b => after = heap ∧ a = b := by
  cases result with
  | ok a => exact ⟨a, heap, rfl, rfl, rfl⟩
  | error error => exact ⟨heap, rfl⟩

theorem candidateFromLayerAt_ends {effective : ExecutionPolicy} {restrictions : Nat} {items : Dict}
    (hheld : Holds heap.objects (.object restrictions) (.dict items))
    (hdepth : (Value.dict effective.asDict).height + (Value.dict items).height ≤ depth)
    (hread : ∀ merged, mergeRestrictions effective.asDict items layer = .ok merged →
      (Value.dict merged).height ≤ depth) :
    Ends (candidateFromLayerAt depth effective restrictions layer) heap
      (candidateFromLayer effective items layer) fun _ candidate p => candidate = p := by
  obtain ⟨base, next, hbase, hnext, hbuilt⟩ := @Yields.buildDict Error heap effective.asDict
  refine Ends.after_run hbase ?_
  have hmerged := merges layer depth next [] base restrictions _ items
    (Holds.mono Heap.objects_of_since hbuilt) (Holds.mono (Heap.objects_mono hnext) hheld) hdepth
  have hpure : mergeRestrictions effective.asDict items layer =
      mergedAt layer [] effective.asDict items := rfl
  rw [candidateFromLayer]
  rw [hpure] at hread ⊢
  cases hresult : mergedAt layer [] effective.asDict items with
  | error error =>
    rw [hresult] at hmerged
    obtain ⟨after, hafter⟩ := hmerged
    exact ⟨after, bind_error_run hafter⟩
  | ok merged =>
    rw [hresult] at hmerged
    obtain ⟨result, after, hrun, -, hholds⟩ := hmerged
    have hvalue := @read_run Error after depth _ _ (Holds.mono Heap.objects_of_since hholds)
      (hread merged hresult)
    exact Ends.after_run hrun (Ends.after_run hvalue (lift_ends.weaken fun _ _ _ h => h.2))

/-- The layer that is given, if one is given. -/
def LayerHeld (objects : Nat → Option Object) : Option Ref → Option Value → Prop
  | none, none => True
  | some ref, some value => Holds objects ref value
  | _, _ => False

/-- With enough depth, a layer of objects has the effect of the layer that they hold. -/
theorem applyLayerAt_ends (effective : ExecutionPolicy) (name : Str) (value : Option Value) :
    ∃ limit, ∀ depth, limit ≤ depth → ∀ (heap : Heap) (ref : Option Ref),
      LayerHeld heap.objects ref value →
      Ends (applyLayerAt depth effective name ref) heap (applyLayer effective name value)
        fun after candidate p => heap <+: after ∧ candidate = p := by
  cases value with
  | none =>
    refine ⟨0, fun depth _ heap ref hheld => ?_⟩
    cases ref with
    | none => exact Ends.pure ⟨List.prefix_rfl, rfl⟩
    | some ref => exact hheld.elim
  | some value =>
    let merged := (requireRestrictions value name >>= fun items =>
      mergeRestrictions effective.asDict items name).toOption
    refine ⟨(Value.dict effective.asDict).height + value.height +
      (merged.elim 0 fun items => (Value.dict items).height), fun depth hdepth heap ref hheld => ?_⟩
    cases ref with
    | none => exact hheld.elim
    | some ref =>
      have hends : Ends (applyLayerAt depth effective name (some ref)) heap
          (applyLayer effective name (some value)) fun _ candidate p => candidate = p := by
        rw [applyLayer]
        cases hrequire : requireRestrictions value name with
        | error error =>
          have hrun := requireRestrictionsAt_run name hheld
          rw [hrequire] at hrun
          obtain ⟨after, hafter⟩ := hrun
          exact ⟨after, bind_error_run hafter⟩
        | ok items =>
          have hrun := requireRestrictionsAt_run name hheld
          rw [hrequire] at hrun
          obtain ⟨mapping, after, hafter, rfl, rfl, rfl⟩ := hrun
          refine Ends.after_run hafter ?_
          have hcandidate : Ends (candidateFromLayerAt depth effective mapping name) after
              (candidateFromLayer effective items name) fun _ candidate p => candidate = p := by
            apply candidateFromLayerAt_ends hheld (by omega)
            intro result hresult
            have hmerged : merged = some result := by
              show (requireRestrictions (.dict items) name >>= fun items =>
                mergeRestrictions effective.asDict items name).toOption = some result
              rw [hrequire]
              show (mergeRestrictions effective.asDict items name).toOption = some result
              rw [hresult]
              rfl
            rw [hmerged] at hdepth
            show (Value.dict result).height ≤ depth
            have hheight : (some result).elim 0 (fun items => (Value.dict items).height) =
                (Value.dict result).height := rfl
            omega
          show Ends _ _ (candidateFromLayer effective items name >>= _) _
          refine Ends.bind hcandidate fun next candidate p hsame => ?_
          subst hsame
          exact Ends.bind lift_ends fun _ _ _ _ => Ends.pure rfl
      have hkeeps := @applyLayerAt_keeps heap depth effective name (some ref) heap List.prefix_rfl
      cases hresult : applyLayer effective name (some value) with
      | error error =>
        rw [hresult] at hends
        exact hends
      | ok p =>
        rw [hresult] at hends
        obtain ⟨candidate, after, hrun, hsame⟩ := hends
        rw [hrun] at hkeeps
        exact ⟨candidate, after, hrun, hkeeps.1, hsame⟩

theorem LayerHeld.mono {before after : Heap} (h : before <+: after) {ref : Option Ref}
    {value : Option Value} (hheld : LayerHeld before.objects ref value) :
    LayerHeld after.objects ref value := by
  cases ref with
  | none =>
    cases value with
    | none => trivial
    | some value => exact hheld
  | some ref =>
    cases value with
    | none => exact hheld
    | some value => exact Holds.mono (Heap.objects_mono h) hheld

/-- With enough depth, the layers are resolved as the values that they hold. -/
theorem resolveAt_ends (platformBaseline : ExecutionPolicy)
    (projectPolicy executionProfile runRestrictions : Option Value) :
    ∃ limit, ∀ depth, limit ≤ depth → ∀ (heap : Heap) (project profile run : Option Ref),
      LayerHeld heap.objects project projectPolicy → LayerHeld heap.objects profile executionProfile →
      LayerHeld heap.objects run runRestrictions →
      Ends (resolveAt depth platformBaseline project profile run) heap
        (resolve platformBaseline projectPolicy executionProfile runRestrictions)
        fun after p q => heap <+: after ∧ p = q := by
  have hlayer := fun effective name value => applyLayerAt_ends effective name value
  choose limit hlimit using hlayer
  let first := applyLayer platformBaseline (str "project_policy") projectPolicy
  let second := first >>= fun effective =>
    applyLayer effective (str "execution_profile") executionProfile
  refine ⟨limit platformBaseline (str "project_policy") projectPolicy +
    (first.toOption.elim 0 fun effective =>
      limit effective (str "execution_profile") executionProfile) +
    (second.toOption.elim 0 fun effective =>
      limit effective (str "run_restrictions") runRestrictions), ?_⟩
  intro depth hdepth heap project profile run hproject hprofile hrun
  have hfirst := hlimit platformBaseline (str "project_policy") projectPolicy depth (by omega) heap
    project hproject
  rw [resolve]
  cases hresult : applyLayer platformBaseline (str "project_policy") projectPolicy with
  | error error =>
    rw [hresult] at hfirst
    obtain ⟨after, hafter⟩ := hfirst
    exact ⟨after, bind_error_run hafter⟩
  | ok effective =>
    rw [hresult] at hfirst
    obtain ⟨effective, next, hnext, hkept, rfl⟩ := hfirst
    have hfirstLimit : first.toOption = some effective := by
      show (applyLayer platformBaseline (str "project_policy") projectPolicy).toOption = _
      rw [hresult]
      rfl
    rw [hfirstLimit, Option.elim_some] at hdepth
    have hsecond := hlimit effective (str "execution_profile") executionProfile depth (by omega) next
      profile (hprofile.mono hkept)
    refine Ends.after_run hnext ?_
    show Ends _ next (applyLayer effective (str "execution_profile") executionProfile >>= _) _
    cases hresult' : applyLayer effective (str "execution_profile") executionProfile with
    | error error =>
      rw [hresult'] at hsecond
      obtain ⟨after, hafter⟩ := hsecond
      exact ⟨after, bind_error_run hafter⟩
    | ok effective' =>
      rw [hresult'] at hsecond
      obtain ⟨effective', later, hlater, hkept', rfl⟩ := hsecond
      have hsecondLimit : second.toOption = some effective' := by
        show (first >>= fun effective =>
          applyLayer effective (str "execution_profile") executionProfile).toOption = _
        have hsome : first = .ok effective := hresult
        rw [hsome]
        show (applyLayer effective (str "execution_profile") executionProfile).toOption = _
        rw [hresult']
        rfl
      rw [hsecondLimit, Option.elim_some] at hdepth
      refine Ends.after_run hlater ?_
      have hthird := hlimit effective' (str "run_restrictions") runRestrictions depth (by omega)
        later run (hrun.mono (hkept.trans hkept'))
      exact hthird.weaken fun _ _ _ h => ⟨(hkept.trans hkept').trans h.1, h.2⟩

end

end AgentDev.Policy
