import AgentDev.Policy.Inheritance

/-!
# Layers in either order

Two layers that the resolver accepts in both orders have the same result. When only one of them states a
leaf field, the field has that value in both results; when both state it, each result has the value
of the layer that came last, and each of the two values is at least as restrictive as the other
(`restated_commute`). The destinations are no exception: where the result has any, neither layer
has dropped them.
-/

namespace AgentDev.Policy

open Python

/-! ## One leaf field -/

/-- A leaf field after one layer (`a`, `b`) and after the other one above it (`p`, `q`). -/
theorem restated_commute {α : Type} {value value' : Option Value}
    {normalize : Value → Except Error α} {e a b p q : α} (ha : Restated value normalize e a)
    (hp : Restated value' normalize a p) (hb : Restated value' normalize e b)
    (hq : Restated value normalize b q) (hboth : a = q → b = p → p = q) : p = q := by
  cases value with
  | none =>
    have ha' : a = e := ha
    have hq' : q = b := hq
    rw [hq']
    cases value' with
    | none =>
      have hp' : p = a := hp
      have hb' : b = e := hb
      rw [hp', ha', hb']
    | some stated => exact Except.ok.inj (hp.symm.trans hb)
  | some stated =>
    have haq : a = q := Except.ok.inj (ha.symm.trans hq)
    cases value' with
    | none =>
      have hp' : p = a := hp
      rw [hp', haq]
    | some stated' => exact hboth haq (Except.ok.inj (hb.symm.trans hp))

/-! ## Values that are equally restrictive -/

theorem Access.antisymm {a b : Access} (h : a.operations ⊆ b.operations)
    (h' : b.operations ⊆ a.operations) : a = b := by
  have horder := order_le_iff.mpr h
  have horder' := order_le_iff.mpr h'
  cases a <;> cases b <;> simp_all [order]

theorem ReferenceAccess.antisymm {a b : ReferenceAccess} (h : a.operations ⊆ b.operations)
    (h' : b.operations ⊆ a.operations) : a = b := by
  have horder := order_le_iff.mpr h
  have horder' := order_le_iff.mpr h'
  cases a <;> cases b <;> simp_all [order]

theorem ExternalAccess.antisymm {a b : ExternalAccess} (h : a.operations ⊆ b.operations)
    (h' : b.operations ⊆ a.operations) : a = b := by
  have horder := order_le_iff.mpr h
  have horder' := order_le_iff.mpr h'
  cases a <;> cases b <;> simp_all [order]

theorem Visibility.antisymm {a b : Visibility} (h : a = .allow → b = .allow)
    (h' : b = .allow → a = .allow) : a = b := by
  cases a <;> cases b <;> simp_all

theorem SecurityClass.antisymm {a b : SecurityClass} (h : a = .hardened → b = .hardened)
    (h' : b = .hardened → a = .hardened) : a = b := by
  cases a <;> cases b <;> simp_all

/-- The modes follow from what can be reached: an allowlist reaches something, but not everything. -/
theorem TaskShellNetworkPolicy.order_of_reachable {p q : TaskShellNetworkPolicy}
    (h : p.reachable ⊆ q.reachable) : p.mode.order ≤ q.mode.order := by
  obtain ⟨mode, ⟨items, _, _⟩, hlisted⟩ := p
  obtain ⟨mode', ⟨items', _, _⟩, hlisted'⟩ := q
  obtain ⟨free, hfree⟩ := exists_not_mem items'
  cases mode with
  | deny => simp [NetworkMode.order]
  | allowlist =>
    obtain ⟨first, hfirst⟩ := List.exists_mem_of_ne_nil items (hlisted.mp rfl)
    cases mode' with
    | deny => exact absurd (h hfirst) (Set.notMem_empty first)
    | _ => simp [NetworkMode.order]
  | allow =>
    cases mode' with
    | deny => exact absurd (h (Set.mem_univ free)) (Set.notMem_empty free)
    | allowlist => exact absurd (h (Set.mem_univ free)) hfree
    | allow => simp [NetworkMode.order]

theorem TaskShellNetworkPolicy.subset_of_reachable {p q : TaskShellNetworkPolicy}
    (h : p.reachable ⊆ q.reachable) (hp : p.mode = .allowlist) (hq : q.mode = .allowlist) :
    p.destinations.items ⊆ q.destinations.items := by
  simp only [reachable, hp, hq] at h
  exact fun item hitem => h hitem

theorem NetworkMode.antisymm {a b : NetworkMode} (h : a.order ≤ b.order) (h' : b.order ≤ a.order) :
    a = b := by
  cases a <;> cases b <;> simp_all [order]

theorem Destinations.antisymm {d d' : Destinations} (h : d.items ⊆ d'.items)
    (h' : d'.items ⊆ d.items) : d = d' := by
  apply Destinations.ext_items
  have hnodup : d.items.Nodup := d.sorted.imp fun h => ne_of_lt h
  have hnodup' : d'.items.Nodup := d'.sorted.imp fun h => ne_of_lt h
  have hperm : d.items.Perm d'.items :=
    (List.perm_ext_iff_of_nodup hnodup hnodup').mpr fun item => ⟨fun hi => h hi, fun hi => h' hi⟩
  exact hperm.eq_of_pairwise (fun _ _ _ _ hlt hgt => absurd (hlt.trans hgt) (lt_irrefl _)) d.sorted
    d'.sorted

/-! ## Destinations -/

/-- A layer that leaves the task shell in allowlist mode has dropped no destinations. -/
theorem dropsDestinations_eq_false {value : Option Value} {old new : NetworkMode}
    (h : Restated value Leaf.networkMode.normalize old new) (hnew : new = .allowlist) :
    dropsDestinations value = false := by
  cases value with
  | none => rfl
  | some mode =>
    obtain ⟨text, rfl, hlookup⟩ := requireChoice_ok h
    rw [hnew] at hlookup
    have htext : text = str "allowlist" := by
      simp only [NetworkMode.choices, List.lookup_cons, List.lookup_nil] at hlookup
      split at hlookup
      · cases hlookup
      · split at hlookup
        · rename_i htext
          exact eq_of_beq htext
        · split at hlookup <;> cases hlookup
    simp [dropsDestinations, Value.isStr, htext]

/-! ## Policies -/

/-- A policy after one layer (`a`, `b`) and after the other one above it (`p`, `q`). -/
theorem layers_commute {e a b p q : ExecutionPolicy} {layer layer' : Value}
    {first second first' second' : Str} (hdistinct : layer.Distinct) (hdistinct' : layer'.Distinct)
    (ha : applyLayer e first (some layer) = .ok a) (hp : applyLayer a second (some layer') = .ok p)
    (hb : applyLayer e first' (some layer') = .ok b) (hq : applyLayer b second' (some layer) = .ok q) :
    p = q := by
  have hpa := applyLayer_narrows hp
  have hqb := applyLayer_narrows hq
  have ha' := ExecutionPolicy.restated hdistinct (applyLayer_overlaid ha).2
  have hp' := ExecutionPolicy.restated hdistinct' (applyLayer_overlaid hp).2
  have hb' := ExecutionPolicy.restated hdistinct' (applyLayer_overlaid hb).2
  have hq' := ExecutionPolicy.restated hdistinct (applyLayer_overlaid hq).2
  clear ha hp hb hq
  have hmode : p.network.taskShell.mode = q.network.taskShell.mode := by
    refine restated_commute (ha' .networkMode) (hp' .networkMode) (hb' .networkMode)
      (hq' .networkMode) fun haq hbp => ?_
    have haq' : a.network.taskShell.mode = q.network.taskShell.mode := haq
    have hbp' : b.network.taskShell.mode = p.network.taskShell.mode := hbp
    have hle := TaskShellNetworkPolicy.order_of_reachable hpa.network
    have hle' := TaskShellNetworkPolicy.order_of_reachable hqb.network
    rw [haq'] at hle
    rw [hbp'] at hle'
    exact NetworkMode.antisymm hle hle'
  have hdestinations : p.network.taskShell.destinations = q.network.taskShell.destinations := by
    by_cases hallow : q.network.taskShell.mode = .allowlist
    · have hp_allow := hmode.trans hallow
      have hdrops := dropsDestinations_eq_false (hq' .networkMode) hallow
      have hdrops' := dropsDestinations_eq_false (hp' .networkMode) hp_allow
      have ha'' := ha' .destinations
      have hp'' := hp' .destinations
      have hb'' := hb' .destinations
      have hq'' := hq' .destinations
      simp only [inherited, hdrops, hdrops', Bool.false_eq_true, if_false] at ha'' hp'' hb'' hq''
      refine restated_commute ha'' hp'' hb'' hq'' fun haq hbp => ?_
      have haq' : a.network.taskShell.destinations = q.network.taskShell.destinations := haq
      have hbp' : b.network.taskShell.destinations = p.network.taskShell.destinations := hbp
      have hlisted : ∀ r s : TaskShellNetworkPolicy, s.mode = .allowlist →
          r.destinations = s.destinations → r.mode = .allowlist := by
        intro r s hs hsame
        rw [r.listed, hsame]
        exact s.listed.mp hs
      have hsub := TaskShellNetworkPolicy.subset_of_reachable hpa.network hp_allow
        (hlisted _ _ hallow haq')
      have hsub' := TaskShellNetworkPolicy.subset_of_reachable hqb.network hallow
        (hlisted _ _ hp_allow hbp')
      rw [haq'] at hsub
      rw [hbp'] at hsub'
      exact Destinations.antisymm hsub hsub'
    · have hnone : ∀ r : TaskShellNetworkPolicy, r.mode ≠ .allowlist → r.destinations.items = [] := by
        intro r hr
        by_contra hsome
        exact hr (r.listed.mpr hsome)
      exact Destinations.ext_items ((hnone _ (fun h => hallow (hmode.symm.trans h))).trans
        (hnone _ hallow).symm)
  refine Leaf.ext_leaf fun leaf => ?_
  cases leaf with
  | version => exact p.version_eq.trans q.version_eq.symm
  | networkMode => exact hmode
  | destinations => exact hdestinations
  | workspaceAccess =>
    exact restated_commute (ha' _) (hp' _) (hb' _) (hq' _) fun haq hbp =>
      Access.antisymm (haq ▸ hpa.workspace) (hbp ▸ hqb.workspace)
  | referenceAccess =>
    exact restated_commute (ha' _) (hp' _) (hb' _) (hq' _) fun haq hbp =>
      ReferenceAccess.antisymm (haq ▸ hpa.reference) (hbp ▸ hqb.reference)
  | external =>
    exact restated_commute (ha' _) (hp' _) (hb' _) (hq' _) fun haq hbp =>
      ExternalAccess.antisymm (haq ▸ hpa.external) (hbp ▸ hqb.external)
  | providerAuth =>
    exact restated_commute (ha' _) (hp' _) (hb' _) (hq' _) fun haq hbp =>
      Visibility.antisymm (haq ▸ hpa.credentials) (hbp ▸ hqb.credentials)
  | gitRead =>
    exact restated_commute (ha' _) (hp' _) (hb' _) (hq' _) fun haq hbp =>
      Bool.eq_iff_iff.mpr ⟨haq ▸ hpa.gitRead, hbp ▸ hqb.gitRead⟩
  | gitCommit =>
    exact restated_commute (ha' _) (hp' _) (hb' _) (hq' _) fun haq hbp =>
      Bool.eq_iff_iff.mpr ⟨haq ▸ hpa.gitCommit, hbp ▸ hqb.gitCommit⟩
  | gitPush =>
    exact restated_commute (ha' _) (hp' _) (hb' _) (hq' _) fun haq hbp =>
      Bool.eq_iff_iff.mpr ⟨haq ▸ hpa.gitPush, hbp ▸ hqb.gitPush⟩
  | sandboxRequired =>
    exact restated_commute (ha' _) (hp' _) (hb' _) (hq' _) fun haq hbp =>
      Bool.eq_iff_iff.mpr ⟨hbp ▸ hqb.sandbox, haq ▸ hpa.sandbox⟩
  | cpu =>
    exact restated_commute (ha' _) (hp' _) (hb' _) (hq' _) fun haq hbp =>
      le_antisymm (haq ▸ hpa.cpu) (hbp ▸ hqb.cpu)
  | memory =>
    exact restated_commute (ha' _) (hp' _) (hb' _) (hq' _) fun haq hbp =>
      le_antisymm (haq ▸ hpa.memory) (hbp ▸ hqb.memory)
  | pids =>
    exact restated_commute (ha' _) (hp' _) (hb' _) (hq' _) fun haq hbp =>
      le_antisymm (haq ▸ hpa.pids) (hbp ▸ hqb.pids)
  | securityClass =>
    exact restated_commute (ha' _) (hp' _) (hb' _) (hq' _) fun haq hbp =>
      SecurityClass.antisymm (hbp ▸ hqb.security) (haq ▸ hpa.security)

/-! ## The hierarchy -/

/-- Two supplied layers are applied one after the other, whatever their places. -/
theorem resolve_two {e p : ExecutionPolicy} {project profile run : Option Value}
    {layer layer' : Value} (hlayers : [project, profile, run].reduceOption = [layer, layer'])
    (h : resolve e project profile run = .ok p) :
    ∃ first second a, applyLayer e first (some layer) = .ok a ∧
      applyLayer a second (some layer') = .ok p := by
  obtain ⟨a, ha, h⟩ := bind_ok_iff.mp h
  obtain ⟨b, hb, hp⟩ := bind_ok_iff.mp h
  clear h
  cases project with
  | none =>
    cases ha
    cases profile with
    | none => cases run <;> cases hlayers
    | some profile =>
      cases run with
      | none => cases hlayers
      | some run =>
        cases hlayers
        exact ⟨_, _, b, hb, hp⟩
  | some project =>
    cases profile with
    | none =>
      cases hb
      cases run with
      | none => cases hlayers
      | some run =>
        cases hlayers
        exact ⟨_, _, a, ha, hp⟩
    | some profile =>
      cases run with
      | none =>
        cases hp
        cases hlayers
        exact ⟨_, _, a, ha, hb⟩
      | some run => cases hlayers

/-- Two layers that are accepted in both orders resolve to the same policy. -/
theorem resolve_commutes {effective p q : ExecutionPolicy} {layer layer' : Value}
    {project profile run project' profile' run' : Option Value} (hdistinct : layer.Distinct)
    (hdistinct' : layer'.Distinct)
    (hlayers : [project, profile, run].reduceOption = [layer, layer'])
    (hlayers' : [project', profile', run'].reduceOption = [layer', layer])
    (hp : resolve effective project profile run = .ok p)
    (hq : resolve effective project' profile' run' = .ok q) : p = q := by
  obtain ⟨_, _, a, ha, hp⟩ := resolve_two hlayers hp
  obtain ⟨_, _, b, hb, hq⟩ := resolve_two hlayers' hq
  exact layers_commute hdistinct hdistinct' ha hp hb hq

/-- A layer without network and one that writes nothing, in either order. -/
theorem resolve_commutes_example :
    ∃ p, resolve exampleBaseline (some (.dict exampleRestrictions)) (some (.dict exampleProject))
      none = .ok p ∧ p = exampleRun := by
  have hdistinct : (Value.dict exampleProject).Distinct := by
    simp only [exampleProject, items, record, List.map, Value.Distinct, itemsDistinct]
    decide
  have hdistinct' : (Value.dict exampleRestrictions).Distinct := by
    simp only [exampleRestrictions, items, record, List.map, Value.Distinct, itemsDistinct]
    decide
  have hrun : resolve exampleBaseline (some (.dict exampleProject)) none
      (some (.dict exampleRestrictions)) = .ok exampleRun := rfl
  have hp : resolve exampleBaseline (some (.dict exampleRestrictions))
      (some (.dict exampleProject)) none = .ok exampleRun := rfl
  exact ⟨exampleRun, hp, resolve_commutes hdistinct' hdistinct rfl rfl hp hrun⟩

end AgentDev.Policy
