import AgentDev.Policy.Commutation

/-!
# Resolving is monotone

A baseline that is narrower, and layers where there were none, never make a resolved policy wider
(`resolve_monotone`). A field that the last layer states has one value in both policies; any other is
inherited, or an allowlist that was dropped with its mode. Nothing is asked of the policies but that
the resolver accepts both.
-/

namespace AgentDev.Policy

open Python

/-! ## One layer above two policies -/

/-- A leaf field of a layer above `e` and above `e'`, where `f` is what its value permits. -/
theorem restated_le {α β : Type} [Preorder β] (f : α → β) {value : Option Value}
    {normalize : Value → Except Error α} {e e' p p' : α} (h : f e' ≤ f e)
    (hp : Restated value normalize e p) (hp' : Restated value normalize e' p') : f p' ≤ f p := by
  cases value with
  | none =>
    have hsame : p = e := hp
    have hsame' : p' = e' := hp'
    rw [hsame, hsame']
    exact h
  | some stated => rw [Except.ok.inj (hp'.symm.trans hp)]

/-- The same for the value that permits something, or that requires it. -/
theorem restated_imp {α : Type} {value : Option Value} {normalize : Value → Except Error α}
    {e e' p p' a : α} (h : e' = a → e = a) (hp : Restated value normalize e p)
    (hp' : Restated value normalize e' p') : p' = a → p = a :=
  restated_le (fun lower => lower = a) h hp hp'

theorem TaskShellNetworkPolicy.reachable_subset {p q : TaskShellNetworkPolicy}
    (hmode : p.mode = q.mode)
    (hitems : p.mode = .allowlist → p.destinations.items ⊆ q.destinations.items) :
    p.reachable ⊆ q.reachable := by
  unfold reachable
  rw [← hmode]
  cases hp : p.mode with
  | deny => exact subset_rfl
  | allowlist => exact fun item hitem => hitems hp hitem
  | allow => exact subset_rfl

/-- What can be reached follows the order below a layer, whatever the layer states of the network. -/
theorem reachable_monotone {value destinations : Option Value}
    {e e' p p' : TaskShellNetworkPolicy} (h : e'.reachable ⊆ e.reachable)
    (hmode : Restated value Leaf.networkMode.normalize e.mode p.mode)
    (hmode' : Restated value Leaf.networkMode.normalize e'.mode p'.mode)
    (hitems : Restated destinations Leaf.destinations.normalize
      (if dropsDestinations value then noDestinations else e.destinations) p.destinations)
    (hitems' : Restated destinations Leaf.destinations.normalize
      (if dropsDestinations value then noDestinations else e'.destinations) p'.destinations) :
    p'.reachable ⊆ p.reachable := by
  have hsame : ∀ r s : TaskShellNetworkPolicy, r.destinations = s.destinations →
      r.mode = .allowlist → s.mode = .allowlist := by
    intro r s hrs hr
    rw [s.listed, ← hrs]
    exact r.listed.mp hr
  cases value with
  | some stated =>
    have hmodes : p'.mode = p.mode := Except.ok.inj (hmode'.symm.trans hmode)
    apply TaskShellNetworkPolicy.reachable_subset hmodes
    intro hallow
    rw [if_neg (by rw [dropsDestinations_eq_false hmode' hallow]; exact Bool.false_ne_true)]
      at hitems hitems'
    cases destinations with
    | some items =>
      have hequal : p'.destinations = p.destinations := Except.ok.inj (hitems'.symm.trans hitems)
      rw [hequal]
      exact List.Subset.refl _
    | none =>
      have hitems : p.destinations = e.destinations := hitems
      have hitems' : p'.destinations = e'.destinations := hitems'
      rw [hitems, hitems']
      apply TaskShellNetworkPolicy.subset_of_reachable h (hsame p' e' hitems' hallow)
      exact hsame p e hitems (hmodes.symm.trans hallow)
  | none =>
    have hmode : p.mode = e.mode := hmode
    have hmode' : p'.mode = e'.mode := hmode'
    cases destinations with
    | none =>
      have hitems : p.destinations = e.destinations := hitems
      have hitems' : p'.destinations = e'.destinations := hitems'
      unfold TaskShellNetworkPolicy.reachable at h ⊢
      rw [hmode, hmode', hitems, hitems']
      exact h
    | some items =>
      have hequal : p'.destinations = p.destinations := Except.ok.inj (hitems'.symm.trans hitems)
      have horder := TaskShellNetworkPolicy.order_of_reachable h
      cases hcase : p'.mode with
      | deny =>
        rw [TaskShellNetworkPolicy.reachable, hcase]
        exact Set.empty_subset _
      | allowlist =>
        have hallow : p.mode = .allowlist := hsame p' p hequal hcase
        apply TaskShellNetworkPolicy.reachable_subset (hcase.trans hallow.symm)
        intro _
        rw [hequal]
        exact List.Subset.refl _
      | allow =>
        have hallow : p.mode = .allow := by
          rw [← hmode, ← hmode', hcase] at horder
          cases hp : p.mode with
          | allow => rfl
          | _ =>
            rw [hp] at horder
            simp [NetworkMode.order] at horder
        rw [TaskShellNetworkPolicy.reachable, TaskShellNetworkPolicy.reachable, hcase, hallow]

/-- A layer that is accepted above a policy and above a narrower one. -/
theorem applyLayer_monotone {e e' p p' : ExecutionPolicy} {layer : Value} {name name' : Str}
    (hdistinct : layer.Distinct) (h : Narrower e' e)
    (hp : applyLayer e name (some layer) = .ok p)
    (hp' : applyLayer e' name' (some layer) = .ok p') : Narrower p' p := by
  have hr := ExecutionPolicy.restated hdistinct (applyLayer_overlaid hp).2
  have hr' := ExecutionPolicy.restated hdistinct (applyLayer_overlaid hp').2
  clear hp hp'
  exact {
    workspace := restated_le Access.operations h.workspace (hr .workspaceAccess) (hr' .workspaceAccess)
    reference :=
      restated_le ReferenceAccess.operations h.reference (hr .referenceAccess) (hr' .referenceAccess)
    external := restated_le ExternalAccess.operations h.external (hr .external) (hr' .external)
    network :=
      reachable_monotone h.network (hr .networkMode) (hr' .networkMode) (hr .destinations)
        (hr' .destinations)
    credentials := restated_imp h.credentials (hr .providerAuth) (hr' .providerAuth)
    gitRead := restated_imp h.gitRead (hr .gitRead) (hr' .gitRead)
    gitCommit := restated_imp h.gitCommit (hr .gitCommit) (hr' .gitCommit)
    gitPush := restated_imp h.gitPush (hr .gitPush) (hr' .gitPush)
    -- what is required is compared the other way
    sandbox := restated_imp h.sandbox (hr' .sandboxRequired) (hr .sandboxRequired)
    cpu := restated_le id h.cpu (hr .cpu) (hr' .cpu)
    memory := restated_le id h.memory (hr .memory) (hr' .memory)
    pids := restated_le id h.pids (hr .pids) (hr' .pids)
    security := restated_imp h.security (hr' .securityClass) (hr .securityClass)
  }

/-! ## The hierarchy -/

/-- The layer is kept, or it is one more. -/
def Added (layer layer' : Option Value) : Prop := layer = none ∨ layer = layer'

theorem applyLayer_added {e e' p p' : ExecutionPolicy} {layer layer' : Option Value} {name : Str}
    (hdistinct : ∀ value, layer = some value → value.Distinct) (hadded : Added layer layer')
    (h : Narrower e' e) (hp : applyLayer e name layer = .ok p)
    (hp' : applyLayer e' name layer' = .ok p') : Narrower p' p := by
  cases layer with
  | none =>
    cases hp
    exact (applyLayer_narrows hp').trans h
  | some value =>
    have hsame : some value = layer' := hadded.resolve_left (by simp)
    rw [← hsame] at hp'
    exact applyLayer_monotone (hdistinct value rfl) h hp hp'

/-- A narrower baseline and more layers never resolve to a policy that is wider in any dimension. -/
theorem resolve_monotone {e e' p p' : ExecutionPolicy}
    {project project' profile profile' run run' : Option Value}
    (hproject : ∀ value, project = some value → value.Distinct)
    (hprofile : ∀ value, profile = some value → value.Distinct)
    (hrun : ∀ value, run = some value → value.Distinct)
    (hbaseline : Narrower e' e) (haddedProject : Added project project')
    (haddedProfile : Added profile profile') (haddedRun : Added run run')
    (hp : resolve e project profile run = .ok p)
    (hp' : resolve e' project' profile' run' = .ok p') : Narrower p' p := by
  obtain ⟨a, ha, hp⟩ := bind_ok_iff.mp hp
  obtain ⟨b, hb, hp⟩ := bind_ok_iff.mp hp
  obtain ⟨a', ha', hp'⟩ := bind_ok_iff.mp hp'
  obtain ⟨b', hb', hp'⟩ := bind_ok_iff.mp hp'
  have hnarrow := applyLayer_added hproject haddedProject hbaseline ha ha'
  have hnarrow' := applyLayer_added hprofile haddedProfile hnarrow hb hb'
  exact applyLayer_added hrun haddedRun hnarrow' hp hp'

/-- A run that writes nothing, and one of a project that has no network on top of this. -/
theorem resolve_monotone_example :
    ∃ p, resolve exampleBaseline none none (some (.dict exampleRestrictions)) = .ok p ∧
      Narrower exampleRun p := by
  have hdistinct : (Value.dict exampleRestrictions).Distinct := by
    simp only [exampleRestrictions, items, record, List.map, Value.Distinct, itemsDistinct]
    decide
  have hwide : resolve exampleBaseline none none (some (.dict exampleRestrictions)) =
      .ok { exampleRun with network := exampleBaseline.network } := rfl
  have hrun : resolve exampleBaseline (some (.dict exampleProject)) none
      (some (.dict exampleRestrictions)) = .ok exampleRun := rfl
  refine ⟨_, hwide, resolve_monotone (by simp) (by simp) ?_ (Narrower.refl _) (Or.inl rfl)
    (Or.inl rfl) (Or.inr rfl) hwide hrun⟩
  intro value hvalue
  cases hvalue
  exact hdistinct

end AgentDev.Policy
