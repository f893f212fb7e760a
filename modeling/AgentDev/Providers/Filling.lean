import AgentDev.Providers.Preparation

/-!
# Filling a volume while others are prepared

What a run knows of a volume from the moment when it looks for the marker: that it is being checked,
which entries it has got so far, that it is marked. Each command of the migration, and the check and the
adjustment of the owner, takes the run from one to the next, whatever the other runs do.
-/

namespace AgentDev.Providers

open Python Interleaving Shell Agents

variable {D : Type}

section

variable {box : Container D} {layouts : List StateVolumeLayout} {layout : StateVolumeLayout} {i : Nat}
  {P : World D → Prop}

/-! ## Filling a volume -/

/-- The run works on nothing. -/
def Idle (i : Nat) (w : World D) : Prop := w.stage i = .idle

/-- The run fills the volume, in which there are these entries. -/
structure Filling (i : Nat) (layout : StateVolumeLayout) (entry : Str → Option (Node D)) (w : World D) :
    Prop where
  stage : w.stage i = .filling layout.stagingTarget
  entries : ∀ name, (w.volumes layout.stagingTarget).lookup name = entry name

variable {entry entry' : Str → Option (Node D)} {w : World D}

theorem steady_idle : Steady box layouts i (Idle i) :=
  fun _ _ _ _ hj hmoves hw => (hmoves.others i (Ne.symm hj)).trans hw

theorem steady_filling : Steady box layouts i (Filling i layout entry) := by
  intro j _ w w' hj hmoves hw
  refine ⟨(hmoves.others i (Ne.symm hj)).trans hw.stage, fun name => ?_⟩
  rw [hmoves.kept i (Ne.symm hj) _ (by rw [hw.stage]; rfl)]
  exact hw.entries name

theorem Idle.within {dir : Str} (h : Idle i w) : (w.stage i).Within dir := by
  intro other hother
  rw [h] at hother
  cases hother

theorem Filling.within (h : Filling i layout entry w) :
    (w.stage i).Within layout.stagingTarget := by
  intro other hother
  rw [h.stage] at hother
  exact (Option.some.inj hother).symm

theorem Filling.empty (h : Filling i layout (fun _ => none) w) :
    w.volumes layout.stagingTarget = ∅ := by
  have hentries : (w.volumes layout.stagingTarget).entries = [] := by
    rw [List.eq_nil_iff_forall_not_mem]
    intro item hmem
    have hsome := AList.mem_lookup_iff.mpr hmem
    rw [h.entries] at hsome
    cases hsome
  exact AList.ext hentries

theorem present_of_none {contents : Contents D} {name : Str} (h : contents.lookup name = none) :
    box.present name contents = false := by
  rw [Container.present, h]
  rfl

theorem present_of_file {contents : Contents D} {name : Str} {data : D}
    (h : contents.lookup name = some (.file data)) : box.present name contents = true := by
  rw [Container.present, h]
  rfl

/-- What the run makes of the volume that it fills. -/
theorem Filling.change {contents : Contents D} {stage : Stage} {lost : Str → Prop}
    (h : Filling i layout entry w) (hinv : Inv box layouts w) (hlayout : layout ∈ layouts)
    (hafter : stage.Within layout.stagingTarget)
    (hcomplete : box.present layout.marker contents = true →
      Complete box layout contents ∧ stage.volume? = none)
    (hstage : box.present layout.marker contents = false → stage = w.stage i) :
    Change box layout i lost w contents stage where
  before := h.within
  after := hafter
  exclusive j hj hother := hj (hinv.exclusive j i _ hother (by rw [h.stage]; rfl))
  complete := hcomplete
  marked hmarked := absurd (by rw [h.stage]; rfl) ((hinv.complete layout hlayout hmarked).2 i)
  stuck hstuck := absurd h.stage (hstuck.unattended i)
  fresh hunmarked _ hfilling := absurd ((hstage hunmarked).trans h.stage) hfilling

/-- What is copied is a directory exactly when it was one before. -/
theorem copy_some (name : Str) (node : Node D) (contents : Contents D)
    (h : (contents.lookup name).all (fun old => old.isDirectory == node.isDirectory) = true) :
    copy name node contents = some (contents.insert name node) := by
  rw [copy, if_neg]
  cases hlookup : contents.lookup name with
  | none => exact Bool.false_ne_true
  | some old =>
    rw [hlookup] at h
    simpa using h

theorem lookup_insert_ite (name other : Str) (node : Node D) (contents : Contents D) :
    (contents.insert name node).lookup other = if other = name then some node else contents.lookup other := by
  by_cases hother : other = name
  · rw [if_pos hother, hother, AList.lookup_insert]
  · rw [if_neg hother, AList.lookup_insert_ne hother]

theorem lookup_erase_ite (name other : Str) (contents : Contents D) :
    (contents.erase name).lookup other = if other = name then none else contents.lookup other := by
  by_cases hother : other = name
  · rw [if_pos hother, hother, AList.lookup_erase]
  · rw [if_neg hother, AList.lookup_erase_ne hother]

/-- The process goes on only if a command has not failed. -/
theorem prepares_require {Q : World D → Prop} {process : Process D Bool}
    (hQ : Steady box layouts i Q)
    (h : Prepares box layouts i P process fun ok w => ok = true ∧ Q w) :
    Prepares box layouts i P (require process) fun _ => Q := by
  refine h.bind fun ok => ?_
  rintro v ⟨rfl, hv⟩
  exact Contract.Spec.ret hQ.stable (fun _ h => h) v hv

section

variable (hother : ∀ other ∈ layouts, other ≠ layout → other.stagingTarget ≠ layout.stagingTarget)
  (hlayout : layout ∈ layouts)

include hother hlayout

/-- An action by which an entry of the volume is changed. -/
theorem fills_step {name : Str} {node : Option (Node D)} {f : Contents D → Option (Contents D)}
    (lost : Str → Prop) (hmarker : Function.update entry name node layout.marker = none)
    (h : Filling i layout entry w) (hinv : Inv box layouts w)
    (hf : ∃ contents, f (w.volumes layout.stagingTarget) = some contents ∧ ∀ other,
      contents.lookup other = if other = name then node
        else (w.volumes layout.stagingTarget).lookup other) :
    (Providers.change layout.stagingTarget f w.volumes).1 = true ∧
      ∃ w', w' = ⟨(Providers.change layout.stagingTarget f w.volumes).2,
          Function.update w.stage i (w.stage i)⟩ ∧
        Inv box layouts w' ∧ Moves box layouts i lost w w' ∧
        Filling i layout (Function.update entry name node) w' := by
  obtain ⟨contents, hcontents, hlookup⟩ := hf
  have hunmarked : box.present layout.marker contents = false := by
    apply present_of_none
    rw [hlookup, h.entries, ← Function.update_apply, hmarker]
  have hchange : Change box layout i lost w contents (w.stage i) :=
    h.change hinv hlayout h.within (fun hmarked => by rw [hunmarked] at hmarked; cases hmarked)
      fun _ => rfl
  rw [change_some hcontents]
  refine ⟨rfl, _, rfl, hchange.inv hinv hother, hchange.moves hother, ?_, fun other => ?_⟩
  · exact put_stage_self.trans h.stage
  · refine (congrArg (AList.lookup other) put_volumes_self).trans ?_
    rw [hlookup, Function.update_apply, h.entries]

theorem prepares_beginCopy {name : Str} (node : Node D) (hname : name ≠ layout.marker)
    (hmarker : entry layout.marker = none) (habsent : entry name = none) :
    Prepares box layouts i (Filling i layout entry)
      (call (.beginCopy layout.stagingTarget name node))
      (fun begun w => begun = true ∧
        ∃ part, Filling i layout (Function.update entry name (some (node.begun part))) w) := by
  refine prepares_call hother hlayout steady_filling ?_ (fun w hw => hw.within)
    (fun w _ _ _ => rfl) (refused_of_none rfl) fun w part lost hinv hw _ => ?_
  · rintro begun j lost w w' hj hmoves ⟨hbegun, part, hw⟩
    exact ⟨hbegun, part, steady_filling j lost w w' hj hmoves hw⟩
  · have hcopy := copy_some name (node.begun part) (w.volumes layout.stagingTarget) (by
      rw [hw.entries, habsent]
      rfl)
    obtain ⟨hok, w', hw', hinv', hmoves, hfilling⟩ := fills_step hother hlayout lost
      (by rwa [Function.update_of_ne hname.symm]) hw hinv ⟨_, hcopy, fun other => lookup_insert_ite ..⟩
    subst hw'
    exact ⟨hinv', hmoves, hok, part, hfilling⟩

theorem prepares_endCopy {name : Str} {node : Node D} {part : D} (hname : name ≠ layout.marker)
    (hmarker : entry layout.marker = none) :
    Prepares box layouts i
      (Filling i layout (Function.update entry name (some (node.begun part))))
      (call (.endCopy layout.stagingTarget name node))
      (fun ended w => ended = true ∧ Filling i layout (Function.update entry name (some node)) w) := by
  refine prepares_call hother hlayout steady_filling ?_ (fun w hw => hw.within)
    (fun w _ _ _ => rfl) (refused_of_none rfl) fun w part' lost hinv hw _ => ?_
  · rintro ended j lost w w' hj hmoves ⟨hended, hw⟩
    exact ⟨hended, steady_filling j lost w w' hj hmoves hw⟩
  · have hcopy := copy_some name node (w.volumes layout.stagingTarget) (by
      rw [hw.entries, Function.update_self]
      cases node <;> rfl)
    obtain ⟨hok, w', hw', hinv', hmoves, hfilling⟩ := fills_step hother hlayout lost
      (by rwa [Function.update_idem, Function.update_of_ne hname.symm]) hw hinv
      ⟨_, hcopy, fun other => lookup_insert_ite ..⟩
    subst hw'
    rw [Function.update_idem] at hfilling
    exact ⟨hinv', hmoves, hok, hfilling⟩

theorem prepares_remove {name : Str} (hmarker : entry layout.marker = none)
    (hnode : (entry name).all (fun node => !node.isDirectory) = true) :
    Prepares box layouts i (Filling i layout entry) (call (.remove layout.stagingTarget name))
      (fun removed w => removed = true ∧ Filling i layout (Function.update entry name none) w) := by
  refine prepares_call hother hlayout steady_filling ?_ (fun w hw => hw.within)
    (fun w _ _ _ => rfl) (refused_of_none rfl) fun w part lost hinv hw _ => ?_
  · rintro removed j lost w w' hj hmoves ⟨hremoved, hw⟩
    exact ⟨hremoved, steady_filling j lost w w' hj hmoves hw⟩
  · have hremove : remove name (w.volumes layout.stagingTarget) =
        some ((w.volumes layout.stagingTarget).erase name) := by
      rw [← hw.entries] at hnode
      unfold remove
      split
      · rename_i data hdata
        rw [hdata] at hnode
        cases hnode
      · rfl
    have hmarker' : Function.update entry name none layout.marker = none := by
      rw [Function.update_apply, hmarker, ite_self]
    obtain ⟨hok, w', hw', hinv', hmoves, hfilling⟩ := fills_step hother hlayout lost hmarker' hw hinv
      ⟨_, hremove, fun other => lookup_erase_ite ..⟩
    subst hw'
    exact ⟨hinv', hmoves, hok, hfilling⟩

/-- Copying entries to a volume that has none of them; the induction is on what is left to copy. -/
theorem prepares_copyEntries {entries : List (Σ _ : Str, Node D)} (hnodup : entries.NodupKeys)
    (hnames : ∀ item ∈ entries, item.1 ≠ layout.marker) (hmarker : entry layout.marker = none)
    (habsent : ∀ item ∈ entries, entry item.1 = none) :
    Prepares box layouts i (Filling i layout entry) (copyEntries layout.stagingTarget entries)
      (fun copied w => copied = true ∧
        Filling i layout (fun name => (entries.dlookup name).or (entry name)) w) := by
  induction entries generalizing entry with
  | nil => exact Contract.Spec.ret steady_filling.stable fun v hv => ⟨rfl, hv⟩
  | cons item rest ih =>
    obtain ⟨name, node⟩ := item
    have hname := hnames _ List.mem_cons_self
    have hnotin : name ∉ rest.keys := (List.nodupKeys_cons.mp hnodup).1
    refine (prepares_beginCopy hother hlayout node hname hmarker (habsent _ List.mem_cons_self)).bind
      fun begun => ?_
    rintro v ⟨rfl, part, hv⟩
    refine Contract.Spec.bind (prepares_endCopy hother hlayout hname hmarker) (fun ended => ?_) v hv
    rintro v ⟨rfl, hv⟩
    have hrest := @ih (Function.update entry name (some node)) (List.nodupKeys_cons.mp hnodup).2
      (fun item hitem => hnames item (List.mem_cons_of_mem _ hitem))
      ((Function.update_of_ne hname.symm ..).trans hmarker) fun item hitem => by
        have hne : item.1 ≠ name := fun heq => hnotin (heq ▸ List.mem_keys_of_mem hitem)
        rw [Function.update_of_ne hne]
        exact habsent item (List.mem_cons_of_mem _ hitem)
    refine hrest.bind (fun copied => ?_) v hv
    rintro v ⟨rfl, hv⟩
    refine Contract.Spec.ret steady_filling.stable (fun v hv => ⟨rfl, hv⟩) v ⟨hv.stage, fun other => ?_⟩
    rw [hv.entries]
    by_cases hother : other = name
    · subst hother
      rw [List.dlookup_eq_none.mpr hnotin, List.dlookup_cons_eq, Function.update_self]
      rfl
    · rw [List.dlookup_cons_ne _ _ hother, Function.update_of_ne hother]

/-- An action of the run that only looks, while it fills an empty volume. -/
theorem prepares_look {action : Action D} {Q : Answer action → Prop}
    (hlook : ∀ part v, (box.perform part action v).2 = v)
    (hstage : ∀ answer stage, action.stage answer stage = stage) (hrefusal : action.refusal = none)
    (hanswer : ∀ part v, Q (box.perform part action v).1) :
    Prepares box layouts i (Filling i layout fun _ => none) (call action)
      (fun answer w => Q answer ∧ Filling i layout (fun _ => none) w) := by
  refine prepares_call hother hlayout steady_filling ?_ (fun w hw => hw.within)
    (fun w hw _ hnonempty => absurd hw.empty hnonempty)
    (refused_of_none hrefusal) fun w part lost hinv hw _ => ?_
  · rintro answer j lost w w' hj hmoves ⟨hanswer, hw⟩
    exact ⟨hanswer, steady_filling j lost w w' hj hmoves hw⟩
  · rw [next_of_look (hlook part w.volumes) (hstage _ _)]
    exact ⟨hinv, .refl, hanswer part w.volumes, hw⟩

theorem prepares_copyLegacy (hmarker : (legacySubtree box layout).lookup layout.marker = none) :
    Prepares box layouts i (Filling i layout fun _ => none) (copyLegacy layout layout.legacyPath)
      (fun _ => Filling i layout fun name => (legacySubtree box layout).lookup name) := by
  have hnothing : legacySubtree box layout = ∅ → ∀ w, Filling i layout (fun _ => none) w →
      Filling i layout (fun name => (legacySubtree box layout).lookup name) w := by
    intro hsubtree w hw
    rw [hsubtree]
    exact hw
  cases hpath : layout.legacyPath with
  | none =>
    exact Contract.Spec.ret steady_filling.stable fun v hv =>
      hnothing (by simp [legacySubtree, hpath]) _ hv
  | some path =>
    have htest : Prepares box layouts i (Filling i layout fun _ => none)
        (call (.isDirectory (legacyPath path)) : Process D Bool)
        (fun isDirectory w => isDirectory = (box.legacy (legacyPath path)).isSome ∧
          Filling i layout (fun _ => none) w) :=
      prepares_look hother hlayout (fun _ _ => rfl) (fun _ _ => rfl) rfl fun _ _ => rfl
    refine htest.bind fun isDirectory => ?_
    rintro v ⟨rfl, hv⟩
    cases hlegacy : box.legacy (legacyPath path) with
    | none =>
      exact Contract.Spec.ret steady_filling.stable (fun v hv =>
        hnothing (by simp [legacySubtree, hpath, hlegacy]) _ hv) v hv
    | some contents =>
      have hsubtree : legacySubtree box layout = contents := by simp [legacySubtree, hpath, hlegacy]
      have hlisting : Prepares box layouts i (Filling i layout fun _ => none)
          (call (.listing (legacyPath path)) : Process D (Option (Contents D)))
          (fun listing w => listing = some contents ∧ Filling i layout (fun _ => none) w) :=
        prepares_look hother hlayout (fun _ _ => rfl) (fun _ _ => rfl) rfl fun _ _ => hlegacy
      have hmissing : layout.marker ∉ contents.keys := by
        rw [← hsubtree]
        exact AList.lookup_eq_none.mp hmarker
      refine prepares_require steady_filling ?_ v hv
      refine hlisting.bind fun listing => ?_
      rintro v ⟨rfl, hv⟩
      have hcopied := @prepares_copyEntries _ box layouts layout i (fun _ => none) hother hlayout _
        contents.nodupKeys
        (fun item hitem heq => hmissing (heq ▸ List.mem_keys_of_mem hitem)) rfl fun _ _ => rfl
      refine hcopied.weaken (fun _ h => h) (fun copied w hw => ?_) (fun _ _ h => h) v hv
      refine ⟨hw.1, hw.2.stage, fun name => ?_⟩
      rw [hw.2.entries, Option.or_none, hsubtree]
      rfl

theorem prepares_removeAll {relatives : List Str} (hmarker : entry layout.marker = none)
    (hnodes : ∀ relative ∈ relatives, (entry relative).all (fun node => !node.isDirectory) = true) :
    Prepares box layouts i (Filling i layout entry) (removeAll layout relatives)
      (fun _ => Filling i layout fun name => if name ∈ relatives then none else entry name) := by
  induction relatives generalizing entry with
  | nil =>
    refine Contract.Spec.ret steady_filling.stable fun v hv => ⟨hv.stage, fun name => ?_⟩
    rw [hv.entries, if_neg List.not_mem_nil]
  | cons relative rest ih =>
    have hmarker' : Function.update entry relative none layout.marker = none := by
      rw [Function.update_apply, hmarker, ite_self]
    have hrest := @ih (Function.update entry relative none) hmarker' fun name hname => by
      rw [Function.update_apply]
      split
      · rfl
      · exact hnodes name (List.mem_cons_of_mem _ hname)
    refine Contract.Spec.bind (prepares_require steady_filling
      (prepares_remove hother hlayout hmarker (hnodes relative List.mem_cons_self))) fun _ => ?_
    refine hrest.weaken (fun _ h => h) (fun _ v hv => ?_) fun _ _ h => h
    refine ⟨hv.stage, fun name => ?_⟩
    rw [hv.entries, Function.update_apply]
    by_cases hname : name = relative <;> simp [hname]

/-- The volume has its marker. -/
def Marked (box : Container D) (layout : StateVolumeLayout) (w : World D) : Prop :=
  isMarked box w.volumes layout = true

omit hother in
theorem steady_marked : Steady box layouts i (Marked box layout) :=
  fun _ _ _ _ _ hmoves hw => hmoves.marked layout hlayout hw

omit hother in
theorem steady_marked_idle : Steady box layouts i fun w => Idle i w ∧ Marked box layout w := by
  intro j lost w w' hj hmoves hw
  exact ⟨steady_idle j lost w w' hj hmoves hw.1, steady_marked hlayout j lost w w' hj hmoves hw.2⟩

/-- The marker is the last entry that a volume gets. -/
theorem prepares_create (hmarker : entry layout.marker = none)
    (hentry : ∀ name ≠ layout.marker, entry name = migrated box layout name)
    (howner : ∀ name, ownerMarker layout = some name → entry name = none) :
    Prepares box layouts i (Filling i layout entry)
      (call (.create layout.stagingTarget layout.marker))
      (fun created w => created = true ∧ Idle i w ∧ Marked box layout w) := by
  refine prepares_call hother hlayout steady_filling ?_ (fun w hw => hw.within)
    (fun w _ _ _ => rfl) (refused_of_none rfl) fun w part lost hinv hw _ => ?_
  · intro created j lost w w' hj hmoves hw
    exact ⟨hw.1, steady_marked_idle hlayout j lost w w' hj hmoves hw.2⟩
  · set contents := (w.volumes layout.stagingTarget).insert layout.marker (.file box.empty)
      with hcontents
    have hlookup : ∀ name, contents.lookup name =
        if name = layout.marker then some (.file box.empty) else entry name := by
      intro name
      rw [hcontents, lookup_insert_ite, hw.entries]
    have hcreate : box.create layout.marker (w.volumes layout.stagingTarget) = some contents := by
      unfold Container.create
      rw [hw.entries, hmarker]
    have hpresent : box.present layout.marker contents = true :=
      present_of_file ((hlookup layout.marker).trans (if_pos rfl))
    have hcomplete : Complete box layout contents := {
      entries := fun name _ => by
        rw [hlookup]
        by_cases hname : name = layout.marker
        · rw [if_pos hname, migrated, if_pos hname]
        · rw [if_neg hname, hentry name hname]
      owner := fun name hname node hnode => by
        rw [hlookup, howner name hname] at hnode
        split at hnode
        · cases hnode
          exact ⟨_, rfl⟩
        · cases hnode }
    have hchange : Change box layout i lost w contents .idle :=
      hw.change hinv hlayout Stage.within_idle (fun _ => ⟨hcomplete, rfl⟩) fun hunmarked => by
        rw [hpresent] at hunmarked
        cases hunmarked
    have hperform : box.perform part (.create layout.stagingTarget layout.marker) w.volumes =
        (true, Function.update w.volumes layout.stagingTarget contents) := change_some hcreate
    have hnext : box.next part i (.create layout.stagingTarget layout.marker) w =
        w.put i layout.stagingTarget contents .idle := by
      rw [Container.next, hperform]
      rfl
    rw [hnext, hperform]
    exact ⟨hchange.inv hinv hother, hchange.moves hother, rfl, put_stage_self,
      isMarked_put_self.trans hpresent⟩

theorem prepares_fill (hmigratable : Migratable box layout) :
    Prepares box layouts i (Filling i layout fun _ => none) (fill layout)
      (fun _ w => Idle i w ∧ Marked box layout w) := by
  refine (prepares_copyLegacy hother hlayout hmigratable.marker).bind fun _ => ?_
  refine (prepares_removeAll hother hlayout hmigratable.marker hmigratable.cleanup).bind fun _ => ?_
  refine prepares_require (steady_marked_idle hlayout)
    (prepares_create hother hlayout ?_ (fun name hname => ?_) fun name howner => ?_)
  · rw [hmigratable.marker, ite_self]
  · rw [migrated, if_neg hname]
  · rw [hmigratable.owner name howner, ite_self]

/-- The run has found no marker. -/
structure Checking (i : Nat) (box : Container D) (layout : StateVolumeLayout) (w : World D) : Prop where
  stage : w.stage i = .checking layout.stagingTarget
  unmarked : isMarked box w.volumes layout = false

omit hother hlayout in
theorem steady_checking : Steady box layouts i (Checking i box layout) := by
  intro j _ w w' hj hmoves hw
  have hkept := hmoves.kept i (Ne.symm hj) layout.stagingTarget (by rw [hw.stage]; rfl)
  refine ⟨(hmoves.others i (Ne.symm hj)).trans hw.stage, ?_⟩
  rw [isMarked, hkept]
  exact hw.unmarked

omit hother hlayout in
theorem Checking.within (h : Checking i box layout w) : (w.stage i).Within layout.stagingTarget := by
  intro other hother
  rw [h.stage] at hother
  exact (Option.some.inj hother).symm

omit hother hlayout in
theorem Checking.stuck (h : Checking i box layout w) (hinv : Inv box layouts w)
    (hnonempty : w.volumes layout.stagingTarget ≠ ∅) : Stuck box layout w := by
  refine ⟨h.unmarked, hnonempty, fun j hj => ?_⟩
  have hji : j = i := hinv.exclusive j i _ (by rw [hj]; rfl) (by rw [h.stage]; rfl)
  subst hji
  rw [h.stage] at hj
  cases hj

/-- A volume with its marker is left alone; the other ones are attended to from here on. -/
theorem prepares_present :
    Prepares box layouts i (Idle i) (call (.present layout.stagingTarget layout.marker))
      (fun present w => if present = true then Idle i w ∧ Marked box layout w
        else Checking i box layout w) := by
  refine prepares_call hother hlayout steady_idle (fun answer => ?_) (fun w hw => Idle.within hw)
    (fun w _ _ _ => rfl) (refused_of_none rfl) fun w part lost hinv hw hguard => ?_
  · intro j lost w w' hj hmoves hw
    cases answer with
    | true => exact steady_marked_idle hlayout j lost w w' hj hmoves hw
    | false => exact steady_checking j lost w w' hj hmoves hw
  · cases hmarked : isMarked box w.volumes layout with
    | true =>
      have hanswer : (box.perform part (.present layout.stagingTarget layout.marker) w.volumes).1 =
          true := hmarked
      rw [next_of_look rfl (by rw [hanswer]; rfl), hanswer]
      exact ⟨hinv, .refl, hw, hmarked⟩
    | false =>
      have hfree := hguard _ _ rfl
      have hchange : Change box layout i lost w (w.volumes layout.stagingTarget)
          (.checking layout.stagingTarget) := {
        before := Idle.within hw
        after := Stage.within_checking
        exclusive := hfree
        complete := fun h => by
          have hunmarked : box.present layout.marker (w.volumes layout.stagingTarget) = false := hmarked
          rw [hunmarked] at h
          cases h
        marked := id
        stuck := fun _ => ⟨rfl, fun h => by cases h⟩
        fresh := fun _ hnonempty _ => Or.inl ⟨hmarked, hnonempty, fun j hj => by
          by_cases hji : j = i
          · subst hji
            rw [hw] at hj
            cases hj
          · exact hfree j hji (by rw [hj]; rfl)⟩ }
      have hanswer : (box.perform part (.present layout.stagingTarget layout.marker) w.volumes).1 =
          false := hmarked
      have hnext : box.next part i (.present layout.stagingTarget layout.marker) w =
          w.put i layout.stagingTarget (w.volumes layout.stagingTarget)
            (.checking layout.stagingTarget) := by
        rw [Container.next, hanswer, World.put, Function.update_eq_self]
        rfl
      rw [hnext, hanswer]
      exact ⟨hchange.inv hinv hother, hchange.moves hother, put_stage_self,
        isMarked_put_self.trans hmarked⟩

theorem prepares_first :
    Prepares box layouts i (Checking i box layout) (call (.first layout.stagingTarget))
      (fun entry w => if entry.isSome = true then Stuck box layout w
        else Filling i layout (fun _ => none) w) := by
  refine prepares_call hother hlayout steady_checking (fun answer => ?_) (fun w hw => hw.within)
    (fun w _ _ _ => rfl) (refused_of_none rfl) fun w part lost hinv hw _ => ?_
  · intro j lost w w' hj hmoves hw
    cases answer with
    | some name => exact (hmoves.stuck layout hlayout hw).2
    | none => exact steady_filling j lost w w' hj hmoves hw
  · have hexclusive : ∀ j, j ≠ i → (w.stage j).volume? ≠ some layout.stagingTarget :=
      fun j hj hother => hj (hinv.exclusive j i _ hother (by rw [hw.stage]; rfl))
    have hunmarked : box.present layout.marker (w.volumes layout.stagingTarget) = false := hw.unmarked
    have hput : ∀ stage, (⟨w.volumes, Function.update w.stage i stage⟩ : World D) =
        w.put i layout.stagingTarget (w.volumes layout.stagingTarget) stage := by
      intro stage
      rw [World.put, Function.update_eq_self]
    -- the entry decides whether the run goes on with this volume
    have hchange : ∀ stage : Stage, stage.Within layout.stagingTarget →
        (w.volumes layout.stagingTarget ≠ ∅ → stage ≠ .filling layout.stagingTarget) →
        Change box layout i lost w (w.volumes layout.stagingTarget) stage := fun stage hafter hstage => {
      before := hw.within
      after := hafter
      exclusive := hexclusive
      complete := fun h => by
        rw [hunmarked] at h
        cases h
      marked := id
      stuck := fun hstuck => ⟨rfl, hstage hstuck.nonempty⟩
      fresh := fun _ hnonempty _ => Or.inl (hw.stuck hinv hnonempty) }
    have hnext : box.next part i (.first layout.stagingTarget) w =
        ⟨w.volumes, Function.update w.stage i
          (Action.stage (.first layout.stagingTarget)
            (w.volumes layout.stagingTarget).keys.head? (w.stage i))⟩ := rfl
    have hanswer : (box.perform part (.first layout.stagingTarget) w.volumes).1 =
        (w.volumes layout.stagingTarget).keys.head? := rfl
    rw [hnext, hanswer, hput]
    cases hhead : (w.volumes layout.stagingTarget).keys.head? with
    | some name =>
      have hnonempty : w.volumes layout.stagingTarget ≠ ∅ := by
        intro hempty
        rw [hempty] at hhead
        cases hhead
      have hdone := hchange .idle Stage.within_idle fun _ => Stage.idle_ne_filling
      exact ⟨hdone.inv hinv hother, hdone.moves hother,
        ((hdone.moves hother).stuck layout hlayout (hw.stuck hinv hnonempty)).2⟩
    | none =>
      have hempty : w.volumes layout.stagingTarget = ∅ := by
        apply AList.ext
        simpa [AList.keys, List.keys] using hhead
      have hdone := hchange (.filling layout.stagingTarget) Stage.within_filling
        fun h => absurd hempty h
      refine ⟨hdone.inv hinv hother, hdone.moves hother, put_stage_self, fun name => ?_⟩
      show AList.lookup name ((w.put i _ _ _).volumes layout.stagingTarget) = none
      rw [put_volumes_self, hempty, AList.lookup_empty]

theorem prepares_migrateLayout (hmigratable : Migratable box layout) (index : Nat) :
    Prepares box layouts i (Idle i) (migrateLayout index layout)
      (fun _ w => Idle i w ∧ Marked box layout w) := by
  refine (prepares_present hother hlayout).bind fun present => ?_
  cases present with
  | true =>
    exact Contract.Spec.ret (steady_marked_idle hlayout).stable fun v hv => hv
  | false =>
    refine Contract.Spec.bind (prepares_first hother hlayout) fun entry => ?_
    cases entry with
    | some name =>
      refine Contract.Spec.fail (P := fun v => Stuck box layout v.state) ?_ fun v hv =>
        Or.inr ⟨layout, hlayout, hv⟩
      rintro v v' ⟨-, -, j, -, e, -, -, hmoves⟩ hv
      exact (hmoves.stuck layout hlayout hv).2
    | none => exact prepares_fill hother hlayout hmigratable

theorem prepares_ready :
    Prepares box layouts i (Idle i) (call (.ready layout.stagingTarget layout.marker))
      (fun ready w => Idle i w ∧ (ready = true → Marked box layout w)) := by
  refine prepares_call hother hlayout steady_idle (fun answer => ?_) (fun w hw => Idle.within hw)
    (fun w _ _ _ => rfl) (fun w answer hw h => ?_) fun w part lost hinv hw _ => ?_
  · intro j lost w w' hj hmoves hw
    exact ⟨steady_idle j lost w w' hj hmoves hw.1,
      fun h => steady_marked hlayout j lost w w' hj hmoves (hw.2 h)⟩
  · cases h
    exact ⟨hw, fun h => absurd h Bool.false_ne_true⟩
  · rw [next_of_look rfl rfl]
    exact ⟨hinv, .refl, hw, id⟩

theorem prepares_ownerReady (marker : Str) :
    Prepares box layouts i (fun w => Idle i w ∧ Marked box layout w)
      (call (.ownerReady layout.stagingTarget marker))
      (fun _ w => True ∧ Idle i w ∧ Marked box layout w) := by
  refine prepares_call hother hlayout (steady_marked_idle hlayout) (fun _ => ?_)
    (fun w hw => Idle.within hw.1) (fun w _ _ _ => rfl) (fun w _ hw _ => ⟨trivial, hw⟩)
    fun w part lost hinv hw _ => ?_
  · intro j lost w w' hj hmoves hw
    exact ⟨trivial, steady_marked_idle hlayout j lost w w' hj hmoves hw.2⟩
  · rw [next_of_look rfl rfl]
    exact ⟨hinv, .refl, trivial, hw⟩

/-- A complete volume gets the marker of its owner, and nothing else changes in it. -/
theorem prepares_adjustOwner {marker : Str} (hmarker : ownerMarker layout = some marker) :
    Prepares box layouts i (fun w => Idle i w ∧ Marked box layout w)
      (call (.adjustOwner layout.stagingTarget marker))
      (fun adjusted w => adjusted = true ∧ Idle i w ∧ Marked box layout w) := by
  refine prepares_call hother hlayout (steady_marked_idle hlayout) (fun _ => ?_)
    (fun w hw => Idle.within hw.1) (fun w _ _ _ => rfl) (refused_of_none rfl)
    fun w part lost hinv hw _ => ?_
  · intro j lost w w' hj hmoves hw
    exact ⟨hw.1, steady_marked_idle hlayout j lost w w' hj hmoves hw.2⟩
  · obtain ⟨hcomplete, hfree⟩ := hinv.complete layout hlayout hw.2
    set contents := (w.volumes layout.stagingTarget).insert marker (.file box.empty) with hcontents
    have hlookup : ∀ name, contents.lookup name =
        if name = marker then some (.file box.empty)
        else (w.volumes layout.stagingTarget).lookup name :=
      fun name => lookup_insert_ite ..
    have hcreate : box.create marker (w.volumes layout.stagingTarget) = some contents := by
      unfold Container.create
      cases hnode : (w.volumes layout.stagingTarget).lookup marker with
      | none => rfl
      | some node =>
        obtain ⟨data, rfl⟩ := hcomplete.owner marker hmarker node hnode
        rfl
    have hfile : contents.lookup layout.marker = some (.file box.empty) := by
      by_cases hname : layout.marker = marker
      · rw [hlookup, if_pos hname]
      · have hne : ownerMarker layout ≠ some layout.marker := by
          rw [hmarker]
          exact fun heq => hname (Option.some.inj heq).symm
        rw [hlookup, if_neg hname, hcomplete.entries layout.marker hne, migrated, if_pos rfl]
    have hpresent : box.present layout.marker contents = true := present_of_file hfile
    have hkept : Complete box layout contents := {
      entries := fun name hname => by
        have hne : name ≠ marker := fun heq => hname (heq ▸ hmarker)
        rw [hlookup, if_neg hne]
        exact hcomplete.entries name hname
      owner := fun name hname node hnode => by
        rw [hmarker] at hname
        cases hname
        rw [hlookup, if_pos rfl] at hnode
        cases hnode
        exact ⟨_, rfl⟩ }
    have hchange : Change box layout i lost w contents (w.stage i) := {
      before := Idle.within hw.1
      after := Idle.within hw.1
      exclusive := fun j _ => hfree j
      complete := fun _ => ⟨hkept, by rw [hw.1]; rfl⟩
      marked := fun _ => hpresent
      stuck := fun hstuck => by
        have hunmarked := hstuck.unmarked
        rw [hw.2] at hunmarked
        cases hunmarked
      fresh := fun hunmarked _ _ => by
        rw [hpresent] at hunmarked
        cases hunmarked }
    have hperform : box.perform part (.adjustOwner layout.stagingTarget marker) w.volumes =
        (true, Function.update w.volumes layout.stagingTarget contents) := change_some hcreate
    have hnext : box.next part i (.adjustOwner layout.stagingTarget marker) w =
        w.put i layout.stagingTarget contents (w.stage i) := by
      rw [Container.next, hperform]
      rfl
    rw [hnext, hperform]
    exact ⟨hchange.inv hinv hother, hchange.moves hother, rfl, put_stage_self.trans hw.1,
      isMarked_put_self.trans hpresent⟩

end

end

end AgentDev.Providers
