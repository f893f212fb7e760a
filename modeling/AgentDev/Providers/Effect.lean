import AgentDev.Providers.Migration

/-!
# The effect of a migration that is not disturbed

The end of the migration script for any volumes at its start. A volume that is empty gets the entries of
its legacy directory, loses those that are to be cleaned up, and gets its marker, if these entries
`Fit`; a volume that is neither empty nor marked stops the script.
-/

namespace AgentDev.Providers

open Python Interleaving Shell Agents

variable {D : Type} (box : Container D) (part : D)

/-- How a process ends that is not killed. -/
def Container.run {α : Type} (process : Process D α) (v : Volumes D) : Except Ending α × Volumes D :=
  process.evaluate (box.undisturbed part) v

/-! ## What is expected of a volume -/

/-- The entries of the legacy directory. -/
def legacySubtree (layout : StateVolumeLayout) : Contents D :=
  (layout.legacyPath.bind fun path => box.legacy (legacyPath path)).getD ∅

/-- What stands at a name after the migration of an empty volume: the legacy subtree without the
cleanup paths, and the marker. -/
def migrated (layout : StateVolumeLayout) (name : Str) : Option (Node D) :=
  if name = layout.marker then some (.file box.empty)
  else if name ∈ layout.cleanupAfterCopy then none
  else (legacySubtree box layout).lookup name

def isMarked (v : Volumes D) (layout : StateVolumeLayout) : Bool :=
  box.present layout.marker (v layout.stagingTarget)

/-- The volume has entries, but not its marker. -/
def isBlocked (v : Volumes D) (layout : StateVolumeLayout) : Bool :=
  !isMarked box v layout && !(v layout.stagingTarget).entries.isEmpty

/-- The legacy subtree has no directory among the cleanup paths, and at the marker nothing else than a
file, or what is cleaned up. -/
structure Fits (layout : StateVolumeLayout) : Prop where
  cleanup : ∀ relative ∈ layout.cleanupAfterCopy,
    ((legacySubtree box layout).lookup relative).all (fun node => !node.isDirectory) = true
  marker : layout.marker ∈ layout.cleanupAfterCopy ∨
    ∀ node, (legacySubtree box layout).lookup layout.marker = some node → ∃ data, node = .file data

/-! ## Single commands -/

variable {box part} {v : Volumes D} {layout : StateVolumeLayout}

theorem run_call (action : Action D) :
    box.run part (call action) v = (.ok (box.perform part action v).1, (box.perform part action v).2) :=
  rfl

theorem run_bind_ok {α β : Type} {process : Process D α} {value : α} {v' : Volumes D}
    (h : box.run part process v = (.ok value, v')) (next : α → Process D β) :
    box.run part (process.bind next) v = box.run part (next value) v' :=
  Program.evaluate_bind_ok h next

theorem run_bind_error {α β : Type} {process : Process D α} {error : Ending} {v' : Volumes D}
    (h : box.run part process v = (.error error, v')) (next : α → Process D β) :
    box.run part (process.bind next) v = (.error error, v') :=
  Program.evaluate_bind_error h next

theorem run_require_true {process : Process D Bool} {v' : Volumes D}
    (h : box.run part process v = (.ok true, v')) :
    box.run part (require process) v = (.ok (), v') :=
  run_bind_ok h _

theorem run_require_false {process : Process D Bool} {v' : Volumes D}
    (h : box.run part process v = (.ok false, v')) :
    box.run part (require process) v = (.error (.exited 1), v') :=
  run_bind_ok h _

theorem change_some {dir : Str} {f : Contents D → Option (Contents D)} {contents : Contents D}
    (h : f (v dir) = some contents) : change dir f v = (true, Function.update v dir contents) := by
  unfold change
  rw [h]

theorem change_none {dir : Str} {f : Contents D → Option (Contents D)} (h : f (v dir) = none) :
    change dir f v = (false, v) := by
  unfold change
  rw [h]

theorem begun_isDirectory (node : Node D) : (node.begun part).isDirectory = node.isDirectory := by
  cases node <;> rfl

/-- Copying entries to a volume that has none of them. -/
theorem run_copyEntries (box : Container D) (part : D) (dir : Str) {entries : List (Σ _ : Str, Node D)} (hnodup : entries.NodupKeys)
    (habsent : ∀ entry ∈ entries, (v dir).lookup entry.1 = none) :
    ∃ v', box.run part (copyEntries dir entries) v = (.ok true, v') ∧
      ∀ name, (v' dir).lookup name = (entries.dlookup name).or ((v dir).lookup name) := by
  induction entries generalizing v with
  | nil => exact ⟨v, rfl, fun name => rfl⟩
  | cons entry rest ih =>
    obtain ⟨name, node⟩ := entry
    have hnone : (v dir).lookup name = none := habsent _ List.mem_cons_self
    have hnotin : name ∉ rest.keys := (List.nodupKeys_cons.mp hnodup).1
    have hbegin : change dir (copy name (node.begun part)) v =
        (true, Function.update v dir ((v dir).insert name (node.begun part))) :=
      change_some (by simp [copy, hnone])
    set w := Function.update v dir ((v dir).insert name (node.begun part)) with hw
    have hend : change dir (copy name node) w =
        (true, Function.update w dir ((w dir).insert name node)) := by
      apply change_some
      simp [copy, hw, begun_isDirectory]
    set w' := Function.update w dir ((w dir).insert name node) with hw'
    have hlookup : ∀ other, (w' dir).lookup other =
        if other = name then some node else (v dir).lookup other := by
      intro other
      by_cases hother : other = name
      · subst hother
        simp [hw']
      · simp [hw', hw, hother]
    obtain ⟨v', hrun, hv'⟩ := ih (v := w') (List.nodupKeys_cons.mp hnodup).2 (by
      intro entry hentry
      have hne : entry.1 ≠ name := fun heq => hnotin (heq ▸ List.mem_keys_of_mem hentry)
      rw [hlookup, if_neg hne]
      exact habsent entry (List.mem_cons_of_mem _ hentry))
    refine ⟨v', ?_, ?_⟩
    · have hfirst : box.run part (call (.beginCopy dir name node)) v = (.ok true, w) := by
        rw [run_call]
        show (Except.ok (change _ _ v).1, (change _ _ v).2) = _
        rw [hbegin]
      have hsecond : box.run part (call (.endCopy dir name node)) w = (.ok true, w') := by
        rw [run_call]
        show (Except.ok (change _ _ w).1, (change _ _ w).2) = _
        rw [hend]
      rw [copyEntries, run_bind_ok hfirst]
      show box.run part ((call (.endCopy dir name node)).bind _) w = _
      rw [run_bind_ok hsecond, run_bind_ok hrun]
      rfl
    · intro other
      rw [hv', hlookup]
      by_cases hother : other = name
      · subst hother
        rw [if_pos rfl, List.dlookup_eq_none.mpr hnotin, List.dlookup_cons_eq]
        rfl
      · rw [if_neg hother, List.dlookup_cons_ne _ _ hother]

/-- Copying the legacy subtree to an empty volume. -/
theorem run_copyLegacy (box : Container D) (part : D) (hempty : v layout.stagingTarget = ∅) :
    ∃ v', box.run part (copyLegacy layout layout.legacyPath) v = (.ok (), v') ∧
      ∀ name, (v' layout.stagingTarget).lookup name = (legacySubtree box layout).lookup name := by
  have hnothing : legacySubtree box layout = ∅ → ∀ name,
      (v layout.stagingTarget).lookup name = (legacySubtree box layout).lookup name := by
    intro hsubtree name
    rw [hempty, hsubtree]
  cases hpath : layout.legacyPath with
  | none => exact ⟨v, rfl, hnothing (by simp [legacySubtree, hpath])⟩
  | some path =>
    have htest : box.run part (call (.isDirectory (legacyPath path))) v =
        (.ok (box.legacy (legacyPath path)).isSome, v) := rfl
    cases hlegacy : box.legacy (legacyPath path) with
    | none =>
      refine ⟨v, ?_, hnothing (by simp [legacySubtree, hpath, hlegacy])⟩
      rw [copyLegacy, run_bind_ok htest, hlegacy]
      rfl
    | some contents =>
      have hsubtree : legacySubtree box layout = contents := by simp [legacySubtree, hpath, hlegacy]
      obtain ⟨v', hrun, hv'⟩ := run_copyEntries box part (v := v) layout.stagingTarget
        contents.nodupKeys fun entry _ => by rw [hempty, AList.lookup_empty]
      have hcopy : box.run part (copyAll (legacyPath path) layout.stagingTarget) v =
          (.ok true, v') := by
        have hlisting : box.run part (call (.listing (legacyPath path))) v =
            (.ok (some contents), v) := by
          rw [← hlegacy]
          rfl
        rw [copyAll, run_bind_ok hlisting]
        exact hrun
      refine ⟨v', ?_, fun name => ?_⟩
      · rw [copyLegacy, run_bind_ok htest, hlegacy]
        exact run_require_true hcopy
      · rw [hv', hempty, AList.lookup_empty, Option.or_none, hsubtree]
        rfl

theorem run_remove {relative : Str}
    (h : ((v layout.stagingTarget).lookup relative).all (fun node => !node.isDirectory) = true) :
    box.run part (require (call (.remove layout.stagingTarget relative))) v =
      (.ok (), Function.update v layout.stagingTarget ((v layout.stagingTarget).erase relative)) := by
  have hremove : remove relative (v layout.stagingTarget) =
      some ((v layout.stagingTarget).erase relative) := by
    unfold remove
    split
    · rename_i data hdata
      rw [hdata] at h
      cases h
    · rfl
  apply run_require_true
  rw [run_call]
  show (Except.ok (change _ _ v).1, (change _ _ v).2) = _
  rw [change_some hremove]

theorem run_remove_directory {relative : Str} {data : D}
    (h : (v layout.stagingTarget).lookup relative = some (.directory data)) :
    box.run part (require (call (.remove layout.stagingTarget relative))) v =
      (.error (.exited 1), v) := by
  have hremove : remove relative (v layout.stagingTarget) = none := by
    unfold remove
    rw [h]
  apply run_require_false
  rw [run_call]
  show (Except.ok (change _ _ v).1, (change _ _ v).2) = _
  rw [change_none hremove]

theorem run_removeAll (box : Container D) (part : D) (relatives : List Str)
    (h : ∀ relative ∈ relatives,
      ((v layout.stagingTarget).lookup relative).all (fun node => !node.isDirectory) = true) :
    ∃ v', box.run part (removeAll layout relatives) v = (.ok (), v') ∧
      ∀ name, (v' layout.stagingTarget).lookup name =
        if name ∈ relatives then none else (v layout.stagingTarget).lookup name := by
  induction relatives generalizing v with
  | nil => exact ⟨v, rfl, fun name => rfl⟩
  | cons relative rest ih =>
    set w := Function.update v layout.stagingTarget ((v layout.stagingTarget).erase relative) with hw
    have hlookup : ∀ name, (w layout.stagingTarget).lookup name =
        if name = relative then none else (v layout.stagingTarget).lookup name := by
      intro name
      by_cases hname : name = relative
      · subst hname
        simp [hw]
      · simp [hw, hname]
    obtain ⟨v', hrun, hv'⟩ := ih (v := w) (by
      intro name hname
      rw [hlookup]
      split
      · rfl
      · exact h name (List.mem_cons_of_mem _ hname))
    refine ⟨v', ?_, fun name => ?_⟩
    · rw [removeAll, run_bind_ok (run_remove (h relative List.mem_cons_self))]
      exact hrun
    · rw [hv', hlookup]
      by_cases hname : name = relative <;> simp [hname]

theorem exists_directory {entry : Option (Node D)}
    (h : ¬entry.all (fun node => !node.isDirectory) = true) : ∃ data, entry = some (.directory data) := by
  cases entry with
  | none => exact absurd rfl h
  | some node =>
    cases node with
    | directory data => exact ⟨data, rfl⟩
    | file data => exact absurd rfl h
    | link target => exact absurd rfl h

/-- A directory is not removed. -/
theorem run_removeAll_directory (box : Container D) (part : D) {relatives : List Str} {name : Str} (hname : name ∈ relatives)
    {data : D} (h : (v layout.stagingTarget).lookup name = some (.directory data)) :
    ∃ v', box.run part (removeAll layout relatives) v = (.error (.exited 1), v') ∧
      (v' layout.stagingTarget).lookup name = some (.directory data) := by
  induction relatives generalizing v with
  | nil => cases hname
  | cons relative rest ih =>
    by_cases hall : ((v layout.stagingTarget).lookup relative).all (fun node => !node.isDirectory) = true
    · have hne : name ≠ relative := by
        rintro rfl
        rw [h] at hall
        cases hall
      have hkept : (Function.update v layout.stagingTarget
          ((v layout.stagingTarget).erase relative) layout.stagingTarget).lookup name =
          some (.directory data) := by
        simp [hne, h]
      obtain ⟨v', hrun, hv'⟩ := ih ((List.mem_cons.mp hname).resolve_left hne) hkept
      refine ⟨v', ?_, hv'⟩
      rw [removeAll, run_bind_ok (run_remove hall)]
      exact hrun
    · obtain ⟨data', hdata⟩ := exists_directory hall
      exact ⟨v, run_bind_error (run_remove_directory hdata) _, h⟩

theorem run_create
    (h : ∀ node, (v layout.stagingTarget).lookup layout.marker = some node → ∃ data, node = .file data) :
    box.run part (require (call (.create layout.stagingTarget layout.marker))) v =
      (.ok (), Function.update v layout.stagingTarget
        ((v layout.stagingTarget).insert layout.marker (.file box.empty))) := by
  have hcreate : box.create layout.marker (v layout.stagingTarget) =
      some ((v layout.stagingTarget).insert layout.marker (.file box.empty)) := by
    unfold Container.create
    split
    · rename_i data hdata
      obtain ⟨_, hfile⟩ := h _ hdata
      cases hfile
    · rename_i target htarget
      obtain ⟨_, hfile⟩ := h _ htarget
      cases hfile
    · rfl
  apply run_require_true
  rw [run_call]
  show (Except.ok (change _ _ v).1, (change _ _ v).2) = _
  rw [change_some hcreate]

/-- Something else than a file stays at the marker. -/
theorem run_create_other {node : Node D}
    (h : (v layout.stagingTarget).lookup layout.marker = some node) (hnode : ∀ data, node ≠ .file data) :
    ((box.run part (require (call (.create layout.stagingTarget layout.marker))) v).2
      layout.stagingTarget).lookup layout.marker = some node := by
  have hkept : ((change layout.stagingTarget (box.create layout.marker) v).2
      layout.stagingTarget).lookup layout.marker = some node := by
    cases hcreate : box.create layout.marker (v layout.stagingTarget) with
    | none => rw [change_none hcreate, h]
    | some contents =>
      rw [change_some hcreate]
      show ((Function.update v layout.stagingTarget contents) layout.stagingTarget).lookup _ = _
      rw [Function.update_self]
      unfold Container.create at hcreate
      rw [h] at hcreate
      cases node with
      | directory data => cases hcreate
      | file data => exact absurd rfl (hnode data)
      | link target => exact box.through_link hcreate h
  cases hchange : change layout.stagingTarget (box.create layout.marker) v with
  | mk ok v' =>
    have hcall : box.run part (call (.create layout.stagingTarget layout.marker)) v = (.ok ok, v') := by
      rw [run_call]
      show (Except.ok (change _ _ v).1, (change _ _ v).2) = _
      rw [hchange]
    rw [hchange] at hkept
    cases ok with
    | true => rwa [run_require_true hcall]
    | false => rwa [run_require_false hcall]

/-! ## One volume -/

/-- The migration of an empty volume that the legacy subtree fits. -/
theorem run_fill (part : D) (hfits : Fits box layout) (hempty : v layout.stagingTarget = ∅) :
    ∃ v', box.run part (fill layout) v = (.ok (), v') ∧
      ∀ name, (v' layout.stagingTarget).lookup name = migrated box layout name := by
  obtain ⟨w, hcopy, hw⟩ := run_copyLegacy box part hempty
  obtain ⟨w', hremove, hw'⟩ := run_removeAll box part (v := w) layout.cleanupAfterCopy
    fun relative hrelative => by
      rw [hw]
      exact hfits.cleanup relative hrelative
  have hmarker : ∀ node, (w' layout.stagingTarget).lookup layout.marker = some node →
      ∃ data, node = .file data := by
    intro node hnode
    rw [hw', hw] at hnode
    split at hnode
    · cases hnode
    · rename_i hkept
      exact hfits.marker.resolve_left hkept node hnode
  refine ⟨Function.update w' layout.stagingTarget
    ((w' layout.stagingTarget).insert layout.marker (.file box.empty)), ?_, fun name => ?_⟩
  · rw [fill, run_bind_ok hcopy, run_bind_ok hremove]
    exact run_create hmarker
  · unfold migrated
    by_cases hname : name = layout.marker
    · rw [if_pos hname, hname, Function.update_self, AList.lookup_insert]
    · rw [if_neg hname, Function.update_self, AList.lookup_insert_ne hname, hw', hw]

/-- The migration of an empty volume that the legacy subtree does not fit. -/
theorem run_fill_unfit (part : D) (hfits : ¬Fits box layout) (hempty : v layout.stagingTarget = ∅) :
    ∃ name, ((box.run part (fill layout) v).2 layout.stagingTarget).lookup name ≠
      migrated box layout name := by
  obtain ⟨w, hcopy, hw⟩ := run_copyLegacy box part hempty
  by_cases hcleanup : ∀ relative ∈ layout.cleanupAfterCopy,
      ((legacySubtree box layout).lookup relative).all (fun node => !node.isDirectory) = true
  · have hmarker : layout.marker ∉ layout.cleanupAfterCopy := fun h => hfits ⟨hcleanup, Or.inl h⟩
    obtain ⟨node, hnode, hother⟩ : ∃ node,
        (legacySubtree box layout).lookup layout.marker = some node ∧ ∀ data, node ≠ .file data := by
      by_contra hnone
      refine hfits ⟨hcleanup, Or.inr fun node hnode => ?_⟩
      by_contra hfile
      exact hnone ⟨node, hnode, fun data heq => hfile ⟨data, heq⟩⟩
    obtain ⟨w', hremove, hw'⟩ := run_removeAll box part (v := w) layout.cleanupAfterCopy
      fun relative hrelative => by
        rw [hw]
        exact hcleanup relative hrelative
    have hkept : (w' layout.stagingTarget).lookup layout.marker = some node := by
      rw [hw', if_neg hmarker, hw, hnode]
    refine ⟨layout.marker, ?_⟩
    rw [fill, run_bind_ok hcopy, run_bind_ok hremove, run_create_other hkept hother, migrated,
      if_pos rfl]
    exact fun heq => hother _ (Option.some.inj heq)
  · push Not at hcleanup
    obtain ⟨relative, hrelative, hdirectory⟩ := hcleanup
    obtain ⟨data, hdata⟩ := exists_directory hdirectory
    obtain ⟨w', hremove, hw'⟩ := run_removeAll_directory box part (v := w) hrelative
      ((hw relative).trans hdata)
    refine ⟨relative, ?_⟩
    rw [fill, run_bind_ok hcopy, run_bind_error hremove, hw', migrated]
    by_cases hname : relative = layout.marker
    · rw [if_pos hname]
      exact fun heq => nomatch heq
    · rw [if_neg hname, if_pos hrelative]
      exact fun heq => nomatch heq

/-! ## Other volumes -/

/-- The process changes no volume but this one. -/
def Stays (dir : Str) {α : Type} (process : Process D α) : Prop :=
  process.Only fun action => ∀ other, action.volume = some other → other = dir

theorem stays_call {dir : Str} {action : Action D} (h : ∀ other, action.volume = some other → other = dir) :
    Stays dir (call action) := by
  refine ⟨h, fun reply => ?_⟩
  cases reply <;> trivial

theorem stays_require {dir : Str} {process : Process D Bool} (h : Stays dir process) :
    Stays dir (require process) := by
  refine Program.only_bind h fun ok => ?_
  cases ok <;> trivial

theorem stays_copyEntries (dir : Str) (entries : List (Σ _ : Str, Node D)) :
    Stays dir (copyEntries dir entries) := by
  induction entries with
  | nil => trivial
  | cons entry rest ih =>
    refine Program.only_bind (stays_call fun other h => (Option.some.inj h).symm) fun begun => ?_
    refine Program.only_bind ?_ fun ended => Program.only_bind ih fun copied => trivial
    cases begun with
    | true => exact stays_call fun other h => (Option.some.inj h).symm
    | false => trivial

theorem stays_copyLegacy (layout : StateVolumeLayout) (path : Option Str) :
    Stays layout.stagingTarget (copyLegacy layout path : Process D Unit) := by
  cases path with
  | none => trivial
  | some path =>
    refine Program.only_bind (stays_call fun _ h => nomatch h) fun isDirectory => ?_
    cases isDirectory with
    | false => trivial
    | true =>
      refine stays_require (Program.only_bind (stays_call fun _ h => nomatch h) fun listing => ?_)
      cases listing with
      | none => trivial
      | some contents => exact stays_copyEntries _ _

theorem stays_removeAll (layout : StateVolumeLayout) (relatives : List Str) :
    Stays layout.stagingTarget (removeAll layout relatives : Process D Unit) := by
  induction relatives with
  | nil => trivial
  | cons relative rest ih =>
    exact Program.only_bind (stays_require (stays_call fun other h => (Option.some.inj h).symm))
      fun _ => ih

theorem stays_fill (layout : StateVolumeLayout) :
    Stays layout.stagingTarget (fill layout : Process D Unit) :=
  Program.only_bind (stays_copyLegacy layout _) fun _ =>
    Program.only_bind (stays_removeAll layout _) fun _ =>
      stays_require (stays_call fun _ h => (Option.some.inj h).symm)

theorem stays_migrateLayout (index : Nat) (layout : StateVolumeLayout) :
    Stays layout.stagingTarget (migrateLayout index layout : Process D Unit) := by
  refine Program.only_bind (stays_call fun other h => (Option.some.inj h).symm) fun present => ?_
  cases present with
  | true => trivial
  | false =>
    refine Program.only_bind (stays_call fun other h => (Option.some.inj h).symm) fun entry => ?_
    cases entry with
    | none => exact stays_fill layout
    | some name => trivial

/-- A process leaves the volumes alone that its actions are not about. -/
theorem run_other {α : Type} {process : Process D α} {dir : Str}
    (h : process.Only fun action => action.volume ≠ some dir) :
    (box.run part process v).2 dir = v dir :=
  Program.evaluate_kept (I := fun w : Volumes D => w dir = v dir) h
    (fun _ _ haction hw => (perform_other haction).trans hw) rfl

theorem Stays.run_other {α : Type} {process : Process D α} {dir dir' : Str} (h : Stays dir process)
    (hne : dir' ≠ dir) : (box.run part process v).2 dir' = v dir' :=
  Providers.run_other (Program.only_mono h fun _ haction heq => hne (haction dir' heq))

theorem migrateFrom_other {layouts : List StateVolumeLayout} {dir : Str} (index : Nat)
    (h : ∀ layout ∈ layouts, layout.stagingTarget ≠ dir) :
    (box.run part (migrateFrom index layouts) v).2 dir = v dir := by
  have honly : ∀ index, (migrateFrom index layouts : Process D Unit).Only
      fun action => action.volume ≠ some dir := by
    induction layouts with
    | nil => exact fun _ => trivial
    | cons layout rest ih =>
      intro index
      refine Program.only_bind ?_ fun _ => ih (fun l hl => h l (List.mem_cons_of_mem _ hl)) _
      exact Program.only_mono (stays_migrateLayout index layout) fun _ haction heq =>
        h layout List.mem_cons_self (haction dir heq).symm
  exact run_other (honly index)

end AgentDev.Providers
