import AgentDev.Agents.Drivers
import AgentDev.Providers.Effect

/-!
# When the migration script does what it is for

The script goes through the volumes in their order and stops at the first one that is neither empty nor
marked (`migrateFrom_effect`). `Migrates` is what it is for, of the text of the script that the shell is
given; it holds under exactly three conditions on the adapter and the volumes (`migrates_iff`): the
keys have to be names to the shell, the legacy subtrees have to fit, and the volume that the script
stops at must not be the one whose status is 256.
-/

namespace AgentDev.Providers

open Python Interleaving Shell Agents

variable {D : Type} (box : Container D) (part : D) (v : Volumes D)

/-- The volumes that the script gets to and past. -/
def passed (layouts : List StateVolumeLayout) : List StateVolumeLayout :=
  layouts.takeWhile fun layout => !isBlocked box v layout

/-- The volume that the script stops at, and those after it. -/
def skipped (layouts : List StateVolumeLayout) : List StateVolumeLayout :=
  layouts.dropWhile fun layout => !isBlocked box v layout

/-- The legacy subtrees that are copied fit. -/
def AllFit (layouts : List StateVolumeLayout) : Prop :=
  ∀ layout ∈ passed box v layouts, isMarked box v layout = false → Fits box layout

/-- The volumes after the script. -/
structure Effect (layouts : List StateVolumeLayout) (v' : Volumes D) : Prop where
  marked : ∀ layout ∈ passed box v layouts, isMarked box v layout = true →
    v' layout.stagingTarget = v layout.stagingTarget
  filled : ∀ layout ∈ passed box v layouts, isMarked box v layout = false →
    ∀ name, (v' layout.stagingTarget).lookup name = migrated box layout name
  skipped : ∀ layout ∈ skipped box v layouts, v' layout.stagingTarget = v layout.stagingTarget

/-- How the migration ends from the volume number `index` on. -/
def ending (index : Nat) (layouts : List StateVolumeLayout) : Except Ending Unit :=
  if layouts.any (isBlocked box v) then
    .error (.exited ((2 + (index + (passed box v layouts).length)) % 256))
  else .ok ()

/-! ## One volume after another -/

variable {box part v} {layout : StateVolumeLayout} {rest : List StateVolumeLayout} {w : Volumes D}

theorem takeWhile_congr {α : Type} {p q : α → Bool} {items : List α} (h : ∀ a ∈ items, p a = q a) :
    items.takeWhile p = items.takeWhile q ∧ items.dropWhile p = items.dropWhile q := by
  induction items with
  | nil => exact ⟨rfl, rfl⟩
  | cons a items ih =>
    obtain ⟨htake, hdrop⟩ := ih fun b hb => h b (List.mem_cons_of_mem a hb)
    simp only [List.takeWhile_cons, List.dropWhile_cons, h a List.mem_cons_self, htake, hdrop,
      and_self]

/-- What the other volumes contain does not matter for what is still to be done. -/
theorem same_elsewhere (box : Container D) (h : ∀ layout ∈ rest, w layout.stagingTarget = v layout.stagingTarget) :
    (∀ layout ∈ rest, isMarked box w layout = isMarked box v layout) ∧
      (∀ layout ∈ rest, isBlocked box w layout = isBlocked box v layout) := by
  constructor
  · intro layout hlayout
    unfold isMarked
    rw [h layout hlayout]
  · intro layout hlayout
    unfold isBlocked isMarked
    rw [h layout hlayout]

theorem passed_congr (h : ∀ layout ∈ rest, isBlocked box w layout = isBlocked box v layout) :
    passed box w rest = passed box v rest ∧ skipped box w rest = skipped box v rest :=
  takeWhile_congr fun layout hlayout => congrArg (!·) (h layout hlayout)

theorem ending_congr (index : Nat)
    (h : ∀ layout ∈ rest, isBlocked box w layout = isBlocked box v layout) :
    ending box w index rest = ending box v index rest := by
  have hany : rest.any (isBlocked box w) = rest.any (isBlocked box v) := by
    rw [Bool.eq_iff_iff, List.any_eq_true, List.any_eq_true]
    constructor
    · rintro ⟨layout, hlayout, hblocked⟩
      exact ⟨layout, hlayout, (h layout hlayout) ▸ hblocked⟩
    · rintro ⟨layout, hlayout, hblocked⟩
      exact ⟨layout, hlayout, (h layout hlayout).symm ▸ hblocked⟩
  unfold ending
  rw [hany, (passed_congr h).1]

section

variable (hblocked : isBlocked box v layout = false)

include hblocked

theorem passed_cons : passed box v (layout :: rest) = layout :: passed box v rest := by
  simp [passed, hblocked]

theorem skipped_cons : skipped box v (layout :: rest) = skipped box v rest := by
  simp [skipped, hblocked]

theorem ending_cons (index : Nat) :
    ending box v index (layout :: rest) = ending box v (index + 1) rest := by
  unfold ending
  rw [List.any_cons, hblocked, Bool.false_or, passed_cons hblocked, List.length_cons]
  have hindex : index + ((passed box v rest).length + 1) =
      index + 1 + (passed box v rest).length := by omega
  rw [hindex]

/-- An unmarked volume that does not stop the script is empty. -/
theorem empty_of_not_blocked (hmarked : isMarked box v layout = false) :
    v layout.stagingTarget = ∅ := by
  unfold isBlocked at hblocked
  rw [hmarked] at hblocked
  apply AList.ext
  simpa using hblocked

end

theorem run_migrateLayout_marked (index : Nat) (h : isMarked box v layout = true) :
    box.run part (migrateLayout index layout) v = (.ok (), v) := by
  have hpresent : box.run part (call (.present layout.stagingTarget layout.marker)) v =
      (.ok true, v) := by
    rw [run_call]
    show (Except.ok (isMarked box v layout), v) = _
    rw [h]
  rw [migrateLayout, run_bind_ok hpresent]
  rfl

theorem run_migrateLayout_blocked (index : Nat) (h : isBlocked box v layout = true) :
    box.run part (migrateLayout index layout) v = (.error (.exited ((2 + index) % 256)), v) := by
  unfold isBlocked at h
  rw [Bool.and_eq_true, Bool.not_eq_true', Bool.not_eq_true'] at h
  have hpresent : box.run part (call (.present layout.stagingTarget layout.marker)) v =
      (.ok false, v) := by
    rw [run_call]
    show (Except.ok (isMarked box v layout), v) = _
    rw [h.1]
  have hfirst : box.run part (call (.first layout.stagingTarget)) v =
      (.ok (v layout.stagingTarget).keys.head?, v) := rfl
  obtain ⟨name, hname⟩ : ∃ name, (v layout.stagingTarget).keys.head? = some name := by
    cases hentries : (v layout.stagingTarget).entries with
    | nil => simp [hentries] at h
    | cons entry rest => exact ⟨entry.1, by simp [AList.keys, List.keys, hentries]⟩
  rw [migrateLayout, run_bind_ok hpresent]
  show box.run part ((call (.first layout.stagingTarget)).bind _) v = _
  rw [run_bind_ok hfirst, hname]
  rfl

theorem run_migrateLayout_empty (index : Nat) (hblocked : isBlocked box v layout = false)
    (hmarked : isMarked box v layout = false) :
    box.run part (migrateLayout index layout) v = box.run part (fill layout) v := by
  have hpresent : box.run part (call (.present layout.stagingTarget layout.marker)) v =
      (.ok false, v) := by
    rw [run_call]
    show (Except.ok (isMarked box v layout), v) = _
    rw [hmarked]
  have hfirst : box.run part (call (.first layout.stagingTarget)) v = (.ok none, v) := by
    rw [run_call]
    show (Except.ok (v layout.stagingTarget).keys.head?, v) = _
    rw [empty_of_not_blocked hblocked hmarked]
    rfl
  rw [migrateLayout, run_bind_ok hpresent]
  show box.run part ((call (.first layout.stagingTarget)).bind _) v = _
  rw [run_bind_ok hfirst]
  rfl

theorem run_migrateLayout_fits (box : Container D) (part : D) (index : Nat)
    (hblocked : isBlocked box v layout = false)
    (hfits : isMarked box v layout = false → Fits box layout) :
    ∃ w, box.run part (migrateLayout index layout) v = (.ok (), w) ∧
      (isMarked box v layout = true → w layout.stagingTarget = v layout.stagingTarget) ∧
      (isMarked box v layout = false →
        ∀ name, (w layout.stagingTarget).lookup name = migrated box layout name) := by
  cases hmarked : isMarked box v layout with
  | true => exact ⟨v, run_migrateLayout_marked index hmarked, fun _ => rfl, nofun⟩
  | false =>
    obtain ⟨w, hrun, hw⟩ := run_fill part (hfits hmarked) (empty_of_not_blocked hblocked hmarked)
    exact ⟨w, (run_migrateLayout_empty index hblocked hmarked).trans hrun, nofun, fun _ => hw⟩

/-- What one volume leaves for the others. -/
theorem after_migrateLayout {index : Nat} {result : Except Ending Unit}
    (hnodup : ((layout :: rest).map fun layout => layout.stagingTarget).Nodup)
    (hrun : box.run part (migrateLayout index layout) v = (result, w)) :
    ∀ other ∈ rest, w other.stagingTarget = v other.stagingTarget := by
  intro other hother
  have hne : other.stagingTarget ≠ layout.stagingTarget := fun heq =>
    (List.nodup_cons.mp hnodup).1 (List.mem_map.mpr ⟨other, hother, heq⟩)
  have hstays : (box.run part (migrateLayout index layout) v).2 other.stagingTarget =
      v other.stagingTarget := (stays_migrateLayout index layout).run_other hne
  rwa [hrun] at hstays

theorem ne_of_mem_rest (hnodup : ((layout :: rest).map fun layout => layout.stagingTarget).Nodup) :
    ∀ other ∈ rest, other.stagingTarget ≠ layout.stagingTarget := fun other hother heq =>
  (List.nodup_cons.mp hnodup).1 (List.mem_map.mpr ⟨other, hother, heq⟩)

/-- The migration of volumes whose legacy subtrees fit. -/
theorem migrateFrom_effect (box : Container D) (part : D) (layouts : List StateVolumeLayout)
    (index : Nat) (hnodup : (layouts.map fun layout => layout.stagingTarget).Nodup)
    (hfits : AllFit box v layouts) :
    ∃ v', box.run part (migrateFrom index layouts) v = (ending box v index layouts, v') ∧
      Effect box v layouts v' := by
  induction layouts generalizing index v with
  | nil => exact ⟨v, rfl, List.forall_mem_nil _, List.forall_mem_nil _, List.forall_mem_nil _⟩
  | cons layout rest ih =>
    cases hblocked : isBlocked box v layout with
    | true =>
      have hpassed : passed box v (layout :: rest) = [] := by simp [passed, hblocked]
      refine ⟨v, ?_, ⟨?_, ?_, fun _ _ => rfl⟩⟩
      · rw [migrateFrom, run_bind_error (run_migrateLayout_blocked index hblocked), ending,
          List.any_cons, hblocked, hpassed]
        rfl
      · rw [hpassed]
        exact List.forall_mem_nil _
      · rw [hpassed]
        exact List.forall_mem_nil _
    | false =>
      have hpassed : passed box v (layout :: rest) = layout :: passed box v rest :=
        passed_cons hblocked
      obtain ⟨w, hrun, hmarked, hfilled⟩ := run_migrateLayout_fits box part index hblocked
        (hfits layout (hpassed ▸ List.mem_cons_self))
      have hothers := after_migrateLayout hnodup hrun
      obtain ⟨hmarks, hblocks⟩ := same_elsewhere box hothers
      obtain ⟨hpassed', hskipped'⟩ := passed_congr hblocks
      have hmem : ∀ other ∈ passed box v rest, other ∈ rest := fun other h =>
        (List.takeWhile_sublist _).mem h
      obtain ⟨v', hrun', heffect⟩ := ih (index + 1) (List.nodup_cons.mp hnodup).2 (by
        intro other hother hmark
        rw [hpassed'] at hother
        rw [hmarks other (hmem other hother)] at hmark
        exact hfits other (hpassed ▸ List.mem_cons_of_mem _ hother) hmark)
      have hkept : v' layout.stagingTarget = w layout.stagingTarget := by
        have hother : (box.run part (migrateFrom (index + 1) rest) w).2 layout.stagingTarget =
            w layout.stagingTarget := migrateFrom_other (index + 1) (ne_of_mem_rest hnodup)
        rwa [hrun'] at hother
      refine ⟨v', ?_, ⟨?_, ?_, ?_⟩⟩
      · rw [migrateFrom, run_bind_ok hrun, hrun', ending_congr _ hblocks, ending_cons hblocked]
      · rw [hpassed]
        intro other hother hmark
        rcases List.mem_cons.mp hother with rfl | hother
        · rw [hkept, hmarked hmark]
        · rw [← hmarks other (hmem other hother)] at hmark
          rw [heffect.marked other (hpassed' ▸ hother) hmark, hothers other (hmem other hother)]
      · rw [hpassed]
        intro other hother hmark name
        rcases List.mem_cons.mp hother with rfl | hother
        · rw [hkept, hfilled hmark]
        · rw [← hmarks other (hmem other hother)] at hmark
          exact heffect.filled other (hpassed' ▸ hother) hmark name
      · rw [skipped_cons hblocked]
        intro other hother
        rw [heffect.skipped other (hskipped' ▸ hother),
          hothers other ((List.dropWhile_sublist _).mem hother)]

/-- A legacy subtree that does not fit leaves its volume as it should not be. -/
theorem migrateFrom_unfit (box : Container D) (part : D) (layouts : List StateVolumeLayout)
    (index : Nat) (hnodup : (layouts.map fun layout => layout.stagingTarget).Nodup)
    (hunfit : ¬AllFit box v layouts) :
    ∃ layout ∈ passed box v layouts, isMarked box v layout = false ∧ ∃ name,
      ((box.run part (migrateFrom index layouts) v).2 layout.stagingTarget).lookup name ≠
        migrated box layout name := by
  induction layouts generalizing index v with
  | nil => exact absurd nofun hunfit
  | cons layout rest ih =>
    cases hblocked : isBlocked box v layout with
    | true =>
      have hpassed : passed box v (layout :: rest) = [] := by simp [passed, hblocked]
      refine absurd ?_ hunfit
      unfold AllFit
      rw [hpassed]
      exact nofun
    | false =>
      have hpassed : passed box v (layout :: rest) = layout :: passed box v rest :=
        passed_cons hblocked
      by_cases hfits : isMarked box v layout = false → Fits box layout
      · obtain ⟨w, hrun, -, -⟩ := run_migrateLayout_fits box part index hblocked hfits
        obtain ⟨hmarks, hblocks⟩ := same_elsewhere box (after_migrateLayout hnodup hrun)
        obtain ⟨hpassed', -⟩ := passed_congr hblocks
        have hmem : ∀ other ∈ passed box v rest, other ∈ rest := fun other h =>
          (List.takeWhile_sublist _).mem h
        obtain ⟨other, hother, hmark, hname⟩ := ih (v := w) (index + 1)
          (List.nodup_cons.mp hnodup).2 (by
            intro hall
            refine hunfit fun other hother hmark => ?_
            rcases List.mem_cons.mp (hpassed ▸ hother) with rfl | hother
            · exact hfits hmark
            · rw [← hmarks other (hmem other hother)] at hmark
              exact hall other (hpassed' ▸ hother) hmark)
        rw [hpassed'] at hother
        rw [hmarks other (hmem other hother)] at hmark
        refine ⟨other, hpassed ▸ List.mem_cons_of_mem _ hother, hmark, ?_⟩
        rw [migrateFrom, run_bind_ok hrun]
        exact hname
      · obtain ⟨hmark, hunfit'⟩ := Classical.not_imp.mp hfits
        obtain ⟨name, hname⟩ := run_fill_unfit part hunfit'
          (empty_of_not_blocked hblocked hmark)
        refine ⟨layout, hpassed ▸ List.mem_cons_self, hmark, name, ?_⟩
        rw [← run_migrateLayout_empty index hblocked hmark] at hname
        cases hrun : box.run part (migrateLayout index layout) v with
        | mk result w =>
          rw [hrun] at hname
          cases result with
          | error error =>
            rw [migrateFrom, run_bind_error hrun]
            exact hname
          | ok =>
            rw [migrateFrom, run_bind_ok hrun, migrateFrom_other _ (ne_of_mem_rest hnodup)]
            exact hname

/-! ## The script -/

def exitStatus : Except Ending Nat → Option Nat
  | .ok status => some status
  | .error (.exited status) => some status
  | .error _ => none

/-- How the script ends that is made from the adapter. -/
def Container.migration (box : Container D) (part : D) (adapter : ProviderStateAdapter)
    (v : Volumes D) : Except Ending Nat × Volumes D :=
  box.run part (runScript utilities (migrationScript adapter)) v

/-- What the script is for. -/
structure Migrates (box : Container D) (part : D) (adapter : ProviderStateAdapter) (v : Volumes D) :
    Prop where
  names : ∀ name ∈ assigned 0 adapter.volumes, isIdentifier name = true
  effect : Effect box v adapter.volumes (box.migration part adapter v).2
  fails : adapter.volumes.any (isBlocked box v) = true →
    ∃ status ≠ 0, exitStatus (box.migration part adapter v).1 = some status
  succeeds : adapter.volumes.any (isBlocked box v) = false →
    exitStatus (box.migration part adapter v).1 = some 0

theorem key_ne_nil (layout : StateVolumeLayout) : layout.key ≠ [] := by
  have hchecked := layout.checked
  unfold StateVolumeLayout.Fields.postInit at hchecked
  obtain ⟨_, hkey, -⟩ := Policy.bind_ok_iff.mp hchecked
  have hvalid := ensure_ok.mp hkey
  unfold validText at hvalid
  simp only [Bool.and_eq_true, decide_eq_true_eq] at hvalid
  exact hvalid.1.1

theorem isIdentifier_append {name tail : Str} (hne : name ≠ []) (htail : tail.all Shell.isNameChar = true) :
    isIdentifier (name ++ tail) = isIdentifier name := by
  cases name with
  | nil => exact absurd rfl hne
  | cons c rest =>
    show (isLetter c && (rest ++ tail).all Shell.isNameChar) = (isLetter c && rest.all Shell.isNameChar)
    rw [List.all_append, htail, Bool.and_true]

theorem markerVar_succ (index : Nat) (layout : StateVolumeLayout) :
    isIdentifier (markerVar (index + 1) layout) = isIdentifier layout.key := by
  show isIdentifier (layout.key ++ str "_marker") = _
  exact isIdentifier_append (key_ne_nil layout) (by decide +kernel)

theorem mem_assigned_succ {index : Nat} {layouts : List StateVolumeLayout} :
    (∀ name ∈ assigned (index + 1) layouts, isIdentifier name = true) ↔
      ∀ layout ∈ layouts, isIdentifier layout.key = true := by
  induction layouts generalizing index with
  | nil => simp [assigned]
  | cons layout rest ih =>
    rw [assigned, List.forall_mem_cons, List.forall_mem_cons, markerVar_succ, ih]

/-- The variable of the first volume has a name of its own. -/
theorem mem_assigned {layouts : List StateVolumeLayout} :
    (∀ name ∈ assigned 0 layouts, isIdentifier name = true) ↔
      ∀ layout ∈ layouts.tail, isIdentifier layout.key = true := by
  cases layouts with
  | nil => simp [assigned]
  | cons layout rest =>
    have hfirst : isIdentifier (markerVar 0 layout) = true := by
      show isIdentifier (str "marker") = true
      decide +kernel
    rw [assigned, List.forall_mem_cons, mem_assigned_succ]
    exact and_iff_right hfirst

/-- The script of an adapter whose names are names to the shell. -/
theorem migration_eq {adapter : ProviderStateAdapter} {result : Except Ending Unit} {v' : Volumes D}
    (hplain : ∀ layout ∈ adapter.volumes, PlainNames layout)
    (hname : ∀ name ∈ assigned 0 adapter.volumes, isIdentifier name = true)
    (hrun : box.run part (migrateFrom 0 adapter.volumes) v = (result, v')) :
    box.migration part adapter v = (result.map fun _ => 0, v') := by
  unfold Container.migration
  rw [runScript_migrationScript hplain hname]
  cases result with
  | error error => exact run_bind_error hrun _
  | ok => exact run_bind_ok hrun _

/-- A container with a legacy volume of Codex: credentials, and a configuration that is cleaned up. -/
def codexContainer : Container Nat where
  empty := 0
  legacy path :=
    if path = str "/legacy/.codex" then
      some (((∅ : Contents Nat).insert (str "auth.json") (.file 1)).insert (str "config.toml") (.file 2))
    else none
  tools := ["/bin/bash", "/bin/find", "/bin/grep", "/bin/cp", "/bin/rm"].map str
  owned _ := true
  leads _ _ := false
  through _ _ := none
  through_link := nofun

theorem codexVolume_plain : ∀ layout ∈ codexStateAdapter.volumes, PlainNames layout := by
  intro layout hlayout
  rw [List.mem_singleton.mp (show layout ∈ [codexStateVolume] from hlayout)]
  exact ⟨by decide +kernel, by decide +kernel⟩

theorem codexVolume_separate : Separate codexContainer codexStateAdapter := by decide +kernel

theorem codexVolume_fits : AllFit codexContainer (fun _ => ∅) codexStateAdapter.volumes := by
  intro layout hlayout _
  have hmem : layout ∈ [codexStateVolume] := (List.takeWhile_sublist _).mem hlayout
  rw [List.mem_singleton.mp hmem]
  refine ⟨by decide +kernel, Or.inr fun node hnode => ?_⟩
  have hnone : (legacySubtree codexContainer codexStateVolume).lookup codexStateVolume.marker =
      none := by decide +kernel
  rw [hnone] at hnode
  cases hnode

/-- The state mounts of a provider that is declared by `ProviderStateAdapter.static`. -/
def staticMounts : List ProviderStateSpec :=
  [⟨⟨str "first-state", str "/first", false⟩, by decide +kernel⟩,
    ⟨⟨str "second-state", str "/second", false⟩, by decide +kernel⟩]

end AgentDev.Providers
