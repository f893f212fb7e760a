import AgentDev.Interleaving.Sequential
import AgentDev.Providers.Outcome

/-!
# Preparing provider state again and again

`prepare_provider_state` of `broker/daemon.py`. The broker takes no lock around it: requests of one
provider prepare its volumes at the same time, and a run can be killed at any action, also in the middle
of a copy. A run works on a volume from the moment when its script has found no marker there until the
marker has been written or the script has ended.

`Inv` is what the volumes and the stages of the runs keep, and `Moves` what one step may do to the other
runs; `prepares_call` is the rule for one action under both.
-/

namespace AgentDev.Providers

open Python Interleaving Shell Agents

variable {D : Type}

/-! ## The program -/

/-- `.agent-dev-owner-{owner_uid}-{owner_gid}` -/
def ownerMarker (layout : StateVolumeLayout) : Option Str :=
  match layout.ownerUid, layout.ownerGid with
  | some uid, some gid =>
    some (str ".agent-dev-owner-" ++ natRepr uid.toNat ++ str "-" ++ natRepr gid.toNat)
  | _, _ => none

/-- `all(_provider_state_layout_ready(image, layout) for layout in adapter.volumes)` -/
def allReady : List StateVolumeLayout → Process D Bool
  | [] => .ret true
  | layout :: rest =>
    (call (.ready layout.stagingTarget layout.marker)).bind fun ready =>
      if ready then allReady rest else .ret false

/-- The migration script in its container; `check=True` raises unless its status is 0. -/
def migrate (adapter : ProviderStateAdapter) : Process D Unit :=
  (runScript utilities (migrationScript adapter)).bind fun status =>
    if status = 0 then .ret () else .fail (.exited status)

/-- The owner's marker of each volume that has a declared owner. -/
def adjustOwners : List StateVolumeLayout → Process D Unit
  | [] => .ret ()
  | layout :: rest =>
    match ownerMarker layout with
    | none => adjustOwners rest
    | some marker =>
      (call (.ownerReady layout.stagingTarget marker)).bind fun ready =>
        (if ready then .ret () else require (call (.adjustOwner layout.stagingTarget marker))).bind
          fun _ => adjustOwners rest

def prepareProviderState (adapter : ProviderStateAdapter) : Process D Unit :=
  (allReady adapter.volumes).bind fun ready =>
    (if ready then .ret () else migrate adapter).bind fun _ => adjustOwners adapter.volumes

/-! ## Runs at the same time -/

/-- What one run is doing. -/
inductive Stage
  | idle
  /-- The script has found no marker on the volume. -/
  | checking (dir : Str)
  /-- It has found the volume empty. -/
  | filling (dir : Str)
  deriving DecidableEq

/-- The volume that the run works on. -/
def Stage.volume? : Stage → Option Str
  | idle => none
  | checking dir | filling dir => some dir

structure World (D : Type) where
  volumes : Volumes D
  /-- The stages of the runs; no step asks for them. -/
  stage : Nat → Stage

inductive Choice (D : Type)
  /-- The action is performed; `part` is what has been copied so far of an entry. -/
  | go (part : D)
  /-- The container of a check cannot be started. -/
  | refused
  | killed

/-- The stage after an action. -/
def Action.stage : (action : Action D) → Answer action → Stage → Stage
  | .present dir _, answer, stage => if answer = true then stage else .checking dir
  | .first dir, answer, _ => if answer.isSome = true then .idle else .filling dir
  | .create _ _, _, _ => .idle
  | _, _, stage => stage

/-- Whether it is a check in a container of its own. -/
def Action.refusal : (action : Action D) → Option (Answer action)
  | .ready _ _ => some false
  | .ownerReady _ _ => some false
  | _ => none

def Container.exec (box : Container D) (thread : Nat) (action : Action D) (choice : Choice D)
    (world : World D) : Option (Reply action × World D) :=
  match choice with
  | .go part =>
    let (answer, volumes) := box.perform part action world.volumes
    some (some answer, ⟨volumes,
      Function.update world.stage thread (action.stage answer (world.stage thread))⟩)
  | .refused => action.refusal.map fun answer => (some answer, world)
  | .killed => some (none, { world with stage := Function.update world.stage thread .idle })

def Container.machine (box : Container D) : Machine (Reply (D := D)) (World D) (Choice D) where
  exec := box.exec

abbrev Preparation (D : Type) := View (Reply (D := D)) (World D)

/-- No run looks for the marker of a volume that another one is working on. -/
def apart : Guard (Reply (D := D)) (World D) (Choice D) := fun v thread action _ =>
  ∀ dir name, action = .present dir name → ∀ j, j ≠ thread → (v.state.stage j).volume? ≠ some dir

/-- The runs: all of them prepare the state of one provider. -/
def preparations (adapter : ProviderStateAdapter) (volumes : Volumes D) :
    Config (Reply (D := D)) (World D) Ending Unit :=
  ⟨fun _ => prepareProviderState adapter, ⟨⟨volumes, fun _ => .idle⟩, []⟩⟩

/-! ## What holds of the volumes -/

/-- The entries of a volume whose migration is over, but for the marker of its owner. -/
structure Complete (box : Container D) (layout : StateVolumeLayout) (contents : Contents D) : Prop where
  entries : ∀ name, ownerMarker layout ≠ some name →
    contents.lookup name = migrated box layout name
  owner : ∀ name, ownerMarker layout = some name → ∀ node, contents.lookup name = some node →
    ∃ data, node = .file data

/-- The volume has entries, but no marker, and no run is filling it. -/
structure Stuck (box : Container D) (layout : StateVolumeLayout) (world : World D) : Prop where
  unmarked : isMarked box world.volumes layout = false
  nonempty : world.volumes layout.stagingTarget ≠ ∅
  unattended : ∀ i, world.stage i ≠ .filling layout.stagingTarget

/-- The legacy subtree is copied without failures, and has not been prepared itself. -/
structure Migratable (box : Container D) (layout : StateVolumeLayout) : Prop where
  cleanup : ∀ relative ∈ layout.cleanupAfterCopy,
    ((legacySubtree box layout).lookup relative).all (fun node => !node.isDirectory) = true
  marker : (legacySubtree box layout).lookup layout.marker = none
  owner : ∀ name, ownerMarker layout = some name → (legacySubtree box layout).lookup name = none

/-- The run has been killed at this event. -/
def Killed (e : Event (Reply (D := D))) : Prop := e.reply = none

/-! ## What a step of one run does to the others -/

section

variable (box : Container D) (layouts : List StateVolumeLayout)

structure Inv (w : World D) : Prop where
  exclusive : ∀ i j dir, (w.stage i).volume? = some dir → (w.stage j).volume? = some dir → i = j
  complete : ∀ layout ∈ layouts, isMarked box w.volumes layout = true →
    Complete box layout (w.volumes layout.stagingTarget) ∧
      ∀ i, (w.stage i).volume? ≠ some layout.stagingTarget

/-- A step of the run `i`; a volume gets stuck only if it is `lost`. -/
structure Moves (i : Nat) (lost : Str → Prop) (w w' : World D) : Prop where
  others : ∀ j, j ≠ i → w'.stage j = w.stage j
  kept : ∀ j, j ≠ i → ∀ dir, (w.stage j).volume? = some dir → w'.volumes dir = w.volumes dir
  marked : ∀ layout ∈ layouts, isMarked box w.volumes layout = true →
    isMarked box w'.volumes layout = true
  stuck : ∀ layout ∈ layouts, Stuck box layout w →
    w'.volumes layout.stagingTarget = w.volumes layout.stagingTarget ∧ Stuck box layout w'
  fresh : ∀ layout ∈ layouts, Stuck box layout w' → Stuck box layout w ∨ lost layout.stagingTarget

/-- The run works on no other volume than this one. -/
def Stage.Within (dir : Str) (stage : Stage) : Prop := ∀ other, stage.volume? = some other → other = dir

end

section

variable {box : Container D} {layouts : List StateVolumeLayout} {layout : StateVolumeLayout} {i : Nat}
  {lost : Str → Prop} {w : World D}

theorem Moves.refl : Moves box layouts i lost w w where
  others _ _ := rfl
  kept _ _ _ _ := rfl
  marked _ _ h := h
  stuck _ _ h := ⟨rfl, h⟩
  fresh _ _ h := Or.inl h

theorem Stage.within_idle {dir : Str} : Stage.idle.Within dir := by
  intro other h
  cases h

theorem Stage.within_checking {dir : Str} : (Stage.checking dir).Within dir :=
  fun _ h => (Option.some.inj h).symm

theorem Stage.within_filling {dir : Str} : (Stage.filling dir).Within dir :=
  fun _ h => (Option.some.inj h).symm

theorem Stage.idle_ne_filling {dir : Str} : Stage.idle ≠ .filling dir := by
  intro h
  cases h

theorem Stage.Within.ne_filling {stage : Stage} {dir other : Str} (h : stage.Within dir)
    (hne : other ≠ dir) : stage ≠ .filling other := by
  rintro rfl
  exact hne (h other rfl)

/-- A step that is about one volume: its new contents, and the new stage of the run. -/
def World.put (w : World D) (i : Nat) (dir : Str) (contents : Contents D) (stage : Stage) : World D :=
  ⟨Function.update w.volumes dir contents, Function.update w.stage i stage⟩

@[simp] theorem put_volumes_self {dir : Str} {contents : Contents D} {stage : Stage} :
    (w.put i dir contents stage).volumes dir = contents := Function.update_self ..

@[simp] theorem put_volumes_of_ne {dir other : Str} {contents : Contents D} {stage : Stage}
    (h : other ≠ dir) : (w.put i dir contents stage).volumes other = w.volumes other :=
  Function.update_of_ne h ..

@[simp] theorem put_stage_self {dir : Str} {contents : Contents D} {stage : Stage} :
    (w.put i dir contents stage).stage i = stage := Function.update_self ..

@[simp] theorem put_stage_of_ne {dir : Str} {contents : Contents D} {stage : Stage} {j : Nat}
    (h : j ≠ i) : (w.put i dir contents stage).stage j = w.stage j := Function.update_of_ne h ..

/-- No other run works on the volume, and what the step makes of it is not less than it was. -/
structure Change (box : Container D) (layout : StateVolumeLayout) (i : Nat) (lost : Str → Prop)
    (w : World D) (contents : Contents D) (stage : Stage) : Prop where
  before : (w.stage i).Within layout.stagingTarget
  after : stage.Within layout.stagingTarget
  exclusive : ∀ j, j ≠ i → (w.stage j).volume? ≠ some layout.stagingTarget
  complete : box.present layout.marker contents = true →
    Complete box layout contents ∧ stage.volume? = none
  marked : isMarked box w.volumes layout = true → box.present layout.marker contents = true
  stuck : Stuck box layout w → contents = w.volumes layout.stagingTarget ∧
    stage ≠ .filling layout.stagingTarget
  fresh : box.present layout.marker contents = false → contents ≠ ∅ →
    stage ≠ .filling layout.stagingTarget → Stuck box layout w ∨ lost layout.stagingTarget

variable {contents : Contents D} {stage : Stage} {other : StateVolumeLayout}

theorem isMarked_put_self : isMarked box (w.put i layout.stagingTarget contents stage).volumes layout =
    box.present layout.marker contents := by
  rw [isMarked, put_volumes_self]

theorem isMarked_put_of_ne (h : other.stagingTarget ≠ layout.stagingTarget) :
    isMarked box (w.put i layout.stagingTarget contents stage).volumes other =
      isMarked box w.volumes other := by
  rw [isMarked, isMarked, put_volumes_of_ne h]

/-- The run is at one volume at most, before and after. -/
theorem Change.filling_iff (h : Change box layout i lost w contents stage)
    (hne : other.stagingTarget ≠ layout.stagingTarget) (j : Nat) :
    (w.put i layout.stagingTarget contents stage).stage j = .filling other.stagingTarget ↔
      w.stage j = .filling other.stagingTarget := by
  by_cases hj : j = i
  · subst hj
    rw [put_stage_self]
    exact iff_of_false (h.after.ne_filling hne) (h.before.ne_filling hne)
  · rw [put_stage_of_ne hj]

theorem Change.stuck_iff (h : Change box layout i lost w contents stage)
    (hne : other.stagingTarget ≠ layout.stagingTarget) :
    Stuck box other (w.put i layout.stagingTarget contents stage) ↔ Stuck box other w := by
  constructor
  · rintro ⟨hunmarked, hnonempty, hunattended⟩
    rw [put_volumes_of_ne hne] at hnonempty
    rw [isMarked_put_of_ne hne] at hunmarked
    exact ⟨hunmarked, hnonempty, fun j hj => hunattended j ((h.filling_iff hne j).mpr hj)⟩
  · rintro ⟨hunmarked, hnonempty, hunattended⟩
    refine ⟨(isMarked_put_of_ne hne).trans hunmarked, ?_, fun j hj =>
      hunattended j ((h.filling_iff hne j).mp hj)⟩
    rw [put_volumes_of_ne hne]
    exact hnonempty

theorem Change.inv (h : Change box layout i lost w contents stage) (hinv : Inv box layouts w)
    (hother : ∀ other ∈ layouts, other ≠ layout → other.stagingTarget ≠ layout.stagingTarget) :
    Inv box layouts (w.put i layout.stagingTarget contents stage) where
  exclusive := by
    have hself : ∀ k dir, k ≠ i → stage.volume? = some dir → (w.stage k).volume? ≠ some dir := by
      intro k dir hk hdir
      rw [h.after dir hdir]
      exact h.exclusive k hk
    intro j k dir hj hk
    by_cases hji : j = i <;> by_cases hki : k = i
    · exact hji.trans hki.symm
    · subst hji
      rw [put_stage_self] at hj
      rw [put_stage_of_ne hki] at hk
      exact absurd hk (hself k dir hki hj)
    · subst hki
      rw [put_stage_self] at hk
      rw [put_stage_of_ne hji] at hj
      exact absurd hj (hself j dir hji hk)
    · rw [put_stage_of_ne hji] at hj
      rw [put_stage_of_ne hki] at hk
      exact hinv.exclusive j k dir hj hk
  complete := by
    intro other hmem hmarked
    by_cases hne : other = layout
    · subst hne
      rw [isMarked_put_self] at hmarked
      obtain ⟨hcontents, hidle⟩ := h.complete hmarked
      refine ⟨by rwa [put_volumes_self], fun j hj => ?_⟩
      by_cases hji : j = i
      · subst hji
        rw [put_stage_self, hidle] at hj
        cases hj
      · rw [put_stage_of_ne hji] at hj
        exact h.exclusive j hji hj
    · have hdir := hother other hmem hne
      rw [isMarked_put_of_ne hdir] at hmarked
      obtain ⟨hcontents, hidle⟩ := hinv.complete other hmem hmarked
      refine ⟨by rwa [put_volumes_of_ne hdir], fun j hj => ?_⟩
      by_cases hji : j = i
      · subst hji
        rw [put_stage_self] at hj
        exact hdir (h.after _ hj)
      · rw [put_stage_of_ne hji] at hj
        exact hidle j hj

theorem Change.moves (h : Change box layout i lost w contents stage)
    (hother : ∀ other ∈ layouts, other ≠ layout → other.stagingTarget ≠ layout.stagingTarget) :
    Moves box layouts i lost w (w.put i layout.stagingTarget contents stage) where
  others _ hj := put_stage_of_ne hj
  kept j hj dir hdir := by
    apply put_volumes_of_ne
    rintro rfl
    exact h.exclusive j hj hdir
  marked other hmem hmarked := by
    by_cases hne : other = layout
    · subst hne
      exact isMarked_put_self.trans (h.marked hmarked)
    · exact (isMarked_put_of_ne (hother other hmem hne)).trans hmarked
  stuck other hmem hstuck := by
    by_cases hne : other = layout
    · subst hne
      obtain ⟨hsame, hfilling⟩ := h.stuck hstuck
      refine ⟨put_volumes_self.trans hsame, ?_, ?_, fun j hj => ?_⟩
      · rw [isMarked_put_self, hsame]
        exact hstuck.unmarked
      · rw [put_volumes_self, hsame]
        exact hstuck.nonempty
      · by_cases hji : j = i
        · subst hji
          rw [put_stage_self] at hj
          exact hfilling hj
        · rw [put_stage_of_ne hji] at hj
          exact hstuck.unattended j hj
    · have hdir := hother other hmem hne
      exact ⟨put_volumes_of_ne hdir, (h.stuck_iff hdir).mpr hstuck⟩
  fresh other hmem hstuck := by
    by_cases hne : other = layout
    · subst hne
      have hunattended := hstuck.unattended i
      have hnonempty := hstuck.nonempty
      have hunmarked := hstuck.unmarked
      rw [put_stage_self] at hunattended
      rw [put_volumes_self] at hnonempty
      rw [isMarked_put_self] at hunmarked
      exact h.fresh hunmarked hnonempty hunattended
    · exact Or.inl ((h.stuck_iff (hother other hmem hne)).mp hstuck)

end

/-! ## Runs that are prepared for each other -/

section

variable (box : Container D) (layouts : List StateVolumeLayout)

def contract : Contract (Reply (D := D)) (World D) where
  inv v := Inv box layouts v.state
  guar i v v' := ∃ e : Event Reply, e.thread = i ∧ v'.trace = v.trace ++ [e] ∧
    Moves box layouts i (fun dir => Killed e ∧ e.action.volume = some dir) v.state v'.state

/-- The run has been killed, or it does not get past a volume. -/
def Stopped (i : Nat) (error : Ending) (v : Preparation D) : Prop :=
  (error = .interrupted ∧ ∃ e ∈ v.trace, e.thread = i ∧ Killed e) ∨
    ∃ layout ∈ layouts, Stuck box layout v.state

/-- What the process does in the run `i`, whatever the other runs do. -/
abbrev Prepares (i : Nat) (P : World D → Prop) {α : Type} (process : Process D α)
    (Q : α → World D → Prop) : Prop :=
  (contract box layouts).Spec box.machine apart i (fun v => P v.state) process
    (fun value v => Q value v.state) (Stopped box layouts i)

/-- No other run changes what the run `i` knows. -/
def Steady (i : Nat) (P : World D → Prop) : Prop :=
  ∀ j lost w w', j ≠ i → Moves box layouts j lost w w' → P w → P w'

end

section

variable {box : Container D} {layouts : List StateVolumeLayout} {layout : StateVolumeLayout} {i : Nat}
  {P : World D → Prop}

theorem Steady.stable (h : Steady box layouts i P) :
    (contract box layouts).Stable i fun v => P v.state := by
  rintro v v' ⟨-, -, j, hne, e, -, -, hmoves⟩ hv
  exact h j _ _ _ hne hmoves hv

theorem stopped_step {error : Ending} {j : Nat} {v v' : Preparation D}
    (hguar : (contract box layouts).guar j v v') (h : Stopped box layouts i error v) :
    Stopped box layouts i error v' := by
  obtain ⟨e, -, htrace, hmoves⟩ := hguar
  rcases h with ⟨herror, killed, hmem, hkilled⟩ | ⟨layout, hlayout, hstuck⟩
  · exact Or.inl ⟨herror, killed, by rw [htrace]; exact List.mem_append_left _ hmem, hkilled⟩
  · exact Or.inr ⟨layout, hlayout, (hmoves.stuck layout hlayout hstuck).2⟩

theorem stable_stopped (error : Ending) :
    (contract box layouts).Stable i (Stopped box layouts i error) := by
  rintro v v' ⟨-, -, j, -, hguar⟩ hv
  exact stopped_step hguar hv

/-- A run that is killed works on nothing any more. -/
theorem moves_killed {w : World D} (lost : Str → Prop)
    (hother : ∀ other ∈ layouts, other ≠ layout → other.stagingTarget ≠ layout.stagingTarget)
    (hinv : Inv box layouts w) (hlayout : layout ∈ layouts)
    (hstage : (w.stage i).Within layout.stagingTarget)
    (hlost : w.stage i = .filling layout.stagingTarget → w.volumes layout.stagingTarget ≠ ∅ →
      lost layout.stagingTarget) :
    Inv box layouts ⟨w.volumes, Function.update w.stage i .idle⟩ ∧
      Moves box layouts i lost w ⟨w.volumes, Function.update w.stage i .idle⟩ := by
  by_cases hidle : w.stage i = .idle
  · rw [← hidle, Function.update_eq_self]
    exact ⟨hinv, .refl⟩
  · have hvolume : (w.stage i).volume? = some layout.stagingTarget := by
      cases hcase : w.stage i with
      | idle => exact absurd hcase hidle
      | checking dir => rw [Stage.volume?, hstage dir (by rw [hcase]; rfl)]
      | filling dir => rw [Stage.volume?, hstage dir (by rw [hcase]; rfl)]
    have hexclusive : ∀ j, j ≠ i → (w.stage j).volume? ≠ some layout.stagingTarget :=
      fun j hj hother => hj (hinv.exclusive j i _ hother hvolume)
    have hchange : Change box layout i lost w (w.volumes layout.stagingTarget) .idle := {
      before := hstage
      after := Stage.within_idle
      exclusive := hexclusive
      complete := fun hmarked => ⟨(hinv.complete layout hlayout hmarked).1, rfl⟩
      marked := id
      stuck := fun _ => ⟨rfl, Stage.idle_ne_filling⟩
      fresh := by
        intro hunmarked hnonempty _
        by_cases hfilling : w.stage i = .filling layout.stagingTarget
        · exact Or.inr (hlost hfilling hnonempty)
        · refine Or.inl ⟨hunmarked, hnonempty, fun j hj => ?_⟩
          by_cases hji : j = i
          · subst hji
            exact hfilling hj
          · exact hexclusive j hji (by rw [hj]; rfl) }
    have hsame : w.put i layout.stagingTarget (w.volumes layout.stagingTarget) .idle =
        ⟨w.volumes, Function.update w.stage i .idle⟩ := by
      rw [World.put, Function.update_eq_self]
    rw [← hsame]
    exact ⟨hchange.inv hinv hother, hchange.moves hother⟩

theorem refused_of_none {action : Action D} {Q : Answer action → World D → Prop}
    (h : action.refusal = none) :
    ∀ w answer, P w → action.refusal = some answer → Q answer w := by
  intro w answer _ hanswer
  rw [h] at hanswer
  cases hanswer

/-- The world after an action that has not been refused. -/
def Container.next (box : Container D) (part : D) (i : Nat) (action : Action D) (w : World D) : World D :=
  ⟨(box.perform part action w.volumes).2, Function.update w.stage i
    (action.stage (box.perform part action w.volumes).1 (w.stage i))⟩

/-- The rule for one action of the run `i`, which works on `layout` at most. -/
theorem prepares_call {action : Action D} {Q : Answer action → World D → Prop}
    (hother : ∀ other ∈ layouts, other ≠ layout → other.stagingTarget ≠ layout.stagingTarget)
    (hlayout : layout ∈ layouts) (hP : Steady box layouts i P)
    (hQ : ∀ answer, Steady box layouts i (Q answer))
    (hwithin : ∀ w, P w → (w.stage i).Within layout.stagingTarget)
    (hlost : ∀ w, P w → w.stage i = .filling layout.stagingTarget →
      w.volumes layout.stagingTarget ≠ ∅ → action.volume = some layout.stagingTarget)
    (hrefused : ∀ w answer, P w → action.refusal = some answer → Q answer w)
    (hgo : ∀ w part lost, Inv box layouts w → P w →
      (∀ dir name, action = .present dir name → ∀ j, j ≠ i → (w.stage j).volume? ≠ some dir) →
      Inv box layouts (box.next part i action w) ∧
        Moves box layouts i lost w (box.next part i action w) ∧
        Q (box.perform part action w.volumes).1 (box.next part i action w)) :
    Prepares box layouts i P (call action) Q := by
  refine Contract.Spec.act (J := fun reply v =>
    reply.elim (Stopped box layouts i .interrupted v) fun answer => Q answer v.state)
    hP.stable ?_ fun reply => ?_
  · intro v choice reply state hguard hinv hv hexec
    cases choice with
    | go part =>
      cases hexec
      obtain ⟨hinv', hmoves, hanswer⟩ := hgo v.state part _ hinv hv hguard
      exact ⟨hinv', ⟨_, rfl, rfl, hmoves⟩, hanswer⟩
    | refused =>
      obtain ⟨answer, hanswer, heq⟩ := Option.map_eq_some_iff.mp hexec
      cases heq
      exact ⟨hinv, ⟨_, rfl, rfl, .refl⟩, hrefused _ answer hv hanswer⟩
    | killed =>
      cases hexec
      have hevent : Killed (⟨i, action, none⟩ : Event Reply) := rfl
      obtain ⟨hinv', hmoves⟩ := moves_killed (fun dir =>
        Killed (⟨i, action, none⟩ : Event Reply) ∧ action.volume = some dir) hother hinv hlayout
        (hwithin _ hv) fun hfilling hnonempty => ⟨hevent, hlost _ hv hfilling hnonempty⟩
      refine ⟨hinv', ⟨_, rfl, rfl, hmoves⟩, Or.inl ⟨rfl, _, ?_, rfl, hevent⟩⟩
      exact List.mem_append_right _ List.mem_cons_self
  · cases reply with
    | some answer => exact Contract.Spec.ret (hQ answer).stable fun _ h => h
    | none => exact Contract.Spec.fail (stable_stopped _) fun _ h => h

/-- An action that only looks at the volumes. -/
theorem next_of_look {action : Action D} {part : D} {w : World D}
    (hlook : (box.perform part action w.volumes).2 = w.volumes)
    (hstage : action.stage (box.perform part action w.volumes).1 (w.stage i) = w.stage i) :
    box.next part i action w = w := by
  rw [Container.next, hlook, hstage, Function.update_eq_self]

end

end AgentDev.Providers
