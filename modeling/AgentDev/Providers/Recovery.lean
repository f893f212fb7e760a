import AgentDev.Providers.Filling

/-!
# What many preparations leave

When no two runs of `prepare_provider_state` work on one volume at the same time, a marked volume is
complete, and a run that has returned has left all volumes complete (`preparation_spec`). A run that is
killed while it fills a volume leaves it `Stuck`: no later run gets past it.
-/

namespace AgentDev.Providers

open Python Interleaving Shell Agents

variable {D : Type}

section

variable {box : Container D} {layouts : List StateVolumeLayout} {layout : StateVolumeLayout} {i : Nat}
  {P : World D → Prop}

/-! ## All volumes -/

/-- A marked volume stays marked, whatever a process does. -/
theorem Prepares.marked {α : Type} {process : Process D α} {Q : α → World D → Prop}
    {done : List StateVolumeLayout} (hdone : ∀ layout ∈ done, layout ∈ layouts)
    (h : Prepares box layouts i P process Q) :
    Prepares box layouts i (fun w => P w ∧ ∀ layout ∈ done, Marked box layout w) process
      (fun value w => Q value w ∧ ∀ layout ∈ done, Marked box layout w) := by
  refine Contract.Spec.weaken (Contract.Spec.frame
    (F := fun v => ∀ layout ∈ done, Marked box layout v.state) ?_ h) (fun _ h => h) (fun _ _ h => h)
    fun _ _ h => h.1
  rintro j v v' - - ⟨e, -, -, hmoves⟩ hv layout hlayout
  exact hmoves.marked layout (hdone layout hlayout) (hv layout hlayout)

/-- The run works on nothing, and all volumes are marked. -/
def Ready (box : Container D) (layouts : List StateVolumeLayout) (i : Nat) (w : World D) : Prop :=
  Idle i w ∧ ∀ layout ∈ layouts, Marked box layout w

theorem steady_ready : Steady box layouts i (Ready box layouts i) := by
  intro j lost w w' hj hmoves hw
  exact ⟨steady_idle j lost w w' hj hmoves hw.1,
    fun layout hlayout => hmoves.marked layout hlayout (hw.2 layout hlayout)⟩

theorem Prepares.ready {α : Type} {process : Process D α} {p : α → Prop} (hlayout : layout ∈ layouts)
    (h : Prepares box layouts i (fun w => Idle i w ∧ Marked box layout w) process
      fun value w => p value ∧ Idle i w ∧ Marked box layout w) :
    Prepares box layouts i (Ready box layouts i) process
      fun value w => p value ∧ Ready box layouts i w :=
  Contract.Spec.weaken (Prepares.marked (fun _ h => h) h)
    (fun _ hv => ⟨⟨hv.1, hv.2 layout hlayout⟩, hv.2⟩) (fun _ _ hv => ⟨hv.1.1, hv.1.2.1, hv.2⟩)
    fun _ _ h => h

section

variable (hapart : ∀ layout ∈ layouts, ∀ other ∈ layouts, other ≠ layout →
    other.stagingTarget ≠ layout.stagingTarget)

include hapart

theorem prepares_allReady {some : List StateVolumeLayout} (hsome : ∀ layout ∈ some, layout ∈ layouts) :
    Prepares box layouts i (Idle i) (allReady some)
      (fun ready w => Idle i w ∧ (ready = true → ∀ layout ∈ some, Marked box layout w)) := by
  induction some with
  | nil => exact Contract.Spec.ret steady_idle.stable fun v hv => ⟨hv, fun _ => List.forall_mem_nil _⟩
  | cons layout rest ih =>
    have hlayout := hsome layout List.mem_cons_self
    refine (prepares_ready (hapart layout hlayout) hlayout).bind fun ready => ?_
    cases ready with
    | false =>
      refine Contract.Spec.ret (P := fun v => Idle i v.state ∧ _) ?_ fun v hv => ⟨hv.1, nofun⟩
      exact steady_idle.stable.and (Contract.Stable.imp nofun)
    | true =>
      have hrest := Prepares.marked (fun other hother => List.mem_singleton.mp hother ▸ hlayout)
        (ih fun other hother => hsome other (List.mem_cons_of_mem _ hother))
      refine hrest.weaken (fun v hv => ⟨hv.1, ?_⟩) (fun ready v hv => ?_) fun _ _ h => h
      · exact List.forall_mem_singleton.mpr (hv.2 rfl)
      · obtain ⟨⟨hidle, hmarked⟩, hfirst⟩ := hv
        exact ⟨hidle, fun h => List.forall_mem_cons.mpr
          ⟨hfirst layout List.mem_cons_self, hmarked h⟩⟩

/-- The volumes are filled one after another; those behind stay marked. -/
theorem prepares_migrateFrom {some : List StateVolumeLayout} (index : Nat)
    (hsome : ∀ layout ∈ some, layout ∈ layouts)
    (hmigratable : ∀ layout ∈ layouts, Migratable box layout) :
    Prepares box layouts i (Idle i) (migrateFrom index some)
      (fun _ w => Idle i w ∧ ∀ layout ∈ some, Marked box layout w) := by
  induction some generalizing index with
  | nil => exact Contract.Spec.ret steady_idle.stable fun v hv => ⟨hv, List.forall_mem_nil _⟩
  | cons layout rest ih =>
    have hlayout := hsome layout List.mem_cons_self
    refine (prepares_migrateLayout (hapart layout hlayout) hlayout
      (hmigratable layout hlayout) index).bind fun _ => ?_
    have hrest := Prepares.marked (fun other hother => List.mem_singleton.mp hother ▸ hlayout)
      (ih (index + 1) fun other hother => hsome other (List.mem_cons_of_mem _ hother))
    refine hrest.weaken (fun v hv => ⟨hv.1, List.forall_mem_singleton.mpr hv.2⟩)
      (fun _ v hv => ?_) fun _ _ h => h
    obtain ⟨⟨hidle, hmarked⟩, hfirst⟩ := hv
    exact ⟨hidle, List.forall_mem_cons.mpr ⟨hfirst layout List.mem_cons_self, hmarked⟩⟩

theorem prepares_adjustOwners {some : List StateVolumeLayout}
    (hsome : ∀ layout ∈ some, layout ∈ layouts) :
    Prepares box layouts i (Ready box layouts i) (adjustOwners some)
      (fun _ => Ready box layouts i) := by
  induction some with
  | nil => exact Contract.Spec.ret steady_ready.stable fun _ h => h
  | cons layout rest ih =>
    have hlayout := hsome layout List.mem_cons_self
    have hother := hapart layout hlayout
    have hrest := ih fun other hother => hsome other (List.mem_cons_of_mem _ hother)
    rw [adjustOwners]
    cases howner : ownerMarker layout with
    | none => exact hrest
    | some marker =>
      refine Contract.Spec.bind (Prepares.ready hlayout
        (prepares_ownerReady hother hlayout marker)) fun ready => ?_
      refine Contract.Spec.bind (Q := fun _ v => Ready box layouts i v.state) ?_ fun _ => hrest
      cases ready with
      | true =>
        exact (Contract.Spec.ret steady_ready.stable fun _ h => h).weaken (fun _ hv => hv.2)
          (fun _ _ h => h) fun _ _ h => h
      | false =>
        refine Contract.Spec.weaken (prepares_require steady_ready
          (Prepares.ready hlayout (prepares_adjustOwner hother hlayout howner))) (fun _ hv => hv.2)
          (fun _ _ h => h) fun _ _ h => h

end

theorem Separate.ne (h : Separate box adapter) :
    ∀ layout ∈ adapter.volumes, ∀ other ∈ adapter.volumes, other ≠ layout →
      other.stagingTarget ≠ layout.stagingTarget :=
  fun _ hlayout _ hother hne heq =>
    hne (List.inj_on_of_nodup_map h.nodup hother hlayout heq)

theorem prepares_provider {adapter : ProviderStateAdapter}
    (hplain : ∀ layout ∈ adapter.volumes, PlainNames layout) (hseparate : Separate box adapter)
    (hname : ∀ name ∈ assigned 0 adapter.volumes, isIdentifier name = true)
    (hmigratable : ∀ layout ∈ adapter.volumes, Migratable box layout) :
    Prepares box adapter.volumes i (Idle i) (prepareProviderState adapter)
      (fun _ => Ready box adapter.volumes i) := by
  have hapart := hseparate.ne
  have hmigrate : (migrate adapter : Process D Unit) =
      (migrateFrom 0 adapter.volumes).bind fun _ => .ret () := by
    rw [migrate, runScript_migrationScript hplain hname, Program.bind_assoc]
    rfl
  refine (prepares_allReady hapart fun _ h => h).bind fun ready => ?_
  refine Contract.Spec.bind (Q := fun _ v => Ready box adapter.volumes i v.state) ?_
    fun _ => prepares_adjustOwners hapart fun _ h => h
  cases ready with
  | true =>
    exact (Contract.Spec.ret steady_ready.stable fun _ h => h).weaken (fun v hv => ⟨hv.1, hv.2 rfl⟩)
      (fun _ _ h => h) fun _ _ h => h
  | false =>
    rw [if_neg Bool.false_ne_true, hmigrate, Program.bind_ret]
    exact (prepares_migrateFrom hapart 0 (fun _ h => h) hmigratable).weaken (fun _ h => h.1)
      (fun _ _ h => h) fun _ _ h => h

end

/-! ## Any number of runs -/

/-- A volume before the first run: it is new, or was prepared earlier. -/
def Fresh (box : Container D) (layout : StateVolumeLayout) (volumes : Volumes D) : Prop :=
  volumes layout.stagingTarget = ∅ ∨
    isMarked box volumes layout = true ∧ Complete box layout (volumes layout.stagingTarget)

section

variable {box : Container D} {adapter : ProviderStateAdapter} {volumes : Volumes D}
  {c c' : Config (Reply (D := D)) (World D) Ending Unit}

/-- What every run of the pool does. -/
abbrev Prepared (box : Container D) (adapter : ProviderStateAdapter)
    (c : Config (Reply (D := D)) (World D) Ending Unit) : Prop :=
  Contract.PoolSafe (contract box adapter.volumes) box.machine apart
    (fun i _ v => Ready box adapter.volumes i v.state) (Stopped box adapter.volumes) c

theorem prepared_start (hplain : ∀ layout ∈ adapter.volumes, PlainNames layout)
    (hseparate : Separate box adapter)
    (hname : ∀ name ∈ assigned 0 adapter.volumes, isIdentifier name = true)
    (hmigratable : ∀ layout ∈ adapter.volumes, Migratable box layout)
    (hstart : ∀ layout ∈ adapter.volumes, Fresh box layout volumes) :
    Prepared box adapter (preparations adapter volumes) := by
  refine ⟨⟨nofun, fun layout hlayout hmarked => ⟨?_, nofun⟩⟩,
    fun i => prepares_provider hplain hseparate hname hmigratable _ rfl⟩
  rcases hstart layout hlayout with hempty | ⟨-, hcomplete⟩
  · have hunmarked : isMarked box volumes layout = false := by
      apply present_of_none
      rw [hempty, AList.lookup_empty]
    rw [show isMarked box volumes layout = true from hmarked] at hunmarked
    cases hunmarked
  · exact hcomplete

/-- A volume gets stuck when the run that fills it is killed. -/
theorem Prepared.lost (h : Prepared box adapter (preparations adapter volumes))
    (hstart : ∀ layout ∈ adapter.volumes, Fresh box layout volumes)
    (hrun : box.machine.Reaches apart (preparations adapter volumes) c) :
    ∀ layout ∈ adapter.volumes, Stuck box layout c.state →
      ∃ e ∈ c.trace, Killed e ∧ e.action.volume = some layout.stagingTarget := by
  intro layout hlayout
  induction hrun with
  | refl =>
    intro hstuck
    rcases hstart layout hlayout with hempty | ⟨hmarked, -⟩
    · exact absurd hempty hstuck.nonempty
    · exact absurd hmarked (Bool.eq_false_iff.mp hstuck.unmarked)
  | step hrun hstep ih =>
    obtain ⟨-, e, -, htrace, hmoves⟩ := (Contract.sound h hrun).step hstep
    intro hstuck
    have hview := htrace
    rcases hmoves.fresh layout hlayout hstuck with hbefore | hlost
    · obtain ⟨killed, hmem, hkilled⟩ := ih hbefore
      exact ⟨killed, by rw [Config.trace, hview]; exact List.mem_append_left _ hmem, hkilled⟩
    · exact ⟨e, by rw [Config.trace, hview]; exact List.mem_append_right _ List.mem_cons_self, hlost⟩

/-- A stuck volume stays as it is. -/
theorem Prepared.stuck (h : Prepared box adapter c) (hrun : box.machine.Reaches apart c c')
    {layout : StateVolumeLayout} (hlayout : layout ∈ adapter.volumes) (hstuck : Stuck box layout c.state) :
    c'.state.volumes layout.stagingTarget = c.state.volumes layout.stagingTarget ∧
      Stuck box layout c'.state := by
  induction hrun with
  | refl => exact ⟨rfl, hstuck⟩
  | step hrun hstep ih =>
    obtain ⟨-, e, -, -, hmoves⟩ := (Contract.sound h hrun).step hstep
    obtain ⟨hsame, hstuck'⟩ := hmoves.stuck layout hlayout ih.2
    exact ⟨hsame.trans ih.1, hstuck'⟩

/-- No other run is at work, nothing is stuck, and the run has not been killed. -/
structure Unhindered (box : Container D) (layouts : List StateVolumeLayout) (i : Nat)
    (v : Preparation D) : Prop where
  others : ∀ j, j ≠ i → v.state.stage j = .idle
  free : ∀ layout ∈ layouts, ¬Stuck box layout v.state
  alive : ∀ e ∈ v.trace, e.thread = i → ¬Killed e

/-- The steps of one run that is not killed. -/
def unharmed (i : Nat) : Guard (Reply (D := D)) (World D) (Choice D) :=
  Guard.only (fun v thread action choice => apart v thread action choice ∧ choice ≠ .killed) i

/-- A run that is not hindered can go on until it has returned. -/
theorem Prepared.returns (h : Prepared box adapter c) {i : Nat}
    (hfree : Unhindered box adapter.volumes i c.view) :
    ∃ c', box.machine.Reaches (unharmed i) c c' ∧ c'.programs i = .ret () := by
  have hspec : Spec (box.machine.alone
      (fun v thread action choice => apart v thread action choice ∧ choice ≠ .killed) i)
      (fun v _ => Unhindered box adapter.volumes i v)
      (fun _ v => Ready box adapter.volumes i v.state ∧ Unhindered box adapter.volumes i v)
      (fun error v => Stopped box adapter.volumes i error v ∧ Unhindered box adapter.volumes i v)
      c.view (c.programs i) := by
    refine Spec.of_safe (fun _ _ _ hguard => hguard.1) (fun _ _ hv => hv) ?_ (h.2 i) h.1 hfree
    rintro v action reply v' ⟨choice, state, ⟨-, hchoice⟩, hexec, rfl⟩ ⟨e, -, htrace, hmoves⟩ hv
    have hevent : e = ⟨i, action, reply⟩ := by
      have hlast := List.append_cancel_left htrace
      exact (List.cons.inj hlast).1.symm
    have hreply : ¬Killed (⟨i, action, reply⟩ : Event Reply) := by
      rintro hkilled
      cases choice with
      | killed => exact hchoice rfl
      | go part =>
        cases hexec
        cases hkilled
      | refused =>
        obtain ⟨answer, -, heq⟩ := Option.map_eq_some_iff.mp hexec
        cases heq
        cases hkilled
    subst hevent
    refine ⟨fun j hj => (hmoves.others j hj).trans (hv.others j hj), fun layout hlayout hstuck => ?_,
      fun e he hthread => ?_⟩
    · rcases hmoves.fresh layout hlayout hstuck with hbefore | hlost
      · exact hv.free layout hlayout hbefore
      · exact hreply hlost.1
    · rcases List.mem_append.mp he with hbefore | hlast
      · exact hv.alive e hbefore hthread
      · rw [List.mem_singleton.mp hlast]
        exact hreply
  have henabled : ∀ v action, Unhindered box adapter.volumes i v →
      box.machine.Enabled
        (fun v thread action choice => apart v thread action choice ∧ choice ≠ .killed) i v action := by
    intro v action hv
    refine ⟨some (box.perform box.empty action v.state.volumes).1, _, .go box.empty, _,
      ⟨fun dir name _ j hj hvolume => ?_, nofun⟩, rfl, rfl⟩
    rw [hv.others j hj] at hvolume
    cases hvolume
  obtain ⟨c', hrun, hfinal⟩ := hspec.exists_final henabled
  refine ⟨c', hrun, ?_⟩
  rcases hspec.ended_of_final henabled hrun hfinal with ⟨value, hret, -⟩ | ⟨error, hfail, hend⟩
  · exact hret
  · obtain ⟨hstopped, hv⟩ := hend
    rcases hstopped with ⟨-, e, he, hthread, hkilled⟩ | ⟨layout, hlayout, hstuck⟩
    · exact absurd hkilled (hv.alive e he hthread)
    · exact absurd hstuck (hv.free layout hlayout)

end

theorem exec_stage_other {box : Container D} {i j : Nat} {action : Action D} {choice : Choice D}
    {reply : Reply action} {w w' : World D} (h : box.exec i action choice w = some (reply, w'))
    (hj : j ≠ i) : w'.stage j = w.stage j := by
  cases choice with
  | go part =>
    cases h
    exact Function.update_of_ne hj ..
  | refused =>
    obtain ⟨answer, -, heq⟩ := Option.map_eq_some_iff.mp h
    cases heq
    rfl
  | killed =>
    cases h
    exact Function.update_of_ne hj ..

/-- While one run is alone, the others work on nothing. -/
theorem alone_apart {box : Container D} {i : Nat}
    {c c' : Config (Reply (D := D)) (World D) Ending Unit}
    (hidle : ∀ j, j ≠ i → c.state.stage j = .idle)
    (h : box.machine.Reaches (Guard.only (fun _ _ _ _ => True) i) c c') :
    box.machine.Reaches apart c c' ∧ ∀ j, j ≠ i → c'.state.stage j = .idle := by
  induction h with
  | refl => exact ⟨.refl, hidle⟩
  | step _ hstep ih =>
    obtain ⟨rest, choice, state, hprog, ⟨rfl, -⟩, hexec, rfl⟩ := hstep
    refine ⟨ih.1.step ⟨rest, choice, state, hprog, fun dir name _ j hj hvolume => ?_, hexec, rfl⟩,
      fun j hj => (exec_stage_other hexec hj).trans (ih.2 j hj)⟩
    rw [ih.2 j hj] at hvolume
    cases hvolume

/-- Two runs that find the volume empty at the same time. The second one is killed when it copies an
entry again, and the volume is marked, but not complete. -/
theorem overlapping_incomplete :
    ∃ c, codexContainer.machine.Reaches (fun _ _ _ _ => True)
        (preparations codexStateAdapter fun _ => ∅) c ∧
      isMarked codexContainer c.state.volumes codexStateVolume = true ∧
      (c.state.volumes codexStateVolume.stagingTarget).lookup (str "auth.json") = some (.file 7) ∧
      migrated codexContainer codexStateVolume (str "auth.json") = some (.file 1) := by
  have hrun : (codexContainer.machine.run (fun _ _ _ _ => true)
      (preparations codexStateAdapter fun _ => ∅)
      (List.replicate 3 (0, .go 7) ++ List.replicate 3 (1, .go 7) ++ List.replicate 8 (0, .go 7) ++
        List.replicate 5 (1, .go 7) ++ [(1, .killed)])).map (fun c =>
          (isMarked codexContainer c.state.volumes codexStateVolume,
            (c.state.volumes codexStateVolume.stagingTarget).lookup (str "auth.json"))) =
      some (true, some (.file 7)) := by decide +kernel
  obtain ⟨c, hreaches, hends⟩ := Machine.exists_of_run hrun
  simp only [Prod.mk.injEq] at hends
  exact ⟨c, hreaches, hends.1, hends.2, by decide +kernel⟩

end AgentDev.Providers
