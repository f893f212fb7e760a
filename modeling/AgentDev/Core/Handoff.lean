import AgentDev.Core.Alone
import AgentDev.Core.Synchronization

/-!
# Taking over the human main branch

`synchronize_agent_repository` fetches a bundle, compares the integration head with the head of the
human, and fast-forwards the integration branch when it is behind. When every step
succeeds exactly when its precondition holds, the commit graph decides the outcome: the sync succeeds
exactly when the fetch is accepted and one of the two heads is an ancestor of the other
(`synchronizes_iff`), and then the integration branch is at the later of them.
-/

namespace AgentDev

open Interleaving

/-- Requests that sync. -/
abbrev SyncPool := Config Action.Reply World Error (SyncAction × Commit)

/-- No step fails, and a fetch brings the commits `news` and the head `human`. -/
def undisturbed (news : List (List Commit)) (human : Commit) : Guard Action.Reply World Choice :=
  fun _ _ _ choice => choice = .go ∨ choice = .fetched news human

/-- What a step does when nothing fails. -/
def settles (news : List (List Commit)) (human : Commit) : Effects Action.Reply World :=
  fun world action reply world' => ∃ thread choice, (choice = .go ∨ choice = .fetched news human) ∧
    exec thread action choice world = some (reply, world')

/-- The integration branch can be checked out in `repo/agent`. -/
def Free (repo : Repository) : Prop :=
  repo.agent.branch = integrationBranch ∨ repo.isCheckedOut integrationBranch = false

/-- The clean checkout on which the sync works, and the bundle that it fetches. -/
structure Ready (world : World) (bundle : Name) : Prop where
  clean : world.repo.agent.dirty = false
  unmerging : world.repo.agent.merging = false
  /-- The integration branch is checked out here, or nowhere. -/
  free : Free world.repo
  bundled : bundle ∈ world.bundles

/-- The fetch brings the commit `human`, and is a fast-forward of the inbound ref. -/
structure Accepted (repo : Repository) (news : List (List Commit)) (human : Commit) : Prop where
  brought : human < (repo.graph.commitAll news).size
  forward : ∀ old, repo.inbound = some old → (repo.graph.commitAll news).Anc old human

/-- One of the two heads is an ancestor of the other, or they are equal. -/
def Comparable (graph : Commits.Graph) (integration human : Commit) : Prop :=
  graph.Anc integration human ∨ graph.Anc human integration

/-- How the integration head `integration` has become `head`. -/
inductive Takes (graph : Commits.Graph) (integration human : Commit) : SyncAction → Commit → Prop
  | equal (h : integration = human) : Takes graph integration human .alreadySynchronized human
  | forwarded (hne : integration ≠ human) (h : graph.Anc integration human) :
      Takes graph integration human .fastForwarded human
  | ahead (hne : integration ≠ human) (h : graph.Anc human integration) :
      Takes graph integration human .integrationAhead integration

/-- The world after a successful sync. -/
structure Synchronized (world world' : World) (bundle : Name) (news : List (List Commit))
    (integration human : Commit) (action : SyncAction) (head : Commit) : Prop where
  fetched : world'.repo.graph = world.repo.graph.commitAll news
  takes : Takes world'.repo.graph integration human action head
  moved : world'.repo.refs integrationBranch = some head
  consumed : world'.bundles = world.bundles.erase bundle

/-- The world after a sync that has failed. -/
structure Unsynchronized (world world' : World) (integration : Commit) : Prop where
  kept : world'.repo.refs integrationBranch = some integration
  bundles : world'.bundles = world.bundles

theorem Takes.comparable {graph : Commits.Graph} {integration human head : Commit}
    {action : SyncAction} (h : Takes graph integration human action head) :
    Comparable graph integration human := by
  cases h with
  | equal h =>
    subst h
    exact Or.inl (.refl _)
  | forwarded _ h => exact Or.inl h
  | ahead _ h => exact Or.inr h

/-- Both heads are in the new one. -/
theorem Takes.covers {graph : Commits.Graph} {integration human head : Commit}
    {action : SyncAction} (h : Takes graph integration human action head) :
    graph.Anc integration head ∧ graph.Anc human head := by
  cases h with
  | equal h =>
    subst h
    exact ⟨.refl _, .refl _⟩
  | forwarded _ h => exact ⟨h, .refl _⟩
  | ahead _ h => exact ⟨.refl _, h⟩

/-- A head that is integrated already moves nothing. -/
theorem Takes.eq_of_anc {graph : Commits.Graph} {integration human head : Commit}
    {action : SyncAction} (h : Takes graph integration human action head)
    (hanc : graph.Anc human integration) : head = integration := by
  cases h with
  | equal h => exact h.symm
  | forwarded hne h => exact absurd (Nat.le_antisymm h.le hanc.le) hne
  | ahead => rfl

/-! ## Steps that do not fail -/

section

variable {news : List (List Commit)} {human : Commit} {world world' : World}

theorem alone_settles {i : Nat} {v v' : View Action.Reply World} {action : Action}
    {reply : action.Reply} (h : machine.alone (undisturbed news human) i v action reply v') :
    settles news human v.state action reply v'.state := by
  obtain ⟨choice, state, hchoice, hexec, rfl⟩ := h
  exact ⟨i, choice, hchoice, hexec⟩

/-- Every step but the fetch is decided by the world. -/
theorem settles_go {action : Action} {reply : action.Reply}
    (h : settles news human world action reply world')
    (hfetch : ∀ bundle, action ≠ .gitFetch bundle) :
    ∃ thread, action.go thread world = some (reply, world') := by
  obtain ⟨thread, choice, rfl | rfl, hexec⟩ := h
  · exact ⟨thread, hexec⟩
  · cases action with
    | gitFetch bundle => exact absurd rfl (hfetch bundle)
    | _ => cases hexec

theorem fetch_of_accepted {repo : Repository} (h : Accepted repo news human) :
    repo.fetch news human =
      some { repo with graph := repo.graph.commitAll news, inbound := some human } := by
  have hall : repo.inbound.all ((repo.graph.commitAll news).isAncestor · human) = true := by
    cases hinbound : repo.inbound with
    | none => rfl
    | some old => exact Commits.Graph.isAncestor_iff.mpr (h.forward old hinbound)
  simp only [Repository.fetch, hall, h.brought, decide_true, Bool.and_self, if_true]

theorem accepted_of_fetch {repo repo' : Repository} (h : repo.fetch news human = some repo') :
    Accepted repo news human := by
  simp only [Repository.fetch] at h
  split at h
  · rename_i hall
    simp only [Bool.and_eq_true, decide_eq_true_eq] at hall
    refine ⟨hall.1, fun old hold => ?_⟩
    have hanc := hall.2
    rw [hold] at hanc
    exact Commits.Graph.isAncestor_iff.mp hanc
  · cases h

theorem switchIntegration_of_free {repo : Repository} {integration : Commit}
    (hhead : repo.refs integrationBranch = some integration) (hclean : repo.agent.dirty = false)
    (hmerging : repo.agent.merging = false) (hfree : Free repo) :
    repo.switchIntegration =
      some { repo with agent := { repo.agent with branch := integrationBranch } } := by
  unfold Repository.switchIntegration
  rw [if_neg (by simp [hmerging, hhead])]
  by_cases hbranch : repo.agent.branch = integrationBranch
  · rw [if_pos hbranch, ← hbranch]
  · rw [if_neg hbranch, if_neg (by simp [hclean, hfree.resolve_left hbranch])]

theorem free_of_switchIntegration {repo repo' : Repository}
    (h : repo.switchIntegration = some repo') : Free repo := by
  unfold Repository.switchIntegration at h
  split at h
  · cases h
  · split at h
    · rename_i hbranch
      exact Or.inl hbranch
    · split at h
      · cases h
      · rename_i hout
        simp only [Bool.or_eq_true, not_or, Bool.not_eq_true] at hout
        exact Or.inr hout.2

/-- Steps that need neither a lock nor a number of the environment. -/
def Action.settled : Action → Bool
  | .acquire _ _ | .nowIso | .choose => false
  | _ => true

theorem enabled_settled {i : Nat} {v : View Action.Reply World} {action : Action}
    (h : action.settled = true) : machine.Enabled (undisturbed news human) i v action := by
  suffices hexec : ∃ choice, (choice = .go ∨ choice = .fetched news human) ∧
      (exec i action choice v.state).isSome = true by
    obtain ⟨choice, hchoice, hexec⟩ := hexec
    obtain ⟨⟨reply, state⟩, hexec⟩ := Option.isSome_iff_exists.mp hexec
    exact ⟨reply, _, choice, state, hchoice, hexec, rfl⟩
  cases action with
  | acquire lock shared => cases h
  | nowIso => cases h
  | choose => cases h
  | gitFetch bundle =>
    refine ⟨_, Or.inr rfl, ?_⟩
    by_cases hbundle : bundle ∈ v.state.bundles <;> simp [exec, hbundle]
  | unlinkBundle bundle =>
    refine ⟨_, Or.inl rfl, ?_⟩
    by_cases hbundle : bundle ∈ v.state.bundles <;> simp [exec, Action.go, hbundle]
  | startContainer task workspace readonly =>
    refine ⟨_, Or.inl rfl, ?_⟩
    cases hworkspace : (v.state.repo.checkout? workspace).isSome <;>
      simp [exec, Action.go, hworkspace]
  | _ => exact ⟨.go, Or.inl rfl, rfl⟩

/-! ## The comparison -/

/-- What is known once the bundle is fetched and the integration branch is checked out. -/
structure Fetched (world : World) (integration human : Commit) : Prop where
  head : world.repo.refs integrationBranch = some integration
  inbound : world.repo.inbound = some human
  branch : world.repo.agent.branch = integrationBranch
  clean : world.repo.agent.dirty = false
  unmerging : world.repo.agent.merging = false

/-- The world with the integration branch at `head`. -/
def World.atHead (world : World) (head : Commit) : World :=
  { world with repo :=
      { world.repo with refs := Function.update world.repo.refs integrationBranch (some head) } }

@[simp] theorem World.atHead_refs (world : World) (head : Commit) :
    (world.atHead head).repo.refs integrationBranch = some head := by
  simp [World.atHead]

theorem World.atHead_self {head : Commit}
    (h : world.repo.refs integrationBranch = some head) : world.atHead head = world := by
  unfold World.atHead
  rw [Function.update_eq_self_iff.mpr h.symm]

theorem mergeFfOnly_of_anc {integration : Commit} (h : Fetched world integration human)
    (hne : integration ≠ human) (hanc : world.repo.graph.Anc integration human) :
    world.command world.repo.mergeFfOnly = (true, world.atHead human) := by
  have hnot : world.repo.graph.isAncestor human integration = false := by
    apply Bool.eq_false_iff.mpr
    intro hback
    exact hne (Nat.le_antisymm hanc.le (Commits.Graph.isAncestor_iff.mp hback).le)
  have hff : world.repo.mergeFfOnly = some (world.atHead human).repo := by
    simp only [Repository.mergeFfOnly, h.branch, h.head, h.inbound, h.unmerging, h.clean, hnot,
      Commits.Graph.isAncestor_iff.mpr hanc, Option.bind_some, World.atHead]
    rfl
  rw [hff]
  rfl

theorem integrateHuman_spec {integration : Commit} (h : Fetched world integration human) :
    Spec (settles news human) (fun _ action => action.settled = true)
      (fun action world' => ∃ head, Takes world.repo.graph integration human action head ∧
        world' = world.atHead head)
      (fun _ world' => world' = world ∧ ¬Comparable world.repo.graph integration human)
      world (integrateHuman integration human) := by
  unfold integrateHuman
  split
  · rename_i heq
    exact ⟨human, .equal heq, (World.atHead_self (heq ▸ h.head)).symm⟩
  · rename_i hne
    refine spec_act rfl fun reply world' hsettles => ?_
    obtain ⟨thread, hgo⟩ := settles_go hsettles (by simp)
    cases hgo
    cases hforward : world.repo.graph.isAncestor integration human with
    | true =>
      have hanc := Commits.Graph.isAncestor_iff.mp hforward
      refine spec_check rfl ?_ ?_
      · intro reply world' hsettles hfail
        obtain ⟨thread, hgo⟩ := settles_go hsettles (by simp)
        simp only [Action.go, mergeFfOnly_of_anc h hne hanc, Option.some.injEq, Prod.mk.injEq]
          at hgo
        rw [← hgo.1] at hfail
        cases hfail
      · intro reply world' hsettles _
        obtain ⟨thread, hgo⟩ := settles_go hsettles (by simp)
        simp only [Action.go, mergeFfOnly_of_anc h hne hanc, Option.some.injEq, Prod.mk.injEq]
          at hgo
        exact ⟨human, .forwarded hne hanc, hgo.2.symm⟩
    | false =>
      have hnot : ¬world.repo.graph.Anc integration human := by
        intro hanc
        rw [Commits.Graph.isAncestor_iff.mpr hanc] at hforward
        cases hforward
      refine spec_act rfl fun reply world' hsettles => ?_
      obtain ⟨thread, hgo⟩ := settles_go hsettles (by simp)
      cases hgo
      cases hbackward : world.repo.graph.isAncestor human integration with
      | true =>
        have hanc := Commits.Graph.isAncestor_iff.mp hbackward
        exact ⟨integration, .ahead hne hanc, (World.atHead_self h.head).symm⟩
      | false =>
        refine ⟨rfl, fun hcomparable => ?_⟩
        rcases hcomparable with hanc | hanc
        · exact hnot hanc
        · rw [Commits.Graph.isAncestor_iff.mpr hanc] at hbackward
          cases hbackward

/-! ## The whole sync -/

/-- What a sync needs to succeed. -/
structure Syncable (world : World) (bundle : Name) (news : List (List Commit))
    (integration human : Commit) : Prop where
  ready : Ready world bundle
  accepted : Accepted world.repo news human
  comparable : Comparable (world.repo.graph.commitAll news) integration human

/-- A read whose reply the world tells. -/
theorem settles_read {action : Action} {reply value : action.Reply}
    (h : settles news human world action reply world')
    (hgo : ∀ thread, action.go thread world = some (value, world)) :
    reply = value ∧ world' = world := by
  have hfetch : ∀ bundle, action ≠ .gitFetch bundle := by
    rintro bundle rfl
    cases hgo 0
  obtain ⟨thread, hgo'⟩ := settles_go h hfetch
  rw [hgo thread] at hgo'
  cases hgo'
  exact ⟨rfl, rfl⟩

/-- The world after an accepted fetch. -/
def World.fetched (world : World) (news : List (List Commit)) (human : Commit) : World :=
  { world with repo :=
      { world.repo with graph := world.repo.graph.commitAll news, inbound := some human } }

/-- The world with the integration branch checked out in `repo/agent`. -/
def World.switched (world : World) : World :=
  { world with repo :=
      { world.repo with agent := { world.repo.agent with branch := integrationBranch } } }

theorem settles_fetch {bundle : Name} {ok : Bool}
    (h : settles news human world (.gitFetch bundle) ok world') (hbundle : bundle ∈ world.bundles) :
    (ok = true ∧ Accepted world.repo news human ∧ world' = world.fetched news human) ∨
      (ok = false ∧ ¬Accepted world.repo news human ∧ world' = world) := by
  obtain ⟨thread, choice, rfl | rfl, hexec⟩ := h
  · cases hexec
  · simp only [exec, if_pos hbundle] at hexec
    by_cases haccepted : Accepted world.repo news human
    · rw [fetch_of_accepted haccepted] at hexec
      cases hexec
      exact Or.inl ⟨rfl, haccepted, rfl⟩
    · obtain ⟨rfl, rfl⟩ | ⟨repo, hrepo, -⟩ := World.command_effect hexec
      · exact Or.inr ⟨rfl, haccepted, rfl⟩
      · exact absurd (accepted_of_fetch hrepo) haccepted

theorem settles_switch {ok : Bool} {integration : Commit}
    (h : settles news human world .gitSwitch ok world')
    (hhead : world.repo.refs integrationBranch = some integration)
    (hclean : world.repo.agent.dirty = false) :
    (ok = true ∧ world.repo.agent.merging = false ∧ Free world.repo ∧ world' = world.switched) ∨
      (ok = false ∧ ¬(world.repo.agent.merging = false ∧ Free world.repo) ∧ world' = world) := by
  obtain ⟨thread, hgo⟩ := settles_go h (by simp)
  by_cases hfree : world.repo.agent.merging = false ∧ Free world.repo
  · simp only [Action.go, switchIntegration_of_free hhead hclean hfree.1 hfree.2] at hgo
    cases hgo
    exact Or.inl ⟨rfl, hfree.1, hfree.2, rfl⟩
  · obtain ⟨rfl, rfl⟩ | ⟨repo, hrepo, -⟩ := World.command_effect hgo
    · exact Or.inr ⟨rfl, hfree, rfl⟩
    · exact absurd ⟨(Repository.switchIntegration_eq hrepo).1, free_of_switchIntegration hrepo⟩ hfree

theorem settles_unlink {bundle : Name} {ok : Bool}
    (h : settles news human world (.unlinkBundle bundle) ok world')
    (hbundle : bundle ∈ world.bundles) :
    ok = true ∧ world' = { world with bundles := world.bundles.erase bundle } := by
  obtain ⟨thread, hgo⟩ := settles_go h (by simp)
  simp only [Action.go, if_pos hbundle] at hgo
  cases hgo
  exact ⟨rfl, rfl⟩

/-- The end of a sync: the heads are compared, and the bundle is removed. -/
theorem compare_spec {bundle : Name} {integration : Commit} (h : Fetched world integration human)
    (hbundle : bundle ∈ world.bundles) :
    Spec (settles news human) (fun _ action => action.settled = true)
      (fun out world' => Takes world.repo.graph integration human out.1 out.2 ∧
        world' = { world.atHead out.2 with bundles := world.bundles.erase bundle })
      (fun _ world' => world' = world ∧ ¬Comparable world.repo.graph integration human)
      world (do
        let integration ← orFail (← act (.revParse integrationBranch)) (.internal "git rev-parse")
        let human ← orFail (← act .revParseInbound) (.internal "git rev-parse")
        let action ← integrateHuman integration human
        let head ← orFail (← act (.revParseHead .agent)) (.internal "git rev-parse")
        check (.unlinkBundle bundle) id (.internal "unlink bundle")
        pure (action, head)) := by
  refine spec_act rfl fun reply world₁ hsettles => ?_
  obtain ⟨rfl, rfl⟩ := settles_read hsettles fun _ => rfl
  rw [h.head]
  refine spec_act rfl fun reply world₂ hsettles => ?_
  obtain ⟨rfl, rfl⟩ := settles_read hsettles fun _ => rfl
  rw [h.inbound]
  show Spec _ _ _ _ world₂ ((integrateHuman integration human).bind _)
  refine Spec.bind (integrateHuman_spec h) ?_
  rintro action world₃ ⟨head, htakes, rfl⟩
  have hmoved : (world₂.atHead head).repo.headOf .agent = some head := by
    show Function.update world₂.repo.refs integrationBranch (some head) world₂.repo.agent.branch = _
    rw [h.branch, Function.update_self]
  refine spec_act rfl fun reply world₃ hsettles => ?_
  obtain ⟨rfl, rfl⟩ := settles_read hsettles fun _ => rfl
  rw [hmoved]
  refine spec_check rfl ?_ ?_
  · intro ok world₄ hsettles hfail
    rw [(settles_unlink hsettles hbundle).1] at hfail
    cases hfail
  · intro ok world₄ hsettles _
    exact ⟨htakes, (settles_unlink hsettles hbundle).2⟩

/-- The body is a sync: it takes the human head over exactly when it can. -/
def Syncs (world : World) (bundle : Name) (news : List (List Commit)) (integration human : Commit)
    (body : Op (SyncAction × Commit)) : Prop :=
  Spec (settles news human) (fun _ action => action.settled = true)
    (fun out world' => Syncable world bundle news integration human ∧
      Synchronized world world' bundle news integration human out.1 out.2)
    (fun _ world' => ¬Syncable world bundle news integration human ∧
      Unsynchronized world world' integration)
    world body

theorem synchronizeAgentRepository_syncs {bundle : Name} {integration : Commit}
    (hhead : world.repo.refs integrationBranch = some integration) :
    Syncs world bundle news integration human (synchronizeAgentRepository bundle) := by
  unfold Syncs synchronizeAgentRepository
  refine spec_act rfl fun reply world₁ hsettles => ?_
  obtain ⟨rfl, rfl⟩ := settles_read hsettles fun _ => rfl
  cases hclean : world₁.repo.agent.dirty with
  | true =>
    simp only [Repository.checkout?, Option.map_some, hclean]
    refine ⟨fun hsyncable => ?_, hhead, rfl⟩
    rw [hsyncable.ready.clean] at hclean
    cases hclean
  | false =>
  simp only [Repository.checkout?, Option.map_some, hclean]
  refine spec_check rfl ?_ ?_
  · intro ok world₂ hsettles hfail
    obtain ⟨rfl, rfl⟩ := settles_read hsettles fun _ => rfl
    refine ⟨fun hsyncable => ?_, hhead, rfl⟩
    simp [hsyncable.ready.bundled] at hfail
  intro ok world₂ hsettles hbundle
  obtain ⟨rfl, rfl⟩ := settles_read hsettles fun _ => rfl
  replace hbundle : bundle ∈ world₂.bundles := by simpa using hbundle
  refine spec_check rfl ?_ ?_
  · intro ok world₃ hsettles hfail
    obtain ⟨rfl, -⟩ | ⟨-, hrefused, rfl⟩ := settles_fetch hsettles hbundle
    · cases hfail
    · exact ⟨fun hsyncable => hrefused hsyncable.accepted, hhead, rfl⟩
  intro ok world₃ hsettles hfetched
  obtain ⟨-, haccepted, rfl⟩ | ⟨rfl, -⟩ := settles_fetch hsettles hbundle
  swap
  · cases hfetched
  refine spec_check rfl ?_ ?_
  · intro ok world₄ hsettles hfail
    obtain ⟨rfl, -⟩ | ⟨-, hstuck, rfl⟩ := settles_switch hsettles hhead hclean
    · cases hfail
    · exact ⟨fun hsyncable => hstuck ⟨hsyncable.ready.unmerging, hsyncable.ready.free⟩, hhead, rfl⟩
  intro ok world₄ hsettles hswitched
  obtain ⟨-, hmerging, hfree, rfl⟩ | ⟨rfl, -⟩ := settles_switch hsettles hhead hclean
  swap
  · cases hswitched
  have hready : Ready world₂ bundle := ⟨hclean, hmerging, hfree, hbundle⟩
  have hcompared : Fetched (world₂.fetched news human).switched integration human :=
    ⟨hhead, rfl, rfl, hclean, hmerging⟩
  refine (compare_spec hcompared hbundle).mono ?_ ?_
  · rintro ⟨action, head⟩ world₅ ⟨htakes, rfl⟩
    exact ⟨⟨hready, haccepted, htakes.comparable⟩, rfl, htakes, World.atHead_refs .., rfl⟩
  · rintro error world₅ ⟨rfl, hdiverged⟩
    exact ⟨fun hsyncable => hdiverged hsyncable.comparable, hhead, rfl⟩

/-- A check that cannot fail. -/
theorem syncs_probe {bundle : Name} {integration : Commit} {probe : Probe} {error : Error}
    {rest : Unit → Op (SyncAction × Commit)}
    (h : Syncs world bundle news integration human (rest ())) :
    Syncs world bundle news integration human (check (.probe probe) id error >>= rest) := by
  refine spec_check rfl ?_ ?_
  · intro ok world₁ hsettles hfail
    obtain ⟨rfl, -⟩ := settles_read hsettles fun _ => rfl
    cases hfail
  · intro ok world₁ hsettles _
    obtain ⟨-, rfl⟩ := settles_read hsettles fun _ => rfl
    exact h

/-- `synchronize_agent_project` looks for the bundle first. -/
theorem synchronizeAgentProject_syncs {bundle : Name} {integration : Commit}
    (hhead : world.repo.refs integrationBranch = some integration) :
    Syncs world bundle news integration human (synchronizeAgentProject bundle) := by
  apply syncs_probe
  apply syncs_probe
  apply syncs_probe
  refine spec_check rfl ?_ ?_
  · intro ok world₁ hsettles hfail
    obtain ⟨rfl, rfl⟩ := settles_read hsettles fun _ => rfl
    refine ⟨fun hsyncable => ?_, hhead, rfl⟩
    simp [hsyncable.ready.bundled] at hfail
  · intro ok world₁ hsettles _
    obtain ⟨rfl, rfl⟩ := settles_read hsettles fun _ => rfl
    exact synchronizeAgentRepository_syncs hhead

/-- `synchronize_agent_repository` by itself, or after the checks of `synchronize_agent_project`. -/
inductive TakesOver (bundle : Name) : Op (SyncAction × Commit) → Prop
  | repository : TakesOver bundle (synchronizeAgentRepository bundle)
  | project : TakesOver bundle (synchronizeAgentProject bundle)

theorem TakesOver.syncs {bundle : Name} {integration : Commit} {body : Op (SyncAction × Commit)}
    (h : TakesOver bundle body) (hhead : world.repo.refs integrationBranch = some integration) :
    Syncs world bundle news integration human body := by
  cases h with
  | repository => exact synchronizeAgentRepository_syncs hhead
  | project => exact synchronizeAgentProject_syncs hhead

end

/-! ## Runs of a sync -/

/-- A configuration in which thread `i` has ended is what a sync leaves behind. -/
structure SyncEnds (c c' : SyncPool) (i : Nat) (bundle : Name) (news : List (List Commit))
    (integration human : Commit) : Prop where
  succeeds_iff : (∃ out, c'.programs i = .ret out) ↔
    Syncable c.state bundle news integration human
  /-- The new head is the later of the two, and both are in it. -/
  synchronized : ∀ action head, c'.programs i = .ret (action, head) →
    Synchronized c.state c'.state bundle news integration human action head ∧
      c'.state.repo.graph.Anc integration head ∧ c'.state.repo.graph.Anc human head
  refused : ¬Syncable c.state bundle news integration human →
    (∃ error, c'.programs i = .fail error) ∧ Unsynchronized c.state c'.state integration

section

variable {news : List (List Commit)} {human integration : Commit} {c c' : SyncPool} {i : Nat}
  {bundle : Name}

theorem Syncs.alone {v : View Action.Reply World} {body : Op (SyncAction × Commit)}
    (h : Syncs v.state bundle news integration human body) :
    Spec (machine.alone (undisturbed news human) i) (fun _ action => action.settled = true)
      (fun out v' => Syncable v.state bundle news integration human ∧
        Synchronized v.state v'.state bundle news integration human out.1 out.2)
      (fun _ v' => ¬Syncable v.state bundle news integration human ∧
        Unsynchronized v.state v'.state integration)
      v body :=
  Spec.of_simulation (fun _ _ _ _ => alone_settles) h

theorem Syncs.ends (h : Syncs c.state bundle news integration human (c.programs i))
    (hrun : machine.Reaches ((undisturbed news human).only i) c c')
    (hfinal : machine.Final (undisturbed news human) i c') :
    SyncEnds c c' i bundle news integration human := by
  have hspec := Syncs.alone (i := i) h
  have hended := hspec.ended_of_final (fun _ _ => enabled_settled) hrun hfinal
  refine ⟨⟨?_, ?_⟩, ?_, ?_⟩
  · rintro ⟨out, hret⟩
    exact (hspec.post hrun hret).1
  · intro hsyncable
    rcases hended with ⟨out, hret, -⟩ | ⟨error, -, hnot, -⟩
    · exact ⟨out, hret⟩
    · exact absurd hsyncable hnot
  · intro action head hret
    have hsynchronized := (hspec.post hrun hret).2
    exact ⟨hsynchronized, hsynchronized.takes.covers⟩
  · intro hnot
    rcases hended with ⟨out, -, hsyncable, -⟩ | ⟨error, hfail, -, hunsynchronized⟩
    · exact absurd hsyncable hnot
    · exact ⟨⟨error, hfail⟩, hunsynchronized⟩

/-- A head that the integration branch contains moves nothing. -/
theorem SyncEnds.unmoved (h : SyncEnds c c' i bundle news integration human)
    (hanc : c.state.repo.graph.Anc human integration) :
    c'.state.repo.refs integrationBranch = some integration := by
  by_cases hsyncable : Syncable c.state bundle news integration human
  · obtain ⟨⟨action, head⟩, hret⟩ := h.succeeds_iff.mpr hsyncable
    obtain ⟨hsynchronized, -⟩ := h.synchronized action head hret
    have hgrown := hsynchronized.fetched ▸ c.state.repo.graph.commitAll_extends news
    rw [hsynchronized.moved, hsynchronized.takes.eq_of_anc (hanc.mono hgrown)]
  · exact (h.refused hsyncable).2.kept

/-- A sync whose steps succeed exactly when their preconditions hold: it comes to an end; it succeeds
exactly when the fetch is accepted and one of the two heads is an ancestor of the other; and
later syncs with the same human head move nothing. -/
theorem synchronizes_iff (hprogram : TakesOver bundle (c.programs i))
    (hhead : c.state.repo.refs integrationBranch = some integration) :
    (∃ c', machine.Reaches ((undisturbed news human).only i) c c' ∧
      machine.Final (undisturbed news human) i c') ∧
    ∀ c', machine.Reaches ((undisturbed news human).only i) c c' →
      machine.Final (undisturbed news human) i c' →
      SyncEnds c c' i bundle news integration human ∧
      ∀ action head, c'.programs i = .ret (action, head) →
        ∀ (d d' : SyncPool) j bundle' news' later,
          TakesOver bundle' (d.programs j) →
          c'.state.repo.graph.Extends d.state.repo.graph →
          d.state.repo.refs integrationBranch = some later →
          d.state.repo.graph.Anc head later →
          machine.Reaches ((undisturbed news' human).only j) d d' →
          machine.Final (undisturbed news' human) j d' →
          d'.state.repo.refs integrationBranch = some later := by
  have hsyncs : Syncs c.state bundle news integration human (c.programs i) := hprogram.syncs hhead
  refine ⟨hsyncs.alone.exists_final fun _ _ => enabled_settled, fun c' hrun hfinal => ?_⟩
  have hends := hsyncs.ends hrun hfinal
  refine ⟨hends, fun action head hret d d' j bundle' news' later hagain hgrown hlater hanc hrun'
    hfinal' => ?_⟩
  have hagain' : Syncs d.state bundle' news' later human (d.programs j) := hagain.syncs hlater
  obtain ⟨-, -, hhuman⟩ := hends.synchronized action head hret
  exact (hagain'.ends hrun' hfinal').unmoved ((hhuman.mono hgrown).trans hanc)

end

/-- Request 0 takes over the commit of the human; the others would do so again. -/
def inboundPool : SyncPool :=
  ⟨fun _ => synchronizeAgentRepository exampleBundle, ⟨inboundProject, []⟩⟩

theorem inboundPool_syncable : Syncable inboundPool.state exampleBundle [[0]] 0 1 where
  ready := ⟨rfl, rfl, Or.inl rfl, List.mem_singleton_self exampleBundle⟩
  accepted := ⟨by decide, fun _ hold => nomatch hold⟩
  comparable := Or.inl (Commits.Graph.isAncestor_iff.mp (by decide))

theorem synchronizes_iff_example :
    ∃ c' action head, machine.Reaches ((undisturbed [[0]] 1).only 0) inboundPool c' ∧
      c'.programs 0 = .ret (action, head) ∧
      Synchronized inboundProject c'.state exampleBundle [[0]] 0 1 action head := by
  obtain ⟨⟨c', hrun, hfinal⟩, hall⟩ :=
    @synchronizes_iff [[0]] 1 0 inboundPool 0 exampleBundle .repository rfl
  obtain ⟨hends, -⟩ := hall c' hrun hfinal
  obtain ⟨⟨action, head⟩, hret⟩ := hends.succeeds_iff.mpr inboundPool_syncable
  exact ⟨c', action, head, hrun, hret, (hends.synchronized action head hret).1⟩

end AgentDev
