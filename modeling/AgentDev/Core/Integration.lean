import AgentDev.Core.Runs

/-!
# The integration branch

Every Git step of every request either leaves the head of `agent/integration` where it is or
moves it to a descendant, as long as providers only append commits (`exec_advances`). So in
every run the head only advances, and what a merge has integrated stays in the history
of all later heads (`integration_advances`).
-/

namespace AgentDev

open Interleaving

/-! ## Advancing -/

/-- `repo/agent` is on the integration branch, which exists. -/
structure Repository.OnIntegration (repo : Repository) : Prop where
  branch : repo.agent.branch = integrationBranch
  head : ∃ head, repo.refs integrationBranch = some head

/-- The commit graph has grown, and the head of the integration branch has become a descendant. -/
structure Repository.Advances (repo repo' : Repository) : Prop where
  graph : repo.graph.Extends repo'.graph
  head : ∀ head, repo.refs integrationBranch = some head →
    ∃ head', repo'.refs integrationBranch = some head' ∧ repo'.graph.Anc head head'

namespace Repository

variable {repo repo' repo'' : Repository}

theorem Advances.refl (repo : Repository) : repo.Advances repo :=
  ⟨.refl _, fun head hhead => ⟨head, hhead, .refl head⟩⟩

theorem Advances.trans (h : repo.Advances repo') (h' : repo'.Advances repo'') :
    repo.Advances repo'' := by
  refine ⟨h.graph.trans h'.graph, fun head hhead => ?_⟩
  obtain ⟨head', hhead', hanc⟩ := h.head head hhead
  obtain ⟨head'', hhead'', hanc'⟩ := h'.head head' hhead'
  exact ⟨head'', hhead'', (hanc.mono h'.graph).trans hanc'⟩

/-- An ancestor of an integration head is an ancestor of all later ones. -/
theorem Advances.anc (h : repo.Advances repo') {commit head head' : Commit}
    (hhead : repo.refs integrationBranch = some head) (hanc : repo.graph.Anc commit head)
    (hhead' : repo'.refs integrationBranch = some head') : repo'.graph.Anc commit head' := by
  obtain ⟨later, hlater, hanc'⟩ := h.head head hhead
  rw [hhead'] at hlater
  obtain rfl : head' = later := Option.some.inj hlater
  exact (hanc.mono h.graph).trans hanc'

theorem Advances.of_refs_eq (hgraph : repo.graph.Extends repo'.graph)
    (hrefs : repo'.refs integrationBranch = repo.refs integrationBranch) : repo.Advances repo' :=
  ⟨hgraph, fun head hhead => ⟨head, hrefs.trans hhead, .refl head⟩⟩

/-- Some branch, which may be the integration branch, has moved to a descendant. -/
theorem Advances.of_update {branch : String} {head head' : Commit}
    (hgraph : repo.graph.Extends repo'.graph) (hhead : repo.refs branch = some head)
    (hanc : repo'.graph.Anc head head')
    (hrefs : repo'.refs = Function.update repo.refs branch (some head')) : repo.Advances repo' := by
  refine ⟨hgraph, fun integration hintegration => ?_⟩
  rw [hrefs]
  by_cases hbranch : branch = integrationBranch
  · subst hbranch
    rw [hhead] at hintegration
    obtain rfl : head = integration := Option.some.inj hintegration
    exact ⟨head', Function.update_self .., hanc⟩
  · exact ⟨integration, (Function.update_of_ne (Ne.symm hbranch) ..).trans hintegration, .refl _⟩

/-- A repository that advances with `repo/agent` on the same branch stays on the integration branch. -/
theorem OnIntegration.advance (hon : repo.OnIntegration) (h : repo.Advances repo')
    (hbranch : repo'.agent.branch = repo.agent.branch) : repo'.OnIntegration := by
  obtain ⟨head, hhead⟩ := hon.head
  obtain ⟨head', hhead', -⟩ := h.head head hhead
  exact ⟨hbranch.trans hon.branch, head', hhead'⟩

theorem setCheckout_agent_branch {workspace : Workspace} {checkout checkout' : Checkout}
    (hcheckout : repo.checkout? workspace = some checkout)
    (hbranch : checkout'.branch = checkout.branch) :
    (repo.setCheckout workspace checkout').agent.branch = repo.agent.branch := by
  cases workspace with
  | agent =>
    cases hcheckout
    exact hbranch
  | worktree task => rfl

end Repository

/-! ## Appending providers -/

/-- Providers neither leave their branch nor move a branch other than by a commit. -/
def Choice.appends : Choice → Bool
  | .moves (.switch _) | .moves (.reset _ _) => false
  | _ => true

/-- The steps of runs in which providers only append commits to the branch of their workspace. -/
def appendOnly : Guard Action.Reply World Choice := fun _ _ _ choice => choice.appends = true

theorem work_advances {repo repo' : Repository} {workspace : Workspace} {move : Move}
    (hmove : (Choice.moves move).appends = true) (h : repo.work workspace move = some repo') :
    repo.Advances repo' ∧ repo'.agent.branch = repo.agent.branch := by
  cases move with
  | commit others =>
    obtain ⟨checkout, head, head', graph, hcheckout, hhead, hextends, hanc, rfl⟩ :=
      Repository.commitIn_eq h
    exact ⟨.of_update hextends hhead hanc rfl,
      Repository.setCheckout_agent_branch hcheckout rfl⟩
  | edit dirty =>
    obtain ⟨checkout, hcheckout, rfl⟩ := Option.map_eq_some_iff.mp h
    refine ⟨.of_refs_eq ?_ ?_, Repository.setCheckout_agent_branch hcheckout rfl⟩
    · rw [Repository.setCheckout_graph]
      exact .refl _
    · rw [Repository.setCheckout_refs]
  | switch branch => cases hmove
  | reset branch commit => cases hmove

section

variable {thread : Nat} {action : Action} {choice : Choice} {world world' : World}
  {reply : action.Reply}

/-- What a provider does in its workspace is a choice of the environment. -/
theorem exec_providerWork {workspace : Workspace}
    (h : exec thread (.providerWork workspace false) choice world = some ((), world')) :
    world' = world ∨ ∃ move repo, choice = .moves move ∧
      world.repo.work workspace move = some repo ∧ world' = { world with repo := repo } := by
  cases choice with
  | go =>
    cases h
    exact Or.inl rfl
  | moves move =>
    obtain ⟨repo, hrepo, heq⟩ := Option.map_eq_some_iff.mp h
    cases heq
    exact Or.inr ⟨move, repo, rfl, hrepo, rfl⟩
  | _ => cases h

/-- A Git command of the broker advances the integration branch or leaves it alone. -/
theorem gitEffect_advances {repo repo' : Repository} (h : GitEffect repo repo' action reply)
    (hon : repo.OnIntegration) (hbroker : ∀ workspace, action ≠ .providerWork workspace false) :
    repo.Advances repo' ∧ repo'.agent.branch = repo.agent.branch := by
  obtain ⟨integration, hintegration⟩ := hon.head
  cases h with
  | switched h =>
    obtain ⟨-, rfl⟩ := Repository.switchIntegration_eq h
    exact ⟨.of_refs_eq (.refl _) rfl, hon.branch.symm⟩
  | merged commit h =>
    obtain ⟨head, head', hhead, hanc, -, graph, hextends, rfl⟩ := Repository.mergeNoFf_eq h
    exact ⟨.of_update hextends hhead hanc rfl, rfl⟩
  | conflicted commit h =>
    cases Repository.mergeConflict_eq h
    exact ⟨.of_refs_eq (.refl _) rfl, rfl⟩
  | aborted h =>
    cases Repository.abortMerge_eq h
    exact ⟨.of_refs_eq (.refl _) rfl, rfl⟩
  | forwarded h =>
    obtain ⟨head, head', hhead, hanc, rfl⟩ := Repository.mergeFfOnly_eq h
    exact ⟨.of_update (.refl _) hhead hanc rfl, rfl⟩
  | added branch task addition hdone h =>
    -- the new branch is not the integration branch, which exists already
    obtain ⟨hfree, head, -, rfl⟩ := Repository.addWorktree_eq h
    have hne : integrationBranch ≠ branch := by
      rintro rfl
      rw [hintegration] at hfree
      cases hfree
    exact ⟨.of_refs_eq (.refl _) (Function.update_of_ne hne ..), rfl⟩
  | branchLeft branch task h =>
    obtain ⟨hfree, head, -, rfl⟩ := Repository.createBranch_eq h
    have hne : integrationBranch ≠ branch := by
      rintro rfl
      rw [hintegration] at hfree
      cases hfree
    exact ⟨.of_refs_eq (.refl _) (Function.update_of_ne hne ..), rfl⟩
  | removed workspace force h =>
    obtain ⟨task, rfl, rfl⟩ := Repository.removeWorktree_eq h
    exact ⟨.of_refs_eq (.refl _) rfl, rfl⟩
  | deleted branch force h =>
    -- Git does not delete the branch that `repo/agent` is on
    obtain ⟨hout, rfl⟩ := Repository.deleteBranch_eq h
    have hne : integrationBranch ≠ branch := by
      rintro rfl
      simp [Repository.isCheckedOut, hon.branch] at hout
    exact ⟨.of_refs_eq (.refl _) (Function.update_of_ne hne ..), rfl⟩
  | fetched bundle news head h =>
    obtain ⟨graph, hextends, rfl⟩ := Repository.fetch_eq h
    exact ⟨.of_refs_eq hextends rfl, rfl⟩
  | worked workspace move h => exact absurd rfl (hbroker workspace)

/-- No step of any request loses a commit of the integration branch. -/
theorem exec_advances (h : exec thread action choice world = some (reply, world'))
    (happends : choice.appends = true) (hon : world.repo.OnIntegration) :
    world.repo.Advances world'.repo ∧ world'.repo.agent.branch = world.repo.agent.branch := by
  by_cases hprovider : ∃ workspace, action = .providerWork workspace false
  · obtain ⟨workspace, rfl⟩ := hprovider
    rcases exec_providerWork h with rfl | ⟨move, repo, rfl, hwork, rfl⟩
    · exact ⟨.refl _, rfl⟩
    · exact work_advances happends hwork
  · cases exec_effect h with
    | git repo hgit =>
      exact gitEffect_advances hgit hon fun workspace heq => hprovider ⟨workspace, heq⟩
    | _ => exact ⟨.refl _, rfl⟩

end

/-! ## Runs -/

section

variable {project : Name} {requests : Nat → Request} {world : World} {c c' c₁ c₂ : Pool}
  {e : Event Action.Reply}

theorem integration_run (h : machine.Reaches appendOnly c₁ c₂)
    (hon : c₁.state.repo.OnIntegration) :
    c₂.state.repo.OnIntegration ∧ c₁.state.repo.Advances c₂.state.repo := by
  induction h with
  | refl => exact ⟨hon, .refl _⟩
  | @step c c' e _ hstep ih =>
    obtain ⟨hon', hadvances⟩ := ih
    obtain ⟨rest, choice, state, -, happends, hexec, rfl⟩ := hstep
    obtain ⟨hstep, hbranch⟩ := exec_advances hexec happends hon'
    exact ⟨hon'.advance hstep hbranch, hadvances.trans hstep⟩

/-- After a successful `git merge`, the merged commit is in the history of the new head. -/
theorem step_gitMerge {i : Nat} {commit : Commit}
    (hstep : machine.Step appendOnly ⟨i, .gitMerge commit, true⟩ c c')
    (hon : c.state.repo.OnIntegration) :
    ∃ head, c'.state.repo.refs integrationBranch = some head ∧
      c'.state.repo.graph.Anc commit head := by
  obtain ⟨rest, choice, state, -, -, hexec, rfl⟩ := hstep
  show ∃ head, state.repo.refs integrationBranch = some head ∧ state.repo.graph.Anc commit head
  cases exec_effect hexec with
  | nothing hnone => cases hnone
  | git repo hgit =>
    cases hgit with
    | merged _ h =>
      obtain ⟨head, head', hhead, -, hanc, graph, -, rfl⟩ := Repository.mergeNoFf_eq h
      rw [hon.branch]
      refine ⟨head', ?_, hanc⟩
      show Function.update c.state.repo.refs integrationBranch _ integrationBranch = _
      exact Function.update_self ..

theorem step_revParseHead {i : Nat} {head : Commit}
    (hstep : machine.Step appendOnly ⟨i, .revParseHead .agent, some head⟩ c c')
    (hon : c.state.repo.OnIntegration) : c.state.repo.refs integrationBranch = some head := by
  obtain ⟨rest, choice, state, -, -, hexec, rfl⟩ := hstep
  have hhead := exec_revParseHead hexec
  rw [← hon.branch]
  exact hhead

/-- The commits that a successful merge has recorded are in the history of the integration branch. -/
theorem merged_integrated (hworld : world.repo.OnIntegration)
    (hrun : machine.Reaches appendOnly (pool project requests world) c) {i : Nat} {task : Name}
    {record : TaskRecord} (hrequest : requests i = .taskMerge task)
    (hret : c.programs i = .ret (.record record)) :
    ∃ head mergeCommit, record.headCommit = some head ∧ record.mergeCommit = some mergeCommit ∧
      ∀ current, c.state.repo.refs integrationBranch = some current →
        c.state.repo.graph.Anc head current ∧ c.state.repo.graph.Anc mergeCommit current := by
  have hmem := written_of_ret hrun (Or.inr (Or.inl hrequest)) hret
  obtain ⟨d, d', -, hrund, hstepd, hrestd, -⟩ := hrun.split_of_mem rfl hmem
  obtain ⟨-, hwrite⟩ := step_write hrund hstepd (writes_eq_some_iff.mpr rfl)
  have hwrite' : RecordWrite i project task (own i d.trace) record (requests i) := hwrite
  rw [hrequest] at hwrite'
  cases hwrite' with
  | merge old hwrite =>
    obtain ⟨h₁, h₂, head, mergeCommit, now, hlocked, hhead, -, ⟨before, after, hsplit, hparse⟩, -,
      rfl⟩ := hwrite.locked
    have hrest := Machine.Reaches.trans (.step .refl hstepd) hrestd
    have hgitMerge : ⟨i, .gitMerge head, true⟩ ∈ own i d.trace := by
      rw [hlocked.split, hsplit]
      simp
    have hrevParse : ⟨i, .revParseHead .agent, some mergeCommit⟩ ∈ own i d.trace := by
      rw [hlocked.split, hsplit]
      simp [hparse]
    refine ⟨head, mergeCommit, hhead, rfl, fun current hcurrent => ⟨?_, ?_⟩⟩
    · obtain ⟨a, a', -, hruna, hstepa, hresta, -⟩ := hrund.split_of_mem rfl (mem_own.mp hgitMerge).1
      obtain ⟨merged, hmerged, hanc⟩ := step_gitMerge hstepa (integration_run hruna hworld).1
      have hona' := (integration_run (hruna.step hstepa) hworld).1
      exact (integration_run (hresta.trans hrest) hona').2.anc hmerged hanc hcurrent
    · obtain ⟨a, a', -, hruna, hstepa, hresta, -⟩ := hrund.split_of_mem rfl (mem_own.mp hrevParse).1
      have hona := (integration_run hruna hworld).1
      have hmerged := step_revParseHead hstepa hona
      have hlater := Machine.Reaches.trans (.step .refl hstepa) (hresta.trans hrest)
      exact (integration_run hlater hona).2.anc hmerged (.refl _) hcurrent

/-- The integration head only advances, and every later head has in its history the head that a
merge that has returned has recorded, and its merge commit. -/
theorem integration_advances (hworld : world.repo.OnIntegration)
    (hrun : machine.Reaches appendOnly (pool project requests world) c₁)
    (hlater : machine.Reaches appendOnly c₁ c₂) :
    (∃ head head', c₁.state.repo.refs integrationBranch = some head ∧
      c₂.state.repo.refs integrationBranch = some head' ∧ c₂.state.repo.graph.Anc head head') ∧
    ∀ i task record, requests i = .taskMerge task → c₁.programs i = .ret (.record record) →
      ∃ head mergeCommit, record.headCommit = some head ∧ record.mergeCommit = some mergeCommit ∧
        ∀ current, c₂.state.repo.refs integrationBranch = some current →
          c₂.state.repo.graph.Anc head current ∧ c₂.state.repo.graph.Anc mergeCommit current := by
  have hon := (integration_run hrun hworld).1
  have hadvances := (integration_run hlater hon).2
  obtain ⟨head, hhead⟩ := hon.head
  constructor
  · obtain ⟨head', hhead', hanc⟩ := hadvances.head head hhead
    exact ⟨head, head', hhead, hhead', hanc⟩
  · intro i task record hrequest hret
    obtain ⟨merged, mergeCommit, hmerged, hcommit, hanc⟩ :=
      merged_integrated hworld hrun hrequest hret
    refine ⟨merged, mergeCommit, hmerged, hcommit, fun current hcurrent => ?_⟩
    obtain ⟨hanc, hanc'⟩ := hanc head hhead
    exact ⟨hadvances.anc hhead hanc hcurrent, hadvances.anc hhead hanc' hcurrent⟩

end

/-- Request 0 merges the task, then another one is started and worked on. -/
def exampleIntegration : Nat → Request
  | 0 => .taskMerge exampleTask
  | 1 => .taskStart otherTask false []
  | _ => .run otherTask false

theorem integration_advances_example :
    ∃ (c₁ c₂ : Pool) (record : TaskRecord),
      machine.Reaches appendOnly (pool exampleProject exampleIntegration parallelProject) c₁ ∧
      machine.Reaches appendOnly c₁ c₂ ∧ c₁.programs 0 = .ret (.record record) ∧
      record.mergeCommit = some 2 ∧ c₂.state.repo.refs integrationBranch = some 3 ∧
      c₂.state.repo.graph.Anc 1 3 ∧ c₂.state.repo.graph.Anc 2 3 := by
  have hrun : ((machine.run (fun _ _ _ choice => choice.appends)
      (pool exampleProject exampleIntegration parallelProject)
      (goes 0 14 ++ [(0, .clock 2)] ++ goes 0 3)).bind fun c₁ =>
        (machine.run (fun _ _ _ choice => choice.appends) c₁ (goes 1 9 ++ [(1, .clock 3)] ++
          goes 1 2 ++ goes 2 10 ++ [(2, .count 1), (2, .moves (.commit []))])).map fun c₂ =>
            ((c₁.programs 0).value?.bind Outcome.record?,
              c₂.state.repo.refs integrationBranch)) =
      some (some (exampleCompleted.merge 2 2), some 3) := by
    decide +kernel
  obtain ⟨c₁, hc₁, hrest⟩ := Option.bind_eq_some_iff.mp hrun
  obtain ⟨c₂, hc₂, hvalue⟩ := Option.map_eq_some_iff.mp hrest
  simp only [Prod.mk.injEq] at hvalue
  have hguard : ∀ (v : View Action.Reply World) (i : Nat) (action : Action) (choice : Choice),
      choice.appends = true → appendOnly v i action choice := fun _ _ _ _ h => h
  have hreaches := Machine.reaches_of_run hguard hc₁
  have hlater := Machine.reaches_of_run hguard hc₂
  have hret := Outcome.record?_value hvalue.1
  have hworld : parallelProject.repo.OnIntegration := ⟨rfl, 0, by decide⟩
  obtain ⟨-, hmerges⟩ := integration_advances hworld hreaches hlater
  obtain ⟨head, mergeCommit, hhead, hcommit, hanc⟩ := hmerges 0 exampleTask _ rfl hret
  cases hhead
  cases hcommit
  obtain ⟨hanc, hanc'⟩ := hanc 3 hvalue.2
  exact ⟨c₁, c₂, _, hreaches, hlater, hret, rfl, hvalue.2, hanc, hanc'⟩

end AgentDev
