import AgentDev.Core.Validation
import AgentDev.Interleaving.RelyGuarantee

/-!
# Project initialization

`project-init` creates `repo/agent` from an inbound bundle
(`core/git_handoff.py`, `core/projects.py`). It takes no lock: the existence check, the
creation of the directory, the Git commands and the cleanup handler are separate steps, and
any number of requests may interleave them.

The cleanup handler removes `repo/agent` whatever the reason of the failure, also when
`mkdir` failed because another request had created the directory in the meantime. So the
repository of a successful request can be lost (`initialized_repository_lost`). When every
`mkdir` creates the directory, nobody touches a directory that another request created
(`project_init_keeps_repositories`).
-/

namespace AgentDev.ProjectInit

open Interleaving

/-- The directory `repo/agent`. `creator` is the request whose `mkdir` made it. -/
structure AgentDirectory where
  creator : Nat
  initialized : Bool := false
  integration : Option Commit := none
  onIntegration : Bool := false
  config : List (String × String) := []
  deriving DecidableEq

/-- The part of a project that `project-init` reads and writes. `createdFrom` is the commit in
`project.json`, `none` when the metadata does not pass its checks; `bundles` gives, for
every file of the inbound exchange, the head of the main branch that it carries. -/
structure World where
  agent : Option AgentDirectory
  createdFrom : Option Commit
  bundles : Name → Option Commit

/-- The steps of one request. -/
inductive Action
  /-- The project root, the repository namespace and the inbound directory resolve. -/
  | resolveProject
  | readProjectMeta
  | bundleIsFile (bundle : Name)
  /-- `agent.is_symlink() or agent.exists()` -/
  | agentExists
  /-- `agent.mkdir(mode=0o700)` -/
  | mkdirAgent
  | gitInit
  | bundleVerify (bundle : Name)
  /-- `git fetch bundle refs/heads/main:refs/heads/agent/integration` -/
  | gitFetch (bundle : Name)
  | gitSwitch
  | gitConfig (key value : String)
  | revParseHead
  /-- `shutil.rmtree(agent, ignore_errors=True)` -/
  | removeAgent
  | unlinkBundle (bundle : Name)
  deriving DecidableEq

abbrev Action.Reply : Action → Type
  | .readProjectMeta => Option Commit
  | .revParseHead => Option Commit
  | .removeAgent => Unit
  | _ => Bool

/-- Whether a fallible step fails although its precondition holds. -/
inductive Choice
  | works
  | fault
  deriving DecidableEq

/-- A Git command in `repo/agent`: it needs the directory, and may replace its content. -/
def inAgent (world : World) (command : AgentDirectory → Option AgentDirectory) : Bool × World :=
  match world.agent.bind command with
  | some directory => (true, { world with agent := some directory })
  | none => (false, world)

/-- What each step does when its precondition decides its success. -/
def perform (thread : Nat) (world : World) : (action : Action) → action.Reply × World
  | .resolveProject => (true, world)
  | .readProjectMeta => (world.createdFrom, world)
  | .bundleIsFile bundle => ((world.bundles bundle).isSome, world)
  | .agentExists => (world.agent.isSome, world)
  | .mkdirAgent =>
    match world.agent with
    | some _ => (false, world)
    | none => (true, { world with agent := some { creator := thread } })
  | .gitInit => inAgent world fun directory => some { directory with initialized := true }
  | .bundleVerify bundle =>
    inAgent world fun directory =>
      if directory.initialized && (world.bundles bundle).isSome then some directory else none
  | .gitFetch bundle =>
    inAgent world fun directory =>
      if directory.initialized && directory.integration = none then
        (world.bundles bundle).map fun head => { directory with integration := some head }
      else none
  | .gitSwitch =>
    inAgent world fun directory =>
      if directory.integration.isSome then some { directory with onIntegration := true } else none
  | .gitConfig key value =>
    inAgent world fun directory =>
      if directory.initialized then some { directory with config := (key, value) :: directory.config }
      else none
  | .revParseHead =>
    (world.agent.bind fun directory =>
      if directory.onIntegration then directory.integration else none, world)
  | .removeAgent => ((), { world with agent := none })
  | .unlinkBundle bundle =>
    if (world.bundles bundle).isSome then
      (true, { world with bundles := Function.update world.bundles bundle none })
    else (false, world)

/-- The reply of a step that fails. -/
def failed : (action : Action) → action.Reply
  | .resolveProject | .bundleIsFile _ | .agentExists | .mkdirAgent | .gitInit
  | .bundleVerify _ | .gitFetch _ | .gitSwitch | .gitConfig _ _ | .unlinkBundle _ => false
  | .readProjectMeta | .revParseHead => none
  | .removeAgent => ()

/-- The existence checks cannot fail, and `rmtree` ignores errors. -/
def canFail : Action → Bool
  | .agentExists | .bundleIsFile _ | .removeAgent => false
  | _ => true

def machine : Machine Action.Reply World Choice where
  exec thread action choice world :=
    match choice with
    | .works => some (perform thread world action)
    | .fault => if canFail action then some (failed action, world) else none

abbrev Op := Program Action.Reply Error

def act (action : Action) : Op action.Reply := Program.perform action

/-- A step whose failure is an exception. -/
def check (action : Action) (ok : action.Reply → Bool) (error : Error) : Op Unit := do
  let reply ← act action
  if ok reply then pure () else .fail error

/-- The `try` block of `initialize_agent_repository`. -/
def createAgentRepository (bundle : Name) (createdFrom : Commit) : Op Commit := do
  check .mkdirAgent id (.internal "File exists")
  check .gitInit id (.internal "git init")
  check (.bundleVerify bundle) id (.internal "git bundle")
  check (.gitFetch bundle) id (.internal "git fetch")
  check .gitSwitch id (.internal "git switch")
  check (.gitConfig "user.name" "AI Development Agent") id (.internal "git config")
  check (.gitConfig "user.email" "agent@localhost") id (.internal "git config")
  check (.gitConfig "commit.gpgSign" "false") id (.internal "git config")
  match ← act .revParseHead with
  | none => .fail (.internal "git rev-parse")
  | some head =>
    if head ≠ createdFrom then
      .fail (.request "initial bundle HEAD does not match project metadata")
    else pure head

/-- `initialize_agent_repository` -/
def initializeAgentRepository (bundle : Name) (createdFrom : Commit) : Op Commit := do
  if ← act .agentExists then
    .fail (.request "agent repository already exists")
  else
    let head ← (createAgentRepository bundle createdFrom).handling fun error => do
      act .removeAgent
      .fail error
    check (.unlinkBundle bundle) id (.internal "unlink bundle")
    pure head

/-- `initialize_agent_project` for a project and a bundle whose names are valid. -/
def initializeAgentProject (bundle : Name) : Op Commit := do
  check .resolveProject id (.internal "project layout")
  match ← act .readProjectMeta with
  | none => .fail (.internal "project metadata has invalid created_from commit")
  | some createdFrom =>
    check (.bundleIsFile bundle) id (.internal "inbound bundle")
    initializeAgentRepository bundle createdFrom

/-- The pool of the requests: request `i` names the bundle `bundleOf i`. -/
def pool (bundleOf : Nat → Name) (world : World) :
    Config Action.Reply World Error Commit :=
  ⟨fun i => initializeAgentProject (bundleOf i), ⟨world, []⟩⟩

/-! ## What one step can do -/

/-- A directory goes on as the same directory: only its content may have changed. -/
def SameDirectory (agent agent' : Option AgentDirectory) : Prop :=
  ∀ directory, agent = some directory →
    ∃ directory', agent' = some directory' ∧ directory'.creator = directory.creator

theorem inAgent_sameDirectory (world : World)
    (command : AgentDirectory → Option AgentDirectory)
    (hcommand : ∀ directory directory', command directory = some directory' →
      directory'.creator = directory.creator) :
    SameDirectory world.agent (inAgent world command).2.agent := by
  intro directory hdirectory
  unfold inAgent
  cases hout : world.agent.bind command with
  | none => exact ⟨directory, hdirectory, rfl⟩
  | some directory' =>
    rw [hdirectory] at hout
    exact ⟨directory', rfl, hcommand directory directory' hout⟩

/-- Every step but `mkdir` and the cleanup leaves the directory in place. -/
theorem perform_sameDirectory (thread : Nat) (world : World) {action : Action}
    (hmkdir : action ≠ .mkdirAgent) (hremove : action ≠ .removeAgent) :
    SameDirectory world.agent (perform thread world action).2.agent := by
  have hsame : SameDirectory world.agent world.agent := fun directory h => ⟨directory, h, rfl⟩
  cases action with
  | mkdirAgent => exact absurd rfl hmkdir
  | removeAgent => exact absurd rfl hremove
  | resolveProject | readProjectMeta | bundleIsFile | agentExists | revParseHead => exact hsame
  | unlinkBundle bundle =>
    simp only [perform]
    split
    · exact hsame
    · exact hsame
  | gitInit =>
    refine inAgent_sameDirectory _ _ fun directory directory' h => ?_
    cases h
    rfl
  | bundleVerify bundle =>
    refine inAgent_sameDirectory _ _ fun directory directory' h => ?_
    split at h <;> cases h
    rfl
  | gitFetch bundle =>
    refine inAgent_sameDirectory _ _ fun directory directory' h => ?_
    split at h
    · obtain ⟨head, -, rfl⟩ := Option.map_eq_some_iff.mp h
      rfl
    · cases h
  | gitSwitch =>
    refine inAgent_sameDirectory _ _ fun directory directory' h => ?_
    split at h <;> cases h
    rfl
  | gitConfig key value =>
    refine inAgent_sameDirectory _ _ fun directory directory' h => ?_
    split at h <;> cases h
    rfl

/-- A step either behaves as its precondition says or fails without an effect. -/
theorem exec_cases {thread : Nat} {action : Action} {choice : Choice} {world world' : World}
    {reply : action.Reply} (h : machine.exec thread action choice world = some (reply, world')) :
    (choice = .works ∧ perform thread world action = (reply, world')) ∨
      (choice = .fault ∧ reply = failed action ∧ world' = world) := by
  cases choice with
  | works =>
    exact Or.inl ⟨rfl, Option.some.inj h⟩
  | fault =>
    simp only [machine] at h
    split at h
    · cases h
      exact Or.inr ⟨rfl, rfl, rfl⟩
    · cases h

/-! ## Runs in which every `mkdir` creates the directory -/

/-- A request that has found no repository finds none either when it comes to create it, and
`mkdir` does not fail for another reason. -/
def createsDirectory : Guard Action.Reply World Choice := fun v _ action choice =>
  action = .mkdirAgent → v.state.agent = none ∧ choice = .works

instance (v : View Action.Reply World) (thread : Nat) (action : Action) (choice : Choice) :
    Decidable (createsDirectory v thread action choice) :=
  inferInstanceAs (Decidable (_ → _))

/-- Nobody touches a directory that another request created. -/
def contract : Contract Action.Reply World where
  inv _ := True
  guar thread v v' := ∀ directory, v.state.agent = some directory →
    directory.creator ≠ thread → v'.state.agent = some directory

/-- The directory of the request `thread` is there. -/
def Owned (thread : Nat) (v : View Action.Reply World) : Prop :=
  ∃ directory, v.state.agent = some directory ∧ directory.creator = thread

/-- It is there, and its integration branch is at `head`. -/
def Initialized (thread : Nat) (head : Commit) (v : View Action.Reply World) : Prop :=
  ∃ directory, v.state.agent = some directory ∧ directory.creator = thread ∧
    directory.integration = some head

section Specs

variable {thread : Nat}

theorem owned_stable : contract.Stable thread (Owned thread) := by
  rintro v v' ⟨-, -, other, hne, hguar⟩ ⟨directory, hdirectory, hcreator⟩
  exact ⟨directory, hguar directory hdirectory (by omega), hcreator⟩

theorem initialized_stable (head : Commit) :
    contract.Stable thread (Initialized thread head) := by
  rintro v v' ⟨-, -, other, hne, hguar⟩ ⟨directory, hdirectory, hcreator, hhead⟩
  exact ⟨directory, hguar directory hdirectory (by omega), hcreator, hhead⟩

/-- A step that leaves the whole world as it is satisfies every guarantee. -/
theorem guar_of_agent_eq {v v' : View Action.Reply World}
    (h : v'.state.agent = v.state.agent) : contract.guar thread v v' :=
  fun _ hdirectory _ => h.trans hdirectory

/-- A step in one's own directory satisfies the guarantee. -/
theorem guar_of_owned {v v' : View Action.Reply World} (h : Owned thread v) :
    contract.guar thread v v' := by
  intro directory hdirectory hne
  obtain ⟨own, hown, hcreator⟩ := h
  rw [hown] at hdirectory
  cases hdirectory
  exact absurd hcreator hne

/-- A step that does not touch the directory. -/
theorem check_spec {action : Action} {ok : action.Reply → Bool} {error : Error}
    {P : View Action.Reply World → Prop} (hP : contract.Stable thread P)
    (hframe : ∀ world, (perform thread world action).2.agent = world.agent)
    (hagent : ∀ v v' : View Action.Reply World, v'.state.agent = v.state.agent → P v → P v') :
    contract.Spec machine createsDirectory thread P (check action ok error) (fun _ => P)
      (fun _ => P) := by
  refine .act (J := fun _ => P) hP ?_ fun reply => ?_
  · intro v choice reply world _ _ hv hexec
    have hsame : world.agent = v.state.agent := by
      rcases exec_cases hexec with ⟨-, hperform⟩ | ⟨-, -, rfl⟩
      · rw [← hframe v.state, hperform]
      · rfl
    exact ⟨trivial, guar_of_agent_eq hsame, hagent _ _ hsame hv⟩
  · show contract.Spec _ _ _ _ (if ok reply then _ else _) _ _
    split
    · exact .ret hP fun _ hv => hv
    · exact .fail hP fun _ hv => hv

/-- A step in one's own directory. -/
theorem check_owned_spec {action : Action} {ok : action.Reply → Bool} {error : Error}
    (hmkdir : action ≠ .mkdirAgent) (hremove : action ≠ .removeAgent) :
    contract.Spec machine createsDirectory thread (Owned thread) (check action ok error)
      (fun _ => Owned thread) (fun _ => Owned thread) := by
  refine .act (J := fun _ => Owned thread) owned_stable ?_ fun reply => ?_
  · intro v choice reply world _ _ hv hexec
    refine ⟨trivial, guar_of_owned hv, ?_⟩
    rcases exec_cases hexec with ⟨-, hperform⟩ | ⟨-, -, rfl⟩
    · obtain ⟨directory, hdirectory, hcreator⟩ := hv
      have hsame := perform_sameDirectory thread v.state hmkdir hremove
      rw [hperform] at hsame
      obtain ⟨directory', hdirectory', hcreator'⟩ := hsame directory hdirectory
      exact ⟨directory', hdirectory', hcreator'.trans hcreator⟩
    · exact hv
  · show contract.Spec _ _ _ _ (if ok reply then _ else _) _ _
    split
    · exact .ret owned_stable fun _ hv => hv
    · exact .fail owned_stable fun _ hv => hv

/-- When `mkdir` creates the directory, the request owns it from then on. -/
theorem mkdir_spec {error : Error} :
    contract.Spec machine createsDirectory thread (fun _ => True) (check .mkdirAgent id error)
      (fun _ => Owned thread) (fun _ => Owned thread) := by
  refine .act (J := fun _ => Owned thread) (.const thread True) ?_ fun reply => ?_
  · intro v choice reply world hguard _ _ hexec
    obtain ⟨hnone, rfl⟩ := hguard rfl
    have hperform : perform thread v.state .mkdirAgent = (reply, world) := Option.some.inj hexec
    simp only [perform, hnone] at hperform
    cases hperform
    refine ⟨trivial, ?_, ⟨_, rfl, rfl⟩⟩
    intro directory hdirectory
    rw [hnone] at hdirectory
    cases hdirectory
  · show contract.Spec _ _ _ _ (if id reply then _ else _) _ _
    split
    · exact .ret owned_stable fun _ hv => hv
    · exact .fail owned_stable fun _ hv => hv

/-- The `try` block ends with an initialized repository of one's own, or fails in it. -/
theorem createAgentRepository_spec (bundle : Name) (createdFrom : Commit) :
    contract.Spec machine createsDirectory thread (fun _ => True)
      (createAgentRepository bundle createdFrom) (Initialized thread)
      (fun _ => Owned thread) := by
  refine mkdir_spec.bind fun _ => ?_
  refine (check_owned_spec (by simp) (by simp)).bind fun _ => ?_
  refine (check_owned_spec (by simp) (by simp)).bind fun _ => ?_
  refine (check_owned_spec (by simp) (by simp)).bind fun _ => ?_
  refine (check_owned_spec (by simp) (by simp)).bind fun _ => ?_
  refine (check_owned_spec (by simp) (by simp)).bind fun _ => ?_
  refine (check_owned_spec (by simp) (by simp)).bind fun _ => ?_
  refine (check_owned_spec (by simp) (by simp)).bind fun _ => ?_
  refine .act (a := Action.revParseHead)
    (J := fun (reply : Option Commit) v => Owned thread v ∧
      ∀ head, reply = some head → Initialized thread head v) owned_stable ?_ fun reply => ?_
  · intro v choice reply world _ _ hv hexec
    obtain ⟨directory, hdirectory, hcreator⟩ := hv
    have hown : Owned thread v := ⟨directory, hdirectory, hcreator⟩
    rcases exec_cases hexec with ⟨-, hperform⟩ | ⟨-, rfl, rfl⟩
    · simp only [perform, hdirectory, Option.bind_some] at hperform
      cases hperform
      refine ⟨trivial, guar_of_owned hown, ⟨directory, hdirectory, hcreator⟩, ?_⟩
      intro head hhead
      split at hhead
      · exact ⟨directory, hdirectory, hcreator, hhead⟩
      · cases hhead
    · exact ⟨trivial, guar_of_owned hown, hown, fun head hhead => by cases hhead⟩
  · have hstable : contract.Stable thread fun v => Owned thread v ∧
        ∀ head, reply = some head → Initialized thread head v :=
      owned_stable.and (.all fun head => .imp fun _ => initialized_stable head)
    cases reply with
    | none => exact .fail hstable fun _ hv => hv.1
    | some head =>
      show contract.Spec _ _ _ _ (if head ≠ createdFrom then _ else _) _ _
      split
      · exact .fail hstable fun _ hv => hv.1
      · exact .ret hstable fun _ hv => hv.2 head rfl

/-- The cleanup of a request that owns the directory. -/
theorem cleanup_spec {Q : Commit → View Action.Reply World → Prop} (error : Error) :
    contract.Spec machine createsDirectory thread (Owned thread)
      (act .removeAgent >>= fun _ => .fail error) Q (fun _ _ => True) := by
  refine .act (J := fun _ _ => True) owned_stable ?_ fun _ => ?_
  · intro v choice reply world _ _ hv _
    exact ⟨trivial, guar_of_owned hv, trivial⟩
  · exact .fail (.const thread True) fun _ _ => trivial

/-- The existence check changes nothing, and nothing is known after it: its answer may be
outdated at once. -/
theorem agentExists_spec :
    contract.Spec machine createsDirectory thread (fun _ => True) (act .agentExists)
      (fun _ _ => True) (fun _ _ => True) := by
  refine .act (J := fun _ _ => True) (.const thread True) ?_ fun reply =>
    .ret (.const thread True) fun _ _ => trivial
  intro v choice reply world _ _ _ hexec
  rcases exec_cases hexec with ⟨-, hperform⟩ | ⟨-, -, rfl⟩
  · cases hperform
    exact ⟨trivial, guar_of_agent_eq rfl, trivial⟩
  · exact ⟨trivial, guar_of_agent_eq rfl, trivial⟩

theorem unlinkBundle_spec (bundle : Name) (head : Commit) (error : Error) :
    contract.Spec machine createsDirectory thread (Initialized thread head)
      (check (.unlinkBundle bundle) id error) (fun _ => Initialized thread head)
      (fun _ => Initialized thread head) := by
  refine check_spec (initialized_stable head) (fun world => ?_) fun v v' hsame hv => ?_
  · simp only [perform]
    split <;> rfl
  · obtain ⟨directory, hdirectory, hrest⟩ := hv
    exact ⟨directory, hsame.trans hdirectory, hrest⟩

theorem initializeAgentRepository_spec (bundle : Name) (createdFrom : Commit) :
    contract.Spec machine createsDirectory thread (fun _ => True)
      (initializeAgentRepository bundle createdFrom) (Initialized thread) (fun _ _ => True) := by
  refine agentExists_spec.bind fun found => ?_
  cases found with
  | true => exact .fail (.const thread True) fun _ _ => trivial
  | false =>
    have hcreate : contract.Spec machine createsDirectory thread (fun _ => True)
        ((createAgentRepository bundle createdFrom).handling fun error =>
          act .removeAgent >>= fun _ => .fail error) (Initialized thread) (fun _ _ => True) :=
      (createAgentRepository_spec bundle createdFrom).handling fun error => cleanup_spec error
    refine hcreate.bind fun head => ?_
    refine ((unlinkBundle_spec bundle head _).weaken (fun _ h => h) (fun _ _ h => h)
      fun _ _ _ => trivial).bind fun _ => ?_
    exact .ret (initialized_stable head) fun _ h => h

theorem initializeAgentProject_spec (bundle : Name) :
    contract.Spec machine createsDirectory thread (fun _ => True)
      (initializeAgentProject bundle) (Initialized thread) (fun _ _ => True) := by
  have hframe : ∀ (v v' : View Action.Reply World), v'.state.agent = v.state.agent →
      True → True := fun _ _ _ h => h
  refine (check_spec (.const thread True) (fun _ => rfl) hframe).bind fun _ => ?_
  refine .act (a := Action.readProjectMeta) (J := fun _ _ => True) (.const thread True) ?_
    fun reply => ?_
  · intro v choice reply world _ _ _ hexec
    rcases exec_cases hexec with ⟨-, hperform⟩ | ⟨-, -, rfl⟩
    · cases hperform
      exact ⟨trivial, guar_of_agent_eq rfl, trivial⟩
    · exact ⟨trivial, guar_of_agent_eq rfl, trivial⟩
  · cases (reply : Option Commit) with
    | none => exact .fail (.const thread True) fun _ _ => trivial
    | some createdFrom =>
      refine (check_spec (.const thread True) (fun _ => rfl) hframe).bind fun _ => ?_
      exact initializeAgentRepository_spec bundle createdFrom

end Specs

/-! ## The repositories of successful requests -/

/-- The agent repository that a successful request created still exists, at the head that the
request returned. -/
def RepositoriesKept (c : Config Action.Reply World Error Commit) : Prop :=
  ∀ thread head, c.programs thread = .ret head → Initialized thread head c.view

/-- A step that removes a repository directory removes the one that its request created. -/
def RemovesOwnOnly (guard : Guard Action.Reply World Choice)
    (c : Config Action.Reply World Error Commit) : Prop :=
  ∀ e c', machine.Step guard e c c' → ∀ directory,
    c.state.agent = some directory → c'.state.agent = none → directory.creator = e.thread

/-- Every pool is safe from the start, in any world. -/
theorem pool_safe (bundleOf : Nat → Name) (world : World) :
    Contract.PoolSafe contract machine createsDirectory Initialized (fun _ _ _ => True)
      (pool bundleOf world) :=
  ⟨trivial, fun _ => initializeAgentProject_spec (bundleOf _) _ trivial⟩

/-- In every run in which no request finds the directory present when it comes to create it,
no repository of a successful request is lost and no request removes the directory of
another one. -/
theorem project_init_keeps_repositories (bundleOf : Nat → Name) (world : World)
    (c : Config Action.Reply World Error Commit)
    (hrun : machine.Reaches createsDirectory (pool bundleOf world) c) :
    RepositoriesKept c ∧ RemovesOwnOnly createsDirectory c := by
  have hsafe := Contract.sound (pool_safe bundleOf world) hrun
  refine ⟨fun thread head hret => hsafe.post hret, ?_⟩
  intro e c' hstep directory hdirectory hgone
  by_contra hne
  have hkept := (hsafe.step hstep).2 directory hdirectory hne
  rw [hgone] at hkept
  cases hkept

/-- Two requests for a project whose metadata and bundles are in order. -/
def exampleWorld : World where
  agent := none
  createdFrom := some 7
  bundles _ := some 7

def exampleBundle (thread : Nat) : Name :=
  if thread = 0 then ⟨"first.bundle", by decide⟩ else ⟨"second.bundle", by decide⟩

theorem project_init_keeps_repositories_example :
    ∃ c, machine.Reaches createsDirectory (pool exampleBundle exampleWorld) c ∧
      c.programs 0 = .ret 7 ∧ RepositoriesKept c ∧ RemovesOwnOnly createsDirectory c := by
  have hrun : ((machine.run (fun v i action choice => decide (createsDirectory v i action choice))
      (pool exampleBundle exampleWorld)
      ((List.replicate 14 0 ++ [1, 1, 1, 1]).map fun i => (i, Choice.works))).map
        fun c => (c.programs 0).value?) = some (some 7) := by
    decide +kernel
  obtain ⟨c, hc, hvalue⟩ := Option.map_eq_some_iff.mp hrun
  have hreaches : machine.Reaches createsDirectory (pool exampleBundle exampleWorld) c :=
    Machine.reaches_of_run (fun _ _ _ _ h => of_decide_eq_true h) hc
  exact ⟨c, hreaches, Program.value?_eq_some_iff.mp hvalue,
    project_init_keeps_repositories _ _ c hreaches⟩

/-- Both requests see no repository. The first one then creates it and succeeds; `mkdir` of
the second one fails, and its cleanup removes the repository of the first one. -/
theorem initialized_repository_lost :
    ∃ (e : Event Action.Reply) (c c' : Config Action.Reply World Error Commit),
      machine.Reaches (fun _ _ _ _ => True) (pool exampleBundle exampleWorld) c ∧
      e.thread = 1 ∧ machine.Step (fun _ _ _ _ => True) e c c' ∧
      c.programs 0 = .ret 7 ∧ c'.programs 0 = .ret 7 ∧
      c.state.agent.map (·.creator) = some 0 ∧ c'.state.agent = none := by
  have hrun : ((machine.run (fun _ _ _ _ => true) (pool exampleBundle exampleWorld)
      (([0, 0, 0, 0, 1, 1, 1, 1] ++ List.replicate 10 0 ++ [1]).map
        fun i => (i, Choice.works))).bind fun c =>
          (machine.step (fun _ _ _ _ => true) c (1, .works)).map fun c' =>
            ((c.programs 0).value?, (c'.programs 0).value?, c.state.agent.map (·.creator),
              c'.state.agent)) = some (some 7, some 7, some 0, none) := by
    decide +kernel
  obtain ⟨c, c', e, hreaches, hthread, hstep, hvalues⟩ := Machine.exists_step_of_run hrun
  simp only [Prod.mk.injEq, Program.value?_eq_some_iff] at hvalues
  exact ⟨e, c, c', hreaches, hthread, hstep, hvalues⟩

end AgentDev.ProjectInit
