import AgentDev.Core.FailedMerges

/-!
# Aborting once more

`task-abort` is written to go on where an earlier abort or merge has stopped: it removes the
worktree if there is one, and deletes the branch if there is one. But `load_task`, which comes first,
needs the worktree. So a task whose worktree has been removed cannot be aborted any more
(`merge_left_unabortable`), and this is the only obstacle: until then another abort does what
the first one should have done (`abort_recovers_iff`). A `git worktree remove` that fails is taken to
have changed nothing, so a worktree is there or gone.
-/

namespace AgentDev

open Interleaving

/-! ## Interrupted requests and their repetition -/

/-- A parallel task of the project that is neither merged nor aborted. -/
structure PendingTask (project task : Name) (record : TaskRecord) (world : World) : Prop where
  recorded : world.tasks.lookup task = some record
  ofProject : record.project = project
  ofTask : record.task = task
  pending : isPendingParallel record = true
  named : record.Named task

/-- The world that the broker finds when it starts again: locks and containers do not survive. -/
def World.restart (world : World) : World := { world with locks := [], containers := [] }

/-- The environment lets no step fail. -/
def reliable : Guard Action.Reply World Choice := fun _ _ _ choice => choice.isFault = false

/-- A Git command of an abort has not succeeded. -/
def gitFails (e : Event Action.Reply) : Bool :=
  match e with
  | ⟨_, .worktreeRemove _ _, (false : Bool)⟩ => true
  | ⟨_, .branchDelete _ _, (false : Bool)⟩ => true
  | _ => false

/-- The event has removed the worktree of the task. -/
def removesWorktree (task : Name) (e : Event Action.Reply) : Bool :=
  match e with
  | ⟨_, .worktreeRemove (.worktree other) _, (true : Bool)⟩ => decide (other = task)
  | _ => false

/-- The task has been aborted, and nothing is left of it but the record. -/
structure Aborted (task : Name) (record : TaskRecord) (world : World) : Prop where
  status : record.status = .aborted
  recorded : world.tasks.lookup task = some record
  worktree : world.hasWorktree task = false
  branch : world.hasBranch record.branch = false

/-- Every abort of the task whose Git commands succeed aborts it. -/
def Recovers (project task : Name) (world : World) : Prop :=
  ∀ c, machine.Reaches (reliable.only 0) (pool project (fun _ => .taskAbort task) world) c →
    machine.Final reliable 0 c → (∀ e ∈ c.trace, gitFails e = false) →
    ∃ record, c.programs 0 = .ret (.record record) ∧ Aborted task record c.state

/-! ## Up to the interruption -/

/-- What the steps of a request that may fail do to the ledger. -/
def fallibleEffect : Effects Action.Reply Ledger := fun L action reply L' =>
  L' = L.after action reply ∧ ((∀ branch, action ≠ .showRef branch) → L.Tells action reply)

/-- Records and branches are changed when the worktree is gone. -/
def RemovesFirst (task : Name) (L : Ledger) : Action → Prop
  | .writeRecord _ _ | .branchDelete _ _ => task ∉ L.worktrees
  | .worktreeRemove workspace _ => workspace = .worktree task
  | .worktreeAdd _ _ => False
  | _ => True

/-- Steps after the worktree has been removed. -/
def Action.afterRemoval : Action → Prop
  | .worktreeAdd _ _ | .worktreeRemove _ _ => False
  | _ => True

/-- What a part of an abort or merge does first. -/
abbrev Removes {α : Type} (task : Name) (Q : α → Ledger → Prop) (L : Ledger) (body : Op α) : Prop :=
  Spec fallibleEffect (RemovesFirst task) Q (fun _ _ => True) L body

section

variable {project task : Name} {record : TaskRecord} {L : Ledger} {α β : Type}
  {Q : β → Ledger → Prop}

theorem alone_fallible {guard : Guard Action.Reply World Choice} {i : Nat} {v v' : WorldView}
    {action : Action} {reply : action.Reply} (h : machine.alone guard i v action reply v') :
    fallibleEffect v.state.ledger action reply v'.state.ledger := by
  refine ⟨alone_changes h, fun hother => ?_⟩
  obtain ⟨choice, state, -, hexec, -⟩ := h
  exact exec_tells (fun branch heq => absurd heq (hother branch)) hexec

theorem alone_of_fallible {guard : Guard Action.Reply World Choice} {i : Nat} {v : WorldView}
    {body : Op α} {allowed : Ledger → Action → Prop} {post : α → Ledger → Prop}
    {postE : Error → Ledger → Prop}
    (hbody : Spec fallibleEffect allowed post postE v.state.ledger body) :
    Spec (machine.alone guard i) (fun v => allowed v.state.ledger)
      (fun value v => post value v.state.ledger) (fun error v => postE error v.state.ledger) v
      body :=
  Spec.of_simulation (fun _ _ _ _ => alone_fallible) hbody

theorem removesFirst_of_quiet {action : Action} (h : action.quiet) : RemovesFirst task L action := by
  cases action with
  | writeRecord => exact h.elim
  | branchDelete => exact h.elim
  | worktreeRemove => exact h.elim
  | worktreeAdd => exact h.elim
  | _ => trivial

theorem removes_quiet_bind {first : Op α} {next : α → Op β} (hfirst : first.Only Action.quiet)
    (hnext : ∀ value L', Removes task Q L' (next value)) : Removes task Q L (first >>= next) := by
  have hquiet : Removes task (fun _ _ => True) L first :=
    Spec.of_only (I := fun _ => True) hfirst (fun _ _ _ h => removesFirst_of_quiet h)
      (fun _ _ _ _ _ _ _ => trivial) trivial
  exact hquiet.bind fun value L' _ => hnext value L'

/-- Everything that comes after the removal. -/
theorem removes_rest {body : Op α} (hbody : body.Only Action.afterRemoval)
    (hgone : task ∉ L.worktrees) : Removes task (fun _ L' => task ∉ L'.worktrees) L body := by
  refine (Spec.of_only (I := fun L' => task ∉ L'.worktrees) hbody ?_ ?_ hgone).mono
    (fun _ _ h => h) fun _ _ _ => trivial
  · intro L' action hgone hafter
    cases action with
    | worktreeAdd => exact hafter.elim
    | worktreeRemove => exact hafter.elim
    | writeRecord => exact hgone
    | branchDelete => exact hgone
    | _ => trivial
  · rintro L' action reply L'' hgone hafter ⟨rfl, -⟩
    cases action with
    | worktreeAdd => exact hafter.elim
    | worktreeRemove => exact hafter.elim
    | writeRecord => cases (reply : Bool) <;> exact hgone
    | branchDelete => cases (reply : Bool) <;> exact hgone
    | _ => exact hgone

theorem removes_lockOne {lock : Name} {body : Op α} (hbody : ∀ L', Removes task (fun _ _ => True) L' body) :
    Removes task (fun _ _ => True) L (lockOne lock false body) := by
  refine spec_lockOne (Q := fun _ _ => True) (E := fun _ _ => True) trivial (fun L' _ => hbody L')
    ?_ ?_
  · exact fun _ _ _ => ⟨trivial, fun _ _ => trivial⟩
  · exact fun _ _ _ => ⟨trivial, fun _ _ => trivial⟩

/-- The workspace is the one that the record selects. -/
theorem loadTask_removes :
    Removes task (fun value _ => value.2 = workspaceOf task value.1) L (loadTask project task) := by
  refine removes_quiet_bind (only_check trivial) fun _ _ => ?_
  refine removes_quiet_bind (only_act trivial) fun _ _ => ?_
  refine removes_quiet_bind only_orFail fun record _ => ?_
  refine removes_quiet_bind only_require fun _ _ => removes_quiet_bind only_require fun _ _ => ?_
  exact removes_quiet_bind (only_check trivial) fun _ _ => rfl

/-- The workspace of a pending task is its worktree. -/
theorem workspaceOf_pending (h : isPendingParallel record = true) :
    workspaceOf task record = .worktree task := by
  simp only [isPendingParallel, Bool.and_eq_true, Bool.or_eq_true, decide_eq_true_eq] at h
  obtain ⟨hparallel, hactive | hcompleted⟩ := h
  · simp [workspaceOf, hparallel, hactive]
  · simp [workspaceOf, hparallel, hcompleted]

theorem abortParallelWorktree_removes :
    Removes task (fun _ L' => task ∉ L'.worktrees) L
      (abortParallelWorktree record (.worktree task)) := by
  have hbranch : (do
      if ← act (.showRef record.branch) then
        check (.branchDelete record.branch true) id (.internal "git branch") : Op Unit).Only
          Action.afterRemoval := by
    refine Program.only_bind (only_act trivial) fun (found : Bool) => ?_
    cases found with
    | false => trivial
    | true => exact only_check trivial
  refine spec_act trivial ?_
  rintro (found : Bool) L' ⟨rfl, htells⟩
  have hfound : found = true ↔ task ∈ L'.worktrees := htells fun _ heq => nomatch heq
  cases found with
  | false => exact removes_rest hbranch fun hmem => nomatch hfound.mpr hmem
  | true =>
    refine spec_check rfl (fun _ _ _ _ => trivial) ?_
    rintro (removed : Bool) L₁ ⟨rfl, -⟩ (rfl : removed = true)
    exact removes_rest hbranch fun hmem => hmem.2 rfl

theorem mergeParallelWorktree_removes :
    Removes task (fun _ L' => task ∉ L'.worktrees) L
      (mergeParallelWorktree record (.worktree task)) := by
  refine removes_quiet_bind (only_ensureClean trivial) fun _ _ => ?_
  refine removes_quiet_bind (only_ensureClean trivial) fun _ _ => ?_
  refine removes_quiet_bind validateRecordedHead_only fun head _ => ?_
  refine removes_quiet_bind (only_check trivial) fun _ _ => ?_
  refine removes_quiet_bind (only_act trivial) fun (merged : Bool) _ => ?_
  cases merged with
  | false => exact removes_quiet_bind (only_act trivial) fun _ _ => trivial
  | true =>
    refine removes_quiet_bind (only_act trivial) fun reply _ => ?_
    refine removes_quiet_bind only_orFail fun mergeCommit L₁ => ?_
    refine spec_check rfl (fun _ _ _ _ => trivial) ?_
    rintro (removed : Bool) L₂ ⟨rfl, -⟩ (rfl : removed = true)
    refine removes_rest ?_ fun hmem => hmem.2 rfl
    exact Program.only_bind (only_check trivial) fun _ => trivial

/-- The record is written at last. -/
theorem removes_record {found : Nat → TaskRecord} (hgone : task ∉ L.worktrees) :
    Removes task (fun _ _ => True) L (do
      let now ← act .nowIso
      writeJson task (found now)
      pure (found now)) := by
  have hwrite : (do
      let now ← act .nowIso
      writeJson task (found now)
      pure (found now) : Op TaskRecord).Only Action.afterRemoval := by
    refine Program.only_bind (only_act trivial) fun now => ?_
    exact Program.only_bind (only_check trivial) fun _ => trivial
  exact (removes_rest hwrite hgone).mono (fun _ _ _ => trivial) fun _ _ _ => trivial

theorem taskAbort_removes : Removes task (fun _ _ => True) L (taskAbort project task) := by
  refine loadTask_removes.bind ?_
  rintro ⟨record, workspace⟩ L' (rfl : workspace = workspaceOf task record)
  refine spec_require trivial fun hpending => ?_
  rw [workspaceOf_pending hpending]
  refine removes_lockOne fun _ => removes_lockOne fun _ => ?_
  exact Spec.bind abortParallelWorktree_removes fun _ L₁ hgone => removes_record hgone

theorem taskMerge_removes : Removes task (fun _ _ => True) L (taskMerge project task) := by
  refine loadTask_removes.bind ?_
  rintro ⟨record, workspace⟩ L' (rfl : workspace = workspaceOf task record)
  refine spec_require trivial fun hok => ?_
  have hpending : isPendingParallel record = true := by
    simp only [Bool.and_eq_true, decide_eq_true_eq] at hok
    simp [isPendingParallel, hok]
  rw [workspaceOf_pending hpending]
  refine removes_lockOne fun _ => removes_lockOne fun _ => ?_
  exact Spec.bind mergeParallelWorktree_removes fun mergeCommit L₁ hgone => removes_record hgone

end

/-! ### What an interrupted request leaves behind -/

/-- The worktree is gone exactly when it was not there before or has been removed, and as long as it is
there nothing has changed. -/
structure Interrupted (task : Name) (L : Ledger) (v : WorldView) : Prop where
  worktree : task ∈ v.state.ledger.worktrees ↔
    task ∈ L.worktrees ∧ ∀ e ∈ v.trace, removesWorktree task e = false
  same : task ∈ v.state.ledger.worktrees → v.state.ledger = L

section

variable {task : Name} {L : Ledger} {guard : Guard Action.Reply World Choice} {i : Nat}
  {v v' : WorldView} {action : Action} {reply : action.Reply}

/-- A step that keeps the worktree. -/
theorem Interrupted.keep (h : Interrupted task L v) (halone : machine.alone guard i v action reply v')
    (hworktrees : task ∈ v'.state.ledger.worktrees ↔ task ∈ v.state.ledger.worktrees)
    (hsame : task ∈ v.state.ledger.worktrees → v'.state.ledger = v.state.ledger)
    (hother : removesWorktree task ⟨i, action, reply⟩ = false) : Interrupted task L v' := by
  refine ⟨?_, fun hmem => ?_⟩
  · rw [hworktrees, h.worktree, alone_trace halone]
    constructor
    · exact fun ⟨hmem, htrace⟩ => ⟨hmem, forall_snoc htrace hother⟩
    · exact fun ⟨hmem, htrace⟩ => ⟨hmem, fun e he => htrace e (List.mem_append_left _ he)⟩
  · have hmem' := hworktrees.mp hmem
    exact (hsame hmem').trans (h.same hmem')

theorem Interrupted.step (h : Interrupted task L v)
    (hfirst : RemovesFirst task v.state.ledger action)
    (halone : machine.alone guard i v action reply v') : Interrupted task L v' := by
  have hledger := alone_changes halone
  cases action with
  | writeRecord task' record =>
    have hworktrees : v'.state.ledger.worktrees = v.state.ledger.worktrees := by
      rw [hledger]
      cases (reply : Bool) <;> rfl
    refine h.keep halone (by rw [hworktrees]) (fun hmem => absurd hmem hfirst) rfl
  | branchDelete branch force =>
    have hworktrees : v'.state.ledger.worktrees = v.state.ledger.worktrees := by
      rw [hledger]
      cases (reply : Bool) <;> rfl
    exact h.keep halone (by rw [hworktrees]) (fun hmem => absurd hmem hfirst) rfl
  | worktreeRemove workspace force =>
    obtain rfl : workspace = .worktree task := hfirst
    cases (reply : Bool) with
    | false => exact h.keep halone (by rw [hledger]; rfl) (fun _ => hledger) rfl
    | true =>
      have hgone : task ∉ v'.state.ledger.worktrees := by
        rw [hledger]
        exact fun hmem => hmem.2 rfl
      refine ⟨iff_of_false hgone fun ⟨_, htrace⟩ => ?_, fun hmem => absurd hmem hgone⟩
      have hlast := htrace ⟨i, .worktreeRemove (.worktree task) force, true⟩ (by
        rw [alone_trace halone]
        exact List.mem_append_right _ (List.mem_singleton_self _))
      simp [removesWorktree] at hlast
  | worktreeAdd => exact hfirst.elim
  | _ => exact h.keep halone (by rw [hledger]; rfl) (fun _ => hledger) rfl

theorem interrupted_of_removes {α : Type} {v₀ : WorldView} {programs : Nat → Op α}
    {c : Config Action.Reply World Error α}
    (hbody : Removes task (fun _ _ => True) v₀.state.ledger (programs 0))
    (htrace : v₀.trace = []) (hrun : machine.Reaches (anyStep.only 0) ⟨programs, v₀⟩ c) :
    Interrupted task v₀.state.ledger c.view := by
  have hspec : Spec (machine.alone anyStep 0) (fun v => RemovesFirst task v.state.ledger)
      (fun _ _ => True) (fun _ _ => True) v₀ (programs 0) :=
    alone_of_fallible hbody
  have hstart : Interrupted task v₀.state.ledger v₀ := by
    refine ⟨⟨fun hmem => ⟨hmem, fun e he => ?_⟩, And.left⟩, fun _ => rfl⟩
    rw [htrace] at he
    cases he
  exact Spec.kept (c := ⟨programs, v₀⟩) hspec
    (fun _ _ _ _ hfirst halone h => h.step hfirst halone) hrun hstart

end

/-! ## Another abort -/

theorem reliable_tolerant : Tolerant reliable := fun _ _ _ _ hfault => hfault

theorem overlooks_gitFails : Overlooks gitFails := by
  intro i action reply hsilent
  cases action with
  | worktreeRemove => exact hsilent.elim
  | branchDelete => exact hsilent.elim
  | _ => rfl

section

variable {i : Nat} {v v' : WorldView}

theorem reliable_tells {action : Action} {reply : action.Reply}
    (h : machine.alone reliable i v action reply v') : v.state.ledger.Tells action reply := by
  obtain ⟨choice, state, hfault, hexec, -⟩ := h
  refine exec_tells (fun branch _ hchoice => ?_) hexec
  rw [hchoice] at hfault
  cases hfault

theorem reliable_probe {probe : Probe} {ok : Bool}
    (h : machine.alone reliable i v (.probe probe) ok v') : ok = true := by
  obtain ⟨choice, state, hfault, hexec, -⟩ := h
  cases choice with
  | go => exact (congrArg Prod.fst (Option.some.inj hexec)).symm
  | fault => cases hfault
  | _ => cases hexec

theorem reliable_writeRecord {task : Name} {record : TaskRecord} {ok : Bool}
    (h : machine.alone reliable i v (.writeRecord task record) ok v') : ok = true := by
  obtain ⟨choice, state, hfault, hexec, -⟩ := h
  cases choice with
  | go => exact (congrArg Prod.fst (Option.some.inj hexec)).symm
  | fault => cases hfault
  | _ => cases hexec

end

/-- A Git command of the abort has not succeeded. -/
def GitFailed (v : WorldView) : Prop := ∃ e ∈ v.trace, gitFails e = true

theorem aborted_iff {task : Name} {record : TaskRecord} {world : World} :
    Aborted task record world ↔ record.status = .aborted ∧
      world.ledger.records task = some record ∧ task ∉ world.ledger.worktrees ∧
      record.branch ∉ world.ledger.branches := by
  constructor
  · rintro ⟨hstatus, hrecorded, hworktree, hbranch⟩
    exact ⟨hstatus, hrecorded, fun hmem => Bool.false_ne_true (hworktree.symm.trans hmem),
      fun hmem => Bool.false_ne_true (hbranch.symm.trans hmem)⟩
  · rintro ⟨hstatus, hrecorded, hworktree, hbranch⟩
    exact ⟨hstatus, hrecorded, Bool.eq_false_iff.mpr hworktree, Bool.eq_false_iff.mpr hbranch⟩

theorem aborted_congr {task : Name} {record : TaskRecord} {world world' : World}
    (h : world'.ledger = world.ledger) : Aborted task record world' ↔ Aborted task record world := by
  rw [aborted_iff, aborted_iff, h]

section

variable {project task : Name} {record : TaskRecord} {L : Ledger} {locks : LockTable Name}
  {v v' : WorldView} {α β : Type}

theorem GitFailed.snoc {action : Action} {reply : action.Reply} (h : GitFailed v)
    (halone : machine.alone reliable 0 v action reply v') : GitFailed v' := by
  obtain ⟨e, he, hfails⟩ := h
  exact ⟨e, by rw [alone_trace halone]; exact List.mem_append_left _ he, hfails⟩

theorem gitFailed_last {action : Action} {reply : action.Reply}
    (halone : machine.alone reliable 0 v action reply v')
    (hfails : gitFails ⟨0, action, reply⟩ = true) : GitFailed v' :=
  ⟨_, by rw [alone_trace halone]; exact List.mem_append_right _ (List.mem_singleton_self _), hfails⟩

/-- A task without a worktree cannot be aborted. -/
theorem taskAbort_rejects (h : Untouched gitFails L locks v) (hgone : task ∉ L.worktrees) :
    Does reliable (fun _ _ => False) (fun v' => ∀ e ∈ v'.trace, gitFails e = false) v
      (taskAbort project task) := by
  have hload : Does reliable (fun value v' => Untouched gitFails L locks v' ∧
      isPendingParallel value.1 = false) (fun v' => ∀ e ∈ v'.trace, gitFails e = false) v
      (loadTask project task) := by
    refine untouched_bind h reliable_tolerant overlooks_gitFails (only_check trivial)
      (fun _ h' => h'.trace) fun _ v₁ h₁ => ?_
    refine untouched_bind h₁ reliable_tolerant overlooks_gitFails (only_act trivial)
      (fun _ h' => h'.trace) fun reply v₂ h₂ => ?_
    refine spec_orFail h₂.trace fun record _ => ?_
    refine spec_require h₂.trace fun _ => spec_require h₂.trace fun _ => ?_
    refine spec_check (enabled_unlocking reliable_tolerant rfl) ?_ ?_
    · intro found v₃ halone _
      exact (h₂.look halone overlooks_gitFails trivial).trace
    · rintro (found : Bool) v₃ halone (rfl : found = true)
      refine ⟨h₂.look halone overlooks_gitFails trivial, ?_⟩
      show isPendingParallel record = false
      by_contra hpending
      have htells := reliable_tells halone
      rw [workspaceOf_pending (Bool.of_not_eq_false hpending), h₂.ledger] at htells
      exact hgone (htells.mp rfl)
  refine hload.bind ?_
  rintro ⟨record, workspace⟩ v₁ ⟨h₁, hclosed⟩
  refine spec_require h₁.trace fun hpending => ?_
  exact absurd (hclosed.symm.trans hpending) Bool.false_ne_true

theorem loadTask_finds_pending (h : Untouched gitFails L locks v)
    (hrecorded : L.records task = some record) (hproject : record.project = project)
    (htask : record.task = task) (hpending : isPendingParallel record = true)
    (hworktree : task ∈ L.worktrees) :
    Does reliable (fun value v' => Untouched gitFails L locks v' ∧ value = (record, .worktree task))
      GitFailed v (loadTask project task) := by
  refine spec_check (enabled_unlocking reliable_tolerant rfl) ?_ ?_
  · rintro (ok : Bool) v₁ halone (rfl : ok = false)
    cases reliable_probe halone
  intro _ v₁ halone₁ _
  have h₁ := h.look halone₁ overlooks_gitFails trivial
  refine spec_act (enabled_unlocking reliable_tolerant rfl) fun reply v₂ halone₂ => ?_
  have h₂ := h₁.look halone₂ overlooks_gitFails trivial
  have hread : reply = some record := by
    have htells : reply = v₁.state.ledger.records task := reliable_tells halone₂
    rw [htells, h₁.ledger, hrecorded]
  rw [hread]
  have hstatus : record.status ≠ .aborted := by
    intro habort
    simp [isPendingParallel, habort] at hpending
  show Does reliable _ _ v₂ (require _ _ >>= _)
  simp only [hproject, htask, hstatus, ne_eq, not_false_eq_true, decide_true, Bool.and_self]
  refine spec_check (enabled_unlocking reliable_tolerant rfl) ?_ ?_
  · rintro (found : Bool) v₃ halone (rfl : found = false)
    have htells := reliable_tells halone
    rw [workspaceOf_pending hpending, h₂.ledger] at htells
    cases htells.mpr hworktree
  · intro found v₃ halone _
    exact ⟨h₂.look halone overlooks_gitFails trivial,
      congrArg (Prod.mk record) (workspaceOf_pending hpending)⟩

/-- The worktree and the branch are removed, or a Git command has not succeeded. -/
theorem abortParallelWorktree_closes (h : Untouched gitFails L locks v)
    (hworktree : task ∈ L.worktrees) :
    Does reliable (fun _ v' => ∃ L', Untouched gitFails L' locks v' ∧ task ∉ L'.worktrees ∧
        record.branch ∉ L'.branches) GitFailed v
      (abortParallelWorktree record (.worktree task)) := by
  refine spec_act (enabled_unlocking reliable_tolerant rfl) ?_
  rintro (found : Bool) v₁ halone₁
  have h₁ := h.look halone₁ overlooks_gitFails trivial
  have hfound : found = true := by
    have htells : found = true ↔ task ∈ v.state.ledger.worktrees := reliable_tells halone₁
    rw [h.ledger] at htells
    exact htells.mpr hworktree
  subst hfound
  refine spec_check (enabled_unlocking reliable_tolerant rfl) ?_ ?_
  · rintro (removed : Bool) v₂ halone₂ (rfl : removed = false)
    exact gitFailed_last halone₂ rfl
  rintro (removed : Bool) v₂ halone₂ (rfl : removed = true)
  have h₂ := h₁.step halone₂ ⟨rfl, rfl⟩ rfl
  have hgone : task ∉ L.worktrees \ {task} := fun hmem => hmem.2 rfl
  refine spec_act (enabled_unlocking reliable_tolerant rfl) ?_
  rintro (found : Bool) v₃ halone₃
  have h₃ := h₂.look halone₃ overlooks_gitFails trivial
  have htells : found = true ↔ record.branch ∈ v₂.state.ledger.branches := reliable_tells halone₃
  rw [h₂.ledger] at htells
  cases found with
  | false => exact ⟨_, h₃, hgone, fun hmem => nomatch htells.mpr hmem⟩
  | true =>
    refine ⟨enabled_unlocking reliable_tolerant rfl, ?_⟩
    rintro (deleted : Bool) v₄ halone₄
    cases deleted with
    | false => exact gitFailed_last halone₄ rfl
    | true => exact ⟨_, h₃.step halone₄ ⟨rfl, rfl⟩ rfl, hgone, fun hmem => hmem.2 rfl⟩

theorem abortTaskLocked_aborts (h : Untouched gitFails L locks v) (hworktree : task ∈ L.worktrees) :
    Does reliable (fun record' v' => Aborted task record' v'.state) GitFailed v
      (abortTaskLocked task record (.worktree task)) := by
  refine (abortParallelWorktree_closes h hworktree).bind ?_
  rintro _ v₁ ⟨L₁, h₁, hgone, hbranch⟩
  refine spec_act (enabled_unlocking reliable_tolerant rfl) fun now v₂ halone₂ => ?_
  have h₂ := h₁.look halone₂ overlooks_gitFails trivial
  refine spec_check (enabled_unlocking reliable_tolerant rfl) ?_ ?_
  · rintro (written : Bool) v₃ halone₃ (rfl : written = false)
    cases reliable_writeRecord halone₃
  rintro (written : Bool) v₃ halone₃ (rfl : written = true)
  have h₃ := h₂.step halone₃ ⟨rfl, rfl⟩ rfl
  refine aborted_iff.mpr ⟨rfl, ?_, ?_, ?_⟩
  · rw [h₃.ledger]
    exact Ledger.enter_self
  · rw [h₃.ledger]
    exact hgone
  · rw [h₃.ledger]
    exact hbranch

theorem lockOne_aborts {lock : Name} {body : Op TaskRecord} (h : Untouched gitFails L locks v)
    (hfree : locks.grants lock false = true)
    (hbody : ∀ v', Untouched gitFails L (⟨0, lock, false⟩ :: locks) v' →
      Does reliable (fun record' v' => Aborted task record' v'.state) GitFailed v' body) :
    Does reliable (fun record' v' => Aborted task record' v'.state) GitFailed v
      (lockOne lock false body) := by
  refine spec_lockOne ?_ (fun v' halone => hbody v' (h.acquire overlooks_gitFails halone)) ?_ ?_
  · refine enabled_acquire reliable_tolerant ?_
    rw [h.locks]
    exact hfree
  · intro record' v' haborted
    refine ⟨enabled_unlocking reliable_tolerant rfl, fun v'' halone => ?_⟩
    exact (aborted_congr (alone_changes halone)).mpr haborted
  · intro error v' hfailed
    exact ⟨enabled_unlocking reliable_tolerant rfl, fun v'' halone => hfailed.snoc halone⟩

/-- A pending task with a worktree is aborted, or a Git command has not succeeded. -/
theorem taskAbort_aborts (h : Untouched gitFails L [] v)
    (hrecorded : L.records task = some record) (hproject : record.project = project)
    (htask : record.task = task) (hpending : isPendingParallel record = true)
    (hnamed : record.Named task) (hworktree : task ∈ L.worktrees) :
    Does reliable (fun record' v' => Aborted task record' v'.state) GitFailed v
      (taskAbort project task) := by
  refine (loadTask_finds_pending h hrecorded hproject htask hpending hworktree).bind ?_
  rintro value v₁ ⟨h₁, rfl⟩
  have hne : task ≠ integrationLock := (hnamed (isPendingParallel_mode hpending)).1
  have hvalid : validateTaskAbort record = pure () := if_pos hpending
  show Does reliable _ _ v₁ (validateTaskAbort record >>= _)
  rw [hvalid]
  refine lockOne_aborts h₁ rfl fun v₂ h₂ => lockOne_aborts h₂ ?_ fun v₃ h₃ => ?_
  · simp [LockTable.grants, Ne.symm hne]
  · exact abortTaskLocked_aborts h₃ hworktree

end

/-! ## When it recovers -/

section

variable {project task : Name} {record : TaskRecord} {request : Request} {world : World} {c : Pool}

theorem recovers_iff_worktree {world' : World} (hledger : world'.hasWorktree task = true →
      world'.ledger = world.ledger) (hlocks : world'.locks = [])
    (hpending : PendingTask project task record world) :
    Recovers project task world' ↔ world'.hasWorktree task = true := by
  let c₀ := pool project (fun _ => .taskAbort task) world'
  have hstart : Untouched gitFails world'.ledger [] c₀.view :=
    ⟨rfl, hlocks, fun _ hmem => nomatch hmem⟩
  constructor
  · intro hrecovers
    by_contra hgone
    have hspec : Does reliable (fun _ _ => False) (fun v => ∀ e ∈ v.trace, gitFails e = false)
        c₀.view (c₀.programs 0) :=
      (taskAbort_rejects hstart hgone).bind fun _ _ hfalse => hfalse.elim
    obtain ⟨c, hrun, hfinal⟩ := hspec.exists_final fun _ _ henabled => henabled
    rcases hspec.ended_of_final (fun _ _ henabled => henabled) hrun hfinal with
      ⟨_, -, hfalse⟩ | ⟨error, hfail, hclean⟩
    · exact hfalse
    · obtain ⟨record', hret, -⟩ := hrecovers c hrun hfinal hclean
      rw [hfail] at hret
      cases hret
  · intro hworktree c hrun hfinal hclean
    have hrecorded : world'.ledger.records task = some record := by
      rw [hledger hworktree]
      exact hpending.recorded
    have hspec : Does reliable (fun outcome v => ∃ record', outcome = .record record' ∧
        Aborted task record' v.state) GitFailed c₀.view (c₀.programs 0) :=
      (taskAbort_aborts hstart hrecorded hpending.ofProject hpending.ofTask hpending.pending
        hpending.named hworktree).bind fun record' v haborted => ⟨record', rfl, haborted⟩
    rcases hspec.ended_of_final (fun _ _ henabled => henabled) hrun hfinal with
      ⟨_, hret, record', rfl, haborted⟩ | ⟨error, -, e, he, hfails⟩
    · exact ⟨record', hret, haborted⟩
    · exact absurd ((hclean e he).symm.trans hfails) Bool.false_ne_true

/-- Wherever an abort or merge of a pending task stops, another abort succeeds exactly if there was a
worktree and it has not been removed. -/
theorem abort_recovers_iff (hpending : PendingTask project task record world)
    (hrequest : request = .taskAbort task ∨ request = .taskMerge task)
    (hrun : machine.Reaches (anyStep.only 0) (pool project (fun _ => request) world) c) :
    Recovers project task c.state.restart ↔
      world.hasWorktree task = true ∧ ∀ e ∈ c.trace, removesWorktree task e = false := by
  have hremoves : Removes task (fun _ _ => True) world.ledger
      ((pool project (fun _ => request) world).programs 0) := by
    rcases hrequest with rfl | rfl
    · exact taskAbort_removes.bind fun _ _ _ => trivial
    · exact taskMerge_removes.bind fun _ _ _ => trivial
  have hinterrupted : Interrupted task world.ledger c.view :=
    interrupted_of_removes hremoves rfl hrun
  have hretry : Recovers project task c.state.restart ↔ c.state.restart.hasWorktree task = true :=
    recovers_iff_worktree hinterrupted.same rfl hpending
  exact hretry.trans hinterrupted.worktree

end

theorem parallelProject_pending :
    PendingTask exampleProject exampleTask exampleCompleted parallelProject :=
  ⟨rfl, rfl, rfl, rfl, parallelProject_reserved.stored exampleTask exampleCompleted rfl⟩

theorem abort_recovers_iff_example :
    ∃ c, machine.Reaches (anyStep.only 0)
        (pool exampleProject (fun _ => .taskAbort exampleTask) parallelProject) c ∧
      c.trace.length = 7 ∧
      (Recovers exampleProject exampleTask c.state.restart ↔
        parallelProject.hasWorktree exampleTask = true ∧
          ∀ e ∈ c.trace, removesWorktree exampleTask e = false) := by
  have hvalue : (machine.run (fun _ j _ _ => j = 0)
      (pool exampleProject (fun _ => .taskAbort exampleTask) parallelProject)
      (goes 0 6 ++ [(0, .fault)])).map (fun c => c.trace.length) = some 7 := by
    decide +kernel
  obtain ⟨c, hrun, hc⟩ := Machine.exists_of_guarded_run only_thread hvalue
  exact ⟨c, hrun, hc, abort_recovers_iff parallelProject_pending (Or.inl rfl) hrun⟩

/-- The broker stops after the merge has removed the worktree. The record still says `completed`, and the
abort that should close the task is rejected although no command fails. -/
theorem merge_left_unabortable :
    ∃ c c', machine.Reaches (anyStep.only 0)
        (pool exampleProject (fun _ => .taskMerge exampleTask) parallelProject) c ∧
      c.state.tasks.lookup exampleTask = some exampleCompleted ∧
      machine.Reaches (reliable.only 0)
        (pool exampleProject (fun _ => .taskAbort exampleTask) c.state.restart) c' ∧
      c'.programs 0 = .fail (.internal "task workspace") ∧
      ¬Recovers exampleProject exampleTask c.state.restart := by
  have hvalue : ((machine.run (fun _ j _ _ => j = 0)
      (pool exampleProject (fun _ => .taskMerge exampleTask) parallelProject) (goes 0 13)).bind
        fun c => (machine.run (fun _ j _ choice => j = 0 && !choice.isFault)
          (pool exampleProject (fun _ => .taskAbort exampleTask) c.state.restart)
          (goes 0 3)).map fun c' =>
            (c.state.tasks.lookup exampleTask, c.state.hasWorktree exampleTask,
              (c'.programs 0).error?)) =
      some (some exampleCompleted, false, some (.internal "task workspace")) := by
    decide +kernel
  have hreliable : ∀ (v : WorldView) (j : Nat) (action : Action) (choice : Choice),
      (decide (j = 0) && !choice.isFault) = true → (reliable.only 0) v j action choice := by
    intro v j action choice h
    simp only [Bool.and_eq_true, decide_eq_true_eq, Bool.not_eq_true'] at h
    exact h
  obtain ⟨c, c', hrun, hrun', hc⟩ := Machine.exists_of_two_runs only_thread hreliable
    (fun c => pool exampleProject (fun _ => .taskAbort exampleTask) c.state.restart) hvalue
  simp only [Prod.mk.injEq, Program.error?_eq_some_iff] at hc
  obtain ⟨hrecord, hgone, hfail⟩ := hc
  have hworktree : ¬c.state.restart.hasWorktree exampleTask = true :=
    fun hmem => Bool.false_ne_true (hgone.symm.trans hmem)
  refine ⟨c, c', hrun, hrecord, hrun', hfail, ?_⟩
  rw [recovers_iff_worktree (fun hmem => absurd hmem hworktree) rfl parallelProject_pending]
  exact hworktree

end AgentDev
