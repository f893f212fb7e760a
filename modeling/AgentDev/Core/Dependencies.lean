import AgentDev.Core.Lifecycle
import Mathlib.Logic.Relation

/-!
# Dependencies between tasks

A start checks the dependencies of its task once (`core/dependencies.py`): each of them has a record
of an integrated task, whose commit is in the base of the new task. That this stays so rests on
three facts about requests that are served one at a time: no request writes an integrated
record again, a continued record keeps its base and its dependencies, and commits are never
lost. Since a new task depends only on tasks that are there, and none of these on it, the
dependencies have no cycles (`dependencies_grounded`).
-/

namespace AgentDev

open Interleaving

/-! ## Relations that grow -/

section

variable {α : Type} {r r' : α → α → Prop} {a : α}

/-- A path does not pass through an element that nothing leads to. -/
theorem transGen_of_extended (hsame : ∀ x y, x ≠ a → r' x y → r x y) (hfresh : ∀ x, ¬r' x a)
    {x y : α} (hx : x ≠ a) (h : Relation.TransGen r' x y) : Relation.TransGen r x y := by
  induction h with
  | single hstep => exact .single (hsame _ _ hx hstep)
  | @tail y z hpath hstep ih =>
    have hy : y ≠ a := by
      rintro rfl
      rcases Relation.TransGen.tail'_iff.mp hpath with ⟨last, -, hlast⟩
      exact hfresh last hlast
    exact ih.tail (hsame _ _ hy hstep)

/-- No cycles arise from edges out of an element that nothing leads to. -/
theorem acyclic_extended (hacyclic : ∀ x, ¬Relation.TransGen r x x)
    (hsame : ∀ x y, x ≠ a → r' x y → r x y) (hfresh : ∀ x, ¬r' x a) (x : α) :
    ¬Relation.TransGen r' x x := by
  intro hcycle
  have hx : x ≠ a := by
    rintro rfl
    rcases Relation.TransGen.tail'_iff.mp hcycle with ⟨last, -, hlast⟩
    exact hfresh last hlast
  exact hacyclic x (transGen_of_extended hsame hfresh hx hcycle)

end

/-! ## Archives -/

/-- The integrated commit of a task, if it is integrated. -/
def TaskRecord.integrated? (record : TaskRecord) : Option Commit :=
  match record.mode, record.status with
  | .parallel, .merged => record.mergeCommit
  | .integration, .completed => record.headCommit
  | _, _ => none

/-- The records, and the commits that they are about. -/
structure Archive where
  records : Name → Option TaskRecord
  graph : Commits.Graph

def World.archive (world : World) : Archive := ⟨world.tasks.lookup, world.repo.graph⟩

namespace Archive

variable {a a' a'' : Archive} {task dep : Name} {record : TaskRecord} {base : Commit}

/-- The task is integrated in the commit `base`. -/
def Integrated (a : Archive) (dep : Name) (base : Commit) : Prop :=
  ∃ record commit, a.records dep = some record ∧ record.integrated? = some commit ∧
    a.graph.Anc commit base

/-- `dep` is listed among the dependencies of `task`. -/
def DependsOn (a : Archive) (task dep : Name) : Prop :=
  ∃ record, a.records task = some record ∧ dep ∈ record.dependencies

/-- Every dependency is integrated in the base of its task, and there are no cycles. -/
structure Grounded (a : Archive) : Prop where
  integrated : ∀ task record, a.records task = some record →
    ∀ dep ∈ record.dependencies, a.Integrated dep record.baseCommit
  acyclic : ∀ task, ¬Relation.TransGen a.DependsOn task task

/-- The records that may be written: one of a new task with integrated dependencies, or one that
continues a record that is not integrated. -/
inductive Enters (a : Archive) (task : Name) (record : TaskRecord) : Prop
  | start (hnew : a.records task = none)
      (hdependencies : ∀ dep ∈ record.dependencies, a.Integrated dep record.baseCommit)
  | update (old : TaskRecord) (hold : a.records task = some old) (hopen : old.integrated? = none)
      (hcontinues : record.Continues old)

/-- Commits may have been added. -/
structure Keeps (a a' : Archive) : Prop where
  records : a'.records = a.records
  graph : a.graph.Extends a'.graph

theorem Keeps.refl (a : Archive) : a.Keeps a := ⟨rfl, .refl _⟩

theorem Keeps.trans (h : a.Keeps a') (h' : a'.Keeps a'') : a.Keeps a'' :=
  ⟨h'.records.trans h.records, h.graph.trans h'.graph⟩

theorem Integrated.keeps (h : a.Integrated dep base) (hkeeps : a.Keeps a') :
    a'.Integrated dep base := by
  obtain ⟨record, commit, hrecord, hcommit, hanc⟩ := h
  exact ⟨record, commit, hkeeps.records ▸ hrecord, hcommit, hanc.mono hkeeps.graph⟩

theorem Grounded.keeps (h : a.Grounded) (hkeeps : a.Keeps a') : a'.Grounded := by
  have hdepends : a'.DependsOn = a.DependsOn := by
    unfold DependsOn
    rw [hkeeps.records]
  refine ⟨fun task record hrecord dep hdep => ?_, ?_⟩
  · rw [hkeeps.records] at hrecord
    exact (h.integrated task record hrecord dep hdep).keeps hkeeps
  · rw [hdepends]
    exact h.acyclic

/-- A record that is written anew is not one that others depend on. -/
theorem Integrated.enters (h : a.Integrated dep base) (henters : a.Enters task record) :
    dep ≠ task := by
  obtain ⟨found, commit, hfound, hcommit, -⟩ := h
  rintro rfl
  cases henters with
  | start hnew =>
    rw [hnew] at hfound
    cases hfound
  | update old hold hopen =>
    rw [hold] at hfound
    cases hfound
    rw [hopen] at hcommit
    cases hcommit

/-- The archive with the record of one task changed. -/
def enter (a : Archive) (task : Name) (record : TaskRecord) : Archive :=
  { a with records := Function.update a.records task (some record) }

theorem enter_self : (a.enter task record).records task = some record :=
  Function.update_self ..

theorem enter_of_ne (h : dep ≠ task) : (a.enter task record).records dep = a.records dep :=
  Function.update_of_ne h ..

theorem Integrated.enter (h : a.Integrated dep base) (hne : dep ≠ task) :
    (a.enter task record).Integrated dep base := by
  obtain ⟨found, commit, hfound, hcommit, hanc⟩ := h
  exact ⟨found, commit, (enter_of_ne hne).trans hfound, hcommit, hanc⟩

/-- The dependencies of the record that is written. -/
theorem Enters.integrated (h : a.Grounded) (henters : a.Enters task record) :
    ∀ dep ∈ record.dependencies, a.Integrated dep record.baseCommit := by
  cases henters with
  | start hnew hdependencies => exact hdependencies
  | update old hold hopen hcontinues =>
    rw [hcontinues.dependencies, hcontinues.baseCommit]
    exact h.integrated task old hold

theorem Grounded.enter (h : a.Grounded) (henters : a.Enters task record) :
    (a.enter task record).Grounded := by
  refine ⟨fun other found hfound dep hdep => ?_, ?_⟩
  · have hintegrated : a.Integrated dep found.baseCommit := by
      by_cases hother : other = task
      · subst hother
        cases enter_self.symm.trans hfound
        exact henters.integrated h dep hdep
      · exact h.integrated other found ((enter_of_ne hother).symm.trans hfound) dep hdep
    exact hintegrated.enter (hintegrated.enters henters)
  · cases henters with
    | start hnew hdependencies =>
      -- the dependencies of all other tasks are as before, and none of them is the new task
      refine acyclic_extended (a := task) h.acyclic ?_ ?_
      · rintro x y hx ⟨found, hfound, hy⟩
        exact ⟨found, (enter_of_ne hx).symm.trans hfound, hy⟩
      · rintro x ⟨found, hfound, hmem⟩
        by_cases hx : x = task
        · subst hx
          cases enter_self.symm.trans hfound
          exact (hdependencies x hmem).enters (.start hnew hdependencies) rfl
        · have hold := (enter_of_ne hx).symm.trans hfound
          exact (h.integrated x found hold task hmem).enters (.start hnew hdependencies) rfl
    | update old hold hopen hcontinues =>
      have hdepends : ∀ x y, (a.enter task record).DependsOn x y → a.DependsOn x y := by
        rintro x y ⟨found, hfound, hy⟩
        by_cases hx : x = task
        · subst hx
          cases enter_self.symm.trans hfound
          exact ⟨old, hold, hcontinues.dependencies ▸ hy⟩
        · exact ⟨found, (enter_of_ne hx).symm.trans hfound, hy⟩
      exact fun x hcycle => h.acyclic x (Relation.TransGen.mono hdepends _ _ hcycle)

end Archive

/-! ## Steps -/

/-- What a step does to the archive, and what its reply tells of it. -/
def archiveEffect : Effects Action.Reply Archive := fun a action reply a' =>
  match action with
  | .writeRecord task record => if reply = true then a' = a.enter task record else a' = a
  | .recordExists task => a.Keeps a' ∧ reply = (a.records task).isSome
  | .readRecord task => a.Keeps a' ∧ reply = a.records task
  | .isAncestor commit head => a.Keeps a' ∧ (reply = true → a.graph.Anc commit head)
  | _ => a.Keeps a'

section

variable {thread : Nat} {action : Action} {choice : Choice} {world world' : World}
  {reply : action.Reply}

theorem exec_isAncestor {commit head : Commit}
    (h : exec thread (.isAncestor commit head) choice world = some (true, world')) :
    world.repo.graph.Anc commit head := by
  cases choice with
  | go =>
    have hanc : world.repo.graph.isAncestor commit head = true :=
      congrArg Prod.fst (Option.some.inj h)
    exact Commits.Graph.isAncestor_iff.mp hanc
  | _ => cases h

theorem exec_archive (h : exec thread action choice world = some (reply, world')) :
    archiveEffect world.archive action reply world'.archive := by
  have hkeeps : (∀ task record, action ≠ .writeRecord task record) →
      world.archive.Keeps world'.archive := by
    intro hnot
    refine ⟨?_, exec_graph h⟩
    show world'.tasks.lookup = world.tasks.lookup
    rw [exec_tasks h]
    cases action with
    | writeRecord task record => exact absurd rfl (hnot task record)
    | _ => rfl
  cases action with
  | writeRecord task record =>
    cases exec_effect h with
    | nothing hnone =>
      cases (reply : Bool) with
      | false => exact rfl
      | true => cases hnone
    | wrote task record => exact congrArg (Archive.mk · world.repo.graph) (insert_lookup ..)
    | git repo hgit => cases hgit
  | recordExists task => exact ⟨hkeeps (by simp), exec_recordExists h⟩
  | readRecord task => exact ⟨hkeeps (by simp), exec_readRecord h⟩
  | isAncestor commit head =>
    refine ⟨hkeeps (by simp), ?_⟩
    rintro rfl
    exact exec_isAncestor h
  | _ => exact hkeeps (by simp)

end

/-! ## Requests -/

/-- Steps other than the writing of a record. -/
def Action.unwriting : Action → Prop
  | .writeRecord _ _ => False
  | _ => True

theorem Action.unwriting_of_quiet {action : Action} (h : action.quiet) : action.unwriting := by
  cases action <;> trivial

/-- Only records that may be written are written. -/
def Archive.Admits (a : Archive) (action : Action) : Prop :=
  ∀ task record, action = .writeRecord task record → a.Enters task record

/-- When the part of a request is run from the archive, it writes what may be written, and when it
succeeds, `Q` holds of what it returns and of the archive then. -/
abbrev Files {α : Type} (a : Archive) (Q : α → Archive → Prop) (body : Op α) : Prop :=
  Spec archiveEffect Archive.Admits Q (fun _ _ => True) a body

section

variable {project task : Name} {a : Archive} {α β : Type}

theorem Archive.admits_unwriting {action : Action} (h : action.unwriting) : a.Admits action := by
  rintro task record rfl
  exact h.elim

theorem Archive.keeps_of_unwriting {action : Action} {reply : action.Reply} {a' : Archive}
    (h : action.unwriting) (heffect : archiveEffect a action reply a') : a.Keeps a' := by
  cases action with
  | writeRecord => exact h.elim
  | recordExists => exact heffect.1
  | readRecord => exact heffect.1
  | isAncestor => exact heffect.1
  | _ => exact heffect

theorem unwriting_files {body : Op α} (hbody : body.Only Action.unwriting) :
    Files a (fun _ a' => a.Keeps a') body := by
  have hkept : Spec archiveEffect Archive.Admits (fun _ a' => a.Keeps a') (fun _ a' => a.Keeps a') a
      body := by
    refine Spec.of_only hbody (fun _ _ _ => Archive.admits_unwriting) ?_ (.refl a)
    intro a₁ action reply a₂ hkeeps hquiet heffect
    exact hkeeps.trans (Archive.keeps_of_unwriting hquiet heffect)
  exact hkept.mono (fun _ _ hkeeps => hkeeps) fun _ _ _ => trivial

theorem unwriting_of_quiet {body : Op α} (hbody : body.Only Action.quiet) :
    body.Only Action.unwriting :=
  Program.only_mono hbody fun _ => Action.unwriting_of_quiet

/-- What a program that writes nothing is followed by. -/
theorem files_bind {first : Op α} {next : α → Op β} {Q : β → Archive → Prop}
    (hfirst : first.Only Action.unwriting)
    (hnext : ∀ value a', a.Keeps a' → Files a' Q (next value)) :
    Files a Q (first >>= next) :=
  (unwriting_files hfirst).bind hnext

theorem files_lockOne {lock : Name} {readonly : Bool} {body : Op α}
    (hbody : ∀ a', a.Keeps a' → Files a' (fun _ _ => True) body) :
    Files a (fun _ _ => True) (lockOne lock readonly body) :=
  spec_lockOne (Archive.admits_unwriting trivial) hbody
    (fun _ _ _ => ⟨Archive.admits_unwriting trivial, fun _ _ => trivial⟩)
    fun _ _ _ => ⟨Archive.admits_unwriting trivial, fun _ _ => trivial⟩

theorem writeJson_files {record : TaskRecord} (henters : a.Enters task record) :
    Files a (fun _ _ => True) (writeJson task record) := by
  refine ⟨?_, fun (ok : Bool) _ _ => ?_⟩
  · rintro _ _ heq
    cases heq
    exact henters
  · cases ok <;> trivial

theorem loadTask_files :
    Files a (fun value a' => a.Keeps a' ∧ a'.records task = some value.1)
      (loadTask project task) := by
  refine files_bind (only_check trivial) fun _ a₁ hkeeps => ?_
  refine spec_act (Archive.admits_unwriting trivial) ?_
  rintro reply a₂ ⟨hread, hreply⟩
  refine spec_orFail trivial fun record hrecord => ?_
  refine spec_require trivial fun _ => spec_require trivial fun _ => ?_
  refine files_bind (only_check trivial) fun _ a₃ hcheck => ?_
  refine ⟨(hkeeps.trans hread).trans hcheck, ?_⟩
  rw [hcheck.records, hread.records, ← hreply, hrecord]

/-! ## Starting -/

theorem requiredCommit_files {dep : Name} {record : TaskRecord} :
    Files a (fun commit a' => a' = a ∧ record.integrated? = some commit)
      (requiredCommit dep record) := by
  unfold requiredCommit TaskRecord.integrated?
  cases record.mode with
  | parallel =>
    refine spec_require trivial fun hstatus => ?_
    rw [of_decide_eq_true hstatus]
    cases hcommit : record.mergeCommit with
    | none => trivial
    | some commit => exact ⟨rfl, rfl⟩
  | integration =>
    refine spec_require trivial fun hstatus => ?_
    rw [of_decide_eq_true hstatus]
    cases hcommit : record.headCommit with
    | none => trivial
    | some commit => exact ⟨rfl, rfl⟩

/-- The dependencies that pass are integrated in the base. -/
theorem validateDependencies_files {base : Commit} {dependencies : List Name} :
    Files a (fun _ a' => a.Keeps a' ∧ ∀ dep ∈ dependencies, a'.Integrated dep base)
      (validateDependencies base dependencies) := by
  induction dependencies generalizing a with
  | nil => exact ⟨.refl a, fun _ hmem => nomatch hmem⟩
  | cons dep rest ih =>
    refine files_bind (only_check trivial) fun _ a₁ hkeeps₁ => ?_
    refine spec_act (Archive.admits_unwriting trivial) ?_
    rintro reply a₂ ⟨hkeeps₂, hreply⟩
    refine spec_orFail trivial fun record hrecord => ?_
    refine requiredCommit_files.bind ?_
    rintro commit a' ⟨rfl, hcommit⟩
    refine spec_check (Archive.admits_unwriting trivial) (fun _ _ _ _ => trivial) ?_
    rintro ok a₃ ⟨hkeeps₃, hanc⟩ hok
    have hfound : a₁.records dep = some record := hreply.symm.trans hrecord
    have hintegrated : a₃.Integrated dep base := by
      refine ⟨record, commit, ?_, hcommit, (hanc hok).mono hkeeps₃.graph⟩
      rw [hkeeps₃.records, hkeeps₂.records, hfound]
    refine Spec.mono ih ?_ fun _ _ _ => trivial
    rintro _ a₄ ⟨hkeeps₄, hrest⟩
    refine ⟨((hkeeps₁.trans hkeeps₂).trans hkeeps₃).trans hkeeps₄, fun other hother => ?_⟩
    rcases List.mem_cons.mp hother with rfl | hother
    · exact hintegrated.keeps hkeeps₄
    · exact hrest other hother

theorem startTaskLocked_files {parallel : Bool} {dependencies : List Name}
    (hnew : a.records task = none) :
    Files a (fun _ _ => True) (startTaskLocked project task parallel dependencies) := by
  refine files_bind (only_ensureClean trivial) fun _ a₁ h₁ => ?_
  refine files_bind (only_check trivial) fun _ a₂ h₂ => ?_
  refine files_bind (only_act trivial) fun reply a₃ h₃ => ?_
  refine spec_orFail trivial fun base _ => ?_
  refine validateDependencies_files.bind ?_
  rintro _ a₄ ⟨h₄, hdependencies⟩
  have hwrite : ∀ a₅, a₄.Keeps a₅ → Files a₅ (fun _ _ => True) (do
      let now ← act .nowIso
      let record := startedRecord project task parallel base dependencies now
      writeJson task record
      pure record) := by
    intro a₅ h₅
    refine files_bind (only_act trivial) fun now a₆ h₆ => ?_
    have hkeeps := (((h₁.trans h₂).trans h₃).trans h₄).trans (h₅.trans h₆)
    refine (writeJson_files (.start ?_ fun dep hdep => ?_)).bind fun _ _ _ => trivial
    · rw [hkeeps.records]
      exact hnew
    · exact (hdependencies dep hdep).keeps (h₅.trans h₆)
  refine files_bind (unwriting_of_quiet taskRecords_only) fun records a₅ h₅ => ?_
  refine files_bind (unwriting_of_quiet startGates_only) fun _ a₆ h₆ => ?_
  cases parallel with
  | true =>
    refine files_bind ?_ fun _ a₇ h₇ => hwrite a₇ ((h₅.trans h₆).trans h₇)
    exact createParallelWorktree_only (fun _ => Action.unwriting_of_quiet) trivial
  | false => exact hwrite a₆ (h₅.trans h₆)

theorem taskStart_files {parallel : Bool} {dependencies : List Name} :
    Files a (fun _ _ => True) (taskStart project task parallel dependencies) := by
  refine spec_require trivial fun _ => spec_require trivial fun _ => ?_
  refine files_bind (only_check trivial) fun _ a₁ _ => ?_
  refine files_bind (only_check trivial) fun _ a₂ _ => ?_
  refine spec_act (Archive.admits_unwriting trivial) ?_
  rintro (found : Bool) a₃ ⟨h₃, hfound⟩
  cases found with
  | true => trivial
  | false =>
    refine files_lockOne fun a₄ h₄ => startTaskLocked_files ?_
    rw [h₄.records, h₃.records]
    simpa using hfound.symm

/-! ## Continuing -/

/-- A record that is written again was not integrated. -/
theorem continue_files {old : TaskRecord} {a' : Archive} {next : Nat → TaskRecord}
    (hold : a.records task = some old) (hkeeps : a.Keeps a') (hopen : old.integrated? = none)
    (hcontinues : ∀ now, (next now).Continues old) :
    Files a' (fun _ _ => True) (do
      let now ← act .nowIso
      writeJson task (next now)
      pure (next now)) := by
  refine files_bind (only_act trivial) fun now a₁ h₁ => ?_
  refine (writeJson_files (.update old ?_ hopen (hcontinues now))).bind fun _ _ _ => trivial
  rw [h₁.records, hkeeps.records]
  exact hold

theorem integrated?_active {record : TaskRecord} (h : record.status = .active) :
    record.integrated? = none := by
  unfold TaskRecord.integrated?
  rw [h]
  cases record.mode <;> rfl

theorem integrated?_pending {record : TaskRecord} (hmode : record.mode = .parallel)
    (hstatus : record.status ≠ .merged) : record.integrated? = none := by
  unfold TaskRecord.integrated?
  rw [hmode]
  cases hs : record.status with
  | merged => exact absurd hs hstatus
  | _ => rfl

theorem taskComplete_files : Files a (fun _ _ => True) (taskComplete project task) := by
  refine loadTask_files.bind ?_
  rintro ⟨record, workspace⟩ a₁ ⟨-, hrecord⟩
  refine spec_require trivial fun hactive => files_lockOne fun a₂ h₂ => ?_
  refine files_bind (only_ensureClean trivial) fun _ a₃ h₃ => ?_
  refine files_bind (only_act trivial) fun _ a₄ h₄ => spec_orFail trivial fun _ _ => ?_
  refine spec_require trivial fun _ => ?_
  refine files_bind (only_act trivial) fun _ a₅ h₅ => spec_orFail trivial fun head _ => ?_
  exact continue_files hrecord (((h₂.trans h₃).trans h₄).trans h₅)
    (integrated?_active (by simpa using hactive)) fun _ => ⟨rfl, rfl, rfl, rfl⟩

theorem taskMerge_files : Files a (fun _ _ => True) (taskMerge project task) := by
  refine loadTask_files.bind ?_
  rintro ⟨record, workspace⟩ a₁ ⟨-, hrecord⟩
  refine spec_require trivial fun hok => files_lockOne fun a₂ h₂ => files_lockOne fun a₃ h₃ => ?_
  simp only [Bool.and_eq_true, decide_eq_true_eq] at hok
  refine files_bind ?_ fun commit a₄ h₄ => ?_
  · exact mergeParallelWorktree_only (fun _ => Action.unwriting_of_quiet) trivial trivial
  · exact continue_files hrecord ((h₂.trans h₃).trans h₄)
      (integrated?_pending hok.1 (by simp [hok.2])) fun _ => ⟨rfl, rfl, rfl, rfl⟩

theorem taskAbort_files : Files a (fun _ _ => True) (taskAbort project task) := by
  refine loadTask_files.bind ?_
  rintro ⟨record, workspace⟩ a₁ ⟨-, hrecord⟩
  refine spec_require trivial fun hok => files_lockOne fun a₂ h₂ => files_lockOne fun a₃ h₃ => ?_
  simp only [Bool.and_eq_true, Bool.or_eq_true, decide_eq_true_eq] at hok
  refine files_bind ?_ fun _ a₄ h₄ => ?_
  · exact abortParallelWorktree_only (fun _ => Action.unwriting_of_quiet) trivial trivial
  · refine continue_files hrecord ((h₂.trans h₃).trans h₄) (integrated?_pending hok.1 ?_)
      fun _ => ⟨rfl, rfl, rfl, rfl⟩
    rcases hok.2 with hstatus | hstatus <;> simp [hstatus]

/-- No request writes a record that may not be written. -/
theorem request_files (request : Request) :
    Files a (fun _ _ => True) (request.program project) := by
  have hsilent : request.changesTasks = false →
      Files a (fun _ _ => True) (request.program project) := by
    intro h
    have honly : (request.program project).Only Action.unwriting := by
      refine Program.only_mono (request_silent h) fun action hsilent => ?_
      cases action <;> trivial
    exact (unwriting_files honly).mono (fun _ _ _ => trivial) fun _ _ _ => trivial
  cases request with
  | taskStart task parallel dependencies => exact taskStart_files.bind fun _ _ _ => trivial
  | taskComplete task => exact taskComplete_files.bind fun _ _ _ => trivial
  | taskMerge task => exact taskMerge_files.bind fun _ _ _ => trivial
  | taskAbort task => exact taskAbort_files.bind fun _ _ _ => trivial
  | _ => exact hsilent rfl

end

/-! ## Serial runs -/

section

variable {project : Name} {requests : Nat → Request} {world : World} {i : Nat} {c c' : Pool}

theorem alone_archive {v v' : View Action.Reply World} {action : Action} {reply : action.Reply}
    (h : machine.alone anyStep i v action reply v') :
    archiveEffect v.state.archive action reply v'.state.archive := by
  obtain ⟨choice, world, -, hexec, rfl⟩ := h
  exact exec_archive hexec

/-- A step that is admitted keeps the dependencies grounded. -/
theorem Archive.Grounded.step {a a' : Archive} {action : Action} {reply : action.Reply}
    (h : a.Grounded) (hadmits : a.Admits action) (heffect : archiveEffect a action reply a') :
    a'.Grounded := by
  have hquiet : action.unwriting → a'.Grounded :=
    fun hunwriting => h.keeps (Archive.keeps_of_unwriting hunwriting heffect)
  cases action with
  | writeRecord task record =>
    cases (reply : Bool) with
    | false =>
      obtain rfl : a' = a := heffect
      exact h
    | true =>
      obtain rfl : a' = a.enter task record := heffect
      exact h.enter (hadmits task record rfl)
  | _ => exact hquiet trivial

/-- At every point of a request that is served alone. -/
theorem served_grounded (hgrounded : c.state.archive.Grounded)
    (hprogram : c.programs i = (requests i).program project)
    (hrun : machine.Reaches (anyStep.only i) c c') : c'.state.archive.Grounded := by
  have hspec : Spec (machine.alone anyStep i) (fun v action => v.state.archive.Admits action)
      (fun _ _ => True) (fun _ _ => True) c.view (c.programs i) := by
    rw [hprogram]
    exact Spec.of_simulation (fun _ _ _ _ => alone_archive) (request_files (requests i))
  refine hspec.kept (I := fun v => v.state.archive.Grounded) ?_ hrun hgrounded
  intro v action reply v' hadmits halone hI
  exact hI.step hadmits (alone_archive halone)

/-- When requests are served one at a time, there are never cycles among the dependencies of tasks,
and every dependency is integrated in the base of the task that lists it. -/
theorem dependencies_grounded (hgrounded : world.archive.Grounded)
    (hserial : machine.Serial anyStep (fun _ _ _ => True) (pool project requests world) i c)
    (hrun : machine.Reaches (anyStep.only i) c c') :
    (∀ task, ¬Relation.TransGen c'.state.archive.DependsOn task task) ∧
      ∀ task record, c'.state.tasks.lookup task = some record → ∀ dep ∈ record.dependencies,
        ∃ found commit, c'.state.tasks.lookup dep = some found ∧
          (found.mode = .parallel ∧ found.status = .merged ∧ found.mergeCommit = some commit ∨
            found.mode = .integration ∧ found.status = .completed ∧
              found.headCommit = some commit) ∧
          c'.state.repo.graph.Anc commit record.baseCommit := by
  have hbefore : c.state.archive.Grounded := by
    refine hserial.invariant (I := fun world => world.archive.Grounded) hgrounded ?_
    intro i c c' hprogram hI hrun _ _
    exact served_grounded hI hprogram hrun
  have h := served_grounded hbefore (hserial.untouched (Nat.le_refl i)).1 hrun
  refine ⟨h.acyclic, fun task record hrecord dep hdep => ?_⟩
  obtain ⟨found, commit, hfound, hcommit, hanc⟩ := h.integrated task record hrecord dep hdep
  refine ⟨found, commit, hfound, ?_, hanc⟩
  unfold TaskRecord.integrated? at hcommit
  split at hcommit
  · rename_i hmode hstatus
    exact Or.inl ⟨hmode, hstatus, hcommit⟩
  · rename_i hmode hstatus
    exact Or.inr ⟨hmode, hstatus, hcommit⟩
  · cases hcommit

end

/-- An integration task is completed, and then another one is started that depends on it. -/
def exampleDependency : Nat → Request
  | 0 => .taskComplete exampleTask
  | _ => .taskStart otherTask false [exampleTask]

theorem sequentialProject_grounded : sequentialProject.archive.Grounded := by
  have hnone : newProject.archive.Grounded := by
    refine ⟨fun _ _ hrecord => (nomatch hrecord), fun task hcycle => ?_⟩
    rcases Relation.TransGen.tail'_iff.mp hcycle with ⟨last, -, record, hrecord, -⟩
    cases hrecord
  have hstart : newProject.archive.Enters exampleTask
      (startedRecord exampleProject exampleTask false 0 [] 0) :=
    .start rfl fun _ hmem => nomatch hmem
  have heq : sequentialProject.archive = newProject.archive.enter exampleTask
      (startedRecord exampleProject exampleTask false 0 [] 0) :=
    congrArg (Archive.mk · _) (insert_lookup ..)
  rw [heq]
  exact hnone.enter hstart

theorem dependencies_grounded_example :
    ∃ c c', machine.Serial anyStep (fun _ _ _ => True)
        (pool exampleProject exampleDependency sequentialProject) 1 c ∧
      machine.Reaches (anyStep.only 1) c c' ∧
      c'.state.archive.DependsOn otherTask exampleTask ∧
      ∀ task, ¬Relation.TransGen c'.state.archive.DependsOn task task := by
  have hvalue : ((machine.run (goesAlone 0) (pool exampleProject exampleDependency sequentialProject)
      (goes 0 7 ++ [(0, .clock 1)] ++ goes 0 2)).map fun c =>
        ((c.programs 0).value?.bind Outcome.record?,
          (machine.run (goesAlone 1) c (goes 1 12 ++ [(1, .clock 2)] ++ goes 1 2)).map fun c' =>
            c'.state.tasks.lookup otherTask)) =
      some (some ((startedRecord exampleProject exampleTask false 0 [] 0).complete 0 1),
        some (some (startedRecord exampleProject otherTask false 0 [exampleTask] 2))) := by
    decide +kernel
  have hguard : ∀ i v j action choice, goesAlone i v j action choice = true →
      (anyStep.only i) v j action choice :=
    fun i v j action choice h => ⟨(goesAlone_truthful v j action choice h).1, trivial⟩
  obtain ⟨c, hrun, hc⟩ := Machine.exists_of_guarded_run (hguard 0) hvalue
  obtain ⟨hrecord, hrest⟩ := Prod.mk.inj hc
  obtain ⟨c', hrun', hlookup⟩ := Machine.exists_of_guarded_run (hguard 1) hrest
  have hret := Outcome.record?_value hrecord
  have hserial : machine.Serial anyStep (fun _ _ _ => True)
      (pool exampleProject exampleDependency sequentialProject) 1 c :=
    .next .start hrun (Machine.final_of_ended (by simp [hret])) trivial
  exact ⟨c, c', hserial, hrun', ⟨_, hlookup, List.mem_cons_self⟩,
    (dependencies_grounded sequentialProject_grounded hserial hrun').1⟩

end AgentDev
