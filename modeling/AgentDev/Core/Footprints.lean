import AgentDev.Core.Operations

/-!
# Programs that only look

Most steps concern neither a lock nor which records, worktrees and branches there are. The parts of
requests that consist of such steps only.
-/

namespace AgentDev

open Interleaving

section

variable {p : Action → Prop} {α : Type}

theorem only_act {action : Action} (h : p action) : (act action).Only p :=
  ⟨h, fun _ => trivial⟩

theorem only_require {ok : Bool} {error : Error} :
    (require ok error).Only p := by
  unfold require
  split <;> trivial

theorem only_orFail {result : Option α} {error : Error} :
    (orFail result error).Only p := by
  cases result <;> trivial

theorem only_check {action : Action} {ok : action.Reply → Bool} {error : Error}
    (h : p action) : (check action ok error).Only p :=
  Program.only_bind (only_act h) fun _ => only_require

theorem only_ensureClean {workspace : Workspace} {label : String}
    (h : p (.gitStatus workspace)) : (ensureClean workspace label).Only p :=
  Program.only_bind (only_act h) fun _ => Program.only_bind only_orFail fun _ => only_require

end

/-- Steps that concern neither a lock nor which records, worktrees and branches there are. -/
def Action.quiet : Action → Prop
  | .acquire _ _ | .release _ | .writeRecord _ _ | .worktreeAdd _ _ | .worktreeRemove _ _
  | .branchDelete _ _ => False
  | _ => True

/-! ## Parts of requests -/

theorem taskRecords_only : taskRecords.Only Action.quiet := by
  refine Program.only_bind (only_act trivial) fun names => ?_
  induction names with
  | nil => trivial
  | cons task rest ih =>
    exact Program.only_bind (only_act trivial) fun _ => Program.only_bind ih fun _ => trivial

theorem loadTask_only {project task : Name} :
    (loadTask project task).Only Action.quiet := by
  refine Program.only_bind (only_check trivial) fun _ => ?_
  refine Program.only_bind (only_act trivial) fun _ => Program.only_bind only_orFail fun _ => ?_
  refine Program.only_bind only_require fun _ => Program.only_bind only_require fun _ => ?_
  exact Program.only_bind (only_check trivial) fun _ => trivial

theorem requiredCommit_only {dep : Name} {found : TaskRecord} :
    (requiredCommit dep found).Only Action.quiet := by
  unfold requiredCommit
  split <;> exact Program.only_bind only_require fun _ => only_orFail

theorem validateDependencies_only {base : Commit} {dependencies : List Name} :
    (validateDependencies base dependencies).Only Action.quiet := by
  induction dependencies with
  | nil => trivial
  | cons dep rest ih =>
    refine Program.only_bind (only_check trivial) fun _ => ?_
    refine Program.only_bind (only_act trivial) fun _ => Program.only_bind only_orFail fun _ => ?_
    refine Program.only_bind requiredCommit_only fun _ => ?_
    exact Program.only_bind (only_check trivial) fun _ => ih

theorem startGates_only {parallel : Bool} {records : List TaskRecord} :
    (startGates parallel records).Only Action.quiet := by
  unfold startGates
  split
  · exact only_require
  · exact Program.only_bind only_require fun _ => only_require

theorem validateRecordedHead_only {record : TaskRecord} {workspace : Workspace} :
    (validateRecordedHead record workspace).Only Action.quiet := by
  refine Program.only_bind only_orFail fun _ => ?_
  refine Program.only_bind (only_act trivial) fun _ => Program.only_bind only_orFail fun _ => ?_
  refine Program.only_bind (only_act trivial) fun _ => Program.only_bind only_orFail fun _ => ?_
  exact Program.only_bind only_require fun _ => trivial

theorem integrateHuman_only {integration human : Commit} :
    (integrateHuman integration human).Only Action.quiet := by
  unfold integrateHuman
  split
  · trivial
  · refine Program.only_bind (only_act trivial) fun behind => ?_
    cases (behind : Bool) with
    | true => exact Program.only_bind (only_check trivial) fun _ => trivial
    | false =>
      refine Program.only_bind (only_act trivial) fun ahead => ?_
      cases (ahead : Bool) <;> trivial

theorem synchronizeAgentProject_only {bundle : Name} :
    (synchronizeAgentProject bundle).Only Action.quiet := by
  refine Program.only_bind (only_check trivial) fun _ => ?_
  refine Program.only_bind (only_check trivial) fun _ => ?_
  refine Program.only_bind (only_check trivial) fun _ => ?_
  refine Program.only_bind (only_check trivial) fun _ => ?_
  refine Program.only_bind (only_ensureClean trivial) fun _ => ?_
  refine Program.only_bind (only_check trivial) fun _ => ?_
  refine Program.only_bind (only_check trivial) fun _ => ?_
  refine Program.only_bind (only_check trivial) fun _ => ?_
  refine Program.only_bind (only_act trivial) fun _ => Program.only_bind only_orFail fun _ => ?_
  refine Program.only_bind (only_act trivial) fun _ => Program.only_bind only_orFail fun _ => ?_
  refine Program.only_bind integrateHuman_only fun _ => ?_
  refine Program.only_bind (only_act trivial) fun _ => Program.only_bind only_orFail fun _ => ?_
  exact Program.only_bind (only_check trivial) fun _ => trivial

theorem exportAgentProject_only : exportAgentProject.Only Action.quiet := by
  refine Program.only_bind (only_check trivial) fun _ => ?_
  refine Program.only_bind (only_check trivial) fun _ => ?_
  refine Program.only_bind (only_ensureClean trivial) fun _ => ?_
  refine Program.only_bind (only_act trivial) fun _ => Program.only_bind only_orFail fun _ => ?_
  exact Program.only_bind (only_check trivial) fun _ => trivial

theorem projectGitStatus_only : projectGitStatus.Only Action.quiet := by
  refine Program.only_bind (only_check trivial) fun _ => ?_
  refine Program.only_bind (only_act trivial) fun _ => Program.only_bind only_orFail fun _ => ?_
  refine Program.only_bind (only_act trivial) fun _ => Program.only_bind only_orFail fun _ => ?_
  exact Program.only_bind (only_act trivial) fun _ => Program.only_bind only_orFail fun _ => trivial

theorem stream_only {workspace : Workspace} {readonly : Bool} {n : Nat} :
    (stream workspace readonly n).Only Action.quiet := by
  induction n with
  | zero => trivial
  | succ n ih =>
    exact Program.only_bind (only_act trivial) fun _ =>
      Program.only_bind (only_check trivial) fun _ => ih

theorem notStarted_only : notStarted.Only Action.quiet :=
  Program.only_bind (only_check trivial) fun _ => trivial

theorem executeRun_only {task : Name} {workspace : Workspace} {readonly : Bool} :
    (executeRun task workspace readonly).Only Action.quiet := by
  refine Program.only_bind (only_check trivial) fun _ => ?_
  refine Program.only_bind ?_ fun _ => ?_
  · refine Program.only_bind (only_act trivial) fun started => ?_
    cases (started : Bool) with
    | false => exact notStarted_only
    | true =>
      refine Program.only_ensuring ?_ (only_act trivial)
      exact Program.only_bind (only_act trivial) fun _ =>
        Program.only_bind stream_only fun _ => only_act trivial
  · refine Program.only_bind (only_act trivial) fun _ => ?_
    exact Program.only_bind only_require fun _ => trivial

theorem runNoninteractive_only {task : Name} {workspace : Workspace} :
    (runNoninteractive task workspace).Only Action.quiet := by
  refine Program.only_bind (only_act trivial) fun started => ?_
  cases (started : Bool) with
  | false => exact notStarted_only
  | true =>
    refine Program.only_bind (only_act trivial) fun _ => Program.only_bind stream_only fun _ => ?_
    exact Program.only_bind (only_act trivial) fun _ => only_act trivial

theorem resolveMounts_only {task : Name} {workspace : Workspace} :
    (resolveMounts task workspace).Only Action.quiet :=
  Program.only_bind (only_check trivial) fun _ => only_check trivial

/-! ## Parts that change worktrees -/

section

variable {p : Action → Prop} {task : Name} {record : TaskRecord} {workspace : Workspace}

theorem createParallelWorktree_only (hlook : ∀ action, action.quiet → p action)
    (hadd : p (.worktreeAdd (taskBranch task) task)) : (createParallelWorktree task).Only p := by
  refine Program.only_bind (only_act (hlook _ trivial)) fun (found : Bool) => ?_
  cases found with
  | true => trivial
  | false => exact only_check hadd

/-- A merge deletes no branch other than that of its record. -/
theorem mergeParallelWorktree_only (hlook : ∀ action, action.quiet → p action)
    (hremove : p (.worktreeRemove workspace false))
    (hdelete : p (.branchDelete record.branch false)) :
    (mergeParallelWorktree record workspace).Only p := by
  refine Program.only_bind (only_ensureClean (hlook _ trivial)) fun _ => ?_
  refine Program.only_bind (only_ensureClean (hlook _ trivial)) fun _ => ?_
  refine Program.only_bind (Program.only_mono validateRecordedHead_only hlook) fun _ => ?_
  refine Program.only_bind (only_check (hlook _ trivial)) fun _ => ?_
  refine Program.only_bind (only_act (hlook _ trivial)) fun (merged : Bool) => ?_
  cases merged with
  | false => exact Program.only_bind (only_act (hlook _ trivial)) fun _ => trivial
  | true =>
    refine Program.only_bind (only_act (hlook _ trivial)) fun _ => ?_
    refine Program.only_bind only_orFail fun _ => ?_
    refine Program.only_bind (only_check hremove) fun _ => ?_
    exact Program.only_bind (only_check hdelete) fun _ => trivial

/-- An abort deletes no branch other than that of its record. -/
theorem abortParallelWorktree_only (hlook : ∀ action, action.quiet → p action)
    (hremove : p (.worktreeRemove workspace true)) (hdelete : p (.branchDelete record.branch true)) :
    (abortParallelWorktree record workspace).Only p := by
  have hbranch : (do
      if ← act (.showRef record.branch) then
        check (.branchDelete record.branch true) id (.internal "git branch") : Op Unit).Only p := by
    refine Program.only_bind (only_act (hlook _ trivial)) fun (found : Bool) => ?_
    cases found with
    | false => trivial
    | true => exact only_check hdelete
  refine Program.only_bind (only_act (hlook _ trivial)) fun (found : Bool) => ?_
  cases found with
  | false => exact hbranch
  | true => exact Program.only_bind (only_check hremove) fun _ => hbranch

end

end AgentDev
