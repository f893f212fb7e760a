import AgentDev.Core.Lifecycle
import AgentDev.Git.RefNames

/-!
# Branches of names

The pattern of `core/validation.py` for the names of tasks, and Git's rules for the branches
`agent/<name>` of parallel tasks. The pattern lets names through that an integration task can have and
a parallel one cannot: those with two dots in a row, and those that end with a dot or with `.lock`
(`usable_iff`).
-/

namespace AgentDev

open Git

/-! ## Characters -/

theorem toNat_lt_of_isNameChar {c : Char} (h : isNameChar c = true) : c.toNat < 128 := by
  have hclasses : ((((decide (c.val ≥ 'A'.val ∧ c.val ≤ 'Z'.val) ||
      decide (c.val ≥ 'a'.val) && decide (c.val ≤ 'z'.val)) ||
      decide (c.val ≥ '0'.val) && decide (c.val ≤ '9'.val)) || c = '.' || c = '_') || c = '-') = true := h
  simp only [Bool.or_eq_true, Bool.and_eq_true, decide_eq_true_eq, ge_iff_le,
    UInt32.le_iff_toNat_le] at hclasses
  change c.val.toNat < 128
  rcases hclasses with (((((⟨-, h⟩ | ⟨-, h⟩) | ⟨-, h⟩) | rfl) | rfl) | rfl)
  · exact lt_of_le_of_lt h (by decide)
  · exact lt_of_le_of_lt h (by decide)
  · exact lt_of_le_of_lt h (by decide)
  · decide
  · decide
  · decide

theorem not_isForbidden {c : Char} (h : isNameChar c = true) :
    isForbidden c = false ∧ c ≠ '/' ∧ c ≠ '@' := by
  have hall : ∀ n < 128, isNameChar (Char.ofNat n) = true →
      isForbidden (Char.ofNat n) = false ∧ Char.ofNat n ≠ '/' ∧ Char.ofNat n ≠ '@' := by
    decide +kernel
  have hchar := hall c.toNat (toNat_lt_of_isNameChar h)
  rw [Char.ofNat_toNat] at hchar
  exact hchar h

/-! ## Names -/

/-- What Git wants of a name beyond the pattern. -/
def PlainName (name : List Char) : Prop :=
  ¬ dots <:+: name ∧ name.getLast? ≠ some '.' ∧ ¬ lockSuffix <:+ name

theorem Name.chars (task : Name) : ∃ c cs, task.value.toList = c :: cs ∧ c ≠ '.' ∧
    ∀ d ∈ c :: cs, isNameChar d = true := by
  have hvalid := task.valid
  unfold isValidName at hvalid
  split at hvalid
  · cases hvalid
  · rename_i c cs heq
    simp only [Bool.and_eq_true, List.all_eq_true, decide_eq_true_eq] at hvalid
    refine ⟨c, cs, heq, ?_, List.forall_mem_cons.mpr ⟨?_, hvalid.1.2⟩⟩
    · rintro rfl
      exact absurd hvalid.1.1 (by decide)
    · rw [isNameChar, hvalid.1.1]
      rfl

theorem Name.notMem_slash (task : Name) : '/' ∉ task.value.toList := by
  obtain ⟨c, cs, heq, -, hchars⟩ := task.chars
  rw [heq]
  intro hmem
  exact (not_isForbidden (hchars _ hmem)).2.1 rfl

/-- Of Git's rules for a text, a name can only break the one about dots. -/
theorem Name.isRefText_iff (task : Name) :
    isRefText task.value.toList = true ↔ ¬ dots <:+: task.value.toList := by
  obtain ⟨c, cs, heq, -, hchars⟩ := task.chars
  rw [← heq] at hchars
  have hreflog : ¬ reflog <:+: task.value.toList := by
    intro hinfix
    have hmem := hinfix.subset (List.mem_cons_self : '@' ∈ reflog)
    exact (not_isForbidden (hchars _ hmem)).2.2 rfl
  have hallowed : task.value.toList.all (fun c => !isForbidden c) = true := by
    rw [List.all_eq_true]
    intro d hd
    rw [(not_isForbidden (hchars d hd)).1]
    rfl
  simp only [isRefText, hreflog, hallowed, not_false_eq_true, decide_true, Bool.and_true,
    decide_eq_true_eq]

theorem Name.isComponent_iff (task : Name) :
    isComponent task.value.toList = true ↔ ¬ lockSuffix <:+ task.value.toList := by
  obtain ⟨c, cs, heq, hdot, -⟩ := task.chars
  rw [isComponent, heq]
  simp [hdot]

/-! ## Branches -/

/-- The directory of the references of tasks. -/
def agentRefs : List Char := "refs/heads/agent".toList

theorem headRef_taskBranch (task : Name) :
    headRef (taskBranch task).toList = agentRefs ++ '/' :: task.value.toList := by
  rw [taskBranch, String.toList_append]
  rfl

/-- The branch of a name is valid exactly if the name is plain. -/
theorem isRefName_taskBranch (task : Name) :
    isRefName (headRef (taskBranch task).toList) = true ↔ PlainName task.value.toList := by
  have hagent : isRefName agentRefs = true := by decide +kernel
  rw [headRef_taskBranch, isRefName_append hagent task.notMem_slash, task.isComponent_iff,
    task.isRefText_iff]
  unfold PlainName
  tauto

theorem isBranchName_taskBranch (task : Name) :
    isBranchName (taskBranch task).toList = true ↔ PlainName task.value.toList := by
  rw [← isRefName_taskBranch]
  have hbranch : (taskBranch task).toList = 'a' :: ("gent/".toList ++ task.value.toList) := by
    rw [taskBranch, String.toList_append]
    rfl
  simp [isBranchName, hbranch]

/-- The branch of a task is no directory of another one's. -/
theorem not_below_taskBranch (task other : Name) :
    ¬ Below (headRef (taskBranch task).toList) (headRef (taskBranch other).toList) := by
  rw [headRef_taskBranch, headRef_taskBranch, below_iff]
  rintro ⟨rest, heq⟩
  rw [List.append_assoc, List.append_cancel_left_eq, List.cons_append] at heq
  obtain ⟨-, hother⟩ := List.cons_eq_cons.mp heq
  apply other.notMem_slash
  rw [hother]
  exact List.mem_append_right _ List.mem_cons_self

/-! ## Records -/

/-- The file of `task_meta_path` -/
def recordFile (task : Name) : String := task.value ++ ".json"

/-- The names that `task_records` reads: `sorted(pp["tasks"].glob("*.json"))`. -/
def recordFiles (files : List String) : List String :=
  (files.filter fun file => ".json".toList <:+ file.toList).mergeSort (· ≤ ·)

/-- One component of a path. -/
def SingleComponent (name : String) : Prop :=
  '/' ∉ name.toList ∧ name ≠ "" ∧ name ≠ "." ∧ name ≠ ".."

theorem singleComponent_recordFile (task : Name) : SingleComponent (recordFile task) := by
  have hfile : (recordFile task).toList = task.value.toList ++ ".json".toList := String.toList_append
  have hlong : 5 ≤ (recordFile task).toList.length := by
    rw [hfile, List.length_append]
    exact Nat.le_add_left 5 _
  refine ⟨?_, ?_, ?_, ?_⟩
  · rw [hfile, List.mem_append]
    rintro (h | h)
    · exact task.notMem_slash h
    · exact absurd h (by decide)
  all_goals
    intro heq
    rw [heq] at hlong
    exact absurd hlong (by decide)

theorem mem_recordFiles {task : Name} {files : List String} (h : recordFile task ∈ files) :
    recordFile task ∈ recordFiles files := by
  have hfile : (recordFile task).toList = task.value.toList ++ ".json".toList := String.toList_append
  rw [recordFiles, List.mem_mergeSort, List.mem_filter]
  refine ⟨h, decide_eq_true ?_⟩
  rw [hfile]
  exact List.suffix_append _ _

/-! ## Starts -/

/-- The references of a project: that of the integration branch, and in its directory besides at most
those of tasks that have a record. -/
structure TaskRefs (used : List Name) (refs : List (List Char)) : Prop where
  separate : Separate refs
  integration : headRef integrationBranch.toList ∈ refs
  tasks : ∀ ref ∈ refs, Below agentRefs ref → ref = headRef integrationBranch.toList ∨
    ∃ task ∈ used, ref = headRef (taskBranch task).toList

/-- The name of a task is accepted: no task has it, and for a parallel one Git can make the branch. -/
def nameAccepted (used : List Name) (refs : List (List Char)) (parallel : Bool) (task : Name) : Bool :=
  task ∉ used && (!parallel || canCreate refs (headRef (taskBranch task).toList))

/-- A name that an integration task can have can be that of a parallel one. -/
def Startable (task : Name) : Prop :=
  ∀ used refs, TaskRefs used refs → nameAccepted used refs false task = true →
    nameAccepted used refs true task = true

theorem toList_eq_iff {task other : Name} : task.value.toList = other.value.toList ↔ task = other := by
  rw [String.toList_inj]
  exact ⟨Name.ext_value, congrArg Name.value⟩

theorem headRef_integrationBranch :
    headRef integrationBranch.toList = agentRefs ++ '/' :: integrationLock.value.toList := by
  rw [← taskBranch_integration, headRef_taskBranch]

/-- In a new project only the integration branch is there. -/
theorem taskRefs_new : TaskRefs [] [headRef integrationBranch.toList] where
  separate := by
    intro ref href ref' href'
    rw [List.mem_singleton.mp href, List.mem_singleton.mp href', ← taskBranch_integration]
    exact not_below_taskBranch integrationLock integrationLock
  integration := List.mem_singleton_self _
  tasks _ href _ := Or.inl (List.mem_singleton.mp href)

theorem startable_iff {task : Name} (hne : task ≠ integrationLock) :
    Startable task ↔ PlainName task.value.toList := by
  rw [← isRefName_taskBranch]
  constructor
  · intro h
    have haccepted : nameAccepted [] [headRef integrationBranch.toList] false task = true := rfl
    have hparallel := h _ _ taskRefs_new haccepted
    simp only [nameAccepted, canCreate, Bool.and_eq_true, Bool.not_true, Bool.false_or] at hparallel
    exact hparallel.2.1
  · intro hname used refs hrefs haccepted
    simp only [nameAccepted, Bool.not_false, Bool.true_or, Bool.and_true, decide_eq_true_eq] at haccepted
    have hintegration := hrefs.integration
    rw [headRef_integrationBranch] at hintegration
    rw [headRef_taskBranch] at hname
    have hcreate : canCreate refs (headRef (taskBranch task).toList) = true := by
      rw [headRef_taskBranch]
      apply canCreate_append hname task.notMem_slash hrefs.separate hintegration
      intro part' hpart'
      obtain ⟨other, hother, hcharacters⟩ : ∃ other : Name, other ≠ task ∧
          part' = other.value.toList := by
        rcases hrefs.tasks _ hpart' (below_iff.mpr ⟨part', rfl⟩) with heq | ⟨other, hused, heq⟩
        · rw [headRef_integrationBranch, List.append_cancel_left_eq] at heq
          exact ⟨integrationLock, hne.symm, (List.cons_eq_cons.mp heq).2⟩
        · rw [headRef_taskBranch, List.append_cancel_left_eq] at heq
          refine ⟨other, ?_, (List.cons_eq_cons.mp heq).2⟩
          rintro rfl
          exact haccepted hused
      rw [hcharacters]
      exact ⟨fun heq => hother (toList_eq_iff.mp heq), other.notMem_slash⟩
    simp only [nameAccepted, hcreate, haccepted, not_false_eq_true, decide_true, Bool.or_true,
      Bool.and_true]

/-- The branch of the task is valid and beside the others, and its record is listed. -/
structure Usable (task : Name) : Prop where
  branch : isBranchName (taskBranch task).toList = true
  beside : ∀ other, ¬ Below (headRef (taskBranch task).toList) (headRef (taskBranch other).toList) ∧
    ¬ Below (headRef (taskBranch other).toList) (headRef (taskBranch task).toList)
  integration : ¬ Below (headRef (taskBranch task).toList) (headRef integrationBranch.toList) ∧
    ¬ Below (headRef integrationBranch.toList) (headRef (taskBranch task).toList)
  file : SingleComponent (recordFile task)
  listed : ∀ files, recordFile task ∈ files → recordFile task ∈ recordFiles files
  startable : Startable task

/-- A name other than `integration` is usable exactly if it is plain. The starts alone say so: Git
refuses to start a parallel task under any other name. -/
theorem usable_iff {task : Name} (hne : task ≠ integrationLock) :
    (Usable task ↔ PlainName task.value.toList) ∧ (Startable task ↔ PlainName task.value.toList) := by
  refine ⟨?_, startable_iff hne⟩
  constructor
  · intro h
    exact (startable_iff hne).mp h.startable
  · intro h
    constructor
    · exact (isBranchName_taskBranch task).mpr h
    · intro other
      exact ⟨not_below_taskBranch task other, not_below_taskBranch other task⟩
    · rw [← taskBranch_integration]
      exact ⟨not_below_taskBranch task integrationLock, not_below_taskBranch integrationLock task⟩
    · exact singleComponent_recordFile task
    · intro files
      exact mem_recordFiles
    · exact (startable_iff hne).mpr h

theorem usable_iff_example : Usable ⟨"fix-1.2", by decide⟩ := by
  apply (usable_iff (by decide)).1.mpr
  unfold PlainName
  decide +kernel

def lockedName : Name := ⟨"fix.lock", by decide⟩

/-- An integration task can be called `fix.lock`, and Git makes no branch for a parallel one. -/
theorem lockedName_refused :
    lockedName ≠ integrationLock ∧ isBranchName (taskBranch lockedName).toList = false ∧
      nameAccepted [] [headRef integrationBranch.toList] false lockedName = true ∧
      nameAccepted [] [headRef integrationBranch.toList] true lockedName = false := by
  decide +kernel

end AgentDev
