import AgentDev.Core.Protocol

/-!
# Every request keeps the rules

Each program of `Operations` is gone through once, with arbitrary replies. The history grows by
one event a step; what the rules ask for at a step is then read off the events before it.
-/

namespace AgentDev

open Interleaving

/-! ## Programs in general -/

section Steps

variable {i : Nat} {allowed : History → Action → Prop} {α β : Type}
  {post : β → History → Prop} {postE : Error → History → Prop} {h : History}

theorem obeys_act {action : Action} {next : action.Reply → Op β} (hallowed : allowed h action)
    (hnext : ∀ reply, Obeys i allowed post postE (h ++ [⟨i, action, reply⟩]) (next reply)) :
    Obeys i allowed post postE h (act action >>= next) :=
  ⟨hallowed, hnext⟩

theorem obeys_require {ok : Bool} {error : Error} {next : Unit → Op β} (herror : postE error h)
    (hnext : ok = true → Obeys i allowed post postE h (next ())) :
    Obeys i allowed post postE h (require ok error >>= next) := by
  unfold require
  split
  · rename_i hok
    exact hnext hok
  · exact herror

theorem obeys_orFail {result : Option α} {error : Error} {next : α → Op β}
    (herror : postE error h)
    (hnext : ∀ value, result = some value → Obeys i allowed post postE h (next value)) :
    Obeys i allowed post postE h (orFail result error >>= next) := by
  cases result with
  | none => exact herror
  | some value => exact hnext value rfl

theorem obeys_check {action : Action} {ok : action.Reply → Bool} {error : Error}
    {next : Unit → Op β} (hallowed : allowed h action)
    (herror : ∀ reply, ok reply = false → postE error (h ++ [⟨i, action, reply⟩]))
    (hnext : ∀ reply, ok reply = true →
      Obeys i allowed post postE (h ++ [⟨i, action, reply⟩]) (next ())) :
    Obeys i allowed post postE h (check action ok error >>= next) := by
  refine ⟨hallowed, fun reply => ?_⟩
  show Obeys i allowed post postE _ (require (ok reply) error >>= next)
  unfold require
  cases hok : ok reply with
  | true => exact hnext reply hok
  | false => exact herror reply hok

/-- A lock is taken, the body runs, and the lock is given back after whatever it has done. -/
theorem obeys_lockOne {lock : Name} {readonly : Bool} {body : Op β}
    {Q : β → History → Prop} {E : Error → History → Prop}
    (hacquire : allowed h (.acquire lock readonly))
    (hbody : Obeys i allowed Q E (h ++ [⟨i, .acquire lock readonly, ()⟩]) body)
    (hret : ∀ value h, Q value h → allowed h (.release lock) ∧
      post value (h ++ [⟨i, .release lock, ()⟩]))
    (hfail : ∀ error h, E error h → allowed h (.release lock) ∧
      postE error (h ++ [⟨i, .release lock, ()⟩])) :
    Obeys i allowed post postE h (lockOne lock readonly body) := by
  refine ⟨hacquire, fun _ => ?_⟩
  refine Obeys.ensuring hbody ?_ ?_
  · intro value h hpost
    obtain ⟨hrelease, hdone⟩ := hret value h hpost
    exact ⟨hrelease, fun _ => hdone⟩
  · intro error h hpost
    obtain ⟨hrelease, hdone⟩ := hfail error h hpost
    exact ⟨hrelease, fun _ => hdone⟩

end Steps

/-! ## Growing histories -/

section Histories

variable {i : Nat} {h h' h'' : History} {e : Event Action.Reply}

theorem Plainly.refl (h : History) : Plainly h h := ⟨[], by simp, by simp⟩

theorem Plainly.snoc (hp : Plainly h h') (he : e.action.plain = true) :
    Plainly h (h' ++ [e]) := by
  obtain ⟨new, rfl, hnew⟩ := hp
  refine ⟨new ++ [e], by simp, ?_⟩
  intro e' he'
  rcases List.mem_append.mp he' with hmem | hmem
  · exact hnew e' hmem
  · obtain rfl : e' = e := by simpa using hmem
    exact he

theorem Plainly.trans (hp : Plainly h h') (hp' : Plainly h' h'') : Plainly h h'' := by
  obtain ⟨new, rfl, hnew⟩ := hp
  obtain ⟨new', rfl, hnew'⟩ := hp'
  refine ⟨new ++ new', by simp, ?_⟩
  intro e he
  rcases List.mem_append.mp he with hmem | hmem
  · exact hnew e hmem
  · exact hnew' e hmem

theorem Plainly.mem (hp : Plainly h h') (he : e ∈ h) : e ∈ h' := by
  obtain ⟨new, rfl, -⟩ := hp
  exact List.mem_append_left _ he

theorem Action.internal_of_plain {action : Action} (h : action.plain = true) :
    fileLocks.Internal action := by
  cases action <;> first | exact ⟨rfl, rfl⟩ | cases h

theorem Plainly.held (hp : Plainly h h') : fileLocks.held h' = fileLocks.held h := by
  obtain ⟨new, rfl, hnew⟩ := hp
  apply Locking.held_append_internal
  intro e he
  exact Action.internal_of_plain (hnew e he)

theorem Plainly.unwritten (hp : Plainly h h') (hu : Unwritten h) : Unwritten h' := by
  obtain ⟨new, rfl, hnew⟩ := hp
  intro e he task record haction
  rcases List.mem_append.mp he with hmem | hmem
  · exact hu e hmem task record haction
  · have hplain := hnew e hmem
    rw [haction] at hplain
    cases hplain

theorem Unwritten.snoc (hu : Unwritten h) (he : ∀ task record, e.action ≠ .writeRecord task record) :
    Unwritten (h ++ [e]) := by
  intro e' he' task record
  rcases List.mem_append.mp he' with hmem | hmem
  · exact hu e' hmem task record
  · obtain rfl : e' = e := by simpa using hmem
    exact he task record

theorem held_acquire {lock : Name} {shared : Bool} :
    fileLocks.held (h ++ [⟨i, .acquire lock shared, ()⟩]) =
      (lock, shared) :: fileLocks.held h := by
  rw [Locking.held_snoc]
  rfl

/-- No worktree has been added. -/
def Unadded (h : History) : Prop :=
  ∀ i branch task, ⟨i, .worktreeAdd branch task, Addition.added⟩ ∉ h

theorem Unadded.settled (hu : Unadded h) : Settled h :=
  fun i branch task hmem => absurd hmem (hu i branch task)

theorem Unadded.snoc (hu : Unadded h)
    (he : ∀ i branch task, e ≠ ⟨i, .worktreeAdd branch task, Addition.added⟩) :
    Unadded (h ++ [e]) := by
  intro i branch task hmem
  rcases List.mem_append.mp hmem with hmem | hmem
  · exact hu i branch task hmem
  · exact he i branch task (List.mem_singleton.mp hmem).symm

theorem Plainly.unadded (hp : Plainly h h') (hu : Unadded h) : Unadded h' := by
  obtain ⟨new, rfl, hnew⟩ := hp
  intro i branch task hmem
  rcases List.mem_append.mp hmem with hmem | hmem
  · exact hu i branch task hmem
  · cases hnew _ hmem

theorem Scanned.append {records : List TaskRecord} (hs : Scanned i h records) :
    Scanned i (h ++ h') records := by
  obtain ⟨names, before, after, rfl, hread⟩ := hs
  refine ⟨names, before, after ++ h', by simp, fun task htask => ?_⟩
  obtain ⟨reply, hmem, hin⟩ := hread task htask
  exact ⟨reply, List.mem_append_left _ hmem, hin⟩

theorem Scanned.prepend {records : List TaskRecord} (hs : Scanned i h records) :
    Scanned i (h' ++ h) records := by
  obtain ⟨names, before, after, rfl, hread⟩ := hs
  exact ⟨names, h' ++ before, after, by simp, hread⟩

@[simp] theorem started_snoc :
    started i (h ++ [e]) = e.action.running i (started i h) e.reply := by
  simp [started, List.foldl_append]

theorem Plainly.started_eq (hp : Plainly h h') : started i h' = started i h := by
  obtain ⟨new, rfl, hnew⟩ := hp
  rw [started, List.foldl_append]
  change List.foldl _ (started i h) new = started i h
  induction new with
  | nil => rfl
  | cons e new ih =>
    have hplain := hnew e List.mem_cons_self
    have hsame : e.action.running i (started i h) e.reply = started i h := by
      unfold Action.running
      split <;> first | rfl | simp_all [Action.plain]
    rw [List.foldl_cons, hsame]
    exact ih fun e' he' => hnew e' (List.mem_cons_of_mem _ he')

end Histories

/-! ## Reading -/

section Requests

variable {i : Nat} {project task : Name} {request : Request} {h : History}

/-- A step that uses no workspace. -/
theorem Allowed.free {action : Action} (huses : ∀ w, ¬ action.uses w)
    (hlicence : Licence i project request h action) : Allowed i project request h action :=
  ⟨fun w hw => absurd hw (huses w), hlicence⟩

/-- A step that uses one workspace, whose lock is held. -/
theorem Allowed.within {action : Action} {w : Workspace} {s : Bool}
    (huses : ∀ w', action.uses w' → w' = w) (hheld : (lockOf w, s) ∈ fileLocks.held h)
    (hlicence : Licence i project request h action) : Allowed i project request h action :=
  ⟨fun w' hw' => ⟨s, by rw [huses w' hw']; exact hheld⟩, hlicence⟩

/-- What is known of a record that `load_task` returns. -/
structure Loaded (i : Nat) (task : Name) (record : TaskRecord) (workspace : Workspace)
    (h : History) : Prop where
  read : ⟨i, .readRecord task, some record⟩ ∈ h
  selected : workspace = workspaceOf task record

theorem Loaded.plainly {record : TaskRecord} {workspace : Workspace} {h' : History}
    (hl : Loaded i task record workspace h) (hp : Plainly h h') :
    Loaded i task record workspace h' :=
  ⟨hp.mem hl.read, hl.selected⟩

theorem loadTask_obeys :
    Obeys i (Allowed i project request)
      (fun value h' => Plainly h h' ∧ Loaded i task value.1 value.2 h') (fun _ _ => True) h
      (loadTask project task) := by
  refine obeys_check (.free (fun _ => id) trivial) (fun _ _ => trivial) fun _ _ => ?_
  refine obeys_act (.free (fun _ => id) trivial) fun reply => ?_
  refine obeys_orFail trivial fun record hrecord => ?_
  refine obeys_require trivial fun _ => obeys_require trivial fun _ => ?_
  refine obeys_check (.free (fun _ => id) trivial) (fun _ _ => trivial) fun found _ => ?_
  subst hrecord
  refine ⟨⟨_, by simp only [List.append_assoc]; rfl, by simp [Action.plain]⟩, ?_, rfl⟩
  simp

theorem readRecords_obeys (names : List Name) :
    Obeys i (Allowed i project request)
      (fun records h' => ∃ new, h' = h ++ new ∧ (∀ e ∈ new, e.action.plain = true) ∧
        ∀ task ∈ names, ∃ reply, ⟨i, .readRecord task, reply⟩ ∈ new ∧
          ∀ record, reply = some record → record ∈ records)
      (fun _ _ => False) h (readRecords names) := by
  induction names generalizing h with
  | nil => exact ⟨[], by simp, by simp, by simp⟩
  | cons task rest ih =>
    refine obeys_act (.free (fun _ => id) trivial) fun reply => ?_
    refine Obeys.bind ih ?_
    rintro records h' ⟨new, rfl, hplain, hread⟩
    refine ⟨⟨i, .readRecord task, reply⟩ :: new, by simp, ?_, ?_⟩
    · intro e he
      rcases List.mem_cons.mp he with rfl | he
      · rfl
      · exact hplain e he
    · intro other hother
      rcases List.mem_cons.mp hother with rfl | hother
      · refine ⟨reply, List.mem_cons_self, fun record hrecord => ?_⟩
        have hmem : record ∈ Option.toList reply := by
          rw [hrecord]
          exact List.mem_cons_self
        exact List.mem_append_left records hmem
      · obtain ⟨reply', hmem, hin⟩ := hread other hother
        exact ⟨reply', List.mem_cons_of_mem _ hmem,
          fun record hrecord => List.mem_append_right _ (hin record hrecord)⟩

/-- The records are a scan, after which nothing else has happened. -/
theorem taskRecords_obeys :
    Obeys i (Allowed i project request)
      (fun records h' => ∃ new, h' = h ++ new ∧ (∀ e ∈ new, e.action.plain = true) ∧
        Scanned i new records) (fun _ _ => False) h taskRecords := by
  refine obeys_act (.free (fun _ => id) trivial) fun names => ?_
  refine (readRecords_obeys names).mono ?_ fun _ _ hno => hno
  rintro records h' ⟨new, rfl, hplain, hread⟩
  refine ⟨⟨i, .listRecords, names⟩ :: new, by simp, ?_, ?_⟩
  · intro e he
    rcases List.mem_cons.mp he with rfl | he
    · rfl
    · exact hplain e he
  · exact ⟨names, [], new, rfl, hread⟩

/-! ## Completing -/

theorem obeys_ensureClean {β : Type} {allowed : History → Action → Prop}
    {post : β → History → Prop} {postE : Error → History → Prop} {workspace : Workspace}
    {label : String} {next : Unit → Op β} (hallowed : allowed h (.gitStatus workspace))
    (herror : ∀ error reply, postE error (h ++ [⟨i, .gitStatus workspace, reply⟩]))
    (hnext : Obeys i allowed post postE (h ++ [⟨i, .gitStatus workspace, some false⟩]) (next ())) :
    Obeys i allowed post postE h (ensureClean workspace label >>= next) := by
  refine ⟨hallowed, fun reply => ?_⟩
  match reply with
  | none => exact herror _ none
  | some true => exact herror _ (some true)
  | some false => exact hnext

/-- A lock may be given back by a request that neither adds a worktree nor runs a provider. -/
theorem Allowed.release {lock : Name}
    (hstart : ∀ task dependencies, request ≠ .taskStart task true dependencies)
    (hrun : ∀ task readonly, request ≠ .run task readonly) :
    Allowed i project request h (.release lock) :=
  .free (fun _ => id) ⟨fun task dependencies heq => absurd heq (hstart task dependencies),
    fun task readonly heq => absurd heq (hrun task readonly)⟩

theorem completeTaskLocked_obeys {record : TaskRecord} {workspace : Workspace}
    (hloaded : Loaded i task record workspace h) (hactive : record.status = .active)
    (hunwritten : Unwritten h)
    (hheld : (taskLockName task record, false) ∈ fileLocks.held h) :
    Obeys i (Allowed i project (.taskComplete task))
      (fun result h' => ⟨i, .writeRecord task result, true⟩ ∈ h') (fun _ _ => True) h
      (completeTaskLocked task record workspace) := by
  have hlock : lockOf workspace = taskLockName task record := by
    rw [hloaded.selected, lockOf_workspaceOf, taskLockName_eq_runLockName]
    rw [hactive]
    exact fun heq => nomatch heq
  have huse : ∀ {h'}, Plainly h h' → (lockOf workspace, false) ∈ fileLocks.held h' := by
    intro h' hp
    rw [hlock, hp.held]
    exact hheld
  have hp := Plainly.refl h
  refine obeys_ensureClean (.within (fun _ hw => hw) (huse hp) trivial) (fun _ _ => trivial) ?_
  replace hp := hp.snoc (e := ⟨i, .gitStatus workspace, some false⟩) rfl
  refine obeys_act (.within (fun _ hw => hw) (huse hp) trivial) fun branch => ?_
  replace hp := hp.snoc (e := ⟨i, .currentBranch workspace, branch⟩) rfl
  refine obeys_orFail trivial fun _ _ => obeys_require trivial fun _ => ?_
  refine obeys_act (.within (fun _ hw => hw) (huse hp) trivial) fun reply => ?_
  replace hp := hp.snoc (e := ⟨i, .revParseHead workspace, reply⟩) rfl
  refine obeys_orFail trivial fun head hhead => ?_
  refine obeys_act (.free (fun _ => id) trivial) fun now => ?_
  replace hp := hp.snoc (e := ⟨i, .nowIso, now⟩) rfl
  refine obeys_check (.free (fun _ => id) ⟨hp.unwritten hunwritten, .complete record ?_⟩)
    (fun _ _ => trivial) ?_
  · refine ⟨hp.mem hloaded.read, hactive, h, _, head, now, ⟨by simp only [List.append_assoc]; rfl,
      ?_, ?_⟩, ?_, ?_, rfl⟩
    · simpa using hheld
    · simp [Action.releases]
    · simp [hloaded.selected]
    · simp [hloaded.selected, hhead]
  · intro ok hok
    obtain rfl : ok = true := hok
    exact List.mem_append_right _ List.mem_cons_self

theorem taskComplete_obeys (hunwritten : Unwritten h) :
    Obeys i (Allowed i project (.taskComplete task))
      (fun result h' => ⟨i, .writeRecord task result, true⟩ ∈ h') (fun _ _ => True) h
      (taskComplete project task) := by
  refine loadTask_obeys.bind ?_
  rintro ⟨record, workspace⟩ h' ⟨hp, hloaded⟩
  refine obeys_require trivial fun hactive => ?_
  refine obeys_lockOne (.free (fun _ => id) fun hshared => nomatch hshared)
    (completeTaskLocked_obeys ⟨?_, hloaded.selected⟩ (by simpa using hactive) ?_ ?_) ?_ ?_
  · exact List.mem_append_left _ hloaded.read
  · exact (hp.unwritten hunwritten).snoc (by simp)
  · rw [held_acquire]
    exact List.mem_cons_self
  · intro result h' hwritten
    exact ⟨.release (by simp) (by simp), List.mem_append_left _ hwritten⟩
  · intro error h' _
    exact ⟨.release (by simp) (by simp), trivial⟩

/-! ## Merging -/

theorem validateRecordedHead_obeys {record : TaskRecord} {workspace : Workspace}
    (hagent : (integrationLock, false) ∈ fileLocks.held h)
    (hworkspace : (lockOf workspace, false) ∈ fileLocks.held h) :
    Obeys i (Allowed i project request)
      (fun head h' => Plainly h h' ∧ record.headCommit = some head) (fun _ _ => True) h
      (validateRecordedHead record workspace) := by
  have hp := Plainly.refl h
  refine obeys_orFail trivial fun head hhead => ?_
  refine obeys_act (.within (w := .agent) (fun _ hw => hw) hagent trivial)
    fun branchHead => ?_
  replace hp := hp.snoc (e := ⟨i, .revParse record.branch, branchHead⟩) rfl
  refine obeys_orFail trivial fun _ _ => ?_
  refine obeys_act (.within (fun _ hw => hw) (hp.held ▸ hworkspace) trivial) fun workspaceHead => ?_
  replace hp := hp.snoc (e := ⟨i, .revParseHead workspace, workspaceHead⟩) rfl
  refine obeys_orFail trivial fun _ _ => obeys_require trivial fun _ => ?_
  exact ⟨hp, hhead⟩

/-- A successful merge has merged the recorded head, and read the merge commit after that. -/
theorem mergeParallelWorktree_obeys {record : TaskRecord}
    (hagent : (integrationLock, false) ∈ fileLocks.held h)
    (htask : (task, false) ∈ fileLocks.held h) :
    Obeys i (Allowed i project (.taskMerge task))
      (fun mergeCommit h' => ∃ before after head,
        Plainly h h' ∧ h' = h ++ (before ++ ⟨i, .gitMerge head, true⟩ :: after) ∧
        record.headCommit = some head ∧
        ⟨i, .gitStatus (.worktree task), some false⟩ ∈ before ∧
        ⟨i, .revParseHead .agent, some mergeCommit⟩ ∈ after ∧
        ⟨i, .worktreeRemove (.worktree task) false, true⟩ ∈ after)
      (fun _ _ => True) h (mergeParallelWorktree record (.worktree task)) := by
  have hp := Plainly.refl h
  have hagent' : ∀ {h'}, Plainly h h' → (lockOf .agent, false) ∈ fileLocks.held h' := by
    intro h' hp
    rw [hp.held]
    exact hagent
  refine obeys_ensureClean (.within (fun _ hw => hw) htask trivial) (fun _ _ => trivial) ?_
  replace hp := hp.snoc (e := ⟨i, .gitStatus (.worktree task), some false⟩) rfl
  refine obeys_ensureClean (.within (fun _ hw => hw) (hagent' hp) trivial) (fun _ _ => trivial) ?_
  replace hp := hp.snoc (e := ⟨i, .gitStatus .agent, some false⟩) rfl
  refine (validateRecordedHead_obeys (hagent' hp) (hp.held ▸ htask)).bind ?_
  rintro head h' ⟨⟨new, rfl, hnew⟩, hhead⟩
  replace hp := hp.trans ⟨new, rfl, hnew⟩
  refine obeys_check (.within (fun _ hw => hw) (hagent' hp) (hagent' hp)) (fun _ _ => trivial)
    fun switched _ => ?_
  replace hp := hp.snoc (e := ⟨i, .gitSwitch, switched⟩) rfl
  refine obeys_act (.within (fun _ hw => hw) (hagent' hp) (hagent' hp)) fun merged => ?_
  replace hp := hp.snoc (e := ⟨i, .gitMerge head, merged⟩) rfl
  match merged with
  | false =>
    exact obeys_act (.within (fun _ hw => hw) (hagent' hp) (hagent' hp)) fun _ => trivial
  | true =>
    refine obeys_act (.within (fun _ hw => hw) (hagent' hp) trivial) fun reply => ?_
    replace hp := hp.snoc (e := ⟨i, .revParseHead .agent, reply⟩) rfl
    refine obeys_orFail trivial fun mergeCommit hcommit => ?_
    refine obeys_check ⟨?_, ?_⟩ (fun _ _ => trivial) fun removed hremoved => ?_
    · rintro w (rfl | rfl)
      · exact ⟨false, hp.held ▸ htask⟩
      · exact ⟨false, hagent' hp⟩
    · exact ⟨task, rfl, hagent' hp, hp.held ▸ htask, Or.inl rfl⟩
    replace hp := hp.snoc (e := ⟨i, .worktreeRemove (.worktree task) false, removed⟩) rfl
    refine obeys_check (.within (fun _ hw => hw) (hagent' hp) (hagent' hp)) (fun _ _ => trivial)
      fun deleted _ => ?_
    replace hp := hp.snoc (e := ⟨i, .branchDelete record.branch false, deleted⟩) rfl
    obtain rfl : removed = true := hremoved
    refine ⟨⟨i, .gitStatus (.worktree task), some false⟩ :: ⟨i, .gitStatus .agent, some false⟩ ::
      (new ++ [⟨i, .gitSwitch, switched⟩]), [⟨i, .revParseHead .agent, reply⟩,
      ⟨i, .worktreeRemove (.worktree task) false, true⟩,
      ⟨i, .branchDelete record.branch false, deleted⟩], head, hp, by simp, hhead, by simp,
      by simp [hcommit], by simp⟩

theorem mergeTaskLocked_obeys {record : TaskRecord}
    (hread : ⟨i, .readRecord task, some record⟩ ∈ h) (hparallel : record.mode = .parallel)
    (hcompleted : record.status = .completed) (hunwritten : Unwritten h)
    (hagent : (integrationLock, false) ∈ fileLocks.held h)
    (htask : (task, false) ∈ fileLocks.held h) :
    Obeys i (Allowed i project (.taskMerge task))
      (fun result h' => ⟨i, .writeRecord task result, true⟩ ∈ h') (fun _ _ => True) h
      (mergeTaskLocked task record (.worktree task)) := by
  refine (mergeParallelWorktree_obeys hagent htask).bind ?_
  rintro mergeCommit h' ⟨before, after, head, hp, hsplit, hhead, hclean, hcommit, hremoved⟩
  refine obeys_act (.free (fun _ => id) trivial) fun now => ?_
  replace hp := hp.snoc (e := ⟨i, .nowIso, now⟩) rfl
  refine obeys_check (.free (fun _ => id) ⟨hp.unwritten hunwritten, .merge record ?_⟩)
    (fun _ _ => trivial) ?_
  · obtain ⟨new, hnew, hplain⟩ := hp
    have hevents : new = before ++ ⟨i, .gitMerge head, true⟩ :: (after ++ [⟨i, .nowIso, now⟩]) := by
      rw [hsplit] at hnew
      simpa using hnew.symm
    refine ⟨?_, hparallel, hcompleted, h, new, head, mergeCommit, now, ⟨hnew, ?_, ?_⟩, hhead, ?_,
      ⟨before, after ++ [⟨i, .nowIso, now⟩], hevents, List.mem_append_left _ hcommit⟩, ?_, rfl⟩
    · rw [hnew]
      exact List.mem_append_left _ hread
    · intro lock hlock
      rcases List.mem_cons.mp hlock with rfl | hlock
      · exact hagent
      · obtain rfl : lock = task := by simpa using hlock
        exact htask
    · exact fun e he => (Action.internal_of_plain (hplain e he)).2
    · rw [hevents]
      exact List.mem_append_left _ hclean
    · rw [hevents]
      simp [hremoved]
  · intro ok hok
    obtain rfl : ok = true := hok
    exact List.mem_append_right _ List.mem_cons_self

/-- The workspace of a parallel task that is not merged is its own worktree. -/
theorem workspaceOf_worktree {record : TaskRecord} (hparallel : record.mode = .parallel)
    (hmerged : record.status ≠ .merged) : workspaceOf task record = .worktree task := by
  simp [workspaceOf, hparallel, hmerged]

/-- The body that `task-merge` and `task-abort` run under the integration lock and the lock of the
task. -/
theorem lockBoth_obeys {α : Type} {body : Op α} {post : α → History → Prop}
    (hstart : ∀ task dependencies, request ≠ .taskStart task true dependencies)
    (hrun : ∀ task readonly, request ≠ .run task readonly)
    (hkeep : ∀ value h e, post value h → post value (h ++ [e]))
    (hbody : Obeys i (Allowed i project request) post (fun _ _ => True)
      (h ++ [⟨i, .acquire integrationLock false, ()⟩] ++ [⟨i, .acquire task false, ()⟩]) body) :
    Obeys i (Allowed i project request) post (fun _ _ => True) h
      (lockOne integrationLock false (lockOne task false body)) := by
  have hacquire : ∀ {h lock}, Allowed i project request h (.acquire lock false) :=
    .free (fun _ => id) fun hshared => nomatch hshared
  have hinner : Obeys i (Allowed i project request) post (fun _ _ => True)
      (h ++ [⟨i, .acquire integrationLock false, ()⟩]) (lockOne task false body) :=
    obeys_lockOne hacquire hbody
      (fun value h hpost => ⟨.release hstart hrun, hkeep value h _ hpost⟩)
      fun _ _ _ => ⟨.release hstart hrun, trivial⟩
  exact obeys_lockOne hacquire hinner
    (fun value h hpost => ⟨.release hstart hrun, hkeep value h _ hpost⟩)
    fun _ _ _ => ⟨.release hstart hrun, trivial⟩

theorem taskMerge_obeys (hunwritten : Unwritten h) :
    Obeys i (Allowed i project (.taskMerge task))
      (fun result h' => ⟨i, .writeRecord task result, true⟩ ∈ h') (fun _ _ => True) h
      (taskMerge project task) := by
  refine loadTask_obeys.bind ?_
  rintro ⟨record, workspace⟩ h' ⟨hp, hread, hselected⟩
  refine obeys_require trivial fun hok => ?_
  simp only [Bool.and_eq_true, decide_eq_true_eq] at hok
  obtain ⟨hparallel, hcompleted⟩ := hok
  obtain rfl : workspace = .worktree task :=
    hselected.trans (workspaceOf_worktree hparallel (by simp [hcompleted]))
  refine lockBoth_obeys (by simp) (by simp) (fun _ _ _ hmem => List.mem_append_left _ hmem) ?_
  refine mergeTaskLocked_obeys ?_ hparallel hcompleted ?_ ?_ ?_
  · simp [hread]
  · exact ((hp.unwritten hunwritten).snoc (by simp)).snoc (by simp)
  · rw [held_acquire, held_acquire]
    simp
  · rw [held_acquire]
    exact List.mem_cons_self

/-! ## Aborting -/

/-- After the abort of a worktree it is gone: it was missing, or it has been removed. -/
theorem abortParallelWorktree_obeys {record : TaskRecord}
    (hagent : (integrationLock, false) ∈ fileLocks.held h)
    (htask : (task, false) ∈ fileLocks.held h) :
    Obeys i (Allowed i project (.taskAbort task))
      (fun _ h' => ∃ new, h' = h ++ new ∧ (∀ e ∈ new, e.action.plain = true) ∧
        (⟨i, .workspaceExists (.worktree task), false⟩ ∈ new ∨
          ⟨i, .worktreeRemove (.worktree task) true, true⟩ ∈ new))
      (fun _ _ => True) h (abortParallelWorktree record (.worktree task)) := by
  have hagent' : ∀ {h'}, Plainly h h' → (lockOf .agent, false) ∈ fileLocks.held h' := by
    intro h' hp
    rw [hp.held]
    exact hagent
  -- the branch is deleted after the worktree
  have hbranch : ∀ new : History, (∀ e ∈ new, e.action.plain = true) →
      Obeys i (Allowed i project (.taskAbort task)) (fun _ h' => Plainly (h ++ new) h')
        (fun _ _ => True) (h ++ new) (do
          if ← act (.showRef record.branch) then
            check (.branchDelete record.branch true) id (.internal "git branch")) := by
    intro new hnew
    have hp : Plainly h (h ++ new) := ⟨new, rfl, hnew⟩
    have hp' := Plainly.refl (h ++ new)
    refine obeys_act (.within (fun _ hw => hw) (hagent' hp) trivial) fun found => ?_
    replace hp := hp.snoc (e := ⟨i, .showRef record.branch, found⟩) rfl
    replace hp' := hp'.snoc (e := ⟨i, .showRef record.branch, found⟩) rfl
    match found with
    | false => exact hp'
    | true =>
      refine ⟨.within (fun _ hw => hw) (hagent' hp) (hagent' hp), fun deleted => ?_⟩
      match deleted with
      | false => exact trivial
      | true => exact hp'.snoc rfl
  have hend : ∀ new : History, (∀ e ∈ new, e.action.plain = true) →
      (⟨i, .workspaceExists (.worktree task), false⟩ ∈ new ∨
        ⟨i, .worktreeRemove (.worktree task) true, true⟩ ∈ new) →
      ∀ h', Plainly (h ++ new) h' → ∃ new, h' = h ++ new ∧ (∀ e ∈ new, e.action.plain = true) ∧
        (⟨i, .workspaceExists (.worktree task), false⟩ ∈ new ∨
          ⟨i, .worktreeRemove (.worktree task) true, true⟩ ∈ new) := by
    rintro new hnew hgone h' ⟨new', rfl, hnew'⟩
    refine ⟨new ++ new', by simp, ?_, ?_⟩
    · intro e he
      rcases List.mem_append.mp he with hmem | hmem
      · exact hnew e hmem
      · exact hnew' e hmem
    · exact hgone.imp (List.mem_append_left _) (List.mem_append_left _)
  refine obeys_act (.free (fun _ => id) trivial) fun found => ?_
  match found with
  | false =>
    refine (hbranch [⟨i, .workspaceExists (.worktree task), false⟩] (by simp [Action.plain])).mono
      (fun _ h' hp => ?_) fun _ _ h => h
    exact hend _ (by simp [Action.plain]) (by simp) h' hp
  | true =>
    have hp := (Plainly.refl h).snoc (e := ⟨i, .workspaceExists (.worktree task), true⟩) rfl
    refine obeys_check ⟨?_, task, rfl, hagent' hp, hp.held ▸ htask, Or.inr rfl⟩
      (fun _ _ => trivial) fun removed hremoved => ?_
    · rintro w (rfl | rfl)
      · exact ⟨false, hp.held ▸ htask⟩
      · exact ⟨false, hagent' hp⟩
    · obtain rfl : removed = true := hremoved
      rw [List.append_assoc]
      refine (hbranch _ (by simp [Action.plain])).mono (fun _ h' hp => ?_) fun _ _ h => h
      exact hend _ (by simp [Action.plain]) (by simp) h' hp

theorem abortTaskLocked_obeys {record : TaskRecord}
    (hread : ⟨i, .readRecord task, some record⟩ ∈ h) (hparallel : record.mode = .parallel)
    (hpending : record.status = .active ∨ record.status = .completed) (hunwritten : Unwritten h)
    (hagent : (integrationLock, false) ∈ fileLocks.held h)
    (htask : (task, false) ∈ fileLocks.held h) :
    Obeys i (Allowed i project (.taskAbort task))
      (fun result h' => ⟨i, .writeRecord task result, true⟩ ∈ h') (fun _ _ => True) h
      (abortTaskLocked task record (.worktree task)) := by
  refine (abortParallelWorktree_obeys hagent htask).bind ?_
  rintro - h' ⟨new, rfl, hplain, hgone⟩
  have hp : Plainly h (h ++ new) := ⟨new, rfl, hplain⟩
  refine obeys_act (.free (fun _ => id) trivial) fun now => ?_
  replace hp := hp.snoc (e := ⟨i, .nowIso, now⟩) rfl
  refine obeys_check (.free (fun _ => id) ⟨hp.unwritten hunwritten, .abort record ?_⟩)
    (fun _ _ => trivial) ?_
  · refine ⟨hp.mem hread, hparallel, hpending, h, new ++ [⟨i, .nowIso, now⟩], now,
      ⟨by simp, ?_, ?_⟩, ?_, rfl⟩
    · intro lock hlock
      rcases List.mem_cons.mp hlock with rfl | hlock
      · exact hagent
      · obtain rfl : lock = task := by simpa using hlock
        exact htask
    · intro e he
      rcases List.mem_append.mp he with hmem | hmem
      · exact (Action.internal_of_plain (hplain e hmem)).2
      · obtain rfl : e = ⟨i, .nowIso, now⟩ := by simpa using hmem
        rfl
    · exact hgone.imp (List.mem_append_left _) (List.mem_append_left _)
  · intro ok hok
    obtain rfl : ok = true := hok
    exact List.mem_append_right _ List.mem_cons_self

theorem taskAbort_obeys (hunwritten : Unwritten h) :
    Obeys i (Allowed i project (.taskAbort task))
      (fun result h' => ⟨i, .writeRecord task result, true⟩ ∈ h') (fun _ _ => True) h
      (taskAbort project task) := by
  refine loadTask_obeys.bind ?_
  rintro ⟨record, workspace⟩ h' ⟨hp, hread, hselected⟩
  refine obeys_require trivial fun hok => ?_
  simp only [Bool.and_eq_true, Bool.or_eq_true, decide_eq_true_eq] at hok
  obtain ⟨hparallel, hpending⟩ := hok
  have hmerged : record.status ≠ .merged := by
    rcases hpending with heq | heq <;> simp [heq]
  obtain rfl : workspace = .worktree task :=
    hselected.trans (workspaceOf_worktree hparallel hmerged)
  refine lockBoth_obeys (by simp) (by simp) (fun _ _ _ hmem => List.mem_append_left _ hmem) ?_
  refine abortTaskLocked_obeys ?_ hparallel hpending ?_ ?_ ?_
  · simp [hread]
  · exact ((hp.unwritten hunwritten).snoc (by simp)).snoc (by simp)
  · rw [held_acquire, held_acquire]
    simp
  · rw [held_acquire]
    exact List.mem_cons_self

/-! ## Starting -/

/-- A check without a step leaves the history as it is. -/
theorem require_obeys {allowed : History → Action → Prop} {postE : Error → History → Prop}
    {ok : Bool} {error : Error} (herror : postE error h) :
    Obeys i allowed (fun _ h' => h' = h ∧ ok = true) postE h (require ok error) := by
  unfold require
  split
  · rename_i hok
    exact ⟨rfl, hok⟩
  · exact herror

theorem orFail_obeys {α : Type} {allowed : History → Action → Prop}
    {postE : Error → History → Prop} {result : Option α} {error : Error} (herror : postE error h) :
    Obeys i allowed (fun _ h' => h' = h) postE h (orFail result error) := by
  cases result with
  | none => exact herror
  | some value => exact rfl

theorem requiredCommit_obeys {allowed : History → Action → Prop}
    {postE : Error → History → Prop} {dep : Name} {record : TaskRecord}
    (herror : ∀ error, postE error h) :
    Obeys i allowed (fun _ h' => h' = h) postE h (requiredCommit dep record) := by
  unfold requiredCommit
  cases record.mode with
  | parallel => exact obeys_require (herror _) fun _ => orFail_obeys (herror _)
  | integration => exact obeys_require (herror _) fun _ => orFail_obeys (herror _)

theorem validateDependencies_obeys {base : Commit} {dependencies : List Name}
    (hheld : (integrationLock, false) ∈ fileLocks.held h) :
    Obeys i (Allowed i project request) (fun _ h' => Plainly h h') (fun _ h' => Plainly h h') h
      (validateDependencies base dependencies) := by
  induction dependencies generalizing h with
  | nil => exact Plainly.refl h
  | cons dep rest ih =>
    have hp := Plainly.refl h
    refine obeys_check (.free (fun _ => id) trivial) (fun _ _ => hp.snoc rfl) fun found _ => ?_
    replace hp := hp.snoc (e := ⟨i, .recordExists dep, found⟩) rfl
    refine obeys_act (.free (fun _ => id) trivial) fun reply => ?_
    replace hp := hp.snoc (e := ⟨i, .readRecord dep, reply⟩) rfl
    refine obeys_orFail hp fun record _ => ?_
    refine (requiredCommit_obeys fun _ => hp).bind ?_
    rintro required h' rfl
    refine obeys_check (.within (w := .agent) (fun _ hw => hw) (hp.held ▸ hheld) trivial)
      (fun _ _ => hp.snoc rfl) fun integrated _ => ?_
    replace hp := hp.snoc (e := ⟨i, .isAncestor required base, integrated⟩) rfl
    exact (ih (hp.held ▸ hheld)).mono (fun _ _ => hp.trans) fun _ _ => hp.trans

/-- The gates of a start let it pass only when the records are as its mode needs them. -/
theorem startGates_obeys {allowed : History → Action → Prop} {postE : Error → History → Prop}
    {parallel : Bool} {records : List TaskRecord} (herror : ∀ error, postE error h) :
    Obeys i allowed (fun _ h' => h' = h ∧ (activeSequential records).isEmpty = true ∧
      (parallel = false → (pendingParallel records).isEmpty = true)) postE h
      (startGates parallel records) := by
  unfold startGates
  cases parallel with
  | true =>
    exact (require_obeys (herror _)).mono (fun _ _ hok => ⟨hok.1, hok.2, by simp⟩) fun _ _ h => h
  | false =>
    refine obeys_require (herror _) fun hactive => ?_
    exact (require_obeys (herror _)).mono (fun _ _ hok => ⟨hok.1, hactive, fun _ => hok.2⟩)
      fun _ _ h => h

/-- What a start writes after it has added its worktree, or needs none. -/
theorem startWrite_obeys {parallel : Bool} {dependencies : List Name} {base : Commit}
    (h₁ new : History) {records : List TaskRecord} (hunwritten : Unwritten h)
    (habsent : ⟨i, .recordExists task, false⟩ ∈ h)
    (hlocked : Locked [integrationLock] h h₁ new) (hscan : Scanned i new records)
    (hactive : (activeSequential records).isEmpty = true)
    (hmode : if parallel then ⟨i, .worktreeAdd (taskBranch task) task, Addition.added⟩ ∈ new
      else (pendingParallel records).isEmpty = true) :
    Obeys i (Allowed i project (.taskStart task parallel dependencies))
      (fun result h' => ⟨i, .writeRecord task result, true⟩ ∈ h') (fun _ h' => Settled h') h (do
        let now ← act .nowIso
        let record := startedRecord project task parallel base dependencies now
        writeJson task record
        pure record) := by
  refine obeys_act (.free (fun _ => id) trivial) fun now => ?_
  have hwrite : StartWrite i project task parallel dependencies (h ++ [⟨i, .nowIso, now⟩])
      (startedRecord project task parallel base dependencies now) := by
    refine ⟨List.mem_append_left _ habsent, ⟨base, now, rfl⟩, h₁, new ++ [⟨i, .nowIso, now⟩],
      records, ⟨?_, hlocked.held, ?_⟩, hscan.append, hactive, ?_⟩
    · rw [hlocked.split, List.append_assoc]
    · intro e he
      rcases List.mem_append.mp he with hmem | hmem
      · exact hlocked.kept e hmem
      · obtain rfl : e = ⟨i, .nowIso, now⟩ := by simpa using hmem
        rfl
    · cases parallel with
      | true => exact List.mem_append_left _ hmode
      | false => exact hmode
  refine obeys_check (.free (fun _ => id) ⟨hunwritten.snoc (by simp), .start parallel
    dependencies hwrite⟩) ?_ ?_
  · intro ok _ _ _ _ _
    exact ⟨_, List.mem_append_right _ List.mem_cons_self, task, _, rfl⟩
  · intro ok hok
    obtain rfl : ok = true := hok
    exact List.mem_append_right _ List.mem_cons_self

theorem startTaskLocked_obeys {parallel : Bool} {dependencies : List Name}
    (hunwritten : Unwritten h) (hunadded : Unadded h)
    (habsent : ⟨i, .recordExists task, false⟩ ∈ h)
    (hheld : (integrationLock, false) ∈ fileLocks.held h) :
    Obeys i (Allowed i project (.taskStart task parallel dependencies))
      (fun result h' => ⟨i, .writeRecord task result, true⟩ ∈ h') (fun _ h' => Settled h') h
      (startTaskLocked project task parallel dependencies) := by
  have hagent : ∀ {h'}, Plainly h h' → (lockOf .agent, false) ∈ fileLocks.held h' := by
    intro h' hp
    rw [hp.held]
    exact hheld
  have hsettled : ∀ {h'}, Plainly h h' → Settled h' := fun hp => (hp.unadded hunadded).settled
  have hp := Plainly.refl h
  refine obeys_ensureClean (.within (fun _ hw => hw) (hagent hp) trivial)
    (fun _ _ => hsettled (hp.snoc rfl)) ?_
  replace hp := hp.snoc (e := ⟨i, .gitStatus .agent, some false⟩) rfl
  refine obeys_check (.within (fun _ hw => hw) (hagent hp) (hagent hp))
    (fun _ _ => hsettled (hp.snoc rfl)) fun switched _ => ?_
  replace hp := hp.snoc (e := ⟨i, .gitSwitch, switched⟩) rfl
  refine obeys_act (.within (fun _ hw => hw) (hagent hp) trivial) fun reply => ?_
  replace hp := hp.snoc (e := ⟨i, .revParseHead .agent, reply⟩) rfl
  refine obeys_orFail (hsettled hp) fun base _ => ?_
  refine ((validateDependencies_obeys (hagent hp)).mono (fun _ _ hq => hq)
    fun _ _ hq => hsettled (hp.trans hq)).bind ?_
  intro _ h' hp'
  replace hp := hp.trans hp'
  refine (taskRecords_obeys.mono (fun _ _ hq => hq) fun _ _ hno => hno.elim).bind ?_
  rintro records h'' ⟨scan, rfl, hplain, hscan⟩
  have hp'' := hp.trans ⟨scan, rfl, hplain⟩
  refine (startGates_obeys fun _ => hsettled hp'').bind ?_
  rintro - h'' ⟨rfl, hactive, hpending⟩
  -- the history since the lock was taken is `first ++ scan`
  obtain ⟨first, rfl, hfirst⟩ := hp
  have hkept : ∀ e ∈ first ++ scan, e.action.releases = none := by
    intro e he
    rcases List.mem_append.mp he with hmem | hmem
    · exact (Action.internal_of_plain (hfirst e hmem)).2
    · exact (Action.internal_of_plain (hplain e hmem)).2
  have hlocks : ∀ lock ∈ [integrationLock], (lock, false) ∈ fileLocks.held h := by
    simpa using hheld
  cases parallel with
  | false =>
    refine startWrite_obeys h (first ++ scan) (hp''.unwritten hunwritten)
      (hp''.mem habsent) ⟨by simp, hlocks, hkept⟩ hscan.prepend hactive ?_
    exact hpending rfl
  | true =>
    show Obeys _ _ _ _ _ (createParallelWorktree task >>= _)
    refine obeys_act (.free (fun _ => id) trivial) fun found => ?_
    replace hp'' := hp''.snoc (e := ⟨i, .workspaceExists (.worktree task), found⟩) rfl
    match found with
    | true => exact hsettled hp''
    | false =>
      refine obeys_check (.within (w := .agent) (fun _ hw => hw) (hagent hp'') ⟨rfl,
        hp''.unwritten hunwritten, hagent hp'', dependencies, rfl⟩) ?_ ?_
      · intro (addition : Addition) hrefused
        refine ((hp''.unadded hunadded).snoc fun thread branch other heq => ?_).settled
        have hadded : addition = .added := by
          cases heq
          rfl
        rw [hadded] at hrefused
        cases hrefused
      · intro (addition : Addition) hadded
        obtain rfl := Addition.succeeded_iff.mp hadded
        refine startWrite_obeys h (first ++ scan ++
          [⟨i, .workspaceExists (.worktree task), false⟩,
            ⟨i, .worktreeAdd (taskBranch task) task, Addition.added⟩]) ?_ ?_ ⟨by simp, hlocks, ?_⟩ ?_
            hactive ?_
        · exact (hp''.unwritten hunwritten).snoc (by simp)
        · exact List.mem_append_left _ (hp''.mem habsent)
        · intro e he
          rcases List.mem_append.mp he with hmem | hmem
          · exact hkept e hmem
          · rcases List.mem_cons.mp hmem with rfl | hmem
            · rfl
            · obtain rfl := List.mem_singleton.mp hmem
              rfl
        · exact hscan.prepend.append
        · simp

/-- A start that has written is settled, whether the write has succeeded or not. -/
theorem taskStart_obeys {parallel : Bool} {dependencies : List Name} (hunwritten : Unwritten h)
    (hunadded : Unadded h) :
    Obeys i (Allowed i project (.taskStart task parallel dependencies))
      (fun result h' => ⟨i, .writeRecord task result, true⟩ ∈ h') (fun _ _ => True) h
      (taskStart project task parallel dependencies) := by
  have hp := Plainly.refl h
  refine obeys_require trivial fun _ => obeys_require trivial fun _ => ?_
  refine obeys_check (.free (fun _ => id) trivial) (fun _ _ => trivial) fun paths _ => ?_
  replace hp := hp.snoc (e := ⟨i, .probe .projectPaths, paths⟩) rfl
  refine obeys_check (.free (fun _ => id) trivial) (fun _ _ => trivial) fun repo _ => ?_
  replace hp := hp.snoc (e := ⟨i, .probe .agentIsGitRepo, repo⟩) rfl
  refine obeys_act (.free (fun _ => id) trivial) fun found => ?_
  replace hp := hp.snoc (e := ⟨i, .recordExists task, found⟩) rfl
  match found with
  | true => exact trivial
  | false =>
    have hrelease : ∀ {h}, Settled h →
        Allowed i project (.taskStart task parallel dependencies) h (.release integrationLock) :=
      fun hsettled => .free (fun _ => id) ⟨fun _ _ _ => hsettled, fun _ _ heq => nomatch heq⟩
    refine obeys_lockOne (.free (fun _ => id) fun hshared => nomatch hshared)
      (startTaskLocked_obeys ?_ ?_ ?_ ?_) ?_ ?_
    · exact (hp.unwritten hunwritten).snoc (by simp)
    · exact (hp.unadded hunadded).snoc (by simp)
    · simp
    · rw [held_acquire]
      exact List.mem_cons_self
    · intro result h' hwritten
      exact ⟨hrelease fun _ _ _ _ => ⟨_, hwritten, task, result, rfl⟩,
        List.mem_append_left _ hwritten⟩
    · exact fun _ _ hsettled => ⟨hrelease hsettled, trivial⟩

/-! ## Handing over -/

theorem synchronizeAgentRepository_obeys {bundle : Name} {records : List TaskRecord}
    (hheld : (integrationLock, false) ∈ fileLocks.held h) (hscan : Scanned i h records)
    (hactive : (activeSequential records).isEmpty = true)
    (hpending : (pendingParallel records).isEmpty = true) :
    Obeys i (Allowed i project (.projectSync bundle)) (fun _ _ => True) (fun _ _ => True) h
      (synchronizeAgentRepository bundle) := by
  have hagent : ∀ {h'}, Plainly h h' → (lockOf .agent, false) ∈ fileLocks.held h' := by
    intro h' hp
    rw [hp.held]
    exact hheld
  have hp := Plainly.refl h
  refine obeys_ensureClean (.within (fun _ hw => hw) (hagent hp) trivial) (fun _ _ => trivial) ?_
  replace hp := hp.snoc (e := ⟨i, .gitStatus .agent, some false⟩) rfl
  refine obeys_check (.within (fun _ hw => hw) (hagent hp) trivial) (fun _ _ => trivial)
    fun verified _ => ?_
  replace hp := hp.snoc (e := ⟨i, .bundleVerify bundle, verified⟩) rfl
  refine obeys_check (.within (fun _ hw => hw) (hagent hp) trivial) (fun _ _ => trivial)
    fun fetched _ => ?_
  replace hp := hp.snoc (e := ⟨i, .gitFetch bundle, fetched⟩) rfl
  refine obeys_check (.within (fun _ hw => hw) (hagent hp) (hagent hp)) (fun _ _ => trivial)
    fun switched _ => ?_
  replace hp := hp.snoc (e := ⟨i, .gitSwitch, switched⟩) rfl
  refine obeys_act (.within (fun _ hw => hw) (hagent hp) trivial) fun own => ?_
  replace hp := hp.snoc (e := ⟨i, .revParse integrationBranch, own⟩) rfl
  refine obeys_orFail trivial fun integration _ => ?_
  refine obeys_act (.within (fun _ hw => hw) (hagent hp) trivial) fun inbound => ?_
  replace hp := hp.snoc (e := ⟨i, .revParseInbound, inbound⟩) rfl
  refine obeys_orFail trivial fun human _ => ?_
  -- whatever `integrateHuman` has done, reading the head and removing the bundle remain
  have hrest : ∀ (action : SyncAction) h', Plainly h h' →
      Obeys i (Allowed i project (.projectSync bundle)) (fun _ _ => True) (fun _ _ => True) h' (do
        let head ← orFail (← act (.revParseHead .agent)) (.internal "git rev-parse")
        check (.unlinkBundle bundle) id (.internal "unlink bundle")
        pure (action, head)) := by
    intro action h' hp
    refine obeys_act (.within (fun _ hw => hw) (hagent hp) trivial) fun head => ?_
    refine obeys_orFail trivial fun _ _ => ?_
    exact obeys_check (.free (fun _ => id) trivial) (fun _ _ => trivial) fun _ _ => trivial
  refine Obeys.bind (Q := fun _ h' => Plainly h h') ?_ fun action h' hp => hrest action h' hp
  unfold integrateHuman
  split
  · exact hp
  · refine obeys_act (.within (fun _ hw => hw) (hagent hp) trivial) fun behind => ?_
    obtain ⟨new, hnew, hplain⟩ := hp
    replace hp := Plainly.snoc ⟨new, hnew, hplain⟩
      (e := ⟨i, .isAncestor integration human, behind⟩) rfl
    match behind with
    | true =>
      refine obeys_check (.within (fun _ hw => hw) (hagent hp) ⟨hagent hp, bundle, records, rfl, ?_,
        hactive, hpending⟩) (fun _ _ => trivial) fun forwarded _ => hp.snoc rfl
      rw [hnew, List.append_assoc]
      exact hscan.append
    | false =>
      refine obeys_act (.within (fun _ hw => hw) (hagent hp) trivial) fun ahead => ?_
      match ahead with
      | true => exact hp.snoc rfl
      | false => exact trivial

theorem synchronizeAgentProject_obeys {bundle : Name} {records : List TaskRecord}
    (hheld : (integrationLock, false) ∈ fileLocks.held h) (hscan : Scanned i h records)
    (hactive : (activeSequential records).isEmpty = true)
    (hpending : (pendingParallel records).isEmpty = true) :
    Obeys i (Allowed i project (.projectSync bundle)) (fun _ _ => True) (fun _ _ => True) h
      (synchronizeAgentProject bundle) := by
  have hp := Plainly.refl h
  refine obeys_check (.free (fun _ => id) trivial) (fun _ _ => trivial) fun paths _ => ?_
  replace hp := hp.snoc (e := ⟨i, .probe .projectPaths, paths⟩) rfl
  refine obeys_check (.free (fun _ => id) trivial) (fun _ _ => trivial) fun repo _ => ?_
  replace hp := hp.snoc (e := ⟨i, .probe .agentIsGitRepo, repo⟩) rfl
  refine obeys_check (.free (fun _ => id) trivial) (fun _ _ => trivial) fun projectMeta _ => ?_
  replace hp := hp.snoc (e := ⟨i, .probe .projectMeta, projectMeta⟩) rfl
  refine obeys_check (.free (fun _ => id) trivial) (fun _ _ => trivial) fun file _ => ?_
  replace hp := hp.snoc (e := ⟨i, .bundleIsFile bundle, file⟩) rfl
  have hheld' := hp.held ▸ hheld
  obtain ⟨new, hnew, -⟩ := hp
  refine synchronizeAgentRepository_obeys hheld' ?_ hactive hpending
  rw [hnew]
  exact hscan.append

theorem projectSync_obeys {bundle : Name} :
    Obeys i (Allowed i project (.projectSync bundle)) (fun _ _ => True) (fun _ _ => True) h
      (projectSync bundle) := by
  refine obeys_check (.free (fun _ => id) trivial) (fun _ _ => trivial) fun _ _ => ?_
  refine obeys_check (.free (fun _ => id) trivial) (fun _ _ => trivial) fun _ _ => ?_
  refine (taskRecords_obeys.mono (fun _ _ hq => hq) fun _ _ _ => trivial).bind ?_
  rintro records h' ⟨scan, rfl, -, hscan⟩
  refine obeys_require trivial fun hok => ?_
  obtain ⟨hactive, hpending⟩ := Bool.and_eq_true_iff.mp hok
  refine obeys_lockOne (.free (fun _ => id) fun hshared => nomatch hshared)
    (synchronizeAgentProject_obeys ?_ hscan.prepend.append hactive hpending)
    (fun _ _ _ => ⟨.release (by simp) (by simp), trivial⟩)
    fun _ _ _ => ⟨.release (by simp) (by simp), trivial⟩
  rw [held_acquire]
  exact List.mem_cons_self

theorem exportAgentProject_obeys {s : Bool}
    (hheld : (integrationLock, s) ∈ fileLocks.held h) :
    Obeys i (Allowed i project request) (fun _ _ => True) (fun _ _ => True) h
      exportAgentProject := by
  have hp := Plainly.refl h
  have hagent : ∀ {h'}, Plainly h h' → (lockOf .agent, s) ∈ fileLocks.held h' := by
    intro h' hp
    rw [hp.held]
    exact hheld
  refine obeys_check (.free (fun _ => id) trivial) (fun _ _ => trivial) fun paths _ => ?_
  replace hp := hp.snoc (e := ⟨i, .probe .projectPaths, paths⟩) rfl
  refine obeys_check (.free (fun _ => id) trivial) (fun _ _ => trivial) fun repo _ => ?_
  replace hp := hp.snoc (e := ⟨i, .probe .agentIsGitRepo, repo⟩) rfl
  refine obeys_ensureClean (.within (fun _ hw => hw) (hagent hp) trivial) (fun _ _ => trivial) ?_
  replace hp := hp.snoc (e := ⟨i, .gitStatus .agent, some false⟩) rfl
  refine obeys_act (.within (fun _ hw => hw) (hagent hp) trivial) fun head => ?_
  refine obeys_orFail trivial fun _ _ => ?_
  exact obeys_check (.free (fun _ => id) trivial) (fun _ _ => trivial) fun _ _ => trivial

theorem projectExport_obeys :
    Obeys i (Allowed i project .projectExport) (fun _ _ => True) (fun _ _ => True) h
      projectExport := by
  refine obeys_check (.free (fun _ => id) trivial) (fun _ _ => trivial) fun _ _ => ?_
  refine obeys_check (.free (fun _ => id) trivial) (fun _ _ => trivial) fun _ _ => ?_
  have hlocked : ∀ h, Obeys i (Allowed i project .projectExport) (fun _ _ => True)
      (fun _ _ => True) h (lockOne integrationLock true exportAgentProject) := by
    intro h
    refine obeys_lockOne (.free (fun _ => id) fun _ => Or.inr (Or.inl rfl))
      (exportAgentProject_obeys (s := true) ?_)
      (fun _ _ _ => ⟨.release (by simp) (by simp), trivial⟩)
      fun _ _ _ => ⟨.release (by simp) (by simp), trivial⟩
    rw [held_acquire]
    exact List.mem_cons_self
  refine (hlocked _).bind fun _ _ _ => ?_
  exact obeys_check (.free (fun _ => id) trivial) (fun _ _ => trivial) fun _ _ => trivial

theorem projectStatus_obeys :
    Obeys i (Allowed i project .projectStatus) (fun _ _ => True) (fun _ _ => True) h
      projectStatus := by
  refine obeys_check (.free (fun _ => id) trivial) (fun _ _ => trivial) fun paths _ => ?_
  refine obeys_lockOne (Q := fun _ _ => True) (E := fun _ _ => True)
    (.free (fun _ => id) fun _ => Or.inl rfl) ?_
    (fun _ _ _ => ⟨.release (by simp) (by simp), trivial⟩)
    fun _ _ _ => ⟨.release (by simp) (by simp), trivial⟩
  have hheld : (lockOf .agent, true) ∈ fileLocks.held
      (h ++ [⟨i, .probe .projectPaths, paths⟩] ++ [⟨i, .acquire integrationLock true, ()⟩]) := by
    rw [held_acquire]
    exact List.mem_cons_self
  have hp := Plainly.refl
    (h ++ [⟨i, .probe .projectPaths, paths⟩] ++ [⟨i, .acquire integrationLock true, ()⟩])
  refine Obeys.bind (Q := fun _ _ => True) ?_ fun _ _ _ => ?_
  · refine obeys_check (.free (fun _ => id) trivial) (fun _ _ => trivial) fun repo _ => ?_
    replace hp := hp.snoc (e := ⟨i, .probe .agentIsGitRepo, repo⟩) rfl
    refine obeys_act (.within (fun _ hw => hw) (hp.held ▸ hheld) trivial) fun branch => ?_
    replace hp := hp.snoc (e := ⟨i, .currentBranch .agent, branch⟩) rfl
    refine obeys_orFail trivial fun _ _ => ?_
    refine obeys_act (.within (fun _ hw => hw) (hp.held ▸ hheld) trivial) fun head => ?_
    replace hp := hp.snoc (e := ⟨i, .revParseHead .agent, head⟩) rfl
    refine obeys_orFail trivial fun _ _ => ?_
    refine obeys_act (.within (fun _ hw => hw) (hp.held ▸ hheld) trivial) fun dirty => ?_
    exact obeys_orFail trivial fun _ _ => trivial
  · exact (taskRecords_obeys.mono (fun _ _ hq => hq) fun _ _ _ => trivial).bind fun _ _ _ => trivial

/-! ## Executing -/

theorem stream_obeys {workspace : Workspace} {readonly : Bool}
    (hheld : (lockOf workspace, readonly) ∈ fileLocks.held h) (n : Nat) :
    Obeys i (Allowed i project request) (fun _ h' => Plainly h h') (fun _ h' => Plainly h h') h
      (stream workspace readonly n) := by
  induction n generalizing h with
  | zero => exact Plainly.refl h
  | succ n ih =>
    have hp := Plainly.refl h
    refine obeys_act (.within (fun _ hw => hw) hheld hheld) fun _ => ?_
    replace hp := hp.snoc (e := ⟨i, .providerWork workspace readonly, ()⟩) rfl
    refine obeys_check (.free (fun _ => id) trivial) (fun _ _ => hp.snoc rfl) fun sent _ => ?_
    replace hp := hp.snoc (e := ⟨i, .send, sent⟩) rfl
    exact (ih (hp.held ▸ hheld)).mono (fun _ _ => hp.trans) fun _ _ => hp.trans

theorem resolveMounts_obeys {workspace : Workspace} :
    Obeys i (Allowed i project request) (fun _ h' => Plainly h h') (fun _ _ => True) h
      (resolveMounts task workspace) := by
  have hp := Plainly.refl h
  refine obeys_check (.free (fun _ => id) trivial) (fun _ _ => trivial) fun found _ => ?_
  replace hp := hp.snoc (e := ⟨i, .workspaceExists workspace, found⟩) rfl
  refine ⟨.free (fun _ => id) trivial, fun found => ?_⟩
  match found with
  | true => exact hp.snoc rfl
  | false => exact trivial

theorem notStarted_obeys :
    Obeys i (Allowed i project request) (fun _ h' => Plainly h h') (fun _ h' => Plainly h h') h
      notStarted :=
  obeys_check (.free (fun _ => id) trivial) (fun _ _ => (Plainly.refl h).snoc rfl)
    fun _ _ => (Plainly.refl h).snoc rfl

/-- An interactive execution has no container any more when it ends, however it ends. -/
theorem runInteractive_obeys {workspace : Workspace} {readonly : Bool}
    (hheld : (lockOf workspace, readonly) ∈ fileLocks.held h) (hnone : started i h = [])
    (hstart : ExecutionStart i task workspace h readonly request) :
    Obeys i (Allowed i project request) (fun _ h' => started i h' = [])
      (fun _ h' => started i h' = []) h (runInteractive task workspace readonly) := by
  refine obeys_act (.within (fun _ hw => hw) hheld hstart) fun ok => ?_
  match ok with
  | false =>
    refine notStarted_obeys.mono ?_ ?_ <;>
    · intro _ h' hp
      rw [hp.started_eq, started_snoc]
      exact hnone
  | true =>
    have hrunning : started i (h ++ [⟨i, .startContainer task workspace readonly, true⟩]) =
        [⟨i, task, workspace, readonly⟩] := by
      rw [started_snoc, hnone]
      rfl
    have hheld' : (lockOf workspace, readonly) ∈
        fileLocks.held (h ++ [⟨i, .startContainer task workspace readonly, true⟩]) := by
      rw [Locking.held_snoc]
      exact hheld
    refine Obeys.ensuring
      (Q := fun _ h' => started i h' = [⟨i, task, workspace, readonly⟩])
      (E := fun _ h' => started i h' = [⟨i, task, workspace, readonly⟩]) ?_ ?_ ?_
    · refine obeys_act (.free (fun _ => id) trivial) fun n => ?_
      have hp := (Plainly.refl (h ++ [⟨i, .startContainer task workspace readonly, true⟩])).snoc
        (e := ⟨i, .choose, n⟩) rfl
      refine ((stream_obeys (hp.held ▸ hheld') n).mono (fun _ _ hq => hq) ?_).bind ?_
      · intro _ h' hq
        rw [hq.started_eq, hp.started_eq]
        exact hrunning
      · intro _ h' hq
        refine ⟨.free (fun _ => id) trivial, fun code => ?_⟩
        show started i _ = _
        rw [started_snoc, hq.started_eq, hp.started_eq]
        exact hrunning
    · intro _ h' hq
      refine ⟨.free (fun _ => id) trivial, fun _ => ?_⟩
      show started i _ = []
      rw [started_snoc, hq]
      simp [Action.running]
    · intro _ h' hq
      refine ⟨.free (fun _ => id) trivial, fun _ => ?_⟩
      show started i _ = []
      rw [started_snoc, hq]
      simp [Action.running]

theorem run_obeys {readonly : Bool} (hnone : started i h = []) :
    Obeys i (Allowed i project (.run task readonly)) (fun _ _ => True) (fun _ _ => True) h
      (run project task readonly) := by
  refine loadTask_obeys.bind ?_
  rintro ⟨record, workspace⟩ h' ⟨hp, hloaded : Loaded i task record workspace h'⟩
  refine obeys_require trivial fun hok => ?_
  refine obeys_check (.free (fun _ => id) trivial) (fun _ _ => trivial) fun seeded _ => ?_
  replace hloaded := hloaded.plainly ((Plainly.refl h').snoc
    (e := ⟨i, .probe .providerHome, seeded⟩) rfl)
  replace hp := hp.snoc (e := ⟨i, .probe .providerHome, seeded⟩) rfl
  refine resolveMounts_obeys.bind fun _ h'' hp' => ?_
  replace hloaded := hloaded.plainly hp'
  replace hp := hp.trans hp'
  refine obeys_check (.free (fun _ => id) trivial) (fun _ _ => trivial) fun planned _ => ?_
  replace hloaded := hloaded.plainly ((Plainly.refl h'').snoc
    (e := ⟨i, .probe .runPlan, planned⟩) rfl)
  replace hp := hp.snoc (e := ⟨i, .probe .runPlan, planned⟩) rfl
  have hrelease : ∀ {h}, started i h = [] →
      Allowed i project (.run task readonly) h (.release (runLockName task record)) :=
    fun hnone => .free (fun _ => id) ⟨fun _ _ heq => (nomatch heq), fun _ _ _ => hnone⟩
  refine obeys_lockOne (Q := fun _ h => started i h = []) (E := fun _ h => started i h = [])
    (.free (fun _ => id) fun hshared => ?_) ?_ (fun _ _ hq => ⟨hrelease hq, trivial⟩)
    fun _ _ hq => ⟨hrelease hq, trivial⟩
  · exact Or.inr (Or.inr ⟨task, by rw [hshared]⟩)
  -- the locked body
  have hnone' : started i (h'' ++ [⟨i, .probe .runPlan, planned⟩] ++
      [⟨i, .acquire (runLockName task record) readonly, ()⟩]) = [] := by
    rw [started_snoc, hp.started_eq, hnone]
    rfl
  have hheld : (lockOf workspace, readonly) ∈ fileLocks.held (h'' ++
      [⟨i, .probe .runPlan, planned⟩] ++
      [⟨i, .acquire (runLockName task record) readonly, ()⟩]) := by
    rw [hloaded.selected, lockOf_workspaceOf, held_acquire]
    exact List.mem_cons_self
  have hp'' := Plainly.refl (h'' ++ [⟨i, .probe .runPlan, planned⟩] ++
      [⟨i, .acquire (runLockName task record) readonly, ()⟩])
  refine obeys_check (.free (fun _ => id) trivial) ?_ fun sent _ => ?_
  · intro reply _
    rw [(hp''.snoc (e := ⟨i, .send, reply⟩) rfl).started_eq]
    exact hnone'
  · replace hp'' := hp''.snoc (e := ⟨i, .send, sent⟩) rfl
    have hstart : ExecutionStart i task workspace (h'' ++ [⟨i, .probe .runPlan, planned⟩] ++
        [⟨i, .acquire (runLockName task record) readonly, ()⟩] ++ [⟨i, .send, sent⟩]) readonly
        (.run task readonly) := by
      refine .run readonly record (hp''.mem (List.mem_append_left _ hloaded.read))
        hloaded.selected ?_ (hp''.held ▸ hheld)
      intro hwrite
      simpa [hwrite] using hok
    refine (runInteractive_obeys (hp''.held ▸ hheld) (hp''.started_eq.trans hnone') hstart).bind ?_
    intro code h₁ hq
    refine obeys_act (.free (fun _ => id) trivial) fun sent => ?_
    have hq' : started i (h₁ ++ [⟨i, .send, sent⟩]) = [] := by
      rw [started_snoc, hq]
      rfl
    exact obeys_require hq' fun _ => hq'

theorem index_obeys :
    Obeys i (Allowed i project (.index task)) (fun _ _ => True) (fun _ _ => True) h
      (index project task) := by
  refine loadTask_obeys.bind ?_
  rintro ⟨record, workspace⟩ h' ⟨-, hloaded : Loaded i task record workspace h'⟩
  refine obeys_require trivial fun hok => ?_
  refine obeys_check (.free (fun _ => id) trivial) (fun _ _ => trivial) fun _ _ => ?_
  refine obeys_check (.free (fun _ => id) trivial) (fun _ _ => trivial) fun _ _ => ?_
  refine resolveMounts_obeys.bind fun _ h'' _ => ?_
  have hlock : lockOf workspace = taskLockName task record := by
    rw [hloaded.selected, lockOf_workspaceOf, taskLockName_eq_runLockName]
    intro hmerged
    simp [hmerged] at hok
  have hheld : (lockOf workspace, false) ∈ fileLocks.held
      (h'' ++ [⟨i, .acquire (taskLockName task record) false, ()⟩]) := by
    rw [hlock, held_acquire]
    exact List.mem_cons_self
  refine obeys_lockOne (Q := fun _ _ => True) (E := fun _ _ => True)
    (.free (fun _ => id) fun hshared => nomatch hshared) ?_
    (fun _ _ _ => ⟨.release (by simp) (by simp), trivial⟩)
    fun _ _ _ => ⟨.release (by simp) (by simp), trivial⟩
  refine obeys_act (.within (fun _ hw => hw) hheld (.index hheld)) fun ok => ?_
  match ok with
  | false => exact notStarted_obeys.mono (fun _ _ _ => trivial) fun _ _ _ => trivial
  | true =>
    refine obeys_act (.free (fun _ => id) trivial) fun n => ?_
    refine ((stream_obeys ?_ n).mono (fun _ _ hq => hq) fun _ _ _ => trivial).bind ?_
    · rw [Locking.held_snoc, Locking.held_snoc]
      exact hheld
    · intro _ h₁ _
      refine obeys_act (.free (fun _ => id) trivial) fun _ => ?_
      exact ⟨.free (fun _ => id) trivial, fun _ => trivial⟩

/-! ## All requests -/

/-- Before it starts, a request has done nothing. -/
theorem request_obeys (request : Request) :
    Obeys i (Allowed i project request) (Answered i request) (fun _ _ => True) []
      (request.program project) := by
  have hunwritten : Unwritten [] := by
    intro e he
    cases he
  have hunadded : Unadded [] := by
    intro i branch task hmem
    cases hmem
  cases request with
  | taskStart task parallel dependencies =>
    refine (taskStart_obeys hunwritten hunadded).bind fun result h hwritten record heq => ?_
    cases heq
    exact ⟨task, hwritten, Or.inr (Or.inr (Or.inr ⟨parallel, dependencies, rfl⟩))⟩
  | taskComplete task =>
    refine (taskComplete_obeys hunwritten).bind fun result h hwritten record heq => ?_
    cases heq
    exact ⟨task, hwritten, Or.inl rfl⟩
  | taskMerge task =>
    refine (taskMerge_obeys hunwritten).bind fun result h hwritten record heq => ?_
    cases heq
    exact ⟨task, hwritten, Or.inr (Or.inl rfl)⟩
  | taskAbort task =>
    refine (taskAbort_obeys hunwritten).bind fun result h hwritten record heq => ?_
    cases heq
    exact ⟨task, hwritten, Or.inr (Or.inr (Or.inl rfl))⟩
  | projectSync bundle =>
    exact projectSync_obeys.bind fun value h _ => fun record heq => nomatch heq
  | projectExport => exact projectExport_obeys.bind fun value h _ => fun record heq => nomatch heq
  | projectStatus => exact projectStatus_obeys.bind fun value h _ => fun record heq => nomatch heq
  | run task readonly =>
    exact (run_obeys rfl).bind fun value h _ => fun record heq => nomatch heq
  | index task => exact index_obeys.bind fun value h _ => fun record heq => nomatch heq

end Requests

/-- A pool of any requests keeps the rules. -/
theorem pool_obeyed (project : Name) (requests : Nat → Request) (world : World) :
    (rules project requests).Obeyed (pool project requests world) :=
  fun i => request_obeys (requests i)

end AgentDev
