import AgentDev.Core.Runs

/-!
# Completing tasks

`task-complete` validates a record that it has read before it takes its lock, and writes its own
copy under the lock. Two completions that have both read the record as active both succeed,
and the later one replaces the recorded head (`completed_twice`). A completion that no other
one writes in between is the only one, and its head stays (`completed_once_iff`).
-/

namespace AgentDev

open Interleaving

section

variable {project : Name} {requests : Nat → Request} {world : World}
  {guard : Guard Action.Reply World Choice} {c c' c₁ c₂ : Pool} {e : Event Action.Reply}
  {task : Name}

/-- Requests that neither start nor merge nor abort `task`: they may complete it, run providers in
its workspace, and do anything with other tasks. -/
structure OnlyCompletes (requests : Nat → Request) (task : Name) : Prop where
  start : ∀ i parallel dependencies, requests i ≠ .taskStart task parallel dependencies
  merge : ∀ i, requests i ≠ .taskMerge task
  abort : ∀ i, requests i ≠ .taskAbort task

/-- No other completion of the task writes between the read of a completion and its write. -/
def CompletionsApart (task : Name) (trace : List (Event Action.Reply)) : Prop :=
  ∀ before e after, trace = before ++ e :: after → (writes task e).isSome = true →
    ∀ e' ∈ since (reads e.thread task) before, writes task e' = none

/-- At most one completion has written the record and succeeded, and a completed record keeps its
head. -/
structure CompletedOnce (requests : Nat → Request) (task : Name) (c₀ c : Pool) : Prop where
  once : ∀ before e middle e' after, c.trace = before ++ e :: (middle ++ e' :: after) →
    (writes task e).isSome = true → writes task e' = none
  succeeded : ∀ i j record record', requests i = .taskComplete task →
    requests j = .taskComplete task → c.programs i = .ret (.record record) →
    c.programs j = .ret (.record record') → i = j
  kept : ∀ c₁ old new, machine.Reaches anyStep c₀ c₁ → machine.Reaches anyStep c₁ c →
    c₁.state.tasks.lookup task = some old → old.status = .completed →
    c.state.tasks.lookup task = some new → new.headCommit = old.headCommit

/-- Whoever writes the record has read it as active, and completes it. -/
theorem complete_write (hrequests : OnlyCompletes requests task)
    (hrun : machine.Reaches guard (pool project requests world) c)
    (hstep : machine.Step guard e c c') {record : TaskRecord}
    (hwrites : writes task e = some record) :
    Unwritten (own e.thread c.trace) ∧ record.status = .completed ∧
      ∃ old, ⟨e.thread, .readRecord task, some old⟩ ∈ own e.thread c.trace ∧
        old.status = .active := by
  obtain ⟨hunwritten, hwrite⟩ := step_write hrun hstep hwrites
  refine ⟨hunwritten, ?_⟩
  generalize hrequest : requests e.thread = request at hwrite
  cases hwrite with
  | start parallel dependencies => exact absurd hrequest (hrequests.start _ _ _)
  | merge => exact absurd hrequest (hrequests.merge _)
  | abort => exact absurd hrequest (hrequests.abort _)
  | complete old hwrite =>
    obtain ⟨h₁, h₂, head, now, -, -, -, rfl⟩ := hwrite.locked
    exact ⟨rfl, old, hwrite.read, hwrite.active⟩

/-- A completion that no other write comes between finds the record active, as it has read it. -/
theorem complete_finds_active (hrequests : OnlyCompletes requests task)
    (hrun : machine.Reaches guard (pool project requests world) c)
    (hstep : machine.Step guard e c c') {record : TaskRecord}
    (hwrites : writes task e = some record)
    (hapart : ∀ e' ∈ since (reads e.thread task) c.trace, writes task e' = none) :
    ∃ old, c.state.tasks.lookup task = some old ∧ old.status = .active := by
  obtain ⟨-, -, old, hread, hactive⟩ := complete_write hrequests hrun hstep hwrites
  exact ⟨old, lookup_of_read hrun hread hapart, hactive⟩

/-- A write when the record is not active is too late. -/
theorem late_not_written (hrequests : OnlyCompletes requests task)
    (hapart : CompletionsApart task c.trace)
    (hrun₁ : machine.Reaches guard (pool project requests world) c₁)
    (hstep : machine.Step guard e c₁ c₂) (hrest : machine.Reaches guard c₂ c)
    (hstatus : ∀ r, c₁.state.tasks.lookup task = some r → r.status ≠ .active) :
    writes task e = none := by
  by_contra htrue
  obtain ⟨record, hwrites⟩ := Option.ne_none_iff_exists'.mp htrue
  obtain ⟨after, htrace, -⟩ := hstep.trace_split hrest
  obtain ⟨old, hlookup, hactive⟩ := complete_finds_active hrequests hrun₁ hstep hwrites
    (hapart _ _ _ htrace (by simp [hwrites]))
  exact hstatus old hlookup hactive

theorem written_once (hrequests : OnlyCompletes requests task)
    (hrun : machine.Reaches guard (pool project requests world) c)
    (hapart : CompletionsApart task c.trace) {before middle after : History}
    {e' : Event Action.Reply} (htrace : c.trace = before ++ e :: (middle ++ e' :: after))
    (hwrites : (writes task e).isSome = true) : writes task e' = none := by
  obtain ⟨record, hrecord⟩ := Option.isSome_iff_exists.mp hwrites
  obtain ⟨d₁, d₂, c₁, c₂, hrund, hstepd, hrestd, -, hstep, hrest⟩ := hrun.at_events rfl htrace
  have hrun₁ := (hrund.step hstepd).trans hrestd
  exact late_not_written hrequests hapart hrun₁ hstep hrest
    (not_active_of_write hrequests.start hrund hstepd hrecord hrestd)

/-- A record that is not active is not written any more. -/
theorem finished_unchanged (hrequests : OnlyCompletes requests task)
    (hapart : CompletionsApart task c.trace)
    (hrun₁ : machine.Reaches guard (pool project requests world) c₁)
    (hrest : machine.Reaches guard c₁ c)
    (hstatus : ∀ r, c₁.state.tasks.lookup task = some r → r.status ≠ .active) :
    c.state.tasks.lookup task = c₁.state.tasks.lookup task := by
  obtain ⟨events, hevents⟩ := hrest.trace_prefix
  refine lookup_eq_of_not_written hrest hevents fun e he => ?_
  obtain ⟨before, after, hsplit⟩ := List.append_of_mem he
  have htrace : c.trace = c₁.trace ++ before ++ e :: after := by
    rw [hevents, hsplit, List.append_assoc]
  obtain ⟨d₁, d₂, hrund, -, hstep, hrest', -⟩ := hrest.split htrace
  exact late_not_written hrequests hapart (hrun₁.trans hrund) hstep hrest'
    (not_active_mono hrequests.start hrun₁ hrund hstatus)

/-- Exactly when the completions of a task are apart, at most one of them succeeds and the head
that it records stays. -/
theorem completed_once_iff (hrequests : OnlyCompletes requests task)
    (hrun : machine.Reaches anyStep (pool project requests world) c) :
    CompletedOnce requests task (pool project requests world) c ↔ CompletionsApart task c.trace := by
  constructor
  · intro honce before e after htrace hwrites e' he'
    obtain ⟨first, middle, hsplit⟩ := split_of_mem_since_before htrace he'
    by_contra htrue
    have hno := honce.once _ _ _ _ _ hsplit (Option.isSome_iff_ne_none.mpr htrue)
    rw [hno] at hwrites
    cases hwrites
  · intro hapart
    refine ⟨fun _ _ _ _ _ => written_once hrequests hrun hapart, ?_, ?_⟩
    · intro i j record record' hi hj hreti hretj
      by_contra hne
      have hwi := written_of_ret hrun (Or.inl hi) hreti
      have hwj := written_of_ret hrun (Or.inl hj) hretj
      have hdiffer : (⟨i, .writeRecord task record, true⟩ : Event Action.Reply) ≠
          ⟨j, .writeRecord task record', true⟩ := fun heq => hne (congrArg Event.thread heq)
      obtain ⟨before, middle, after, hsplit | hsplit⟩ := ordered_of_mem hwi hwj hdiffer
      · have hno := written_once hrequests hrun hapart hsplit (by simp [writes])
        simp [writes] at hno
      · have hno := written_once hrequests hrun hapart hsplit (by simp [writes])
        simp [writes] at hno
    · intro c₁ old new hrun₁ hrest hold hcompleted hnew
      have hstatus : ∀ r, c₁.state.tasks.lookup task = some r → r.status ≠ .active := by
        intro r hr
        rw [hold] at hr
        cases hr
        rw [hcompleted]
        intro heq
        cases heq
      rw [finished_unchanged hrequests hapart hrun₁ hrest hstatus, hold] at hnew
      cases hnew
      rfl

end

/-- Requests 0 and 1 complete the task, 2 starts another one, and 3 runs a provider for that. -/
def exampleCompletions : Nat → Request
  | 0 | 1 => .taskComplete exampleTask
  | 2 => .taskStart otherTask false []
  | _ => .run otherTask false

/-- Both completions read the record as active. The completion 0 records the head 0; then another
task commits to the integration branch, and the completion 1 records that commit. -/
theorem completed_twice :
    ∃ (c : Pool) (record record' : TaskRecord),
      machine.Reaches anyStep (pool exampleProject exampleCompletions sequentialProject) c ∧
      c.programs 0 = .ret (.record record) ∧ c.programs 1 = .ret (.record record') ∧
      c.state.tasks.lookup exampleTask = some record' ∧
      record.headCommit = some 0 ∧ record'.headCommit = some 1 := by
  have hrun : ((machine.run (fun _ _ _ _ => true)
      (pool exampleProject exampleCompletions sequentialProject)
      (goes 1 3 ++ goes 0 7 ++ [(0, .clock 1)] ++ goes 0 2 ++ goes 2 9 ++ [(2, .clock 2)] ++
        goes 2 2 ++ goes 3 10 ++ [(3, .count 1), (3, .moves (.commit []))] ++ goes 3 1 ++
        [(3, .count 0)] ++ goes 3 3 ++ goes 1 4 ++ [(1, .clock 3)] ++ goes 1 2)).map fun c =>
          ((c.programs 0).value?.bind Outcome.record?, (c.programs 1).value?.bind Outcome.record?,
            c.state.tasks.lookup exampleTask)) =
      some (some ((startedRecord exampleProject exampleTask false 0 [] 0).complete 0 1),
        some ((startedRecord exampleProject exampleTask false 0 [] 0).complete 1 3),
        some ((startedRecord exampleProject exampleTask false 0 [] 0).complete 1 3)) := by
    decide +kernel
  obtain ⟨c, hreaches, hvalue⟩ := Machine.exists_of_run hrun
  simp only [Prod.mk.injEq] at hvalue
  exact ⟨c, _, _, hreaches, Outcome.record?_value hvalue.1, Outcome.record?_value hvalue.2.1,
    hvalue.2.2, rfl, rfl⟩

theorem exampleCompletions_only : OnlyCompletes exampleCompletions exampleTask := by
  constructor
  · intro i parallel dependencies
    unfold exampleCompletions
    split <;> simp [exampleTask, otherTask]
  · intro i
    unfold exampleCompletions
    split <;> simp
  · intro i
    unfold exampleCompletions
    split <;> simp

theorem completed_once_iff_example :
    ∃ c, machine.Reaches anyStep (pool exampleProject exampleCompletions sequentialProject) c ∧
      (c.state.tasks.lookup exampleTask).map (·.status) = some .completed ∧
      (CompletedOnce exampleCompletions exampleTask
          (pool exampleProject exampleCompletions sequentialProject) c ↔
        CompletionsApart exampleTask c.trace) := by
  have hrun : ((machine.run (fun _ _ _ _ => true)
      (pool exampleProject exampleCompletions sequentialProject)
      (goes 0 7 ++ [(0, .clock 1)] ++ goes 0 2)).map fun c =>
        (c.state.tasks.lookup exampleTask).map (·.status)) = some (some .completed) := by
    decide +kernel
  obtain ⟨c, hreaches, hstatus⟩ := Machine.exists_of_run hrun
  exact ⟨c, hreaches, hstatus, completed_once_iff exampleCompletions_only hreaches⟩

end AgentDev
