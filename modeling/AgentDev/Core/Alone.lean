import AgentDev.Core.Effects
import AgentDev.Core.Footprints
import AgentDev.Core.Ledger
import AgentDev.Interleaving.Sequential

/-!
# Requests that are served alone

The rules of `Spec` for the parts that requests are written with, and what the steps of the world
look like in the ledger: which change it, and what the replies tell of it.
-/

namespace AgentDev

open Interleaving

/-! ## Programs in general -/

section

variable {X α β : Type} {effect : Effects Action.Reply X} {allowed : X → Action → Prop}
  {post : β → X → Prop} {postE : Error → X → Prop} {x : X}

theorem spec_act {action : Action} {next : action.Reply → Op β} (hallowed : allowed x action)
    (hnext : ∀ reply x', effect x action reply x' →
      Spec effect allowed post postE x' (next reply)) :
    Spec effect allowed post postE x (act action >>= next) :=
  ⟨hallowed, hnext⟩

theorem spec_require {ok : Bool} {error : Error} {next : Unit → Op β} (herror : postE error x)
    (hnext : ok = true → Spec effect allowed post postE x (next ())) :
    Spec effect allowed post postE x (require ok error >>= next) := by
  unfold require
  split
  · rename_i hok
    exact hnext hok
  · exact herror

theorem spec_orFail {result : Option α} {error : Error} {next : α → Op β} (herror : postE error x)
    (hnext : ∀ value, result = some value → Spec effect allowed post postE x (next value)) :
    Spec effect allowed post postE x (orFail result error >>= next) := by
  cases result with
  | none => exact herror
  | some value => exact hnext value rfl

theorem spec_check {action : Action} {ok : action.Reply → Bool} {error : Error}
    {next : Unit → Op β} (hallowed : allowed x action)
    (herror : ∀ reply x', effect x action reply x' → ok reply = false → postE error x')
    (hnext : ∀ reply x', effect x action reply x' → ok reply = true →
      Spec effect allowed post postE x' (next ())) :
    Spec effect allowed post postE x (check action ok error >>= next) := by
  refine ⟨hallowed, fun reply x' heffect => ?_⟩
  show Spec effect allowed post postE x' (require (ok reply) error >>= next)
  unfold require
  cases hok : ok reply with
  | true => exact hnext reply x' heffect hok
  | false => exact herror reply x' heffect hok

theorem spec_lockOne {lock : Name} {readonly : Bool} {body : Op β} {Q : β → X → Prop}
    {E : Error → X → Prop} (hacquire : allowed x (.acquire lock readonly))
    (hbody : ∀ x', effect x (.acquire lock readonly) () x' → Spec effect allowed Q E x' body)
    (hret : ∀ value x, Q value x → allowed x (.release lock) ∧
      ∀ x', effect x (.release lock) () x' → post value x')
    (hfail : ∀ error x, E error x → allowed x (.release lock) ∧
      ∀ x', effect x (.release lock) () x' → postE error x') :
    Spec effect allowed post postE x (lockOne lock readonly body) := by
  refine ⟨hacquire, fun _ x' heffect => Spec.ensuring (hbody x' heffect) ?_ ?_⟩
  · intro value x hQ
    obtain ⟨hrelease, hend⟩ := hret value x hQ
    exact ⟨hrelease, fun _ x' heffect => hend x' heffect⟩
  · intro error x hE
    obtain ⟨hrelease, hend⟩ := hfail error x hE
    exact ⟨hrelease, fun _ x' heffect => hend x' heffect⟩

end

/-! ## The ledger of a world -/

def World.ledger (world : World) : Ledger where
  records := world.tasks.lookup
  worktrees := {task | world.hasWorktree task = true}
  branches := {branch | world.hasBranch branch = true}

/-- The ledger after a step. -/
def Ledger.after (L : Ledger) : (action : Action) → action.Reply → Ledger
  | .writeRecord task record, (true : Bool) => L.enter task record
  | .worktreeAdd branch task, Addition.added | .worktreeAdd branch task, Addition.bothLeft =>
    { L with worktrees := insert task L.worktrees, branches := insert branch L.branches }
  | .worktreeAdd branch _, Addition.branchLeft => { L with branches := insert branch L.branches }
  | .worktreeRemove (.worktree task) _, (true : Bool) =>
    { L with worktrees := L.worktrees \ {task} }
  | .branchDelete branch _, (true : Bool) => { L with branches := L.branches \ {branch} }
  | _, _ => L

/-- What the reply of a step tells of the ledger. -/
def Ledger.Tells (L : Ledger) : (action : Action) → action.Reply → Prop
  | .recordExists task, (found : Bool) => found = (L.records task).isSome
  | .readRecord task, reply => reply = L.records task
  | .listRecords, (names : List Name) => ∀ task, task ∈ names ↔ (L.records task).isSome = true
  | .workspaceExists (.worktree task), (found : Bool) => found = true ↔ task ∈ L.worktrees
  | .showRef branch, (found : Bool) => found = true ↔ branch ∈ L.branches
  | .worktreeAdd branch _, Addition.added => branch ∉ L.branches
  | _, _ => True

/-- `git show-ref` finds a branch that is there. -/
def truthful : Guard Action.Reply World Choice :=
  fun _ _ action choice => ∀ branch, action = .showRef branch → choice ≠ .fault

def ledgerEffect : Effects Action.Reply Ledger :=
  fun L action reply L' => L' = L.after action reply ∧ L.Tells action reply

section

variable {thread : Nat} {action : Action} {choice : Choice} {world world' : World}
  {reply : action.Reply}

theorem insert_lookup (tasks : TaskStore) (task : Name) (record : TaskRecord) :
    (tasks.insert task record).lookup = Function.update tasks.lookup task (some record) := by
  funext other
  by_cases hother : other = task
  · subst hother
    rw [Function.update_self, AList.lookup_insert]
  · rw [Function.update_of_ne hother, AList.lookup_insert_ne hother]

theorem exec_ledger (h : exec thread action choice world = some (reply, world')) :
    world'.ledger = world.ledger.after action reply := by
  have hledger : world'.ledger =
      ⟨(action.recorded world.tasks reply).lookup,
        {task | action.worktreeAfter task (world.hasWorktree task) reply = true},
        {branch | action.branchAfter branch (world.hasBranch branch) reply = true}⟩ := by
    simp only [World.ledger, exec_tasks h, exec_hasWorktree h, exec_hasBranch h]
  rw [hledger]
  cases action with
  | writeRecord task record =>
    cases (reply : Bool) with
    | false => rfl
    | true =>
      show Ledger.mk (world.tasks.insert task record).lookup _ _ = _
      rw [insert_lookup]
      rfl
  | worktreeAdd branch task =>
    cases (reply : Addition) with
    | refused => rfl
    | branchLeft =>
      refine Ledger.mk.injEq .. ▸ ⟨rfl, rfl, ?_⟩
      ext other
      show (world.hasBranch other || decide (branch = other)) = true ↔
        other = branch ∨ world.hasBranch other = true
      grind
    | added | bothLeft =>
      refine Ledger.mk.injEq .. ▸ ⟨rfl, ?_, ?_⟩
      · ext other
        show (world.hasWorktree other || decide (task = other)) = true ↔
          other = task ∨ world.hasWorktree other = true
        grind
      · ext other
        show (world.hasBranch other || decide (branch = other)) = true ↔
          other = branch ∨ world.hasBranch other = true
        grind
  | worktreeRemove workspace force =>
    cases workspace with
    | agent => rfl
    | worktree task =>
      cases (reply : Bool) with
      | false => rfl
      | true =>
        refine Ledger.mk.injEq .. ▸ ⟨rfl, ?_, rfl⟩
        ext other
        show (world.hasWorktree other && decide (task ≠ other)) = true ↔
          world.hasWorktree other = true ∧ other ≠ task
        grind
  | branchDelete branch force =>
    cases (reply : Bool) with
    | false => rfl
    | true =>
      refine Ledger.mk.injEq .. ▸ ⟨rfl, rfl, ?_⟩
      ext other
      show (world.hasBranch other && decide (branch ≠ other)) = true ↔
        world.hasBranch other = true ∧ other ≠ branch
      grind
  | _ => rfl

theorem exec_tells (hchoice : ∀ branch, action = .showRef branch → choice ≠ .fault)
    (h : exec thread action choice world = some (reply, world')) :
    world.ledger.Tells action reply := by
  cases action with
  | recordExists task => exact exec_recordExists h
  | readRecord task => exact exec_readRecord h
  | listRecords =>
    intro task
    rw [exec_listRecords h]
    exact TaskStore.mem_names
  | workspaceExists workspace =>
    cases workspace with
    | agent => trivial
    | worktree task =>
      rw [exec_workspaceExists h]
      exact Iff.rfl
  | showRef branch =>
    rw [exec_showRef (hchoice branch rfl) h]
    exact Iff.rfl
  | worktreeAdd branch task =>
    cases (reply : Addition) with
    | refused | branchLeft | bothLeft => trivial
    | added =>
      show ¬world.hasBranch branch = true
      rw [exec_worktreeAdd h]
      exact Bool.false_ne_true
  | _ => trivial

end

/-- What a request does to the world that it has for itself, it does to the ledger. -/
theorem alone_ledger {i : Nat} {v v' : View Action.Reply World} {action : Action}
    {reply : action.Reply} (h : machine.alone truthful i v action reply v') :
    ledgerEffect v.state.ledger action reply v'.state.ledger := by
  obtain ⟨choice, world, hguard, hexec, rfl⟩ := h
  exact ⟨exec_ledger hexec, exec_tells hguard hexec⟩

theorem alone_of_ledger {α : Type} {i : Nat} {v : View Action.Reply World} {body : Op α}
    {allowed : Ledger → Action → Prop} {Q : α → Ledger → Prop} {E : Error → Ledger → Prop}
    (hbody : Spec ledgerEffect allowed Q E v.state.ledger body) :
    Spec (machine.alone truthful i) (fun v => allowed v.state.ledger)
      (fun value v => Q value v.state.ledger) (fun error v => E error v.state.ledger) v body :=
  Spec.of_simulation (fun _ _ _ _ => alone_ledger) hbody

/-! ## Steps that can happen -/

/-- Everything but failures is admitted. -/
def Tolerant (guard : Guard Action.Reply World Choice) : Prop :=
  ∀ v i action choice, choice.isFault = false → guard v i action choice

/-- Every step can happen, except that a lock may not be free. -/
theorem enabled {guard : Guard Action.Reply World Choice} (hguard : Tolerant guard) {i : Nat}
    {v : View Action.Reply World} {action : Action}
    (hlock : ∀ lock shared, action = .acquire lock shared →
      v.state.locks.grants lock shared = true) : machine.Enabled guard i v action := by
  suffices hexec : ∃ choice out, choice.isFault = false ∧ exec i action choice v.state = some out by
    obtain ⟨choice, ⟨reply, state⟩, hfault, hexec⟩ := hexec
    exact ⟨reply, _, choice, state, hguard _ _ _ _ hfault, hexec, rfl⟩
  cases action with
  | acquire lock shared =>
    refine ⟨.go, ((), { v.state with locks := ⟨i, lock, shared⟩ :: v.state.locks }), rfl, ?_⟩
    have hacquire : v.state.locks.acquire i lock shared = some (⟨i, lock, shared⟩ :: v.state.locks) :=
      LockTable.acquire_eq_some_iff.mpr ⟨hlock lock shared rfl, rfl⟩
    simp only [exec, Action.go, hacquire]
    rfl
  | gitFetch bundle =>
    refine ⟨.fetched [] 0, ?_⟩
    by_cases hbundle : bundle ∈ v.state.bundles
    · exact ⟨_, rfl, by simp only [exec, hbundle]; rfl⟩
    · exact ⟨_, rfl, by simp only [exec, hbundle]; rfl⟩
  | unlinkBundle bundle =>
    refine ⟨.go, ?_⟩
    by_cases hbundle : bundle ∈ v.state.bundles
    · exact ⟨_, rfl, by simp only [exec, Action.go, hbundle]; rfl⟩
    · exact ⟨_, rfl, by simp only [exec, Action.go, hbundle]; rfl⟩
  | startContainer task workspace readonly =>
    refine ⟨.go, ?_⟩
    by_cases hworkspace : (v.state.repo.checkout? workspace).isSome = true
    · exact ⟨_, rfl, by simp only [exec, Action.go, hworkspace]; rfl⟩
    · exact ⟨_, rfl, by simp only [exec, Action.go, hworkspace]; rfl⟩
  | nowIso => exact ⟨.clock 0, _, rfl, rfl⟩
  | choose => exact ⟨.count 0, _, rfl, rfl⟩
  | _ => exact ⟨.go, _, rfl, rfl⟩

end AgentDev
