import AgentDev.Runtime.Invariants
import AgentDev.Runtime.Termination

/-!
# The process ends before its lock is released

`op_run` and `op_index` execute under the lock of the workspace. What an execution leaves behind runs on
when the lock is free.
-/

namespace AgentDev.Runtime

open Interleaving Python

/-! ## Executions do not release -/

/-- The call does not release a lock. -/
def Keeping (action : Action) : Prop := action ≠ .release

/-- Any effects. -/
abbrev anyEffect : Effects Action.Reply Unit := fun _ _ _ _ => True

theorem keeps_keeping : Keeps anyEffect (fun _ => Keeping) fun _ => True where
  allowed := by
    rintro x action - hown rfl
    cases hown
  kept _ _ _ _ _ _ _ := trivial

theorem anyIO_keeping : anyIO.Keeps anyEffect (fun _ => Keeping) (fun _ => True) fun _ => True where
  writeOutput x data _ := by
    refine ⟨fun heq => (nomatch heq), fun sent _ _ => ?_⟩
    cases sent <;> trivial
  obeyNext x _ := by
    refine ⟨fun heq => (nomatch heq), fun control x _ => ?_⟩
    cases control with
    | none => exact Or.inl trivial
    | some control =>
      cases control with
      | none => trivial
      | some control =>
        refine (keeps_keeping.owns (owns_obey control) trivial).mono ?_ fun _ _ h => Or.inl h
        rintro (_ | _) _ _ <;> trivial

theorem keeping_podman (interactive : Bool) (timeout : Option Nat) (timeoutOutput : Bytes)
    (n : Nat) : (runPodmanArgv anyIO interactive timeout timeoutOutput n).Only Keeping :=
  Spec.only (x := ()) (safe_podman keeps_keeping keeps_keeping anyIO_keeping interactive timeout
    timeoutOutput n trivial)

/-! ## After a failed write -/

section

variable {size : Nat} {v v' : Seen} {α : Type}

theorem not_lastFailed {action : Action} {reply : action.Reply} (h : calls size v action reply v')
    (hwrite : ∀ data, action ≠ .writeOutput data) : ¬LastFailed v'.trace := by
  obtain ⟨choice, world, -, rfl⟩ := calls_cases h
  rintro ⟨data, hlast⟩
  have hevent : (⟨0, action, reply⟩ : Event Action.Reply) = ⟨0, .writeOutput data, false⟩ := by
    simpa [View.after] using hlast
  exact hwrite data (congrArg Event.action hevent)

theorem not_lastFailed_of_sent {data : Bytes} (h : calls size v (.writeOutput data) true v') :
    ¬LastFailed v'.trace := by
  obtain ⟨choice, world, -, rfl⟩ := calls_cases h
  rintro ⟨data', hlast⟩
  simp [View.after] at hlast

/-- The program makes no call after a failed write. -/
abbrev Heeds (size : Nat) (v : Seen) (body : Run α) : Prop :=
  Spec (calls size) (fun v _ => ¬LastFailed v.trace) (fun _ v => ¬LastFailed v.trace)
    (fun _ _ => True) v body

theorem heeds_act {β : Type} {action : Action} {next : action.Reply → Run β}
    {Q : β → Seen → Prop} (hwrite : ∀ data, action ≠ .writeOutput data)
    (hv : ¬LastFailed v.trace)
    (hnext : ∀ reply v', ¬LastFailed v'.trace → Spec (calls size) (fun v _ => ¬LastFailed v.trace) Q
      (fun _ _ => True) v' (next reply)) :
    Spec (calls size) (fun v _ => ¬LastFailed v.trace) Q (fun _ _ => True) v
      (act action >>= next) :=
  ⟨hv, fun reply v' hcall => hnext reply v' (not_lastFailed hcall hwrite)⟩

theorem heeds_check {action : Action} {ok : action.Reply → Bool} {error : Error}
    (hwrite : ∀ data, action ≠ .writeOutput data) (hv : ¬LastFailed v.trace) :
    Heeds size v (check action ok error) := by
  refine heeds_act hwrite hv fun reply v' hv' => ?_
  show Spec _ _ _ _ v' (if ok reply then return () else Program.fail error)
  split
  · exact hv'
  · trivial

theorem heeds_relayChunk (hv : ¬LastFailed v.trace) : Heeds size v (relayChunk anyIO) := by
  refine heeds_act (fun _ heq => nomatch heq) hv fun chunk v₁ hv₁ => ?_
  show Heeds size v₁ (if chunk = [] then return some () else
    anyIO.writeOutput chunk >>= fun _ => return none)
  split
  · exact hv₁
  · refine ⟨hv₁, fun sent v₂ hcall => ?_⟩
    cases sent with
    | true => exact not_lastFailed_of_sent hcall
    | false => trivial

theorem heeds_noninteractive (n : Nat) (hv : ¬LastFailed v.trace) :
    Heeds size v (runNoninteractiveArgv anyIO n) := by
  refine Spec.bind (heeds_check (fun _ heq => nomatch heq) hv) fun _ v₁ hv₁ => ?_
  have hloop : Heeds size v₁ (loop (relayChunk anyIO) n) := by
    refine Spec.rounds (I := fun v => ¬LastFailed v.trace) ?_ ?_ n hv₁
    · exact fun v hv => ⟨hv, fun reply => (nomatch reply)⟩
    · refine fun v hv => (heeds_relayChunk hv).mono (fun result v hv => ?_) fun _ _ h => h
      cases result <;> exact hv
  refine hloop.bind fun _ v₂ hv₂ => ?_
  exact heeds_act (fun _ heq => nomatch heq) hv₂ fun _ _ hv₃ => hv₃

theorem heeds_podman (timeout : Option Nat) (timeoutOutput : Bytes) (n : Nat)
    (hv : ¬LastFailed v.trace) :
    Heeds size v (runPodmanArgv anyIO false timeout timeoutOutput n) := by
  cases timeout with
  | some seconds => trivial
  | none => exact heeds_noninteractive n hv

/-! ## Locks -/

theorem keeping_executed (interactive : Bool) (n : Nat) :
    (executed anyIO interactive n).Only Keeping := by
  refine ⟨fun heq => (nomatch heq), fun started => ?_⟩
  refine Program.only_bind ?_ fun _ => ?_
  · cases started <;> trivial
  refine Program.only_bind (keeping_podman interactive none [] n) fun code => ?_
  refine ⟨fun heq => (nomatch heq), fun sent => ?_⟩
  show Program.Only Keeping (if sent || code = 130 then return code else
    Program.fail (Error.internal "send"))
  split <;> trivial

theorem ensures_executed (interactive : Bool) (n : Nat) (hgone : Gone v) :
    Ensures size (fun _ => Gone) (fun _ v => Gone v ∨ interactive = false ∧ Abandoned v) v
      (executed anyIO interactive n) := by
  refine ensures_check (fun _ _ hcall _ => Or.inl (gone_kept hcall (fun heq => nomatch heq) hgone))
    fun _ v₁ hcall _ => ?_
  have hgone₁ : Gone v₁ := gone_kept hcall (fun heq => nomatch heq) hgone
  refine (ensures_podman interactive none [] n hgone₁).bind fun code v₂ hgone₂ => ?_
  refine ensures_act fun sent v₃ hcall => ?_
  have hgone₃ : Gone v₃ := gone_kept hcall (fun heq => nomatch heq) hgone₂
  show Ensures size _ _ v₃ (if sent || code = 130 then return code else
    Program.fail (Error.internal "send"))
  split
  · exact hgone₃
  · exact Or.inl hgone₃

theorem heeds_executed (n : Nat) (hv : ¬LastFailed v.trace) :
    Heeds size v (executed anyIO false n) := by
  refine Spec.bind (heeds_check (fun _ heq => nomatch heq) hv) fun _ v₁ hv₁ => ?_
  refine (heeds_podman none [] n hv₁).bind fun code v₂ hv₂ => ?_
  refine heeds_act (fun _ heq => nomatch heq) hv₂ fun sent v₃ hv₃ => ?_
  show Heeds size v₃ (if sent || code = 130 then return code else
    Program.fail (Error.internal "send"))
  split
  · exact hv₃
  · trivial

theorem spec_lockOne {interactive : Bool} {body : Run α} (hkeeps : body.Only Keeping)
    (hbody : ∀ v, Gone v → Ensures size (fun _ => Gone)
      (fun _ v => Gone v ∨ interactive = false ∧ Abandoned v) v body) (hgone : Gone v) :
    Spec (calls size)
      (fun v action => action = .release → Gone v ∨ interactive = false ∧ Abandoned v)
      (fun _ _ => True) (fun _ _ => True) v (lockOne body) := by
  refine ⟨fun heq => (nomatch heq), fun _ v₁ hcall => ?_⟩
  have hgone₁ : Gone v₁ := gone_kept hcall (fun heq => nomatch heq) hgone
  refine Spec.ensuring ((hbody v₁ hgone₁).allowing hkeeps fun _ _ hne heq => absurd heq hne) ?_ ?_
  · exact fun _ v hgone => ⟨fun _ => Or.inl hgone, fun _ _ _ => trivial⟩
  · exact fun _ v hend => ⟨fun _ => hend, fun _ _ _ => trivial⟩

theorem heeds_lockOne {body : Run α}
    (hbody : ∀ v, ¬LastFailed v.trace → Heeds size v body) (hv : ¬LastFailed v.trace) :
    Spec (calls size) (fun v action => LastFailed v.trace → action = .release)
      (fun _ v => ¬LastFailed v.trace) (fun _ v => ¬LastFailed v.trace) v (lockOne body) := by
  refine ⟨fun hlast => absurd hlast hv, fun _ v₁ hcall => ?_⟩
  have hv₁ : ¬LastFailed v₁.trace := not_lastFailed hcall fun _ heq => nomatch heq
  have hrelease : ∀ {v : Seen}, Spec (calls size) (fun v action => LastFailed v.trace → action = .release)
      (fun _ v => ¬LastFailed v.trace) (fun _ v => ¬LastFailed v.trace) v (act .release) :=
    ⟨fun _ => rfl, fun _ _ hcall => not_lastFailed hcall fun _ heq => nomatch heq⟩
  refine Spec.ensuring ((hbody v₁ hv₁).weaken fun _ _ hnot hlast => absurd hlast hnot) ?_ ?_
  · exact fun _ _ _ => hrelease
  · exact fun _ _ _ => hrelease

end

/-! ## Ends and releases -/

/-- The next call releases the lock, and the process still runs. -/
def LeavesRunning {α : Type} (size : Nat) (c : Execution α) : Prop :=
  ∃ e c', (machine size).Step (anyStep.only 0) e c c' ∧ e.action = .release ∧ ¬Gone c'.view

section

variable {size : Nat} {α : Type} {program : Run α} {socket : Socket} {c : Execution α}

theorem gone_start : Gone (start program socket).view := fun heq => nomatch heq

theorem not_lastFailed_start : ¬LastFailed (start program socket).view.trace :=
  fun ⟨_, hlast⟩ => nomatch hlast

/-- A program that makes no call after a failed write has ended with it. -/
theorem ended_of_lastFailed (hheeds : Heeds size (start program socket).view program)
    (hrun : Executes size program socket c) (hlast : LastFailed c.trace) : Ended c := by
  intro action rest hprog
  have hspec := Spec.reaches hheeds hrun
  rw [hprog] at hspec
  exact hspec.1 hlast

/-- The processes that locked programs leave behind. -/
theorem leavesRunning_iff {interactive : Bool} {body : Run α} (hkeeps : body.Only Keeping)
    (hbody : ∀ v, Gone v → Ensures size (fun _ => Gone)
      (fun _ v => Gone v ∨ interactive = false ∧ Abandoned v) v body)
    (hheeds : interactive = false → ∀ v, ¬LastFailed v.trace → Heeds size v body)
    (hrun : Executes size (lockOne body) socket c) :
    LeavesRunning size c ↔ interactive = false ∧ Abandoned c.view := by
  constructor
  · rintro ⟨e, c', hstep, hrelease, hrunning⟩
    have hspec := Spec.reaches (spec_lockOne hkeeps hbody gone_start) hrun
    rcases (hspec.step hstep).2.1 hrelease with hgone | habandoned
    · obtain ⟨rest, choice, state, -, ⟨hthread, hguard⟩, hexec, rfl⟩ := hstep
      have hcall : calls size c.view e.action e.reply (c.view.after state ⟨0, e.action, e.reply⟩) :=
        ⟨choice, state, hguard, hexec, rfl⟩
      have hpopen : e.action ≠ .popen := by
        rw [hrelease]
        exact fun heq => nomatch heq
      exact absurd (gone_kept hcall hpopen hgone) hrunning
    · exact habandoned
  · rintro ⟨hinteractive, hrunning, hlast⟩
    have hspec := Spec.reaches (heeds_lockOne (hheeds hinteractive) not_lastFailed_start) hrun
    cases hprog : c.programs 0 with
    | ret value =>
      rw [hprog] at hspec
      exact absurd hlast hspec
    | fail error =>
      rw [hprog] at hspec
      exact absurd hlast hspec
    | act action rest =>
      rw [hprog] at hspec
      cases hspec.1 hlast
      let choice : Choice := ⟨none, [], false, .success⟩
      refine ⟨⟨0, .release, ()⟩, _, ⟨rest, choice, c.state.moved choice, hprog, ⟨rfl, trivial⟩, rfl,
        rfl⟩, rfl, ?_⟩
      have hchild : (c.state.moved choice).child = .running := by
        show c.state.child.exit none = .running
        rw [hrunning]
        rfl
      exact fun hgone => hgone hchild

end

/-- An execution leaves its process behind exactly when it has no terminal and a write to the client
raises while the process runs; so do the executions under a lock. -/
theorem child_ended_iff (size : Nat) (interactive : Bool) (timeout : Option Nat)
    (timeoutOutput : Bytes) (n : Nat) (socket : Socket) :
    (∀ c, Executes size (runPodmanArgv anyIO interactive timeout timeoutOutput n) socket c →
      (Ended c ∧ ¬Gone c.view ↔ interactive = false ∧ Abandoned c.view)) ∧
    (∀ c, Executes size (opIndex anyIO n) socket c →
      (LeavesRunning size c ↔ Abandoned c.view)) ∧
    (∀ c, Executes size (opRun anyIO interactive n) socket c →
      (LeavesRunning size c ↔ interactive = false ∧ Abandoned c.view)) := by
  refine ⟨fun c hrun => ⟨?_, ?_⟩, fun c hrun => ?_, fun c hrun => ?_⟩
  · rintro ⟨hended, hrunning⟩
    have hspec := Spec.reaches
      (ensures_podman interactive timeout timeoutOutput n gone_start) hrun
    rcases spec_of_ended hspec hended with ⟨_, hgone⟩ | ⟨_, hgone | habandoned⟩
    · exact absurd hgone hrunning
    · exact absurd hgone hrunning
    · exact habandoned
  · rintro ⟨rfl, hrunning, hlast⟩
    refine ⟨ended_of_lastFailed ?_ hrun hlast, fun hgone => hgone hrunning⟩
    exact heeds_podman timeout timeoutOutput n not_lastFailed_start
  · have hiff : LeavesRunning size c ↔ false = false ∧ Abandoned c.view :=
      leavesRunning_iff (keeping_podman false none [] n)
        (fun _ => ensures_podman false none [] n) (fun _ _ => heeds_podman none [] n) hrun
    exact hiff.trans (and_iff_right rfl)
  · refine leavesRunning_iff (keeping_executed interactive n)
      (fun _ => ensures_executed interactive n) ?_ hrun
    rintro rfl v hv
    exact heeds_executed n hv

/-- The process writes, and the client is not there any more. -/
def clientLost : List Choice := [quietly .success, quietly (.data [0]), quietly .failure]

/-- The execution ends, its lock is released, and the process runs on. -/
theorem process_left_running :
    (∃ c, Executes 8192 (runPodmanArgv anyIO false none [] 1) ⟨[], [], false⟩ c ∧
      Ended c ∧ ¬Gone c.view) ∧
    (∃ c, Executes 8192 (opIndex anyIO 1) ⟨[], [], false⟩ c ∧ LeavesRunning 8192 c) ∧
    ∃ c, Executes 8192 (opRun anyIO false 1) ⟨[], [], false⟩ c ∧ LeavesRunning 8192 c := by
  have hpodman : (played 8192 (runPodmanArgv anyIO false none [] 1) ⟨[], [], false⟩ clientLost).map
      (fun c => ((c.programs 0).error?, c.state.child)) =
      some (some (.internal "write_output"), .running) := rfl
  have hindex : (played 8192 (opIndex anyIO 1) ⟨[], [], false⟩
      (quietly .success :: clientLost)).map (fun c => (c.state.child, c.trace.getLast?)) =
      some (.running, some ⟨0, .writeOutput [0], false⟩) := rfl
  have hrun : (played 8192 (opRun anyIO false 1) ⟨[], [], false⟩
      (quietly .success :: quietly .success :: clientLost)).map
      (fun c => (c.state.child, c.trace.getLast?)) =
      some (.running, some ⟨0, .writeOutput [0], false⟩) := rfl
  refine ⟨?_, ?_, ?_⟩
  · obtain ⟨c, hreaches, hc⟩ := executes_of_played hpodman
    obtain ⟨herror, hchild⟩ := Prod.mk.inj hc
    refine ⟨c, hreaches, fun action rest hprog => ?_, fun hgone => hgone hchild⟩
    cases hprog.symm.trans (Program.error?_eq_some_iff.mp herror)
  · obtain ⟨c, hreaches, hc⟩ := executes_of_played hindex
    obtain ⟨hchild, hlast⟩ := Prod.mk.inj hc
    have hiff := leavesRunning_iff (keeping_podman false none [] 1)
      (fun _ => ensures_podman false none [] 1) (fun _ _ => heeds_podman none [] 1) hreaches
    exact ⟨c, hreaches, hiff.mpr ⟨rfl, hchild, [0], hlast⟩⟩
  · obtain ⟨c, hreaches, hc⟩ := executes_of_played hrun
    obtain ⟨hchild, hlast⟩ := Prod.mk.inj hc
    have hiff := leavesRunning_iff (keeping_executed false 1)
      (fun _ => ensures_executed false 1) (fun _ _ => heeds_executed 1) hreaches
    exact ⟨c, hreaches, hiff.mpr ⟨rfl, hchild, [0], hlast⟩⟩

/-- `receive_control` raises, and the process ignores every signal but the last. -/
def stubborn : List Choice :=
  [.path (str "a.cid"), .success, .success, .failure, .failure, .success, .success, .success,
    .success, .success, .success, .success, .success, .success].map quietly

theorem child_ended_iff_example : ∃ c, Executes 8192 (runPodmanArgv anyIO true none [] 1)
    ⟨[], [], false⟩ c ∧ c.programs 0 = .fail (.internal "receive_control") ∧ Gone c.view := by
  have hpodman : (played 8192 (runPodmanArgv anyIO true none [] 1) ⟨[], [], false⟩ stubborn).map
      (fun c => (c.programs 0).error?) = some (some (.internal "receive_control")) := rfl
  obtain ⟨c, hreaches, hc⟩ := executes_of_played hpodman
  have hprog := Program.error?_eq_some_iff.mp hc
  refine ⟨c, hreaches, hprog, fun hrunning => ?_⟩
  have hended : Ended c := fun action rest h => nomatch h.symm.trans hprog
  have hiff := (child_ended_iff 8192 true none [] 1 ⟨[], [], false⟩).1 c hreaches
  cases (hiff.mp ⟨hended, fun hgone => hgone hrunning⟩).1

end AgentDev.Runtime
