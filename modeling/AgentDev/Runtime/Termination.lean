import AgentDev.Runtime.Podman

/-!
# The process ends with its execution

However an execution on a terminal ends, its `finally` block has seen the end of the process. An
execution without a terminal has no such block: when the client goes away while the process runs, the
process is left behind, and the lock of its workspace is released (`child_ended_iff`).
-/

namespace AgentDev.Runtime

open Interleaving Python

abbrev Seen := View Action.Reply World

abbrev Execution (α : Type) := Config Action.Reply World Error α

def anyStep : Guard Action.Reply World Choice := fun _ _ _ _ => True

/-- What a call may do, in any environment. -/
def calls (size : Nat) : Effects Action.Reply Seen := (machine size).alone anyStep 0

/-- The process does not run. -/
def Gone (v : Seen) : Prop := v.state.child ≠ .running

/-- An execution before its first call. -/
def start {α : Type} (program : Run α) (socket : Socket) : Execution α :=
  ⟨fun _ => program, ⟨⟨.absent, socket, none⟩, []⟩⟩

/-- The executions of a program, from its first call on. -/
abbrev Executes {α : Type} (size : Nat) (program : Run α) (socket : Socket) (c : Execution α) :
    Prop := (machine size).Reaches (anyStep.only 0) (start program socket) c

/-- An execution with given choices of the environment. -/
def played {α : Type} (size : Nat) (program : Run α) (socket : Socket) (choices : List Choice) :
    Option (Execution α) :=
  (machine size).run (fun _ i _ _ => i == 0) (start program socket) (choices.map fun c => (0, c))

theorem executes_of_played {α β : Type} {size : Nat} {program : Run α} {socket : Socket}
    {choices : List Choice} {value : β} {f : Execution α → β}
    (h : (played size program socket choices).map f = some value) :
    ∃ c, Executes size program socket c ∧ f c = value :=
  Machine.exists_of_guarded_run (fun _ _ _ _ hi => ⟨beq_iff_eq.mp hi, trivial⟩) h

/-- The environment does nothing but answer. -/
def quietly (answer : Answer) : Choice := ⟨none, [], false, answer⟩

/-- The execution has returned or raised. -/
def Ended {α : Type} (c : Execution α) : Prop := ∀ action rest, c.programs 0 ≠ .act action rest

/-- How an execution that has ended has ended. -/
theorem spec_of_ended {α : Type} {effect : Effects Action.Reply Seen}
    {allowed : Seen → Action → Prop} {Q : α → Seen → Prop} {E : Error → Seen → Prop}
    {c : Execution α} (h : Spec effect allowed Q E c.view (c.programs 0)) (hended : Ended c) :
    (∃ value, Q value c.view) ∨ ∃ error, E error c.view := by
  cases hprog : c.programs 0 with
  | ret value =>
    rw [hprog] at h
    exact Or.inl ⟨value, h⟩
  | fail error =>
    rw [hprog] at h
    exact Or.inr ⟨error, h⟩
  | act action rest => exact absurd hprog (hended action rest)

/-! ## What the calls tell of the process -/

section

variable {size : Nat} {v v' : Seen} {action : Action} {reply : action.Reply}

theorem calls_cases (h : calls size v action reply v') : ∃ (choice : Choice) (world : World),
    action.call size (v.state.moved choice) choice.answer = some (reply, world) ∧
      v' = v.after world ⟨0, action, reply⟩ := by
  obtain ⟨choice, world, -, hcall, rfl⟩ := h
  exact ⟨choice, world, hcall, rfl⟩

theorem exit_of_ne_running {child : Child} (h : child ≠ .running) (code : Option Int) :
    child.exit code = child := by
  cases child with
  | running => exact absurd rfl h
  | absent => cases code <;> rfl
  | exited old => cases code <;> rfl

/-- No call but `popen` changes a process that does not run. -/
theorem call_child {world world' : World} {answer : Answer}
    (h : action.call size world answer = some (reply, world')) (hpopen : action ≠ .popen)
    (hgone : world.child ≠ .running) : world'.child = world.child := by
  cases action with
  | popen => exact absurd rfl hpopen
  | openpty | selectMaster | writeMaster | setWinsize | cleanupInteractiveContainer | writeOutput
  | send =>
    obtain ⟨ok, -, heq⟩ := Option.map_eq_some_iff.mp h
    cases heq
    rfl
  | monotonic | readMaster | readStdout | receiveControl | newInteractiveCidfile =>
    simp only [Action.call] at h
    split at h <;> cases h <;> rfl
  | poll | selectConn | acquire | release =>
    cases h
    rfl
  | wait timeout =>
    simp only [Action.call] at h
    split at h
    · cases h
    · cases h
      rfl
  | killpg signal =>
    cases hchild : world.child with
    | running => exact absurd hchild hgone
    | absent | exited =>
      simp only [Action.call, hchild] at h
      obtain ⟨ok, -, heq⟩ := Option.map_eq_some_iff.mp h
      cases heq
      exact hchild
  | readline =>
    obtain ⟨result, -, heq⟩ := Option.map_eq_some_iff.mp h
    cases heq
    rfl
  | unfinished => cases h

/-- A process that has ended stays as it is. -/
theorem child_kept (h : calls size v action reply v') (hpopen : action ≠ .popen) (hgone : Gone v) :
    v'.state.child = v.state.child := by
  obtain ⟨choice, world, hcall, rfl⟩ := calls_cases h
  have hmoved : (v.state.moved choice).child = v.state.child := exit_of_ne_running hgone choice.exit
  exact (call_child hcall hpopen (hmoved.symm ▸ hgone)).trans hmoved

theorem gone_kept (h : calls size v action reply v') (hpopen : action ≠ .popen) (hgone : Gone v) :
    Gone v' := by
  rw [Gone, child_kept h hpopen hgone]
  exact hgone

theorem gone_of_poll {code : Int} (h : calls size v .poll (some code) v') : Gone v' := by
  obtain ⟨choice, world, hcall, rfl⟩ := calls_cases h
  obtain ⟨hcode, rfl⟩ := Prod.mk.inj (Option.some.inj hcall)
  intro hrunning
  have hnone : (v.state.moved choice).child.code? = none := by
    rw [show (v.state.moved choice).child = .running from hrunning]
    rfl
  cases hnone.symm.trans hcode

/-- A `wait` without a timeout returns when the process has ended, and so does one that has a code. -/
theorem gone_of_wait {timeout : Option Nat} {code : Option Int}
    (h : calls size v (.wait timeout) code v') (hended : timeout = none ∨ code ≠ none) :
    Gone v' := by
  obtain ⟨choice, world, hcall, rfl⟩ := calls_cases h
  intro hrunning
  simp only [Action.call] at hcall
  split at hcall
  · cases hcall
  · rename_i child hnot
    obtain ⟨hcode, rfl⟩ := Prod.mk.inj (Option.some.inj hcall)
    have hchild : (v.state.moved choice).child = .running := hrunning
    rcases hended with rfl | hcode'
    · exact hnot rfl hchild
    · rw [hchild] at hcode
      exact hcode' hcode.symm

theorem gone_of_killpg {signal : Signal} (h : calls size v (.killpg signal) false v') :
    Gone v' := by
  obtain ⟨choice, world, hcall, rfl⟩ := calls_cases h
  intro hrunning
  cases hchild : (v.state.moved choice).child with
  | running =>
    simp only [Action.call, hchild] at hcall
    cases hcall
  | absent | exited =>
    simp only [Action.call, hchild] at hcall
    obtain ⟨ok, -, heq⟩ := Option.map_eq_some_iff.mp hcall
    cases heq
    rw [View.after, hchild] at hrunning
    cases hrunning

end

/-! ## Programs -/

section

variable {size : Nat} {v : Seen} {α β : Type} {Q : α → Seen → Prop} {E : Error → Seen → Prop}

/-- Everything is allowed. -/
abbrev Ensures (size : Nat) (Q : α → Seen → Prop) (E : Error → Seen → Prop) (v : Seen)
    (body : Run α) : Prop := Spec (calls size) (fun _ _ => True) Q E v body

theorem ensures_act {action : Action} {next : action.Reply → Run α}
    (h : ∀ reply v', calls size v action reply v' → Ensures size Q E v' (next reply)) :
    Ensures size Q E v (act action >>= next) := ⟨trivial, h⟩

theorem ensures_trivial (v : Seen) (body : Run α) :
    Ensures size (fun _ _ => True) (fun _ _ => True) v body := by
  induction body generalizing v with
  | ret value => trivial
  | fail error => trivial
  | act action rest ih => exact ⟨trivial, fun reply v' _ => ih reply v'⟩

/-- A call that fails raises. -/
theorem ensures_check {action : Action} {ok : action.Reply → Bool} {error : Error}
    {next : Unit → Run α}
    (hfail : ∀ reply v', calls size v action reply v' → ok reply = false → E error v')
    (hnext : ∀ reply v', calls size v action reply v' → ok reply = true →
      Ensures size Q E v' (next ())) : Ensures size Q E v (check action ok error >>= next) := by
  refine ⟨trivial, fun reply v' hcall => ?_⟩
  show Ensures size Q E v' ((if ok reply then return () else .fail error) >>= next)
  cases hok : ok reply with
  | true => exact hnext reply v' hcall hok
  | false => exact hfail reply v' hcall hok

theorem ensures_signalled (signal : Signal) (grace : Nat) (v : Seen) :
    Ensures size (fun ended v => ended = true → Gone v) (fun _ _ => False) v
      (signalled signal grace) := by
  refine ensures_act fun sent v₁ hsent => ?_
  cases sent with
  | false => exact fun _ => gone_of_killpg hsent
  | true =>
    refine ensures_act fun code v₂ hcode hended => ?_
    exact gone_of_wait hcode (Or.inr (Option.isSome_iff_ne_none.mp hended))

theorem ensures_terminate (v : Seen) :
    Ensures size (fun _ => Gone) (fun _ _ => False) v terminateProcessGroup := by
  refine ensures_act fun code v₁ hpoll => ?_
  cases code with
  | some code => exact gone_of_poll hpoll
  | none =>
    refine (ensures_signalled .int 2000 v₁).bind fun ended v₂ hended => ?_
    cases ended with
    | true => exact hended rfl
    | false =>
      refine (ensures_signalled .term 3000 v₂).bind fun ended v₃ hended => ?_
      cases ended with
      | true => exact hended rfl
      | false =>
        refine ensures_act fun sent v₄ hsent => ?_
        cases sent with
        | false => exact gone_of_killpg hsent
        | true => exact ensures_act fun code v₅ hwait => gone_of_wait hwait (Or.inl rfl)

theorem ensures_finish (cidfile : Option Str) (v : Seen) :
    Ensures size (fun _ => Gone) (fun _ => Gone) v (finish cidfile) := by
  have hcleanup : ∀ v, Gone v → Ensures size (fun _ => Gone) (fun _ => Gone) v
      (check (.cleanupInteractiveContainer cidfile) id (.internal "cleanup")) := by
    intro v hgone
    have hkept : ∀ reply v', calls size v (.cleanupInteractiveContainer cidfile) reply v' → Gone v' :=
      fun reply v' hcall => gone_kept hcall (fun heq => nomatch heq) hgone
    refine ⟨trivial, fun reply v' hcall => ?_⟩
    cases reply with
    | true => exact hkept true v' hcall
    | false => exact hkept false v' hcall
  refine ensures_act fun code v₁ hpoll => ?_
  cases code with
  | some code => exact hcleanup v₁ (gone_of_poll hpoll)
  | none =>
    refine Spec.bind ((ensures_terminate v₁).mono (fun _ _ hgone => hgone) fun _ _ h => h.elim) ?_
    exact fun _ v hgone => hcleanup v hgone

theorem ensures_deadline (timeout : Option Nat) (v : Seen) :
    Ensures size (fun _ _ => True) (fun _ _ => False) v (deadlineOf timeout) := by
  cases timeout with
  | none => trivial
  | some seconds => exact ensures_act fun _ _ _ => trivial

theorem gone_of_popen {v' : Seen} (h : calls size v .popen false v') (hgone : Gone v) : Gone v' := by
  obtain ⟨choice, world, hcall, rfl⟩ := calls_cases h
  cases hanswer : choice.answer with
  | failure =>
    simp only [Action.call, hanswer] at hcall
    cases hcall
    intro hrunning
    exact hgone ((exit_of_ne_running hgone choice.exit).symm.trans hrunning)
  | _ =>
    simp only [Action.call, hanswer] at hcall
    cases hcall

/-- However the execution goes, the `finally` block sees the end of the process. -/
theorem ensures_interactive (io : RuntimeIO) (timeout : Option Nat) (timeoutOutput : Bytes)
    (cidfile : Option Str) (n : Nat) (hgone : Gone v) :
    Ensures size (fun _ => Gone) (fun _ => Gone) v
      (runInteractiveArgv io timeout timeoutOutput cidfile n) := by
  refine ensures_check (fun _ _ hcall _ => gone_kept hcall (fun heq => nomatch heq) hgone) ?_
  intro _ v₁ hcall _
  have hgone₁ : Gone v₁ := gone_kept hcall (fun heq => nomatch heq) hgone
  refine ensures_check ?_ ?_
  · intro started v₂ hpopen hfail
    cases (hfail : started = false)
    exact gone_of_popen hpopen hgone₁
  · intro _ v₂ _ _
    refine Spec.bind ((ensures_deadline timeout v₂).mono (fun _ _ h => h) fun _ _ h => h.elim) ?_
    intro deadline v₃ _
    exact Spec.ensuring (ensures_trivial v₃ _) (fun _ v _ => ensures_finish cidfile v)
      fun _ v _ => ensures_finish cidfile v

/-- A `write_output` has just raised. -/
def LastFailed (trace : List (Event Action.Reply)) : Prop :=
  ∃ data, trace.getLast? = some ⟨0, .writeOutput data, false⟩

/-- A `write_output` has just raised, while the process runs. -/
def Abandoned (v : Seen) : Prop := v.state.child = .running ∧ LastFailed v.trace

theorem gone_or_running (v : Seen) : Gone v ∨ v.state.child = .running := by
  by_cases h : v.state.child = .running
  · exact Or.inr h
  · exact Or.inl h

theorem ensures_relayChunk (v : Seen) :
    Ensures size (fun _ _ => True) (fun _ v => Gone v ∨ Abandoned v) v (relayChunk anyIO) := by
  refine ensures_act fun chunk v₁ _ => ?_
  show Ensures size _ _ v₁ (if chunk = [] then return some () else
    anyIO.writeOutput chunk >>= fun _ => return none)
  split
  · trivial
  · refine ensures_check (fun sent v₂ hcall hfail => ?_) fun _ _ _ _ => trivial
    cases (hfail : sent = false)
    obtain ⟨choice, world, hcall, rfl⟩ := calls_cases hcall
    refine (gone_or_running _).imp_right fun hrunning => ⟨hrunning, chunk, ?_⟩
    simp [View.after]

theorem ensures_waitCode (v : Seen) :
    Ensures size (fun _ => Gone) (fun _ _ => False) v waitCode :=
  ensures_act fun _ _ hwait => gone_of_wait hwait (Or.inl rfl)

theorem ensures_noninteractive (n : Nat) (hgone : Gone v) :
    Ensures size (fun _ => Gone) (fun _ v => Gone v ∨ Abandoned v) v
      (runNoninteractiveArgv anyIO n) := by
  refine ensures_check (fun started v₁ hpopen hfail => ?_) fun _ v₁ _ _ => ?_
  · cases (hfail : started = false)
    exact Or.inl (gone_of_popen hpopen hgone)
  · have hloop : Ensures size (fun _ _ => True) (fun _ v => Gone v ∨ Abandoned v) v₁
        (loop (relayChunk anyIO) n) := by
      refine Spec.rounds (I := fun _ => True) ?_ ?_ n trivial
      · exact fun _ _ => ⟨trivial, fun reply => nomatch reply⟩
      · refine fun v _ => (ensures_relayChunk v).mono (fun result v _ => ?_) fun _ _ h => h
        cases result <;> trivial
    exact hloop.bind fun _ v _ => (ensures_waitCode v).mono (fun _ _ h => h) fun _ _ h => h.elim

/-- How an execution ends: when the process still runs, there is no terminal, and the client has gone
away. -/
theorem ensures_podman (interactive : Bool) (timeout : Option Nat) (timeoutOutput : Bytes)
    (n : Nat) (hgone : Gone v) :
    Ensures size (fun _ => Gone) (fun _ v => Gone v ∨ interactive = false ∧ Abandoned v) v
      (runPodmanArgv anyIO interactive timeout timeoutOutput n) := by
  cases interactive with
  | true =>
    refine ensures_act fun cidfile v₁ hcall => ?_
    have hgone₁ : Gone v₁ := gone_kept hcall (fun heq => nomatch heq) hgone
    cases cidfile with
    | none => exact Or.inl hgone₁
    | some cidfile =>
      exact (ensures_interactive anyIO timeout timeoutOutput (some cidfile) n hgone₁).mono
        (fun _ _ h => h) fun _ _ h => Or.inl h
  | false =>
    cases timeout with
    | some seconds => exact Or.inl hgone
    | none =>
      exact (ensures_noninteractive n hgone).mono (fun _ _ h => h)
        fun _ _ h => h.imp_right fun h => ⟨rfl, h⟩

end

end AgentDev.Runtime
