import AgentDev.Runtime.Pace

/-!
# What an execution leaves unread

An execution on a terminal stops asking for controls when it finds that the process has ended, when the
time is over, when it has been cancelled, and when a call has raised. A line that the client has sent before
the end of the process, and that still waits, is lost then. In the environments of `attends` no such line
waits when the process is being ended, when it is known to have ended, or at the cleanup.
-/

namespace AgentDev.Runtime

open Interleaving Python

/-! ## What was sent in time -/

/-- The complete lines that nobody has read yet, of what the client sent before the process ended. -/
def World.owed (world : World) : List Str :=
  frames (world.socket.pending.take (world.socket.pending.length - world.afterwards.getD 0))

theorem World.owed_prefix (world : World) : world.owed <+: frames world.socket.pending :=
  frames_prefix (List.take_prefix _ _)

/-- What arrives when the client sends a text. -/
def World.arriving (world : World) (choice : Choice) : Str :=
  if world.socket.closed then [] else choice.text

theorem pending_moved (world : World) (choice : Choice) :
    (world.moved choice).socket.pending = world.socket.pending ++ world.arriving choice := by
  have hdeliver : (world.socket.deliver choice.text).pending =
      world.socket.pending ++ world.arriving choice := by
    unfold Socket.deliver World.arriving
    split
    · rw [List.append_nil]
    · exact (List.append_assoc ..).symm
  rw [← hdeliver]
  cases hangup : choice.hangup <;> simp only [World.moved, hangup] <;> rfl

theorem afterwards_moved (world : World) (choice : Choice) :
    (world.moved choice).afterwards =
      if (world.child.exit choice.exit).code?.isSome || world.afterwards.isSome then
        some (world.afterwards.getD 0 + (world.arriving choice).length)
      else none := by
  show world.counted choice = _
  unfold World.counted World.arriving
  cases world.socket.closed <;> rfl

/-- What is counted is not looked at. -/
theorem take_arriving (text more : Str) (k : Nat) :
    (text ++ more).take ((text ++ more).length - (k + more.length)) = text.take (text.length - k) := by
  have hlength : (text ++ more).length - (k + more.length) = text.length - k := by
    rw [List.length_append]
    omega
  rw [hlength, List.take_append_of_le_length (Nat.sub_le _ _)]

theorem owed_moved (world : World) (choice : Choice) :
    world.owed <+: (world.moved choice).owed ∧
      (world.afterwards.isSome = true → (world.moved choice).owed = world.owed) := by
  rw [World.owed, World.owed, pending_moved, afterwards_moved]
  by_cases hended : ((world.child.exit choice.exit).code?.isSome || world.afterwards.isSome) = true
  · rw [if_pos hended, Option.getD_some, take_arriving]
    exact ⟨List.prefix_rfl, fun _ => rfl⟩
  · rw [if_neg hended]
    have hnone : world.afterwards = none := by
      apply Option.not_isSome_iff_eq_none.mp
      intro hsome
      exact hended (by rw [hsome, Bool.or_true])
    rw [hnone, Option.getD_none, Nat.sub_zero, Nat.sub_zero, List.take_length, List.take_length]
    exact ⟨frames_append _ _, fun hsome => nomatch hsome⟩

/-! ## Calls -/

section

variable {size : Nat} {action : Action} {reply : action.Reply} {world world' : World} {answer : Answer}

/-- No call counts. -/
theorem call_afterwards (h : action.call size world answer = some (reply, world')) :
    world'.afterwards = world.afterwards := by
  cases action with
  | openpty | selectMaster | writeMaster | setWinsize | cleanupInteractiveContainer | writeOutput
  | send | readline =>
    obtain ⟨result, -, heq⟩ := Option.map_eq_some_iff.mp h
    cases heq
    rfl
  | popen | monotonic | readMaster | readStdout | receiveControl | newInteractiveCidfile =>
    simp only [Action.call] at h
    split at h <;> cases h <;> rfl
  | poll | selectConn | acquire | release =>
    cases h
    rfl
  | wait timeout =>
    simp only [Action.call] at h
    split at h
    · cases h
    · cases h
      rfl
  | killpg signal =>
    cases hchild : world.child with
    | running =>
      simp only [Action.call, hchild] at h
      cases h
      split <;> rfl
    | absent | exited =>
      simp only [Action.call, hchild] at h
      obtain ⟨ok, -, heq⟩ := Option.map_eq_some_iff.mp h
      cases heq
      rfl
  | unfinished => cases h

/-- A call takes at most the first line. -/
theorem owed_call (thread : Nat) (h : action.call size world answer = some (reply, world')) :
    world.owed = (lineOf ⟨thread, action, reply⟩).toList ++ world'.owed ∨
      world.owed = [] ∧ world'.owed = [] := by
  have hafter := call_afterwards h
  have hother : action ≠ .readline → world.owed = world'.owed := by
    intro haction
    rw [World.owed, World.owed, hafter, call_socket h haction]
  rcases event_cases ⟨thread, action, reply⟩ with ⟨haction, ⟨-, hline⟩, -⟩ | ⟨thread, ready, heq⟩ |
    ⟨thread, text, heq⟩ | ⟨thread, heq⟩
  · rw [hline]
    exact Or.inl (hother haction)
  · cases heq
    exact Or.inl (hother fun heq => nomatch heq)
  · cases heq
    obtain ⟨⟨progress, socket⟩, hread, heq⟩ := Option.map_eq_some_iff.mp h
    cases heq
    exact Socket.readline_line_early hread _
  · cases heq
    obtain ⟨⟨progress, socket⟩, hread, heq⟩ := Option.map_eq_some_iff.mp h
    cases heq
    left
    show frames _ = frames (socket.pending.take (socket.pending.length - _))
    rw [Socket.readline_received hread]

end

/-! ## Steps -/

/-- The calls that are made only when the process has ended or is being ended; so is a `poll` that finds
that it has ended. -/
def ends (world : World) : Action → Bool
  | .poll => world.child.code?.isSome
  | .killpg _ | .wait _ | .cleanupInteractiveContainer _ => true
  | _ => false

/-- No receive leaves two complete lines with the reader, and nothing that the client has sent in time
waits when the process is being ended or is known to have ended. -/
def attends (size : Nat) : Guard Action.Reply World Choice :=
  fun v i action choice => keepsApart size v i action choice ∧
    (ends (v.state.moved choice) action = true → (v.state.moved choice).owed = [])

section

variable {size : Nat} {guard : Guard Action.Reply World Choice} {c c' : Execution Int}
  {e : Event Action.Reply}

theorem owed_step (hstep : (machine size).Step guard e c c') :
    c.state.owed <+: (lineOf e).toList ++ c'.state.owed := by
  obtain ⟨rest, choice, state, -, -, hexec, rfl⟩ := hstep
  have hmoved := (owed_moved c.state choice).1
  rcases owed_call e.thread hexec with hcall | ⟨hnone, -⟩
  · rwa [hcall] at hmoved
  · rw [hnone, List.prefix_nil] at hmoved
    rw [hmoved]
    exact List.nil_prefix

/-- The client cannot send in time any more, and nothing of what it has sent in time waits. -/
def Paid (world : World) : Prop := world.afterwards.isSome = true ∧ world.owed = []

theorem paid_step (hstep : (machine size).Step guard e c c') (hpaid : Paid c.state) :
    Paid c'.state := by
  obtain ⟨rest, choice, state, -, -, hexec, rfl⟩ := hstep
  obtain ⟨hsome, howed⟩ := hpaid
  have hmoved : (c.state.moved choice).owed = [] := by
    rw [(owed_moved c.state choice).2 hsome, howed]
  constructor
  · show state.afterwards.isSome = true
    rw [call_afterwards hexec, afterwards_moved, hsome, Bool.or_true]
    rfl
  · show state.owed = []
    rcases owed_call e.thread hexec with hcall | ⟨-, hnone⟩
    · rw [hmoved] at hcall
      exact (List.append_eq_nil_iff.mp hcall.symm).2
    · exact hnone

/-- A `poll` that finds that the process has ended finds nothing waiting. -/
theorem paid_of_quits (hstep : (machine size).Step ((attends size).only 0) e c c')
    (hquits : quits e = true) : Paid c'.state := by
  obtain ⟨rest, choice, state, -, ⟨-, -, hends⟩, hexec, rfl⟩ := hstep
  obtain ⟨thread, action, reply⟩ := e
  cases action with
  | poll =>
    cases reply with
    | none => cases hquits
    | some code =>
      obtain ⟨hcode, rfl⟩ := Prod.mk.inj (Option.some.inj hexec)
      have hended : (c.state.child.exit choice.exit).code?.isSome = true := by
        rw [show (c.state.child.exit choice.exit).code? = some code from hcode]
        rfl
      refine ⟨?_, hends hended⟩
      show (c.state.moved choice).afterwards.isSome = true
      rw [afterwards_moved, hended]
      rfl
  | _ => cases hquits

/-- Once the process is known to have ended, nothing is left to read. -/
theorem paid_of_quitted {c₀ : Execution Int} (htrace : c₀.trace = [])
    (hrun : (machine size).Reaches ((attends size).only 0) c₀ c) (hquits : Quits c.trace) :
    Paid c.state := by
  induction hrun with
  | refl =>
    obtain ⟨e, he, -⟩ := hquits
    rw [htrace] at he
    cases he
  | @step c c' e _ hstep ih =>
    obtain ⟨e', he', hquit⟩ := hquits
    rw [hstep.trace_eq, List.mem_append, List.mem_singleton] at he'
    rcases he' with hbefore | rfl
    · exact paid_step hstep (ih ⟨e', hbefore, hquit⟩)
    · exact paid_of_quits hstep hquit

/-! ## Ends -/

/-- The last call was the cleanup. -/
def Cleaned (trace : Trace) : Prop :=
  ∃ e ∈ trace.getLast?, ∃ cidfile, e.action = .cleanupInteractiveContainer cidfile

/-- After the cleanup nothing is left to read. -/
theorem owed_of_cleaned {c₀ : Execution Int} (htrace : c₀.trace = [])
    (hrun : (machine size).Reaches ((attends size).only 0) c₀ c) (hcleaned : Cleaned c.trace) :
    c.state.owed = [] := by
  obtain ⟨e, he, cidfile, haction⟩ := hcleaned
  cases hrun with
  | refl =>
    rw [htrace] at he
    cases he
  | @step c c' e' _ hstep =>
    rw [hstep.trace_eq, List.getLast?_concat] at he
    cases he
    obtain ⟨rest, choice, state, -, ⟨-, -, hends⟩, hexec, rfl⟩ := hstep
    obtain ⟨thread, action, reply⟩ := e
    cases haction
    obtain ⟨ok, -, heq⟩ := Option.map_eq_some_iff.mp hexec
    cases heq
    exact hends rfl

end

/-- The process was never started, or the last call was the cleanup. -/
def Closed (v : Seen) : Prop := v.state.child = .absent ∨ Cleaned v.trace

section

variable {size : Nat} {floats : Json.FloatText} {decimal : CodePoint → Option Nat} {v v' : Seen}
  {action : Action} {reply : action.Reply} {n : Nat}

theorem absent_kept (h : calls size v action reply v') (hpopen : action ≠ .popen)
    (habsent : v.state.child = .absent) : v'.state.child = .absent := by
  have hgone : Gone v := by
    rw [Gone, habsent]
    intro heq
    cases heq
  rw [child_kept h hpopen hgone, habsent]

theorem absent_of_popen (h : calls size v .popen false v') (habsent : v.state.child = .absent) :
    v'.state.child = .absent := by
  obtain ⟨choice, world, hcall, rfl⟩ := calls_cases h
  have hmoved : (v.state.moved choice).child = .absent := by
    show v.state.child.exit choice.exit = .absent
    rw [habsent]
    cases choice.exit <;> rfl
  cases hanswer : choice.answer with
  | failure =>
    simp only [Action.call, hanswer] at hcall
    cases hcall
    exact hmoved
  | _ =>
    simp only [Action.call, hanswer] at hcall
    cases hcall

theorem cleaned_finish (cidfile : Option Str) (v : Seen) :
    Ensures size (fun _ v => Cleaned v.trace) (fun _ v => Cleaned v.trace) v (finish cidfile) := by
  have hcleanup : ∀ v, Ensures size (fun _ v => Cleaned v.trace) (fun _ v => Cleaned v.trace) v
      (check (.cleanupInteractiveContainer cidfile) id (.internal "cleanup")) := by
    intro v
    refine ⟨trivial, fun cleaned v' hcall => ?_⟩
    have hlast : Cleaned v'.trace := by
      obtain ⟨choice, world, -, rfl⟩ := calls_cases hcall
      exact ⟨_, List.getLast?_concat, cidfile, rfl⟩
    cases cleaned <;> exact hlast
  refine ensures_act fun code v₁ _ => ?_
  cases code with
  | some code => exact hcleanup v₁
  | none =>
    refine Spec.bind ((ensures_terminate v₁).mono (fun _ _ _ => trivial) fun _ _ h => h.elim) ?_
    exact fun _ v _ => hcleanup v

theorem closed_interactive (io : RuntimeIO) (timeout : Option Nat) (timeoutOutput : Bytes)
    (cidfile : Option Str) (n : Nat) (habsent : v.state.child = .absent) :
    Ensures size (fun _ => Closed) (fun _ => Closed) v
      (runInteractiveArgv io timeout timeoutOutput cidfile n) := by
  refine ensures_check ?_ fun _ v₁ hcall _ => ?_
  · exact fun _ _ hcall _ => Or.inl (absent_kept hcall (fun heq => nomatch heq) habsent)
  have habsent₁ := absent_kept hcall (fun heq => nomatch heq) habsent
  refine ensures_check ?_ fun _ v₂ _ _ => ?_
  · intro started v₂ hpopen hfail
    cases (hfail : started = false)
    exact Or.inl (absent_of_popen hpopen habsent₁)
  refine Spec.bind ((ensures_deadline timeout v₂).mono (fun _ _ h => h) fun _ _ h => h.elim) ?_
  intro deadline v₃ _
  have hfinish : ∀ v, Ensures size (fun _ => Closed) (fun _ => Closed) v (finish cidfile) :=
    fun v => (cleaned_finish cidfile v).mono (fun _ _ h => Or.inr h) fun _ _ h => Or.inr h
  exact Spec.ensuring (ensures_trivial v₃ _) (fun _ v _ => hfinish v) fun _ v _ => hfinish v

/-- A session that has started its process ends with the cleanup. -/
theorem closed_session (timeout : Option Nat) (timeoutOutput : Bytes) (queue : Str) :
    Ensures size (fun _ => Closed) (fun _ => Closed)
      (start (session floats decimal timeout timeoutOutput n) ⟨queue, [], false⟩).view
      (session floats decimal timeout timeoutOutput n) := by
  have hread : ∀ v : Seen, v.state.child = .absent →
      Ensures size (fun _ v => v.state.child = .absent) (fun _ => Closed) v (readLine n) := by
    intro v habsent
    apply Spec.rounds (I := fun v => v.state.child = .absent) _ _ n habsent
    · exact fun v _ => ⟨trivial, fun reply => (nomatch reply)⟩
    · intro v habsent
      refine ensures_act fun progress v' hcall => ?_
      have habsent' := absent_kept hcall (fun heq => nomatch heq) habsent
      cases progress with
      | line text => exact habsent'
      | received => exact habsent'
  refine Spec.bind (hread _ rfl) fun text v habsent => ?_
  refine ensures_act fun cidfile v' hcall => ?_
  have habsent' := absent_kept hcall (fun heq => nomatch heq) habsent
  cases cidfile with
  | none => exact Or.inl habsent'
  | some cidfile =>
    exact closed_interactive _ timeout timeoutOutput (some cidfile) n habsent'

end

end AgentDev.Runtime
