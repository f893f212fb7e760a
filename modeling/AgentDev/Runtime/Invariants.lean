import AgentDev.Runtime.Podman

/-!
# What executions keep

The calls that an execution makes itself are its `own`; the others are those of the connection to the
client, of the locks and of the frames around the execution. What all own calls keep, and the
connection, the whole execution keeps (`safe_podman`). The conclusions are about any effects of the
calls.

An execution on a terminal that has obeyed a cancellation makes own calls only, and returns 130: so
there is a second invariant, for what is left to do then.
-/

namespace AgentDev.Runtime

open Interleaving Python

/-- Whether the execution makes the call itself. -/
def Action.own : Action → Bool
  | .writeOutput _ | .receiveControl | .selectConn | .readline | .send | .acquire | .release => false
  | _ => true

/-! ## Programs of own calls -/

section

variable {α : Type}

/-- There are at most so many calls, and all of them are own calls. -/
abbrev Owns (body : Run α) (k : Nat) : Prop := body.AtMost (fun action => action.own = true) k

theorem owns_act {action : Action} {next : action.Reply → Run α} {k : Nat}
    (haction : action.own = true) (hnext : ∀ reply, Owns (next reply) k) :
    Owns (act action >>= next) (k + 1) := ⟨haction, hnext⟩

theorem owns_check {action : Action} {ok : action.Reply → Bool} {error : Error}
    (haction : action.own = true) : Owns (check action ok error) 1 := by
  refine owns_act haction fun reply => ?_
  show Owns (if ok reply then return () else Program.fail error) 0
  split <;> trivial

theorem atMost_signalled {p : Action → Prop} (hkill : ∀ signal, p (.killpg signal))
    (hwait : ∀ timeout, p (.wait timeout)) (signal : Signal) (grace : Nat) :
    (signalled signal grace).AtMost p 2 := by
  refine ⟨hkill signal, fun sent => ?_⟩
  cases sent with
  | false => trivial
  | true => exact ⟨hwait (some grace), fun _ => trivial⟩

/-- To terminate the process takes at most so many calls, all of them on the process. -/
theorem atMost_terminate {p : Action → Prop} (hpoll : p .poll) (hkill : ∀ signal, p (.killpg signal))
    (hwait : ∀ timeout, p (.wait timeout)) : terminateProcessGroup.AtMost p 7 := by
  refine ⟨hpoll, fun code => ?_⟩
  cases code with
  | some code => trivial
  | none =>
    refine (atMost_signalled hkill hwait .int 2000).bind (m := 4) fun ended => ?_
    cases ended with
    | true => trivial
    | false =>
      refine (atMost_signalled hkill hwait .term 3000).bind (m := 2) fun ended => ?_
      cases ended with
      | true => trivial
      | false =>
        refine ⟨hkill .kill, fun sent => ?_⟩
        cases sent with
        | false => trivial
        | true => exact ⟨hwait none, fun _ => trivial⟩

theorem owns_terminate : Owns terminateProcessGroup 7 :=
  atMost_terminate rfl (fun _ => rfl) fun _ => rfl

theorem owns_obey (control : Control) : Owns (obey control) 7 := by
  cases control with
  | input data => exact owns_act rfl fun _ => trivial
  | resize rows cols => exact owns_act rfl fun _ => trivial
  | cancel => exact owns_terminate.bind (m := 0) fun _ => trivial

theorem owns_waitCode : Owns waitCode 1 := owns_act rfl fun _ => trivial

theorem owns_finish (cidfile : Option Str) : Owns (finish cidfile) 9 := by
  refine owns_act rfl fun code => ?_
  have hcleanup : Owns (check (.cleanupInteractiveContainer cidfile) id (.internal "cleanup")) 1 :=
    owns_check rfl
  cases code with
  | some code => exact hcleanup.mono (by omega)
  | none => exact owns_terminate.bind fun _ => hcleanup

theorem owns_deadlineOf (timeout : Option Nat) : Owns (deadlineOf timeout) 1 := by
  cases timeout with
  | none => trivial
  | some seconds => exact owns_act rfl fun _ => trivial

theorem owns_isOver (deadline : Option Nat) : Owns (isOver deadline) 1 := by
  cases deadline with
  | none => trivial
  | some time => exact owns_act rfl fun _ => trivial

theorem owns_selectTimeout (deadline : Option Nat) : Owns (selectTimeout deadline) 1 := by
  cases deadline with
  | none => trivial
  | some time => exact owns_act rfl fun _ => trivial

end

/-! ## Invariants -/

section

variable {X α β : Type} {effect : Effects Action.Reply X} {allowed : X → Action → Prop}
  {I J : X → Prop} {io : RuntimeIO} {x : X}

/-- Own calls are allowed, and keep the invariant. -/
structure Keeps (effect : Effects Action.Reply X) (allowed : X → Action → Prop) (I : X → Prop) :
    Prop where
  allowed : ∀ x action, I x → action.own = true → allowed x action
  kept : ∀ x action reply x', I x → action.own = true → effect x action reply x' → I x'

/-- The program keeps the invariant. -/
abbrev Safe (effect : Effects Action.Reply X) (allowed : X → Action → Prop) (I : X → Prop) (x : X)
    (body : Run α) : Prop := Spec effect allowed (fun _ => I) (fun _ => I) x body

/-- So does the connection to the client; when the execution has been cancelled, `J` holds. -/
structure RuntimeIO.Keeps (effect : Effects Action.Reply X) (allowed : X → Action → Prop)
    (I J : X → Prop) (io : RuntimeIO) : Prop where
  writeOutput : ∀ x data, I x → Safe effect allowed I x (io.writeOutput data)
  obeyNext : ∀ x, I x → Spec effect allowed (fun cancelled x => if cancelled then J x else I x)
    (fun _ x => I x ∨ J x) x (obeyNext io)

theorem Keeps.owns (hI : Keeps effect allowed I) {body : Run α} {k : Nat} (hbody : Owns body k)
    (hx : I x) : Safe effect allowed I x body := Spec.of_only hbody.only hI.allowed hI.kept hx

theorem Keeps.act (hI : Keeps effect allowed I) {action : Action} {next : action.Reply → Run α}
    {Q : α → X → Prop} {E : Error → X → Prop} (haction : action.own = true)
    (hnext : ∀ reply x, I x → Spec effect allowed Q E x (next reply)) (hx : I x) :
    Spec effect allowed Q E x (act action >>= next) :=
  ⟨hI.allowed x action hx haction, fun reply x' heffect =>
    hnext reply x' (hI.kept x action reply x' hx haction heffect)⟩

/-- The rule for loops whose rounds keep the invariant. -/
theorem Keeps.loop (hI : Keeps effect allowed I) {Q : α → X → Prop} {E : Error → X → Prop}
    {body : Run (Option α)} (hbody : ∀ x, I x → Spec effect allowed (Round I Q) E x body) (n : Nat)
    (hx : I x) : Spec effect allowed Q E x (loop body n) := by
  refine Spec.rounds (fun x hx => ?_) hbody n hx
  exact ⟨hI.allowed x .unfinished hx rfl, fun reply => (nomatch reply)⟩

/-! ## Executions without a terminal -/

theorem safe_relayChunk (hI : Keeps effect allowed I) (hio : io.Keeps effect allowed I J) (hx : I x) :
    Safe effect allowed I x (relayChunk io) := by
  refine hI.act rfl (fun chunk x hx => ?_) hx
  show Safe effect allowed I x (if chunk = [] then return some () else
    io.writeOutput chunk >>= fun _ => return none)
  split
  · exact hx
  · exact Spec.bind (hio.writeOutput x chunk hx) fun _ _ hx => hx

theorem safe_noninteractive (hI : Keeps effect allowed I) (hio : io.Keeps effect allowed I J)
    (n : Nat) (hx : I x) : Safe effect allowed I x (runNoninteractiveArgv io n) := by
  refine Spec.bind (hI.owns (owns_check rfl) hx) fun _ x hx => ?_
  have hloop : Safe effect allowed I x (loop (relayChunk io) n) := by
    refine hI.loop (fun x hx => ?_) n hx
    refine (safe_relayChunk hI hio hx).mono (fun result x hx => ?_) fun _ _ hx => hx
    cases result <;> exact hx
  exact hloop.bind fun _ x hx => hI.owns owns_waitCode hx

/-! ## Executions on a terminal -/

/-- What holds when the loop has ended. -/
def AtEnd (I J : X → Prop) : Ending → X → Prop
  | .cancelled => J
  | _ => I

theorem safe_expire (hI : Keeps effect allowed I) (hio : io.Keeps effect allowed I J)
    (timeoutOutput : Bytes) (hx : I x) :
    Spec effect allowed (AtEnd I J) (fun _ => I) x (expire io timeoutOutput) := by
  have hterminate : ∀ x, I x → Spec effect allowed (AtEnd I J) (fun _ => I) x
      (terminateProcessGroup >>= fun _ => return Ending.timedOut) :=
    fun x hx => (hI.owns owns_terminate hx).bind fun _ _ hx => hx
  unfold expire
  split
  · exact (hio.writeOutput x _ hx).bind fun _ x hx => hterminate x hx
  · exact hterminate x hx

theorem safe_relayOutput (hI : Keeps effect allowed I) (hio : io.Keeps effect allowed I J)
    (deadline : Option Nat) (hx : I x) : Safe effect allowed I x (relayOutput io deadline) := by
  refine Spec.bind (hI.owns (owns_selectTimeout deadline) hx) fun timeout x hx => ?_
  refine hI.act rfl (fun ready x hx => ?_) hx
  cases ready with
  | false => exact hx
  | true =>
    refine hI.act rfl (fun data x hx => ?_) hx
    show Safe effect allowed I x (if data.getD [] ≠ [] then io.writeOutput (data.getD [])
      else return ())
    split
    · exact hio.writeOutput x _ hx
    · exact hx

theorem safe_drainChunk (hI : Keeps effect allowed I) (hio : io.Keeps effect allowed I J) (hx : I x) :
    Safe effect allowed I x (drainChunk io) := by
  refine hI.act rfl (fun data x hx => ?_) hx
  show Safe effect allowed I x (if data.getD [] = [] then return some () else
    io.writeOutput (data.getD []) >>= fun _ => return none)
  split
  · exact hx
  · exact Spec.bind (hio.writeOutput x _ hx) fun _ _ hx => hx

theorem safe_leave (hI : Keeps effect allowed I) (hio : io.Keeps effect allowed I J) (n : Nat)
    (hx : I x) :
    Spec effect allowed (Round I (AtEnd I J)) (fun _ => I) x (leave io n) := by
  refine hI.act rfl (fun code x hx => ?_) hx
  cases code with
  | none => exact hx
  | some code =>
    have hloop : Safe effect allowed I x (loop (drainChunk io) n) := by
      refine hI.loop (fun x hx => ?_) n hx
      refine (safe_drainChunk hI hio hx).mono (fun result x hx => ?_) fun _ _ hx => hx
      cases result <;> exact hx
    exact hloop.bind fun _ _ hx => hx

/-- What may hold after an exception. -/
theorem Safe.failing {body : Run α} (h : Safe effect allowed I x body) :
    Spec effect allowed (fun _ => I) (fun _ x => I x ∨ J x) x body :=
  h.mono (fun _ _ hx => hx) fun _ _ hx => Or.inl hx

theorem safe_runRound (hI : Keeps effect allowed I) (hio : io.Keeps effect allowed I J)
    (deadline : Option Nat) (timeoutOutput : Bytes) (n : Nat) (hx : I x) :
    Spec effect allowed (Round I (AtEnd I J)) (fun _ x => I x ∨ J x) x
      (runRound io deadline timeoutOutput n) := by
  refine Spec.bind (hI.owns (owns_isOver deadline) hx).failing fun ended x hx => ?_
  cases ended with
  | true =>
    have hexpire := safe_expire hI hio timeoutOutput hx
    refine Spec.bind (hexpire.mono (fun _ _ hx => hx) fun _ _ hx => Or.inl hx) ?_
    exact fun _ _ hx => hx
  | false =>
    refine Spec.bind (safe_relayOutput hI hio deadline hx).failing fun _ x hx => ?_
    refine Spec.bind (hio.obeyNext x hx) fun cancelled x hx => ?_
    cases cancelled with
    | true => exact hx
    | false => exact (safe_leave hI hio n hx).mono (fun _ _ hx => hx) fun _ _ hx => Or.inl hx

theorem safe_interactive (hI : Keeps effect allowed I) (hJ : Keeps effect allowed J)
    (hio : io.Keeps effect allowed I J) (timeout : Option Nat) (timeoutOutput : Bytes)
    (cidfile : Option Str) (n : Nat) (hx : I x) :
    Spec effect allowed (fun code x => I x ∨ J x ∧ code = 130) (fun _ x => I x ∨ J x) x
      (runInteractiveArgv io timeout timeoutOutput cidfile n) := by
  refine Spec.bind (hI.owns (owns_check rfl) hx).failing fun _ x hx => ?_
  refine Spec.bind (hI.owns (owns_check rfl) hx).failing fun _ x hx => ?_
  refine Spec.bind (hI.owns (owns_deadlineOf timeout) hx).failing fun deadline x hx => ?_
  have hloop : Spec effect allowed (AtEnd I J) (fun _ x => I x ∨ J x) x
      (loop (runRound io deadline timeoutOutput n) n) :=
    hI.loop (fun x hx => safe_runRound hI hio deadline timeoutOutput n hx) n hx
  have hbody : Spec effect allowed (fun code x => I x ∨ J x ∧ code = 130) (fun _ x => I x ∨ J x) x
      (loop (runRound io deadline timeoutOutput n) n >>= fun ending => ending.code) := by
    refine Spec.bind hloop fun ending x hx => ?_
    cases ending with
    | timedOut => exact Or.inl hx
    | cancelled => exact Or.inr ⟨hx, rfl⟩
    | exited =>
      exact (hI.owns owns_waitCode hx).mono (fun _ _ hx => Or.inl hx) fun _ _ hx => Or.inl hx
  -- The `finally` block makes own calls, so each of the two invariants stays.
  refine Spec.ensuring hbody (fun code x hx => ?_) fun _ x hx => ?_
  · rcases hx with hx | ⟨hx, hcode⟩
    · exact (hI.owns (owns_finish cidfile) hx).mono (fun _ _ hx => Or.inl hx) fun _ _ hx => Or.inl hx
    · exact (hJ.owns (owns_finish cidfile) hx).mono (fun _ _ hx => Or.inr ⟨hx, hcode⟩)
        fun _ _ hx => Or.inr hx
  · rcases hx with hx | hx
    · exact (hI.owns (owns_finish cidfile) hx).mono (fun _ _ hx => Or.inl hx) fun _ _ hx => Or.inl hx
    · exact (hJ.owns (owns_finish cidfile) hx).mono (fun _ _ hx => Or.inr hx) fun _ _ hx => Or.inr hx

theorem safe_podman (hI : Keeps effect allowed I) (hJ : Keeps effect allowed J)
    (hio : io.Keeps effect allowed I J) (interactive : Bool) (timeout : Option Nat)
    (timeoutOutput : Bytes) (n : Nat) (hx : I x) :
    Spec effect allowed (fun code x => I x ∨ J x ∧ code = 130) (fun _ x => I x ∨ J x) x
      (runPodmanArgv io interactive timeout timeoutOutput n) := by
  cases interactive with
  | true =>
    refine hI.act rfl (fun cidfile x hx => ?_) hx
    cases cidfile with
    | none => exact Or.inl hx
    | some cidfile => exact safe_interactive hI hJ hio timeout timeoutOutput (some cidfile) n hx
  | false =>
    cases timeout with
    | some seconds => exact Or.inl hx
    | none =>
      exact (safe_noninteractive hI hio n hx).mono (fun _ _ hx => Or.inl hx)
        fun _ _ hx => Or.inl hx

end

end AgentDev.Runtime
