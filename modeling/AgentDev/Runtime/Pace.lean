import AgentDev.Runtime.Delivery

/-!
# How often the connection is asked

A session on a terminal makes few calls between two calls on the connection, until it has been told that
the process has ended. So it cannot go on for long without asking whether there is something to read.
-/

namespace AgentDev.Runtime

open Interleaving Python

/-! ## Pauses -/

/-- The execution has been told that the process has ended. -/
def quits : Event Action.Reply → Bool
  | ⟨_, .poll, some _⟩ => true
  | _ => false

def Quits (trace : Trace) : Prop := ∃ e ∈ trace, quits e = true

/-- A call on the connection. -/
def touches (e : Event Action.Reply) : Bool :=
  match e.action with
  | .selectConn | .readline => true
  | _ => false

/-- How many calls there have been since the last one on the connection. -/
def pause (trace : Trace) : Nat := (trace.reverse.takeWhile fun e => !touches e).length

theorem pause_append (trace : Trace) (e : Event Action.Reply) :
    pause (trace ++ [e]) = if touches e then 0 else pause trace + 1 := by
  rw [pause, List.reverse_append, List.reverse_singleton, List.singleton_append, List.takeWhile_cons]
  cases touches e <;> rfl

/-- The longest pause. -/
def longest : Nat := 27

/-- The pause is not longer than this, as far as the process is known to run. -/
def Paced (b : Nat) (v : Seen) : Prop := Quits v.trace ∨ pause v.trace ≤ b

section

variable {size : Nat} {v v' : Seen} {action : Action} {reply : action.Reply} {b b' k : Nat}
  {α : Type}

theorem Paced.mono (hv : Paced b v) (hb : b ≤ b') : Paced b' v := hv.imp_right fun h => h.trans hb

theorem quits_call (h : calls size v action reply v') (hv : Quits v.trace) : Quits v'.trace := by
  obtain ⟨choice, world, -, rfl⟩ := calls_cases h
  obtain ⟨e, he, hquits⟩ := hv
  exact ⟨e, List.mem_append_left _ he, hquits⟩

theorem paced_call (h : calls size v action reply v') (hv : Paced b v) : Paced (b + 1) v' := by
  rcases hv with hquits | hpause
  · exact Or.inl (quits_call h hquits)
  · obtain ⟨choice, world, -, rfl⟩ := calls_cases h
    right
    rw [View.after, pause_append]
    split <;> omega

theorem paced_touch (h : calls size v action reply v') (htouch : touches ⟨0, action, reply⟩ = true) :
    Paced 0 v' := by
  obtain ⟨choice, world, -, rfl⟩ := calls_cases h
  right
  rw [View.after, pause_append, if_pos htouch]

/-- The pauses of the program are short enough. -/
abbrev Timely (size : Nat) (Q : α → Seen → Prop) (E : Error → Seen → Prop) (v : Seen)
    (body : Run α) : Prop := Spec (calls size) (fun v _ => Paced longest v) Q E v body

/-- When the process is known to have ended, nothing is asked for. -/
theorem timely_of_quits (size : Nat) (body : Run α) (hv : Quits v.trace) :
    Timely size (fun _ v => Quits v.trace) (fun _ v => Quits v.trace) v body := by
  induction body generalizing v with
  | ret value => exact hv
  | fail error => exact hv
  | act action rest ih => exact ⟨Or.inl hv, fun reply v' h => ih reply (quits_call h hv)⟩

theorem Paced.timely {p : Action → Prop} {body : Run α} (hv : Paced b v) (hbody : body.AtMost p k)
    (hk : b + k ≤ longest) : Timely size (fun _ => Paced (b + k)) (fun _ => Paced (b + k)) v body := by
  induction body generalizing v b k with
  | ret value => exact hv.mono (by omega)
  | fail error => exact hv.mono (by omega)
  | act action rest ih =>
    cases k with
    | zero => exact hbody.elim
    | succ k =>
      refine ⟨hv.mono (by omega), fun reply v' h => ?_⟩
      have hrest := ih reply (paced_call h hv) (hbody.2 reply) (by omega)
      rwa [show b + (k + 1) = b + 1 + k by omega]

end

/-! ## The connection -/

section

variable {size : Nat} {floats : Json.FloatText} {decimal : CodePoint → Option Nat} {v v' : Seen}
  {b n : Nat}

theorem atMost_writeOutput (data : Bytes) :
    ((rpcRuntimeIo floats decimal true n).writeOutput data).AtMost (fun _ => True) 1 := by
  show Program.AtMost _ (if data = [] then return () else
    check (.writeOutput data) id (.internal "sendall")) 1
  split
  · trivial
  · exact ⟨trivial, fun sent => by cases sent <;> trivial⟩

theorem timely_readLine (hv : Paced 0 v) :
    Timely size (fun _ => Paced 0) (fun _ => Paced 0) v (readLine n) := by
  apply Spec.rounds (I := Paced 0) _ _ n hv
  · exact fun v hv => ⟨hv.mono (Nat.zero_le _), fun reply => (nomatch reply)⟩
  · intro v hv
    refine ⟨hv.mono (Nat.zero_le _), fun progress v' hcall => ?_⟩
    have hpaced : Paced 0 v' := paced_touch hcall rfl
    cases progress with
    | line text => exact hpaced
    | received => exact hpaced

theorem timely_obeyNext (hv : Paced longest v) : Timely size (fun _ => Paced 7) (fun _ => Paced 7) v
    (obeyNext (rpcRuntimeIo floats decimal true n)) := by
  have hreceive : Timely size (fun _ => Paced 0) (fun _ => Paced 7) v
      (receiveControl floats decimal true n) := by
    refine ⟨hv, fun ready v' hcall => ?_⟩
    have hpaced : Paced 0 v' := paced_touch hcall rfl
    cases ready with
    | false => exact hpaced
    | true =>
      show Timely size _ _ v' (readLine n >>= answered floats decimal)
      refine Spec.bind ((timely_readLine hpaced).mono (fun _ _ h => h) fun _ _ h =>
        h.mono (Nat.zero_le 7)) fun text v h => ?_
      unfold answered
      cases frameControl floats decimal text with
      | ok control => exact h
      | error error => exact h.mono (Nat.zero_le 7)
  refine Spec.bind hreceive fun control v h => ?_
  cases control with
  | none => exact h.mono (Nat.zero_le 7)
  | some control =>
    exact h.timely (owns_obey control) (by decide)

/-! ## Sessions -/

theorem atMost_relayOutput (deadline : Option Nat) :
    (relayOutput (rpcRuntimeIo floats decimal true n) deadline).AtMost (fun _ => True) 4 := by
  refine (owns_selectTimeout deadline).any.bind (m := 3) fun timeout => ⟨trivial, fun ready => ?_⟩
  cases ready with
  | false => trivial
  | true =>
    refine ⟨trivial, fun data => ?_⟩
    show Program.AtMost _ (if data.getD [] ≠ [] then
      (rpcRuntimeIo floats decimal true n).writeOutput (data.getD []) else return ()) 1
    split
    · exact atMost_writeOutput _
    · trivial

/-- What is allowed of the pauses when the loop has ended; an execution that leaves it knows that the
process has ended. -/
def EndPaced : Ending → Seen → Prop
  | .exited, v => Quits v.trace
  | _, v => Paced 17 v

theorem timely_expire (timeoutOutput : Bytes) (hv : Paced 9 v) :
    Timely size EndPaced (fun _ => Paced 17) v
      (expire (rpcRuntimeIo floats decimal true n) timeoutOutput) := by
  have hterminate : ∀ v, Paced 10 v → Timely size EndPaced (fun _ => Paced 17) v
      (terminateProcessGroup >>= fun _ => return Ending.timedOut) :=
    fun v hv => Spec.bind (hv.timely owns_terminate (by decide)) fun _ _ h => h
  unfold expire
  split
  · have hwrite : Timely size (fun _ => Paced 10) (fun _ => Paced 10) v
        ((rpcRuntimeIo floats decimal true n).writeOutput timeoutOutput) :=
      hv.timely (atMost_writeOutput timeoutOutput) (by decide)
    refine Spec.bind (hwrite.mono (fun _ _ h => h) fun _ _ h => h.mono (by omega)) ?_
    exact fun _ v hv => hterminate v hv
  · exact hterminate v (hv.mono (by omega))

theorem timely_leave (hv : Paced 7 v) : Timely size (Round (Paced 8) EndPaced) (fun _ => Paced 17) v
    (leave (rpcRuntimeIo floats decimal true n) n) := by
  refine ⟨hv.mono (by decide), fun code v' hcall => ?_⟩
  cases code with
  | none => exact paced_call hcall hv
  | some code =>
    have hquits : Quits v'.trace := by
      obtain ⟨choice, world, -, rfl⟩ := calls_cases hcall
      exact ⟨_, List.mem_append_right _ List.mem_cons_self, rfl⟩
    show Timely size _ _ v' (loop (drainChunk (rpcRuntimeIo floats decimal true n)) n >>= fun _ =>
      return some Ending.exited)
    have hloop := timely_of_quits size
      (loop (drainChunk (rpcRuntimeIo floats decimal true n)) n) hquits
    exact Spec.bind (hloop.mono (fun _ _ h => h) fun _ _ h => Or.inl h) fun _ _ h => h

theorem timely_runRound (deadline : Option Nat) (timeoutOutput : Bytes) (hv : Paced 8 v) :
    Timely size (Round (Paced 8) EndPaced) (fun _ => Paced 17) v
      (runRound (rpcRuntimeIo floats decimal true n) deadline timeoutOutput n) := by
  have hover : Timely size (fun _ => Paced 9) (fun _ => Paced 9) v (isOver deadline) :=
    hv.timely (owns_isOver deadline) (by decide)
  refine Spec.bind (hover.mono (fun _ _ h => h) fun _ _ h => h.mono (by omega)) fun ended v hv => ?_
  cases ended with
  | true =>
    exact Spec.bind (timely_expire timeoutOutput hv) fun _ _ h => h
  | false =>
    have hrelay : Timely size (fun _ => Paced 13) (fun _ => Paced 13) v
        (relayOutput (rpcRuntimeIo floats decimal true n) deadline) :=
      hv.timely (atMost_relayOutput deadline) (by decide)
    refine Spec.bind (hrelay.mono (fun _ _ h => h) fun _ _ h => h.mono (by omega)) fun _ v hv => ?_
    have hobey : Timely size (fun _ => Paced 7) (fun _ => Paced 7) v
        (obeyNext (rpcRuntimeIo floats decimal true n)) := timely_obeyNext (hv.mono (by decide))
    refine Spec.bind (hobey.mono (fun _ _ h => h) fun _ _ h => h.mono (by omega)) fun ended v hv => ?_
    cases ended with
    | true => exact hv.mono (by omega)
    | false => exact timely_leave hv

/-- No pause of a session is longer than `longest`. -/
theorem timely_session (timeout : Option Nat) (timeoutOutput : Bytes) (queue : Str) :
    Timely size (fun _ => Paced longest) (fun _ => Paced longest)
      (start (session floats decimal timeout timeoutOutput n) ⟨queue, [], false⟩).view
      (session floats decimal timeout timeoutOutput n) := by
  have hread : Timely size (fun _ => Paced 0) (fun _ => Paced 0)
      (start (session floats decimal timeout timeoutOutput n) ⟨queue, [], false⟩).view (readLine n) :=
    timely_readLine (Or.inr (Nat.le_refl 0))
  have hearly : ∀ {α : Type} {b k : Nat} {body : Run α} {v : Seen}, Paced b v → Owns body k →
      b + k ≤ longest →
      Timely size (fun _ => Paced (b + k)) (fun _ => Paced longest) v body := by
    intro α b k body v hv hbody hk
    exact (hv.timely hbody hk).mono (fun _ _ h => h) fun _ _ h => h.mono hk
  refine Spec.bind (hread.mono (fun _ _ h => h) fun _ _ h => h.mono (by decide)) fun text v hv => ?_
  refine ⟨hv.mono (by decide), fun cidfile v' hcall => ?_⟩
  replace hv : Paced 1 v' := paced_call hcall hv
  cases cidfile with
  | none => exact hv.mono (by decide)
  | some cidfile =>
  show Timely size _ _ v' (runInteractiveArgv (rpcRuntimeIo floats decimal true n) timeout timeoutOutput
    (some cidfile) n)
  refine Spec.bind (hearly hv (owns_check rfl) (by decide)) fun _ v hv => ?_
  refine Spec.bind (hearly hv (owns_check rfl) (by decide)) fun _ v hv => ?_
  refine Spec.bind (hearly hv (owns_deadlineOf timeout) (by decide)) fun deadline v hv => ?_
  have hloop : Timely size EndPaced (fun _ => Paced 17) v
      (loop (runRound (rpcRuntimeIo floats decimal true n) deadline timeoutOutput n) n) := by
    apply Spec.rounds (I := Paced 8) _ _ n (hv.mono (by decide))
    · exact fun v hv => ⟨hv.mono (by decide), fun reply => (nomatch reply)⟩
    · exact fun v hv => timely_runRound deadline timeoutOutput hv
  have hfinish : ∀ v : Seen, Paced 18 v →
      Timely size (fun _ => Paced longest) (fun _ => Paced longest) v (finish (some cidfile)) :=
    fun v hv => hv.timely (owns_finish (some cidfile)) (Nat.le_refl _)
  have hbody : Timely size (fun _ => Paced 18) (fun _ => Paced 18) v
      (loop (runRound (rpcRuntimeIo floats decimal true n) deadline timeoutOutput n) n >>=
        fun ending => ending.code) := by
    refine Spec.bind (hloop.mono (fun _ _ h => h) fun _ _ h => h.mono (by omega)) fun ending v hv => ?_
    cases ending with
    | timedOut => exact Paced.mono hv (by omega)
    | cancelled => exact Paced.mono hv (by omega)
    | exited =>
      exact (timely_of_quits size waitCode hv).mono (fun _ _ h => Or.inl h) fun _ _ h => Or.inl h
  exact Spec.ensuring hbody (fun _ v hv => hfinish v hv) fun _ v hv => hfinish v hv

end

end AgentDev.Runtime
