import AgentDev.Runtime.Invariants
import AgentDev.Runtime.Termination

/-!
# What an execution on a terminal hands on

The loop of `run_interactive_argv` waits for the terminal, the client, the clock and the process, and
what comes first decides how it ends. An observer of its calls keeps a `Log` of the bytes and a `Watch`
of the decision: however the execution ends, the output has been handed on as it was read, the input as
it was received, and the container has been cleaned up once (`interactive_relayed`).

After the decision only few calls are made.
-/

namespace AgentDev.Runtime

open Interleaving Python

/-! ## The observer -/

structure Log where
  /-- What was read from the terminal. -/
  read : Bytes := []
  /-- What `write_output` was called with. -/
  handed : Bytes := []
  /-- The data of the input events. -/
  inputs : List Bytes := []
  /-- What was written to the terminal, and whether it took it. -/
  typed : List (Bytes × Bool) := []
  /-- The cidfiles of the cleanups. -/
  cleanups : List (Option Str) := []
  started : Bool := false

def Log.next (log : Log) : Event Action.Reply → Log
  | ⟨_, .popen, true⟩ => { log with started := true }
  | ⟨_, .readMaster, reply⟩ => { log with read := log.read ++ reply.getD [] }
  | ⟨_, .writeOutput data, _⟩ => { log with handed := log.handed ++ data }
  | ⟨_, .receiveControl, some (some (.input data))⟩ => { log with inputs := log.inputs ++ [data] }
  | ⟨_, .writeMaster data, taken⟩ => { log with typed := log.typed ++ [(data, taken)] }
  | ⟨_, .cleanupInteractiveContainer cidfile, _⟩ =>
    { log with cleanups := log.cleanups ++ [cidfile] }
  | _ => log

structure Watch where
  deadline : Option Nat := none
  /-- The clock has been read for the test of this round. -/
  tested : Bool := false
  /-- What came first: the deadline, a cancellation, or the observed end of the process. -/
  decision : Option Ending := none
  /-- The terminal had no more output after that end. -/
  drained : Bool := false
  /-- The calls after everything was settled. -/
  late : Nat := 0

/-- Nothing is waited for any more. -/
def Watch.settled (w : Watch) : Bool :=
  w.drained || match w.decision with
    | some .timedOut | some .cancelled => true
    | _ => false

def Watch.hasExited (w : Watch) : Bool :=
  match w.decision with
  | some .exited => true
  | _ => false

def Watch.decide (w : Watch) (ending : Ending) : Watch :=
  { w with decision := w.decision.or (some ending) }

/-- The first reading of the clock sets the deadline, and the first one of a round is the test. -/
def Watch.tell (w : Watch) (timeout : Option Nat) (now : Nat) : Watch :=
  match w.deadline with
  | none => { w with deadline := timeout.map (now + ·) }
  | some time =>
    if w.tested then w
    else if time ≤ now then { w with tested := true }.decide .timedOut
    else { w with tested := true }

def Watch.see (timeout : Option Nat) (w : Watch) : Event Action.Reply → Watch
  | ⟨_, .monotonic, now⟩ => w.tell timeout now
  | ⟨_, .selectMaster _, _⟩ => { w with tested := false }
  | ⟨_, .receiveControl, some (some .cancel)⟩ => w.decide .cancelled
  | ⟨_, .poll, some _⟩ => w.decide .exited
  | ⟨_, .readMaster, reply⟩ => if w.hasExited && reply.getD [] = [] then { w with drained := true } else w
  | _ => w

def Watch.next (timeout : Option Nat) (w : Watch) (e : Event Action.Reply) : Watch :=
  { w.see timeout e with late := if w.settled then w.late + 1 else w.late }

def logOf (trace : List (Event Action.Reply)) : Log := trace.foldl Log.next {}

def watchOf (timeout : Option Nat) (trace : List (Event Action.Reply)) : Watch :=
  trace.foldl (Watch.next timeout) {}

/-! ## Calls -/

section

variable {size : Nat} {timeout : Option Nat} {v v' : Seen} {action : Action} {reply : action.Reply}

theorem log_call (h : calls size v action reply v') :
    logOf v'.trace = (logOf v.trace).next ⟨0, action, reply⟩ := by
  obtain ⟨choice, world, -, rfl⟩ := calls_cases h
  rw [View.after, logOf, List.foldl_append]
  rfl

theorem watch_call (h : calls size v action reply v') :
    watchOf timeout v'.trace = (watchOf timeout v.trace).next timeout ⟨0, action, reply⟩ := by
  obtain ⟨choice, world, -, rfl⟩ := calls_cases h
  rw [View.after, watchOf, List.foldl_append]
  rfl

end

section

variable {size : Nat} {v v' : Seen} {action : Action} {reply : action.Reply} {code : Int}

theorem exited_kept (h : calls size v action reply v') (hpopen : action ≠ .popen)
    (hchild : v.state.child = .exited code) : v'.state.child = .exited code := by
  have hgone : Gone v := by
    rw [Gone, hchild]
    intro heq
    cases heq
  rw [child_kept h hpopen hgone, hchild]

theorem exited_of_poll (h : calls size v .poll (some code) v') : v'.state.child = .exited code := by
  obtain ⟨choice, world, hcall, rfl⟩ := calls_cases h
  obtain ⟨hcode, rfl⟩ := Prod.mk.inj (Option.some.inj hcall)
  show (v.state.moved choice).child = .exited code
  cases hchild : (v.state.moved choice).child with
  | exited code' =>
    rw [hchild] at hcode
    cases hcode
    rfl
  | _ =>
    rw [hchild] at hcode
    cases hcode

theorem wait_exited {timeout : Option Nat} {reply : Option Int} (h : calls size v (.wait timeout) reply v')
    (hchild : v.state.child = .exited code) : reply = some code := by
  obtain ⟨choice, world, hcall, rfl⟩ := calls_cases h
  have hmoved : (v.state.moved choice).child = .exited code := by
    show v.state.child.exit choice.exit = _
    rw [hchild]
    cases choice.exit <;> rfl
  simp only [Action.call, hmoved] at hcall
  cases timeout <;> cases hcall <;> rfl

end

/-! ## What holds on the way -/

/-- What is handed on after the output of the terminal. -/
def outputFor (timeoutOutput : Bytes) : Option Ending → Bytes
  | some .timedOut => timeoutOutput
  | _ => []

/-- All that was read has been handed on, and then `extra`, and all inputs have been typed. -/
structure Log.Even (log : Log) (extra : Bytes) : Prop where
  output : log.handed = log.read ++ extra
  input : log.typed.map Prod.fst = log.inputs
  cleanups : log.cleanups = []
  started : log.started = true

/-- The observer is where `w` says, nothing is pending, and the process has ended if `exit` says so. -/
structure At (timeout : Option Nat) (w : Watch) (exit : Option Int) (v : Seen) : Prop where
  watch : watchOf timeout v.trace = w
  log : (logOf v.trace).Even []
  child : ∀ code ∈ exit, v.state.child = .exited code

/-- How the execution ends has been decided; `late` bounds the calls since everything was settled. -/
structure Decided (timeout : Option Nat) (timeoutOutput : Bytes) (ending : Ending) (late : Nat)
    (v : Seen) : Prop where
  decision : (watchOf timeout v.trace).decision = some ending
  log : (logOf v.trace).Even (outputFor timeoutOutput (some ending))
  late : (watchOf timeout v.trace).late ≤ late
  exit : ending = .exited → (watchOf timeout v.trace).drained = true ∧
    ∃ code, v.state.child = .exited code

/-- A call of the client has raised. -/
structure Raised (timeout : Option Nat) (timeoutOutput : Bytes) (late : Nat) (v : Seen) : Prop where
  log : (logOf v.trace).Even (outputFor timeoutOutput (watchOf timeout v.trace).decision)
  late : (watchOf timeout v.trace).late ≤ late

/-- Few calls are made when nothing is waited for any more, and the loops have ended. -/
def Lively (timeout : Option Nat) (v : Seen) (action : Action) : Prop :=
  (watchOf timeout v.trace).settled = true →
    action ≠ .unfinished ∧ (watchOf timeout v.trace).late < 20

abbrev Watched {α : Type} (size : Nat) (timeout : Option Nat) (Q : α → Seen → Prop)
    (E : Error → Seen → Prop) (v : Seen) (body : Run α) : Prop :=
  Spec (calls size) (Lively timeout) Q E v body

/-! ## Calls on the process -/

/-- The calls of `terminate_process_group`. -/
def Action.quiet : Action → Bool
  | .poll | .wait _ | .killpg _ => true
  | _ => false

section

variable {size : Nat} {timeout : Option Nat} {timeoutOutput : Bytes} {v v' : Seen} {action : Action}
  {reply : action.Reply} {ending : Ending} {late late' : Nat} {α : Type}

theorem log_quiet (hquiet : action.quiet = true) (log : Log) :
    log.next ⟨0, action, reply⟩ = log := by
  cases action <;> first | rfl | cases hquiet

/-- The end of the process may have been observed. -/
theorem watch_quiet_call (h : calls size v action reply v') (hquiet : action.quiet = true) :
    ((watchOf timeout v'.trace).decision = (watchOf timeout v.trace).decision ∨
      (watchOf timeout v'.trace).decision = (watchOf timeout v.trace).decision.or (some .exited)) ∧
    (watchOf timeout v'.trace).drained = (watchOf timeout v.trace).drained ∧
    (watchOf timeout v'.trace).late ≤ (watchOf timeout v.trace).late + 1 := by
  rw [watch_call h]
  generalize watchOf timeout v.trace = w
  have hlate : (if w.settled then w.late + 1 else w.late) ≤ w.late + 1 := by
    split <;> omega
  cases action with
  | poll =>
    cases reply with
    | none => exact ⟨Or.inl rfl, rfl, hlate⟩
    | some code => exact ⟨Or.inr rfl, rfl, hlate⟩
  | wait timeout => exact ⟨Or.inl rfl, rfl, hlate⟩
  | killpg signal => exact ⟨Or.inl rfl, rfl, hlate⟩
  | _ => cases hquiet

theorem decided_quiet (h : calls size v action reply v') (hquiet : action.quiet = true)
    (hv : Decided timeout timeoutOutput ending late v) :
    Decided timeout timeoutOutput ending (late + 1) v' := by
  obtain ⟨hdecision, hdrained, hlate⟩ := watch_quiet_call h hquiet
  constructor
  · rcases hdecision with heq | heq
    · rw [heq, hv.decision]
    · rw [heq, hv.decision]
      rfl
  · rw [log_call h, log_quiet hquiet]
    exact hv.log
  · exact hlate.trans (Nat.succ_le_succ hv.late)
  · intro hexited
    obtain ⟨hdrained', code, hchild⟩ := hv.exit hexited
    refine ⟨hdrained.trans hdrained', code, ?_⟩
    have hpopen : action ≠ .popen := by
      rintro rfl
      cases hquiet
    exact exited_kept h hpopen hchild

theorem raised_quiet (h : calls size v action reply v') (hquiet : action.quiet = true)
    (hv : Raised timeout timeoutOutput late v) : Raised timeout timeoutOutput (late + 1) v' := by
  obtain ⟨hdecision, -, hlate⟩ := watch_quiet_call h hquiet
  constructor
  · have houtput : outputFor timeoutOutput (watchOf timeout v'.trace).decision =
        outputFor timeoutOutput (watchOf timeout v.trace).decision := by
      rcases hdecision with heq | heq
      · rw [heq]
      · rw [heq]
        cases (watchOf timeout v.trace).decision <;> rfl
    rw [houtput, log_call h, log_quiet hquiet]
    exact hv.log
  · exact hlate.trans (Nat.succ_le_succ hv.late)

/-- What counts the calls that are late is kept by few quiet calls. -/
theorem watched_quiet {I : Nat → Seen → Prop} (hlate : ∀ b v, I b v → (watchOf timeout v.trace).late ≤ b)
    (hmono : ∀ b b' v, b ≤ b' → I b v → I b' v)
    (hstep : ∀ b v v' (action : Action) (reply : action.Reply), action.quiet = true →
      calls size v action reply v' → I b v → I (b + 1) v')
    {body : Run α} {k b : Nat} (hbody : body.AtMost (fun action => action.quiet = true) k)
    (hk : b + k ≤ 20) (hv : I b v) :
    Watched size timeout (fun _ => I (b + k)) (fun _ => I (b + k)) v body := by
  induction body generalizing v b k with
  | ret value => exact hmono _ _ _ (Nat.le_add_right b k) hv
  | fail error => exact hmono _ _ _ (Nat.le_add_right b k) hv
  | act action rest ih =>
    cases k with
    | zero => exact hbody.elim
    | succ k =>
      refine ⟨?_, fun reply v' h => ?_⟩
      · intro _
        refine ⟨?_, ?_⟩
        · rintro rfl
          cases hbody.1
        · exact lt_of_le_of_lt (hlate b v hv) (by omega)
      · have hrest := ih reply (hbody.2 reply) (b := b + 1) (by omega) (hstep b v v' _ reply hbody.1 h hv)
        rwa [show b + (k + 1) = b + 1 + k by omega]

theorem terminate_quiet : terminateProcessGroup.AtMost (fun action => action.quiet = true) 7 :=
  atMost_terminate rfl (fun _ => rfl) fun _ => rfl

theorem watched_decided {body : Run α} {k : Nat} (hbody : body.AtMost (fun action => action.quiet = true) k)
    (hk : late + k ≤ 20) (hv : Decided timeout timeoutOutput ending late v) :
    Watched size timeout (fun _ => Decided timeout timeoutOutput ending (late + k))
      (fun _ => Decided timeout timeoutOutput ending (late + k)) v body :=
  watched_quiet (I := fun b v => Decided timeout timeoutOutput ending b v) (fun _ _ hv => hv.late)
    (fun _ _ _ hle hv => { hv with late := hv.late.trans hle })
    (fun _ _ _ _ _ hquiet h hv => decided_quiet h hquiet hv) hbody hk hv

/-! ## Before the decision -/

variable {w : Watch} {exit : Option Int}

theorem At.lively (hv : At timeout w exit v) (hw : w.settled = false) (action : Action) :
    Lively timeout v action := by
  intro hsettled
  rw [hv.watch, hw] at hsettled
  cases hsettled

theorem At.raised {b : Nat} (hv : At timeout w exit v)
    (houtput : outputFor timeoutOutput w.decision = []) (hlate : w.late ≤ b) :
    Raised timeout timeoutOutput b v := by
  constructor
  · rw [hv.watch, houtput]
    exact hv.log
  · rw [hv.watch]
    exact hlate

/-- A call that the log does not mind. -/
theorem At.call (hv : At timeout w exit v) (h : calls size v action reply v') (hpopen : action ≠ .popen)
    (hlog : ∀ log : Log, log.next ⟨0, action, reply⟩ = log) :
    At timeout (w.next timeout ⟨0, action, reply⟩) exit v' := by
  constructor
  · rw [watch_call h, hv.watch]
  · rw [log_call h, hlog]
    exact hv.log
  · exact fun code hcode => exited_kept h hpopen (hv.child code hcode)

/-- The loop waits. -/
def pending (deadline : Option Nat) (tested : Bool) : Watch := { deadline := deadline, tested := tested }

/-- The deadline has passed. -/
def expired (deadline : Option Nat) : Watch := { pending deadline true with decision := some .timedOut }

theorem watched_isOver (deadline : Option Nat) (hv : At timeout (pending deadline false) exit v) :
    Watched size timeout (fun ended v => if ended then At timeout (expired deadline) exit v
      else At timeout (pending deadline deadline.isSome) exit v) (fun _ _ => False) v (isOver deadline) := by
  cases deadline with
  | none => exact hv
  | some time =>
    refine ⟨hv.lively rfl _, fun now v' h => ?_⟩
    have hcall := hv.call h nofun fun _ => rfl
    by_cases hover : time ≤ now
    · have hwatch : (pending (some time) false).next timeout ⟨0, .monotonic, now⟩ = expired (some time) := by
        simp [Watch.next, Watch.see, Watch.tell, Watch.decide, Watch.settled, pending, expired, hover]
      rw [hwatch] at hcall
      show if decide (time ≤ now) = true then _ else _
      rw [if_pos (decide_eq_true hover)]
      exact hcall
    · have hwatch : (pending (some time) false).next timeout ⟨0, .monotonic, now⟩ = pending (some time) true := by
        simp [Watch.next, Watch.see, Watch.tell, Watch.settled, pending, hover]
      rw [hwatch] at hcall
      show if decide (time ≤ now) = true then _ else _
      rw [if_neg (by simp [hover])]
      exact hcall

theorem watched_selectTimeout (deadline : Option Nat)
    (hv : At timeout (pending deadline deadline.isSome) exit v) :
    Watched size timeout (fun _ => At timeout (pending deadline deadline.isSome) exit) (fun _ _ => False) v
      (selectTimeout deadline) := by
  cases deadline with
  | none => exact hv
  | some time => exact ⟨hv.lively rfl _, fun now v' h => hv.call h nofun fun _ => rfl⟩

/-- What has just been read is handed on. -/
theorem watched_writeOutput {data : Bytes} {log : Log} (hw : w.settled = false)
    (hnext : ∀ reply, w.next timeout ⟨0, .writeOutput data, reply⟩ = w)
    (hwatch : watchOf timeout v.trace = w) (hlog : log.Even [])
    (hread : logOf v.trace = { log with read := log.read ++ data })
    (hchild : ∀ code ∈ exit, v.state.child = .exited code) :
    Watched size timeout (fun _ => At timeout w exit) (fun _ => At timeout w exit) v <|
      anyIO.writeOutput data := by
  have hkept : ∀ reply v', calls size v (.writeOutput data) reply v' → At timeout w exit v' := by
    intro reply v' h
    constructor
    · rw [watch_call h, hwatch, hnext]
    · rw [log_call h, hread]
      refine ⟨?_, hlog.input, hlog.cleanups, hlog.started⟩
      show log.handed ++ data = log.read ++ data ++ []
      rw [hlog.output, List.append_nil, List.append_nil]
    · exact fun code hcode => exited_kept h nofun (hchild code hcode)
  refine ⟨?_, fun reply v' h => ?_⟩
  · intro hsettled
    rw [hwatch, hw] at hsettled
    cases hsettled
  · cases reply with
    | true => exact hkept true v' h
    | false => exact hkept false v' h

theorem watched_relayData (deadline : Option Nat) (hv : At timeout (pending deadline false) exit v) :
    Watched size timeout (fun _ => At timeout (pending deadline false) exit)
      (fun _ => At timeout (pending deadline false) exit) v (relayData anyIO) := by
  refine ⟨hv.lively rfl _, fun reply v' h => ?_⟩
  have hwatch : watchOf timeout v'.trace = pending deadline false := by
    rw [watch_call h, hv.watch]
    rfl
  have hread : logOf v'.trace = { logOf v.trace with
      read := (logOf v.trace).read ++ reply.getD [] } := log_call h
  have hchild : ∀ code ∈ exit, v'.state.child = .exited code :=
    fun code hcode => exited_kept h nofun (hv.child code hcode)
  show Watched size timeout _ _ v' (if reply.getD [] ≠ [] then anyIO.writeOutput (reply.getD [])
    else return ())
  by_cases hempty : reply.getD [] = []
  · rw [if_neg (not_not.mpr hempty)]
    rw [hempty, List.append_nil] at hread
    exact ⟨hwatch, hread ▸ hv.log, hchild⟩
  · rw [if_pos hempty]
    exact watched_writeOutput rfl (fun _ => rfl) hwatch hv.log hread hchild

theorem watched_relayOutput (deadline : Option Nat)
    (hv : At timeout (pending deadline deadline.isSome) exit v) :
    Watched size timeout (fun _ => At timeout (pending deadline false) exit)
      (fun _ => At timeout (pending deadline false) exit) v (relayOutput anyIO deadline) := by
  refine Spec.bind ((watched_selectTimeout deadline hv).mono (fun _ _ h => h) fun _ _ h => h.elim)
    fun seconds v₁ hv₁ => ?_
  refine ⟨hv₁.lively rfl _, fun ready v₂ h => ?_⟩
  have hv₂ : At timeout (pending deadline false) exit v₂ := hv₁.call h nofun fun _ => rfl
  cases ready with
  | false => exact hv₂
  | true => exact watched_relayData deadline hv₂

/-! ## Controls -/

theorem Decided.raised (hv : Decided timeout timeoutOutput ending late v) :
    Raised timeout timeoutOutput late v := ⟨hv.decision ▸ hv.log, hv.late⟩

/-- When it has been decided how the execution ends, the process is terminated. -/
theorem watched_terminate (hlate : late ≤ 1) (hv : Decided timeout timeoutOutput ending late v) :
    Watched size timeout (fun _ => Decided timeout timeoutOutput ending 8)
      (fun _ => Raised timeout timeoutOutput 8) v terminateProcessGroup := by
  have hmore : Decided timeout timeoutOutput ending 1 v := { hv with late := hv.late.trans hlate }
  exact (watched_decided terminate_quiet (by omega) hmore).mono (fun _ _ h => h) fun _ _ h => h.raised

theorem watched_obey (deadline : Option Nat) (control : Control)
    (hwatch : watchOf timeout v.trace = (pending deadline false).next timeout
      ⟨0, .receiveControl, some (some control)⟩)
    {log : Log} (hlog : log.Even [])
    (hreceived : logOf v.trace = log.next ⟨0, .receiveControl, some (some control)⟩) :
    Watched size timeout (fun cancelled v => if cancelled then Decided timeout timeoutOutput .cancelled 8 v
      else At timeout (pending deadline false) none v) (fun _ => Raised timeout timeoutOutput 8) v
      (obey control) := by
  cases control with
  | input data =>
    refine ⟨?_, fun taken v' h => ?_⟩
    · intro hsettled
      rw [hwatch] at hsettled
      cases hsettled
    · constructor
      · rw [watch_call h, hwatch]
        rfl
      · rw [log_call h, hreceived]
        refine ⟨hlog.output, ?_, hlog.cleanups, hlog.started⟩
        show (log.typed ++ [(data, taken)]).map Prod.fst = log.inputs ++ [data]
        rw [List.map_append, hlog.input]
        rfl
      · exact nofun
  | resize rows cols =>
    have hv : At timeout (pending deadline false) none v := ⟨hwatch, hreceived ▸ hlog, nofun⟩
    exact ⟨hv.lively rfl _, fun reply v' h => hv.call h nofun fun _ => rfl⟩
  | cancel =>
    have hv : Decided timeout timeoutOutput .cancelled 0 v := by
      constructor
      · rw [hwatch]
        rfl
      · rw [hreceived]
        exact hlog
      · rw [hwatch]
        exact le_refl 0
      · exact nofun
    exact Spec.bind (watched_terminate (Nat.zero_le 1) hv) fun _ v h => h

theorem watched_obeyNext (deadline : Option Nat) (hv : At timeout (pending deadline false) none v) :
    Watched size timeout (fun cancelled v => if cancelled then Decided timeout timeoutOutput .cancelled 8 v
      else At timeout (pending deadline false) none v) (fun _ => Raised timeout timeoutOutput 8) v
      (obeyNext anyIO) := by
  refine ⟨hv.lively rfl _, fun reply v' h => ?_⟩
  cases reply with
  | none =>
    have hv' : At timeout (pending deadline false) none v' := hv.call h nofun fun _ => rfl
    exact hv'.raised rfl (Nat.zero_le 8)
  | some received =>
    cases received with
    | none => exact hv.call h nofun fun _ => rfl
    | some control =>
      have hwatch : watchOf timeout v'.trace = (pending deadline false).next timeout
          ⟨0, .receiveControl, some (some control)⟩ := by
        rw [watch_call h, hv.watch]
      exact watched_obey deadline control hwatch hv.log (log_call h)

/-! ## The end of the process -/

/-- The end of the process has been observed. -/
def leaving (deadline : Option Nat) : Watch := { pending deadline false with decision := some .exited }

theorem watched_drainChunk (deadline : Option Nat) {code : Int}
    (hv : At timeout (leaving deadline) (some code) v) :
    Watched size timeout (Round (At timeout (leaving deadline) (some code)) fun _ =>
      Decided timeout timeoutOutput .exited 8) (fun _ => Raised timeout timeoutOutput 8) v
      (drainChunk anyIO) := by
  refine ⟨hv.lively rfl _, fun reply v' h => ?_⟩
  have hread : logOf v'.trace = { logOf v.trace with
      read := (logOf v.trace).read ++ reply.getD [] } := log_call h
  have hchild : ∀ code' ∈ some code, v'.state.child = .exited code' :=
    fun code' hcode => exited_kept h nofun (hv.child code' hcode)
  show Watched size timeout _ _ v' (if reply.getD [] = [] then return some () else
    anyIO.writeOutput (reply.getD []) >>= fun _ => return none)
  by_cases hempty : reply.getD [] = []
  · have hwatch : watchOf timeout v'.trace = { leaving deadline with drained := true } := by
      rw [watch_call h, hv.watch]
      simp [Watch.next, Watch.see, Watch.hasExited, Watch.settled, leaving, pending, hempty]
    rw [if_pos hempty]
    rw [hempty, List.append_nil] at hread
    constructor
    · rw [hwatch]
      rfl
    · rw [hread]
      exact hv.log
    · rw [hwatch]
      exact Nat.zero_le 8
    · rw [hwatch]
      exact fun _ => ⟨rfl, code, hchild code rfl⟩
  · have hwatch : watchOf timeout v'.trace = leaving deadline := by
      rw [watch_call h, hv.watch]
      simp [Watch.next, Watch.see, Watch.hasExited, Watch.settled, leaving, pending, hempty]
    rw [if_neg hempty]
    have hwrite : Watched size timeout _ _ v' <| anyIO.writeOutput (reply.getD []) :=
      watched_writeOutput rfl (fun _ => rfl) hwatch hv.log hread hchild
    refine Spec.bind (hwrite.mono (fun _ _ h => h) fun _ _ h => h.raised rfl (Nat.zero_le 8)) ?_
    exact fun _ v h => h

theorem watched_leave (deadline : Option Nat) (n : Nat) (hv : At timeout (pending deadline false) none v) :
    Watched size timeout (Round (At timeout (pending deadline false) none) fun ending =>
      Decided timeout timeoutOutput ending 8) (fun _ => Raised timeout timeoutOutput 8) v
      (leave anyIO n) := by
  refine ⟨hv.lively rfl _, fun reply v' h => ?_⟩
  cases reply with
  | none => exact hv.call h nofun fun _ => rfl
  | some code =>
    have hcall := hv.call h nofun fun _ => rfl
    have hv' : At timeout (leaving deadline) (some code) v' := by
      refine ⟨hcall.watch, hcall.log, ?_⟩
      rintro code' ⟨⟩
      exact exited_of_poll h
    have hloop : Watched size timeout (fun _ => Decided timeout timeoutOutput .exited 8)
        (fun _ => Raised timeout timeoutOutput 8) v' (loop (drainChunk anyIO) n) := by
      refine Spec.rounds (fun v hv => ?_) (fun v hv => watched_drainChunk deadline hv) n hv'
      exact ⟨hv.lively rfl _, fun reply => nomatch reply⟩
    show Watched size timeout _ _ v' (loop (drainChunk anyIO) n >>= fun _ => return some Ending.exited)
    exact Spec.bind hloop fun _ v h => h

/-! ## Rounds -/

theorem watched_expire (deadline : Option Nat) (hv : At timeout (expired deadline) none v) :
    Watched size timeout (fun ending => Decided timeout timeoutOutput ending 8)
      (fun _ => Raised timeout timeoutOutput 8) v (expire anyIO timeoutOutput) := by
  have hterminate : ∀ v, Decided timeout timeoutOutput .timedOut 1 v →
      Watched size timeout (fun ending => Decided timeout timeoutOutput ending 8)
        (fun _ => Raised timeout timeoutOutput 8) v
        (terminateProcessGroup >>= fun _ => return Ending.timedOut) :=
    fun v hv => Spec.bind (watched_terminate (le_refl 1) hv) fun _ v h => h
  unfold expire
  by_cases hempty : timeoutOutput = []
  · rw [if_neg (not_not.mpr hempty)]
    refine hterminate v ⟨?_, ?_, ?_, nofun⟩
    · rw [hv.watch]
      rfl
    · rw [hempty]
      exact hv.log
    · rw [hv.watch]
      exact Nat.zero_le 1
  · rw [if_pos hempty]
    have hwritten : ∀ reply v', calls size v (.writeOutput timeoutOutput) reply v' →
        Decided timeout timeoutOutput .timedOut 1 v' := by
      intro reply v' h
      refine ⟨?_, ?_, ?_, nofun⟩
      · rw [watch_call h, hv.watch]
        rfl
      · rw [log_call h]
        refine ⟨?_, hv.log.input, hv.log.cleanups, hv.log.started⟩
        show (logOf v.trace).handed ++ timeoutOutput = (logOf v.trace).read ++ timeoutOutput
        rw [hv.log.output, List.append_nil]
      · rw [watch_call h, hv.watch]
        exact le_refl 1
    refine ⟨?_, fun reply v' h => ?_⟩
    · intro _
      rw [hv.watch]
      exact ⟨nofun, Nat.zero_lt_succ 19⟩
    · have hv' := hwritten reply v' h
      cases reply with
      | true => exact hterminate v' hv'
      | false => exact { hv'.raised with late := hv'.late.trans (by decide) }

theorem watched_runRound (deadline : Option Nat) (n : Nat)
    (hv : At timeout (pending deadline false) none v) :
    Watched size timeout (Round (At timeout (pending deadline false) none) fun ending =>
      Decided timeout timeoutOutput ending 8) (fun _ => Raised timeout timeoutOutput 8) v
      (runRound anyIO deadline timeoutOutput n) := by
  refine Spec.bind ((watched_isOver deadline hv).mono (fun _ _ h => h) fun _ _ h => h.elim)
    fun ended v₁ hv₁ => ?_
  cases ended with
  | true => exact Spec.bind (watched_expire deadline hv₁) fun _ v h => h
  | false =>
    refine Spec.bind ((watched_relayOutput deadline hv₁).mono (fun _ _ h => h)
      fun _ _ h => h.raised rfl (Nat.zero_le 8)) fun _ v₂ hv₂ => ?_
    refine Spec.bind (watched_obeyNext deadline hv₂) fun cancelled v₃ hv₃ => ?_
    cases cancelled with
    | true => exact hv₃
    | false => exact watched_leave deadline n hv₃

/-! ## The whole execution -/

/-- The exit code for what came first. -/
def Answers (w : Watch) (child : Child) (code : Int) : Prop :=
  match w.decision with
  | some .timedOut => code = 124
  | some .cancelled => code = 130
  | some .exited => child = .exited code ∧ w.drained = true
  | none => False

/-- What was read has been handed on, and then the extra output of a timeout; what was received has been
typed; and there was one cleanup, with the cidfile, if the process was started. -/
structure Relayed (timeoutOutput : Bytes) (cidfile : Option Str) (w : Watch) (log : Log) : Prop where
  output : log.handed = log.read ++ outputFor timeoutOutput w.decision
  input : log.typed.map Prod.fst = log.inputs
  cleanups : log.cleanups = if log.started then [cidfile] else []

/-- The loop has ended, and the code is known. -/
def Coded (timeout : Option Nat) (timeoutOutput : Bytes) (late : Nat) (code : Int) (v : Seen) : Prop :=
  Answers (watchOf timeout v.trace) v.state.child code ∧
    ∃ ending, Decided timeout timeoutOutput ending late v

theorem watched_code {ending : Ending} (hv : Decided timeout timeoutOutput ending 8 v) :
    Watched size timeout (Coded timeout timeoutOutput 9) (fun _ => Raised timeout timeoutOutput 9) v
      ending.code := by
  have hmore : Decided timeout timeoutOutput ending 9 v := { hv with late := hv.late.trans (by decide) }
  cases ending with
  | timedOut =>
    refine ⟨?_, .timedOut, hmore⟩
    rw [Answers, hv.decision]
  | cancelled =>
    refine ⟨?_, .cancelled, hmore⟩
    rw [Answers, hv.decision]
  | exited =>
    obtain ⟨-, code, hchild⟩ := hv.exit rfl
    refine ⟨?_, fun reply v' h => ?_⟩
    · intro _
      exact ⟨nofun, lt_of_le_of_lt hv.late (by decide)⟩
    · have hv' := decided_quiet h rfl hv
      obtain rfl := wait_exited h hchild
      refine ⟨?_, .exited, hv'⟩
      rw [Answers, hv'.decision]
      exact ⟨exited_kept h nofun hchild, (hv'.exit rfl).1⟩

theorem coded_quiet {code : Int} (h : calls size v action reply v') (hquiet : action.quiet = true)
    (hv : Coded timeout timeoutOutput late code v) : Coded timeout timeoutOutput (late + 1) code v' := by
  obtain ⟨hanswers, ending, hdecided⟩ := hv
  have hdecided' := decided_quiet h hquiet hdecided
  refine ⟨?_, ending, hdecided'⟩
  rw [Answers, hdecided.decision] at hanswers
  rw [Answers, hdecided'.decision]
  cases ending with
  | timedOut => exact hanswers
  | cancelled => exact hanswers
  | exited =>
    have hpopen : action ≠ .popen := by
      rintro rfl
      cases hquiet
    exact ⟨exited_kept h hpopen hanswers.1, (hdecided'.exit rfl).1⟩

/-- What holds when the execution has raised, and when it has returned. -/
def Over (timeout : Option Nat) (timeoutOutput : Bytes) (cidfile : Option Str) (v : Seen) : Prop :=
  Relayed timeoutOutput cidfile (watchOf timeout v.trace) (logOf v.trace) ∧
    (watchOf timeout v.trace).late ≤ 20

def Returned (timeout : Option Nat) (timeoutOutput : Bytes) (cidfile : Option Str) (code : Int)
    (v : Seen) : Prop :=
  Over timeout timeoutOutput cidfile v ∧ Answers (watchOf timeout v.trace) v.state.child code

theorem over_cleanup {cidfile : Option Str} {cleaned : Bool}
    (h : calls size v (.cleanupInteractiveContainer cidfile) cleaned v')
    (hv : Raised timeout timeoutOutput 17 v) : Over timeout timeoutOutput cidfile v' := by
  rw [Over, watch_call h, log_call h]
  refine ⟨⟨hv.log.output, hv.log.input, ?_⟩, ?_⟩
  · show (logOf v.trace).cleanups ++ [cidfile] = if (logOf v.trace).started then [cidfile] else []
    rw [hv.log.cleanups, hv.log.started]
    rfl
  · show (if (watchOf timeout v.trace).settled then _ else _) ≤ 20
    have hlate := hv.late
    split <;> omega

theorem returned_cleanup {cidfile : Option Str} {cleaned : Bool} {code : Int}
    (h : calls size v (.cleanupInteractiveContainer cidfile) cleaned v')
    (hv : Coded timeout timeoutOutput 17 code v) : Returned timeout timeoutOutput cidfile code v' := by
  obtain ⟨hanswers, ending, hdecided⟩ := hv
  refine ⟨over_cleanup h hdecided.raised, ?_⟩
  rw [Answers, hdecided.decision] at hanswers
  rw [watch_call h]
  show match (watchOf timeout v.trace).decision with
    | some .timedOut => code = 124
    | some .cancelled => code = 130
    | some .exited => v'.state.child = .exited code ∧ (watchOf timeout v.trace).drained = true
    | none => False
  rw [hdecided.decision]
  cases ending with
  | timedOut => exact hanswers
  | cancelled => exact hanswers
  | exited => exact ⟨exited_kept h nofun hanswers.1, hanswers.2⟩

/-- The `finally` block: few quiet calls, and the cleanup. -/
theorem watched_finish {cidfile : Option Str} {I : Nat → Seen → Prop} {J : Seen → Prop}
    (hlate : ∀ b v, I b v → (watchOf timeout v.trace).late ≤ b)
    (hmono : ∀ b b' v, b ≤ b' → I b v → I b' v)
    (hstep : ∀ b v v' (action : Action) (reply : action.Reply), action.quiet = true →
      calls size v action reply v' → I b v → I (b + 1) v')
    (hcleanup : ∀ v v' cleaned, calls size v (.cleanupInteractiveContainer cidfile) cleaned v' →
      I 17 v → J v')
    (hv : I 9 v) : Watched size timeout (fun _ => J) (fun _ => J) v (finish cidfile) := by
  have hlast : ∀ v, I 17 v → Watched size timeout (fun _ => J) (fun _ => J) v
      (check (.cleanupInteractiveContainer cidfile) id (.internal "cleanup")) := by
    intro v hv
    refine ⟨fun _ => ⟨nofun, lt_of_le_of_lt (hlate 17 v hv) (by decide)⟩, fun cleaned v' h => ?_⟩
    have hJ := hcleanup v v' cleaned h hv
    cases cleaned with
    | true => exact hJ
    | false => exact hJ
  refine ⟨fun _ => ⟨nofun, lt_of_le_of_lt (hlate 9 v hv) (by decide)⟩, fun code v' h => ?_⟩
  have hv' := hstep 9 v v' .poll code rfl h hv
  cases code with
  | some code => exact hlast v' (hmono 10 17 v' (by decide) hv')
  | none =>
    -- To terminate the process raises nothing.
    have hterminate := (watched_quiet hlate hmono hstep terminate_quiet (by decide) hv').and
      (ensures_terminate v')
    show Watched size timeout _ _ v' (terminateProcessGroup >>= fun _ =>
      check (.cleanupInteractiveContainer cidfile) id (.internal "cleanup"))
    refine Spec.bind (hterminate.mono (fun _ _ h => h.1) fun _ _ h => h.2.elim) ?_
    exact fun _ v hv => hlast v hv

theorem watched_deadlineOf (hwatch : watchOf timeout v.trace = {}) (hlog : (logOf v.trace).Even []) :
    Watched size timeout (fun deadline => At timeout (pending deadline false) none) (fun _ _ => False) v
      (deadlineOf timeout) := by
  cases timeout with
  | none => exact ⟨hwatch, hlog, nofun⟩
  | some seconds =>
    refine ⟨?_, fun now v' h => ?_⟩
    · intro hsettled
      rw [hwatch] at hsettled
      cases hsettled
    · have hv : At (some seconds) {} none v := ⟨hwatch, hlog, nofun⟩
      exact hv.call h nofun fun _ => rfl

theorem watched_body (deadline : Option Nat) (cidfile : Option Str) (n : Nat)
    (hv : At timeout (pending deadline false) none v) :
    Watched size timeout (Returned timeout timeoutOutput cidfile)
      (fun _ => Over timeout timeoutOutput cidfile) v
      (Program.ensuring (loop (runRound anyIO deadline timeoutOutput n) n >>= fun ending => ending.code)
        (finish cidfile)) := by
  have hloop : Watched size timeout (fun ending => Decided timeout timeoutOutput ending 8)
      (fun _ => Raised timeout timeoutOutput 8) v (loop (runRound anyIO deadline timeoutOutput n) n) := by
    refine Spec.rounds (fun v hv => ?_) (fun v hv => watched_runRound deadline n hv) n hv
    exact ⟨hv.lively rfl _, fun reply => nomatch reply⟩
  have hbody : Watched size timeout (Coded timeout timeoutOutput 9) (fun _ => Raised timeout timeoutOutput 9)
      v (loop (runRound anyIO deadline timeoutOutput n) n >>= fun ending => ending.code) := by
    refine Spec.bind (hloop.mono (fun _ _ h => h) fun _ _ h => ?_) fun ending v hv => watched_code hv
    exact { h with late := h.late.trans (by decide) }
  refine Spec.ensuring hbody (fun code v hv => ?_) fun _ v hv => ?_
  · have hfinish : Watched size timeout _ _ v (finish cidfile) := watched_finish
      (J := Returned timeout timeoutOutput cidfile code)
      (I := fun b v => Coded timeout timeoutOutput b code v)
      (fun _ _ hv => hv.2.elim fun _ h => h.late)
      (fun _ _ _ hle hv => ⟨hv.1, hv.2.imp fun _ h => { h with late := h.late.trans hle }⟩)
      (fun _ _ _ _ _ hquiet h hv => coded_quiet h hquiet hv)
      (fun _ _ _ h hv => returned_cleanup h hv) hv
    exact hfinish.mono (fun _ _ h => h) fun _ _ h => h.1
  · exact watched_finish (fun _ _ hv => hv.late)
      (fun _ _ _ hle hv => { hv with late := hv.late.trans hle })
      (fun _ _ _ _ _ hquiet h hv => raised_quiet h hquiet hv)
      (fun _ _ _ h hv => over_cleanup h hv) hv

theorem watched_interactive (cidfile : Option Str) (n : Nat) (hwatch : watchOf timeout v.trace = {})
    (hlog : logOf v.trace = {}) :
    Watched size timeout (Returned timeout timeoutOutput cidfile)
      (fun _ => Over timeout timeoutOutput cidfile) v
      (runInteractiveArgv anyIO timeout timeoutOutput cidfile n) := by
  have hlively : ∀ v action, watchOf timeout v.trace = {} → Lively timeout v action := by
    intro v action hwatch hsettled
    rw [hwatch] at hsettled
    cases hsettled
  have hover : ∀ v, watchOf timeout v.trace = {} → logOf v.trace = {} →
      Over timeout timeoutOutput cidfile v := by
    intro v hwatch hlog
    rw [Over, hwatch, hlog]
    exact ⟨⟨rfl, rfl, rfl⟩, Nat.zero_le 20⟩
  refine ⟨hlively v _ hwatch, fun opened v₁ h₁ => ?_⟩
  have hwatch₁ : watchOf timeout v₁.trace = {} := by
    rw [watch_call h₁, hwatch]
    rfl
  have hlog₁ : logOf v₁.trace = {} := by
    rw [log_call h₁, hlog]
    rfl
  cases opened with
  | false => exact hover v₁ hwatch₁ hlog₁
  | true =>
    refine ⟨hlively v₁ _ hwatch₁, fun started v₂ h₂ => ?_⟩
    have hwatch₂ : watchOf timeout v₂.trace = {} := by
      rw [watch_call h₂, hwatch₁]
      rfl
    have hlog₂ := log_call h₂
    rw [hlog₁] at hlog₂
    cases started with
    | false => exact hover v₂ hwatch₂ hlog₂
    | true =>
      have heven : (logOf v₂.trace).Even [] := by
        rw [hlog₂]
        exact ⟨rfl, rfl, rfl, rfl⟩
      show Watched size timeout _ _ v₂ (deadlineOf timeout >>= fun deadline =>
        Program.ensuring (loop (runRound anyIO deadline timeoutOutput n) n >>= fun ending => ending.code)
          (finish cidfile))
      refine Spec.bind ((watched_deadlineOf hwatch₂ heven).mono (fun _ _ h => h) fun _ _ h => h.elim) ?_
      exact fun deadline v₃ hv₃ => watched_body deadline cidfile n hv₃

end

/-! ## What the process has written -/

section

variable {timeout : Option Nat} {trace : List (Event Action.Reply)}

/-- The terminal gives out what the process has written; and once the end of the process has been
observed, it gives nothing only if everything has been read. -/
structure Gives (timeout : Option Nat) (written : Bytes) (trace : List (Event Action.Reply)) : Prop where
  read : (logOf trace).read <+: written
  last : ∀ before i (reply : Option Bytes) after, trace = before ++ ⟨i, .readMaster, reply⟩ :: after →
    (watchOf timeout before).hasExited = true → reply.getD [] = [] → (logOf before).read = written

theorem read_next (log : Log) (e : Event Action.Reply) : log.read <+: (log.next e).read := by
  unfold Log.next
  split
  all_goals first | exact List.prefix_append _ _ | exact List.prefix_refl _

theorem read_prefix (before after : List (Event Action.Reply)) :
    (logOf before).read <+: (logOf (before ++ after)).read := by
  rw [logOf, logOf, List.foldl_append]
  generalize before.foldl Log.next {} = log
  induction after generalizing log with
  | nil => exact List.prefix_refl _
  | cons e after ih => exact (read_next log e).trans (ih (log.next e))

theorem drained_next {w : Watch} {e : Event Action.Reply} (h : (w.next timeout e).drained = true) :
    w.drained = true ∨ ∃ i reply, e = ⟨i, .readMaster, reply⟩ ∧ w.hasExited = true ∧
      reply.getD [] = [] := by
  have htell : ∀ now, (w.tell timeout now).drained = w.drained := by
    intro now
    unfold Watch.tell
    split
    · rfl
    · split
      · rfl
      · split <;> rfl
  change (w.see timeout e).drained = true at h
  unfold Watch.see at h
  split at h
  · rw [htell] at h
    exact Or.inl h
  · exact Or.inl h
  · exact Or.inl h
  · exact Or.inl h
  · rename_i i reply
    split at h
    · rename_i hlast
      simp only [Bool.and_eq_true, decide_eq_true_eq] at hlast
      exact Or.inr ⟨i, reply, rfl, hlast⟩
    · exact Or.inl h
  · exact Or.inl h

theorem exists_of_drained (h : (watchOf timeout trace).drained = true) :
    ∃ before i, ∃ (reply : Option Bytes), ∃ after, trace = before ++ ⟨i, .readMaster, reply⟩ :: after ∧
      (watchOf timeout before).hasExited = true ∧ reply.getD [] = [] := by
  induction trace using List.reverseRecOn with
  | nil => cases h
  | append_singleton trace e ih =>
    rw [watchOf, List.foldl_append] at h
    rcases drained_next h with h | ⟨i, reply, rfl, hexited, hempty⟩
    · obtain ⟨before, i, reply, after, rfl, hlast⟩ := ih h
      refine ⟨before, i, reply, after ++ [e], ?_, hlast⟩
      rw [List.append_assoc, List.cons_append]
    · exact ⟨trace, i, reply, [], rfl, hexited, hempty⟩

theorem Gives.read_eq {written : Bytes} (h : Gives timeout written trace)
    (hdrained : (watchOf timeout trace).drained = true) : (logOf trace).read = written := by
  obtain ⟨before, i, reply, after, rfl, hexited, hempty⟩ := exists_of_drained hdrained
  have hall := h.last before i reply after rfl hexited hempty
  have hmore := read_prefix before (⟨i, .readMaster, reply⟩ :: after)
  rw [hall] at hmore
  exact h.read.eq_of_length_le hmore.length_le

end

theorem drained_of_hasExited {w : Watch} {child : Child} {code : Int} (hexited : w.hasExited = true)
    (hanswers : Answers w child code) : w.decision = some .exited ∧ w.drained = true := by
  unfold Watch.hasExited at hexited
  unfold Answers at hanswers
  split at hexited
  · rename_i hdecision
    rw [hdecision] at hanswers
    exact ⟨hdecision, hanswers.2⟩
  · cases hexited

/-- Only a call that is allowed is late. -/
theorem late_call {size : Nat} {timeout : Option Nat} {v v' : Seen} {action : Action}
    {reply : action.Reply} (h : calls size v action reply v') (hlively : Lively timeout v action)
    (hlate : (watchOf timeout v.trace).late ≤ 20) : (watchOf timeout v'.trace).late ≤ 20 := by
  rw [watch_call h]
  show (if (watchOf timeout v.trace).settled then (watchOf timeout v.trace).late + 1
    else (watchOf timeout v.trace).late) ≤ 20
  split
  · rename_i hsettled
    exact (hlively hsettled).2
  · exact hlate

/-- However an execution on a terminal ends, the output and the input have been handed on, and there was
one cleanup, with its cidfile, if the process was started. The result is that of what came first, and after an ordinary end
all that the process has written has been handed on. Once nothing is waited for any more, at most twenty
calls are made, and no loop goes on. -/
theorem interactive_relayed {size : Nat} {timeout : Option Nat} {timeoutOutput : Bytes}
    {cidfile : Option Str} {n : Nat} {socket : Socket} {c : Execution Int}
    (hrun : Executes size (runInteractiveArgv anyIO timeout timeoutOutput cidfile n) socket c) :
    (∀ code, c.programs 0 = .ret code →
      Relayed timeoutOutput cidfile (watchOf timeout c.trace) (logOf c.trace) ∧
      Answers (watchOf timeout c.trace) c.state.child code ∧
      ∀ written, (watchOf timeout c.trace).hasExited = true → Gives timeout written c.trace →
        (logOf c.trace).handed = written) ∧
    (∀ error, c.programs 0 = .fail error →
      Relayed timeoutOutput cidfile (watchOf timeout c.trace) (logOf c.trace)) ∧
    (watchOf timeout c.trace).late ≤ 20 ∧
    ∀ rest, c.programs 0 = .act .unfinished rest → (watchOf timeout c.trace).settled = false := by
  have hstart : Watched size timeout (Returned timeout timeoutOutput cidfile)
      (fun _ => Over timeout timeoutOutput cidfile)
      (start (runInteractiveArgv anyIO timeout timeoutOutput cidfile n) socket).view
      (runInteractiveArgv anyIO timeout timeoutOutput cidfile n) := watched_interactive cidfile n rfl rfl
  have hend := Spec.reaches hstart hrun
  refine ⟨?_, ?_, ?_, ?_⟩
  · intro code hret
    rw [hret] at hend
    obtain ⟨⟨hrelayed, -⟩, hanswers⟩ := hend
    refine ⟨hrelayed, hanswers, fun written hexited hgives => ?_⟩
    obtain ⟨hdecision, hdrained⟩ := drained_of_hasExited hexited hanswers
    rw [hrelayed.output, hgives.read_eq hdrained, hdecision]
    exact List.append_nil written
  · intro error hfail
    rw [hfail] at hend
    exact hend.1
  · exact Spec.kept (I := fun v => (watchOf timeout v.trace).late ≤ 20) hstart
      (fun _ _ _ _ hlively h hlate => late_call h hlively hlate) hrun (Nat.zero_le 20)
  · intro rest hprog
    rw [hprog] at hend
    by_contra hsettled
    exact (hend.1 (Bool.not_eq_false _ ▸ hsettled)).1 rfl

def exampleCidfile : Str := str "state/interactive/0.cid"

/-- The process writes a byte, and another one when it ends; the client sends an input. -/
def lastByte : List Choice :=
  [.success, .success, .success, .data [104], .success, .control (.input [108]), .success].map quietly ++
    [⟨some 3, [], false, .success⟩] ++
    [.data [105], .success, .failure, .success, .success, .success].map quietly

theorem interactive_relayed_example : ∃ c,
    Executes 8192 (runInteractiveArgv anyIO none [] (some exampleCidfile) 2) ⟨[], [], false⟩ c ∧
      c.programs 0 = .ret 3 ∧
      (logOf c.trace).handed = [104, 105] ∧ (logOf c.trace).typed = [([108], true)] ∧
      (logOf c.trace).cleanups = [some exampleCidfile] := by
  have hplayed : (played 8192 (runInteractiveArgv anyIO none [] (some exampleCidfile) 2) ⟨[], [], false⟩
      lastByte).map (fun c => ((c.programs 0).value?, c.trace)) = some (some 3, [⟨0, .openpty, true⟩, ⟨0, .popen, true⟩,
        ⟨0, .selectMaster 250, true⟩, ⟨0, .readMaster, some [104]⟩, ⟨0, .writeOutput [104], true⟩,
        ⟨0, .receiveControl, some (some (.input [108]))⟩, ⟨0, .writeMaster [108], true⟩,
        ⟨0, .poll, some 3⟩, ⟨0, .readMaster, some [105]⟩, ⟨0, .writeOutput [105], true⟩,
        ⟨0, .readMaster, none⟩, ⟨0, .wait none, some 3⟩, ⟨0, .poll, some 3⟩,
        ⟨0, .cleanupInteractiveContainer (some exampleCidfile), true⟩]) := rfl
  obtain ⟨c, hrun, hc⟩ := executes_of_played hplayed
  obtain ⟨hvalue, htrace⟩ := Prod.mk.inj hc
  have hret := Program.value?_eq_some_iff.mp hvalue
  obtain ⟨hrelayed, -, hall⟩ := (interactive_relayed hrun).1 3 hret
  refine ⟨c, hrun, hret, hall [104, 105] (by rw [htrace]; rfl) ⟨?_, ?_⟩, ?_, ?_⟩
  · rw [htrace]
    exact List.prefix_refl _
  · intro before i reply after hsplit hexited hempty
    have hbefore : before = c.trace.take before.length := by
      rw [hsplit, List.take_left']
      rfl
    have hread : c.trace[before.length]? = some ⟨i, .readMaster, reply⟩ := by
      simp [hsplit]
    rw [hbefore] at hexited ⊢
    rw [htrace] at hread hexited ⊢
    generalize before.length = k at hread hexited ⊢
    match k with
    | 3 => cases hexited
    | 8 => cases hread; cases hempty
    | 10 => rfl
    | 0 | 1 | 2 | 4 | 5 | 6 | 7 | 9 | 11 | 12 | 13 => cases hread
    | k + 14 => cases hread
  · rw [htrace]
    rfl
  · rw [hrelayed.cleanups, htrace]
    rfl

end AgentDev.Runtime
