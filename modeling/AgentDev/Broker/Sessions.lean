import AgentDev.Broker.Client
import AgentDev.Broker.Streams

/-!
# Sessions

What the broker sends for a request is one of three answers: an error, a result, or a stream that begins
with one frame, has output in it, and ends with one frame (`Answer`). It is so for every operation
and wherever an exception ends it. The client takes every such answer for what it is.
-/

namespace AgentDev.Broker

open Python Policy
open Python.Json hiding Unit

/-! ## Answers -/

/-- How a stream ends. -/
inductive Final
  | exit (code : Int)
  | error (message : Message) (code : Int)

inductive Answer
  | error (message : Message) (code : Int)
  | result (value : Value)
  | stream (interactive : Bool) (chunks : List (List UInt8)) (final : Final)

/-- The security class that the frames of an operation name. -/
def classOf (op : Str) : Option Str :=
  if op = str "run" then some (str "compatibility") else none

def Final.frame (op : Str) : Final → Frame
  | .exit code => .exit code (classOf op)
  | .error message code => .error message code

def Answer.frames (op : Str) : Answer → List Frame
  | .error message code => [.error message code]
  | .result value => [.result value 0]
  | .stream interactive chunks final =>
    .start interactive (classOf op) :: (chunks.map .output ++ [final.frame op])

def IsFailureCode (code : Int) : Prop := code = 1 ∨ code = 2

def Final.IsValid : Final → Prop
  | .exit code => IsExitCode code
  | .error _ code => IsFailureCode code

/-- Codes are those of processes and exceptions, a result can be read back, and no chunk is empty. -/
def Answer.IsValid (limit : Nat) : Answer → Prop
  | .error _ code => IsFailureCode code
  | .result value => (Frame.result value 0).Readable limit
  | .stream _ chunks final => (∀ chunk ∈ chunks, chunk ≠ []) ∧ final.IsValid

/-! ## The broker -/

def sentFrames (events : List Event) : List Frame :=
  events.filterMap fun event =>
    match event with
    | .sent frame => some frame
    | .called _ => none

/-- What has been sent when an operation returns or raises. -/
inductive Attempt (limit : Nat) (op : Str) : Except Failure Unit → List Frame → Prop
  | silent (failure : Failure) : Attempt limit op (.error failure) []
  | result (value : Value) (h : (Frame.result value 0).Readable limit) :
    Attempt limit op (.ok ()) [.result value 0]
  | raised (interactive : Bool) (chunks : List (List UInt8)) (failure : Failure)
    (h : ∀ chunk ∈ chunks, chunk ≠ []) :
    Attempt limit op (.error failure)
      (.start interactive (classOf op) :: chunks.map .output)
  | exited (interactive : Bool) (chunks : List (List UInt8)) (rc : Int)
    (h : ∀ chunk ∈ chunks, chunk ≠ []) (hrc : IsExitCode rc) :
    Attempt limit op (.ok ())
      (.start interactive (classOf op) :: (chunks.map .output ++ [.exit rc (classOf op)]))

/-- The handler makes one attempt. -/
def Attempts {α : Type} (limit : Nat) (op : Str) (handler : Handler α) : Prop :=
  ∀ history, ∃ events, (handler.run history).2 = history ++ events ∧
    Attempt limit op ((handler.run history).1.map fun _ => ()) (sentFrames events)

/-- The handler sends no frame, and what it returns satisfies `Q`. -/
def Quiet {α : Type} (Q : α → Prop) (handler : Handler α) : Prop :=
  ∀ history, ∃ events, (handler.run history).2 = history ++ events ∧ sentFrames events = [] ∧
    ∀ a, (handler.run history).1 = .ok a → Q a

/-- The handler sends output and no other frame, and returns an exit code. -/
def Relays (handler : Handler Int) : Prop :=
  ∀ history, ∃ (events : List Event) (chunks : List (List UInt8)),
    (handler.run history).2 = history ++ events ∧ (∀ chunk ∈ chunks, chunk ≠ []) ∧
    sentFrames events = chunks.map .output ∧ ∀ rc, (handler.run history).1 = .ok rc → IsExitCode rc

section

variable {α β : Type} {Q : α → Prop} {R : β → Prop} {limit : Nat} {op : Str}

theorem sentFrames_output (chunks : List (List UInt8)) :
    sentFrames (chunks.map outputEvent) = chunks.map .output := by
  induction chunks with
  | nil => rfl
  | cons chunk rest ih =>
    rw [List.map_cons, List.map_cons, ← ih]
    rfl

theorem sentFrames_append (before after : List Event) :
    sentFrames (before ++ after) = sentFrames before ++ sentFrames after :=
  List.filterMap_append

theorem quiet_of_same {handler : Handler α} (hsame : ∀ history, (handler.run history).2 = history)
    (h : ∀ history a, (handler.run history).1 = .ok a → Q a) : Quiet Q handler :=
  fun history => ⟨[], (hsame history).trans (List.append_nil history).symm, rfl, h history⟩

theorem quiet_silently {service : List Event → Except Failure α}
    (h : ∀ history a, service history = .ok a → Q a) : Quiet Q (silently service) :=
  quiet_of_same (fun _ => rfl) h

theorem quiet_anything (service : List Event → Except Failure α) :
    Quiet Anything (silently service) := quiet_silently fun _ _ _ => trivial

theorem quiet_pure {a : α} (h : Q a) : Quiet Q (pure a : Handler α) := by
  refine quiet_of_same (fun _ => rfl) fun history b hb => ?_
  cases hb
  exact h

theorem quiet_keyed (table : List (Str × Str)) (key : Str) : Quiet Anything (keyed table key) := by
  unfold keyed
  split
  · exact quiet_pure trivial
  · exact quiet_of_same (fun _ => rfl) fun _ _ _ => trivial

theorem quiet_bind {first : Handler α} {next : α → Handler β} (hfirst : Quiet Q first)
    (hnext : ∀ a, Q a → Quiet R (next a)) : Quiet R (first >>= next) := by
  intro history
  obtain ⟨events, hevents, hframes, hreturns⟩ := hfirst history
  rw [run_bind]
  generalize first.run history = answer at hevents hreturns ⊢
  obtain ⟨result, sent⟩ := answer
  cases result with
  | error failure =>
    refine ⟨events, hevents, hframes, ?_⟩
    intro b hb
    cases hb
  | ok a =>
    obtain ⟨more, hmore, hframes', hreturns'⟩ := hnext a (hreturns a rfl) sent
    refine ⟨events ++ more, ?_, ?_, hreturns'⟩
    · rw [← List.append_assoc, ← hevents]
      exact hmore
    · rw [sentFrames_append, hframes, hframes', List.append_nil]

theorem quiet_called (op : Str) : Quiet Anything (note (.called op)) :=
  fun _ => ⟨[.called op], rfl, rfl, fun _ _ => trivial⟩

theorem quiet_call {operation : Handler α} (h : Quiet Q operation) : Quiet Q (call op operation) :=
  quiet_bind (quiet_called op) fun _ _ => h

theorem quiet_providerCommand (s : Services) (driver : Agents.AgentDriver) (networkEnabled : Bool)
    (isolation : Option Agents.RuntimeIsolationRequirements) (environment : Agents.Environment) :
    Quiet Anything (providerCommand s driver networkEnabled isolation environment) :=
  quiet_bind (quiet_anything _) fun _ _ =>
    quiet_bind (quiet_keyed _ _) fun _ _ => quiet_pure trivial

theorem relays_of_streams {operation : Handler Int} (h : Streams IsExitCode operation) :
    Relays operation := by
  intro history
  obtain ⟨chunks, hchunks, hsent, hreturns⟩ := h history
  exact ⟨_, chunks, hsent, hchunks, sentFrames_output chunks, hreturns⟩

theorem relays_call {operation : Handler Int} (h : Relays operation) : Relays (call op operation) := by
  intro history
  obtain ⟨events, chunks, hevents, hchunks, hframes, hreturns⟩ := h (history ++ [.called op])
  refine ⟨.called op :: events, chunks, ?_, hchunks, hframes, hreturns⟩
  rw [List.append_cons]
  exact hevents

/-! ### Attempts -/

theorem attempts_throw (failure : Failure) : Attempts limit op (throw failure : Handler α) :=
  fun history => ⟨[], (List.append_nil history).symm, .silent failure⟩

/-- What sends no frame can come before an attempt. -/
theorem attempts_bind {first : Handler α} {next : α → Handler β} (hfirst : Quiet Q first)
    (hnext : ∀ a, Q a → Attempts limit op (next a)) : Attempts limit op (first >>= next) := by
  intro history
  obtain ⟨events, hevents, hframes, hreturns⟩ := hfirst history
  rw [run_bind]
  generalize first.run history = answer at hevents hreturns ⊢
  obtain ⟨result, sent⟩ := answer
  cases result with
  | error failure =>
    refine ⟨events, hevents, ?_⟩
    rw [hframes]
    exact .silent failure
  | ok a =>
    obtain ⟨more, hmore, hattempt⟩ := hnext a (hreturns a rfl) sent
    refine ⟨events ++ more, ?_, ?_⟩
    · rw [← List.append_assoc, ← hevents]
      exact hmore
    · rw [sentFrames_append, hframes, List.nil_append]
      exact hattempt

/-- A value in the end makes no difference. -/
theorem attempts_discard {operation : Handler α} (h : Attempts limit op operation) :
    Attempts limit op (do let _ ← operation : Handler Unit) := by
  intro history
  obtain ⟨events, hevents, hattempt⟩ := h history
  rw [run_bind]
  generalize operation.run history = answer at hevents hattempt ⊢
  obtain ⟨result, sent⟩ := answer
  cases result with
  | error failure => exact ⟨events, hevents, hattempt⟩
  | ok a => exact ⟨events, hevents, hattempt⟩

theorem run_send_bind (frame : Frame) (next : Unit → Handler α) (history : List Event) :
    (send frame >>= next).run history = (next ()).run (history ++ [.sent frame]) := rfl

/-- An operation between its first and its last frame. -/
theorem attempts_stream {operation : Handler Int} (interactive : Bool) (result : Int → α)
    (h : Relays operation) :
    Attempts limit op (do
      send (.start interactive (classOf op))
      let rc ← operation
      send (.exit rc (classOf op))
      return result rc) := by
  intro history
  let first : Event := .sent (.start interactive (classOf op))
  obtain ⟨events, chunks, hevents, hchunks, hframes, hreturns⟩ := h (history ++ [first])
  rw [run_send_bind, run_bind]
  generalize operation.run (history ++ [first]) = answer at hevents hreturns ⊢
  obtain ⟨result, sent⟩ := answer
  cases result with
  | error failure =>
    refine ⟨first :: events, ?_, ?_⟩
    · rw [List.append_cons]
      exact hevents
    · show Attempt limit op _ (.start interactive (classOf op) :: sentFrames events)
      rw [hframes]
      exact .raised interactive chunks failure hchunks
  | ok rc =>
    refine ⟨first :: (events ++ [.sent (.exit rc (classOf op))]), ?_, ?_⟩
    · rw [List.append_cons, ← List.append_assoc]
      exact congrArg (· ++ [.sent (.exit rc (classOf op))]) hevents
    · show Attempt limit op _ (.start interactive (classOf op) :: sentFrames (events ++ _))
      rw [sentFrames_append, hframes]
      exact .exited interactive chunks rc hchunks (hreturns rc rfl)

theorem attempts_started {operation : Handler Int} (h : Relays operation)
    (hclass : classOf op = none) : Attempts limit op (started op operation) := by
  have hrelays : Relays (call op operation) := relays_call h
  have hstream : Attempts limit op _ := attempts_stream false (fun _ => ()) hrelays
  rw [hclass] at hstream
  have hstarted : started op operation = (do
      send (.start false none)
      let rc ← call op operation
      send (.exit rc none)
      return ()) := by
    simp [started]
  rw [hstarted]
  exact hstream

end

/-! ### Operations -/

section

variable (s : Services) {limit : Nat}

theorem attempts_opAuth (provider : Value) : Attempts limit (str "auth") (opAuth s provider) := by
  refine attempts_bind (quiet_anything _) fun provider _ => ?_
  split
  · exact attempts_throw _
  · rename_i driver hdriver
    refine attempts_bind (quiet_anything _) fun _ _ => ?_
    refine attempts_bind (quiet_providerCommand s driver _ _ _) fun command _ => ?_
    exact attempts_stream _ _ (relays_of_streams (streams_executeRuntimeArgv s _ _ _))

theorem failureOf_ok {α : Type} {result : Except Execution.RunError α} {a : α}
    (h : failureOf result = .ok a) : result = .ok a := by
  unfold failureOf at h
  split at h
  · cases h
    rfl
  · cases h
  · cases h

/-- A run has the class of the legacy flags. -/
theorem securityClass_of_opRun {env : Execution.Surroundings} {cfg : Execution.Config}
    {request : Dict} {plan : Execution.ResolvedExecutionPlan}
    (h : Execution.opRun env cfg request = .ok plan) :
    plan.securityClass = classOf (str "run") := by
  unfold Execution.opRun at h
  split at h
  · rename_i driver hdriver
    obtain ⟨project, -, h⟩ := bind_ok_iff.mp h
    obtain ⟨task, -, h⟩ := bind_ok_iff.mp h
    obtain ⟨mapping, hmapping, h⟩ := bind_ok_iff.mp h
    obtain ⟨profileId, hflags⟩ := Execution.resolveRunProfileRequest_flags
      (Execution.truthy (Execution.argument request (str "readonly") (.bool false)))
      (Execution.truthy (Execution.argument request (str "outer_only") (.bool false)))
    rw [hflags] at hmapping
    cases hmapping
    obtain ⟨prompt, -, h⟩ := bind_ok_iff.mp h
    obtain ⟨loaded, -, h⟩ := bind_ok_iff.mp h
    obtain ⟨-, h⟩ := Agents.ensure_then_ok.mp h
    obtain ⟨-, -, h⟩ := bind_ok_iff.mp h
    obtain ⟨mode, -, h⟩ := bind_ok_iff.mp h
    obtain ⟨status, -, h⟩ := bind_ok_iff.mp h
    obtain ⟨-, h⟩ := Agents.ensure_then_ok.mp h
    obtain ⟨policy, -, h⟩ := bind_ok_iff.mp h
    obtain ⟨runSpec, -, h⟩ := bind_ok_iff.mp h
    obtain ⟨resolved, hresolved, h⟩ := bind_ok_iff.mp h
    obtain ⟨-, -, h⟩ := bind_ok_iff.mp h
    cases h
    exact Execution.securityClass_of_plan hresolved
  · cases h

theorem attempts_opRun (req : Dict) : Attempts limit (str "run") (opRun s req) := by
  have hplan : ∀ (history : List Event) plan,
      failureOf (Execution.opRun (s.surroundings history) s.config req) = .ok plan →
      plan.securityClass = classOf (str "run") := by
    intro history plan h
    exact securityClass_of_opRun (failureOf_ok h)
  refine attempts_bind (quiet_silently hplan) fun plan hclass => ?_
  refine attempts_bind (quiet_anything _) fun _ _ => ?_
  rw [hclass]
  exact attempts_stream _ _ (relays_of_streams (streams_executeRuntimePlan s plan))

theorem lookup_map_pair {β : Type} (f : Str → β) (names : List Str) (op : Str) :
    (names.map fun name => (name, f name)).lookup op = if op ∈ names then some (f op) else none := by
  induction names with
  | nil => rfl
  | cons name rest ih =>
    rw [List.map_cons, List.lookup_cons, ih]
    by_cases hname : op = name
    · subst hname
      simp
    · have hne : (op == name) = false := beq_false_of_ne hname
      simp [hne, hname]

/-- The other operations are the ones of the dispatcher. -/
theorem op_cases {op : Str} (h : op ∈ allowedOps) : op = str "ping" ∨ op ∈ resultOps ∨
    op ∈ words ["build", "status", "versions", "smoke", "index"] ∨ op = str "auth" ∨
    op = str "run" := by
  have hall : ∀ op ∈ allowedOps, op = str "ping" ∨ op ∈ resultOps ∨
      op ∈ words ["build", "status", "versions", "smoke", "index"] ∨ op = str "auth" ∨
      op = str "run" := by decide +kernel
  exact hall op h

theorem readable_result {value : Value} (hserial : Serializable lineFormat value)
    (hnesting : nesting value < limit) : (Frame.result value 0).Readable limit where
  serializable _ := by
    have hnames : [str "type", str "result", str "code"].Nodup := by decide
    exact ⟨hnames, fun _ => pairFree_str _, fun _ => pairFree_str _, fun _ => pairFree_str _, hserial,
      fun _ => pairFree_str _, serializable_int (by decide), trivial⟩
  nesting _ := by
    show max 0 (max (nesting value) (max 0 0)) + 1 ≤ limit
    omega

/-- Results are JSON values, no deeper than a client reads. -/
def Services.Encodes (s : Services) (limit : Nat) : Prop :=
  ∀ op req history value, s.result op req history = .ok value →
    Serializable lineFormat value ∧ nesting value < limit

theorem attempts_result (value : Value) (op : Str) (h : (Frame.result value 0).Readable limit) :
    Attempts limit op (send (.result value 0)) :=
  fun _ => ⟨[.sent (.result value 0)], rfl, .result value h⟩

theorem classOf_eq_none {op : Str} (h : op ≠ str "run") : classOf op = none := if_neg h

/-- Every operation makes one attempt. -/
theorem attempts_dispatch (hencodes : s.Encodes limit) (hlimit : 2 ≤ limit) {op : Str}
    (hop : op ∈ allowedOps) (req : Dict) :
    Attempts limit op (dispatch (rpcOperations s) op req) := by
  have hstarted : ∀ {operation : Handler Int}, Streams IsExitCode operation → op ≠ str "run" →
      Attempts limit op (started op operation) := fun h hrun =>
    attempts_started (relays_of_streams h) (classOf_eq_none hrun)
  unfold dispatch
  by_cases hping : op = str "ping"
  · rw [if_pos hping]
    apply attempts_result
    apply readable_result
    · have hnames : [str "status", str "uid"].Nodup := by decide
      exact ⟨hnames, fun _ => pairFree_str _, fun _ => pairFree_str _, fun _ => pairFree_str _,
        serializable_int s.uid_small, trivial⟩
    · show max 0 (max 0 0) + 1 < limit
      omega
  · rw [if_neg hping]
    have hlookup : (rpcOperations s).resultOps.lookup op =
        if op ∈ resultOps then some (fun req => silently (s.result op req)) else none :=
      lookup_map_pair (fun op req => silently (s.result op req)) resultOps op
    rw [hlookup]
    by_cases hresult : op ∈ resultOps
    · rw [if_pos hresult]
      refine attempts_bind (quiet_call (quiet_silently fun history value => hencodes op req history value))
        fun value hvalue => ?_
      exact attempts_result value op (readable_result hvalue.1 hvalue.2)
    · rw [if_neg hresult]
      dsimp only
      by_cases hbuild : op = str "build"
      · rw [if_pos hbuild]
        exact hstarted (streams_opBuild s) (by rw [hbuild]; decide)
      rw [if_neg hbuild]
      by_cases hstatus : op = str "status"
      · rw [if_pos hstatus]
        exact hstarted (streams_opStatus s) (by rw [hstatus]; decide)
      rw [if_neg hstatus]
      by_cases hversions : op = str "versions"
      · rw [if_pos hversions]
        exact hstarted (streams_opVersions s) (by rw [hversions]; decide)
      rw [if_neg hversions]
      by_cases hsmoke : op = str "smoke"
      · rw [if_pos hsmoke]
        exact hstarted (streams_opSmoke s) (by rw [hsmoke]; decide)
      rw [if_neg hsmoke]
      by_cases hindex : op = str "index"
      · rw [if_pos hindex]
        exact hstarted (streams_opIndex s req) (by rw [hindex]; decide)
      rw [if_neg hindex]
      by_cases hauth : op = str "auth"
      · subst hauth
        rw [if_pos rfl]
        exact attempts_discard (attempts_bind (quiet_called _) fun _ _ => attempts_opAuth s _)
      rw [if_neg hauth]
      by_cases hrun : op = str "run"
      · subst hrun
        rw [if_pos rfl]
        exact attempts_discard (attempts_bind (quiet_called _) fun _ _ => attempts_opRun s _)
      · exfalso
        rcases op_cases hop with h | h | h | h | h
        · exact hping h
        · exact hresult h
        · simp only [words, List.map_cons, List.map_nil, List.mem_cons, List.not_mem_nil, or_false] at h
          tauto
        · exact hauth h
        · exact hrun h

end

/-! ### Requests -/

/-- The frame that answers an exception. -/
def Failure.frame : Failure → Frame
  | .request message => .error message 2
  | .internal => .error [.text (str "internal broker error")] 1

def failureFrames : Except Failure Unit → List Frame
  | .ok _ => []
  | .error failure => [failure.frame]

theorem run_answerFailure (failure : Failure) (history : List Event) :
    (answerFailure failure).run history = (.ok (), history ++ [.sent failure.frame]) := by
  cases failure <;> rfl

/-- An attempt and the answer to its exception are one answer. -/
theorem Attempt.answer {limit : Nat} {op : Str} {result : Except Failure Unit}
    {frames : List Frame} (h : Attempt limit op result frames) :
    ∃ answer : Answer, answer.IsValid limit ∧ answer.frames op = frames ++ failureFrames result := by
  have hfailure : ∀ failure : Failure, ∃ message code, failure.frame = .error message code ∧
      IsFailureCode code := by
    intro failure
    cases failure with
    | request message => exact ⟨message, 2, rfl, Or.inr rfl⟩
    | internal => exact ⟨_, 1, rfl, Or.inl rfl⟩
  cases h with
  | silent failure =>
    obtain ⟨message, code, hframe, hcode⟩ := hfailure failure
    refine ⟨.error message code, hcode, ?_⟩
    rw [failureFrames, hframe]
    rfl
  | result value hvalue => exact ⟨.result value, hvalue, rfl⟩
  | raised interactive chunks failure hchunks =>
    obtain ⟨message, code, hframe, hcode⟩ := hfailure failure
    refine ⟨.stream interactive chunks (.error message code), ⟨hchunks, hcode⟩, ?_⟩
    rw [failureFrames, hframe]
    rfl
  | exited interactive chunks rc hchunks hrc =>
    exact ⟨.stream interactive chunks (.exit rc), ⟨hchunks, hrc⟩, (List.append_nil _).symm⟩

/-- What an exception is followed by. -/
def recovered (recover : Failure → Handler Unit) :
    Except Failure Unit × List Event → Except Failure Unit × List Event
  | (.ok a, sent) => (.ok a, sent)
  | (.error failure, sent) => (recover failure).run sent

theorem run_tryCatch (body : Handler Unit) (recover : Failure → Handler Unit)
    (history : List Event) :
    (tryCatch body recover).run history = recovered recover (body.run history) := by
  have hbind : ∀ (x : StateM (List Event) (Except Failure Unit))
      (f : Except Failure Unit → StateM (List Event) (Except Failure Unit)),
      (x >>= f) history = f (x history).1 (x history).2 := fun x f => rfl
  simp only [tryCatch, tryCatchThe, MonadExceptOf.tryCatch, ExceptT.tryCatch, ExceptT.run_mk]
  rw [hbind]
  show _ = recovered recover (body history)
  generalize body history = answer
  obtain ⟨result, sent⟩ := answer
  cases result <;> rfl

/-- The frames that are sent for the first line of a connection are an answer. -/
theorem handleRequest_answers (s : Services) (floats : FloatText) {limit : Nat}
    (hencodes : s.Encodes limit) (hlimit : 2 ≤ limit) {sent : List UInt8} {op : Str}
    (hop : ∀ op' req, decodeRequest floats limit (readline sent) = .ok (op', req) → op' = op) :
    ∃ answer : Answer, answer.IsValid limit ∧
      sentFrames (events (handleRequest floats limit (rpcOperations s) sent)) = answer.frames op := by
  cases hdecode : decodeRequest floats limit (readline sent) with
  | error failure =>
    have hsilent : Attempt limit op _ _ := .silent failure
    obtain ⟨answer, hvalid, hframes⟩ := hsilent.answer
    refine ⟨answer, hvalid, ?_⟩
    rw [events_handleRequest hdecode, events, run_answerFailure, hframes]
    rfl
  | ok request =>
    obtain ⟨op', req⟩ := request
    obtain rfl := hop op' req hdecode
    have hallowed : op' ∈ allowedOps := by
      obtain ⟨value, -, hvalue⟩ := bind_ok_iff.mp hdecode
      cases value with
      | dict req =>
        obtain ⟨op, hshape, hpair⟩ := bind_ok_iff.mp hvalue
        cases hpair
        obtain ⟨allowed, -, hmem, -⟩ := validateRequestShape_ok hshape
        exact hmem
      | _ => cases hvalue
    obtain ⟨sentEvents, hevents, hattempt⟩ :=
      attempts_dispatch s hencodes hlimit hallowed req []
    obtain ⟨answer, hvalid, hframes⟩ := hattempt.answer
    refine ⟨answer, hvalid, ?_⟩
    rw [hframes, events, handleRequest, run_tryCatch, hdecode]
    show sentFrames (recovered answerFailure ((dispatch _ op' req).run [])).2 = _
    generalize (dispatch (rpcOperations s) op' req).run [] = attempt at hevents ⊢
    obtain ⟨result, sent⟩ := attempt
    have hsent : sent = sentEvents := hevents
    cases result with
    | ok a =>
      show sentFrames sent = sentFrames sentEvents ++ []
      rw [hsent, List.append_nil]
    | error failure =>
      show sentFrames ((answerFailure failure).run sent).2 = sentFrames sentEvents ++ [failure.frame]
      rw [run_answerFailure]
      show sentFrames (sent ++ [.sent failure.frame]) = _
      rw [sentFrames_append, hsent]
      rfl

/-! ## The client -/

section

variable (render : Message → Str)

/-- The text of a message as a client reads it. -/
def received (message : Message) : Value := .str (rejoin (render message))

def Final.shows : Final → List Shown
  | .exit _ => []
  | .error message _ => [.failure (received render message)]

def Final.code : Final → Int
  | .exit code => code
  | .error _ code => code

/-- What is shown of an answer: a result, or every chunk in its order, before a failure. -/
def Answer.shows (op : Str) : Answer → List Shown
  | .error _ _ => []
  | .result .none => []
  | .result value => [.result value]
  | .stream _ chunks final =>
    (classOf op).toList.map .securityClass ++ (chunks.map .output ++ final.shows render)

/-- What the client ends with: the code of the last frame, which it dies with when there is no other. -/
def Answer.ending : Answer → Except Ended Int
  | .error message code => .error (.died (received render message) code)
  | .result _ => .ok 0
  | .stream _ _ final => .ok final.code

end

section

variable {limit : Nat}

theorem pairFree_b64encode (data : List UInt8) : PairFree (Base64.b64encode data) :=
  pairFree_of_scalar fun c hc => Or.inl (Nat.lt_trans (Base64.isAscii_b64encode data c hc) (by decide))

theorem readable_error {message : Message} {code : Int} (hlimit : 1 ≤ limit)
    (hcode : code.natAbs < 2 ^ 32) : (Frame.error message code).Readable limit where
  serializable _ := by
    have hnames : [str "type", str "message", str "code"].Nodup := by decide
    exact ⟨hnames, fun _ => pairFree_str _, fun _ => pairFree_str _, fun _ => pairFree_str _,
      fun _ => pairFree_rejoin _, fun _ => pairFree_str _, serializable_int hcode, trivial⟩
  nesting _ := hlimit

theorem readable_output (data : List UInt8) (hlimit : 1 ≤ limit) :
    (Frame.output data).Readable limit where
  serializable _ := by
    have hnames : [str "type", str "data"].Nodup := by decide
    exact ⟨hnames, fun _ => pairFree_str _, fun _ => pairFree_str _, fun _ => pairFree_str _,
      fun _ => pairFree_b64encode data, trivial⟩
  nesting _ := hlimit

theorem readable_start (interactive : Bool) (op : Str) (hlimit : 1 ≤ limit) :
    (Frame.start interactive (classOf op)).Readable limit := by
  have hnames : [str "type", str "interactive"].Nodup := by decide
  have hnames' : [str "type", str "interactive", str "security_class"].Nodup := by decide
  unfold classOf
  split
  · exact ⟨fun _ => ⟨hnames', fun _ => pairFree_str _, fun _ => pairFree_str _,
      fun _ => pairFree_str _, trivial, fun _ => pairFree_str _, fun _ => pairFree_str _, trivial⟩,
      fun _ => hlimit⟩
  · exact ⟨fun _ => ⟨hnames, fun _ => pairFree_str _, fun _ => pairFree_str _,
      fun _ => pairFree_str _, trivial, trivial⟩, fun _ => hlimit⟩

theorem readable_exit {code : Int} (op : Str) (hlimit : 1 ≤ limit) (hcode : code.natAbs < 2 ^ 32) :
    (Frame.exit code (classOf op)).Readable limit := by
  have hnames : [str "type", str "code"].Nodup := by decide
  have hnames' : [str "type", str "code", str "security_class"].Nodup := by decide
  have hint := serializable_int hcode
  unfold classOf
  split
  · exact ⟨fun _ => ⟨hnames', fun _ => pairFree_str _, fun _ => pairFree_str _,
      fun _ => pairFree_str _, hint, fun _ => pairFree_str _, fun _ => pairFree_str _, trivial⟩,
      fun _ => hlimit⟩
  · exact ⟨fun _ => ⟨hnames, fun _ => pairFree_str _, fun _ => pairFree_str _,
      fun _ => pairFree_str _, hint, trivial⟩, fun _ => hlimit⟩

theorem IsExitCode.small {code : Int} (h : IsExitCode code) : code.natAbs < 2 ^ 32 :=
  Nat.lt_trans h (by decide)

theorem IsFailureCode.small {code : Int} (h : IsFailureCode code) : code.natAbs < 2 ^ 32 := by
  rcases h with rfl | rfl
  · decide
  · decide

theorem Final.IsValid.readable {final : Final} (h : final.IsValid) (op : Str) (hlimit : 1 ≤ limit) :
    (final.frame op).Readable limit := by
  cases final with
  | exit code => exact readable_exit op hlimit (IsExitCode.small h)
  | error message code => exact readable_error hlimit (IsFailureCode.small h)

theorem Answer.IsValid.readable {answer : Answer} (h : answer.IsValid limit) (op : Str)
    (hlimit : 1 ≤ limit) : ∀ frame ∈ answer.frames op, frame.Readable limit := by
  cases answer with
  | error message code =>
    exact List.forall_mem_singleton.mpr (readable_error hlimit (IsFailureCode.small h))
  | result value => exact List.forall_mem_singleton.mpr h
  | stream interactive chunks final =>
    intro frame hframe
    rcases List.mem_cons.mp hframe with rfl | hframe
    · exact readable_start interactive op hlimit
    · rcases List.mem_append.mp hframe with hchunk | hfinal
      · obtain ⟨chunk, -, rfl⟩ := List.mem_map.mp hchunk
        exact readable_output chunk hlimit
      · rw [List.mem_singleton.mp hfinal]
        exact h.2.readable op hlimit

end

/-! ### What is received -/

section

variable {floats : FloatText} {limit : Nat} {decimal : CodePoint → Option Nat}
  {render : Message → Str} {line : List UInt8} {rest : List (List UInt8)}

/-- The line is read as what the frame says. -/
def Says (floats : FloatText) (limit : Nat) (render : Message → Str) (line : List UInt8)
    (frame : Frame) : Prop :=
  loadsBytes floats limit line = .ok (frame.asValue fun message => rejoin (render message))

theorem recvLine_ok {msg : Dict} (h : loadsBytes floats limit line = .ok (.dict msg)) :
    recvLine floats limit line = pure msg := by
  rw [recvLine, h]

theorem dataOf_output (data : List UInt8) :
    dataOf (items [("type", .str (str "output")), ("data", .str (Base64.b64encode data))]) =
      pure data := by
  have htype : str "data" ≠ str "type" := by decide
  unfold dataOf
  rw [getOr_tail htype, getOr_head]
  dsimp only
  rw [Base64.b64decode_b64encode]

theorem codeOf_int {msg : Dict} {default : Int} (code : Int)
    (h : getOr msg "code" (.int default) = .int code) : codeOf decimal msg default = pure code := by
  rw [codeOf, h]
  rfl

theorem receiveStream_output {cls : Option Str} {cancelSent : Bool} {chunk : List UInt8}
    (h : Says floats limit render line (.output chunk)) (shown : List Shown) :
    (receiveStream floats limit decimal cls cancelSent (line :: rest)).run shown =
      (receiveStream floats limit decimal cls cancelSent rest).run (shown ++ [.output chunk]) := by
  rw [receiveStream, recvLine_ok h]
  simp only [pure_bind, getOr_head]
  rw [if_pos (by decide), dataOf_output]
  rfl

/-- Every chunk is written as it was sent, in the order in which they were sent. -/
theorem receiveStream_outputs (cls : Option Str) (cancelSent : Bool) (shown : List Shown)
    {chunks : List (List UInt8)} {lines : List (List UInt8)} {last : Frame}
    (h : List.Forall₂ (Says floats limit render) lines (chunks.map .output ++ [last])) :
    ∃ line, Says floats limit render line last ∧
      (receiveStream floats limit decimal cls cancelSent lines).run shown =
        (receiveStream floats limit decimal cls cancelSent [line]).run
          (shown ++ chunks.map .output) := by
  induction chunks generalizing lines shown with
  | nil =>
    cases h with
    | cons hline hrest =>
      cases hrest
      exact ⟨_, hline, by rw [List.map_nil, List.append_nil]⟩
  | cons chunk chunks ih =>
    cases h with
    | cons hline hrest =>
      obtain ⟨line, hlast, hrun⟩ := ih (shown ++ [.output chunk]) hrest
      refine ⟨line, hlast, ?_⟩
      rw [receiveStream_output hline, hrun, List.append_assoc]
      rfl

theorem finishStream_exit (op : Str) (code : Int) :
    finishStream decimal (classOf op)
      (items (("type", .str (str "exit")) :: ("code", .int code) :: classField (classOf op))) =
      pure code := by
  have hcode : str "code" ≠ str "type" := by decide
  have hclass : str "security_class" ≠ str "type" := by decide
  have hclass' : str "security_class" ≠ str "code" := by decide
  have hsame : ((classOf op).any fun name => !(getOr (items (("type", .str (str "exit")) ::
      ("code", .int code) :: classField (classOf op))) "security_class" .none).isStr name) = false := by
    rw [getOr_tail hclass, getOr_tail hclass']
    cases classOf op with
    | none => rfl
    | some name =>
      rw [classField, getOr_head, Option.any_some, Value.isStr]
      simp
  unfold finishStream
  rw [hsame, if_neg Bool.false_ne_true, codeOf_int code (by rw [getOr_tail hcode, getOr_head])]

theorem receiveStream_final {op : Str} {cancelSent : Bool} {final : Final} (shown : List Shown)
    (h : Says floats limit render line (final.frame op)) :
    (receiveStream floats limit decimal (classOf op) cancelSent [line]).run shown =
      (.ok final.code, shown ++ final.shows render) := by
  cases final with
  | exit code =>
    rw [receiveStream, recvLine_ok h]
    simp only [pure_bind, getOr_head]
    rw [if_neg (by decide), if_pos (by decide), finishStream_exit]
    exact congrArg (Prod.mk _) (List.append_nil shown).symm
  | error message code =>
    have hmessage : str "message" ≠ str "type" := by decide
    have hcode : str "code" ≠ str "type" := by decide
    have hcode' : str "code" ≠ str "message" := by decide
    rw [receiveStream, recvLine_ok h]
    simp only [pure_bind, getOr_head]
    rw [if_neg (by decide), if_neg (by decide), if_pos (by decide), getOr_tail hmessage, getOr_head,
      codeOf_int code (by rw [getOr_tail hcode, getOr_tail hcode', getOr_head])]
    rfl

theorem runSecurityClass_start (interactive : Bool) :
    runSecurityClass (items (("type", .str (str "start")) :: ("interactive", .bool interactive) ::
      classField (classOf (str "run")))) = (do
        display (.securityClass (str "compatibility"))
        return str "compatibility") := by
  have hclass : str "security_class" ≠ str "type" := by decide
  have hclass' : str "security_class" ≠ str "interactive" := by decide
  unfold runSecurityClass
  rw [getOr_tail hclass, getOr_tail hclass', classOf, if_pos rfl, classField, getOr_head]
  dsimp only
  rw [if_pos List.mem_cons_self]

theorem startStream_start {request : Dict} {op : Str} {cancelSent interactive : Bool}
    {chunks : List (List UInt8)} {final : Final} {lines : List (List UInt8)}
    (hop : getOr request "op" .none = .str op)
    (h : List.Forall₂ (Says floats limit render) lines (chunks.map .output ++ [final.frame op])) :
    (startStream floats limit decimal request cancelSent (items (("type", .str (str "start")) ::
      ("interactive", .bool interactive) :: classField (classOf op))) lines).run [] =
      (.ok final.code, (classOf op).toList.map .securityClass ++
        (chunks.map .output ++ final.shows render)) := by
  have hstream : ∀ shown, (receiveStream floats limit decimal (classOf op) cancelSent lines).run shown =
      (.ok final.code, shown ++ chunks.map .output ++ final.shows render) := by
    intro shown
    obtain ⟨line, hlast, hrun⟩ := receiveStream_outputs (classOf op) cancelSent shown h
    rw [hrun, receiveStream_final _ hlast]
  unfold startStream
  rw [hop]
  by_cases hrun : op = str "run"
  · subst hrun
    rw [if_pos (by decide), runSecurityClass_start]
    show (receiveStream floats limit decimal (classOf (str "run")) cancelSent lines).run
      [.securityClass (str "compatibility")] = _
    rw [hstream, List.append_assoc]
    rfl
  · have hnot : (Value.str op).isStr (str "run") = false := decide_eq_false hrun
    rw [hnot, if_neg Bool.false_ne_true, ← classOf_eq_none hrun, hstream, classOf_eq_none hrun,
      List.nil_append]
    rfl

/-- The client takes an answer for what it is. -/
theorem rpc_answer {answer : Answer} {op : Str} {request : Dict} {cancelSent : Bool}
    {received : List UInt8} (hop : getOr request "op" .none = .str op)
    (h : List.Forall₂ (Says floats limit render) (readlines received) (answer.frames op)) :
    (rpc floats limit decimal request cancelSent received).run [] =
      (answer.ending render, answer.shows render op) := by
  unfold rpc
  cases answer with
  | error message code =>
    have hmessage : str "message" ≠ str "type" := by decide
    have hcode : str "code" ≠ str "type" := by decide
    have hcode' : str "code" ≠ str "message" := by decide
    generalize readlines received = lines at h
    cases h with
    | cons hline hrest =>
      cases hrest
      dsimp only
      rw [recvLine_ok hline]
      simp only [pure_bind, getOr_head]
      rw [if_pos (by decide), codeOf_int code (by
        rw [getOr_tail hcode, getOr_tail hcode', getOr_head]), getOr_tail hmessage, getOr_head]
      rfl
  | result value =>
    have hresult : str "result" ≠ str "type" := by decide
    have hcode : str "code" ≠ str "type" := by decide
    have hcode' : str "code" ≠ str "result" := by decide
    generalize readlines received = lines at h
    cases h with
    | cons hline hrest =>
      cases hrest
      dsimp only
      rw [recvLine_ok hline]
      simp only [pure_bind, getOr_head]
      rw [if_neg (by decide), if_pos (by decide), codeOf_int 0 (by
        rw [getOr_tail hcode, getOr_tail hcode', getOr_head]), getOr_tail hresult, getOr_head]
      cases value <;> rfl
  | stream interactive chunks final =>
    generalize readlines received = lines at h
    cases h with
    | cons hline hrest =>
      dsimp only
      rw [recvLine_ok hline]
      simp only [pure_bind, getOr_head]
      rw [if_neg (by decide), if_neg (by decide), if_pos (by decide)]
      exact startStream_start hop hrest

end

theorem readline_lineBytes {floats : FloatText} {value : Value} {line : List UInt8}
    (h : lineBytes floats value = .ok line) (hserial : Serializable lineFormat value) :
    readline line = line := by
  obtain ⟨text, -, hplain, hbytes⟩ := lineBytes_eq floats hserial
  cases hbytes.symm.trans h
  have hbody : ∀ body : List UInt8, 0x0A ∉ body → readline (body ++ [0x0A]) = body ++ [0x0A] := by
    intro body hnot
    induction body with
    | nil => rfl
    | cons b body ih =>
      have hb : b ≠ 0x0A := fun heq => hnot (heq ▸ List.mem_cons_self)
      rw [List.cons_append, readline, if_neg hb, ih fun hmem => hnot (List.mem_cons_of_mem b hmem)]
  rw [List.map_append]
  apply hbody
  intro hmem
  obtain ⟨c, hc, heq⟩ := List.mem_map.mp hmem
  exact isPlain_not_newline (hplain c hc) heq

/-- A session of a client with the broker, over a connection that loses nothing: the frames of the broker
are one answer, whatever the operation is and wherever an exception ends it, and the client, who has
read them as they were sent, shows every chunk in its order and ends with the code of the last
frame. It never dies of a frame that it did not expect. -/
theorem session_answers (s : Services) (floats : FloatText) (decimal : CodePoint → Option Nat)
    (render : Message → Str) {limit : Nat} (hencodes : s.Encodes limit) (hlimit : 2 ≤ limit)
    {request : Dict} {op : Str} {line : List UInt8} (cancelSent : Bool)
    (hop : request.get? (str "op") = some (.str op))
    (hserial : Serializable lineFormat (.dict request)) (hnesting : nesting (.dict request) ≤ limit)
    (hline : lineBytes floats (.dict request) = .ok line) :
    ∃ (answer : Answer) (received : List UInt8), answer.IsValid limit ∧
      sentFrames (events (handleRequest floats limit (rpcOperations s) line)) = answer.frames op ∧
      frameBytes floats render (answer.frames op) = .ok received ∧
      (rpc floats limit decimal request cancelSent received).run [] =
        (answer.ending render, answer.shows render op) := by
  have hread : readline line = line := readline_lineBytes hline hserial
  have hloads := loadsBytes_lineBytes hline hserial hnesting
  have hdecoded : ∀ op' req, decodeRequest floats limit (readline line) = .ok (op', req) →
      op' = op := by
    intro op' req hdecode
    rw [hread] at hdecode
    obtain ⟨value, hvalue, hshape⟩ := bind_ok_iff.mp hdecode
    have hsame : value = .dict request := by
      rcases recvJsonLine_ok hvalue with ⟨hempty, -⟩ | ⟨-, hok⟩
      · rw [hempty] at hloads
        cases hloads
      · exact Except.ok.inj (hok.symm.trans hloads)
    rw [hsame] at hshape
    obtain ⟨found, hfound, hpair⟩ := bind_ok_iff.mp hshape
    cases hpair
    obtain ⟨allowed, hget, -⟩ := validateRequestShape_ok hfound
    exact Value.str.inj (Option.some.inj (hget.symm.trans hop))
  obtain ⟨answer, hvalid, hframes⟩ := handleRequest_answers s floats hencodes hlimit hdecoded
  obtain ⟨received, hreceived, hsays⟩ := frameBytes_ok floats render
    (hvalid.readable op (Nat.le_of_succ_le hlimit))
  have hget : getOr request "op" .none = .str op := by
    rw [getOr, hop, Option.getD_some]
  exact ⟨answer, received, hvalid, hframes, hreceived, rpc_answer hget hsays⟩

/-- Surroundings in which every process writes one line, and only Codex has an image. -/
def exampleServices : Services where
  uid := 1000
  uid_small := by decide
  config := Execution.exampleConfig
  versions := []
  containers := str "/srv/agent-dev/platform/containers"
  buildLock := str "/var/lib/agent-dev/build-manifest.lock.json"
  smoke := str "/srv/agent-dev/tmp/smoke"
  result _ _ _ := .ok .none
  surroundings _ := Execution.exampleSurroundings
  index _ := Execution.indexServices
  returncode _ _ := .ok 0
  process _ _ _ _ := {
    chunks := [[49, 10]]
    ending := .ok 0
    isExitCode := by
      intro rc hrc
      cases hrc
      decide
  }
  writeBuildLock _ := .ok ()
  hostPort _ := .ok (str "8080")
  prepareSmoke _ := .ok ()
  lockOne _ _ := .ok ()

def versionsRequest : Dict := [(.str (str "op"), .str (str "versions"))]

def versionsLine : List UInt8 := (str "\x7b\"op\":\"versions\"\x7d\n").map asciiByte

/-- The version of Codex is shown, and then the request fails because Cursor has no image. -/
theorem session_answers_versions : ∃ received,
    frameBytes exactDecimals (fun _ => str "failed") (sentFrames (events (handleRequest exactDecimals
        1000 (rpcOperations exampleServices) versionsLine))) = .ok received ∧
      (rpc exactDecimals 1000 (fun _ => none) versionsRequest false received).run [] =
        (.ok 1, [.output [49, 10], .failure (.str (str "failed"))]) := by
  have hserial : Serializable lineFormat (.dict versionsRequest) :=
    ⟨by decide, fun _ => pairFree_str _, fun _ => pairFree_str _, trivial⟩
  have hencodes : exampleServices.Encodes 1000 := by
    intro op req history value hvalue
    cases hvalue
    exact ⟨trivial, by decide⟩
  have hline : lineBytes exactDecimals (.dict versionsRequest) = .ok versionsLine := by
    decide +kernel
  obtain ⟨answer, received, -, hframes, hreceived, hrpc⟩ := @session_answers exampleServices
    exactDecimals (fun _ => none) (fun _ => str "failed") 1000 hencodes (by decide) versionsRequest
    (str "versions") versionsLine false rfl hserial (by decide) hline
  have hdecode : decodeRequest exactDecimals 1000 (readline versionsLine) =
      .ok (str "versions", versionsRequest) := by
    rw [readline_lineBytes hline hserial, decodeRequest, recvJsonLine, if_neg (by decide +kernel),
      if_neg (by decide +kernel), loadsBytes_lineBytes hline hserial (by decide)]
    rfl
  have hsent : answer.frames (str "versions") = [.start false none, .output [49, 10],
      .error [.text (str "internal broker error")] 1] := by
    rw [← hframes, events, handleRequest, run_tryCatch, hdecode]
    rfl
  refine ⟨received, hframes ▸ hreceived, ?_⟩
  rw [hrpc]
  cases answer with
  | error message code => cases hsent
  | result value => cases hsent
  | stream interactive chunks final =>
    have htail : chunks.map .output ++ [final.frame (str "versions")] =
        [.output [49, 10]] ++ [.error [.text (str "internal broker error")] 1] :=
      (List.cons.inj hsent).2
    obtain ⟨hchunks, hfinal⟩ := List.append_inj' htail rfl
    have hlist : chunks = [[49, 10]] := by
      apply List.map_injective_iff.mpr (fun a b hab => Frame.output.inj hab)
      exact hchunks
    subst hlist
    cases final with
    | exit code => cases hfinal
    | error message code =>
      cases hfinal
      rfl

end AgentDev.Broker
