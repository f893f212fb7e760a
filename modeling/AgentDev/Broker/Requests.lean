import AgentDev.Policy.Schema
import AgentDev.Python.Decimals
import AgentDev.Python.JsonBytes
import AgentDev.Python.Surrogates

/-!
# Requests

`broker/rpc.py`: a request is the first line of a connection, it has the fields of its operation, and
it is answered with frames. What the operations do is a parameter.

A line that is no request is answered with one error frame of code 2 if and only if the line can be
read without an exception other than `JSONDecodeError` and its operation can be looked up in a set
(`Rejectable`).
-/

namespace AgentDev.Broker

open Python Policy
open Python.Json hiding Unit

/-! ## Requests -/

/-- What ends a request before its answer. -/
inductive Failure
  /-- `RequestError` -/
  | request (message : Message)
  /-- Any other exception. -/
  | internal

def requestError (text : Str) : Failure := .request [.text text]

def allowedOps : List Str :=
  [str "ping", str "build", str "auth", str "status", str "versions", str "smoke", str "run",
    str "index", str "project-init", str "project-sync", str "project-export", str "project-status",
    str "task-start", str "task-complete", str "task-merge", str "task-abort", str "task-list"]

def requestFields : List (Str × List Str) :=
  [(str "ping", [str "op"]),
    (str "build", [str "op"]),
    (str "status", [str "op"]),
    (str "versions", [str "op"]),
    (str "smoke", [str "op"]),
    (str "auth", [str "op", str "provider"]),
    (str "index", [str "op", str "project", str "task"]),
    (str "run", [str "op", str "provider", str "project", str "task", str "readonly",
      str "outer_only", str "prompt"]),
    (str "project-init", [str "op", str "project", str "bundle"]),
    (str "project-sync", [str "op", str "project", str "bundle"]),
    (str "project-export", [str "op", str "project"]),
    (str "project-status", [str "op", str "project"]),
    (str "task-start", [str "op", str "project", str "task", str "parallel", str "dependencies"]),
    (str "task-complete", [str "op", str "project", str "task"]),
    (str "task-merge", [str "op", str "project", str "task"]),
    (str "task-abort", [str "op", str "project", str "task"]),
    (str "task-list", [str "op", str "project"])]

/-- Every operation has its fields. -/
theorem lookup_requestFields {op : Str} (h : op ∈ allowedOps) :
    (requestFields.lookup op).isSome = true := by
  have hall : allowedOps.all (fun op => (requestFields.lookup op).isSome) = true := by
    decide +kernel
  exact List.all_eq_true.mp hall op h

/-- `fileobj.readline()`: the bytes up to the first line end, or all of them. -/
def readline : List UInt8 → List UInt8
  | [] => []
  | b :: rest => if b = 0x0A then [b] else b :: readline rest

/-- `recv_json_line`; at the end of the connection the value is `None`. -/
def recvJsonLine (floats : FloatText) (limit : Nat) (line : List UInt8) : Except Failure Value :=
  if line = [] then .ok .none
  else if 1024 * 1024 < line.length then .error (requestError (str "RPC frame too large"))
  else
    match loadsBytes floats limit line with
    | .ok value => .ok value
    | .error .decode => .error (requestError (str "invalid JSON request"))
    | .error _ => .error .internal

/-- `set(req) - allowed` -/
def unknownFields (req : Dict) (allowed : List Str) : List Str := req.names.filter (· ∉ allowed)

/-- The request has only the fields of its operation. -/
def checkFields (op : Str) (req : Dict) : Except Failure Str :=
  match requestFields.lookup op with
  | none => .error .internal
  | some allowed =>
    if unknownFields req allowed = [] then .ok op
    else
      .error (.request [.text (str "unexpected RPC fields for " ++ op ++ str ": "),
        .repr (.seq ((sorted (unknownFields req allowed)).map .str))])

/-- `validate_request_shape`, with the operation. -/
def validateRequestShape (req : Dict) : Except Failure Str :=
  match (req.get? (str "op")).getD .none with
  | .str op =>
    if op ∈ allowedOps then checkFields op req
    else .error (requestError (str "unsupported operation"))
  -- A list and a mapping have no hash, so they cannot be looked up in the set of the operations.
  | .seq _ => .error .internal
  | .dict _ => .error .internal
  | _ => .error (requestError (str "unsupported operation"))

/-! ## Answers -/

/-- The frames of the broker. -/
inductive Frame
  | result (result : Value) (code : Int)
  | error (message : Message) (code : Int)
  | start (interactive : Bool) (securityClass : Option Str)
  | output (data : List UInt8)
  | exit (code : Int) (securityClass : Option Str)

/-- What happens while a request is handled. -/
inductive Event
  | sent (frame : Frame)
  | called (op : Str)

/-- Code that sends frames and may raise. -/
abbrev Handler := ExceptT Failure (StateM (List Event))

def note (event : Event) : Handler Unit := modify (· ++ [event])

/-- `send` -/
def send (frame : Frame) : Handler Unit := note (.sent frame)

/-- An operation is called. -/
def call {α : Type} (op : Str) (operation : Handler α) : Handler α := do
  note (.called op)
  operation

/-- `BrokerOperations` -/
structure BrokerOperations where
  resultOps : List (Str × (Dict → Handler Value))
  build : Handler Int
  status : Handler Int
  versions : Handler Int
  smoke : Handler Int
  index : Dict → Handler Int
  auth : Value → Handler Int
  run : Dict → Handler Int
  /-- `os.getuid()` -/
  uid : Int

/-- `{"status": "ok", "uid": os.getuid()}` -/
def pingResult (uid : Int) : Value :=
  .dict [(.str (str "status"), .str (str "ok")), (.str (str "uid"), .int uid)]

/-- An operation whose frames are sent around it. -/
def started (op : Str) (operation : Handler Int) : Handler Unit := do
  send (.start false none)
  let rc ← call op operation
  send (.exit rc none)

/-- The operation of a request. -/
def dispatch (operations : BrokerOperations) (op : Str) (req : Dict) : Handler Unit :=
  if op = str "ping" then send (.result (pingResult operations.uid) 0)
  else
    match operations.resultOps.lookup op with
    | some operation => do send (.result (← call op (operation req)) 0)
    | none =>
      if op = str "build" then started op operations.build
      else if op = str "status" then started op operations.status
      else if op = str "versions" then started op operations.versions
      else if op = str "smoke" then started op operations.smoke
      else if op = str "index" then started op (operations.index req)
      else if op = str "auth" then do
        let _rc ← call op (operations.auth ((req.get? (str "provider")).getD .none))
      else if op = str "run" then do
        let _rc ← call op (operations.run req)
      else return ()

/-- The request of a line. -/
def decodeRequest (floats : FloatText) (limit : Nat) (line : List UInt8) :
    Except Failure (Str × Dict) := do
  match ← recvJsonLine floats limit line with
  | .dict req => return (← validateRequestShape req, req)
  | _ => throw (requestError (str "invalid request"))

/-- The exceptions of a request are answered. -/
def answerFailure : Failure → Handler Unit
  | .request message => send (.error message 2)
  | .internal => send (.error [.text (str "internal broker error")] 1)

/-- `handle_request` of a connection on which these bytes are sent. -/
def handleRequest (floats : FloatText) (limit : Nat) (operations : BrokerOperations)
    (sent : List UInt8) : Handler Unit :=
  tryCatch
    (do
      let (op, req) ← (decodeRequest floats limit (readline sent) : Except Failure (Str × Dict))
      dispatch operations op req)
    answerFailure

/-- The events of a request. -/
def events (handler : Handler Unit) : List Event := (handler.run []).2

/-! ## Lines that are no requests -/

section

variable {floats : FloatText} {limit : Nat}

/-- The line is an object that has an operation and only the fields of that operation. -/
def IsRequest (floats : FloatText) (limit : Nat) (line : List UInt8) : Prop :=
  ∃ (req : Dict) (op : Str) (allowed : List Str), loadsBytes floats limit line = .ok (.dict req) ∧
    req.get? (str "op") = some (.str op) ∧ op ∈ allowedOps ∧
    requestFields.lookup op = some allowed ∧ ∀ name ∈ req.names, name ∈ allowed

/-- The bytes can be decoded, and no array or object is too deep and no numeral too long before the
end or the first error of the syntax. -/
def Readable (floats : FloatText) (limit : Nat) (line : List UInt8) : Prop :=
  ∃ text, decode line (detectEncoding line) = some text ∧
    depth floats (2 * text.length + 1) (skip text) ≤ limit ∧
    (loads floats text = .error .decode ∨ ∃ value, loads floats text = .ok value)

/-- A list or a mapping. -/
def IsContainer : Value → Prop
  | .seq _ => True
  | .dict _ => True
  | _ => False

/-- The line is too long, or it can be read and its operation has a hash. -/
def Rejectable (floats : FloatText) (limit : Nat) (line : List UInt8) : Prop :=
  1024 * 1024 < line.length ∨ Readable floats limit line ∧
    ∀ (req : Dict) (op : Value), loadsBytes floats limit line = .ok (.dict req) → req.get? (str "op") = some op →
      ¬IsContainer op

theorem readable_iff {line : List UInt8} : Readable floats limit line ↔
    loadsBytes floats limit line = .error .decode ∨
      ∃ value, loadsBytes floats limit line = .ok value := by
  unfold Readable loadsBytes
  cases htext : decode line (detectEncoding line) with
  | none => simp
  | some text =>
    simp only [Option.some.injEq, exists_eq_left', loadsWithin]
    by_cases hdepth : limit < depth floats (2 * text.length + 1) (skip text)
    · simp [hdepth]
    · rw [if_neg hdepth]
      simp only [Nat.not_lt.mp hdepth, true_and]
      cases loads floats text with
      | ok value => simp
      | error error => cases error <;> simp

theorem checkFields_ok {req : Dict} {op op' : Str} (h : checkFields op req = .ok op') :
    op' = op ∧ ∃ allowed, requestFields.lookup op = some allowed ∧
      ∀ name ∈ req.names, name ∈ allowed := by
  unfold checkFields at h
  split at h
  · cases h
  · rename_i allowed hallowed
    split at h
    · rename_i hunknown
      cases h
      refine ⟨rfl, allowed, hallowed, ?_⟩
      intro name hname
      by_contra hnot
      have hmem : name ∈ unknownFields req allowed :=
        List.mem_filter.mpr ⟨hname, decide_eq_true hnot⟩
      rw [hunknown] at hmem
      cases hmem
    · cases h

theorem checkFields_not_internal {req : Dict} {op : Str} (h : op ∈ allowedOps) :
    checkFields op req ≠ .error .internal := by
  obtain ⟨allowed, hallowed⟩ := Option.isSome_iff_exists.mp (lookup_requestFields h)
  rw [checkFields, hallowed]
  dsimp only
  split
  · intro heq
    cases heq
  · intro heq
    cases heq

theorem validateRequestShape_ok {req : Dict} {op : Str} (h : validateRequestShape req = .ok op) :
    ∃ allowed, req.get? (str "op") = some (.str op) ∧ op ∈ allowedOps ∧
      requestFields.lookup op = some allowed ∧ ∀ name ∈ req.names, name ∈ allowed := by
  unfold validateRequestShape at h
  cases hop : req.get? (str "op") with
  | none =>
    rw [hop] at h
    cases h
  | some value =>
    rw [hop, Option.getD_some] at h
    cases value with
    | str name =>
      dsimp only at h
      split at h
      · rename_i hallowed
        obtain ⟨rfl, allowed, hlookup, hnames⟩ := checkFields_ok h
        exact ⟨allowed, rfl, hallowed, hlookup, hnames⟩
      · cases h
    | _ => cases h

theorem validateRequestShape_internal {req : Dict} : validateRequestShape req = .error .internal ↔
    ∃ op, req.get? (str "op") = some op ∧ IsContainer op := by
  unfold validateRequestShape
  cases hop : req.get? (str "op") with
  | none =>
    constructor
    · intro h
      cases h
    · rintro ⟨op, h, -⟩
      cases h
  | some value =>
    rw [Option.getD_some]
    simp only [Option.some.injEq, exists_eq_left']
    cases value with
    | str name =>
      simp only [IsContainer, iff_false]
      split
      · rename_i hallowed
        exact checkFields_not_internal hallowed
      · intro h
        cases h
    | seq values => exact ⟨fun _ => trivial, fun _ => rfl⟩
    | dict items => exact ⟨fun _ => trivial, fun _ => rfl⟩
    | _ =>
      constructor
      · intro h
        cases h
      · exact False.elim

/-! ### The answer -/

theorem recvJsonLine_ok {line : List UInt8} {value : Value}
    (h : recvJsonLine floats limit line = .ok value) :
    line = [] ∧ value = .none ∨
      line.length ≤ 1024 * 1024 ∧ loadsBytes floats limit line = .ok value := by
  unfold recvJsonLine at h
  split at h
  · rename_i hempty
    cases h
    exact Or.inl ⟨hempty, rfl⟩
  · split at h
    · cases h
    · rename_i hlength
      split at h
      · rename_i value' hloads
        cases h
        exact Or.inr ⟨Nat.not_lt.mp hlength, hloads⟩
      · cases h
      · cases h

theorem readable_nil : Readable floats limit [] :=
  readable_iff.mpr (Or.inl rfl)

theorem recvJsonLine_internal {line : List UInt8} :
    recvJsonLine floats limit line = .error .internal ↔
      line.length ≤ 1024 * 1024 ∧ ¬Readable floats limit line := by
  unfold recvJsonLine
  by_cases hempty : line = []
  · subst hempty
    simp [readable_nil]
  · rw [if_neg hempty]
    by_cases hlength : 1024 * 1024 < line.length
    · rw [if_pos hlength]
      constructor
      · intro h
        cases h
      · rintro ⟨h, -⟩
        omega
    · rw [if_neg hlength, readable_iff]
      cases loadsBytes floats limit line with
      | ok value => simp
      | error error => cases error <;> simp [requestError] <;> omega

theorem decodeRequest_ok {line : List UInt8} {request : Str × Dict}
    (h : decodeRequest floats limit line = .ok request) : IsRequest floats limit line := by
  obtain ⟨value, hvalue, h⟩ := bind_ok_iff.mp h
  cases value with
  | dict req =>
    obtain ⟨op, hop, -⟩ := bind_ok_iff.mp h
    obtain ⟨allowed, hget, hallowed, hlookup, hnames⟩ := validateRequestShape_ok hop
    rcases recvJsonLine_ok hvalue with ⟨-, hnone⟩ | ⟨-, hloads⟩
    · cases hnone
    · exact ⟨req, op, allowed, hloads, hget, hallowed, hlookup, hnames⟩
  | _ => cases h

theorem recvJsonLine_dict {line : List UInt8} {req : Dict} :
    recvJsonLine floats limit line = .ok (.dict req) ↔
      line.length ≤ 1024 * 1024 ∧ loadsBytes floats limit line = .ok (.dict req) := by
  constructor
  · intro h
    rcases recvJsonLine_ok h with ⟨-, hnone⟩ | hloads
    · cases hnone
    · exact hloads
  · rintro ⟨hlength, hloads⟩
    have hne : line ≠ [] := by
      rintro rfl
      cases hloads
    rw [recvJsonLine, if_neg hne, if_neg (Nat.not_lt.mpr hlength), hloads]

theorem decodeRequest_internal_cases {line : List UInt8} :
    decodeRequest floats limit line = .error .internal ↔
      recvJsonLine floats limit line = .error .internal ∨
        ∃ req, recvJsonLine floats limit line = .ok (.dict req) ∧
          validateRequestShape req = .error .internal := by
  unfold decodeRequest
  cases recvJsonLine floats limit line with
  | error failure =>
    show Except.error failure = .error Failure.internal ↔ _
    simp
  | ok value =>
    cases value with
    | dict req =>
      show (validateRequestShape req >>= _) = _ ↔ _
      cases hshape : validateRequestShape req with
      | error failure =>
        show Except.error failure = .error Failure.internal ↔ _
        simp [hshape]
      | ok op =>
        show Except.ok (op, req) = .error Failure.internal ↔ _
        simp [hshape]
    | _ =>
      show Except.error (requestError _) = .error Failure.internal ↔ _
      simp [requestError]

/-- An exception of another class than `RequestError` comes from exactly the lines that are not
rejectable. -/
theorem decodeRequest_internal {line : List UInt8} :
    decodeRequest floats limit line = .error .internal ↔ ¬Rejectable floats limit line := by
  rw [decodeRequest_internal_cases, recvJsonLine_internal]
  simp only [recvJsonLine_dict, validateRequestShape_internal]
  constructor
  · rintro (⟨hlength, hreadable⟩ | ⟨req, ⟨hlength, hloads⟩, op, hop, hcontainer⟩) (h | ⟨h, hops⟩)
    · omega
    · exact hreadable h
    · omega
    · exact hops req op hloads hop hcontainer
  · intro h
    have hlength : line.length ≤ 1024 * 1024 := Nat.not_lt.mp fun hlong => h (Or.inl hlong)
    by_cases hreadable : Readable floats limit line
    · right
      by_contra hnone
      apply h
      refine Or.inr ⟨hreadable, ?_⟩
      intro req op hloads hop hcontainer
      exact hnone ⟨req, ⟨hlength, hloads⟩, op, hop, hcontainer⟩
    · exact Or.inl ⟨hlength, hreadable⟩

theorem events_handleRequest {operations : BrokerOperations} {sent : List UInt8} {failure : Failure}
    (h : decodeRequest floats limit (readline sent) = .error failure) :
    events (handleRequest floats limit operations sent) = events (answerFailure failure) := by
  unfold handleRequest
  rw [h]
  rfl

/-- A line that is no request is answered with one error frame of code 2, and no operation is called,
if and only if it is rejectable. -/
theorem handleRequest_rejects_iff (operations : BrokerOperations) (sent : List UInt8)
    (h : ¬IsRequest floats limit (readline sent)) :
    (∃ message, events (handleRequest floats limit operations sent) = [.sent (.error message 2)]) ↔
      Rejectable floats limit (readline sent) := by
  cases hdecode : decodeRequest floats limit (readline sent) with
  | ok request => exact absurd (decodeRequest_ok hdecode) h
  | error failure =>
    rw [events_handleRequest hdecode]
    cases failure with
    | request message =>
      refine ⟨fun _ => ?_, fun _ => ⟨message, rfl⟩⟩
      by_contra hnot
      rw [decodeRequest_internal.mpr hnot] at hdecode
      cases hdecode
    | internal =>
      constructor
      · rintro ⟨message, hevents⟩
        have hcode : (1 : Int) = 2 := by
          cases hevents
        exact absurd hcode (by decide)
      · intro hrejectable
        exact absurd hrejectable (decodeRequest_internal.mp hdecode)

end

/-- Operations that do nothing. -/
def idleOperations : BrokerOperations where
  resultOps := []
  build := return 0
  status := return 0
  versions := return 0
  smoke := return 0
  index _ := return 0
  auth _ := return 0
  run _ := return 0
  uid := 0

/-- `{"op": []}` -/
def hashless : Value := .dict [(.str (str "op"), .seq [])]

def hashlessLine : List UInt8 := (str "\x7b\"op\":[]\x7d\n").map asciiByte

theorem loadsBytes_hashlessLine :
    loadsBytes exactDecimals 1000 (readline hashlessLine) = .ok hashless := by
  have hserial : Serializable lineFormat hashless :=
    ⟨by decide, fun _ => pairFree_str _, trivial, trivial⟩
  have hline : readline hashlessLine = hashlessLine := by decide +kernel
  have hbytes : lineBytes exactDecimals hashless = .ok hashlessLine := by decide +kernel
  rw [hline]
  exact loadsBytes_lineBytes hbytes hserial (by decide)

theorem not_isRequest_hashlessLine : ¬IsRequest exactDecimals 1000 (readline hashlessLine) := by
  rintro ⟨req, op, allowed, hloads, hop, -⟩
  rw [loadsBytes_hashlessLine] at hloads
  cases hloads
  cases hop

theorem handleRequest_internal_answer : ¬IsRequest exactDecimals 1000 (readline hashlessLine) ∧
    events (handleRequest exactDecimals 1000 idleOperations hashlessLine) =
      [.sent (.error [.text (str "internal broker error")] 1)] := by
  refine ⟨not_isRequest_hashlessLine, ?_⟩
  have hinternal : decodeRequest exactDecimals 1000 (readline hashlessLine) = .error .internal := by
    rw [decodeRequest_internal]
    rintro (hlong | ⟨-, hops⟩)
    · exact absurd hlong (by decide +kernel)
    · exact hops _ (.seq []) loadsBytes_hashlessLine rfl trivial
  rw [events_handleRequest hinternal]
  rfl

theorem handleRequest_rejects_iff_hashless :
    (∃ message, events (handleRequest exactDecimals 1000 idleOperations hashlessLine) =
        [.sent (.error message 2)]) ↔
      Rejectable exactDecimals 1000 (readline hashlessLine) :=
  handleRequest_rejects_iff idleOperations hashlessLine not_isRequest_hashlessLine

end AgentDev.Broker
