import AgentDev.Python.Base64
import AgentDev.Python.Integers
import AgentDev.Python.JsonLines
import AgentDev.Runtime.Podman

/-!
# Controls from the connection

`RpcRuntimeIO` of `broker/runtime_io.py`, with `recv_json_line` of `broker/rpc.py`: whether there is a
control is asked of the socket, and the control is read through the buffer of `conn.makefile("rb")`.
The frames that a client sends are read as the controls that they stand for (`frameControl_frame`).
-/

namespace AgentDev.Runtime

open Interleaving Python Python.Json Python.Base64

/-! ## Frames -/

section

variable (floats : FloatText) (decimal : CodePoint → Option Nat)

/-- `recv_json_line` of a line; at the end of the connection there is none. -/
def recvJsonLine (line : Str) : Except Error Value :=
  if line = [] then .ok .none
  else if 1024 * 1024 < line.length then .error (.request "RPC frame too large")
  else
    match loads floats line with
    | .ok msg => .ok msg
    | .error .decode => .error (.request "invalid JSON request")
    | .error _ => .error (.internal "json.loads")

/-- `int(msg[name])`; a `KeyError`, `TypeError` or `ValueError` is none. -/
def dimension (items : Dict) (name : Str) : Except Error (Option Int) :=
  match items.get? name with
  | none => .ok none
  | some value =>
    match toInt decimal value with
    | .ok n => .ok (some n)
    | .error .overflow => .error (.internal "int")
    | .error _ => .ok none

/-- `RuntimeControl("resize", ...)` -/
def resizeControl (items : Dict) : Except Error (Option Control) := do
  let some rows ← dimension decimal items (str "rows") | return none
  let some cols ← dimension decimal items (str "cols") | return none
  return if rows ≤ 0 || cols ≤ 0 then none else some (.resize rows cols)

/-- `RuntimeControl("input", base64.b64decode(data))` -/
def inputControl (data : Value) : Except Error (Option Control) :=
  match data with
  | .str text =>
    match b64decode text with
    | some bytes => .ok (some (.input bytes))
    | none => .error (.internal "b64decode")
  | _ => .error (.internal "b64decode")

/-- The control of a message. -/
def controlOf (msg : Value) : Except Error (Option Control) :=
  match msg with
  | .none => .ok (some .cancel)
  | .dict items =>
    let frameType := (Dict.get? items (str "type")).getD .none
    if frameType.isStr (str "input") then
      inputControl ((Dict.get? items (str "data")).getD (.str []))
    else if frameType.isStr (str "resize") then resizeControl decimal items
    else if frameType.isStr (str "cancel") then .ok (some .cancel)
    else .error (.request "unsupported interactive RPC frame")
  | _ => .error (.internal "msg.get")

/-- What a line is to `receive_control`. -/
def frameControl (line : Str) : Except Error (Option Control) := do
  controlOf decimal (← recvJsonLine floats line)

end

/-! ## The connection -/

/-- A step of `fileobj.readline()`. -/
def readStep : Run (Option Str) := do
  match ← act .readline with
  | .line text => return some text
  | .received => return none

def readLine (n : Nat) : Run Str := loop readStep n

def receiveControl (floats : FloatText) (decimal : CodePoint → Option Nat) (fileobj : Bool) (n : Nat) :
    Run (Option Control) := do
  if !fileobj then return none
  if !(← act .selectConn) then return none
  let line ← readLine n
  match frameControl floats decimal line with
  | .ok control => return control
  | .error error => .fail error

/-- What `receiveControl` makes of a line. -/
def answered (floats : FloatText) (decimal : CodePoint → Option Nat) (line : Str) :
    Run (Option Control) :=
  match frameControl floats decimal line with
  | .ok control => return control
  | .error error => .fail error

def rpcRuntimeIo (floats : FloatText) (decimal : CodePoint → Option Nat) (fileobj : Bool) (n : Nat) :
    RuntimeIO where
  writeOutput data :=
    if data = [] then return () else check (.writeOutput data) id (.internal "sendall")
  receiveControl := receiveControl floats decimal fileobj n

/-- The request line is read, whatever it is, and then an execution on a terminal begins. -/
def session (floats : FloatText) (decimal : CodePoint → Option Nat) (timeout : Option Nat)
    (timeoutOutput : Bytes) (n : Nat) : Run Int := do
  let _request ← readLine n
  runPodmanArgv (rpcRuntimeIo floats decimal true n) true timeout timeoutOutput n

/-! ## The client -/

/-- What the client sends for a control. -/
def Control.frame : Control → Value
  | .input data =>
    .dict [(.str (str "type"), .str (str "input")), (.str (str "data"), .str (b64encode data))]
  | .resize rows cols =>
    .dict [(.str (str "type"), .str (str "resize")), (.str (str "rows"), .int rows),
      (.str (str "cols"), .int cols)]
  | .cancel => .dict [(.str (str "type"), .str (str "cancel"))]

theorem pairFree_of_ascii {s : Str} (h : ∀ c ∈ s, c.val < 128) : PairFree s := by
  induction s with
  | nil => exact List.IsChain.nil
  | cons c rest ih =>
    have hrest := ih fun d hd => h d (List.mem_cons_of_mem c hd)
    have hc : isHigh c = false := by
      have hlt := h c List.mem_cons_self
      simp only [isHigh, Bool.and_eq_false_iff, decide_eq_false_iff_not]
      omega
    cases rest with
    | nil => exact List.IsChain.singleton c
    | cons d rest => exact List.IsChain.cons_cons (by rw [hc]; rfl) hrest

/-- Input and cancellations; a resize can have too many digits. -/
theorem serializable_frame {control : Control} (h : ∀ rows cols, control ≠ .resize rows cols) :
    Serializable lineFormat control.frame := by
  have hliteral : ∀ {name : String}, (str name).all (fun c => c.val < 128) = true →
      PairFree (str name) := by
    intro name hname
    exact pairFree_of_ascii fun c hc => of_decide_eq_true (List.all_eq_true.mp hname c hc)
  cases control with
  | input data =>
    have hnames : [str "type", str "data"].Nodup := by decide
    refine ⟨hnames, fun _ => hliteral (by decide), fun _ => hliteral (by decide),
      fun _ => hliteral (by decide), fun _ => ?_, trivial⟩
    exact pairFree_of_ascii (isAscii_b64encode data)
  | resize rows cols => exact absurd rfl (h rows cols)
  | cancel =>
    exact ⟨by decide, fun _ => hliteral (by decide), fun _ => hliteral (by decide), trivial⟩

/-- What the client has sent for a control is received as that control. -/
theorem frameControl_frame {floats : FloatText} {decimal : CodePoint → Option Nat}
    {control : Control} {text : Str} (h : ∀ rows cols, control ≠ .resize rows cols)
    (htext : line floats control.frame = .ok text) (hlength : text.length ≤ 1024 * 1024) :
    frameControl floats decimal text = .ok (some control) := by
  have hloads := loads_line htext (serializable_frame h)
  have hne : text ≠ [] := by
    rintro rfl
    cases splitLine_line htext (serializable_frame h) []
  have hmsg : recvJsonLine floats text = .ok control.frame := by
    rw [recvJsonLine, if_neg hne, if_neg (Nat.not_lt.mpr hlength), hloads]
  have hcontrol : controlOf decimal control.frame = .ok (some control) := by
    cases control with
    | input data =>
      show inputControl (.str (b64encode data)) = _
      rw [inputControl, b64decode_b64encode]
    | resize rows cols => exact absurd rfl (h rows cols)
    | cancel => rfl
  rw [frameControl, hmsg]
  exact hcontrol

end AgentDev.Runtime
