import AgentDev.Broker.Requests
import AgentDev.Python.Base64
import AgentDev.Python.Integers
import AgentDev.Python.JsonReading

/-!
# The client

`rpc` of `broker/cli.py`, from the answer of the broker on: the first frame decides whether there is
an error, a result or a stream, and a stream is shown until a frame ends it. What the terminal of an
interactive run sends meanwhile, and whether it has cancelled, is not decided here.
-/

namespace AgentDev.Broker

open Python Policy
open Python.Json hiding Unit

/-! ## Frames as values -/

/-- `{"type": kind, ...}` -/
def frameValue (kind : String) (rest : List (String × Value)) : Value :=
  record (("type", .str (str kind)) :: rest)

/-- The field of the security class, where there is one. -/
def classField (securityClass : Option Str) : List (String × Value) :=
  match securityClass with
  | some name => [("security_class", .str name)]
  | none => []

/-- What `send` writes for a frame, where `shown` is `str` of an exception. -/
def Frame.asValue (shown : Message → Str) : Frame → Value
  | .result value code => frameValue "result" [("result", value), ("code", .int code)]
  | .error message code =>
    frameValue "error" [("message", .str (shown message)), ("code", .int code)]
  | .start interactive securityClass =>
    frameValue "start" (("interactive", .bool interactive) :: classField securityClass)
  | .output data => frameValue "output" [("data", .str (Base64.b64encode data))]
  | .exit code securityClass => frameValue "exit" (("code", .int code) :: classField securityClass)

/-- The bytes of the frames, one line for each. -/
def frameBytes (floats : FloatText) (shown : Message → Str) :
    List Frame → Except Json.Error (List UInt8)
  | [] => .ok []
  | frame :: rest => do
    let bytes ← lineBytes floats (frame.asValue shown)
    return bytes ++ (← frameBytes floats shown rest)

/-! ## The client -/

/-- The lines that `readline` returns until it returns nothing. -/
def readlines : List UInt8 → List (List UInt8)
  | [] => []
  | b :: rest =>
    if b = 0x0A then [b] :: readlines rest
    else
      match readlines rest with
      | [] => [[b]]
      | line :: lines => (b :: line) :: lines

/-- What `agentctl` shows while it waits. -/
inductive Shown
  /-- `os.write(sys.stdout.fileno(), data)` -/
  | output (data : List UInt8)
  /-- `print(result)`, or its JSON text -/
  | result (value : Value)
  /-- `agentctl: security-class=...` -/
  | securityClass (name : Str)
  /-- `agentd: ...` -/
  | failure (message : Value)

/-- What ends `rpc` before it returns. -/
inductive Ended
  /-- `die` -/
  | died (message : Value) (code : Int)
  /-- Any other exception. -/
  | raised

abbrev Client := ExceptT Ended (StateM (List Shown))

def display (shown : Shown) : Client Unit := modify (· ++ [shown])

def die {α : Type} (text : String) : Client α := throw (.died (.str (str text)) 2)

/-- `msg.get(name, default)` -/
def getOr (msg : Dict) (name : String) (default : Value) : Value := (msg.get? (str name)).getD default

section

variable (floats : FloatText) (limit : Nat) (decimal : CodePoint → Option Nat)

/-- `recv_line` of a line, which is taken for a mapping. -/
def recvLine (line : List UInt8) : Client Dict :=
  match loadsBytes floats limit line with
  | .ok (.dict msg) => return msg
  | _ => throw .raised

/-- `int(msg.get("code", default))` -/
def codeOf (msg : Dict) (default : Int) : Client Int :=
  match toInt decimal (getOr msg "code" (.int default)) with
  | .ok code => return code
  | .error _ => throw .raised

/-- `base64.b64decode(msg.get("data", ""))` -/
def dataOf (msg : Dict) : Client (List UInt8) :=
  match getOr msg "data" (.str []) with
  | .str text =>
    match Base64.b64decode text with
    | some data => return data
    | none => throw .raised
  | _ => throw .raised

/-- A message of type `exit`. -/
def finishStream (securityClass : Option Str) (msg : Dict) : Client Int := do
  if securityClass.any fun name => !(getOr msg "security_class" .none).isStr name then
    die "run response changed effective security class"
  codeOf decimal msg 1

/-- The loop over a stream. -/
def receiveStream (securityClass : Option Str) (cancelSent : Bool) :
    List (List UInt8) → Client Int
  | [] => if cancelSent then return 130 else die "agentd connection closed unexpectedly"
  | line :: rest => do
    let msg ← recvLine floats limit line
    let kind := getOr msg "type" .none
    if kind.isStr (str "output") then do
      let data ← dataOf msg
      display (.output data)
      receiveStream securityClass cancelSent rest
    else if kind.isStr (str "exit") then finishStream decimal securityClass msg
    else if kind.isStr (str "error") then do
      display (.failure (getOr msg "message" (.str (str "error"))))
      codeOf decimal msg 1
    else receiveStream securityClass cancelSent rest

/-- The class of a run, which is checked and shown. A list and a mapping have no hash. -/
def runSecurityClass (first : Dict) : Client Str :=
  match getOr first "security_class" .none with
  | .str name =>
    if name ∈ [str "compatibility", str "hardened"] then do
      display (.securityClass name)
      return name
    else die "run response is missing a valid effective security class"
  | .seq _ => throw .raised
  | .dict _ => throw .raised
  | _ => die "run response is missing a valid effective security class"

/-- A first message of type `start`. -/
def startStream (request : Dict) (cancelSent : Bool) (first : Dict) (rest : List (List UInt8)) :
    Client Int := do
  if (getOr request "op" .none).isStr (str "run") then
    let name ← runSecurityClass first
    receiveStream floats limit decimal (some name) cancelSent rest
  else receiveStream floats limit decimal none cancelSent rest

/-- `rpc`, when these bytes are received before the connection is closed. -/
def rpc (request : Dict) (cancelSent : Bool) (received : List UInt8) : Client Int :=
  match readlines received with
  | [] => throw .raised
  | line :: rest => do
    let first ← recvLine floats limit line
    let kind := getOr first "type" .none
    if kind.isStr (str "error") then do
      let code ← codeOf decimal first 2
      throw (.died (getOr first "message" (.str (str "agentd error"))) code)
    else if kind.isStr (str "result") then do
      match getOr first "result" .none with
      | .none => codeOf decimal first 0
      | result => do
        display (.result result)
        codeOf decimal first 0
    else if kind.isStr (str "start") then
      startStream floats limit decimal request cancelSent first rest
    else throw (.died (.dict first) 2)

end

/-! ## The frames are read -/

section

variable {name other : String} {value default : Value} {rest : List (String × Value)}

@[simp]
theorem getOr_nil : getOr (items []) name default = default := rfl

@[simp]
theorem getOr_head : getOr (items ((name, value) :: rest)) name default = value := by
  rw [getOr, items, List.map_cons, Dict.get?, List.lookup_cons, beq_self_eq_true]
  rfl

@[simp]
theorem getOr_tail (h : str name ≠ str other) :
    getOr (items ((other, value) :: rest)) name default = getOr (items rest) name default := by
  have hne : (Key.str (str name) == Key.str (str other)) = false := by
    simpa using h
  rw [getOr, items, List.map_cons, Dict.get?, List.lookup_cons, hne]
  rfl

end

theorem readlines_line {body : List UInt8} (h : 0x0A ∉ body) (rest : List UInt8) :
    readlines (body ++ 0x0A :: rest) = (body ++ [0x0A]) :: readlines rest := by
  induction body with
  | nil => rw [List.nil_append, readlines, if_pos rfl, List.nil_append]
  | cons b body ih =>
    have hb : b ≠ 0x0A := fun heq => h (heq ▸ List.mem_cons_self)
    rw [List.cons_append, readlines, if_neg hb, ih fun hmem => h (List.mem_cons_of_mem b hmem)]
    rfl

/-- A number that every process and every user id is below. -/
theorem serializable_int {n : Int} (h : n.natAbs < 2 ^ 32) : Serializable lineFormat (.int n) := by
  show (natRepr n.natAbs).length ≤ Python.maxStrDigits
  have hdigits : (natRepr n.natAbs).length ≤ 10 := (length_natRepr_le (by decide)).mpr (by omega)
  have hmax : Python.maxStrDigits = 4300 := rfl
  omega

/-- The text of a message can have surrogate pairs, and a client reads each as one character. -/
theorem writeItems_message {floats : FloatText} (message : Str) (code : Value) :
    lineBytes floats (frameValue "error" [("message", .str message), ("code", code)]) =
      lineBytes floats (frameValue "error" [("message", .str (rejoin message)), ("code", code)]) := by
  unfold lineBytes dumps frameValue record items
  simp only [lineFormat, Bool.false_eq_true, if_false, List.map_cons, write, writeItems,
    writeStr_rejoin]

/-- What a frame carries is read back: a result has a text, and codes are short. -/
structure Frame.Readable (limit : Nat) (frame : Frame) : Prop where
  serializable : ∀ shown : Message → Str,
    Serializable lineFormat (frame.asValue fun message => rejoin (shown message))
  nesting : ∀ shown : Message → Str, Json.nesting (frame.asValue shown) ≤ limit

theorem Frame.lineBytes_rejoin (floats : FloatText) (shown : Message → Str) (frame : Frame) :
    lineBytes floats (frame.asValue shown) =
      lineBytes floats (frame.asValue fun message => rejoin (shown message)) := by
  cases frame with
  | error message code => exact writeItems_message (shown message) (.int code)
  | _ => rfl

theorem isPlain_not_newline {c : CodePoint} (h : IsPlain c) : asciiByte c ≠ 0x0A := by
  intro heq
  have hval := asciiByte_toNat h.2
  rw [heq] at hval
  have hlow := h.1
  rw [← hval] at hlow
  exact absurd hlow (by decide)

/-- The line of a frame is received as what the frame says. -/
theorem Frame.Readable.line {frame : Frame} {limit : Nat} (h : frame.Readable limit)
    (floats : FloatText) (shown : Message → Str) :
    ∃ bytes, lineBytes floats (frame.asValue shown) = .ok bytes ∧
      (∀ rest, readlines (bytes ++ rest) = bytes :: readlines rest) ∧
      loadsBytes floats limit bytes = .ok (frame.asValue fun message => rejoin (shown message)) := by
  obtain ⟨text, -, hplain, hbytes⟩ := lineBytes_eq floats (h.serializable shown)
  refine ⟨_, (frame.lineBytes_rejoin floats shown).trans hbytes, ?_,
    loadsBytes_lineBytes hbytes (h.serializable shown) (h.nesting _)⟩
  intro rest
  have hnewline : (text ++ [newline]).map asciiByte = text.map asciiByte ++ [0x0A] := by
    rw [List.map_append]
    rfl
  rw [hnewline, List.append_assoc]
  apply readlines_line
  intro hmem
  obtain ⟨c, hc, heq⟩ := List.mem_map.mp hmem
  exact isPlain_not_newline (hplain c hc) heq

/-- The lines of frames that are sent one after the other. -/
theorem frameBytes_ok {frames : List Frame} {limit : Nat} (floats : FloatText)
    (shown : Message → Str) (h : ∀ frame ∈ frames, frame.Readable limit) :
    ∃ bytes, frameBytes floats shown frames = .ok bytes ∧
      List.Forall₂ (fun line (frame : Frame) => loadsBytes floats limit line =
        .ok (frame.asValue fun message => rejoin (shown message))) (readlines bytes) frames := by
  induction frames with
  | nil => exact ⟨[], rfl, .nil⟩
  | cons frame rest ih =>
    obtain ⟨hframe, hrest⟩ := List.forall_mem_cons.mp h
    obtain ⟨bytes, hbytes, hlines, hloads⟩ := hframe.line floats shown
    obtain ⟨more, hmore, hread⟩ := ih hrest
    refine ⟨bytes ++ more, ?_, ?_⟩
    · rw [frameBytes, hbytes, hmore]
      rfl
    · rw [hlines]
      exact .cons hloads hread

end AgentDev.Broker
