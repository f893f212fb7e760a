import AgentDev.Core.Validation
import AgentDev.Interleaving.Rounds
import AgentDev.Python.Sockets

/-!
# The world of an execution

What the broker does while it runs one `podman` process: the calls on the process, on its terminal, and
on the connection to the client. Before each call the environment may move: the process ends, the
client sends something or goes away. What a call returns otherwise is a choice too.

Three facts about processes are built in: a process that has ended stays so, `SIGKILL` ends the group,
and a group whose leader runs exists. `unfinished` has no reply; it stands for what a loop does after
as many rounds as are looked at.
-/

namespace AgentDev.Runtime

open Interleaving Python

abbrev Bytes := List UInt8

inductive Signal
  | int
  | term
  | kill
  deriving DecidableEq

/-- `RuntimeControl` -/
inductive Control
  | input (data : Bytes)
  | resize (rows cols : Int)
  | cancel
  deriving DecidableEq

inductive Action
  /-- `pty.openpty()` -/
  | openpty
  /-- `subprocess.Popen(argv, ...)` -/
  | popen
  /-- `time.monotonic()` -/
  | monotonic
  /-- `select.select([master], [], [], timeout)` -/
  | selectMaster (timeout : Nat)
  /-- `os.read(master, 4096)` -/
  | readMaster
  /-- `os.write(master, data)` -/
  | writeMaster (data : Bytes)
  | setWinsize (rows cols : Int)
  /-- `proc.stdout.read(4096)` -/
  | readStdout
  /-- `proc.poll()` -/
  | poll
  /-- `proc.wait(timeout)` -/
  | wait (timeout : Option Nat)
  /-- `os.killpg(proc.pid, signal)` -/
  | killpg (signal : Signal)
  /-- `new_interactive_cidfile(state_dir)` -/
  | newInteractiveCidfile
  /-- `cleanup(cidfile)` -/
  | cleanupInteractiveContainer (cidfile : Option Str)
  /-- `io.write_output(data)` -/
  | writeOutput (data : Bytes)
  /-- `io.receive_control(0.0)`, of any client -/
  | receiveControl
  /-- `select.select([conn], [], [], timeout)` -/
  | selectConn
  /-- A step of `fileobj.readline()` -/
  | readline
  /-- `send(conn, frame)` -/
  | send
  | acquire
  | release
  | unfinished

/-- What the calls return; `false` and `none` are their exceptions, except that `poll` and a `wait`
with a timeout have no code of a running process. -/
abbrev Action.Reply : Action → Type
  | .openpty | .popen | .selectMaster _ | .writeMaster _ | .setWinsize _ _ | .killpg _
  | .cleanupInteractiveContainer _ | .writeOutput _ | .selectConn | .send => Bool
  | .newInteractiveCidfile => Option Str
  | .monotonic => Nat
  | .readMaster => Option Bytes
  | .readStdout => Bytes
  | .poll | .wait _ => Option Int
  | .receiveControl => Option (Option Control)
  | .readline => Socket.Progress
  | .acquire | .release => Unit
  | .unfinished => Empty

inductive Child
  | absent
  | running
  | exited (code : Int)
  deriving DecidableEq

structure World where
  child : Child
  socket : Socket
  /-- How much the client has sent since the process ended, which no call depends on; `none` as long as
  it has not ended. -/
  afterwards : Option Nat

/-- What a call returns, where the world does not determine it. -/
inductive Answer
  | success
  | failure
  | time (now : Nat)
  | data (bytes : Bytes)
  | control (control : Control)
  | path (cidfile : Str)

/-- The moves of the environment before a call, and the answer to the call. -/
structure Choice where
  exit : Option Int
  text : Str
  hangup : Bool
  answer : Answer

/-- The process ends, if it runs. -/
def Child.exit (child : Child) (code : Option Int) : Child :=
  match child, code with
  | .running, some code => .exited code
  | child, _ => child

def Child.code? : Child → Option Int
  | .exited code => some code
  | _ => none

/-- What the client sends is counted when the process has ended. -/
def World.counted (world : World) (choice : Choice) : Option Nat :=
  if (world.child.exit choice.exit).code?.isSome || world.afterwards.isSome then
    some (world.afterwards.getD 0 + if world.socket.closed then 0 else choice.text.length)
  else none

/-- The environment moves. -/
def World.moved (world : World) (choice : Choice) : World where
  child := world.child.exit choice.exit
  socket :=
    let socket := world.socket.deliver choice.text
    if choice.hangup then socket.hangup else socket
  afterwards := world.counted choice

/-- Whether the answer is a success, of a call that can fail. -/
def Answer.ok? : Answer → Option Bool
  | .success => some true
  | .failure => some false
  | _ => none

/-- The call itself. -/
def Action.call (size : Nat) (world : World) (answer : Answer) :
    (action : Action) → Option (action.Reply × World)
  | .openpty | .selectMaster _ | .writeMaster _ | .setWinsize _ _ | .cleanupInteractiveContainer _
  | .writeOutput _ | .send => answer.ok?.map fun ok => (ok, world)
  | .newInteractiveCidfile =>
    match answer with
    | .path cidfile => some (some cidfile, world)
    | .failure => some (none, world)
    | _ => none
  | .popen =>
    match answer with
    | .success => some (true, { world with child := .running })
    | .failure => some (false, world)
    | _ => none
  | .monotonic =>
    match answer with
    | .time now => some (now, world)
    | _ => none
  | .readMaster =>
    match answer with
    | .data bytes => some (some bytes, world)
    | .failure => some (none, world)
    | _ => none
  | .readStdout =>
    match answer with
    | .data bytes => some (bytes, world)
    | _ => none
  | .poll => some (world.child.code?, world)
  | .wait timeout =>
    match timeout, world.child with
    | none, .running => none
    | _, child => some (child.code?, world)
  | .killpg signal =>
    match world.child with
    | .running => some (true, if signal = .kill then { world with child := .exited (-9) } else world)
    | _ => answer.ok?.map fun ok => (ok, world)
  | .receiveControl =>
    match answer with
    | .success => some (some none, world)
    | .control control => some (some (some control), world)
    | .failure => some (none, world)
    | _ => none
  | .selectConn => some (world.socket.readable, world)
  | .readline => (world.socket.readline size).map fun (progress, socket) =>
      (progress, { world with socket := socket })
  | .acquire | .release => some ((), world)
  | .unfinished => none

/-- One thread of the broker; `size` is the size of the reader's buffer. -/
def machine (size : Nat) : Machine Action.Reply World Choice where
  exec _ action choice world := action.call size (world.moved choice) choice.answer

abbrev Run := Program Action.Reply Error

def act (action : Action) : Run action.Reply := Program.perform action

/-- A call that raises when it fails. -/
def check (action : Action) (ok : action.Reply → Bool) (error : Error) : Run Unit := do
  let reply ← act action
  if ok reply then return () else .fail error

/-- `while True` -/
def loop {α : Type} (body : Run (Option α)) (n : Nat) : Run α :=
  Program.rounds (.act .unfinished fun reply => nomatch reply) body n

end AgentDev.Runtime
