import AgentDev.Runtime.World

/-!
# Executions of `podman`

`runtime/podman.py`: the two loops that run one `podman` process, and the part of the broker's
operations that runs under the lock of the workspace. Times are in milliseconds; closing a descriptor
does not fail.
-/

namespace AgentDev.Runtime

open Interleaving Python

/-- The connection to the client, as the runtime sees it. -/
structure RuntimeIO where
  writeOutput : Bytes → Run Unit
  receiveControl : Run (Option Control)

/-- Any implementation: both calls may raise. -/
def anyIO : RuntimeIO where
  writeOutput data := check (.writeOutput data) id (.internal "write_output")
  receiveControl := do
    match ← act .receiveControl with
    | some control => return control
    | none => .fail (.internal "receive_control")

/-- `RuntimeResult(proc.wait())` -/
def waitCode : Run Int := do
  return (← act (.wait none)).getD 0

/-! ## Without a terminal -/

def relayChunk (io : RuntimeIO) : Run (Option Unit) := do
  let chunk ← act .readStdout
  if chunk = [] then return some ()
  io.writeOutput chunk
  return none

def runNoninteractiveArgv (io : RuntimeIO) (n : Nat) : Run Int := do
  check .popen id (.internal "Popen")
  loop (relayChunk io) n
  waitCode

/-! ## On a terminal -/

/-- A signal, and whether the process has ended before the time of grace is over. -/
def signalled (signal : Signal) (grace : Nat) : Run Bool := do
  if !(← act (.killpg signal)) then return true
  return (← act (.wait (some grace))).isSome

def terminateProcessGroup : Run Unit := do
  if (← act .poll).isSome then return ()
  if ← signalled .int 2000 then return ()
  if ← signalled .term 3000 then return ()
  if !(← act (.killpg .kill)) then return ()
  let _ ← act (.wait none)
  return ()

/-- How the loop ends. -/
inductive Ending
  | timedOut
  | cancelled
  | exited

def deadlineOf (timeout : Option Nat) : Run (Option Nat) := do
  match timeout with
  | none => return none
  | some seconds => return some ((← act .monotonic) + seconds)

def isOver (deadline : Option Nat) : Run Bool := do
  match deadline with
  | none => return false
  | some time => return time ≤ (← act .monotonic)

def selectTimeout (deadline : Option Nat) : Run Nat := do
  match deadline with
  | none => return 250
  | some time => return min 250 (time - (← act .monotonic))

/-- The time is over. -/
def expire (io : RuntimeIO) (timeoutOutput : Bytes) : Run Ending := do
  if timeoutOutput ≠ [] then io.writeOutput timeoutOutput
  terminateProcessGroup
  return .timedOut

def relayData (io : RuntimeIO) : Run Unit := do
  let data := (← act .readMaster).getD []
  if data ≠ [] then io.writeOutput data

/-- The output of the terminal, if there is some in time. -/
def relayOutput (io : RuntimeIO) (deadline : Option Nat) : Run Unit := do
  let timeout ← selectTimeout deadline
  if ← act (.selectMaster timeout) then relayData io

/-- Whether the control cancels the execution. Failures of the terminal are ignored. -/
def obey : Control → Run Bool
  | .input data => do
    let _ ← act (.writeMaster data)
    return false
  | .resize rows cols => do
    let _ ← act (.setWinsize rows cols)
    return false
  | .cancel => do
    terminateProcessGroup
    return true

def obeyNext (io : RuntimeIO) : Run Bool := do
  match ← io.receiveControl with
  | some control => obey control
  | none => return false

def drainChunk (io : RuntimeIO) : Run (Option Unit) := do
  let data := (← act .readMaster).getD []
  if data = [] then return some ()
  io.writeOutput data
  return none

/-- The rest of the output, when the process has ended. -/
def leave (io : RuntimeIO) (n : Nat) : Run (Option Ending) := do
  if (← act .poll).isSome then
    loop (drainChunk io) n
    return some .exited
  else return none

def runRound (io : RuntimeIO) (deadline : Option Nat) (timeoutOutput : Bytes) (n : Nat) :
    Run (Option Ending) := do
  if ← isOver deadline then return some (← expire io timeoutOutput)
  else
    relayOutput io deadline
    if ← obeyNext io then return some .cancelled
    else leave io n

/-- The result of the execution, once the loop has ended. -/
def Ending.code : Ending → Run Int
  | .timedOut => return 124
  | .cancelled => return 130
  | .exited => waitCode

/-- The `finally` block. -/
def finish (cidfile : Option Str) : Run Unit := do
  if (← act .poll).isNone then terminateProcessGroup
  check (.cleanupInteractiveContainer cidfile) id (.internal "cleanup")

def runInteractiveArgv (io : RuntimeIO) (timeout : Option Nat) (timeoutOutput : Bytes)
    (cidfile : Option Str) (n : Nat) : Run Int := do
  check .openpty id (.internal "openpty")
  check .popen id (.internal "Popen")
  let deadline ← deadlineOf timeout
  let body : Run Int := do
    let ending ← loop (runRound io deadline timeoutOutput n) n
    ending.code
  body.ensuring (finish cidfile)

def runPodmanArgv (io : RuntimeIO) (interactive : Bool) (timeout : Option Nat)
    (timeoutOutput : Bytes) (n : Nat) : Run Int := do
  if !interactive then
    if timeout.isSome then
      .fail (.internal "noninteractive execution does not support timeout_seconds")
    else runNoninteractiveArgv io n
  else
    match ← act .newInteractiveCidfile with
    | some cidfile => runInteractiveArgv io timeout timeoutOutput (some cidfile) n
    | none => .fail (.internal "mkdir")

/-! ## Under the lock of the workspace -/

def lockOne {α : Type} (body : Run α) : Run α := do
  act .acquire
  body.ensuring (act .release)

/-- The locked part of `op_index`. -/
def opIndex (io : RuntimeIO) (n : Nat) : Run Int :=
  lockOne (runPodmanArgv io false none [] n)

/-- The start frame, the execution and the exit frame. An exit code that cannot be sent is an error,
unless the client has cancelled. -/
def executed (io : RuntimeIO) (interactive : Bool) (n : Nat) : Run Int := do
  check .send id (.internal "send")
  let code ← runPodmanArgv io interactive none [] n
  let sent ← act .send
  if sent || code = 130 then return code else .fail (.internal "send")

/-- The locked part of `op_run`. -/
def opRun (io : RuntimeIO) (interactive : Bool) (n : Nat) : Run Int :=
  lockOne (executed io interactive n)

end AgentDev.Runtime
