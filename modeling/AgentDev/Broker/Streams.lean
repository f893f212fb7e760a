import AgentDev.Broker.Requests
import AgentDev.Execution.Control
import AgentDev.Python.Utf8

/-!
# Operations that stream

The operations of `broker/daemon.py` that send what their processes write: `op_build`, `op_auth`,
`op_status`, `op_versions`, `op_smoke`, `op_index` and `op_run`. What they find outside of the
broker may depend on everything that has been sent before (`Services`), and any call may raise. Between
the frames of the dispatcher, or between their own first and last frame, they send output and nothing
else (`Streams`).
-/

namespace AgentDev.Broker

open Python Policy Execution

/-! ## The surroundings -/

/-- An exit status, or the number of a signal with a minus sign. -/
def IsExitCode (rc : Int) : Prop := rc.natAbs < 256

instance (rc : Int) : Decidable (IsExitCode rc) := inferInstanceAs (Decidable (_ < _))

/-- A process whose output is relayed: the chunks that are read, and how the relay ends. -/
structure Process where
  chunks : List (List UInt8)
  ending : Except Failure Int
  isExitCode : ∀ rc, ending = .ok rc → IsExitCode rc

/-- What the operations use, after what has been sent. -/
structure Services where
  /-- `os.getuid()` -/
  uid : Int
  uid_small : uid.natAbs < 2 ^ 32
  config : Config
  /-- `cfg["versions"]` -/
  versions : List (Str × Str)
  /-- `Path(cfg["root"]) / "platform" / "containers"` -/
  containers : Str
  /-- `Path(cfg["state_dir"]) / "build-manifest.lock.json"` -/
  buildLock : Str
  /-- `Path(cfg["root"]) / "tmp" / "smoke"` -/
  smoke : Str
  /-- What an operation returns that is answered with one result. -/
  result : Str → Dict → List Event → Except Failure Value
  surroundings : List Event → Surroundings
  index : List Event → IndexServices
  /-- `subprocess.run(argv).returncode` -/
  returncode : List Str → List Event → Except Failure Int
  /-- A process that `run_podman_argv` starts, interactively or not, with a timeout or without. -/
  process : Bool → Option Int → List Str → List Event → Process
  writeBuildLock : List Event → Except Failure Unit
  /-- A port of the loopback on which the broker listens. -/
  hostPort : List Event → Except Failure Str
  /-- The directory `smoke` is made anew, with a marker in it. -/
  prepareSmoke : List Event → Except Failure Unit
  /-- `lock_one` on the workspace of the task of the request. -/
  lockOne : Dict → List Event → Except Failure Unit

/-- `except RequestError` -/
def failureOf {α : Type} : Except RunError α → Except Failure α
  | .ok a => .ok a
  | .error (.request message) => .error (.request message)
  | .error _ => .error .internal

/-! ## Output -/

/-- A call that sends nothing. -/
def silently {α : Type} (service : List Event → Except Failure α) : Handler α := do
  let history ← get
  (service history : Except Failure α)

/-- `send_output` -/
def sendOutput (data : List UInt8) : Handler Unit :=
  if data = [] then return () else send (.output data)

/-- `send_output` of an encoded text. -/
def sendText (text : Str) : Handler Unit :=
  match encodeUtf8 text with
  | some data => sendOutput data
  | none => throw .internal

def forEach {α : Type} (body : α → Handler Unit) : List α → Handler Unit
  | [] => return ()
  | a :: rest => do
    body a
    forEach body rest

/-- One after the other, until one returns a code other than 0. -/
def untilFailure {α : Type} (body : α → Handler Int) : List α → Handler Int
  | [] => return 0
  | a :: rest => do
    let rc ← body a
    if rc ≠ 0 then return rc else untilFailure body rest

def relay (process : Process) : Handler Int := do
  forEach sendOutput process.chunks
  (process.ending : Except Failure Int)

/-- `table[key]` -/
def keyed (table : List (Str × Str)) (key : Str) : Handler Str :=
  match table.lookup key with
  | some value => return value
  | none => throw .internal

def words (items : List String) : List Str := items.map str

section

variable (s : Services)

/-- `execute_runtime_argv` -/
def executeRuntimeArgv (interactive : Bool) (timeoutSeconds : Option Int) (argv : List Str) :
    Handler Int := do
  let history ← get
  relay (s.process interactive timeoutSeconds argv history)

def streamNoninteractive (argv : List Str) : Handler Int := executeRuntimeArgv s false none argv

def image (key : Str) : Handler Str := keyed s.config.images key

def imageExists (image : Str) : Handler Bool := do
  let rc ← silently (s.returncode (words ["podman", "image", "exists"] ++ [image]))
  return rc = 0

def registry : List Agents.AgentDriver := Agents.builtinAgentRegistry

def seedProviderHome (driver : Agents.AgentDriver) : Handler Unit :=
  silently fun history => failureOf ((s.surroundings history).seedProviderHome driver.id)

/-- `[*common_runtime_args(cfg, provider, ...), *environment, cfg["images"][provider]]` -/
def providerCommand (driver : Agents.AgentDriver) (networkEnabled : Bool)
    (isolation : Option Agents.RuntimeIsolationRequirements) (environment : Agents.Environment) :
    Handler (List Str) := do
  let runtime ← silently fun history => failureOf
    (commonRuntimeArgs (s.surroundings history) s.config (some driver) {} networkEnabled isolation)
  let image ← image s driver.id
  return runtime ++ environmentArgs environment ++ [image]

/-! ## Building -/

def podmanBuild (name : String) (buildArgs : List Str) (image : Str) : List Str :=
  words ["podman", "build", "-f"] ++ [s.containers ++ str "/Containerfile." ++ str name] ++
    buildArgs.flatMap (fun arg => [str "--build-arg", arg]) ++ [str "-t", image, s.containers]

/-- The image for indexing is optional, and so is its success. -/
def buildIntelligence (base intelligence : Str) : Handler Unit := do
  if intelligence ≠ [] then
    let gitnexus ← keyed s.versions (str "gitnexus")
    let rc ← streamNoninteractive s (podmanBuild s "intelligence"
      [str "BASE_IMAGE=" ++ base, str "GITNEXUS_VERSION=" ++ gitnexus] intelligence)
    if rc ≠ 0 then
      sendText (str "WARNING: optional GitNexus intelligence image failed to build; " ++
        str "core executors are available.\n")

def opBuild : Handler Int := do
  let base ← image s (str "base")
  let codexVersion ← keyed s.versions (str "codex")
  let codex ← image s (str "codex")
  let cursor ← image s (str "cursor")
  let rc ← untilFailure (streamNoninteractive s) [podmanBuild s "base" [] base,
    podmanBuild s "codex" [str "BASE_IMAGE=" ++ base, str "CODEX_VERSION=" ++ codexVersion] codex,
    podmanBuild s "cursor" [str "BASE_IMAGE=" ++ base] cursor]
  if rc ≠ 0 then return rc
  forEach (seedProviderHome s) registry
  buildIntelligence s base ((s.config.images.lookup (str "intelligence")).getD [])
  silently s.writeBuildLock
  sendText (str "Build lock written: " ++ s.buildLock ++ str "\n")
  return 0

/-! ## Providers -/

def providerStatus (driver : Agents.AgentDriver) : Handler Unit := do
  seedProviderHome s driver
  let spec := (controlSpecs driver).authStatus
  let command ← providerCommand s driver true (some spec.runtimeIsolation) spec.environment
  sendText (str "\n== " ++ driver.id ++ str " ==\n")
  let _rc ← streamNoninteractive s (command ++ spec.argv)

def opStatus : Handler Int := do
  forEach (providerStatus s) registry
  return 0

def providerVersion (driver : Agents.AgentDriver) : Handler Int := do
  let image ← image s driver.id
  streamNoninteractive s
    (words ["podman", "run", "--rm"] ++ [image] ++ (controlSpecs driver).versionProbe)

def opVersions : Handler Int := do
  let rc ← untilFailure (providerVersion s) registry
  if rc ≠ 0 then return rc
  let intelligence := (s.config.images.lookup (str "intelligence")).getD []
  if intelligence ≠ [] then
    if ← imageExists s intelligence then
      return ← streamNoninteractive s
        (words ["podman", "run", "--rm"] ++ [intelligence] ++ words ["gitnexus", "--version"])
  sendText (str "GitNexus intelligence image: not built (optional)\n")
  return 0

/-! ## Smoke tests -/

/-- An image that is missing ends the test with code 2. -/
def requireImage (key : Str) : Handler Int := do
  let image ← image s key
  if ← imageExists s image then return 0
  sendText (str "missing image " ++ image ++ str "\n")
  return 2

def isolationScript : Str :=
  str "set -eu; test ! -e /var/run/docker.sock; test ! -e /run/podman/podman.sock; " ++
    str "test ! -e /root/.ssh/id_rsa; test ! -e /root/.aws/credentials; touch /tmp/ok"

def providerScript (driver : Agents.AgentDriver) : Str :=
  str "set -eu; if touch /root/.agent-dev-unexpected-write 2>/dev/null; then " ++
    str "rm -f /root/.agent-dev-unexpected-write; exit 41; fi; " ++
  (writableSmokeTargets driver.stateAdapter).flatMap fun (target, marker) =>
    str "touch " ++ target ++ str "/" ++ marker ++ str "; rm -f " ++ target ++ str "/" ++ marker ++
      str "; "

def providerSmoke (driver : Agents.AgentDriver) : Handler Int := do
  seedProviderHome s driver
  let isolation ← silently fun _ => failureOf (providerStateSmokeIsolation driver)
  let command ← providerCommand s driver false isolation []
  let rc ← streamNoninteractive s (command ++ words ["bash", "-lc"] ++ [providerScript driver])
  if rc ≠ 0 then sendText (driver.id ++ str " scoped provider-state smoke failed\n")
  return rc

/-- The network of a provider works, and does not reach the loopback of the host. -/
def networkSmoke (driver : Agents.AgentDriver) : Handler Int := do
  let command ← providerCommand s driver true none []
  let rc ← streamNoninteractive s (command ++ words ["bash", "-lc", "true"])
  if rc ≠ 0 then
    sendText (str "provider network backend smoke failed\n")
    return rc
  let port ← silently s.hostPort
  let probe := str "timeout 3 bash -lc 'exec 3<>/dev/tcp/host.containers.internal/" ++ port ++ str "'"
  let reached ← silently (s.returncode (command ++ words ["bash", "-lc"] ++ [probe]))
  if reached = 0 then
    sendText (str "provider network unexpectedly reached host loopback\n")
    return 4
  return 0

def workspaceCommand (base mode : Str) (script : String) : List Str :=
  words ["podman", "run", "--rm", "--network=none", "--read-only", "--cap-drop=all",
    "--security-opt=no-new-privileges", "-v"] ++
  [s.smoke ++ str ":/workspace:" ++ mode, base] ++ words ["bash", "-lc", script]

/-- A workspace that is shown read-only cannot be written to, and another one can. -/
def workspaceSmoke (base : Str) : Handler Int := do
  silently s.prepareSmoke
  let rc ← silently (s.returncode (workspaceCommand s base (str "ro") "echo bad >> /workspace/marker"))
  if rc = 0 then
    sendText (str "read-only mount test unexpectedly succeeded\n")
    return 3
  streamNoninteractive s (workspaceCommand s base (str "rw") "echo ok >> /workspace/marker")

def opSmoke : Handler Int := do
  let base ← image s (str "base")
  let rc ← untilFailure (requireImage s) (str "base" :: registry.map fun driver => driver.id)
  if rc ≠ 0 then return rc
  let rc ← streamNoninteractive s (words ["podman", "run", "--rm", "--read-only", "--network=none",
    "--cap-drop=all", "--security-opt=no-new-privileges", "--tmpfs",
    "/tmp:rw,nosuid,nodev,size=64m"] ++ [base] ++ words ["bash", "-lc"] ++ [isolationScript])
  if rc ≠ 0 then return rc
  let rc ← untilFailure (providerSmoke s) registry
  if rc ≠ 0 then return rc
  let rc ← untilFailure (networkSmoke s) (registry.take 1)
  if rc ≠ 0 then return rc
  workspaceSmoke s base

/-! ## Workspaces -/

def opIndex (req : Dict) : Handler Int := do
  let argv ← silently fun history =>
    failureOf (Execution.opIndex (s.surroundings history) s.config (s.index history) req)
  silently (s.lockOne req)
  executeRuntimeArgv s false none argv

def opAuth (provider : Value) : Handler Int := do
  let provider ← silently fun _ => failureOf (Execution.validName provider (str "provider"))
  match Agents.getDriver (.str provider) with
  | none => throw (requestError (str "unsupported provider"))
  | some driver => do
    seedProviderHome s driver
    let spec := (controlSpecs driver).auth
    let command ← providerCommand s driver true (some spec.runtimeIsolation) spec.environment
    send (.start spec.interactive none)
    let rc ← executeRuntimeArgv s spec.interactive spec.timeoutSeconds (command ++ spec.argv)
    send (.exit rc none)
    return rc

def executeRuntimePlan (plan : ResolvedExecutionPlan) : Handler Int := do
  let history ← get
  executeRuntimeArgv s (plan.interactionMode = .interactive) none
    (executionPlanArgv (s.surroundings history).shown plan)

/-- `op_run`; the lock of the workspace is held around the frames. -/
def opRun (req : Dict) : Handler Int := do
  let plan ← silently fun history =>
    failureOf (Execution.opRun (s.surroundings history) s.config req)
  silently (s.lockOne req)
  send (.start (plan.interactionMode = .interactive) plan.securityClass)
  let rc ← executeRuntimePlan s plan
  send (.exit rc plan.securityClass)
  return rc

/-- The operations that do not take the connection. -/
def resultOps : List Str :=
  words ["project-init", "project-sync", "project-export", "project-status", "task-start",
    "task-complete", "task-merge", "task-abort", "task-list"]

/-- `rpc_operations` -/
def rpcOperations : BrokerOperations where
  resultOps := resultOps.map fun op => (op, fun req => silently (s.result op req))
  build := opBuild s
  status := opStatus s
  versions := opVersions s
  smoke := opSmoke s
  index := opIndex s
  auth := opAuth s
  run := opRun s
  uid := s.uid

end

/-! ## Nothing but output -/

/-- The event of a chunk that is sent. -/
def outputEvent (chunk : List UInt8) : Event := .sent (.output chunk)

/-- The handler sends chunks that are not empty and nothing else, and what it returns satisfies
`Q`. -/
def Streams {α : Type} (Q : α → Prop) (handler : Handler α) : Prop :=
  ∀ history, ∃ chunks : List (List UInt8), (∀ chunk ∈ chunks, chunk ≠ []) ∧
    (handler.run history).2 = history ++ chunks.map outputEvent ∧
    ∀ a, (handler.run history).1 = .ok a → Q a

/-- Nothing is said about what is returned. -/
abbrev Anything {α : Type} (_ : α) : Prop := True

section

variable {α β : Type} {Q : α → Prop} {R : β → Prop}

theorem streams_pure {a : α} (h : Q a) : Streams Q (pure a : Handler α) := by
  intro history
  refine ⟨[], List.forall_mem_nil _, (List.append_nil history).symm, ?_⟩
  intro b hb
  cases hb
  exact h

theorem streams_throw (failure : Failure) : Streams Q (throw failure : Handler α) := by
  intro history
  refine ⟨[], List.forall_mem_nil _, (List.append_nil history).symm, ?_⟩
  intro b hb
  cases hb

theorem run_bind (first : Handler α) (next : α → Handler β) (history : List Event) :
    (first >>= next).run history =
      match first.run history with
      | (.ok a, sent) => (next a).run sent
      | (.error failure, sent) => (.error failure, sent) := by
  show (first.run >>= fun result => ExceptT.bindCont next result) history = _
  show (match first.run history with
    | (result, sent) => ExceptT.bindCont next result sent) = _
  cases first.run history with
  | mk result sent => cases result <;> rfl

/-- What has been sent by the first is followed by what the second sends. -/
theorem streams_bind {first : Handler α} {next : α → Handler β} (hfirst : Streams Q first)
    (hnext : ∀ a, Q a → Streams R (next a)) : Streams R (first >>= next) := by
  intro history
  obtain ⟨chunks, hchunks, hsent, hreturns⟩ := hfirst history
  rw [run_bind]
  generalize first.run history = answer at hsent hreturns ⊢
  obtain ⟨result, sent⟩ := answer
  cases result with
  | error failure =>
    refine ⟨chunks, hchunks, hsent, ?_⟩
    intro b hb
    cases hb
  | ok a =>
    obtain ⟨more, hmore, hsent', hreturns'⟩ := hnext a (hreturns a rfl) sent
    refine ⟨chunks ++ more, ?_, ?_, hreturns'⟩
    · intro chunk hchunk
      rcases List.mem_append.mp hchunk with h | h
      · exact hchunks chunk h
      · exact hmore chunk h
    · rw [List.map_append, ← List.append_assoc, ← hsent]
      exact hsent'

theorem streams_ite {condition : Prop} [Decidable condition] {x y : Handler α} (hx : Streams Q x)
    (hy : Streams Q y) : Streams Q (if condition then x else y) := by
  split
  · exact hx
  · exact hy

theorem streams_silently {service : List Event → Except Failure α}
    (h : ∀ history a, service history = .ok a → Q a) : Streams Q (silently service) := by
  intro history
  refine ⟨[], List.forall_mem_nil _, (List.append_nil history).symm, ?_⟩
  exact fun a ha => h history a ha

theorem streams_anything (service : List Event → Except Failure α) :
    Streams Anything (silently service) := streams_silently fun _ _ _ => trivial

theorem streams_sendOutput (data : List UInt8) : Streams Anything (sendOutput data) := by
  unfold sendOutput
  split
  · exact streams_pure trivial
  · rename_i hdata
    intro history
    refine ⟨[data], List.forall_mem_singleton.mpr hdata, rfl, fun _ _ => trivial⟩

theorem streams_sendText (text : Str) : Streams Anything (sendText text) := by
  unfold sendText
  split
  · exact streams_sendOutput _
  · exact streams_throw _

theorem streams_forEach {γ : Type} {body : γ → Handler Unit}
    (h : ∀ a, Streams Anything (body a)) (items : List γ) :
    Streams Anything (forEach body items) := by
  induction items with
  | nil => exact streams_pure trivial
  | cons a rest ih => exact streams_bind (h a) fun _ _ => ih

theorem isExitCode_zero : IsExitCode 0 := by decide

theorem streams_untilFailure {γ : Type} {body : γ → Handler Int}
    (h : ∀ a, Streams IsExitCode (body a)) (items : List γ) :
    Streams IsExitCode (untilFailure body items) := by
  induction items with
  | nil => exact streams_pure isExitCode_zero
  | cons a rest ih =>
    refine streams_bind (h a) fun rc hrc => ?_
    exact streams_ite (streams_pure hrc) ih

theorem streams_relay (process : Process) : Streams IsExitCode (relay process) := by
  refine streams_bind (streams_forEach streams_sendOutput _) fun _ _ => ?_
  exact streams_silently fun _ => process.isExitCode

theorem streams_keyed (table : List (Str × Str)) (key : Str) :
    Streams Anything (keyed table key) := by
  unfold keyed
  split
  · exact streams_pure trivial
  · exact streams_throw _

end

section

variable (s : Services)

theorem streams_executeRuntimeArgv (interactive : Bool) (timeoutSeconds : Option Int)
    (argv : List Str) : Streams IsExitCode (executeRuntimeArgv s interactive timeoutSeconds argv) := by
  intro history
  exact streams_relay (s.process interactive timeoutSeconds argv history) history

theorem streams_stream (argv : List Str) : Streams IsExitCode (streamNoninteractive s argv) :=
  streams_executeRuntimeArgv s false none argv

theorem streams_image (key : Str) : Streams Anything (image s key) := streams_keyed _ key

theorem streams_imageExists (image : Str) : Streams Anything (imageExists s image) :=
  streams_bind (streams_anything _) fun _ _ => streams_pure trivial

theorem streams_seedProviderHome (driver : Agents.AgentDriver) :
    Streams Anything (seedProviderHome s driver) := streams_anything _

theorem streams_providerCommand (driver : Agents.AgentDriver) (networkEnabled : Bool)
    (isolation : Option Agents.RuntimeIsolationRequirements) (environment : Agents.Environment) :
    Streams Anything (providerCommand s driver networkEnabled isolation environment) :=
  streams_bind (streams_anything _) fun _ _ =>
    streams_bind (streams_image s _) fun _ _ => streams_pure trivial

theorem streams_buildIntelligence (base intelligence : Str) :
    Streams Anything (buildIntelligence s base intelligence) := by
  unfold buildIntelligence
  split
  · refine streams_bind (streams_keyed _ _) fun gitnexus _ => ?_
    refine streams_bind (streams_stream s _) fun rc _ => ?_
    exact streams_ite (streams_sendText _) (streams_pure trivial)
  · exact streams_pure trivial

theorem streams_opBuild : Streams IsExitCode (opBuild s) := by
  refine streams_bind (streams_image s _) fun base _ => ?_
  refine streams_bind (streams_keyed _ _) fun codexVersion _ => ?_
  refine streams_bind (streams_image s _) fun codex _ => ?_
  refine streams_bind (streams_image s _) fun cursor _ => ?_
  refine streams_bind (streams_untilFailure (streams_stream s) _) fun rc hrc => ?_
  refine streams_ite (streams_pure hrc) ?_
  refine streams_bind (streams_forEach (streams_seedProviderHome s) _) fun _ _ => ?_
  refine streams_bind (streams_buildIntelligence s _ _) fun _ _ => ?_
  refine streams_bind (streams_anything _) fun _ _ => ?_
  refine streams_bind (streams_sendText _) fun _ _ => ?_
  exact streams_pure isExitCode_zero

theorem streams_opStatus : Streams IsExitCode (opStatus s) := by
  refine streams_bind (streams_forEach (fun driver => ?_) _) fun _ _ => streams_pure isExitCode_zero
  refine streams_bind (streams_seedProviderHome s driver) fun _ _ => ?_
  refine streams_bind (streams_providerCommand s driver _ _ _) fun command _ => ?_
  refine streams_bind (streams_sendText _) fun _ _ => ?_
  exact streams_bind (streams_stream s _) fun _ _ => streams_pure trivial

theorem streams_opVersions : Streams IsExitCode (opVersions s) := by
  have hversion : ∀ driver, Streams IsExitCode (providerVersion s driver) := fun driver =>
    streams_bind (streams_image s _) fun image _ => streams_stream s _
  have hmissing : Streams IsExitCode (do
      sendText (str "GitNexus intelligence image: not built (optional)\n")
      return (0 : Int)) :=
    streams_bind (streams_sendText _) fun _ _ => streams_pure isExitCode_zero
  refine streams_bind (streams_untilFailure hversion _) fun rc hrc => ?_
  refine streams_ite (streams_pure hrc) ?_
  refine streams_ite ?_ hmissing
  refine streams_bind (streams_imageExists s _) fun built _ => ?_
  exact streams_ite (streams_stream s _) hmissing

theorem streams_requireImage (key : Str) : Streams IsExitCode (requireImage s key) := by
  refine streams_bind (streams_image s _) fun image _ => ?_
  refine streams_bind (streams_imageExists s _) fun built _ => ?_
  refine streams_ite (streams_pure isExitCode_zero) ?_
  exact streams_bind (streams_sendText _) fun _ _ => streams_pure (by decide)

theorem streams_providerSmoke (driver : Agents.AgentDriver) :
    Streams IsExitCode (providerSmoke s driver) := by
  refine streams_bind (streams_seedProviderHome s driver) fun _ _ => ?_
  refine streams_bind (streams_anything _) fun isolation _ => ?_
  refine streams_bind (streams_providerCommand s driver _ _ _) fun command _ => ?_
  refine streams_bind (streams_stream s _) fun rc hrc => ?_
  refine streams_ite ?_ (streams_pure hrc)
  exact streams_bind (streams_sendText _) fun _ _ => streams_pure hrc

theorem streams_networkSmoke (driver : Agents.AgentDriver) :
    Streams IsExitCode (networkSmoke s driver) := by
  refine streams_bind (streams_providerCommand s driver _ _ _) fun command _ => ?_
  refine streams_bind (streams_stream s _) fun rc hrc => ?_
  refine streams_ite ?_ ?_
  · exact streams_bind (streams_sendText _) fun _ _ => streams_pure hrc
  · refine streams_bind (streams_anything _) fun port _ => ?_
    refine streams_bind (streams_anything _) fun reached _ => ?_
    refine streams_ite ?_ (streams_pure isExitCode_zero)
    exact streams_bind (streams_sendText _) fun _ _ => streams_pure (by decide)

theorem streams_workspaceSmoke (base : Str) : Streams IsExitCode (workspaceSmoke s base) := by
  refine streams_bind (streams_anything _) fun _ _ => ?_
  refine streams_bind (streams_anything _) fun rc _ => ?_
  refine streams_ite ?_ (streams_stream s _)
  exact streams_bind (streams_sendText _) fun _ _ => streams_pure (by decide)

theorem streams_opSmoke : Streams IsExitCode (opSmoke s) := by
  refine streams_bind (streams_image s _) fun base _ => ?_
  refine streams_bind (streams_untilFailure (streams_requireImage s) _) fun rc hrc => ?_
  refine streams_ite (streams_pure hrc) ?_
  refine streams_bind (streams_stream s _) fun rc hrc => ?_
  refine streams_ite (streams_pure hrc) ?_
  refine streams_bind (streams_untilFailure (streams_providerSmoke s) _) fun rc hrc => ?_
  refine streams_ite (streams_pure hrc) ?_
  refine streams_bind (streams_untilFailure (streams_networkSmoke s) _) fun rc hrc => ?_
  exact streams_ite (streams_pure hrc) (streams_workspaceSmoke s base)

theorem streams_executeRuntimePlan (plan : ResolvedExecutionPlan) :
    Streams IsExitCode (executeRuntimePlan s plan) := by
  intro history
  exact streams_executeRuntimeArgv s _ _ _ history

theorem streams_opIndex (req : Dict) : Streams IsExitCode (opIndex s req) := by
  refine streams_bind (streams_anything _) fun argv _ => ?_
  refine streams_bind (streams_anything _) fun _ _ => ?_
  exact streams_executeRuntimeArgv s _ _ _

end

end AgentDev.Broker
