import AgentDev.Files.Buffered
import AgentDev.Python.Decimals
import AgentDev.Python.JsonBytes
import AgentDev.Python.Numerals

/-!
# Documents of the broker

`write_json` of `broker/daemon.py`: a document is written under a temporary name and renamed. All
threads of the broker use one temporary name for a path. The calls that write task records hold the
lock of the task; those that write the build manifest hold no lock. `read_json` reads in as many
pieces as it takes.

When no call opens the temporary file while another one has not ended that writes it, the path is an
atomic register (`documents_atomic`): it holds the document of the last rename, a reader gets what it
held when it was opened, whatever is renamed meanwhile, and calls fail only by faults of the system or
by what the path held. The lock is enough for this. Without it a call can fail because of another one,
and a reader can get a document that no call was given (`overlapping_calls`). A write that has failed is
no end of its call: `close` tries again (`failed_writer_goes_on`).
-/

namespace AgentDev.Documents

open Interleaving Files Python

/-! ## The steps -/

/-- The name of the path in its directory, the process of the broker, and the size of the buffer of a
file. -/
structure Site where
  name : Str
  pid : Nat
  bufferSize : Nat

/-- `f".{path.name}.{os.getpid()}.tmp"` -/
def Site.temporary (site : Site) : Str :=
  str "." ++ site.name ++ str "." ++ natRepr site.pid ++ str ".tmp"

/-- The directory of the path, and the lock of its task. -/
structure World where
  files : SharedDirectory Str
  lock : Option Nat

inductive Action
  /-- The lock of the task is taken. -/
  | acquire
  | release
  /-- `open(tmp, "w")` -/
  | openTemporary
  /-- One `write` of the buffered text. -/
  | write (inode offset : Nat) (data : List UInt8)
  | close (inode : Nat)
  /-- `os.chmod(tmp, 0o640)` -/
  | chmod
  /-- `os.replace(tmp, path)` -/
  | replace
  /-- `open(path)` -/
  | openPath
  /-- One `read` from the file. -/
  | read (inode offset : Nat)

abbrev Action.Result : Action → Type
  | .openTemporary | .openPath | .write _ _ _ => Nat
  | .read _ _ => List UInt8
  | _ => Unit

abbrev Action.Reply (action : Action) : Type := Except OsError action.Result

/-- How a step goes on: as it is meant, with the number of bytes that could be written or read, or with
an error of the system. -/
inductive Choice
  | works
  | moved (count : Nat)
  | fault
  deriving DecidableEq

/-- `open(path)` -/
def openForReading (files : SharedDirectory Str) (name : Str) : Except OsError Nat :=
  match files.directory.node name with
  | .missing => .error .noEntry
  | .file inode => .ok inode
  | .directory => .error .isDirectory
  | .link => .error .fault

/-- Nothing is read at the end of the file only. -/
def isPiece (rest : List UInt8) (count : Nat) : Bool :=
  count ≤ rest.length && (count ≠ 0 || rest.isEmpty)

def Action.canFail : Action → Bool
  | .release => false
  | _ => true

def exec (site : Site) (thread : Nat) :
    (action : Action) → Choice → World → Option (action.Reply × World)
  | .acquire, .works, world =>
    if world.lock = none then some (.ok (), { world with lock := some thread }) else none
  | .release, .works, world => some (.ok (), { world with lock := none })
  | .openTemporary, .works, world =>
    let (reply, files) := world.files.openTruncated thread site.temporary
    some (reply, { world with files := files })
  | .write inode offset data, .moved count, world =>
    if 0 < count && count ≤ data.length then
      some (.ok count, { world with files := world.files.write inode offset (data.take count) })
    else none
  | .close _, .works, world => some (.ok (), world)
  | .chmod, .works, world => some (world.files.chmod site.temporary, world)
  | .replace, .works, world =>
    let (reply, files) := world.files.rename site.temporary site.name
    some (reply, { world with files := files })
  | .openPath, .works, world => some (openForReading world.files site.name, world)
  | .read inode offset, .moved count, world =>
    let rest := (world.files.directory.bytes inode).drop offset
    if isPiece rest count then some (.ok (rest.take count), world) else none
  | action, .fault, world => if action.canFail then some (.error .fault, world) else none
  | _, _, _ => none

def machine (site : Site) : Machine Action.Reply World Choice where
  exec := exec site

/-! ## The programs -/

inductive Error
  | os (error : OsError)
  /-- The reader has not come to an end. -/
  | unfinished
  /-- The text is no JSON. -/
  | json (error : Json.BytesError)
  /-- `ValueError(f"cannot read {what}: ...")` -/
  | cannotRead (cause : Error)
  deriving DecidableEq

abbrev Op := Program Action.Reply Error

def get (action : Action) : Op action.Result :=
  (Program.perform action).bind fun reply =>
    match reply with
    | .ok value => .ret value
    | .error error => .fail (.os error)

/-- The system calls on the open temporary file. -/
def output (inode : Nat) : Output Action.Reply Error where
  write offset data := Program.perform (Action.write inode offset data)
  close := Program.perform (Action.close inode)
  exception := .os

/-- `tmp.write_text(text)` -/
def writeText (site : Site) (document : List UInt8) : Op Unit := do
  let inode ← get .openTemporary
  let (written, file) ← (output inode).put site.bufferSize document
  Program.ensuring ((output inode).raise written) ((output inode).closeFile file)

def writeJson (site : Site) (document : List UInt8) : Op Unit := do
  writeText site document
  get .chmod
  get .replace

/-- `fuel` bounds the pieces. -/
def readAll (inode : Nat) : (fuel : Nat) → List UInt8 → Op (List UInt8)
  | 0, _ => .fail .unfinished
  | fuel + 1, data => do
    let piece ← get (.read inode data.length)
    if piece.isEmpty then pure data else readAll inode fuel (data ++ piece)

/-- The bytes that `path.read_text()` reads. -/
def readBytes (fuel : Nat) : Op (List UInt8) := do
  let inode ← get .openPath
  Program.ensuring (readAll inode fuel []) (get (.close inode))

/-- The line ends of a file that is opened as text. -/
def universalNewlines : Str → Str
  | [] => []
  | 13 :: 10 :: rest => 10 :: universalNewlines rest
  | c :: rest => (if c = 13 then 10 else c) :: universalNewlines rest

/-- How the interpreter reads: the text of floats, the depth that it allows, and a bound of the pieces. -/
structure Interpreter where
  floats : Json.FloatText
  depth : Nat
  pieces : Nat

/-- `json.loads` of the text of a file. -/
def parse (interpreter : Interpreter) (data : List UInt8) : Except Json.BytesError Value :=
  match decodeUtf8 data with
  | none => .error .unicode
  | some text => Json.loadsWithin interpreter.floats interpreter.depth (universalNewlines text)

/-- The body of the `try`. -/
def loadPath (interpreter : Interpreter) : Op Value := do
  let data ← readBytes interpreter.pieces
  match parse interpreter data with
  | .ok value => pure value
  | .error error => .fail (.json error)

def readJson (interpreter : Interpreter) : Op Value :=
  (loadPath interpreter).handling fun error => .fail (.cannotRead error)

inductive Call
  | write (document : List UInt8)
  | read

def Call.document? : Call → Option (List UInt8)
  | write document => some document
  | read => none

/-- The lock is held while a task record is written. -/
def writing (site : Site) (locked : Bool) (document : List UInt8) : Op Unit :=
  if locked then do
    get .acquire
    Program.ensuring (writeJson site document) (get .release)
  else writeJson site document

/-- A call; what a reader has read is returned. -/
def Call.program (site : Site) (locked : Bool) (interpreter : Interpreter) : Call → Op (Option Value)
  | write document => do
    writing site locked document
    pure none
  | read => do
    let value ← readJson interpreter
    pure (some value)

/-- The calls of the threads of the broker, all for one path. -/
def pool (site : Site) (locked : Bool) (interpreter : Interpreter) (calls : Nat → Call)
    (directory : Directory Str) : Config Action.Reply World Error (Option Value) :=
  ⟨fun i => (calls i).program site locked interpreter, ⟨⟨.unopened directory, none⟩, []⟩⟩

/-! ## What is expected -/

abbrev Moment := View Action.Reply World

/-- No step of the thread has failed. -/
def Unfailed (thread : Nat) (trace : List (Event Action.Reply)) : Prop :=
  ∀ e ∈ trace, e.thread = thread → ∃ value, e.reply = .ok value

/-- The thread has not closed a file, and only writes of it have failed. -/
def Striving (thread : Nat) (trace : List (Event Action.Reply)) : Prop :=
  ∀ e ∈ trace, e.thread = thread → (∀ inode, e.action ≠ .close inode) ∧
    ((∃ value, e.reply = .ok value) ∨ ∃ inode offset data, e.action = .write inode offset data)

/-- The call goes on: a call that fails ends, after it has closed its file. -/
def Active (v : Moment) (thread : Nat) : Prop := Unfailed thread v.trace ∨ Striving thread v.trace

/-- The temporary file is not the draft of another call that goes on. -/
def Free (site : Site) (thread : Nat) (v : Moment) : Prop :=
  ∀ inode other, v.state.files.directory.node site.temporary = .file inode →
    v.state.files.holder inode = some other → other ≠ thread → ¬Active v other

/-- Calls that hold no lock do not open the temporary file at the same time. -/
def apart (site : Site) (locked : Bool) : Guard Action.Reply World Choice := fun v thread action _ =>
  locked = false → action = .openTemporary → Free site thread v

/-- The document of a rename. -/
def renamed? (calls : Nat → Call) : Event Action.Reply → Option (List UInt8)
  | ⟨thread, .replace, .ok _⟩ => (calls thread).document?
  | _ => none

/-- The atomic register: the document of the last rename. -/
def current (calls : Nat → Call) (initial : Option (List UInt8)) (trace : List (Event Action.Reply)) :
    Option (List UInt8) :=
  trace.foldl (fun value e => (renamed? calls e).or value) initial

/-- The reader has opened the path when it held `value`. -/
def Opened (calls : Nat → Call) (initial : Option (List UInt8)) (thread : Nat)
    (value : Option (List UInt8)) (trace : List (Event Action.Reply)) : Prop :=
  ∃ before after reply, trace = before ++ ⟨thread, .openPath, reply⟩ :: after ∧
    current calls initial before = value

/-- A step of the thread has failed by a fault of the system. -/
def Faulted (thread : Nat) (trace : List (Event Action.Reply)) : Prop :=
  ∃ e ∈ trace, e.thread = thread ∧ e.reply = .error .fault

/-! ## What calls guarantee to each other -/

/-- The document of the call under the path. -/
def Fits (site : Site) (calls : Nat → Call) (thread : Nat) (name : Str) (bytes : List UInt8) : Prop :=
  name = site.name ∧ (calls thread).document? = some bytes

def IsTemporary (site : Site) (name : Str) : Prop := name = site.temporary

/-- A file, or nothing. -/
def IsPlain (node : Node) : Prop := node = .missing ∨ ∃ inode, node = .file inode

section

variable (site : Site) (locked : Bool) (calls : Nat → Call) (initial : Option (List UInt8))

structure Inv (v : Moment) : Prop where
  register : content v.state.files site.name = current calls initial v.trace
  path : IsPlain (v.state.files.directory.node site.name)
  temporary : IsPlain (v.state.files.directory.node site.temporary)
  mutex : locked = true → ∀ inode thread, v.state.files.directory.node site.temporary = .file inode →
    v.state.files.holder inode = some thread → Active v thread → v.state.lock = some thread

structure Moves (thread : Nat) (v v' : Moment) : Prop where
  event : ∃ e : Event Action.Reply, e.thread = thread ∧ v'.trace = v.trace ++ [e]
  files : Files.Orderly (IsTemporary site) (Active v) (Fits site calls thread) thread v.state.files
    v'.state.files
  settling : Settling (IsTemporary site) v.state.files v'.state.files
  lock : ∀ other, other ≠ thread → v.state.lock = some other → v'.state.lock = some other

def contract : Contract Action.Reply World where
  inv := Inv site locked calls initial
  guar := Moves site calls

/-- What a program of the call `thread` does, whatever the other calls do. -/
abbrev Does {α : Type} (thread : Nat) (p : Moment → Prop) (body : Op α) (q : α → Moment → Prop)
    (e : Error → Moment → Prop) : Prop :=
  (contract site locked calls initial).Spec (machine site) (apart site locked) thread p body q e

/-- No other call invalidates `p`. -/
def Kept (thread : Nat) (p : Moment → Prop) : Prop :=
  ∀ other v v', thread ≠ other → Moves site calls other v v' → p v → p v'

end

section

variable {site : Site} {locked : Bool} {calls : Nat → Call} {initial : Option (List UInt8)}
  {thread other : Nat} {p q : Moment → Prop} {v v' : Moment}

theorem name_ne_temporary : site.name ≠ site.temporary := by
  intro h
  have hlength := congrArg List.length h
  simp only [Site.temporary, List.length_append] at hlength
  have hdot : (str ".").length = 1 := rfl
  omega

theorem isTemporary_temporary : IsTemporary site site.temporary := rfl

theorem not_isTemporary_name : ¬IsTemporary site site.name := name_ne_temporary

theorem Kept.stable (h : Kept site calls thread p) : (contract site locked calls initial).Stable thread p := by
  rintro v v' ⟨-, -, other, hne, hguar⟩ hv
  exact h other v v' hne.symm hguar hv

theorem Kept.and (hp : Kept site calls thread p) (hq : Kept site calls thread q) :
    Kept site calls thread fun v => p v ∧ q v :=
  fun other v v' hne hmoves h => ⟨hp other v v' hne hmoves h.1, hq other v v' hne hmoves h.2⟩

theorem Kept.fact (hp : Kept site calls thread p) (φ : Prop) : Kept site calls thread fun v => φ ∧ p v :=
  fun other v v' hne hmoves h => ⟨h.1, hp other v v' hne hmoves h.2⟩

/-! ## What a call knows -/

theorem Active.before {trace : List (Event Action.Reply)} (htrace : v'.trace = v.trace ++ trace)
    (h : Active v' thread) : Active v thread := by
  have hmem : ∀ e ∈ v.trace, e ∈ v'.trace := by
    intro e he
    rw [htrace]
    exact List.mem_append_left _ he
  rcases h with hunfailed | hstriving
  · exact Or.inl fun e he => hunfailed e (hmem e he)
  · exact Or.inr fun e he => hstriving e (hmem e he)

/-- What concerns the own steps only. -/
theorem kept_of_own {φ : Event Action.Reply → Prop} :
    Kept site calls thread fun v => ∀ e ∈ v.trace, e.thread = thread → φ e := by
  intro other v v' hne hmoves h e he hthread
  obtain ⟨new, hnew, htrace⟩ := hmoves.event
  rw [htrace] at he
  rcases List.mem_append.mp he with hold | hlast
  · exact h e hold hthread
  · rw [List.mem_singleton.mp hlast] at hthread
    exact absurd (hthread.symm.trans hnew) hne

theorem kept_unfailed : Kept site calls thread fun v => Unfailed thread v.trace := kept_of_own

theorem kept_striving : Kept site calls thread fun v => Striving thread v.trace := kept_of_own

theorem kept_inactive : Kept site calls thread fun v => ¬Active v thread := by
  intro other v v' _ hmoves h hactive
  obtain ⟨new, -, htrace⟩ := hmoves.event
  exact h (hactive.before htrace)

/-- No step has failed, and no file has been closed. -/
abbrev Fresh (thread : Nat) (v : Moment) : Prop := Unfailed thread v.trace ∧ Striving thread v.trace

/-- The call has no draft yet. -/
def Clear (site : Site) (thread : Nat) (v : Moment) : Prop :=
  Fresh thread v ∧ Cleared (IsTemporary site) thread v.state.files

theorem kept_clear : Kept site calls thread (Clear site thread) :=
  fun other v v' hne hmoves h => ⟨(kept_unfailed.and kept_striving) other v v' hne hmoves h.1,
    h.2.orderly hne (Or.inl h.1.1) hmoves.files⟩

/-- The call has `data` in its draft. -/
abbrev HasDraft (site : Site) (thread inode : Nat) (data : List UInt8) (v : Moment) : Prop :=
  Draft (IsTemporary site) thread site.temporary inode data v.state.files

/-- The call has written `data`, and goes on writing. -/
def Writing (site : Site) (thread inode : Nat) (data : List UInt8) (v : Moment) : Prop :=
  Fresh thread v ∧ HasDraft site thread inode data v

theorem kept_writing {inode : Nat} {data : List UInt8} :
    Kept site calls thread (Writing site thread inode data) :=
  fun other v v' hne hmoves h => ⟨(kept_unfailed.and kept_striving) other v v' hne hmoves h.1,
    h.2.orderly rfl hne (Or.inl h.1.1) hmoves.files⟩

/-- The call has written `data`. -/
def Drafting (site : Site) (thread inode : Nat) (data : List UInt8) (v : Moment) : Prop :=
  Unfailed thread v.trace ∧ HasDraft site thread inode data v

theorem kept_drafting {inode : Nat} {data : List UInt8} :
    Kept site calls thread (Drafting site thread inode data) :=
  fun other v v' hne hmoves h => ⟨kept_unfailed other v v' hne hmoves h.1,
    h.2.orderly rfl hne (Or.inl h.1) hmoves.files⟩

/-- A write has failed; the file is open still. -/
def Breaking (site : Site) (thread inode : Nat) (v : Moment) : Prop :=
  (Striving thread v.trace ∧ Faulted thread v.trace) ∧ ∃ data, HasDraft site thread inode data v

/-- The call holds the lock, if it needs it. -/
def Holds (locked : Bool) (thread : Nat) (v : Moment) : Prop :=
  locked = true → v.state.lock = some thread

theorem kept_holds : Kept site calls thread (Holds locked thread) :=
  fun _ _ _ hne hmoves h hlocked => hmoves.lock thread hne (h hlocked)

/-- The reader has opened the file `inode`, which contained `data`. -/
def Reading (site : Site) (inode : Nat) (data : List UInt8) (v : Moment) : Prop :=
  Files.Settled (IsTemporary site) inode v.state.files ∧ v.state.files.directory.bytes inode = data

theorem kept_reading {inode : Nat} {data : List UInt8} :
    Kept site calls thread (Reading site inode data) := by
  intro other v v' _ hmoves h
  obtain ⟨hsettled, hbytes⟩ := hmoves.settling inode h.1
  exact ⟨hsettled, hbytes.trans h.2⟩

theorem Faulted.append {trace after : List (Event Action.Reply)} (h : Faulted thread trace) :
    Faulted thread (trace ++ after) := by
  obtain ⟨e, he, hfault⟩ := h
  exact ⟨e, List.mem_append_left _ he, hfault⟩

theorem Opened.append {trace after : List (Event Action.Reply)} {value : Option (List UInt8)}
    (h : Opened calls initial thread value trace) :
    Opened calls initial thread value (trace ++ after) := by
  obtain ⟨before, rest, reply, htrace, hvalue⟩ := h
  exact ⟨before, rest ++ after, reply, by rw [htrace, List.append_assoc]; rfl, hvalue⟩

/-- What the trace tells once it tells for ever. -/
theorem kept_of_trace {φ : List (Event Action.Reply) → Prop}
    (h : ∀ trace after, φ trace → φ (trace ++ after)) : Kept site calls thread fun v => φ v.trace := by
  intro other v v' _ hmoves hv
  obtain ⟨e, -, htrace⟩ := hmoves.event
  show φ v'.trace
  rw [htrace]
  exact h v.trace [e] hv

theorem kept_faulted : Kept site calls thread fun v => Faulted thread v.trace :=
  kept_of_trace fun _ _ h => h.append

theorem kept_opened {value : Option (List UInt8)} :
    Kept site calls thread fun v => Opened calls initial thread value v.trace :=
  kept_of_trace fun _ _ h => h.append

/-! ## One step -/

theorem current_append (trace : List (Event Action.Reply)) (e : Event Action.Reply) :
    current calls initial (trace ++ [e]) = (renamed? calls e).or (current calls initial trace) :=
  List.foldl_append ..

/-- A step keeps the invariant when its call guarantees what it should, and has its draft, if any,
under its lock. -/
theorem Inv.step {e : Event Action.Reply} {world : World} (h : Inv site locked calls initial v)
    (hmoves : Moves site calls e.thread v (v.after world e))
    (hcontent : content world.files site.name =
      (renamed? calls e).or (content v.state.files site.name))
    (hpath : IsPlain (world.files.directory.node site.name))
    (htemporary : IsPlain (world.files.directory.node site.temporary))
    (hown : locked = true → ∀ inode, world.files.directory.node site.temporary = .file inode →
      world.files.holder inode = some e.thread → Active (v.after world e) e.thread →
        world.lock = some e.thread) :
    Inv site locked calls initial (v.after world e) where
  register := hcontent.trans (by rw [h.register]; exact (current_append ..).symm)
  path := hpath
  temporary := htemporary
  mutex := by
    intro hlocked inode thread hnode hholder hactive
    by_cases hthread : thread = e.thread
    · subst hthread
      exact hown hlocked inode hnode hholder hactive
    · have hbefore : Active v thread := Active.before rfl hactive
      obtain ⟨hnode', hholder'⟩ := hmoves.files.node_of_held hthread hbefore hnode hholder
      exact hmoves.lock thread hthread (h.mutex hlocked inode thread hnode' hholder' hbefore)

/-- A step that leaves the files alone. -/
theorem Inv.look {e : Event Action.Reply} {world : World} (h : Inv site locked calls initial v)
    (hfiles : world.files = v.state.files) (hevent : renamed? calls e = none)
    (hlock : ∀ other, other ≠ e.thread → v.state.lock = some other → world.lock = some other)
    (hown : locked = true → ∀ inode, v.state.files.directory.node site.temporary = .file inode →
      v.state.files.holder inode = some e.thread → Active (v.after world e) e.thread →
        world.lock = some e.thread) :
    Inv site locked calls initial (v.after world e) ∧
      Moves site calls e.thread v (v.after world e) := by
  have hmoves : Moves site calls e.thread v (v.after world e) := {
    event := ⟨e, rfl, rfl⟩
    files := by
      show Files.Orderly _ _ _ _ v.state.files world.files
      rw [hfiles]
      exact .refl
    settling := by
      show Settling _ v.state.files world.files
      rw [hfiles]
      exact .refl
    lock := hlock }
  refine ⟨h.step hmoves ?_ ?_ ?_ ?_, hmoves⟩
  · rw [hfiles, hevent, Option.none_or]
  · rw [hfiles]
    exact h.path
  · rw [hfiles]
    exact h.temporary
  · rw [hfiles]
    exact hown

/-- One action, from what it does to the moment. -/
theorem get_does {a : Action} {q : a.Result → Moment → Prop} {e : Error → Moment → Prop}
    (hp : Kept site calls thread p) (hq : ∀ value, Kept site calls thread (q value))
    (he : ∀ error, Kept site calls thread (e error))
    (hstep : ∀ v choice reply world, apart site locked v thread a choice →
      Inv site locked calls initial v → p v → exec site thread a choice v.state = some (reply, world) →
      (Inv site locked calls initial (v.after world ⟨thread, a, reply⟩) ∧
        Moves site calls thread v (v.after world ⟨thread, a, reply⟩)) ∧
      (∀ value, reply = .ok value → q value (v.after world ⟨thread, a, reply⟩)) ∧
      ∀ error, reply = .error error → e (.os error) (v.after world ⟨thread, a, reply⟩)) :
    Does site locked calls initial thread p (get a) q e := by
  refine .act (J := fun (reply : a.Reply) v => (∀ value, reply = .ok value → q value v) ∧
    ∀ error, reply = .error error → e (.os error) v) hp.stable ?_ fun reply => ?_
  · intro v choice reply world hguard hinv hv hexec
    obtain ⟨⟨hinv', hmoves⟩, hok, herror⟩ := hstep v choice reply world hguard hinv hv hexec
    exact ⟨hinv', hmoves, hok, herror⟩
  · have hstable : (contract site locked calls initial).Stable thread fun v =>
        (∀ value, reply = .ok value → q value v) ∧ ∀ error, reply = .error error → e (.os error) v :=
      (Contract.Stable.all fun value => .imp fun _ => (hq value).stable).and
        (.all fun error => .imp fun _ => (he (.os error)).stable)
    cases reply with
    | ok value => exact .ret hstable fun v hv => hv.1 value rfl
    | error error => exact .fail hstable fun v hv => hv.2 error rfl

/-- One action that leaves the world alone. -/
theorem look_does {a : Action} {q : a.Result → Moment → Prop} {e : Error → Moment → Prop}
    (hp : Kept site calls thread p) (hq : ∀ value, Kept site calls thread (q value))
    (he : ∀ error, Kept site calls thread (e error)) (hevent : ∀ reply, renamed? calls ⟨thread, a, reply⟩ = none)
    (hstep : ∀ v choice reply world, Inv site locked calls initial v → p v →
      exec site thread a choice v.state = some (reply, world) → world = v.state ∧
      (∀ value, reply = .ok value → q value (v.after world ⟨thread, a, reply⟩)) ∧
      ∀ error, reply = .error error → e (.os error) (v.after world ⟨thread, a, reply⟩)) :
    Does site locked calls initial thread p (get a) q e := by
  refine get_does hp hq he fun v choice reply world _ hinv hv hexec => ?_
  obtain ⟨rfl, hends⟩ := hstep v choice reply world hinv hv hexec
  refine ⟨hinv.look rfl (hevent reply) (fun _ _ h => h) ?_, hends⟩
  intro hlocked inode hnode hholder hactive
  exact hinv.mutex hlocked inode thread hnode hholder (Active.before rfl hactive)

theorem own_after {φ : Event Action.Reply → Prop} {world : World} {e : Event Action.Reply}
    (h : ∀ e' ∈ v.trace, e'.thread = thread → φ e') (he : φ e) :
    ∀ e' ∈ (v.after world e).trace, e'.thread = thread → φ e' := by
  intro e' he' hthread
  rcases List.mem_append.mp he' with hold | hlast
  · exact h e' hold hthread
  · rw [List.mem_singleton.mp hlast]
    exact he

theorem Unfailed.after {world : World} {a : Action} {value : a.Result} (h : Unfailed thread v.trace) :
    Unfailed thread (v.after world ⟨thread, a, .ok value⟩).trace :=
  own_after h ⟨value, rfl⟩

theorem Fresh.after {world : World} {a : Action} {value : a.Result} (h : Fresh thread v)
    (ha : ∀ inode, a ≠ .close inode) : Fresh thread (v.after world ⟨thread, a, .ok value⟩) :=
  ⟨h.1.after, own_after h.2 ⟨ha, Or.inl ⟨value, rfl⟩⟩⟩

/-- The error of a call, after a fault. -/
def Failed (thread : Nat) (error : Error) (v : Moment) : Prop :=
  error = .os .fault ∧ Faulted thread v.trace

theorem failed_after {world : World} {a : Action} :
    Failed thread (.os .fault) (v.after world ⟨thread, a, .error .fault⟩) :=
  ⟨rfl, _, List.mem_append_right _ List.mem_cons_self, rfl, rfl⟩

theorem Failed.after {error : Error} {world : World} {e : Event Action.Reply} (h : Failed thread error v) :
    Failed thread error (v.after world e) :=
  ⟨h.1, h.2.append⟩

theorem Faulted.not_unfailed {trace : List (Event Action.Reply)} (h : Faulted thread trace) :
    ¬Unfailed thread trace := by
  intro hunfailed
  obtain ⟨e, he, hthread, hfault⟩ := h
  obtain ⟨value, hvalue⟩ := hunfailed e he hthread
  rw [hfault] at hvalue
  cases hvalue

/-- A call that has failed and closed its file has ended. -/
theorem not_active_of_closed {world : World} {inode : Nat} {reply : Except OsError Unit}
    (h : Faulted thread (v.after world ⟨thread, .close inode, reply⟩).trace) :
    ¬Active (v.after world ⟨thread, .close inode, reply⟩) thread := by
  rintro (hunfailed | hstriving)
  · exact h.not_unfailed hunfailed
  · obtain ⟨hopen, -⟩ := hstriving _ (List.mem_append_right _ List.mem_cons_self) rfl
    exact hopen inode rfl

/-- A call has failed and ended. -/
def Over (thread : Nat) (error : Error) (v : Moment) : Prop :=
  Failed thread error v ∧ ¬Active v thread

/-- A step that fails ends its call, unless it is a write. -/
theorem over_after {world : World} {a : Action} (ha : ∀ inode offset data, a ≠ .write inode offset data) :
    Over thread (.os .fault) (v.after world ⟨thread, a, .error .fault⟩) := by
  refine ⟨failed_after, ?_⟩
  rintro (hunfailed | hstriving)
  · exact Faulted.not_unfailed failed_after.2 hunfailed
  · obtain ⟨-, hreply⟩ := hstriving _ (List.mem_append_right _ List.mem_cons_self) rfl
    rcases hreply with ⟨value, hvalue⟩ | ⟨inode, offset, data, hwrite⟩
    · cases hvalue
    · exact ha inode offset data hwrite

theorem Over.after {error : Error} {world : World} {e : Event Action.Reply} (h : Over thread error v) :
    Over thread error (v.after world e) :=
  ⟨h.1.after, fun hactive => h.2 (hactive.before rfl)⟩

theorem kept_failed (error : Error) : Kept site calls thread (Failed thread error) :=
  kept_faulted.fact _

theorem kept_over (error : Error) : Kept site calls thread (Over thread error) :=
  (kept_failed error).and kept_inactive

theorem kept_breaking {inode : Nat} : Kept site calls thread (Breaking site thread inode) := by
  rintro other v v' hne hmoves ⟨hstate, data, hdraft⟩
  exact ⟨(kept_striving.and kept_faulted) other v v' hne hmoves hstate, data,
    hdraft.orderly rfl hne (Or.inr hstate.1) hmoves.files⟩

/-! ## Writing -/

section

variable {inode : Nat} {data : List UInt8}

/-- Nobody who goes on has the temporary file. -/
theorem free_of_guard {choice : Choice} (hguard : apart site locked v thread .openTemporary choice)
    (hinv : Inv site locked calls initial v) (hholds : Holds locked thread v) : Free site thread v := by
  cases locked with
  | false => exact hguard rfl rfl
  | true =>
    intro inode other hnode hholder hne hactive
    have hlock := hinv.mutex rfl inode other hnode hholder hactive
    rw [hholds rfl] at hlock
    exact hne (Option.some.inj hlock).symm

/-- What the error of a writer tells while it holds the lock. -/
abbrev FailedHolding (locked : Bool) (thread : Nat) (error : Error) (v : Moment) : Prop :=
  Over thread error v ∧ Holds locked thread v

theorem kept_failedHolding (error : Error) :
    Kept site calls thread (FailedHolding locked thread error) :=
  (kept_over error).and kept_holds

theorem kept_writingHolding :
    Kept site calls thread fun v => Writing site thread inode data v ∧ Holds locked thread v :=
  kept_writing.and kept_holds

theorem kept_draftingHolding :
    Kept site calls thread fun v => Drafting site thread inode data v ∧ Holds locked thread v :=
  kept_drafting.and kept_holds

theorem openTemporary_does :
    Does site locked calls initial thread
      (fun v => Clear site thread v ∧ Holds locked thread v) (get .openTemporary)
      (fun inode v => Writing site thread inode [] v ∧ Holds locked thread v)
      (FailedHolding locked thread) := by
  refine get_does (kept_clear.and kept_holds) (fun _ => kept_writingHolding) kept_failedHolding ?_
  rintro v choice reply world hguard hinv ⟨⟨hfresh, hcleared⟩, hholds⟩ hexec
  have hfree := free_of_guard hguard hinv hholds
  cases choice with
  | moved => cases hexec
  | fault =>
    cases hexec
    refine ⟨hinv.look rfl rfl (fun _ _ h => h) fun hlocked _ _ _ _ => hholds hlocked, nofun, ?_⟩
    rintro error h
    cases h
    exact ⟨over_after nofun, hholds⟩
  | works =>
    have hopen : some ((v.state.files.openTruncated thread site.temporary).1,
        { v.state with files := (v.state.files.openTruncated thread site.temporary).2 }) =
        some (reply, world) := hexec
    -- the file is new, or one that nobody is writing
    have hopened : ∀ (opened : Nat) (files : SharedDirectory Str),
        Files.Orderly (IsTemporary site) (Active v) (Fits site calls thread) thread v.state.files files ∧
          Draft (IsTemporary site) thread site.temporary opened [] files →
        Settling (IsTemporary site) v.state.files files →
        files.directory.node site.name = v.state.files.directory.node site.name →
        let world : World := { v.state with files := files }
        let e : Event Action.Reply := ⟨thread, .openTemporary, .ok opened⟩
        (Inv site locked calls initial (v.after world e) ∧ Moves site calls thread v (v.after world e)) ∧
          Writing site thread opened [] (v.after world e) ∧ Holds locked thread (v.after world e) := by
      rintro opened files ⟨hfiles, hdraft⟩ hsettling hpath world e
      have hmoves : Moves site calls thread v (v.after world e) :=
        ⟨⟨e, rfl, rfl⟩, hfiles, hsettling, fun _ _ h => h⟩
      refine ⟨⟨hinv.step hmoves ?_ ?_ ?_ fun hlocked _ _ _ _ => hholds hlocked, hmoves⟩,
        ⟨hfresh.after nofun, hdraft⟩, hholds⟩
      · exact hsettling.content_eq not_isTemporary_name hpath
      · rw [hpath]
        exact hinv.path
      · exact Or.inr ⟨opened, hdraft.node⟩
    unfold SharedDirectory.openTruncated at hopen
    split at hopen
    · rename_i hmissing
      cases hopen
      obtain ⟨hkept, hdrafting⟩ := hopened _ _ (created_orderly hmissing rfl hcleared) settling_created
        (Directory.create_node_of_ne name_ne_temporary)
      refine ⟨hkept, ?_, nofun⟩
      rintro value h
      cases h
      exact hdrafting
    · rename_i inode hnode
      cases hopen
      have horderly : Files.Orderly (IsTemporary site) (Active v) (Fits site calls thread) thread
          v.state.files _ ∧ Draft (IsTemporary site) thread site.temporary inode [] _ :=
        truncated_orderly hnode rfl (fun other hholder hne => hfree inode other hnode hholder hne)
          fun other k hother hk htemp => htemp
      obtain ⟨hkept, hdrafting⟩ := hopened _ _ horderly (settling_truncated hnode rfl) rfl
      refine ⟨hkept, ?_, nofun⟩
      rintro value h
      cases h
      exact hdrafting
    · rename_i hdirectory
      rcases hinv.temporary with hnode | ⟨_, hnode⟩ <;> rw [hdirectory] at hnode <;> cases hnode
    · rename_i hlink
      rcases hinv.temporary with hnode | ⟨_, hnode⟩ <;> rw [hlink] at hnode <;> cases hnode

/-- One `write` to the draft, before or after another one has failed. -/
theorem exec_write {offset : Nat} {text data : List UInt8} {choice : Choice} {world : World}
    {reply : Except OsError Nat}
    (hexec : exec site thread (.write inode offset data) choice v.state = some (reply, world))
    (hinv : Inv site locked calls initial v) (hdraft : HasDraft site thread inode text v)
    (hholds : Holds locked thread v) :
    let v' := v.after world ⟨thread, .write inode offset data, reply⟩
    (Inv site locked calls initial v' ∧ Moves site calls thread v v') ∧ Holds locked thread v' ∧
      ((∃ count, (reply = .ok count ∧ 0 < count ∧ count ≤ data.length) ∧
        HasDraft site thread inode (overwrite text offset (data.take count)) v') ∨
      reply = .error .fault ∧ HasDraft site thread inode text v') := by
  intro v'
  cases choice with
  | works => cases hexec
  | fault =>
    cases hexec
    exact ⟨hinv.look rfl rfl (fun _ _ h => h) fun hlocked _ _ _ _ => hholds hlocked, hholds,
      Or.inr ⟨rfl, hdraft⟩⟩
  | moved count =>
    simp only [exec] at hexec
    split at hexec
    · rename_i hcount
      cases hexec
      simp only [Bool.and_eq_true, decide_eq_true_eq] at hcount
      obtain ⟨hfiles, hdraft'⟩ : Files.Orderly (IsTemporary site) (Active v) (Fits site calls thread) thread
          v.state.files _ ∧ _ := hdraft.write rfl offset (data.take count)
      have hsettling : Settling (IsTemporary site) v.state.files
          (v.state.files.write inode offset (data.take count)) :=
        settling_write hdraft.node isTemporary_temporary offset (data.take count)
      have hmoves : Moves site calls thread v v' :=
        ⟨⟨_, rfl, rfl⟩, hfiles, hsettling, fun _ _ h => h⟩
      refine ⟨⟨hinv.step hmoves ?_ hinv.path hinv.temporary fun hlocked _ _ _ _ => hholds hlocked,
        hmoves⟩, hholds, Or.inl ⟨count, ⟨rfl, hcount⟩, hdraft'⟩⟩
      exact hsettling.content_eq not_isTemporary_name rfl
    · cases hexec

/-- The stages of the draft. -/
def stages (site : Site) (locked : Bool) (thread inode : Nat) : Stages Action.Reply World where
  working text v := Writing site thread inode text v ∧ Holds locked thread v
  broken v := Breaking site thread inode v ∧ Holds locked thread v
  done text v := Drafting site thread inode text v ∧ Holds locked thread v
  closed v := (Faulted thread v.trace ∧ ¬Active v thread) ∧ Holds locked thread v
  cause error := error = .fault

/-- Closing the file, in whatever stage it is. -/
theorem perform_close {p : Moment → Prop} {post : Except OsError Unit → Moment → Prop}
    {e : Error → Moment → Prop} (hp : Kept site calls thread p) (hholds : ∀ v, p v → Holds locked thread v)
    (hpost : ∀ reply, (contract site locked calls initial).Stable thread (post reply))
    (hok : ∀ v, p v → post (.ok ()) (v.after v.state ⟨thread, .close inode, .ok ()⟩))
    (hfault : ∀ v, p v → post (.error .fault) (v.after v.state ⟨thread, .close inode, .error .fault⟩)) :
    (contract site locked calls initial).Spec (machine site) (apart site locked) thread p
      (Program.perform (Action.close inode)) post e := by
  refine .act hp.stable ?_ fun reply => .ret (hpost reply) fun _ hv => hv
  intro v choice reply world _ hinv hv hexec
  have hown : ∀ world : World, world = v.state → ∀ e : Event Action.Reply, e.thread = thread →
      renamed? calls e = none → Inv site locked calls initial (v.after world e) ∧
        Moves site calls thread v (v.after world e) := by
    rintro world rfl e rfl hevent
    exact hinv.look rfl hevent (fun _ _ h => h) fun hlocked _ _ _ _ => hholds v hv hlocked
  cases choice with
  | moved => cases hexec
  | works =>
    cases hexec
    obtain ⟨hinv', hmoves⟩ := hown v.state rfl ⟨thread, .close inode, .ok ()⟩ rfl rfl
    exact ⟨hinv', hmoves, hok v hv⟩
  | fault =>
    cases hexec
    obtain ⟨hinv', hmoves⟩ := hown v.state rfl ⟨thread, .close inode, .error .fault⟩ rfl rfl
    exact ⟨hinv', hmoves, hfault v hv⟩

theorem output_obeys :
    (stages site locked thread inode).Obeys (contract site locked calls initial) (machine site)
      (apart site locked) thread (output inode) (FailedHolding locked thread) := by
  have hworking : ∀ text, Kept site calls thread ((stages site locked thread inode).working text) :=
    fun text => kept_writing.and kept_holds
  have hbroken : Kept site calls thread (stages site locked thread inode).broken :=
    kept_breaking.and kept_holds
  have hdone : ∀ text, Kept site calls thread ((stages site locked thread inode).done text) :=
    fun text => kept_drafting.and kept_holds
  have hclosed : Kept site calls thread (stages site locked thread inode).closed :=
    (kept_faulted.and kept_inactive).and kept_holds
  refine ⟨fun text => (hworking text).stable, hbroken.stable, fun text => (hdone text).stable,
    hclosed.stable, ?_, ?_, ?_, ?_, ?_⟩
  · intro written data
    refine .act (a := Action.write inode written.length data) (hworking written).stable ?_ fun reply =>
      .ret (Stages.wrote_stable (fun text => (hworking text).stable) hbroken.stable written data reply)
        fun _ hv => hv
    rintro v choice reply world - hinv ⟨⟨hfresh, hdraft⟩, hholds⟩ hexec
    obtain ⟨⟨hinv', hmoves⟩, hholds', hwrote⟩ := exec_write hexec hinv hdraft hholds
    refine ⟨hinv', hmoves, ?_⟩
    rcases hwrote with ⟨count, ⟨rfl, hcount⟩, hdraft'⟩ | ⟨rfl, hdraft'⟩
    · rw [overwrite_length] at hdraft'
      exact ⟨hcount, ⟨hfresh.after nofun, hdraft'⟩, hholds'⟩
    · exact ⟨rfl, ⟨⟨own_after hfresh.2 ⟨nofun, Or.inr ⟨_, _, _, rfl⟩⟩, failed_after.2⟩, written, hdraft'⟩,
        hholds'⟩
  · intro offset data
    refine .act (a := Action.write inode offset data) hbroken.stable ?_ fun reply =>
      .ret (Stages.again_stable hbroken.stable reply) fun _ hv => hv
    rintro v choice reply world - hinv ⟨⟨⟨hstriving, hfaulted⟩, text, hdraft⟩, hholds⟩ hexec
    obtain ⟨⟨hinv', hmoves⟩, hholds', hwrote⟩ := exec_write hexec hinv hdraft hholds
    have hstriving' : Striving thread (v.after world ⟨thread, .write inode offset data, reply⟩).trace :=
      own_after hstriving ⟨nofun, Or.inr ⟨_, _, _, rfl⟩⟩
    refine ⟨hinv', hmoves, ?_⟩
    rcases hwrote with ⟨count, ⟨rfl, -⟩, hdraft'⟩ | ⟨rfl, hdraft'⟩
    · exact ⟨nofun, ⟨⟨hstriving', hfaulted.append⟩, _, hdraft'⟩, hholds'⟩
    · refine ⟨?_, ⟨⟨hstriving', hfaulted.append⟩, text, hdraft'⟩, hholds'⟩
      rintro error h
      cases h
      rfl
  · intro text
    refine perform_close (hworking text) (fun _ hv => hv.2)
      (Stages.ended_stable (fun text => (hdone text).stable) hclosed.stable text) ?_ ?_
    · rintro v ⟨⟨hfresh, hdraft⟩, hholds⟩
      exact ⟨⟨hfresh.1.after, hdraft⟩, hholds⟩
    · rintro v ⟨-, hholds⟩
      exact ⟨rfl, ⟨failed_after.2, not_active_of_closed failed_after.2⟩, hholds⟩
  · refine perform_close hbroken (fun _ hv => hv.2) (Stages.again_stable hclosed.stable) ?_ ?_
    · rintro v ⟨⟨⟨-, hfaulted⟩, -⟩, hholds⟩
      exact ⟨nofun, ⟨hfaulted.append, not_active_of_closed hfaulted.append⟩, hholds⟩
    · rintro v ⟨⟨⟨-, hfaulted⟩, -⟩, hholds⟩
      refine ⟨?_, ⟨hfaulted.append, not_active_of_closed hfaulted.append⟩, hholds⟩
      rintro error h
      cases h
      rfl
  · rintro error v ⟨⟨cause, rfl, rfl⟩, ⟨hfaulted, hinactive⟩, hholds⟩
    exact ⟨⟨⟨rfl, hfaulted⟩, hinactive⟩, hholds⟩

theorem writeText_does (document : List UInt8) :
    Does site locked calls initial thread
      (fun v => Clear site thread v ∧ Holds locked thread v) (writeText site document)
      (fun _ v => (∃ inode, Drafting site thread inode document v) ∧ Holds locked thread v)
      (FailedHolding locked thread) := by
  refine openTemporary_does.bind fun (inode : Nat) => ?_
  have hobeys : (stages site locked thread inode).Obeys (contract site locked calls initial) (machine site)
    (apart site locked) thread (output inode) (FailedHolding locked thread) := output_obeys
  refine (hobeys.put_spec site.bufferSize).bind fun result => ?_
  obtain ⟨written, file⟩ := result
  cases written with
  | ok =>
    rintro v ⟨-, hleft⟩
    refine Contract.Spec.bind (hobeys.closeFile_spec file) (fun _ => ?_) v hleft
    exact .ret kept_draftingHolding.stable fun w hw => ⟨⟨inode, hw.1⟩, hw.2⟩
  | error error =>
    rintro v ⟨rfl, hbroken⟩
    refine Contract.Spec.bind (hobeys.closeFile_again file) (fun _ => ?_) v hbroken
    exact .fail ((kept_faulted.and kept_inactive).and kept_holds).stable
      fun w hw => ⟨⟨⟨rfl, hw.1.1⟩, hw.1.2⟩, hw.2⟩

theorem chmod_does :
    Does site locked calls initial thread
      (fun v => Drafting site thread inode data v ∧ Holds locked thread v) (get .chmod)
      (fun _ v => Drafting site thread inode data v ∧ Holds locked thread v)
      (FailedHolding locked thread) := by
  refine look_does (a := .chmod) kept_draftingHolding (fun _ => kept_draftingHolding) kept_failedHolding
    (fun _ => rfl) fun v choice reply world _ hv hexec => ?_
  cases choice with
  | moved => cases hexec
  | fault =>
    cases hexec
    refine ⟨rfl, nofun, ?_⟩
    rintro error h
    cases h
    exact ⟨over_after nofun, hv.2⟩
  | works =>
    have hchmod : some (v.state.files.chmod site.temporary, v.state) = some (reply, world) := hexec
    unfold SharedDirectory.chmod at hchmod
    rw [hv.1.2.node] at hchmod
    cases hchmod
    exact ⟨rfl, fun _ _ => ⟨⟨hv.1.1.after, hv.1.2⟩, hv.2⟩, nofun⟩

/-- The call has renamed its document. -/
def Renamed (thread : Nat) (trace : List (Event Action.Reply)) : Prop :=
  (⟨thread, .replace, .ok ()⟩ : Event Action.Reply) ∈ trace

theorem kept_renamed : Kept site calls thread fun v => Renamed thread v.trace :=
  kept_of_trace fun _ _ h => List.mem_append_left _ h

/-- What a writer that has written leaves. -/
def Written (site : Site) (thread : Nat) (v : Moment) : Prop :=
  (Unfailed thread v.trace ∧ Cleared (IsTemporary site) thread v.state.files) ∧ Renamed thread v.trace

theorem kept_cleared : Kept site calls thread fun v =>
    Unfailed thread v.trace ∧ Cleared (IsTemporary site) thread v.state.files :=
  fun other v v' hne hmoves h => ⟨kept_unfailed other v v' hne hmoves h.1,
    h.2.orderly hne (Or.inl h.1) hmoves.files⟩

theorem kept_written : Kept site calls thread (Written site thread) := kept_cleared.and kept_renamed

theorem replace_does (hdocument : (calls thread).document? = some data) :
    Does site locked calls initial thread
      (fun v => Drafting site thread inode data v ∧ Holds locked thread v) (get .replace)
      (fun _ v => Written site thread v ∧ Holds locked thread v) (FailedHolding locked thread) := by
  refine get_does kept_draftingHolding (fun _ => kept_written.and kept_holds) kept_failedHolding ?_
  rintro v choice reply world - hinv ⟨⟨hactive, hdraft⟩, hholds⟩ hexec
  cases choice with
  | moved => cases hexec
  | fault =>
    cases hexec
    refine ⟨hinv.look rfl rfl (fun _ _ h => h) fun hlocked _ _ _ _ => hholds hlocked, nofun, ?_⟩
    rintro error h
    cases h
    exact ⟨over_after nofun, hholds⟩
  | works =>
    have hrename : some ((v.state.files.rename site.temporary site.name).1,
        { v.state with files := (v.state.files.rename site.temporary site.name).2 }) =
        some (reply, world) := hexec
    rcases SharedDirectory.rename_of_file hdraft.node site.name with hdirectory | hdone
    · -- no directory stands under the path
      unfold SharedDirectory.rename at hdirectory
      rcases hinv.path with hnode | ⟨_, hnode⟩ <;> rw [hdraft.node, hnode] at hdirectory <;>
        cases hdirectory
    · rw [hdone] at hrename
      cases hrename
      obtain ⟨hfiles, hcleared⟩ : Files.Orderly (IsTemporary site) (Active v) (Fits site calls thread) thread
          v.state.files _ ∧ Cleared (IsTemporary site) thread _ :=
        hdraft.renamed isTemporary_temporary not_isTemporary_name ⟨rfl, hdocument⟩
      have hnode : (v.state.files.renamed site.temporary site.name).directory.node site.name =
          .file inode := (Directory.rename_node_self _).trans hdraft.node
      have hmissing : (v.state.files.renamed site.temporary site.name).directory.node site.temporary =
          .missing := Directory.rename_node_source name_ne_temporary.symm
      have hmoves : Moves site calls thread v (v.after
          { v.state with files := v.state.files.renamed site.temporary site.name }
          ⟨thread, .replace, .ok ()⟩) :=
        ⟨⟨_, rfl, rfl⟩, hfiles, settling_renamed isTemporary_temporary not_isTemporary_name,
          fun _ _ h => h⟩
      refine ⟨⟨hinv.step hmoves ?_ (Or.inr ⟨inode, hnode⟩) (Or.inl hmissing)
        fun hlocked _ _ _ _ => hholds hlocked, hmoves⟩, ?_, nofun⟩
      · rw [content_of_file hnode]
        show some (v.state.files.directory.bytes inode) = (calls thread).document?.or _
        rw [hdraft.bytes, hdocument]
        rfl
      · rintro value -
        exact ⟨⟨⟨hactive.after, hcleared⟩, List.mem_append_right _ List.mem_cons_self⟩, hholds⟩

theorem writeJson_does {document : List UInt8} (hdocument : (calls thread).document? = some document) :
    Does site locked calls initial thread
      (fun v => Clear site thread v ∧ Holds locked thread v) (writeJson site document)
      (fun _ v => Written site thread v ∧ Holds locked thread v) (FailedHolding locked thread) := by
  refine (writeText_does document).bind fun _ => ?_
  rintro v ⟨⟨inode, hdraft⟩, hholds⟩
  exact chmod_does.bind (fun _ => replace_does hdocument) v ⟨hdraft, hholds⟩

/-! ## The lock -/

theorem acquire_does :
    Does site locked calls initial thread (Clear site thread) (get .acquire)
      (fun _ v => Clear site thread v ∧ Holds locked thread v) (Over thread) := by
  refine get_does kept_clear (fun _ => kept_clear.and kept_holds) kept_over ?_
  rintro v choice reply world - hinv hclear hexec
  cases choice with
  | moved => cases hexec
  | fault =>
    cases hexec
    refine ⟨hinv.look rfl rfl (fun _ _ h => h) fun hlocked inode hnode hholder hactive =>
      hinv.mutex hlocked inode thread hnode hholder (Active.before rfl hactive), nofun, ?_⟩
    rintro error h
    cases h
    exact over_after nofun
  | works =>
    simp only [exec] at hexec
    split at hexec
    · rename_i hfree
      cases hexec
      refine ⟨hinv.look rfl rfl ?_ fun _ _ _ _ _ => rfl, fun _ _ => ⟨⟨hclear.1.after nofun, hclear.2⟩,
        fun _ => rfl⟩, nofun⟩
      intro other _ hlock
      rw [hfree] at hlock
      cases hlock
    · cases hexec

/-- A call that is not writing gives the lock back. -/
theorem release_does {e : Error → Moment → Prop} (hp : Kept site calls thread p)
    (he : ∀ error, Kept site calls thread (e error))
    (hidle : ∀ v, p v → Cleared (IsTemporary site) thread v.state.files ∨ ¬Active v thread)
    (hok : ∀ v world, world.files = v.state.files → p v →
      p (v.after world ⟨thread, .release, .ok ()⟩)) :
    Does site true calls initial thread (fun v => p v ∧ Holds true thread v) (get .release)
      (fun _ => p) e := by
  refine get_does (hp.and kept_holds) (fun _ => hp) he ?_
  rintro v choice reply world - hinv ⟨hv, hholds⟩ hexec
  cases choice with
  | moved => cases hexec
  | fault => cases hexec
  | works =>
    cases hexec
    refine ⟨hinv.look rfl rfl ?_ ?_, fun _ _ => hok v _ rfl hv, nofun⟩
    · intro other hne hlock
      rw [hholds rfl] at hlock
      exact absurd (Option.some.inj hlock).symm hne
    · intro _ inode hnode hholder hactive
      rcases hidle v hv with hcleared | hinactive
      · exact absurd rfl (hcleared site.temporary inode hnode hholder)
      · exact absurd (Active.before rfl hactive) hinactive

theorem writing_does {document : List UInt8} (hdocument : (calls thread).document? = some document) :
    Does site locked calls initial thread (Clear site thread) (writing site locked document)
      (fun _ => Written site thread) (Over thread) := by
  cases locked with
  | false =>
    exact (writeJson_does hdocument).weaken (fun v hv => ⟨hv, fun h => by cases h⟩)
      (fun _ _ h => h.1) fun _ _ h => h.1
  | true =>
    refine acquire_does.bind fun _ => ?_
    refine Contract.Spec.ensuring (writeJson_does hdocument) (fun _ => ?_) fun error => ?_
    · refine release_does kept_written kept_over (fun v hv => Or.inl hv.1.2) fun v world hfiles hv => ?_
      refine ⟨⟨hv.1.1.after, ?_⟩, List.mem_append_left _ hv.2⟩
      show Cleared _ _ world.files
      rw [hfiles]
      exact hv.1.2
    · exact release_does (kept_over error) kept_over (fun v hv => Or.inr hv.2)
        fun v world _ hv => hv.after

end

/-! ## Reading -/

/-- The reader has enough pieces for what the path can hold. -/
structure Bounded (calls : Nat → Call) (initial : Option (List UInt8)) (fuel : Nat) : Prop where
  initial : ∀ value, initial = some value → value.length < fuel
  documents : ∀ i value, (calls i).document? = some value → value.length < fuel

theorem Bounded.current {fuel : Nat} (h : Bounded calls initial fuel) (trace : List (Event Action.Reply)) :
    ∀ value, current calls initial trace = some value → value.length < fuel := by
  induction trace using List.reverseRecOn with
  | nil => exact h.initial
  | append_singleton trace e ih =>
    intro value hvalue
    rw [current_append, Option.or_eq_some_iff] at hvalue
    rcases hvalue with hrenamed | ⟨-, hbefore⟩
    · unfold renamed? at hrenamed
      split at hrenamed
      · exact h.documents _ value hrenamed
      · cases hrenamed
    · exact ih value hbefore

/-- The error of reading bytes: a fault, or the path did not exist. -/
def ReadFailed (calls : Nat → Call) (initial : Option (List UInt8)) (thread : Nat) (error : Error)
    (v : Moment) : Prop :=
  Failed thread error v ∨ error = .os .noEntry ∧ Opened calls initial thread none v.trace

theorem kept_readFailed (error : Error) :
    Kept site calls thread (ReadFailed calls initial thread error) := by
  intro other v v' hne hmoves h
  rcases h with hfailed | ⟨herror, hopened⟩
  · exact Or.inl (kept_failed error other v v' hne hmoves hfailed)
  · exact Or.inr ⟨herror, kept_opened other v v' hne hmoves hopened⟩

/-- The reader has a file with what the path held when it was opened. -/
def Holding (site : Site) (calls : Nat → Call) (initial : Option (List UInt8)) (thread inode : Nat)
    (data : List UInt8) (v : Moment) : Prop :=
  Reading site inode data v ∧ Opened calls initial thread (some data) v.trace

theorem kept_holding {inode : Nat} {data : List UInt8} :
    Kept site calls thread (Holding site calls initial thread inode data) :=
  kept_reading.and kept_opened

theorem openPath_does {fuel : Nat} (hbounded : Bounded calls initial fuel) :
    Does site locked calls initial thread (fun _ => True) (get .openPath)
      (fun inode v => ∃ data, Holding site calls initial thread inode data v ∧ data.length < fuel)
      (ReadFailed calls initial thread) := by
  refine look_does (a := .openPath) (fun _ _ _ _ _ _ => trivial) (fun inode => ?_) kept_readFailed
    (fun _ => rfl) fun v choice reply world hinv _ hexec => ?_
  · rintro other v v' hne hmoves ⟨data, hholding, hlength⟩
    exact ⟨data, kept_holding other v v' hne hmoves hholding, hlength⟩
  · have hopened : ∀ value, content v.state.files site.name = value →
        Opened calls initial thread value (v.trace ++ [⟨thread, .openPath, reply⟩]) := by
      intro value hvalue
      exact ⟨v.trace, [], reply, rfl, hinv.register.symm.trans hvalue⟩
    cases choice with
    | moved => cases hexec
    | fault =>
      cases hexec
      refine ⟨rfl, fun _ h => (by cases h), ?_⟩
      rintro error h
      cases h
      exact Or.inl failed_after
    | works =>
      have hopen : some (openForReading v.state.files site.name, v.state) = some (reply, world) := hexec
      rcases hinv.path with hmissing | ⟨inode, hnode⟩
      · have hnone : content v.state.files site.name = none := by rw [content, hmissing]
        unfold openForReading at hopen
        rw [hmissing] at hopen
        cases hopen
        refine ⟨rfl, fun _ h => (by cases h), ?_⟩
        rintro error h
        cases h
        exact Or.inr ⟨rfl, hopened none hnone⟩
      · have hsome := content_of_file hnode
        unfold openForReading at hopen
        rw [hnode] at hopen
        cases hopen
        refine ⟨rfl, ?_, fun _ h => (by cases h)⟩
        rintro value h
        cases h
        exact ⟨_, ⟨⟨settled_of_node hnode not_isTemporary_name, rfl⟩, hopened _ hsome⟩,
          hbounded.current v.trace _ (hinv.register.symm.trans hsome)⟩

section

variable {inode : Nat} {data : List UInt8}

theorem read_does (offset : Nat) :
    Does site locked calls initial thread (Holding site calls initial thread inode data)
      (get (.read inode offset))
      (fun piece v => (∃ count, isPiece (data.drop offset) count = true ∧
        piece = (data.drop offset).take count) ∧ Holding site calls initial thread inode data v)
      (ReadFailed calls initial thread) := by
  refine look_does (a := .read inode offset) kept_holding (fun _ => kept_holding.fact _) kept_readFailed
    (fun _ => rfl) fun v choice reply world _ hv hexec => ?_
  cases choice with
  | works => cases hexec
  | fault =>
    cases hexec
    refine ⟨rfl, nofun, ?_⟩
    rintro error h
    cases h
    exact Or.inl failed_after
  | moved count =>
    simp only [exec] at hexec
    split at hexec
    · rename_i hpiece
      rw [hv.1.2] at hpiece
      cases hexec
      refine ⟨rfl, ?_, nofun⟩
      rintro value h
      cases h
      exact ⟨⟨count, hpiece, by rw [hv.1.2]⟩, hv.1, hv.2.append⟩
    · cases hexec

/-- The induction is on the pieces that are left; only the last one is empty. -/
theorem readAll_does {fuel : Nat} {read : List UInt8} (hread : read <+: data)
    (hfuel : data.length < fuel + read.length) :
    Does site locked calls initial thread (Holding site calls initial thread inode data)
      (readAll inode fuel read)
      (fun result v => result = data ∧ Holding site calls initial thread inode data v)
      (ReadFailed calls initial thread) := by
  induction fuel generalizing read with
  | zero =>
    have hlength := hread.length_le
    omega
  | succ fuel ih =>
    refine (read_does read.length).bind fun (piece : List UInt8) v hv => ?_
    obtain ⟨⟨count, hpiece, rfl⟩, hholding⟩ := hv
    obtain ⟨rest, rfl⟩ := hread
    rw [List.drop_left] at hpiece ⊢
    simp only [isPiece, Bool.and_eq_true, Bool.or_eq_true, decide_eq_true_eq] at hpiece
    cases htake : rest.take count with
    | nil =>
      -- the end of the file
      have hrest : rest = [] := by
        rcases List.take_eq_nil_iff.mp htake with hzero | hnil
        · simpa [hzero] using hpiece.2
        · exact hnil
      rw [hrest, List.append_nil] at hholding ⊢
      exact Contract.Spec.ret kept_holding.stable (fun _ h => ⟨rfl, h⟩) v hholding
    | cons byte piece =>
      have hlength : (rest.take count).length = piece.length + 1 := by rw [htake, List.length_cons]
      refine ih ?_ ?_ v hholding
      · rw [← htake, List.prefix_append_right_inj]
        exact List.take_prefix count rest
      · have hpositive : 0 < (byte :: piece).length := Nat.succ_pos _
        have hread : (read ++ byte :: piece).length = read.length + (byte :: piece).length :=
          List.length_append
        omega

/-- The reader closes the file. -/
theorem close_does {e : Error → Moment → Prop} (hp : Kept site calls thread p)
    (he : ∀ error, Kept site calls thread (e error))
    (hok : ∀ v, p v → p (v.after v.state ⟨thread, .close inode, .ok ()⟩))
    (hfault : ∀ v, p v → e (.os .fault) (v.after v.state ⟨thread, .close inode, .error .fault⟩)) :
    Does site locked calls initial thread p (get (.close inode)) (fun _ => p) e := by
  refine look_does (a := .close inode) hp (fun _ => hp) he (fun _ => rfl)
    fun v choice reply world _ hv hexec => ?_
  cases choice with
  | moved => cases hexec
  | works =>
    cases hexec
    exact ⟨rfl, fun _ _ => hok v hv, nofun⟩
  | fault =>
    cases hexec
    refine ⟨rfl, nofun, ?_⟩
    rintro error h
    cases h
    exact hfault v hv

theorem readBytes_does {fuel : Nat} (hbounded : Bounded calls initial fuel) :
    Does site locked calls initial thread (fun _ => True) (readBytes fuel)
      (fun result v => Opened calls initial thread (some result) v.trace)
      (ReadFailed calls initial thread) := by
  refine (openPath_does hbounded).bind fun (inode : Nat) => ?_
  rintro v ⟨data, hholding, hlength⟩
  have hreads : Does site locked calls initial thread (Holding site calls initial thread inode data)
      (readAll inode fuel []) _ _ := readAll_does List.nil_prefix (by simpa using hlength)
  refine Contract.Spec.ensuring hreads (fun result => ?_) (fun error => ?_) v hholding
  · refine (close_does (kept_holding.fact (result = data)) kept_readFailed
      (fun v hv => ⟨hv.1, hv.2.1, hv.2.2.append⟩) fun _ _ => Or.inl failed_after).weaken
      (fun _ h => h) (fun _ v hv => ?_) fun _ _ h => h
    rw [hv.1]
    exact hv.2.2
  · refine close_does (kept_readFailed error) kept_readFailed (fun v hv => ?_)
      fun _ _ => Or.inl failed_after
    rcases hv with hfailed | ⟨herror, hopened⟩
    · exact Or.inl hfailed.after
    · exact Or.inr ⟨herror, hopened.append⟩

end

variable {interpreter : Interpreter}

/-- The error of a reader; what the path held when it was opened can be no JSON text. -/
def LoadFailed (interpreter : Interpreter) (calls : Nat → Call) (initial : Option (List UInt8))
    (thread : Nat) (error : Error) (v : Moment) : Prop :=
  ReadFailed calls initial thread error v ∨
    ∃ data failure, (error = .json failure ∧ parse interpreter data = .error failure) ∧
      Opened calls initial thread (some data) v.trace

theorem kept_loadFailed (error : Error) :
    Kept site calls thread (LoadFailed interpreter calls initial thread error) := by
  intro other v v' hne hmoves h
  rcases h with hread | ⟨data, failure, hparse, hopened⟩
  · exact Or.inl (kept_readFailed error other v v' hne hmoves hread)
  · exact Or.inr ⟨data, failure, hparse, kept_opened other v v' hne hmoves hopened⟩

/-- The reader has got the value of what the path held when it was opened. -/
def Loaded (interpreter : Interpreter) (calls : Nat → Call) (initial : Option (List UInt8)) (thread : Nat)
    (value : Value) (v : Moment) : Prop :=
  ∃ data, parse interpreter data = .ok value ∧ Opened calls initial thread (some data) v.trace

theorem kept_loaded (value : Value) :
    Kept site calls thread (Loaded interpreter calls initial thread value) := by
  rintro other v v' hne hmoves ⟨data, hparse, hopened⟩
  exact ⟨data, hparse, kept_opened other v v' hne hmoves hopened⟩

theorem loadPath_does (hbounded : Bounded calls initial interpreter.pieces) :
    Does site locked calls initial thread (fun _ => True) (loadPath interpreter)
      (Loaded interpreter calls initial thread) (LoadFailed interpreter calls initial thread) := by
  refine ((readBytes_does hbounded).weaken (fun _ h => h) (fun _ _ h => h) fun _ _ => Or.inl).bind
    fun data => ?_
  cases hparse : parse interpreter data with
  | ok value => exact .ret kept_opened.stable fun v hv => ⟨data, hparse, hv⟩
  | error failure =>
    exact .fail kept_opened.stable fun v hv => Or.inr ⟨data, failure, ⟨rfl, hparse⟩, hv⟩

theorem readJson_does (hbounded : Bounded calls initial interpreter.pieces) :
    Does site locked calls initial thread (fun _ => True) (readJson interpreter)
      (Loaded interpreter calls initial thread)
      fun error v => ∃ cause, error = .cannotRead cause ∧
        LoadFailed interpreter calls initial thread cause v :=
  (loadPath_does hbounded).handling fun cause =>
    .fail (kept_loadFailed cause).stable fun _ hv => ⟨cause, rfl, hv⟩

/-! ## All calls -/

/-- A call has returned: its document has been renamed, or it has read what the path held when it was
opened. -/
def Returned (interpreter : Interpreter) (calls : Nat → Call) (initial : Option (List UInt8))
    (thread : Nat) (result : Option Value) (v : Moment) : Prop :=
  match calls thread with
  | .write _ => Renamed thread v.trace
  | .read => ∃ value, result = some value ∧ Loaded interpreter calls initial thread value v

/-- A call has raised: after a fault, or because there was no JSON text to read. -/
def Raised (interpreter : Interpreter) (calls : Nat → Call) (initial : Option (List UInt8))
    (thread : Nat) (error : Error) (v : Moment) : Prop :=
  match calls thread with
  | .write _ => Failed thread error v
  | .read => ∃ cause, error = .cannotRead cause ∧ LoadFailed interpreter calls initial thread cause v

theorem program_does (hbounded : Bounded calls initial interpreter.pieces) :
    Does site locked calls initial thread (Clear site thread)
      ((calls thread).program site locked interpreter)
      (Returned interpreter calls initial thread) (Raised interpreter calls initial thread) := by
  cases hcall : calls thread with
  | write document =>
    have hdocument : (calls thread).document? = some document := by
      rw [hcall]
      rfl
    refine Contract.Spec.weaken (Contract.Spec.bind (writing_does hdocument) fun _ =>
      .ret (Q := fun _ => Written site thread) kept_written.stable fun _ h => h) (fun _ h => h)
      (fun _ v hv => ?_) fun _ v hv => ?_
    · rw [Returned, hcall]
      exact hv.2
    · rw [Raised, hcall]
      exact hv.1
  | read =>
    refine Contract.Spec.weaken (Contract.Spec.bind (readJson_does hbounded) fun value =>
      .ret (Q := fun result v => ∃ value, result = some value ∧
        Loaded interpreter calls initial thread value v) (kept_loaded value).stable
        fun _ h => ⟨value, rfl, h⟩) (fun _ _ => trivial) (fun _ v hv => ?_) fun _ v hv => ?_
    · rw [Returned, hcall]
      exact hv
    · rw [Raised, hcall]
      exact hv

end

/-- The path is an atomic register for calls that hold the lock, and for those of which none opens the
temporary file while another one goes on that has it. -/
theorem documents_atomic (site : Site) (locked : Bool) (interpreter : Interpreter) (calls : Nat → Call)
    (directory : Directory Str) (c : Config Action.Reply World Error (Option Value))
    (hpath : IsPlain (directory.node site.name)) (htemporary : IsPlain (directory.node site.temporary))
    (hbounded : Bounded calls (content (.unopened directory) site.name) interpreter.pieces)
    (hrun : (machine site).Reaches (apart site locked)
      (pool site locked interpreter calls directory) c) :
    let initial := content (.unopened directory) site.name
    content c.state.files site.name = current calls initial c.trace ∧
    (∀ i result, c.programs i = .ret result → Returned interpreter calls initial i result c.view) ∧
    ∀ i error, c.programs i = .fail error → Raised interpreter calls initial i error c.view := by
  intro initial
  have hstart : Contract.PoolSafe (contract site locked calls initial) (machine site) (apart site locked)
      (Returned interpreter calls initial) (Raised interpreter calls initial)
      (pool site locked interpreter calls directory) := by
    refine ⟨⟨rfl, hpath, htemporary, fun _ _ _ _ h => by cases h⟩, fun i => ?_⟩
    exact program_does hbounded _
      ⟨⟨List.forall_mem_nil _, List.forall_mem_nil _⟩, fun _ _ _ h => by cases h⟩
  have hc := Contract.sound hstart hrun
  exact ⟨hc.1.register, fun i result hret => hc.post hret, fun i error hfail => hc.post_fail hfail⟩

/-! ## Examples -/

theorem missing_ne_file {inode : Nat} {p : Prop} (h : Node.missing = .file inode) : p := by cases h

theorem newDirectory_created (_ : Str) (inode : Nat) : Node.missing = .file inode → inode < 0 :=
  missing_ne_file

theorem newDirectory_single (name name' : Str) (inode : Nat) :
    Node.missing = .file inode → Node.missing = .file inode → name = name' :=
  missing_ne_file

def newDirectory : Directory Str where
  node _ := .missing
  bytes _ := []
  next := 0
  created := newDirectory_created
  single := newDirectory_single

def exampleSite : Site := ⟨str "state.json", 7, 4096⟩

def exampleInterpreter : Interpreter := ⟨Json.exactDecimals, 100, 4⟩

/-- Two writers and a reader. -/
def exampleCalls : Nat → Call
  | 0 => .write [55, 10]
  | 1 => .write [52, 50, 10]
  | _ => .read

def examplePool (locked : Bool) : Config Action.Reply World Error (Option Value) :=
  pool exampleSite locked exampleInterpreter exampleCalls newDirectory

theorem exampleCalls_bounded : Bounded exampleCalls (content (.unopened newDirectory) exampleSite.name) 4 := by
  refine ⟨fun value h => (by cases h), fun i value h => ?_⟩
  unfold exampleCalls at h
  split at h <;> cases h <;> decide

def integer? : Option (Option Value) → Option Int
  | some (some (.int n)) => some n
  | _ => none

theorem eq_of_integer {result : Option (Option Value)} {n : Int} (h : integer? result = some n) :
    result = some (some (.int n)) := by
  unfold integer? at h
  split at h
  · cases h
    rfl
  · cases h

/-- The reader gets the first document, although the second one is renamed while it reads. -/
theorem documents_atomic_example :
    ∃ c, (machine exampleSite).Reaches (apart exampleSite true) (examplePool true) c ∧
      c.programs 2 = .ret (some (.int 7)) ∧
      Loaded exampleInterpreter exampleCalls none 2 (.int 7) c.view ∧
      content c.state.files exampleSite.name = some [52, 50, 10] := by
  have hrun : ((machine exampleSite).run (fun _ _ _ _ => true) (examplePool true)
      ([(0, .works), (0, .works), (0, .moved 1), (0, .moved 1)] ++ List.replicate 4 (0, .works) ++
        [(2, .works), (2, .moved 1), (1, .works), (1, .works), (1, .moved 3)] ++
        List.replicate 4 (1, .works) ++ [(2, .moved 1), (2, .moved 0), (2, .works)])).map (fun c =>
          (integer? (c.programs 2).value?, content c.state.files exampleSite.name)) =
      some (some 7, some [52, 50, 10]) := by decide +kernel
  have hguard : ∀ (v : Moment) (i : Nat) (action : Action) (choice : Choice), true = true →
      apart exampleSite true v i action choice := fun _ _ _ _ _ h => by cases h
  obtain ⟨c, hreaches, hends⟩ := Machine.exists_of_guarded_run hguard hrun
  simp only [Prod.mk.injEq] at hends
  have hret : c.programs 2 = .ret (some (.int 7)) :=
    Program.value?_eq_some_iff.mp (eq_of_integer hends.1)
  obtain ⟨-, hreturned, -⟩ := documents_atomic exampleSite true exampleInterpreter exampleCalls
    newDirectory c (Or.inl rfl) (Or.inl rfl) exampleCalls_bounded hreaches
  obtain ⟨value, hvalue, hloaded⟩ : ∃ value, some (Value.int 7) = some value ∧
      Loaded exampleInterpreter exampleCalls none 2 value c.view := hreturned 2 _ hret
  cases hvalue
  exact ⟨c, hreaches, hret, hloaded, hends.2⟩

/-- Two calls that write at the same time. The path gets the beginning of a document that is still
being written, and the call that writes it fails. -/
theorem overlapping_calls :
    ∃ c c', (machine exampleSite).Reaches (fun _ _ _ _ => True) (examplePool false) c ∧
      (machine exampleSite).Reaches (fun _ _ _ _ => True) c c' ∧
      content c.state.files exampleSite.name = some [52] ∧
      (∃ result, c'.programs 0 = .ret result) ∧ c'.programs 1 = .fail (.os .noEntry) := by
  have hrun : ((machine exampleSite).run (fun _ _ _ _ => true) (examplePool false)
      [(0, .works), (0, .moved 2), (0, .works), (0, .works), (1, .works), (1, .moved 1),
        (0, .works)]).bind (fun c => ((machine exampleSite).run (fun _ _ _ _ => true) (id c)
          [(1, .moved 2), (1, .works), (1, .works)]).map fun c' =>
            (content c.state.files exampleSite.name, (c'.programs 0).value?.isSome,
              (c'.programs 1).error?)) =
      some (some [52], true, some (.os .noEntry)) := by decide +kernel
  obtain ⟨c, c', hreaches, hreaches', hends⟩ := Machine.exists_of_two_runs
    (fun _ _ _ _ _ => trivial) (fun _ _ _ _ _ => trivial) id hrun
  simp only [Prod.mk.injEq, Option.isSome_iff_exists, Program.value?_eq_some_iff,
    Program.error?_eq_some_iff] at hends
  exact ⟨c, c', hreaches, hreaches', hends⟩

/-- The first call cannot write, and goes on writing while it closes its file. The second call has made
this file the document meanwhile. -/
theorem failed_writer_goes_on :
    ∃ c, (machine exampleSite).Reaches (fun _ _ _ _ => True) (examplePool false) c ∧
      (∃ result, c.programs 1 = .ret result) ∧
      content c.state.files exampleSite.name = some [55, 10, 10] := by
  have hrun : ((machine exampleSite).run (fun _ _ _ _ => true) (examplePool false)
      ([(0, .works), (0, .fault), (1, .works), (1, .moved 3)] ++ List.replicate 3 (1, .works) ++
        [(0, .moved 2)])).map (fun c =>
          ((c.programs 1).value?.isSome, content c.state.files exampleSite.name)) =
      some (true, some [55, 10, 10]) := by decide +kernel
  obtain ⟨c, hreaches, hends⟩ := Machine.exists_of_run hrun
  simp only [Prod.mk.injEq, Option.isSome_iff_exists, Program.value?_eq_some_iff] at hends
  exact ⟨c, hreaches, hends⟩

end AgentDev.Documents
