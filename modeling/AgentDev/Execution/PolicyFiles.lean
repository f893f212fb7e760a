import AgentDev.Execution.Plan
import AgentDev.Files.Buffered
import AgentDev.Interleaving.RelyGuarantee
import AgentDev.Python.Utf8

/-!
# Generated policy files

`materialize_generated_policy_files` of `broker/daemon.py` writes the policy that a run is given to
a directory that all runs of a task with one provider share, without a lock. The file of an item is
called after a digest of its target and its content: it is written under a temporary name, renamed,
and its path becomes the source of a mount.

Calls may interleave as they like, and every step may fail. `generated_policies_materialized`: the
source of every mount that a call has returned contains the item, now and later, and a call that has
raised has left no file of its own that is not the complete file of an item, except the one temporary
file that it could not remove. `temporary_file_left` is a run in which it could not.
-/

namespace AgentDev.PolicyFiles

open Interleaving Files Python Agents Execution

/-! ## The items -/

/-- A plain file name. -/
def isFileName (name : Str) : Bool :=
  name ≠ [] && slash ∉ name && 0 ∉ name && name ∉ [str ".", str ".."]

structure Item extends GeneratedPolicyFileSpec where
  plain : isFileName name = true

/-- `(item.target + "\x00" + item.content).encode("utf-8")` -/
def hashed (item : Item) : Option (List UInt8) := encodeUtf8 (item.target ++ 0 :: item.content)

/-- A digest of SHA-256 in hexadecimal. -/
def IsHexDigest (digest : Str) : Prop :=
  digest.length = 64 ∧ ∀ c ∈ digest, c ∈ str "0123456789abcdef"

/-- The name of the file of an item, under `provider_root`. -/
def destination (sha256 : List UInt8 → Str) (item : Item) : Option Str :=
  (hashed item).map fun bytes => sha256 bytes ++ str "-" ++ item.name

/-! ## The directory -/

/-- The two directories that are made on the way: `.run-policy`, and the one of the provider. -/
inductive Root
  | policy
  | provider
  deriving DecidableEq

inductive Location
  | tasksRoot
  | root (root : Root)
  | entry (name : Str)
  deriving DecidableEq

/-- The resolved directory of the task metadata, the provider, and the size of the buffer of a file. -/
structure Site where
  tasksRoot : Str
  provider : Str
  bufferSize : Nat

def Site.rootPath (site : Site) : Root → Str
  | .policy => site.tasksRoot ++ str "/.run-policy"
  | .provider => site.tasksRoot ++ str "/.run-policy/" ++ site.provider

def Site.path (site : Site) : Location → Str
  | .tasksRoot => site.tasksRoot
  | .root root => site.rootPath root
  | .entry name => site.rootPath .provider ++ str "/" ++ name

/-- What stands at the two roots, and the files of the provider's directory. -/
structure World where
  roots : Root → Node
  files : SharedDirectory Str

def World.node (world : World) : Location → Node
  | .tasksRoot => .directory
  | .root root => world.roots root
  | .entry name => world.files.directory.node name

/-! ## The steps -/

inductive Kind
  | directory
  | regularFile
  deriving DecidableEq

def Kind.holds : Kind → Node → Bool
  | .directory, .directory => true
  | .regularFile, .file _ => true
  | _, _ => false

inductive Action
  /-- `path.mkdir(mode=0o700, exist_ok=True)` -/
  | mkdir (root : Root)
  | isSymlink (place : Location)
  /-- `path.resolve(strict=True)` -/
  | resolve (place : Location)
  /-- `resolved.is_dir()` and `resolved.is_file()` -/
  | isKind (kind : Kind) (place : Location)
  /-- `tempfile.mkstemp(prefix=..., dir=provider_root)` -/
  | mkstemp (start : Str)
  | fdopen (inode : Nat)
  /-- One `write` of the buffered text. -/
  | write (inode offset : Nat) (data : List UInt8)
  | fsync (inode : Nat)
  | close (inode : Nat)
  | chmod (name : Str)
  | replace (source target : Str)
  | unlink (name : Str)

abbrev Action.Result : Action → Type
  | .isSymlink _ | .isKind _ _ => Bool
  | .resolve _ => Str
  | .mkstemp _ => Nat × Str
  | .write _ _ _ => Nat
  | _ => Unit

abbrev Action.Reply (action : Action) : Type := Except OsError action.Result

/-- How a step goes on: as its precondition says, with a name that `mkstemp` has drawn, with the
number of bytes that could be written, or with an error of the system. -/
inductive Choice
  | works
  | drawn (suffix : Str)
  | written (count : Nat)
  | fault
  deriving DecidableEq

/-- The eight characters that `mkstemp` draws. -/
def isSuffix (suffix : Str) : Bool :=
  suffix.length = 8 && suffix.all (· ∈ str "abcdefghijklmnopqrstuvwxyz0123456789_")

/-- A directory that is there stays one; where a link leads is outside of the model, and
`exist_ok` accepts a directory there. -/
def makeDirectory (world : World) (root : Root) : Except OsError Unit × World :=
  match world.roots root with
  | .missing => (.ok (), { world with roots := Function.update world.roots root .directory })
  | .file _ => (.error .occupied, world)
  | .directory | .link => (.ok (), world)

/-- A path without links is the place itself. No step makes a link, so none is found after
`is_symlink` has found none. -/
def resolvePlace (site : Site) (world : World) (place : Location) : Except OsError Str :=
  match world.node place with
  | .missing => .error .noEntry
  | .link => .error .fault
  | .file _ | .directory => .ok (site.path place)

def perform (site : Site) (world : World) : (action : Action) → Option (action.Reply × World)
  | .mkdir root => some (makeDirectory world root)
  | .isSymlink place => some (.ok (world.node place = .link), world)
  | .resolve place => some (resolvePlace site world place, world)
  | .isKind kind place => some (.ok (kind.holds (world.node place)), world)
  | .mkstemp _ | .write _ _ _ => none
  | .fdopen _ | .fsync _ | .close _ => some (.ok (), world)
  | .chmod name => some (world.files.chmod name, world)
  | .replace source target =>
    let (reply, files) := world.files.rename source target
    some (reply, { world with files := files })
  | .unlink name =>
    let (reply, files) := world.files.unlink name
    some (reply, { world with files := files })

/-- `mkstemp` goes on drawing until the name is free. -/
def draw (thread : Nat) (world : World) (name : Str) : Option (Except OsError (Nat × Str) × World) :=
  match world.files.create thread name with
  | (.ok inode, files) => some (.ok (inode, name), { world with files := files })
  | (.error _, _) => none

def exec (site : Site) (thread : Nat) :
    (action : Action) → Choice → World → Option (action.Reply × World)
  | .mkstemp start, .drawn suffix, world =>
    if isSuffix suffix then draw thread world (start ++ suffix) else none
  | .write inode offset data, .written count, world =>
    if 0 < count && count ≤ data.length then
      some (.ok count, { world with files := world.files.write inode offset (data.take count) })
    else none
  | action, .works, world => perform site world action
  | _, .fault, world => some (.error .fault, world)
  | _, _, _ => none

def machine (site : Site) : Machine Action.Reply World Choice where
  exec := exec site

/-! ## The program -/

inductive Error
  | os (error : OsError)
  | unicode
  | policy (error : Policy.Error)

abbrev Op := Program Action.Reply Error

def get (action : Action) : Op action.Result :=
  (Program.perform action).bind fun reply =>
    match reply with
    | .ok value => .ret value
    | .error error => .fail (.os error)

def lift {α : Type} : Except Policy.Error α → Op α
  | .ok value => .ret value
  | .error error => .fail (.policy error)

def ensure (condition : Bool) (text : Str) : Op Unit := lift (Agents.ensure condition (Policy.valueError text))

/-- `resolved.relative_to(root_resolved)` -/
def isRelativeTo (resolved root : Str) : Bool := (pathParts root).isPrefixOf (pathParts resolved)

def ensureUnder (site : Site) (place root : Location) : Op Str := do
  let resolved ← get (.resolve place)
  let rootResolved ← get (.resolve root)
  ensure (isRelativeTo resolved rootResolved) (str "path escapes allowed root: " ++ site.path place)
  pure resolved

/-- `canonical_dir` and `canonical_file` -/
def canonical (site : Site) (kind : Kind) (noun : Str) (place root : Location) (label : Str) : Op Str := do
  let link ← get (.isSymlink place)
  ensure (!link) (label ++ str " must not be a symlink: " ++ site.path place)
  let resolved ← ensureUnder site place root
  let found ← get (.isKind kind place)
  ensure found (label ++ str " is not a " ++ noun ++ str ": " ++ site.path place)
  pure resolved

def canonicalDir (site : Site) : Location → Location → Str → Op Str :=
  canonical site .directory (str "directory")

def canonicalFile (site : Site) : Location → Location → Str → Op Str :=
  canonical site .regularFile (str "regular file")

/-- The system calls on the open descriptor. -/
def output (inode : Nat) : Output Action.Reply Error where
  write offset data := Program.perform (Action.write inode offset data)
  close := Program.perform (Action.close inode)
  exception := .os

/-- `handle.write(content)` and `handle.flush()` -/
def writeContent (site : Site) (inode : Nat) (content : List UInt8) :
    Op (Except OsError Unit × Buffered) := do
  let (written, handle) ← (output inode).put site.bufferSize content
  match written with
  | .ok () => (output inode).flush handle
  | .error error => pure (.error error, handle)

/-- The `with` block on the open descriptor. -/
def fillTemporary (site : Site) (inode : Nat) (content : List UInt8) : Op Unit := do
  get (.fdopen inode)
  let (written, handle) ← writeContent site inode content
  Program.ensuring (do
    (output inode).raise written
    get (.fsync inode)) ((output inode).closeFile handle)

/-- The `except` block. -/
def discardTemporary {α : Type} (tmpName : Str) (error : Error) : Op α := do
  let reply : Except OsError Unit ← Program.perform (Action.unlink tmpName)
  match reply with
  | .ok () => .fail error
  | .error .noEntry => .fail error
  | .error other => .fail (.os other)

/-- The body of the `try`. -/
def publish (site : Site) (inode : Nat) (tmpName name : Str) (content : List UInt8) : Op Unit := do
  fillTemporary site inode content
  get (.chmod tmpName)
  get (.replace tmpName name)

/-- One round of the loop. -/
def materializeFile (sha256 : List UInt8 → Str) (site : Site) (item : Item) : Op ExecutionMount :=
  match destination sha256 item, encodeUtf8 item.content with
  | some name, some content => do
    let (inode, tmpName) ← get (.mkstemp (str "." ++ item.name ++ str "."))
    (publish site inode tmpName name content).handling (discardTemporary tmpName)
    let source ← canonicalFile site (.entry name) (.root .provider) (str "generated provider policy")
    lift (ExecutionMount.make source item.target item.readOnly .providerPolicy)
  | _, _ => .fail .unicode

def materializeAll (sha256 : List UInt8 → Str) (site : Site) : List Item → Op (List ExecutionMount)
  | [] => pure []
  | item :: rest => do
    let mount ← materializeFile sha256 site item
    let mounts ← materializeAll sha256 site rest
    pure (mount :: mounts)

def materializeGeneratedPolicyFiles (sha256 : List UInt8 → Str) (site : Site) (items : List Item) :
    Op (List ExecutionMount) :=
  if items.isEmpty then pure []
  else do
    get (.mkdir .policy)
    let _ ← canonicalDir site (.root .policy) .tasksRoot (str "generated provider policy root")
    get (.mkdir .provider)
    let _ ← canonicalDir site (.root .provider) (.root .policy)
      (str "generated provider policy directory")
    materializeAll sha256 site items

/-- The calls: call `i` is given the items `items i`. -/
def pool (sha256 : List UInt8 → Str) (site : Site) (items : Nat → List Item) (roots : Root → Node)
    (directory : Directory Str) :
    Interleaving.Config Action.Reply World Error (List ExecutionMount) :=
  ⟨fun i => materializeGeneratedPolicyFiles sha256 site (items i),
    ⟨⟨roots, .unopened directory⟩, []⟩⟩

/-! ## Names -/

section Names

variable {sha256 : List UInt8 → Str} {items : Nat → List Item}

def IsTemporary (name : Str) : Prop := name.head? = some 46

/-- No two items of the calls are hashed to one digest from different bytes. -/
def CollisionFree (sha256 : List UInt8 → Str) (items : Nat → List Item) : Prop :=
  ∀ i j, ∀ a ∈ items i, ∀ b ∈ items j, ∀ bytes bytes', hashed a = some bytes →
    hashed b = some bytes' → sha256 bytes = sha256 bytes' → bytes = bytes'

theorem zero_notMem (item : Item) : 0 ∉ item.target ∧ 0 ∉ item.content := by
  have hchecked := item.checked
  unfold GeneratedPolicyFileSpec.Fields.postInit at hchecked
  obtain ⟨-, -, hchecked⟩ := Policy.bind_ok_iff.mp hchecked
  obtain ⟨-, -, hchecked⟩ := Policy.bind_ok_iff.mp hchecked
  obtain ⟨_, htarget, hcontent⟩ := Policy.bind_ok_iff.mp hchecked
  obtain ⟨_, htext, -⟩ := Policy.bind_ok_iff.mp htarget
  have hvalid := ensure_ok.mp htext
  simp only [validText, Bool.and_eq_true, decide_eq_true_eq] at hvalid
  exact ⟨hvalid.1.2, of_decide_eq_true (ensure_ok.mp hcontent)⟩

/-- The joined text determines the target and the content: neither has a NUL. -/
theorem hashed_inj {a b : Item} {bytes : List UInt8} (ha : hashed a = some bytes)
    (hb : hashed b = some bytes) : a.target = b.target ∧ a.content = b.content := by
  have htext : a.target ++ 0 :: a.content = b.target ++ 0 :: b.content := encodeUtf8_inj ha hb
  obtain ⟨hzero, hzero'⟩ := zero_notMem a
  obtain ⟨htarget, -, hcontent⟩ := (List.append_cons_inj_of_notMem hzero hzero').mp htext
  exact ⟨htarget, hcontent⟩

theorem destination_some {item : Item} {name : Str} (h : destination sha256 item = some name) :
    ∃ bytes, hashed item = some bytes ∧ sha256 bytes ++ str "-" ++ item.name = name :=
  Option.map_eq_some_iff.mp h

variable (hhex : ∀ bytes, IsHexDigest (sha256 bytes))

include hhex

theorem destination_inj (hfree : CollisionFree sha256 items) {i j : Nat} {a b : Item}
    (ha : a ∈ items i) (hb : b ∈ items j) {name : Str} (hna : destination sha256 a = some name)
    (hnb : destination sha256 b = some name) : a.target = b.target ∧ a.content = b.content := by
  obtain ⟨bytes, hbytes, hname⟩ := destination_some hna
  obtain ⟨bytes', hbytes', hname'⟩ := destination_some hnb
  have hlength : (sha256 bytes).length = (sha256 bytes').length :=
    (hhex bytes).1.trans (hhex bytes').1.symm
  have hjoined := hname.trans hname'.symm
  simp only [List.append_assoc] at hjoined
  obtain ⟨hdigest, -⟩ := List.append_inj hjoined hlength
  obtain rfl := hfree i j a ha b hb bytes bytes' hbytes hbytes' hdigest
  exact hashed_inj hbytes hbytes'

/-- A digest does not begin with a dot. -/
theorem not_isTemporary_destination {item : Item} {name : Str}
    (h : destination sha256 item = some name) : ¬IsTemporary name := by
  obtain ⟨bytes, -, rfl⟩ := destination_some h
  obtain ⟨hlength, hdigits⟩ := hhex bytes
  intro htemp
  cases hdigest : sha256 bytes with
  | nil =>
    rw [hdigest] at hlength
    cases hlength
  | cons c rest =>
    rw [hdigest] at htemp
    obtain rfl : c = 46 := Option.some.inj htemp
    have hc := hdigits 46 (by rw [hdigest]; exact List.mem_cons_self)
    exact absurd hc (by decide)

end Names

/-! ## What calls guarantee to each other -/

/-- The content of an item of the call `thread` under its name. -/
def Fits (sha256 : List UInt8 → Str) (items : Nat → List Item) (thread : Nat) (name : Str)
    (bytes : List UInt8) : Prop :=
  ∃ item ∈ items thread, destination sha256 item = some name ∧ encodeUtf8 item.content = some bytes

section Specs

variable (sha256 : List UInt8 → Str) (site : Site) (items : Nat → List Item)

/-- The guarantee of a call: no other call can rely on less. -/
abbrev Moves (thread : Nat) : SharedDirectory Str → SharedDirectory Str → Prop :=
  Files.Orderly IsTemporary (fun _ => True) (Fits sha256 items thread) thread

abbrev Moment := View Action.Reply World

def contract : Contract Action.Reply World where
  inv v := Complete IsTemporary (Fits sha256 items) v.state.files
  guar thread v v' := v.trace <+: v'.trace ∧ Moves sha256 items thread v.state.files v'.state.files

/-- A condition on the files of the provider's directory. -/
def On (p : SharedDirectory Str → Prop) (v : Moment) : Prop := p v.state.files

/-- No other call invalidates `p`. -/
def Kept (thread : Nat) (p : SharedDirectory Str → Prop) : Prop :=
  ∀ other w w', thread ≠ other → Moves sha256 items other w w' → p w → p w'

/-- No call at all invalidates `p`. -/
def Steady (p : SharedDirectory Str → Prop) : Prop :=
  ∀ thread w w', Moves sha256 items thread w w' → p w → p w'

/-- What a program of the call `thread` does to the files, whatever the other calls do. -/
abbrev Does {α : Type} (thread : Nat) (p : SharedDirectory Str → Prop) (body : Op α)
    (q : α → SharedDirectory Str → Prop) (e : Moment → Prop) : Prop :=
  (contract sha256 items).Spec (machine site) (fun _ _ _ _ => True) thread (On p) body
    (fun value => On (q value)) fun _ => e

variable {sha256 site items} {thread : Nat} {p q frame : SharedDirectory Str → Prop}

theorem Steady.kept (hp : Steady sha256 items p) : Kept sha256 items thread p :=
  fun other w w' _ hmoves => hp other w w' hmoves

theorem Kept.and (hp : Kept sha256 items thread p) (hq : Kept sha256 items thread q) :
    Kept sha256 items thread fun w => p w ∧ q w :=
  fun other w w' hne hmoves h => ⟨hp other w w' hne hmoves h.1, hq other w w' hne hmoves h.2⟩

theorem Steady.and (hp : Steady sha256 items p) (hq : Steady sha256 items q) :
    Steady sha256 items fun w => p w ∧ q w :=
  fun other w w' hmoves h => ⟨hp other w w' hmoves h.1, hq other w w' hmoves h.2⟩

theorem Kept.stable (hp : Kept sha256 items thread p) : (contract sha256 items).Stable thread (On p) := by
  rintro v v' ⟨-, -, other, hne, -, hmoves⟩ hv
  exact hp other _ _ hne.symm hmoves hv

theorem Kept.fact (hp : Kept sha256 items thread p) (φ : Prop) :
    Kept sha256 items thread fun w => φ ∧ p w :=
  fun other w w' hne hmoves h => ⟨h.1, hp other w w' hne hmoves h.2⟩

theorem kept_cleared : Kept sha256 items thread (Cleared IsTemporary thread) :=
  fun _ _ _ hne hmoves h => h.orderly hne trivial hmoves

theorem kept_draft {tmpName : Str} {inode : Nat} {data : List UInt8} (htmp : IsTemporary tmpName) :
    Kept sha256 items thread (Draft IsTemporary thread tmpName inode data) :=
  fun _ _ _ hne hmoves h => h.orderly htmp hne trivial hmoves

/-- One step, from what it does to the files. -/
theorem perform_does {a : Action} {post : a.Reply → Moment → Prop} {error : Error → Moment → Prop}
    (hp : Kept sha256 items thread p) (hpost : ∀ reply, (contract sha256 items).Stable thread (post reply))
    (hstep : ∀ choice (v : Moment) reply world, exec site thread a choice v.state = some (reply, world) →
      p v.state.files → Moves sha256 items thread v.state.files world.files ∧
        post reply (v.after world ⟨thread, a, reply⟩)) :
    (contract sha256 items).Spec (machine site) (fun _ _ _ _ => True) thread (On p) (Program.perform a)
      post error := by
  refine .act hp.stable ?_ fun reply => .ret (hpost reply) fun _ hv => hv
  intro v choice reply world _ hinv hv hexec
  obtain ⟨hmoves, hafter⟩ := hstep choice v reply world hexec hv
  exact ⟨Complete.orderly hinv hmoves, ⟨List.prefix_append _ _, hmoves⟩, hafter⟩

theorem get_does {a : Action} {q : a.Result → SharedDirectory Str → Prop}
    {e : SharedDirectory Str → Prop} (hp : Kept sha256 items thread p)
    (hq : ∀ value, Kept sha256 items thread (q value)) (he : Kept sha256 items thread e)
    (hstep : ∀ choice world reply world', exec site thread a choice world = some (reply, world') →
      p world.files → Moves sha256 items thread world.files world'.files ∧
        (∀ value, reply = .ok value → q value world'.files) ∧
        ∀ error, reply = .error error → e world'.files) :
    Does sha256 site items thread p (get a) q (On e) := by
  have hstable : ∀ reply : a.Reply, (contract sha256 items).Stable thread fun v =>
      (∀ value, reply = .ok value → On (q value) v) ∧ ∀ error, reply = .error error → On e v :=
    fun reply => (Contract.Stable.all fun value => .imp fun _ => (hq value).stable).and
      (.all fun _ => .imp fun _ => he.stable)
  refine (perform_does hp hstable fun choice v reply world => hstep choice v.state reply world).bind
    fun reply => ?_
  cases reply with
  | ok value => exact .ret (hstable _) fun v hv => hv.1 value rfl
  | error error => exact .fail (hstable _) fun v hv => hv.2 error rfl

/-! ## The steps of a call -/

/-- The steps that create, fill, rename or remove a file. -/
def touchesFiles : Action → Bool
  | .mkstemp _ | .write _ _ _ | .replace _ _ | .unlink _ => true
  | _ => false

theorem exec_files {action : Action} {choice : Choice} {world world' : World} {reply : action.Reply}
    (h : exec site thread action choice world = some (reply, world'))
    (haction : touchesFiles action = false) : world'.files = world.files := by
  cases choice with
  | works =>
    cases action with
    | mkstemp | write | replace | unlink => cases haction
    | mkdir root =>
      have hperform : some (makeDirectory world root) = some (reply, world') := h
      unfold makeDirectory at hperform
      split at hperform <;> cases hperform <;> rfl
    | isSymlink | resolve | isKind | fdopen | fsync | close | chmod =>
      cases h
      rfl
  | fault =>
    cases action with
    | mkstemp | write | replace | unlink => cases haction
    | mkdir | isSymlink | resolve | isKind | fdopen | fsync | close | chmod =>
      cases h
      rfl
  | drawn suffix =>
    cases action with
    | mkstemp => cases haction
    | _ => cases h
  | written count =>
    cases action with
    | write => cases haction
    | _ => cases h

/-- A step that touches no file. -/
theorem look_does {action : Action} (hp : Kept sha256 items thread p)
    (haction : touchesFiles action = false) :
    Does sha256 site items thread p (get action) (fun _ => p) (On p) := by
  apply get_does hp (fun _ => hp) hp
  intro choice world reply world' hexec hworld
  rw [exec_files hexec haction]
  exact ⟨.refl, fun _ _ => hworld, fun _ _ => hworld⟩

/-- A place that resolves is the place itself. -/
theorem resolve_does (place : Location) (hp : Kept sha256 items thread p) :
    Does sha256 site items thread p (get (.resolve place))
      (fun text w => text = site.path place ∧ p w) (On p) := by
  have hresolved : ∀ text : Str, Kept sha256 items thread fun w => text = site.path place ∧ p w :=
    fun text => hp.fact _
  refine get_does (a := .resolve place) hp hresolved hp ?_
  intro choice world reply world' hexec hworld
  rw [exec_files hexec rfl]
  refine ⟨.refl, ?_, fun _ _ => hworld⟩
  rintro value rfl
  refine ⟨?_, hworld⟩
  cases choice with
  | works =>
    have hperform : some (resolvePlace site world place, world) = some (.ok value, world') := hexec
    unfold resolvePlace at hperform
    split at hperform <;> cases hperform
    · rfl
    · rfl
  | fault => cases hexec
  | drawn | written => cases hexec

theorem lift_does {α : Type} (result : Except Policy.Error α) (hp : Kept sha256 items thread p) :
    Does sha256 site items thread p (lift result) (fun value w => result = .ok value ∧ p w) (On p) := by
  cases result with
  | ok value => exact .ret hp.stable fun _ hv => ⟨rfl, hv⟩
  | error error => exact .fail hp.stable fun _ hv => hv

theorem ensure_does (condition : Bool) (text : Str) (hp : Kept sha256 items thread p) :
    Does sha256 site items thread p (ensure condition text) (fun _ => p) (On p) :=
  (lift_does _ hp).weaken (fun _ h => h) (fun _ _ h => h.2) fun _ _ h => h

theorem ensureUnder_does (place root : Location) (hp : Kept sha256 items thread p) :
    Does sha256 site items thread p (ensureUnder site place root)
      (fun text w => text = site.path place ∧ p w) (On p) := by
  refine (resolve_does place hp).bind fun resolved => ?_
  have hresolved := hp.fact (resolved = site.path place)
  refine ((look_does hresolved rfl).weaken (fun _ h => h) (fun _ _ h => h) fun _ _ h => h.2).bind
    fun rootResolved => ?_
  refine ((ensure_does _ _ hresolved).weaken (fun _ h => h) (fun _ _ h => h) fun _ _ h => h.2).bind
    fun _ => ?_
  exact .ret hresolved.stable fun _ h => h

/-- The canonical path of a place is its path. -/
theorem canonical_does (kind : Kind) (noun : Str) (place root : Location) (label : Str)
    (hp : Kept sha256 items thread p) :
    Does sha256 site items thread p (canonical site kind noun place root label)
      (fun text w => text = site.path place ∧ p w) (On p) := by
  refine (look_does hp rfl).bind fun link => ?_
  refine (ensure_does _ _ hp).bind fun _ => ?_
  refine (ensureUnder_does place root hp).bind fun resolved => ?_
  have hresolved := hp.fact (resolved = site.path place)
  refine ((look_does hresolved rfl).weaken (fun _ h => h) (fun _ _ h => h) fun _ _ h => h.2).bind
    fun found => ?_
  refine ((ensure_does _ _ hresolved).weaken (fun _ h => h) (fun _ _ h => h) fun _ _ h => h.2).bind
    fun _ => ?_
  exact .ret hresolved.stable fun _ h => h

/-! ## The temporary file -/

/-- The call has a draft. -/
def Drafting (thread : Nat) (tmpName : Str) (inode : Nat) (frame : SharedDirectory Str → Prop)
    (w : SharedDirectory Str) : Prop :=
  ∃ data, Draft IsTemporary thread tmpName inode data w ∧ frame w

section

variable {tmpName : Str} {inode : Nat}

theorem kept_drafting (htmp : IsTemporary tmpName) (hframe : Steady sha256 items frame) :
    Kept sha256 items thread (Drafting thread tmpName inode frame) := by
  rintro other w w' hne hmoves ⟨data, hdraft, hw⟩
  exact ⟨data, hdraft.orderly htmp hne trivial hmoves, hframe other w w' hmoves hw⟩

theorem kept_draft_and {data : List UInt8} (htmp : IsTemporary tmpName)
    (hframe : Steady sha256 items frame) :
    Kept sha256 items thread fun w => Draft IsTemporary thread tmpName inode data w ∧ frame w :=
  (kept_draft htmp).and hframe.kept

theorem isTemporary_start (name suffix : Str) :
    IsTemporary (str "." ++ name ++ str "." ++ suffix) := rfl

theorem mkstemp_does (name : Str) (hframe : Steady sha256 items frame) :
    Does sha256 site items thread (fun w => Cleared IsTemporary thread w ∧ frame w)
      (get (.mkstemp (str "." ++ name ++ str ".")))
      (fun made w => IsTemporary made.2 ∧ Draft IsTemporary thread made.2 made.1 [] w ∧ frame w)
      (On (Cleared IsTemporary thread)) := by
  apply get_does (kept_cleared.and hframe.kept) _ kept_cleared
  · intro choice world reply world' hexec hworld
    cases choice with
    | works | written => cases hexec
    | fault =>
      cases hexec
      exact ⟨.refl, nofun, fun _ _ => hworld.1⟩
    | drawn suffix =>
      simp only [exec] at hexec
      split at hexec
      · unfold draw SharedDirectory.create at hexec
        split at hexec
        · rename_i inode files hcreate
          split at hcreate
          · rename_i hmissing
            cases hcreate
            cases hexec
            obtain ⟨hmoves, hdraft⟩ : Moves sha256 items thread world.files _ ∧ _ :=
              created_orderly hmissing (isTemporary_start name suffix) hworld.1
            refine ⟨hmoves, ?_, nofun⟩
            rintro value h
            cases h
            exact ⟨isTemporary_start name suffix, hdraft, hframe thread _ _ hmoves hworld.2⟩
          · cases hcreate
        · cases hexec
      · cases hexec
  · intro made other w w' hne hmoves h
    exact ⟨h.1, h.2.1.orderly h.1 hne trivial hmoves, hframe other w w' hmoves h.2.2⟩

/-- The stages of the draft: it is there until it is renamed or removed. -/
def stages (thread : Nat) (tmpName : Str) (inode : Nat) (frame : SharedDirectory Str → Prop) :
    Stages Action.Reply World where
  working text := On fun w => Draft IsTemporary thread tmpName inode text w ∧ frame w
  broken := On (Drafting thread tmpName inode frame)
  done text := On fun w => Draft IsTemporary thread tmpName inode text w ∧ frame w
  closed := On (Drafting thread tmpName inode frame)
  cause _ := True

/-- One `write` to the draft. -/
theorem exec_write (htmp : IsTemporary tmpName) (hframe : Steady sha256 items frame)
    {offset : Nat} {text data : List UInt8} {choice : Choice} {world world' : World}
    {reply : Except OsError Nat}
    (hexec : exec site thread (.write inode offset data) choice world = some (reply, world'))
    (hdraft : Draft IsTemporary thread tmpName inode text world.files) (hw : frame world.files) :
    Moves sha256 items thread world.files world'.files ∧ frame world'.files ∧
      ((∃ count, (reply = .ok count ∧ 0 < count ∧ count ≤ data.length) ∧
        Draft IsTemporary thread tmpName inode (overwrite text offset (data.take count)) world'.files) ∨
      ∃ error, reply = .error error ∧ Draft IsTemporary thread tmpName inode text world'.files) := by
  cases choice with
  | works | drawn => cases hexec
  | fault =>
    cases hexec
    exact ⟨.refl, hw, Or.inr ⟨_, rfl, hdraft⟩⟩
  | written count =>
    simp only [exec] at hexec
    split at hexec
    · rename_i hcount
      cases hexec
      simp only [Bool.and_eq_true, decide_eq_true_eq] at hcount
      obtain ⟨hmoves, hdraft⟩ : Moves sha256 items thread world.files _ ∧ _ :=
        hdraft.write htmp offset (data.take count)
      exact ⟨hmoves, hframe thread _ _ hmoves hw, Or.inl ⟨count, ⟨rfl, hcount⟩, hdraft⟩⟩
    · cases hexec

/-- The calls on the descriptor lead from one stage to the next. -/
theorem output_obeys (site : Site) (thread inode : Nat) (htmp : IsTemporary tmpName)
    (hframe : Steady sha256 items frame) :
    (stages thread tmpName inode frame).Obeys (contract sha256 items) (machine site) (fun _ _ _ _ => True)
      thread (output inode) fun _ => On (Drafting thread tmpName inode frame) := by
  have hworking : ∀ text, (contract sha256 items).Stable thread
      ((stages thread tmpName inode frame).working text) :=
    fun text => (kept_draft_and htmp hframe).stable
  have hbroken : (contract sha256 items).Stable thread (stages thread tmpName inode frame).broken :=
    (kept_drafting htmp hframe).stable
  refine ⟨hworking, hbroken, hworking, hbroken, ?_, ?_, ?_, ?_, fun _ _ hv => hv.2⟩
  · intro written data
    refine perform_does (a := .write inode written.length data) (kept_draft_and htmp hframe)
      (Stages.wrote_stable hworking hbroken written data) fun choice v reply world hexec hv => ?_
    obtain ⟨hmoves, hw, hwrote⟩ := exec_write htmp hframe hexec hv.1 hv.2
    refine ⟨hmoves, ?_⟩
    rcases hwrote with ⟨count, ⟨rfl, hcount⟩, hdraft⟩ | ⟨error, rfl, hdraft⟩
    · rw [overwrite_length] at hdraft
      exact ⟨hcount, hdraft, hw⟩
    · exact ⟨trivial, written, hdraft, hw⟩
  · intro offset data
    refine perform_does (a := .write inode offset data) (kept_drafting htmp hframe)
      (Stages.again_stable hbroken) ?_
    rintro choice v reply world hexec ⟨text, hdraft, hw⟩
    obtain ⟨hmoves, hw, hwrote⟩ := exec_write htmp hframe hexec hdraft hw
    refine ⟨hmoves, fun _ _ => trivial, ?_⟩
    rcases hwrote with ⟨count, -, hdraft⟩ | ⟨error, -, hdraft⟩
    · exact ⟨_, hdraft, hw⟩
    · exact ⟨text, hdraft, hw⟩
  · intro text
    refine perform_does (a := .close inode) (kept_draft_and htmp hframe)
      (Stages.ended_stable hworking hbroken text) fun choice v reply world hexec hv => ?_
    have hfiles := exec_files hexec rfl
    have hdraft : Draft IsTemporary thread tmpName inode text world.files ∧ frame world.files := by
      rw [hfiles]
      exact hv
    refine ⟨by rw [hfiles]; exact .refl, ?_⟩
    cases (reply : Except OsError Unit) with
    | ok => exact hdraft
    | error error => exact ⟨trivial, text, hdraft⟩
  · refine perform_does (a := .close inode) (kept_drafting htmp hframe) (Stages.again_stable hbroken)
      fun choice v reply world hexec hv => ?_
    have hfiles := exec_files hexec rfl
    refine ⟨by rw [hfiles]; exact .refl, fun _ _ => trivial, ?_⟩
    show Drafting thread tmpName inode frame world.files
    rw [hfiles]
    exact hv

theorem writeContent_does (htmp : IsTemporary tmpName) (hframe : Steady sha256 items frame)
    (content : List UInt8) :
    (contract sha256 items).Spec (machine site) (fun _ _ _ _ => True) thread
      (On fun w => Draft IsTemporary thread tmpName inode [] w ∧ frame w) (writeContent site inode content)
      ((stages thread tmpName inode frame).Outcome 0 content)
      fun _ => On (Drafting thread tmpName inode frame) := by
  have hobeys := output_obeys site thread inode htmp hframe
  refine (hobeys.put_spec site.bufferSize).bind fun result => ?_
  obtain ⟨written, handle⟩ := result
  cases written with
  | ok => exact fun v hv => hobeys.flush_spec v hv.2
  | error error => exact .ret (hobeys.outcome 0 content (.error error, handle)) fun v hv => hv

theorem fillTemporary_does (htmp : IsTemporary tmpName) (hframe : Steady sha256 items frame)
    (content : List UInt8) :
    Does sha256 site items thread (fun w => Draft IsTemporary thread tmpName inode [] w ∧ frame w)
      (fillTemporary site inode content)
      (fun _ w => Draft IsTemporary thread tmpName inode content w ∧ frame w)
      (On (Drafting thread tmpName inode frame)) := by
  have hobeys := output_obeys site thread inode htmp hframe
  have hdrafting : ∀ {data : List UInt8} (v : Moment),
      On (fun w => Draft IsTemporary thread tmpName inode data w ∧ frame w) v →
        On (Drafting thread tmpName inode frame) v := fun v hv => ⟨_, hv⟩
  refine ((look_does (kept_draft_and htmp hframe) rfl).weaken (fun _ h => h) (fun _ _ h => h)
    fun _ => hdrafting).bind fun _ => ?_
  refine (writeContent_does htmp hframe content).bind fun result => ?_
  obtain ⟨written, handle⟩ := result
  cases written with
  | ok =>
    rintro v ⟨hempty, hleft⟩
    have hempty : handle.buffer = [] := List.length_eq_zero_iff.mp (Nat.le_zero.mp hempty)
    obtain ⟨hoffset, hdraft⟩ := (Stages.left_iff hempty v).mp hleft
    refine Contract.Spec.ensuring (F := fun _ => On (Drafting thread tmpName inode frame))
      ((look_does (kept_draft_and htmp hframe) rfl).weaken (fun _ h => h) (fun _ _ h => h)
        fun _ => hdrafting) (fun _ => ?_) (fun _ => hobeys.closeFile_again handle) v hdraft
    exact (hobeys.closeFile_spec handle).weaken
      (fun w hw => (Stages.left_iff hempty w).mpr ⟨hoffset, hw⟩) (fun _ _ h => h) fun _ _ h => h
  | error error =>
    intro v hv
    exact Contract.Spec.ensuring (J := fun _ _ => False) (F := fun _ => On (Drafting thread tmpName inode frame))
      (.fail (kept_drafting htmp hframe).stable fun _ h => h) (fun _ _ h => h.elim)
      (fun _ => hobeys.closeFile_again handle) v hv.2

/-- The call could not remove its temporary file. -/
def LeftBehind (thread : Nat) (tmpName : Str) (v : Moment) : Prop :=
  (⟨thread, .unlink tmpName, .error .fault⟩ : Event Action.Reply) ∈ v.trace ∧
    IsTemporary tmpName ∧ ∃ inode data, Draft IsTemporary thread tmpName inode data v.state.files

/-- What a call that has raised leaves. -/
def Leaves (thread : Nat) (v : Moment) : Prop :=
  On (Cleared IsTemporary thread) v ∨ ∃ tmpName, LeftBehind thread tmpName v

theorem leaves_stable : (contract sha256 items).Stable thread (Leaves thread) := by
  intro v v' hrely hv
  have hkept : Kept sha256 items thread (Cleared IsTemporary thread) := kept_cleared
  rcases hv with hcleared | ⟨tmpName, hevent, htmp, inode, data, hdraft⟩
  · exact Or.inl (hkept.stable v v' hrely hcleared)
  · obtain ⟨-, -, other, hne, htrace, hmoves⟩ := hrely
    exact Or.inr ⟨tmpName, htrace.subset hevent, htmp, inode, data,
      hdraft.orderly htmp hne.symm trivial hmoves⟩

theorem discardTemporary_does {α : Type} (htmp : IsTemporary tmpName)
    (hframe : Steady sha256 items frame) (error : Error) (q : α → SharedDirectory Str → Prop) :
    Does sha256 site items thread (Drafting thread tmpName inode frame)
      (discardTemporary tmpName error) q (Leaves thread) := by
  refine Contract.Spec.bind (Q := fun _ => Leaves thread) (perform_does (a := Action.unlink tmpName)
    (kept_drafting htmp hframe) (fun _ => leaves_stable) ?_) fun reply => ?_
  · rintro choice v reply world hexec ⟨data, hdraft, -⟩
    obtain ⟨hmoves, hcleared⟩ : Moves sha256 items thread v.state.files _ ∧ _ := hdraft.unlinked htmp
    cases choice with
    | drawn | written => cases hexec
    | fault =>
      cases hexec
      exact ⟨.refl, Or.inr ⟨tmpName, List.mem_append_right _ List.mem_cons_self, htmp, inode, data, hdraft⟩⟩
    | works =>
      have hperform : some ((v.state.files.unlink tmpName).1,
          { v.state with files := (v.state.files.unlink tmpName).2 }) = some (reply, world) := hexec
      rw [SharedDirectory.unlink_of_file hdraft.node] at hperform
      cases hperform
      exact ⟨hmoves, Or.inl hcleared⟩
  · cases (reply : Except OsError Unit) with
    | ok => exact .fail leaves_stable fun _ h => h
    | error error =>
      cases error with
      | noEntry | occupied | isDirectory | fault => exact .fail leaves_stable fun _ h => h

theorem replace_does (hhex : ∀ bytes, IsHexDigest (sha256 bytes)) (htmp : IsTemporary tmpName)
    (hframe : Steady sha256 items frame) {item : Item} (hitem : item ∈ items thread) {name : Str}
    {content : List UInt8} (hname : destination sha256 item = some name)
    (hcontent : encodeUtf8 item.content = some content)
    (hsteady : Steady sha256 items (Published (fun _ bytes => bytes = content) name)) :
    Does sha256 site items thread (fun w => Draft IsTemporary thread tmpName inode content w ∧ frame w)
      (get (.replace tmpName name))
      (fun _ w => Cleared IsTemporary thread w ∧ Published (fun _ bytes => bytes = content) name w ∧
        frame w)
      (On (Drafting thread tmpName inode frame)) := by
  apply get_does (kept_draft_and htmp hframe)
    (fun _ => kept_cleared.and (hsteady.and hframe).kept) (kept_drafting htmp hframe)
  intro choice world reply world' hexec hworld
  have hnotTemporary := not_isTemporary_destination hhex hname
  cases choice with
  | drawn | written => cases hexec
  | fault =>
    cases hexec
    exact ⟨.refl, nofun, fun _ _ => ⟨content, hworld⟩⟩
  | works =>
    have hperform : some ((world.files.rename tmpName name).1,
        { world with files := (world.files.rename tmpName name).2 }) = some (reply, world') := hexec
    rcases SharedDirectory.rename_of_file hworld.1.node name with hrename | hrename
    · rw [hrename] at hperform
      cases hperform
      exact ⟨.refl, nofun, fun _ _ => ⟨content, hworld⟩⟩
    · rw [hrename] at hperform
      cases hperform
      obtain ⟨hmoves, hcleared⟩ : Moves sha256 items thread world.files _ ∧ _ :=
        hworld.1.renamed htmp hnotTemporary ⟨item, hitem, hname, hcontent⟩
      have hpublished : Published (fun _ bytes => bytes = content) name
          (world.files.renamed tmpName name) := hworld.1.published rfl
      exact ⟨hmoves, fun _ _ => ⟨hcleared, hpublished, hframe thread _ _ hmoves hworld.2⟩, nofun⟩

end

/-! ## The mounts -/

/-- The source of the mount is a path, and the file there contains the content of the item. -/
def Mounted (sha256 : List UInt8 → Str) (site : Site) (item : Item) (mount : ExecutionMount)
    (files : SharedDirectory Str) : Prop :=
  ∃ name content, destination sha256 item = some name ∧ encodeUtf8 item.content = some content ∧
    mount.toFields = ⟨site.path (.entry name), item.target, item.readOnly, .providerPolicy⟩ ∧
    Published (fun _ bytes => bytes = content) name files

section

variable (hhex : ∀ bytes, IsHexDigest (sha256 bytes)) (hfree : CollisionFree sha256 items)

include hhex hfree

/-- What another call puts under the name of an item has the same content. -/
theorem steady_published {item : Item} (hitem : item ∈ items thread) {name : Str}
    {content : List UInt8} (hname : destination sha256 item = some name)
    (hcontent : encodeUtf8 item.content = some content) :
    Steady sha256 items (Published (fun _ bytes => bytes = content) name) := by
  intro other w w' hmoves hpublished
  apply hpublished.orderly (not_isTemporary_destination hhex hname) _ hmoves
  rintro bytes ⟨item', hitem', hname', hbytes⟩
  obtain ⟨-, hsame⟩ := destination_inj hhex hfree hitem hitem' hname hname'
  rw [hsame, hbytes] at hcontent
  exact Option.some.inj hcontent

theorem steady_mounted {item : Item} (hitem : item ∈ items thread) (mount : ExecutionMount) :
    Steady sha256 items (Mounted sha256 site item mount) := by
  rintro other w w' hmoves ⟨name, content, hname, hcontent, hfields, hpublished⟩
  exact ⟨name, content, hname, hcontent, hfields,
    steady_published hhex hfree hitem hname hcontent other w w' hmoves hpublished⟩

theorem publish_does {tmpName : Str} {inode : Nat} (htmp : IsTemporary tmpName)
    (hframe : Steady sha256 items frame) {item : Item} (hitem : item ∈ items thread) {name : Str}
    {content : List UInt8} (hname : destination sha256 item = some name)
    (hcontent : encodeUtf8 item.content = some content) :
    Does sha256 site items thread (fun w => Draft IsTemporary thread tmpName inode [] w ∧ frame w)
      (publish site inode tmpName name content)
      (fun _ w => Cleared IsTemporary thread w ∧ Published (fun _ bytes => bytes = content) name w ∧
        frame w)
      (On (Drafting thread tmpName inode frame)) := by
  refine (fillTemporary_does htmp hframe content).bind fun _ => ?_
  refine ((look_does (kept_draft_and htmp hframe) rfl).weaken (fun _ h => h) (fun _ _ h => h)
    fun _ _ h => ⟨content, h⟩).bind fun _ => ?_
  exact replace_does hhex htmp hframe hitem hname hcontent
    (steady_published hhex hfree hitem hname hcontent)

theorem materializeFile_does (hframe : Steady sha256 items frame) {item : Item}
    (hitem : item ∈ items thread) :
    Does sha256 site items thread (fun w => Cleared IsTemporary thread w ∧ frame w)
      (materializeFile sha256 site item)
      (fun mount w => Cleared IsTemporary thread w ∧ Mounted sha256 site item mount w ∧ frame w)
      (Leaves thread) := by
  have hcleared : Kept sha256 items thread fun w => Cleared IsTemporary thread w ∧ frame w :=
    kept_cleared.and hframe.kept
  unfold materializeFile
  split
  · rename_i name content hname hcontent
    have hsteady := steady_published hhex hfree hitem hname hcontent
    refine ((mkstemp_does item.name hframe).weaken (fun _ h => h) (fun _ _ h => h)
      fun _ _ => Or.inl).bind fun made => ?_
    intro v hv
    obtain ⟨htmp, hdraft⟩ : IsTemporary made.2 ∧ _ := hv
    refine Contract.Spec.bind ((publish_does hhex hfree htmp hframe hitem hname hcontent).handling
      fun error => discardTemporary_does htmp hframe error _) (fun _ => ?_) v hdraft
    have hpublished : Kept sha256 items thread fun w => Cleared IsTemporary thread w ∧
        Published (fun _ bytes => bytes = content) name w ∧ frame w :=
      kept_cleared.and (hsteady.and hframe).kept
    refine ((canonical_does _ _ _ _ _ hpublished).weaken (fun _ h => h) (fun _ _ h => h)
      fun _ _ h => Or.inl h.1).bind fun source => ?_
    intro v hv
    obtain ⟨rfl, hpub⟩ := hv
    refine (lift_does _ hpublished).weaken (fun _ h => h) (fun mount w h => ?_)
      (fun _ _ h => Or.inl h.1) v hpub
    obtain ⟨hmount, hcleared, hpub, hw⟩ := h
    exact ⟨hcleared, ⟨name, content, hname, hcontent, ExecutionMount.make_ok hmount, hpub⟩, hw⟩
  · exact .fail hcleared.stable fun _ h => Or.inl h.1

/-- The induction is on the items that are left; the mounts that there are already are a part of
the frame. -/
theorem materializeAll_does (hframe : Steady sha256 items frame) {rest : List Item}
    (hrest : ∀ item ∈ rest, item ∈ items thread) :
    Does sha256 site items thread (fun w => Cleared IsTemporary thread w ∧ frame w)
      (materializeAll sha256 site rest)
      (fun mounts w => Cleared IsTemporary thread w ∧
        List.Forall₂ (fun item mount => Mounted sha256 site item mount w) rest mounts ∧ frame w)
      (Leaves thread) := by
  induction rest generalizing frame with
  | nil =>
    exact .ret (kept_cleared.and hframe.kept).stable fun _ h => ⟨h.1, .nil, h.2⟩
  | cons item rest ih =>
    have hitem := hrest item List.mem_cons_self
    refine (materializeFile_does hhex hfree hframe hitem).bind fun mount => ?_
    have hmounted : Steady sha256 items (Mounted sha256 site item mount) :=
      steady_mounted hhex hfree hitem mount
    have hframe' := hmounted.and hframe
    refine (ih hframe' fun other hother => hrest other (List.mem_cons_of_mem item hother)).bind
      fun mounts => ?_
    have hmounts : Steady sha256 items fun w =>
        List.Forall₂ (fun item mount => Mounted sha256 site item mount w) rest mounts := by
      intro other w w' hmoves hall
      have hmem : ∀ item ∈ rest, item ∈ items thread := fun other hother =>
        hrest other (List.mem_cons_of_mem item hother)
      clear hrest ih
      induction hall with
      | nil => exact .nil
      | cons hmounted _ ihall =>
        exact .cons (steady_mounted hhex hfree (hmem _ List.mem_cons_self) _ other w w' hmoves hmounted)
          (ihall fun other hother => hmem other (List.mem_cons_of_mem _ hother))
    refine .ret (kept_cleared.and (hmounts.and hframe').kept).stable fun v h => ?_
    obtain ⟨hcleared, hall, hmounted, hw⟩ := h
    exact ⟨hcleared, .cons hmounted hall, hw⟩

theorem materializeGeneratedPolicyFiles_does :
    Does sha256 site items thread (Cleared IsTemporary thread)
      (materializeGeneratedPolicyFiles sha256 site (items thread))
      (fun mounts w => Cleared IsTemporary thread w ∧
        List.Forall₂ (fun item mount => Mounted sha256 site item mount w) (items thread) mounts)
      (Leaves thread) := by
  unfold materializeGeneratedPolicyFiles
  split
  · rename_i hempty
    refine .ret kept_cleared.stable fun v h => ⟨h, ?_⟩
    rw [List.isEmpty_iff.mp hempty]
    exact .nil
  · have hdirectory : ∀ (place root : Location) (label : Str),
        Does sha256 site items thread (Cleared IsTemporary thread) (canonicalDir site place root label)
          (fun _ => Cleared IsTemporary thread) (Leaves thread) :=
      fun place root label => (canonical_does _ _ place root label kept_cleared).weaken (fun _ h => h)
        (fun _ _ h => h.2) fun _ _ => Or.inl
    have hmkdir : ∀ root : Root, Does sha256 site items thread (Cleared IsTemporary thread)
        (get (.mkdir root)) (fun _ => Cleared IsTemporary thread) (Leaves thread) :=
      fun root => (look_does kept_cleared rfl).weaken (fun _ h => h) (fun _ _ h => h) fun _ _ => Or.inl
    refine (hmkdir _).bind fun _ => ?_
    refine (hdirectory _ _ _).bind fun _ => ?_
    refine (hmkdir _).bind fun _ => ?_
    refine (hdirectory _ _ _).bind fun _ => ?_
    have hframe : Steady sha256 items fun _ => True := fun _ _ _ _ h => h
    exact (materializeAll_does hhex hfree hframe fun _ h => h).weaken (fun _ h => ⟨h, trivial⟩)
      (fun _ _ h => ⟨h.1, h.2.1⟩) fun _ _ h => h

end

end Specs

/-! ## All calls together -/

/-- Apart from the file `left`, the call has left nothing but complete files of its items. -/
def Tidy (sha256 : List UInt8 → Str) (items : Nat → List Item) (thread : Nat) (left : Option Str)
    (files : SharedDirectory Str) : Prop :=
  ∀ name inode, files.directory.node name = .file inode → files.holder inode = some thread →
    some name ≠ left → ¬IsTemporary name ∧ Fits sha256 items thread name (files.directory.bytes inode)

section

variable {sha256 : List UInt8 → Str} {site : Site} {items : Nat → List Item} {thread : Nat}
  {files : SharedDirectory Str}

theorem tidy_of_cleared (hcleared : Cleared IsTemporary thread files)
    (hcomplete : Complete IsTemporary (Fits sha256 items) files) :
    Tidy sha256 items thread none files := by
  intro name inode hnode hholder _
  have hname := hcleared name inode hnode hholder
  exact ⟨hname, hcomplete name inode thread hnode hholder hname⟩

theorem tidy_of_draft {tmpName : Str} {inode : Nat} {data : List UInt8}
    (hdraft : Draft IsTemporary thread tmpName inode data files)
    (hcomplete : Complete IsTemporary (Fits sha256 items) files) :
    Tidy sha256 items thread (some tmpName) files := by
  intro name k hnode hholder hleft
  have hname : ¬IsTemporary name := by
    intro htmp
    exact hleft (congrArg some (hdraft.only name k hnode hholder htmp))
  exact ⟨hname, hcomplete name k thread hnode hholder hname⟩

theorem pool_safe (hhex : ∀ bytes, IsHexDigest (sha256 bytes)) (hfree : CollisionFree sha256 items)
    (roots : Root → Node) (directory : Directory Str) :
    Contract.PoolSafe (contract sha256 items) (machine site) (fun _ _ _ _ => True)
      (fun i mounts => On fun w => Cleared IsTemporary i w ∧
        List.Forall₂ (fun item mount => Mounted sha256 site item mount w) (items i) mounts)
      (fun i _ => Leaves i) (pool sha256 site items roots directory) :=
  ⟨fun _ _ _ _ hholder => (nomatch hholder), fun _ =>
    materializeGeneratedPolicyFiles_does hhex hfree _ fun _ _ _ hholder => (nomatch hholder)⟩

theorem path_entry_inj {name name' : Str} (h : site.path (.entry name) = site.path (.entry name')) :
    name = name' := by
  simp only [Site.path] at h
  exact List.append_cancel_left h

end

/-- However the calls interleave, and whichever steps fail: the source of every mount that a call has
returned is a path at which the content of the item stands, then and later; items that differ in target
or content have different paths; and a call that has ended has left no file that is not complete,
except, when its `unlink` of its temporary file has failed, this one. -/
theorem generated_policies_materialized (sha256 : List UInt8 → Str) (site : Site)
    (items : Nat → List Item) (roots : Root → Node) (directory : Directory Str)
    (hhex : ∀ bytes, IsHexDigest (sha256 bytes)) (hfree : CollisionFree sha256 items)
    (c : Interleaving.Config Action.Reply World Error (List ExecutionMount))
    (hrun : (machine site).Reaches (fun _ _ _ _ => True) (pool sha256 site items roots directory) c) :
    (∀ i mounts, c.programs i = .ret mounts → Tidy sha256 items i none c.state.files ∧
      List.Forall₂ (fun item mount => Mounted sha256 site item mount c.state.files) (items i) mounts) ∧
    (∀ i error, c.programs i = .fail error → Tidy sha256 items i none c.state.files ∨
      ∃ tmpName, (⟨i, .unlink tmpName, .error .fault⟩ : Event Action.Reply) ∈ c.trace ∧
        IsTemporary tmpName ∧ Tidy sha256 items i (some tmpName) c.state.files) ∧
    ∀ i j, ∀ a ∈ items i, ∀ b ∈ items j, ∀ name name', destination sha256 a = some name →
      destination sha256 b = some name' → site.path (.entry name) = site.path (.entry name') →
        a.target = b.target ∧ a.content = b.content := by
  have hsafe := Contract.sound (pool_safe hhex hfree roots directory) hrun
  refine ⟨?_, ?_, ?_⟩
  · intro i mounts hret
    obtain ⟨hcleared, hmounted⟩ := hsafe.post hret
    exact ⟨tidy_of_cleared hcleared hsafe.1, hmounted⟩
  · intro i error hfail
    have hleaves : Leaves i c.view := hsafe.post_fail hfail
    rcases hleaves with hcleared | ⟨tmpName, hevent, htmp, inode, data, hdraft⟩
    · exact Or.inl (tidy_of_cleared hcleared hsafe.1)
    · exact Or.inr ⟨tmpName, hevent, htmp, tidy_of_draft hdraft hsafe.1⟩
  · intro i j a ha b hb name name' hname hname' hpath
    rw [← path_entry_inj hpath] at hname'
    exact destination_inj hhex hfree ha hb hname hname'

/-- Two items that differ in their content only. -/
def closedItem : Item where
  name := str "requirements.toml"
  target := str "/etc/codex/requirements.toml"
  content := str "net = false\n"
  checked := by decide +kernel
  plain := by decide +kernel

def openItem : Item where
  name := str "requirements.toml"
  target := str "/etc/codex/requirements.toml"
  content := str "net = true\n"
  checked := by decide +kernel
  plain := by decide +kernel

def exampleDigest (bytes : List UInt8) : Str :=
  if hashed closedItem = some bytes then
    str "98a608a787fe4b24d85762d3b736a6c2f7d3995a9fad08b96344c4cb295b65e7"
  else if hashed openItem = some bytes then
    str "fd3a3cc2d015bb12fa5cc07c24d386b4a976cfa5fea5990f18449abca87eef7f"
  else List.replicate 64 48

/-- The first call wants one item, the second one wants both. -/
def exampleItems (thread : Nat) : List Item :=
  if thread = 0 then [closedItem] else if thread = 1 then [openItem, closedItem] else []

def exampleSite : Site := ⟨str "/srv/projects/demo/tasks", str "codex", 4096⟩

def emptyDirectory : Directory Str where
  node _ := .missing
  bytes _ := []
  next := 0
  created _ _ h := nomatch h
  single _ _ _ h := nomatch h

def examplePool : Interleaving.Config Action.Reply World Error (List ExecutionMount) :=
  pool exampleDigest exampleSite exampleItems (fun _ => .missing) emptyDirectory

/-- The choices of a call that makes the two directories. -/
def preparing : List Choice := List.replicate 10 .works

/-- The choices for one item whose text is written by two calls. -/
def storing (suffix : String) (first second : Nat) : List Choice :=
  [.drawn (str suffix), .works, .written first, .written second] ++ List.replicate 8 .works

/-- The choices for one item whose renaming fails. -/
def failing (suffix : String) (count : Nat) : List Choice :=
  [.drawn (str suffix), .works, .written count, .works, .works, .works, .fault, .works]

/-- The two calls step by step in turns; then the second one goes on alone, and its last renaming
fails. -/
def exampleSchedule : List (Nat × Choice) :=
  ((preparing ++ storing "aaaaaaaa" 5 7).zip (preparing ++ storing "bbbbbbbb" 4 7)).flatMap
      (fun pair => [(0, pair.1), (1, pair.2)]) ++
    (failing "cccccccc" 12).map fun choice => (1, choice)

theorem isHexDigest_exampleDigest (bytes : List UInt8) : IsHexDigest (exampleDigest bytes) := by
  have hdigits : ∀ digest : Str, digest.length = 64 →
      digest.all (· ∈ str "0123456789abcdef") = true → IsHexDigest digest :=
    fun digest hlength hall => ⟨hlength, fun c hc => of_decide_eq_true (List.all_eq_true.mp hall c hc)⟩
  unfold exampleDigest
  split
  · exact hdigits _ (by decide +kernel) (by decide +kernel)
  · split
    · exact hdigits _ (by decide +kernel) (by decide +kernel)
    · exact hdigits _ (by decide +kernel) (by decide +kernel)

theorem collisionFree_exampleItems : CollisionFree exampleDigest exampleItems := by
  have hdiffer : exampleDigest ((hashed closedItem).getD []) ≠ exampleDigest ((hashed openItem).getD []) := by
    decide +kernel
  have hmem : ∀ i, ∀ item ∈ exampleItems i, item = closedItem ∨ item = openItem := by
    intro i item hitem
    unfold exampleItems at hitem
    split at hitem
    · exact Or.inl (List.mem_singleton.mp hitem)
    · split at hitem
      · simpa [or_comm] using hitem
      · cases hitem
  intro i j a ha b hb bytes bytes' hbytes hbytes' hdigest
  rcases hmem i a ha with rfl | rfl <;> rcases hmem j b hb with rfl | rfl
  · exact Option.some.inj (hbytes.symm.trans hbytes')
  · rw [hbytes, hbytes'] at hdiffer
    exact absurd hdigest hdiffer
  · rw [hbytes, hbytes'] at hdiffer
    exact absurd hdigest.symm hdiffer
  · exact Option.some.inj (hbytes.symm.trans hbytes')

def isFailedUnlink : Event Action.Reply → Bool
  | ⟨_, .unlink _, .error .fault⟩ => true
  | _ => false

theorem generated_policies_materialized_example :
    ∃ c, (machine exampleSite).Reaches (fun _ _ _ _ => True) examplePool c ∧
      (∃ mounts, c.programs 0 = .ret mounts ∧ mounts.length = 1 ∧
        List.Forall₂ (fun item mount => Mounted exampleDigest exampleSite item mount c.state.files)
          [closedItem] mounts) ∧
      (∃ error, c.programs 1 = .fail error) ∧ Tidy exampleDigest exampleItems 1 none c.state.files := by
  have hrun : (((machine exampleSite).run (fun _ _ _ _ => true) examplePool exampleSchedule).map
      fun c => ((c.programs 0).value?.map List.length, (c.programs 1).error?.isSome,
        c.trace.any isFailedUnlink)) = some (some 1, true, false) := by
    decide +kernel
  obtain ⟨c, hreaches, hends⟩ := Machine.exists_of_run hrun
  simp only [Prod.mk.injEq, Option.map_eq_some_iff, Program.value?_eq_some_iff,
    Option.isSome_iff_exists, Program.error?_eq_some_iff] at hends
  obtain ⟨⟨mounts, hret, hlength⟩, ⟨error, hfail⟩, hunlinked⟩ := hends
  obtain ⟨hmounted, htidy, -⟩ := generated_policies_materialized exampleDigest exampleSite
    exampleItems (fun _ => .missing) emptyDirectory isHexDigest_exampleDigest
    collisionFree_exampleItems c hreaches
  refine ⟨c, hreaches, ⟨mounts, hret, hlength, (hmounted 0 mounts hret).2⟩, ⟨error, hfail⟩, ?_⟩
  rcases htidy 1 error hfail with hnone | ⟨tmpName, hevent, -⟩
  · exact hnone
  · have hany : c.trace.any isFailedUnlink = true := List.any_eq_true.mpr ⟨_, hevent, rfl⟩
    rw [hunlinked] at hany
    cases hany

/-- The text cannot be written; `close` writes a part of it nevertheless, and `unlink` fails. -/
def abandoning : List Choice :=
  preparing ++ [.drawn (str "aaaaaaaa"), .works, .fault, .written 5, .fault, .fault, .works, .fault]

/-- The call has raised, and its temporary file is still there, with a part of the text. -/
theorem temporary_file_left :
    ∃ c, (machine exampleSite).Reaches (fun _ _ _ _ => True) examplePool c ∧
      (∃ error, c.programs 0 = .fail error) ∧
      ∃ inode, c.state.files.directory.node (str ".requirements.toml.aaaaaaaa") = .file inode ∧
        c.state.files.holder inode = some 0 ∧
        some (c.state.files.directory.bytes inode) = encodeUtf8 (str "net =") := by
  have hrun : (((machine exampleSite).run (fun _ _ _ _ => true) examplePool
      (abandoning.map fun choice => (0, choice))).map fun c => ((c.programs 0).error?.isSome,
        c.state.files.directory.node (str ".requirements.toml.aaaaaaaa"), c.state.files.holder 0,
        decide (some (c.state.files.directory.bytes 0) = encodeUtf8 (str "net =")))) =
      some (true, .file 0, some 0, true) := by
    decide +kernel
  obtain ⟨c, hreaches, hends⟩ := Machine.exists_of_run hrun
  simp only [Prod.mk.injEq, Option.isSome_iff_exists, Program.error?_eq_some_iff,
    decide_eq_true_eq] at hends
  obtain ⟨hfail, hnode, hholder, hbytes⟩ := hends
  exact ⟨c, hreaches, hfail, 0, hnode, hholder, hbytes⟩

end AgentDev.PolicyFiles
