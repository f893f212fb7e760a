import AgentDev.Agents.Drivers
import AgentDev.Interleaving.RelyGuarantee
import AgentDev.Jq.Paths
import AgentDev.Shell.Words

/-!
# Reconciling provider state with its seed

`seed_provider_home` of `broker/daemon.py`: the managed fields of a state file are set to what they are
in the seed, by a `jq` program that is made from a plan. The file is read, written under a temporary
name and renamed, without a lock. A file that is not there is installed from the seed.

`update_spec` is about the program: when it succeeds, and what the document is then. Any number of runs
at the same time, each of which may fail at any command, come to what one run would have made of the
file (`reconciliation_converges`), since the program changes nothing in what it has made. The file must
have been there, or not be looked at while it is being installed: `racing_installs` has two runs that
succeed and leave it empty.
-/

namespace AgentDev.Reconciliation

open Interleaving Python Agents Jq

variable {S : Type}

/-! ## The program of `jq` -/

/-- A plan whose field `jq` reads as one name. The checks of the plan accept others, as `foo-bar`, which
`jq` does not read as a name. The keys of the paths are what `jq` reads, which has no surrogates. -/
structure Plan extends JsonFieldReconciliation where
  identifier : Shell.isIdentifier managedField = true

abbrev Document (S : Type) := Doc Str S

def isObject : Document S → Bool
  | .object _ => true
  | _ => false

def isNull : Document S → Bool
  | .null => true
  | _ => false

/-- `getpath(...) != null and ...` -/
def allPresent (seed : Document S) : List (List Str) → Option Bool
  | [] => some true
  | path :: rest => do
    let value ← getpath path seed
    if isNull value then some false else allPresent seed rest

/-- `seed_validation` -/
def seedValidation (plan : Plan) (seed : Document S) : Option Bool := do
  let field ← seed.index plan.managedField
  if isObject field then allPresent seed plan.managedPaths else some false

/-- `setpath(...; ($seed[0] | getpath(...)))` -/
def setManaged (seed : Document S) (doc : Document S) (path : List Str) : Option (Document S) := do
  let value ← getpath path seed
  setpath path value doc

/-- `jq_program` -/
def update (plan : Plan) (seed doc : Document S) : Option (Document S) := do
  let field ← seed.index plan.managedField
  let assigned ← doc.put plan.managedField field
  plan.managedPaths.foldlM (setManaged seed) assigned

/-! ## What it does -/

/-- The field, and the managed paths. -/
def managed (plan : Plan) : List (List Str) := [plan.managedField] :: plan.managedPaths

variable {plan : Plan} {seed doc doc' : Document S}

theorem foldlM_setManaged (paths : List (List Str)) (doc : Document S) :
    paths.foldlM (setManaged seed) doc = copyPaths seed paths doc := by
  induction paths generalizing doc with
  | nil => rfl
  | cons path rest ih =>
    rw [List.foldlM_cons, setManaged, copyPaths]
    cases getpath path seed with
    | none => rfl
    | some value =>
      show (setpath path value doc).bind _ = (setpath path value doc).bind _
      exact congrArg _ (funext ih)

/-- An assignment to a field is one to its path. -/
theorem setpath_field (key : Str) (value doc : Document S) : setpath [key] value doc = doc.put key value := by
  cases doc <;> rfl

theorem update_eq : update plan seed doc = copyPaths seed (managed plan) doc := by
  unfold update managed
  simp only [foldlM_setManaged, copyPaths, getpath]
  cases seed.index plan.managedField with
  | none => rfl
  | some field =>
    show (doc.put plan.managedField field).bind _ = (setpath [plan.managedField] field doc).bind _
    rw [setpath_field]

theorem allPresent_iff {paths : List (List Str)} :
    allPresent seed paths = some true ↔ ∀ path ∈ paths, Jq.Holds seed path := by
  induction paths with
  | nil => exact iff_of_true rfl (List.forall_mem_nil _)
  | cons path rest ih =>
    rw [List.forall_mem_cons, ← ih, Jq.Holds, allPresent]
    cases hvalue : getpath path seed with
    | none => simp
    | some value =>
      show (if isNull value then some false else allPresent seed rest) = some true ↔ _
      cases value <;> simp [isNull]

/-- The validation accepts seeds that have an object at the field, and something at each path. -/
theorem seedValidation_iff :
    seedValidation plan seed = some true ↔
      (∃ fields, seed.index plan.managedField = some (.object fields)) ∧
        ∀ path ∈ plan.managedPaths, Jq.Holds seed path := by
  rw [← allPresent_iff, seedValidation]
  cases hfield : seed.index plan.managedField with
  | none => simp
  | some field =>
    show (if isObject field then allPresent seed plan.managedPaths else some false) = some true ↔ _
    cases field <;> simp [isObject]

theorem holds_managed (h : seedValidation plan seed = some true) :
    ∀ path ∈ managed plan, Jq.Holds seed path := by
  obtain ⟨⟨fields, hfield⟩, hpaths⟩ := seedValidation_iff.mp h
  refine List.forall_mem_cons.mpr ⟨⟨.object fields, ?_, nofun⟩, hpaths⟩
  show (seed.index plan.managedField).bind _ = _
  rw [hfield]
  rfl

theorem update_seed (h : seedValidation plan seed = some true) : update plan seed seed = some seed := by
  rw [update_eq]
  exact copyPaths_of_agrees (holds_managed h) fun _ _ => rfl

/-- The program succeeds exactly if each managed path can be read in the document, or leads through one
that is set before it. All managed paths are as in the seed then, what is apart from them is as it was,
and the program changes nothing any more. -/
theorem update_spec (plan : Plan) (seed doc : Document S) (hseed : seedValidation plan seed = some true) :
    ((update plan seed doc).isSome = true ↔ ∀ before path after, managed plan = before ++ path :: after →
      (getpath path doc).isSome = true ∨ ∃ first ∈ before, first <+: path) ∧
    ∀ doc', update plan seed doc = some doc' →
      (∀ path ∈ managed plan, getpath path doc' = getpath path seed) ∧
      (∀ other, (∀ path ∈ managed plan, Jq.Apart path other) → getpath other doc' = getpath other doc) ∧
      update plan seed doc' = some doc' := by
  have hholds := holds_managed hseed
  rw [update_eq]
  refine ⟨copyPaths_isSome_iff hholds, fun doc' hdoc' => ⟨agrees_copyPaths hholds hdoc',
    fun other hother => copyPaths_apart hother hdoc', ?_⟩⟩
  rw [update_eq]
  exact copyPaths_again hholds hdoc'

/-! ## The script -/

/-- The documents of a file that `jq` reads to its end, or anything else. -/
inductive Content (S : Type)
  | documents (docs : List (Document S))
  | broken

/-- The state file, and the temporary files by the characters that `mktemp` has drawn. `filling` is the
run that has created the state file and not written it yet, if it is still this file. `holder` is the
run that has made a temporary file; no step asks for it. -/
structure World (S : Type) where
  state : Option (Content S)
  filling : Option Nat
  temp : Str → Option (Content S)
  holder : Str → Option Nat

inductive Action
  /-- `[ -e "$state" ]` -/
  | exists
  /-- `install -m 0600 "$seed" "$state"`: a file that is there is removed, and a new one created. -/
  | create
  /-- The new file is written. -/
  | fill
  /-- `jq -e ... "$seed"` -/
  | validate
  | mktemp
  /-- `> "$tmp"` -/
  | redirect (tmp : Str)
  /-- `jq --slurpfile seed "$seed" ... "$state"`, with its output to the temporary file. -/
  | filter (tmp : Str)
  | chmod (tmp : Str)
  /-- `mv -f "$tmp" "$state"` -/
  | move (tmp : Str)
  /-- `rm -f "$tmp"` -/
  | remove (tmp : Str)

abbrev Action.Result : Action → Type
  | .exists => Bool
  | .mktemp => Str
  | _ => Unit

/-- A command that fails has no result. -/
abbrev Action.Reply (action : Action) : Type := Option action.Result

/-- The command works, or fails and leaves something in the file that it writes. `mktemp` draws. -/
inductive Choice (S : Type)
  | works
  | drawn (suffix : Str)
  | fault (left : Content S)

/-- The six characters that `mktemp` draws. -/
def isDrawn (suffix : Str) : Bool :=
  suffix.length = 6 &&
    suffix.all (· ∈ str "abcdefghijklmnopqrstuvwxyzABCDEFGHIJKLMNOPQRSTUVWXYZ0123456789")

/-- What `jq` makes of a file, if it works for each of its documents. -/
def filtered (plan : Plan) (seed : Document S) : Option (Content S) → Option (List (Document S))
  | some (.documents docs) => docs.mapM (update plan seed)
  | _ => none

/-- The output where it does not: `jq` goes on to the next document. -/
def leftover (plan : Plan) (seed : Document S) : Option (Content S) → Content S
  | some (.documents docs) => .documents (docs.filterMap (update plan seed))
  | some .broken => .broken
  | none => .documents []

def World.setTemp (world : World S) (tmp : Str) (content : Option (Content S)) : World S :=
  { world with temp := Function.update world.temp tmp content }

def World.make (world : World S) (thread : Nat) (tmp : Str) : World S :=
  { world.setTemp tmp (some (.documents [])) with
    holder := Function.update world.holder tmp (some thread) }

def perform (plan : Plan) (seed : Document S) (thread : Nat) (world : World S) :
    (action : Action) → action.Reply × World S
  | .exists => (some world.state.isSome, world)
  | .create => (some (), { world with state := some (.documents []), filling := some thread })
  | .fill =>
    if world.filling = some thread then
      (some (), { world with state := some (.documents [seed]), filling := none })
    else (some (), world)
  | .validate => (if seedValidation plan seed = some true then some () else none, world)
  | .mktemp => (none, world)
  | .redirect tmp => (some (), world.setTemp tmp (some (.documents [])))
  | .filter tmp =>
    match filtered plan seed world.state with
    | some docs => (some (), world.setTemp tmp (some (.documents docs)))
    | none => (none, world.setTemp tmp (some (leftover plan seed world.state)))
  | .chmod _ => (some (), world)
  | .move tmp =>
    match world.temp tmp with
    | some content => (some (), { world.setTemp tmp none with state := some content, filling := none })
    | none => (none, world)
  | .remove tmp => (some (), world.setTemp tmp none)

/-- A command that fails for reasons of its own. -/
def interrupt (thread : Nat) (world : World S) (left : Content S) :
    (action : Action) → Option (action.Reply × World S)
  | .exists => none
  | .create => some (none, { world with state := none, filling := none })
  | .fill =>
    if world.filling = some thread then some (none, { world with state := some left, filling := none })
    else some (none, world)
  | .filter tmp => some (none, world.setTemp tmp (some left))
  | _ => some (none, world)

def exec (plan : Plan) (seed : Document S) (thread : Nat) :
    (action : Action) → Choice S → World S → Option (action.Reply × World S)
  | .mktemp, .drawn suffix, world =>
    if isDrawn suffix && (world.temp suffix).isNone then some (some suffix, world.make thread suffix)
    else none
  | action, .works, world => some (perform plan seed thread world action)
  | action, .fault left, world => interrupt thread world left action
  | _, _, _ => none

def machine (plan : Plan) (seed : Document S) : Machine Action.Reply (World S) (Choice S) where
  exec := exec plan seed

/-- The script exits with a status that is not zero. -/
abbrev Op := Program Action.Reply Unit

/-- `set -e` -/
def get (action : Action) : Op action.Result :=
  (Program.perform action).bind fun reply =>
    match reply with
    | some value => .ret value
    | none => .fail ()

/-- What is done under the trap. -/
def rewrite (tmp : Str) : Op Unit := do
  get (.redirect tmp)
  get (.filter tmp)
  get (.chmod tmp)
  get (.move tmp)

/-- The trap on `EXIT`. -/
def discard (tmp : Str) : Op Unit :=
  (Program.perform (Action.remove tmp)).bind fun _ => .fail ()

def reconcile : Op Unit := do
  let present ← get .exists
  if present then
    get .validate
    let tmp ← get .mktemp
    (rewrite tmp).handling fun _ => discard tmp
  else do
    get .create
    get .fill

/-- The runs, from a state file with documents or none. -/
def pool (initial : Option (List (Document S))) (temp : Str → Option (Content S)) :
    Config Action.Reply (World S) Unit Unit :=
  ⟨fun _ => reconcile, ⟨⟨initial.map .documents, none, temp, fun _ => none⟩, []⟩⟩

/-! ## What runs guarantee to each other -/

/-- The seed is valid, and `jq` makes `docs'` of `docs`. -/
structure Reconciled (plan : Plan) (seed : Document S) (docs docs' : List (Document S)) : Prop where
  valid : seedValidation plan seed = some true
  updated : docs.mapM (update plan seed) = some docs'

/-- What one run makes of the state file. -/
def Outcome (plan : Plan) (seed : Document S) (docs' : List (Document S)) : Option (List (Document S)) → Prop
  | some docs => Reconciled plan seed docs docs'
  | none => docs' = [seed]

abbrev Moment (S : Type) := View Action.Reply (World S)

/-- If there was no state file at first: it is not looked at while it is being installed, and the
installation is not made twice and does not fail. -/
def undisturbed (initial : Option (List (Document S))) : Guard Action.Reply (World S) (Choice S)
  | v, _, .exists, _ => initial = none → v.state.filling = none
  | v, _, .filter _, _ => initial = none → v.state.filling = none
  | v, _, .create, choice => initial = none → v.state.state = none ∧ choice = .works
  | _, _, .fill, choice => initial = none → choice = .works
  | _, _, _, _ => True

/-- The run `thread` has made the temporary file. -/
def Made (thread : Nat) (tmp : Str) (trace : List (Event Action.Reply)) : Prop :=
  (⟨thread, .mktemp, some tmp⟩ : Event Action.Reply) ∈ trace

/-- The run could not remove the temporary file. -/
def Stuck (thread : Nat) (tmp : Str) (trace : List (Event Action.Reply)) : Prop :=
  (⟨thread, .remove tmp, none⟩ : Event Action.Reply) ∈ trace

/-- It is no condition where there was a state file. -/
theorem undisturbed_of_present (docs : List (Document S)) (v : Moment S) (thread : Nat) (action : Action)
    (choice : Choice S) : undisturbed (some docs) v thread action choice := by
  cases action <;> simp [undisturbed]

section

variable (plan : Plan) (seed : Document S) (initial : Option (List (Document S)))
  (temp : Str → Option (Content S))

structure Done (world : World S) : Prop where
  filling : world.filling = none
  state : ∃ docs', world.state = some (.documents docs') ∧ Outcome plan seed docs' initial

/-- The state file is as it was, or a run is about to write it, or it is done. -/
inductive Stage (world : World S) : Prop
  | first (state : world.state = initial.map .documents) (filling : world.filling = none)
  | filling (initial : initial = none) (thread : Nat) (filling : world.filling = some thread)
      (state : world.state = some (.documents []))
  | done (done : Done plan seed initial world)

/-- A temporary file has been there from the beginning, or a run has made it. -/
structure Inv (v : Moment S) : Prop where
  stage : Stage plan seed initial v.state
  foreign : ∀ tmp, temp tmp ≠ none → v.state.holder tmp = none ∧ v.state.temp tmp = temp tmp
  held : ∀ tmp, temp tmp = none → v.state.temp tmp ≠ none → ∃ thread, v.state.holder tmp = some thread
  made : ∀ tmp thread, v.state.holder tmp = some thread → Made thread tmp v.trace

structure Moves (thread : Nat) (v v' : Moment S) : Prop where
  event : ∃ e : Event Action.Reply, e.thread = thread ∧ v'.trace = v.trace ++ [e]
  kept : ∀ tmp other, other ≠ thread → v'.state.holder tmp = some other →
    v.state.holder tmp = some other ∧ v'.state.temp tmp = v.state.temp tmp
  safe : ∀ tmp other, other ≠ thread → v.state.holder tmp = some other → v.state.temp tmp ≠ none →
    v'.state.holder tmp = some other
  filling : ∀ other, other ≠ thread → v.state.filling = some other → v'.state.filling = some other
  done : Done plan seed initial v.state → Done plan seed initial v'.state

def contract : Contract Action.Reply (World S) where
  inv := Inv plan seed initial temp
  guar := Moves plan seed initial

abbrev Does {α : Type} (thread : Nat) (p : Moment S → Prop) (body : Op α) (q : α → Moment S → Prop)
    (e : Moment S → Prop) : Prop :=
  (contract plan seed initial temp).Spec (machine plan seed) (undisturbed initial) thread p body q
    fun _ => e

def Kept (thread : Nat) (p : Moment S → Prop) : Prop :=
  ∀ other v v', thread ≠ other → Moves plan seed initial other v v' → p v → p v'

end

section

variable {initial : Option (List (Document S))} {temp : Str → Option (Content S)} {thread : Nat}
  {p : Moment S → Prop} {tmp : Str} {v v' : Moment S}

theorem Kept.stable (h : Kept plan seed initial thread p) :
    (contract plan seed initial temp).Stable thread p := by
  rintro v v' ⟨-, -, other, hne, hguar⟩ hv
  exact h other v v' hne.symm hguar hv

/-- The run has no temporary file. -/
def Clean (thread : Nat) (v : Moment S) : Prop :=
  ∀ tmp, v.state.holder tmp = some thread → v.state.temp tmp = none

/-- The run has one temporary file, and this is what it contains. -/
structure Drafting (thread : Nat) (tmp : Str) (content : Content S) (world : World S) : Prop where
  temp : world.temp tmp = some content
  holder : world.holder tmp = some thread
  only : ∀ other, world.holder other = some thread → other ≠ tmp → world.temp other = none

def Drafts (thread : Nat) (tmp : Str) (φ : Content S → Prop) (v : Moment S) : Prop :=
  ∃ content, Drafting thread tmp content v.state ∧ φ content

/-- What a run leaves that fails. -/
def Left (thread : Nat) (v : Moment S) : Prop :=
  ∀ tmp, v.state.holder tmp = some thread → v.state.temp tmp = none ∨ Stuck thread tmp v.trace

theorem Clean.left (h : Clean thread v) : Left thread v := fun tmp hholder => Or.inl (h tmp hholder)

theorem kept_clean : Kept plan seed initial thread (Clean thread) := by
  intro other v v' hne hmoves h tmp hholder
  obtain ⟨hbefore, hsame⟩ := hmoves.kept tmp thread hne hholder
  rw [hsame]
  exact h tmp hbefore

theorem kept_left : Kept plan seed initial thread (Left thread) := by
  intro other v v' hne hmoves h tmp hholder
  obtain ⟨hbefore, hsame⟩ := hmoves.kept tmp thread hne hholder
  obtain ⟨e, -, htrace⟩ := hmoves.event
  rw [hsame, Stuck, htrace]
  exact (h tmp hbefore).imp_right fun hstuck => List.mem_append_left _ hstuck

theorem kept_drafts {φ : Content S → Prop} : Kept plan seed initial thread (Drafts thread tmp φ) := by
  intro other v v' hne hmoves ⟨content, h, hcontent⟩
  have hholder : v'.state.holder tmp = some thread := by
    refine hmoves.safe tmp thread hne h.holder ?_
    rw [h.temp]
    exact Option.some_ne_none content
  obtain ⟨-, hsame⟩ := hmoves.kept tmp thread hne hholder
  refine ⟨content, ⟨hsame.trans h.temp, hholder, fun third hthird hother => ?_⟩, hcontent⟩
  obtain ⟨hbefore, hsame'⟩ := hmoves.kept third thread hne hthird
  rw [hsame']
  exact h.only third hbefore hother

theorem kept_done : Kept plan seed initial thread fun v => Clean thread v ∧ Done plan seed initial v.state :=
  fun other v v' hne hmoves h => ⟨kept_clean other v v' hne hmoves h.1, hmoves.done h.2⟩

/-- The run is installing the file. -/
def Installing (thread : Nat) (v : Moment S) : Prop := v.state.filling = some thread ∧ Clean thread v

theorem kept_installing : Kept plan seed initial thread (Installing thread) :=
  fun other v v' hne hmoves h => ⟨hmoves.filling thread hne h.1, kept_clean other v v' hne hmoves h.2⟩

/-- The content of a temporary file that replaces the state file. -/
def Final (plan : Plan) (seed : Document S) (initial : Option (List (Document S)))
    (content : Content S) : Prop :=
  ∃ docs', content = .documents docs' ∧ Outcome plan seed docs' initial

structure Ready (plan : Plan) (seed : Document S) (initial : Option (List (Document S))) (thread : Nat)
    (tmp : Str) (v : Moment S) : Prop where
  drafts : Drafts thread tmp (Final plan seed initial) v
  done : initial = none → Done plan seed initial v.state

theorem kept_ready : Kept plan seed initial thread (Ready plan seed initial thread tmp) :=
  fun other v v' hne hmoves h =>
    ⟨kept_drafts other v v' hne hmoves h.drafts, fun hnone => hmoves.done (h.done hnone)⟩

theorem mapM_again {docs docs' : List (Document S)} (hvalid : seedValidation plan seed = some true)
    (h : docs.mapM (update plan seed) = some docs') : docs'.mapM (update plan seed) = some docs' := by
  induction docs generalizing docs' with
  | nil =>
    cases h
    rfl
  | cons doc rest ih =>
    rw [List.mapM_cons] at h
    obtain ⟨made, hmade, h⟩ := Option.bind_eq_some_iff.mp h
    obtain ⟨others, hothers, h⟩ := Option.bind_eq_some_iff.mp h
    cases h
    obtain ⟨-, hends⟩ := update_spec plan seed doc hvalid
    rw [List.mapM_cons, (hends made hmade).2.2, ih hothers]
    rfl

/-- What `jq` makes of the state file at any time is what one run makes of it. -/
theorem Inv.filtered (h : Inv plan seed initial temp v) (hvalid : seedValidation plan seed = some true)
    (hlook : initial = none → v.state.filling = none) {docs' : List (Document S)}
    (hfiltered : filtered plan seed v.state.state = some docs') :
    Outcome plan seed docs' initial ∧ (initial = none → Done plan seed initial v.state) := by
  cases h.stage with
  | first hstate hfilling =>
    rw [hstate] at hfiltered
    cases initial with
    | none => cases hfiltered
    | some docs => exact ⟨⟨hvalid, hfiltered⟩, fun hnone => by cases hnone⟩
  | filling hnone thread hfilling hstate =>
    rw [hlook hnone] at hfilling
    cases hfilling
  | done hdone =>
    obtain ⟨found, hstate, hfound⟩ := hdone.state
    rw [hstate, Reconciliation.filtered] at hfiltered
    have hagain : found.mapM (update plan seed) = some found := by
      cases initial with
      | none =>
        cases hfound
        rw [List.mapM_cons, update_seed hvalid]
        rfl
      | some docs => exact mapM_again hvalid hfound.updated
    rw [hagain] at hfiltered
    cases hfiltered
    exact ⟨hfound, fun _ => hdone⟩

theorem Inv.still (h : Inv plan seed initial temp v)
    (hdone : initial = none → Done plan seed initial v.state) : v.state.filling = none := by
  cases h.stage with
  | first hstate hfilling => exact hfilling
  | filling hnone => exact (hdone hnone).filling
  | done hdone => exact hdone.filling

/-! ## The commands of a run -/

theorem get_does {a : Action} {q : a.Result → Moment S → Prop} {e : Moment S → Prop}
    (hp : Kept plan seed initial thread p) (hq : ∀ value, Kept plan seed initial thread (q value))
    (he : Kept plan seed initial thread e)
    (hstep : ∀ v choice reply world, Inv plan seed initial temp v → p v →
      undisturbed initial v thread a choice → exec plan seed thread a choice v.state = some (reply, world) →
      (Inv plan seed initial temp (v.after world ⟨thread, a, reply⟩) ∧
        Moves plan seed initial thread v (v.after world ⟨thread, a, reply⟩)) ∧
      reply.elim (e (v.after world ⟨thread, a, reply⟩))
        fun value => q value (v.after world ⟨thread, a, reply⟩)) :
    Does plan seed initial temp thread p (get a) q e := by
  refine .act (J := fun (reply : a.Reply) v => reply.elim (e v) fun value => q value v) hp.stable ?_
    fun reply => ?_
  · intro v choice reply world hguard hinv hv hexec
    obtain ⟨⟨hinv', hmoves⟩, hends⟩ := hstep v choice reply world hinv hv hguard hexec
    exact ⟨hinv', hmoves, hends⟩
  · cases reply with
    | some value => exact .ret (hq value).stable fun v hv => hv
    | none => exact .fail he.stable fun v hv => hv

/-- A command that leaves the temporary files alone. -/
theorem Inv.turn (h : Inv plan seed initial temp v) (world : World S) (e : Event Action.Reply)
    (hfiles : world.temp = v.state.temp ∧ world.holder = v.state.holder)
    (hstage : Stage plan seed initial world)
    (hfilling : ∀ other, other ≠ e.thread → v.state.filling = some other → world.filling = some other)
    (hdone : Done plan seed initial v.state → Done plan seed initial world) :
    Inv plan seed initial temp (v.after world e) ∧ Moves plan seed initial e.thread v (v.after world e) := by
  obtain ⟨state, filling, temps, holder⟩ := world
  obtain ⟨rfl, rfl⟩ := hfiles
  exact ⟨⟨hstage, h.foreign, h.held,
      fun tmp thread hholder => List.mem_append_left _ (h.made tmp thread hholder)⟩,
    ⟨e, rfl, rfl⟩, fun _ _ _ hholder => ⟨hholder, rfl⟩, fun _ _ _ hholder _ => hholder, hfilling, hdone⟩

/-- A command that leaves the world alone. -/
theorem Inv.look (h : Inv plan seed initial temp v) (e : Event Action.Reply) :
    Inv plan seed initial temp (v.after v.state e) ∧
      Moves plan seed initial e.thread v (v.after v.state e) :=
  h.turn v.state e ⟨rfl, rfl⟩ h.stage (fun _ _ => id) id

/-- A command that changes the run's own temporary file, and the state file perhaps. -/
theorem Inv.setTemp {content : Option (Content S)} (h : Inv plan seed initial temp v) (world : World S)
    (e : Event Action.Reply) (hholder : v.state.holder tmp = some e.thread)
    (hworld : world.temp = Function.update v.state.temp tmp content ∧ world.holder = v.state.holder)
    (hstate : world.state = v.state.state ∧ world.filling = v.state.filling ∨
      v.state.filling = none ∧ Done plan seed initial world) :
    Inv plan seed initial temp (v.after world e) ∧ Moves plan seed initial e.thread v (v.after world e) := by
  obtain ⟨htemps, hholders⟩ := hworld
  have hstage : Stage plan seed initial world ∧
      (∀ other, other ≠ e.thread → v.state.filling = some other → world.filling = some other) ∧
      (Done plan seed initial v.state → Done plan seed initial world) := by
    obtain ⟨state, filling, temps, holder⟩ := world
    rcases hstate with ⟨rfl, rfl⟩ | ⟨hnone, hdone⟩
    · have hdone : Done plan seed initial v.state →
          Done plan seed initial ⟨v.state.state, v.state.filling, temps, holder⟩ :=
        fun hdone => ⟨hdone.filling, hdone.state⟩
      refine ⟨?_, fun _ _ => id, hdone⟩
      cases h.stage with
      | first hstate hfilling => exact .first hstate hfilling
      | filling hnone thread hfilling hstate => exact .filling hnone thread hfilling hstate
      | done hdone' => exact .done (hdone hdone')
    · refine ⟨.done hdone, fun other _ hfilling => ?_, fun _ => hdone⟩
      rw [hnone] at hfilling
      cases hfilling
  obtain ⟨hstage, hfilling, hdone⟩ := hstage
  have hother : ∀ other, other ≠ tmp → world.temp other = v.state.temp other := fun other hne => by
    rw [htemps, Function.update_of_ne hne]
  have hholders' : ∀ other, world.holder other = v.state.holder other := congrFun hholders
  refine ⟨⟨hstage, fun other hforeign => ?_, fun other hnew hthere => ?_, fun other thread hmade => ?_⟩,
    ⟨e, rfl, rfl⟩, fun other thread hne hheld => ?_, fun other thread hne hheld _ => ?_, hfilling, hdone⟩
  · obtain ⟨hnone, hsame⟩ := h.foreign other hforeign
    have hne : other ≠ tmp := by
      intro heq
      rw [heq, hholder] at hnone
      cases hnone
    exact ⟨(hholders' other).trans hnone, (hother other hne).trans hsame⟩
  · show ∃ thread, world.holder other = some thread
    rw [hholders]
    by_cases hne : other = tmp
    · exact ⟨e.thread, hne ▸ hholder⟩
    · refine h.held other hnew ?_
      rw [← hother other hne]
      exact hthere
  · exact List.mem_append_left _ (h.made other thread ((hholders' other).symm.trans hmade))
  · have hbefore : v.state.holder other = some thread := (hholders' other).symm.trans hheld
    have hne' : other ≠ tmp := by
      intro heq
      rw [heq, hholder, Option.some.injEq] at hbefore
      exact hne hbefore.symm
    exact ⟨hbefore, hother other hne'⟩
  · exact (hholders' other).trans hheld

theorem Inv.make (h : Inv plan seed initial temp v) (e : Event Action.Reply)
    (hfree : v.state.temp tmp = none) (hmade : Made e.thread tmp [e]) :
    Inv plan seed initial temp (v.after (v.state.make e.thread tmp) e) ∧
      Moves plan seed initial e.thread v (v.after (v.state.make e.thread tmp) e) := by
  have hholder : ∀ other, other ≠ tmp → (v.state.make e.thread tmp).holder other = v.state.holder other :=
    fun other hne => Function.update_of_ne hne ..
  have htemp : ∀ other, other ≠ tmp → (v.state.make e.thread tmp).temp other = v.state.temp other :=
    fun other hne => Function.update_of_ne hne ..
  have hself : (v.state.make e.thread tmp).holder tmp = some e.thread := Function.update_self ..
  have hstage : Stage plan seed initial (v.state.make e.thread tmp) := by
    cases h.stage with
    | first hstate hfilling => exact .first hstate hfilling
    | filling hnone thread hfilling hstate => exact .filling hnone thread hfilling hstate
    | done hdone => exact .done ⟨hdone.filling, hdone.state⟩
  refine ⟨⟨hstage, fun other hforeign => ?_, fun other hnew hthere => ?_, fun other thread hheld => ?_⟩,
    ⟨e, rfl, rfl⟩, fun other thread hne hheld => ?_, fun other thread hne hheld hthere => ?_,
    fun _ _ => id, fun hdone => ⟨hdone.filling, hdone.state⟩⟩
  · obtain ⟨hnone, hsame⟩ := h.foreign other hforeign
    have hne : other ≠ tmp := by
      intro heq
      rw [heq] at hsame hforeign
      exact hforeign (hsame.symm.trans hfree)
    exact ⟨(hholder other hne).trans hnone, (htemp other hne).trans hsame⟩
  · by_cases hne : other = tmp
    · rw [hne]
      exact ⟨e.thread, hself⟩
    · obtain ⟨thread, hthread⟩ := h.held other hnew fun hnone => hthere ((htemp other hne).trans hnone)
      exact ⟨thread, (hholder other hne).trans hthread⟩
  · by_cases hne : other = tmp
    · have hthread : some e.thread = some thread :=
        hself.symm.trans ((congrArg (v.state.make e.thread tmp).holder hne.symm).trans hheld)
      cases hthread
      rw [hne]
      exact List.mem_append_right _ hmade
    · exact List.mem_append_left _ (h.made other thread ((hholder other hne).symm.trans hheld))
  · have hne' : other ≠ tmp := by
      intro heq
      have hthread : some e.thread = some thread :=
        hself.symm.trans ((congrArg (v.state.make e.thread tmp).holder heq.symm).trans hheld)
      rw [Option.some.injEq] at hthread
      exact hne hthread.symm
    exact ⟨(hholder other hne').symm.trans hheld, htemp other hne'⟩
  · have hne' : other ≠ tmp := by
      intro heq
      rw [heq] at hthere
      exact hthere hfree
    exact (hholder other hne').trans hheld

theorem Drafting.setTemp {world : World S} {content content' : Content S}
    (h : Drafting thread tmp content world) :
    Drafting thread tmp content' (world.setTemp tmp (some content')) where
  temp := Function.update_self ..
  holder := h.holder
  only other hother hne := (Function.update_of_ne hne ..).trans (h.only other hother hne)

theorem Drafting.removed {content : Content S} (h : Drafting thread tmp content v.state)
    (world : World S) (e : Event Action.Reply) (htemp : world.temp = Function.update v.state.temp tmp none)
    (hholder : world.holder = v.state.holder) : Clean thread (v.after world e) := by
  intro other hother
  show world.temp other = none
  rw [htemp]
  by_cases hne : other = tmp
  · rw [hne, Function.update_self]
  · rw [Function.update_of_ne hne]
    exact h.only other ((congrFun hholder other).symm.trans hother) hne

/-! ## The run -/

theorem exists_does : Does plan seed initial temp thread (Clean thread) (get .exists)
    (fun present v => (present = false → initial = none) ∧ Clean thread v) (Clean thread) := by
  refine get_does kept_clean ?_ kept_clean fun v choice reply world hinv hv hguard hexec => ?_
  · exact fun _ other v v' hne hmoves h => ⟨h.1, kept_clean other v v' hne hmoves h.2⟩
  cases choice with
  | works =>
    cases hexec
    refine ⟨hinv.look _, fun hpresent => ?_, hv⟩
    cases hinv.stage with
    | first hstate =>
      rw [hstate, Option.isSome_map] at hpresent
      exact Option.isNone_iff_eq_none.mp (Option.isSome_eq_false_iff.mp hpresent)
    | filling hnone => exact hnone
    | done hdone =>
      obtain ⟨docs', hstate, -⟩ := hdone.state
      rw [hstate] at hpresent
      cases hpresent
  | drawn suffix => cases hexec
  | fault left => cases hexec

theorem create_does (hnone : initial = none) : Does plan seed initial temp thread (Clean thread) (get .create)
    (fun _ => Installing thread) (Clean thread) := by
  refine get_does kept_clean (fun _ => kept_installing) kept_clean
    fun v choice reply world hinv hv hguard hexec => ?_
  obtain ⟨hstate, rfl⟩ := hguard hnone
  cases hexec
  refine ⟨hinv.turn _ _ ⟨rfl, rfl⟩ (.filling hnone thread rfl rfl) (fun other _ hfilling => ?_)
    fun hdone => ?_, rfl, hv⟩
  · cases hinv.stage with
    | first _ hfirst =>
      rw [hfirst] at hfilling
      cases hfilling
    | filling _ _ _ hthere =>
      rw [hstate] at hthere
      cases hthere
    | done hdone =>
      rw [hdone.filling] at hfilling
      cases hfilling
  · obtain ⟨docs', hthere, -⟩ := hdone.state
    rw [hstate] at hthere
    cases hthere

theorem fill_does (hnone : initial = none) : Does plan seed initial temp thread (Installing thread) (get .fill)
    (fun _ v => Clean thread v ∧ Done plan seed initial v.state) (Clean thread) := by
  refine get_does kept_installing (fun _ => kept_done) kept_clean
    fun v choice reply world hinv hv hguard hexec => ?_
  obtain rfl := hguard hnone
  obtain ⟨hfilling, hclean⟩ := hv
  have hperform : perform plan seed thread v.state .fill = (reply, world) := Option.some.inj hexec
  rw [perform, if_pos hfilling] at hperform
  cases hperform
  have hdone : Done plan seed initial { v.state with state := some (.documents [seed]), filling := none } :=
    ⟨rfl, [seed], rfl, hnone ▸ rfl⟩
  refine ⟨hinv.turn _ _ ⟨rfl, rfl⟩ (.done hdone) (fun other hne hother => ?_) fun _ => hdone, hclean, hdone⟩
  rw [hfilling, Option.some.injEq] at hother
  exact absurd hother.symm hne

theorem validate_does : Does plan seed initial temp thread (Clean thread) (get .validate)
    (fun _ v => seedValidation plan seed = some true ∧ Clean thread v) (Clean thread) := by
  refine get_does kept_clean ?_ kept_clean fun v choice reply world hinv hv hguard hexec => ?_
  · exact fun _ other v v' hne hmoves h => ⟨h.1, kept_clean other v v' hne hmoves h.2⟩
  cases choice with
  | works =>
    cases hexec
    refine ⟨hinv.look _, ?_⟩
    by_cases hvalid : seedValidation plan seed = some true
    · rw [if_pos hvalid]
      exact ⟨hvalid, hv⟩
    · rw [if_neg hvalid]
      exact hv
  | drawn suffix => cases hexec
  | fault left =>
    cases hexec
    exact ⟨hinv.look _, hv⟩

theorem mktemp_does : Does plan seed initial temp thread (Clean thread) (get .mktemp)
    (fun tmp => Drafts thread tmp fun _ => True) (Clean thread) := by
  refine get_does kept_clean (fun tmp => kept_drafts) kept_clean
    fun v choice reply world hinv hv hguard hexec => ?_
  cases choice with
  | works =>
    cases hexec
    exact ⟨hinv.look _, hv⟩
  | drawn suffix =>
    obtain ⟨hfree, hmade⟩ := Option.ite_none_right_eq_some.mp hexec
    cases hmade
    have hnone : v.state.temp suffix = none :=
      Option.isNone_iff_eq_none.mp (Bool.and_eq_true_iff.mp hfree).2
    refine ⟨hinv.make ⟨thread, .mktemp, some suffix⟩ hnone (List.mem_singleton_self _), .documents [], ?_,
      trivial⟩
    refine ⟨Function.update_self .., Function.update_self .., fun other hother hne => ?_⟩
    have hbefore : v.state.holder other = some thread := (Function.update_of_ne hne ..).symm.trans hother
    exact (Function.update_of_ne hne ..).trans (hv other hbefore)
  | fault left =>
    cases hexec
    exact ⟨hinv.look _, hv⟩

theorem redirect_does : Does plan seed initial temp thread (Drafts thread tmp fun _ => True)
    (get (.redirect tmp)) (fun _ => Drafts thread tmp fun _ => True)
    (Drafts thread tmp fun _ => True) := by
  refine get_does kept_drafts (fun _ => kept_drafts) kept_drafts
    fun v choice reply world hinv hv hguard hexec => ?_
  obtain ⟨content, hdraft, -⟩ := hv
  cases choice with
  | works =>
    cases hexec
    exact ⟨hinv.setTemp _ _ hdraft.holder ⟨rfl, rfl⟩ (Or.inl ⟨rfl, rfl⟩), _, hdraft.setTemp, trivial⟩
  | drawn suffix => cases hexec
  | fault left =>
    cases hexec
    exact ⟨hinv.look _, content, hdraft, trivial⟩

theorem filter_does (hvalid : seedValidation plan seed = some true) :
    Does plan seed initial temp thread (Drafts thread tmp fun _ => True) (get (.filter tmp))
      (fun _ => Ready plan seed initial thread tmp) (Drafts thread tmp fun _ => True) := by
  refine get_does kept_drafts (fun _ => kept_ready) kept_drafts
    fun v choice reply world hinv hv hguard hexec => ?_
  obtain ⟨content, hdraft, -⟩ := hv
  cases choice with
  | works =>
    have hperform : perform plan seed thread v.state (.filter tmp) = (reply, world) := Option.some.inj hexec
    simp only [perform] at hperform
    split at hperform
    · rename_i made hmade
      cases hperform
      obtain ⟨houtcome, hdone⟩ := hinv.filtered hvalid hguard hmade
      refine ⟨hinv.setTemp _ _ hdraft.holder ⟨rfl, rfl⟩ (Or.inl ⟨rfl, rfl⟩),
        ⟨_, hdraft.setTemp, made, rfl, houtcome⟩, fun hnone => ⟨(hdone hnone).filling, (hdone hnone).state⟩⟩
    · cases hperform
      exact ⟨hinv.setTemp _ _ hdraft.holder ⟨rfl, rfl⟩ (Or.inl ⟨rfl, rfl⟩), _, hdraft.setTemp, trivial⟩
  | drawn suffix => cases hexec
  | fault left =>
    cases hexec
    exact ⟨hinv.setTemp _ _ hdraft.holder ⟨rfl, rfl⟩ (Or.inl ⟨rfl, rfl⟩), _, hdraft.setTemp, trivial⟩

theorem chmod_does : Does plan seed initial temp thread (Ready plan seed initial thread tmp)
    (get (.chmod tmp)) (fun _ => Ready plan seed initial thread tmp)
    (Ready plan seed initial thread tmp) := by
  refine get_does kept_ready (fun _ => kept_ready) kept_ready
    fun v choice reply world hinv hv hguard hexec => ?_
  cases choice with
  | works =>
    cases hexec
    exact ⟨hinv.look _, hv.drafts, hv.done⟩
  | drawn suffix => cases hexec
  | fault left =>
    cases hexec
    exact ⟨hinv.look _, hv.drafts, hv.done⟩

theorem move_does : Does plan seed initial temp thread (Ready plan seed initial thread tmp)
    (get (.move tmp)) (fun _ v => Clean thread v ∧ Done plan seed initial v.state)
    (Ready plan seed initial thread tmp) := by
  refine get_does kept_ready (fun _ => kept_done) kept_ready
    fun v choice reply world hinv hv hguard hexec => ?_
  obtain ⟨content, hdraft, docs', rfl, hfinal⟩ := hv.drafts
  cases choice with
  | works =>
    have hperform : perform plan seed thread v.state (.move tmp) = (reply, world) := Option.some.inj hexec
    simp only [perform, hdraft.temp] at hperform
    cases hperform
    have hdone : Done plan seed initial
        { v.state.setTemp tmp none with state := some (.documents docs'), filling := none } :=
      ⟨rfl, docs', rfl, hfinal⟩
    exact ⟨hinv.setTemp _ _ hdraft.holder ⟨rfl, rfl⟩ (Or.inr ⟨hinv.still hv.done, hdone⟩),
      hdraft.removed _ _ rfl rfl, hdone⟩
  | drawn suffix => cases hexec
  | fault left =>
    cases hexec
    exact ⟨hinv.look _, hv.drafts, hv.done⟩

/-- The rule of consequence for exceptions. -/
theorem Does.failing {α : Type} {body : Op α} {q : α → Moment S → Prop} {e e' : Moment S → Prop}
    (h : Does plan seed initial temp thread p body q e) (he : ∀ v, e v → e' v) :
    Does plan seed initial temp thread p body q e' :=
  Contract.Spec.weaken h (fun _ hv => hv) (fun _ _ hv => hv) fun _ v hv => he v hv

theorem Ready.undone (h : Ready plan seed initial thread tmp v) : Drafts thread tmp (fun _ => True) v := by
  obtain ⟨content, hdraft, -⟩ := h.drafts
  exact ⟨content, hdraft, trivial⟩

theorem rewrite_does (hvalid : seedValidation plan seed = some true) :
    Does plan seed initial temp thread (Drafts thread tmp fun _ => True) (rewrite tmp)
      (fun _ v => Clean thread v ∧ Done plan seed initial v.state) (Drafts thread tmp fun _ => True) :=
  .bind redirect_does fun _ => .bind (filter_does hvalid) fun _ =>
    .bind (chmod_does.failing fun _ => Ready.undone) fun _ => move_does.failing fun _ => Ready.undone

theorem discard_does {q : Unit → Moment S → Prop} :
    Does plan seed initial temp thread (Drafts thread tmp fun _ => True) (discard tmp) q (Left thread) := by
  refine .act (J := fun _ => Left thread) kept_drafts.stable ?_ fun _ =>
    .fail kept_left.stable fun _ hleft => hleft
  intro v choice reply world _ hinv ⟨content, hdraft, _⟩ hexec
  cases choice with
  | works =>
    cases hexec
    obtain ⟨hinv', hmoves⟩ := hinv.setTemp (v.state.setTemp tmp none) ⟨thread, .remove tmp, some ()⟩
      hdraft.holder ⟨rfl, rfl⟩ (Or.inl ⟨rfl, rfl⟩)
    have hclean := hdraft.removed (v.state.setTemp tmp none) ⟨thread, .remove tmp, some ()⟩ rfl rfl
    exact ⟨hinv', hmoves, hclean.left⟩
  | drawn suffix => cases hexec
  | fault left =>
    cases hexec
    obtain ⟨hinv', hmoves⟩ := hinv.look ⟨thread, .remove tmp, none⟩
    refine ⟨hinv', hmoves, fun other hother => ?_⟩
    by_cases hne : other = tmp
    · rw [hne]
      exact Or.inr (List.mem_append_right _ (List.mem_singleton_self _))
    · exact Or.inl (hdraft.only other hother hne)

theorem reconcile_does : Does plan seed initial temp thread (Clean thread) reconcile
    (fun _ v => Clean thread v ∧ Done plan seed initial v.state) (Left thread) := by
  refine .bind (exists_does.failing fun _ => Clean.left) fun present v ⟨hpresent, hclean⟩ => ?_
  cases present with
  | true =>
    refine Contract.Spec.bind (validate_does.failing fun _ => Clean.left)
      (fun _ v ⟨hvalid, hclean⟩ => ?_) v hclean
    refine Contract.Spec.bind (mktemp_does.failing fun _ => Clean.left) (fun tmp => ?_) v hclean
    exact Contract.Spec.handling (rewrite_does hvalid) fun _ => discard_does
  | false =>
    have hnone := hpresent rfl
    exact Contract.Spec.bind ((create_does hnone).failing fun _ => Clean.left)
      (fun _ => (fill_does hnone).failing fun _ => Clean.left) v hclean

end

def cursorPlan : Plan where
  toJsonFieldReconciliation := cursorStateAdapter.reconciliation.get rfl
  identifier := by decide +kernel

def exampleSeed : Document Str := .object [
  (str "sandbox", .object [(str "networkAccess", .scalar (str "user_config_only"))]),
  (str "permissions", .object [(str "deny", .scalar (str "Shell(sudo)"))])]

def exampleState : Document Str := .object [
  (str "permissions", .object [(str "deny", .null)]),
  (str "approvalMode", .scalar (str "allowlist"))]

theorem update_spec_cursor : ∃ doc, update cursorPlan exampleSeed exampleState = some doc ∧
    (∀ path ∈ managed cursorPlan, getpath path doc = getpath path exampleSeed) ∧
    getpath [str "approvalMode"] doc = getpath [str "approvalMode"] exampleState ∧
    update cursorPlan exampleSeed doc = some doc := by
  have hvalid : seedValidation cursorPlan exampleSeed = some true := by decide +kernel
  have hsome : (update cursorPlan exampleSeed exampleState).isSome = true := by decide +kernel
  obtain ⟨doc, hdoc⟩ := Option.isSome_iff_exists.mp hsome
  obtain ⟨-, hends⟩ := update_spec cursorPlan exampleSeed exampleState hvalid
  obtain ⟨hmanaged, hother, hagain⟩ := hends doc hdoc
  refine ⟨doc, hdoc, hmanaged, hother _ ?_, hagain⟩
  unfold Jq.Apart
  decide +kernel

def isEmptyFile (content : Option (Content S)) : Bool :=
  match content with
  | some (.documents []) => true
  | _ => false

/-- The second run finds the file that the first one has created and not written, makes nothing of it,
and puts this in its place. Both succeed. -/
theorem racing_installs :
    ∃ c, (machine cursorPlan exampleSeed).Reaches (fun _ _ _ _ => True) (pool none fun _ => none) c ∧
      c.programs 0 = .ret () ∧ c.programs 1 = .ret () ∧ isEmptyFile c.state.state = true := by
  have hrun : ((machine cursorPlan exampleSeed).run (fun _ _ _ _ => true) (pool none fun _ => none)
      ([(0, .works), (0, .works), (1, .works), (1, .works), (1, .drawn (str "b3T1x1"))] ++
        List.replicate 4 (1, .works) ++ [(0, .works)])).map (fun c =>
          ((c.programs 0).value?, (c.programs 1).value?, isEmptyFile c.state.state)) =
      some (some (), some (), true) := by decide +kernel
  obtain ⟨c, hreaches, hends⟩ := Machine.exists_of_guarded_run (fun _ _ _ _ _ => trivial) hrun
  simp only [Prod.mk.injEq, Program.value?_eq_some_iff] at hends
  exact ⟨c, hreaches, hends⟩

end AgentDev.Reconciliation
