import AgentDev.Providers.Script

/-!
# What the migration script does

`migrateFrom` is the migration of an adapter's volumes as a program over the actions of the utilities.
The migration script is this program, whatever the texts of the adapter are, as long as the names that
it assigns are names to the shell (`runScript_migrationScript`).
-/

namespace AgentDev.Providers

open Python Interleaving Shell Agents

variable {D : Type}

/-! ## The program -/

/-- A command that ends the script if it fails. -/
def require (process : Process D Bool) : Process D Unit :=
  process.bind fun ok => if ok then .ret () else .fail (.exited 1)

def copyLegacy (layout : StateVolumeLayout) : Option Str → Process D Unit
  | none => .ret ()
  | some path =>
    (call (.isDirectory (legacyPath path))).bind fun isDirectory =>
      if isDirectory then require (copyAll (legacyPath path) layout.stagingTarget) else .ret ()

def removeAll (layout : StateVolumeLayout) : List Str → Process D Unit
  | [] => .ret ()
  | relative :: rest =>
    (require (call (.remove layout.stagingTarget relative))).bind fun _ => removeAll layout rest

/-- The migration of an empty volume. -/
def fill (layout : StateVolumeLayout) : Process D Unit :=
  (copyLegacy layout layout.legacyPath).bind fun _ =>
    (removeAll layout layout.cleanupAfterCopy).bind fun _ =>
      require (call (.create layout.stagingTarget layout.marker))

def migrateLayout (index : Nat) (layout : StateVolumeLayout) : Process D Unit :=
  (call (.present layout.stagingTarget layout.marker)).bind fun present =>
    if present then .ret ()
    else (call (.first layout.stagingTarget)).bind fun entry =>
      if entry.isSome then .fail (.exited ((2 + index) % 256)) else fill layout

def migrateFrom : Nat → List StateVolumeLayout → Process D Unit
  | _, [] => .ret ()
  | index, layout :: rest =>
    (migrateLayout index layout).bind fun _ => migrateFrom (index + 1) rest

/-- Markers and cleanup paths are plain file names. -/
structure PlainNames (layout : StateVolumeLayout) : Prop where
  marker : slash ∉ layout.marker
  cleanup : ∀ relative ∈ layout.cleanupAfterCopy, slash ∉ relative

instance (layout : StateVolumeLayout) : Decidable (PlainNames layout) :=
  decidable_of_iff (slash ∉ layout.marker ∧ ∀ relative ∈ layout.cleanupAfterCopy, slash ∉ relative)
    ⟨fun h => ⟨h.1, h.2⟩, fun h => ⟨h.marker, h.cleanup⟩⟩

/-- Neither of the paths leads into the other. -/
def Outside (path other : Str) : Prop :=
  ¬pathParts path <+: pathParts other ∧ ¬pathParts other <+: pathParts path

instance (path other : Str) : Decidable (Outside path other) := inferInstanceAs (Decidable (_ ∧ _))

/-- The legacy volume is another one, no staging target lies in another one, in `/legacy` or above it, and
none hides the utilities. -/
structure Separate (box : Container D) (adapter : ProviderStateAdapter) : Prop where
  legacy : ∀ layout ∈ adapter.volumes, adapter.legacyVolume ≠ some layout.mount.source
  volumes : (str "/legacy" :: adapter.volumes.map fun layout => layout.stagingTarget).Pairwise Outside
  tools : ∀ layout ∈ adapter.volumes, ∀ tool ∈ box.tools,
    ¬pathParts layout.stagingTarget <+: pathParts tool

instance (box : Container D) (adapter : ProviderStateAdapter) : Decidable (Separate box adapter) :=
  decidable_of_iff
    ((∀ layout ∈ adapter.volumes, adapter.legacyVolume ≠ some layout.mount.source) ∧
      (str "/legacy" :: adapter.volumes.map fun layout => layout.stagingTarget).Pairwise Outside ∧
      ∀ layout ∈ adapter.volumes, ∀ tool ∈ box.tools,
        ¬pathParts layout.stagingTarget <+: pathParts tool)
    ⟨fun h => ⟨h.1, h.2.1, h.2.2⟩, fun h => ⟨h.legacy, h.volumes, h.tools⟩⟩

theorem Separate.nodup {box : Container D} {adapter : ProviderStateAdapter} (h : Separate box adapter) :
    (adapter.volumes.map fun layout => layout.stagingTarget).Nodup := by
  refine (List.pairwise_cons.mp h.volumes).2.imp fun {path other} houtside heq => ?_
  subst heq
  exact houtside.1 List.prefix_rfl

/-! ## Commands of the script -/

/-- The command does what the process does, and keeps the variables. -/
def Does (st : State) (command : Command) (process : Process D Unit) : Prop :=
  eval utilities false command st = process.bind fun _ => .ret (0, st)

def DoesAll (st : State) (commands : List Command) (process : Process D Unit) : Prop :=
  evalAll utilities false commands (0, st) = process.bind fun _ => .ret (0, st)

/-- The condition holds as the process tells. -/
def Tells (st : State) (condition : Command) (process : Process D Bool) : Prop :=
  eval utilities true condition st = process.bind fun holds => .ret (if holds then 0 else 1, st)

variable {st : State} {index : Nat} {layout : StateVolumeLayout}

theorem doesAll_nil : DoesAll st [] (.ret () : Process D Unit) := rfl

theorem Does.cons {command : Command} {commands : List Command} {process process' : Process D Unit}
    (h : Does st command process) (h' : DoesAll st commands process') :
    DoesAll st (command :: commands) (process.bind fun _ => process') := by
  unfold DoesAll
  rw [evalAll, h, Program.bind_assoc, Program.bind_assoc]
  exact congrArg _ (funext fun _ => h')

theorem DoesAll.append {commands commands' : List Command} {process process' : Process D Unit}
    (h : DoesAll st commands process) (h' : DoesAll st commands' process') :
    DoesAll st (commands ++ commands') (process.bind fun _ => process') := by
  unfold DoesAll
  rw [evalAll_append, h, Program.bind_assoc, Program.bind_assoc]
  exact congrArg _ (funext fun _ => h')

theorem does_ifThen {condition : Command} {commands : List Command} {process : Process D Bool}
    {process' : Process D Unit} (h : Tells st condition process) (h' : DoesAll st commands process') :
    Does st (.ifThen (sequence [condition]) (sequence commands))
      (process.bind fun holds => if holds then process' else .ret ()) := by
  unfold Does
  rw [eval, eval_sequence, evalAll, h, Program.bind_assoc, Program.bind_assoc, Program.bind_assoc]
  refine congrArg _ (funext fun holds => ?_)
  cases holds with
  | false => rfl
  | true =>
    show eval utilities false (sequence commands) st = _
    rw [eval_sequence]
    exact h'

/-- With `-e`, a command whose status is not 0 ends the script. -/
theorem does_simple (herrexit : st.errexit = true) {command : Simple} {process : Process D Bool}
    (h : runSimple utilities st command = process.bind fun ok => .ret (if ok then 0 else 1, st)) :
    Does st (.simple command) (require process) := by
  unfold Does require
  rw [eval, h, Program.bind_assoc, Program.bind_assoc]
  refine congrArg _ (funext fun ok => ?_)
  show settle false (_, st) = _
  unfold settle
  cases ok <;> simp [herrexit] <;> rfl

theorem tells_simple {command : Simple} {process : Process D Bool}
    (h : runSimple utilities st command = process.bind fun ok => .ret (if ok then 0 else 1, st)) :
    Tells st (.simple command) process := by
  unfold Tells
  rw [eval, h, Program.bind_assoc]
  refine congrArg _ (funext fun ok => ?_)
  exact settle_checked _

/-- A command that is a utility. -/
theorem runSimple_utility {word : Word} {words : List Word} (name : Str) (arguments : List Str)
    (hassignment : assignment? word = none) (happending : isAppending word = false)
    (hexpand : (word :: words).mapM (expand st) = some (name :: arguments)) (hname : name ∉ builtins) :
    runSimple (utilities (D := D)) st ⟨word :: words, []⟩ =
      (utilities.run name arguments []).bind fun result => .ret (result.1, st) := by
  unfold runSimple
  simp only [hassignment, happending, hexpand]
  unfold runCommand
  simp only [openRedirects, Program.bind, List.any_nil, Bool.and_false, Bool.not_true, hname]
  rfl

theorem does_remove (herrexit : st.errexit = true) {relative : Str} (h : slash ∉ relative) :
    Does st (removeCommandRead layout relative)
      (require (call (.remove layout.stagingTarget relative)) : Process D Unit) := by
  apply does_simple herrexit
  rw [runSimple_utility (str "rm") [str "-f", layout.stagingTarget ++ slash :: relative] rfl rfl
    (by simp [List.mapM_cons, expand_bare, expand_quotedWord]) (by decide), run_rm]
  simp only [rm, if_true, Program.bind_assoc]
  exact apply_path h fun dir name => Program.bind (call (.remove dir name) : Process D Bool) _

theorem does_create (herrexit : st.errexit = true) (h : slash ∉ layout.marker)
    (hvariable : st.bindings.lookup (markerVar index layout) = some (markerPath layout)) :
    Does st (createCommandRead index layout)
      (require (call (.create layout.stagingTarget layout.marker)) : Process D Unit) := by
  apply does_simple herrexit
  have hexpand : expand st [.variable (markerVar index layout)] = some (markerPath layout) := by
    simp [expand, expandPiece, hvariable]
  have hcreate : utilities.create (markerPath layout) =
      (call (.create layout.stagingTarget layout.marker) : Process D Bool) := by
    show call (.create (dirName (markerPath layout)) (baseName (markerPath layout))) = _
    rw [markerPath, dirName_path h, baseName_path h]
  show runCommand utilities st (str ":") [] [.toFile [.variable (markerVar index layout)]] = _
  unfold runCommand
  simp only [openRedirects, hexpand, hcreate, Program.bind_assoc]
  show (call _).bind _ = _
  refine congrArg _ (funext fun created => ?_)
  cases created <;> rfl

theorem tells_test (path : Str) :
    Tells st (.simple ⟨[bare (str "["), bare (str "-d"), quotedWord path, bare (str "]")], []⟩)
      (call (.isDirectory path) : Process D Bool) := by
  apply tells_simple
  rw [runSimple_utility (str "[") [str "-d", path, str "]"] rfl rfl
    (by simp [List.mapM_cons, expand_bare, expand_quotedWord]) (by decide), run_bracket]
  simp only [bracket, and_self, if_true, Program.bind_assoc]
  rfl

theorem does_cp (herrexit : st.errexit = true) (source target : Str) :
    Does st (.simple ⟨[bare (str "cp"), bare (str "-a"), quotedWord source ++ bare (str "/."),
        quotedWord target ++ bare (str "/")], []⟩)
      (require (copyAll source target) : Process D Unit) := by
  apply does_simple herrexit
  have hsource : (source ++ str "/.").take ((source ++ str "/.").length - 2) = source := by
    have hlength : (source ++ str "/.").length - 2 = source.length := by
      rw [List.length_append]
      rfl
    rw [hlength, List.take_left]
  have htarget : (target ++ str "/").dropLast = target := List.dropLast_concat
  rw [runSimple_utility (str "cp") [str "-a", source ++ str "/.", target ++ str "/"] rfl rfl
    (by simp [List.mapM_cons, expand_bare, expand_append, expand_quotedWord]) (by decide), run_cp]
  simp only [cp, List.suffix_append, and_self, if_true, Program.bind_assoc, hsource, htarget]
  rfl

theorem does_copy (herrexit : st.errexit = true) (path : Str) :
    Does st (copyCommandRead layout path) (copyLegacy layout (some path) : Process D Unit) := by
  have hcp := (does_cp (D := D) herrexit (legacyPath path) layout.stagingTarget).cons doesAll_nil
  rw [Program.bind_ret] at hcp
  exact does_ifThen (tells_test (legacyPath path)) hcp

theorem find_entry (dir name : Str) :
    (dir ++ slash :: name ++ str "\n").any (· ≠ ord '\n') = true := by
  rw [List.any_eq_true]
  exact ⟨slash, by simp, by decide⟩

/-- Whether the volume has an entry. -/
theorem tells_find (dir : Str) :
    Tells st (.pipe
        ⟨bare (str "find") :: quotedWord dir ::
          ["-mindepth", "1", "-maxdepth", "1", "-print", "-quit"].map (bare ∘ str), []⟩
        ⟨["grep", "-q", "."].map (bare ∘ str), []⟩)
      ((call (.first dir)).bind fun entry => .ret entry.isSome : Process D Bool) := by
  have hfind : (bare (str "find") :: quotedWord dir ::
      ["-mindepth", "1", "-maxdepth", "1", "-print", "-quit"].map (bare ∘ str)).mapM (expand st) =
      some (str "find" :: dir :: ["-mindepth", "1", "-maxdepth", "1", "-print", "-quit"].map str) := by
    simp [List.mapM_cons, expand_bare, expand_quotedWord]
  have hgrep : (["grep", "-q", "."].map (bare ∘ str)).mapM (expand st) =
      some (str "grep" :: ["-q", "."].map str) := by
    simp [List.mapM_cons, expand_bare]
  have hright : ∀ input, runSide utilities st ⟨["grep", "-q", "."].map (bare ∘ str), []⟩ input =
      (.ret (status (input.any (· ≠ ord '\n'))) : Process D (Nat × Str)) := by
    intro input
    unfold runSide
    rw [hgrep]
    rfl
  unfold Tells
  rw [eval]
  simp only [hright]
  unfold runSide
  rw [hfind]
  show ((utilities.run (str "find") _ []).bind _ : Process D (Nat × State)) = _
  rw [run_find]
  simp only [find, if_true, Program.bind_assoc]
  refine congrArg _ (funext fun entry => ?_)
  cases entry with
  | none => exact settle_checked _
  | some name =>
    have hany := find_entry dir name
    simp only [Program.bind, Option.elim_some, hany, settle_checked]
    rfl

theorem does_echo (text : Str) :
    Does st (.simple ⟨[bare (str "echo"), quotedWord text], [.toDescriptor (bare (str "2"))]⟩)
      (.ret () : Process D Unit) := by
  have hexpand : [bare (str "echo"), quotedWord text].mapM (expand st) = some [str "echo", text] := by
    simp [List.mapM_cons, expand_bare, expand_quotedWord]
  have hrun : runSimple utilities st
      ⟨[bare (str "echo"), quotedWord text], [.toDescriptor (bare (str "2"))]⟩ =
      (.ret (0, st) : Process D (Nat × State)) := by
    rw [runSimple_of_expand utilities rfl rfl hexpand]
    rfl
  unfold Does
  rw [eval, hrun]
  simp [Program.bind, settle]

theorem does_exit (n : Nat) :
    Does st (.simple ⟨[bare (str "exit"), bare (natRepr n)], []⟩)
      (.fail (.exited (n % 256)) : Process D Unit) := by
  have hexpand : [bare (str "exit"), bare (natRepr n)].mapM (expand st) =
      some [str "exit", natRepr n] := by
    simp [List.mapM_cons, expand_bare]
  have hrun : runSimple utilities st ⟨[bare (str "exit"), bare (natRepr n)], []⟩ =
      (.fail (.exited (n % 256)) : Process D (Nat × State)) := by
    rw [runSimple_of_expand utilities rfl rfl hexpand]
    show runBuiltin st (str "exit") [natRepr n] = _
    have hdigits : natRepr n ≠ [] ∧ (natRepr n).all isDigit = true :=
      ⟨natRepr_ne_nil n, List.all_eq_true.mpr (natRepr_digits n)⟩
    show (if natRepr n ≠ [] ∧ (natRepr n).all isDigit then _ else _) = _
    rw [if_pos hdigits, natOfDigits_natRepr]
  unfold Does
  rw [eval, hrun]
  rfl

/-! ## The script -/

/-- What the empty check of a volume does. -/
def checkEmpty (index : Nat) (layout : StateVolumeLayout) : Process D Unit :=
  (call (.first layout.stagingTarget)).bind fun entry =>
    if entry.isSome then .fail (.exited ((2 + index) % 256)) else .ret ()

theorem does_checkEmpty (index : Nat) (layout : StateVolumeLayout) :
    Does st (emptyCheckCommand index layout) (checkEmpty index layout : Process D Unit) := by
  have hexit : DoesAll st _ _ := (does_exit (D := D) (2 + index)).cons doesAll_nil
  have hbody := (does_echo layout.emptyError).cons hexit
  have hif := does_ifThen (tells_find (D := D) layout.stagingTarget) hbody
  rw [Program.bind_assoc] at hif
  exact hif

theorem does_copies (herrexit : st.errexit = true) (layout : StateVolumeLayout)
    (path : Option Str) :
    DoesAll st (path.toList.map (copyCommandRead layout)) (copyLegacy layout path : Process D Unit) := by
  cases path with
  | none => exact doesAll_nil
  | some path =>
    have hcopy : DoesAll st [copyCommandRead layout path] _ :=
      (does_copy (D := D) herrexit path).cons doesAll_nil
    rw [Program.bind_ret] at hcopy
    exact hcopy

theorem does_removeAll (herrexit : st.errexit = true) (layout : StateVolumeLayout)
    (relatives : List Str)
    (h : ∀ relative ∈ relatives, slash ∉ relative) :
    DoesAll st (relatives.map (removeCommandRead layout))
      (removeAll layout relatives : Process D Unit) := by
  induction relatives with
  | nil => exact doesAll_nil
  | cons relative rest ih =>
    exact (does_remove herrexit (h relative List.mem_cons_self)).cons
      (ih fun name hname => h name (List.mem_cons_of_mem _ hname))

theorem does_body (herrexit : st.errexit = true) (h : PlainNames layout)
    (hvariable : st.bindings.lookup (markerVar index layout) = some (markerPath layout)) :
    DoesAll st (bodyCommands index layout)
      ((checkEmpty index layout).bind fun _ => fill layout : Process D Unit) := by
  have hcreate := (does_create (D := D) herrexit h.marker hvariable).cons doesAll_nil
  rw [Program.bind_ret] at hcreate
  have hall := (((does_checkEmpty (D := D) index layout).cons
    (does_copies herrexit layout layout.legacyPath)).append
    (does_removeAll herrexit layout layout.cleanupAfterCopy h.cleanup)).append hcreate
  rw [Program.bind_assoc, Program.bind_assoc] at hall
  exact hall

theorem tells_absent (h : slash ∉ layout.marker)
    (hvariable : st.bindings.lookup (markerVar index layout) = some (markerPath layout)) :
    Tells st (.simple ⟨[bare (str "["), bare (str "!"), bare (str "-e"),
        [.variable (markerVar index layout)], bare (str "]")], []⟩)
      ((call (.present layout.stagingTarget layout.marker)).bind fun present => .ret (!present) :
        Process D Bool) := by
  apply tells_simple
  have hexpand : expand st [.variable (markerVar index layout)] = some (markerPath layout) := by
    simp [expand, expandPiece, hvariable]
  rw [runSimple_utility (str "[") [str "!", str "-e", markerPath layout, str "]"] rfl rfl
    (by simp [List.mapM_cons, expand_bare, hexpand]) (by decide), run_bracket]
  simp only [bracket, and_self, if_true, Program.bind_assoc]
  exact apply_path h fun dir name => Program.bind (call (.present dir name) : Process D Bool) _

theorem evalAll_part (herrexit : st.errexit = true) (h : PlainNames layout)
    (hname : isIdentifier (markerVar index layout) = true) :
    ∃ st', st'.errexit = true ∧ evalAll utilities false (partCommands index layout) (0, st) =
      (migrateLayout index layout : Process D Unit).bind fun _ => .ret (0, st') := by
  have hassign : eval utilities false (assignCommand index layout) st =
      (.ret (0, st.assign (markerVar index layout) (markerPath layout)) :
        Process D (Nat × State)) := by
    have hword := assignment?_bare hname (quotedWord (markerPath layout))
    have hrun : runSimple utilities st
        ⟨[bare (markerVar index layout ++ str "=") ++ quotedWord (markerPath layout)], []⟩ =
        (.ret (0, st.assign (markerVar index layout) (markerPath layout)) :
          Process D (Nat × State)) := by
      unfold runSimple
      simp only [hword, expand_quotedWord]
      rfl
    rw [assignCommand, eval, hrun]
    simp [Program.bind, settle]
  have hvariable : (st.assign (markerVar index layout) (markerPath layout)).bindings.lookup
      (markerVar index layout) = some (markerPath layout) := by
    simp [State.assign]
  refine ⟨st.assign (markerVar index layout) (markerPath layout), herrexit, ?_⟩
  have hif := (does_ifThen (tells_absent (D := D) h.marker hvariable)
    (does_body herrexit h hvariable)).cons doesAll_nil
  rw [Program.bind_ret, Program.bind_assoc] at hif
  have hmigrate : (migrateLayout index layout : Process D Unit) =
      (call (.present layout.stagingTarget layout.marker)).bind fun present =>
        (.ret (!present) : Process D Bool).bind fun absent =>
          if absent then (checkEmpty index layout).bind fun _ => fill layout else .ret () := by
    unfold migrateLayout checkEmpty
    refine congrArg _ (funext fun present => ?_)
    cases present with
    | true => rfl
    | false =>
      show (call (.first layout.stagingTarget)).bind _ =
        (((call (.first layout.stagingTarget)).bind _).bind _ : Process D Unit)
      rw [Program.bind_assoc]
      refine congrArg (Program.bind _) (funext fun entry => ?_)
      cases entry <;> rfl
  unfold partCommands
  rw [evalAll, hassign, hmigrate]
  exact hif

theorem evalAll_parts (herrexit : st.errexit = true) (layouts : List StateVolumeLayout)
    (hplain : ∀ layout ∈ layouts, PlainNames layout)
    (hname : ∀ name ∈ assigned index layouts, isIdentifier name = true) :
    ∃ st', evalAll utilities false (scriptCommands index layouts) (0, st) =
      (migrateFrom index layouts : Process D Unit).bind fun _ => .ret (0, st') := by
  induction layouts generalizing index st with
  | nil => exact ⟨st, rfl⟩
  | cons layout rest ih =>
    obtain ⟨mid, hmid, hfirst⟩ := evalAll_part (D := D) herrexit
      (hplain layout List.mem_cons_self) (hname _ List.mem_cons_self)
    obtain ⟨st', hrest⟩ := ih hmid (fun layout h => hplain layout (List.mem_cons_of_mem _ h))
      fun name h => hname name (List.mem_cons_of_mem _ h)
    refine ⟨st', ?_⟩
    rw [scriptCommands, evalAll_append, hfirst, Program.bind_assoc, migrateFrom, Program.bind_assoc]
    exact congrArg _ (funext fun _ => hrest)

/-- The script is the migration, if the names that it assigns are names to the shell. -/
theorem runScript_migrationScript {adapter : ProviderStateAdapter}
    (hplain : ∀ layout ∈ adapter.volumes, PlainNames layout)
    (hname : ∀ name ∈ assigned 0 adapter.volumes, isIdentifier name = true) :
    runScript utilities (migrationScript adapter) =
      ((migrateFrom 0 adapter.volumes).bind fun _ => .ret 0 : Process D Nat) := by
  obtain ⟨read, hends, hparse⟩ := parse_migrationScript hname
  have herrexit : (⟨[], true, true⟩ : State).errexit = true := rfl
  obtain ⟨st', hparts⟩ := evalAll_parts (D := D) herrexit adapter.volumes hplain hname
  rw [runScript_eq hends hparse]
  show ((evalAll utilities false (scriptCommands 0 adapter.volumes) (0, ⟨[], true, true⟩)).bind _ :
    Process D Nat) = _
  rw [hparts, Program.bind_assoc]
  rfl

end AgentDev.Providers
