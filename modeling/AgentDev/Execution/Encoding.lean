import AgentDev.Execution.Targets
import AgentDev.Options.Reading
import AgentDev.Python.Decimals
import AgentDev.Python.JsonNumbers

/-!
# Plans as command lines

What `podman run` reads in the arguments of a plan. They say what the plan says, and nothing else,
exactly if no source or target of its mounts has a colon, its image is no option, and its numbers can be
written (`encoding_iff`).
-/

namespace AgentDev.Execution

open Python Policy Agents Options

/-! ## What podman reads -/

inductive Setting
  | flag (name : Str)
  | value (name value : Str)
  | volume (source target mode : Str)
  | variable (name value : Str)

/-- `SOURCE:TARGET:MODE` -/
def readVolume (text : Str) : Option Setting :=
  match text.splitOn 58 with
  | [source, target, mode] => some (.volume source target mode)
  | _ => none

def readSetting (name : Str) (value : Option Str) : Option Setting :=
  if name = str "-v" then value.bind readVolume
  else if name = str "-e" then
    value.map fun text => .variable (splitAtEquals text).1 (splitAtEquals text).2
  else
    some (match value with
      | some text => .value name text
      | none => .flag name)

/-- The options of `podman run`: of those that no plan uses, `other` tells which ones take a value. -/
def podmanRun (other : Str → Bool) : Grammar Setting where
  takesNext name :=
    name ∈ [str "--tmpfs", str "--user", str "-v", str "-w", str "-e"] ||
      (name ∉ [str "--rm", str "--read-only"] && other name)
  setting := readSetting

/-- `podman run ...` -/
def readPodman (other : Str → Bool) (argv : List Str) : Option (Reading Setting) :=
  if argv.take 2 = [str "podman", str "run"] then (podmanRun other).read (argv.drop 2) else none

/-! ## Numbers -/

/-- `str` of a number. An integer of too many digits has none: that is a `ValueError`. -/
def numberText? (floats : Json.FloatText) : Value → Option Str
  | .int n => (Json.intRepr n).toOption
  | .float (.finite q) => some (floats.repr q)
  | .float (.inf negative) => some (if negative then str "-inf" else str "inf")
  | .float .nan => some (str "nan")
  | _ => none

def numberText (floats : Json.FloatText) (value : Value) : Str := (numberText? floats value).getD []

/-- The number that has the text. -/
def readNumber (floats : Json.FloatText) (text : Str) : Option Value :=
  if text = str "inf" then some (.float (.inf false))
  else if text = str "-inf" then some (.float (.inf true))
  else if text = str "nan" then some (.float .nan)
  else (Json.scanNumber floats text).toOption.map (·.1)

/-- A number that Python has. -/
def IsNumber : Value → Prop
  | .float (.finite q) => IsDouble q
  | _ => True

section

variable {floats : Json.FloatText}

/-- No number has the text of a float that is none. -/
theorem numeral_ne {text : Str} (h : Json.Numeral text) :
    text ≠ str "inf" ∧ text ≠ str "-inf" ∧ text ≠ str "nan" := by
  obtain ⟨c, tail, rfl, hbegin⟩ := h
  refine ⟨?_, ?_, ?_⟩
  · intro htext
    obtain ⟨rfl, -⟩ : c = ord 'i' ∧ tail = str "nf" := List.cons.inj htext
    rcases hbegin with hdigit | ⟨hminus, -⟩
    · exact absurd hdigit (by decide)
    · exact absurd hminus (by decide)
  · intro htext
    obtain ⟨rfl, rfl⟩ : c = ord '-' ∧ tail = str "inf" := List.cons.inj htext
    rcases hbegin with hdigit | ⟨-, d, rest, hrest, hdigit⟩
    · exact absurd hdigit (by decide)
    · obtain ⟨hd, -⟩ : ord 'i' = d ∧ str "nf" = rest := List.cons.inj hrest
      rw [← hd] at hdigit
      exact absurd hdigit (by decide)
  · intro htext
    obtain ⟨rfl, -⟩ : c = ord 'n' ∧ tail = str "an" := List.cons.inj htext
    rcases hbegin with hdigit | ⟨hminus, -⟩
    · exact absurd hdigit (by decide)
    · exact absurd hminus (by decide)

theorem readNumber_numeral {text : Str} {value : Value} (h : Json.Numeral text)
    (hscan : ∀ rest, Json.Ends rest → Json.scanNumber floats (text ++ rest) = .ok (value, rest)) :
    readNumber floats text = some value := by
  obtain ⟨hinf, hneg, hnan⟩ := numeral_ne h
  have hvalue := hscan [] (Json.ends_blanks (List.forall_mem_nil _))
  rw [List.append_nil] at hvalue
  rw [readNumber, if_neg hinf, if_neg hneg, if_neg hnan, hvalue]
  rfl

theorem intRepr_of_text {n : Int} {text : Str} (h : numberText? floats (.int n) = some text) :
    Json.intRepr n = .ok text := by
  have hoption : (Json.intRepr n).toOption = some text := h
  cases hn : Json.intRepr n with
  | ok written =>
    rw [hn] at hoption
    exact congrArg Except.ok (Option.some.inj hoption)
  | error error =>
    rw [hn] at hoption
    cases hoption

/-- A number is read back from its text. -/
theorem readNumber_numberText {value : Value} (hnumber : IsNumber value) {text : Str}
    (h : numberText? floats value = some text) : readNumber floats text = some value := by
  cases value with
  | int n =>
    have hrepr := intRepr_of_text h
    exact readNumber_numeral (Json.intRepr_numeral hrepr) fun rest => Json.scanNumber_int hrepr
  | float value =>
    cases value with
    | finite q =>
      obtain rfl : floats.repr q = text := Option.some.inj h
      have hliteral := floats.literal q hnumber
      apply readNumber_numeral hliteral.numeral
      intro rest hrest
      rw [Json.scanNumber_float hliteral hrest, floats.parse_repr q hnumber]
    | inf negative =>
      cases negative <;> cases h <;> rfl
    | nan =>
      cases h
      rfl
  | none | bool | str | seq | dict | other => cases h

/-- The text of an integer has no colon. -/
theorem colon_notMem_numberText (n : Int) : 58 ∉ numberText floats (.int n) := by
  have hdigits : 58 ∉ natRepr n.natAbs := by
    intro hmem
    exact absurd (natRepr_digits n.natAbs 58 hmem) (by decide)
  cases htext : numberText? floats (.int n) with
  | none =>
    rw [numberText, htext]
    exact List.not_mem_nil
  | some text =>
    rw [numberText, htext, Option.getD_some]
    have hrepr := intRepr_of_text htext
    by_cases hlong : Python.maxStrDigits < (natRepr n.natAbs).length
    · rw [Json.intRepr, if_pos hlong] at hrepr
      cases hrepr
    · rw [Json.intRepr, if_neg hlong] at hrepr
      by_cases hneg : n < 0
      · rw [if_pos hneg] at hrepr
        cases hrepr
        intro hmem
        rcases List.mem_cons.mp hmem with hminus | hmem
        · exact absurd hminus (by decide)
        · exact hdigits hmem
      · rw [if_neg hneg] at hrepr
        cases hrepr
        exact hdigits

/-- Numbers with texts are told apart by them. -/
theorem numberText_inj {value value' : Value} (hnumber : IsNumber value) (hnumber' : IsNumber value')
    (hwritten : (numberText? floats value).isSome = true)
    (hwritten' : (numberText? floats value').isSome = true)
    (h : numberText floats value = numberText floats value') : value = value' := by
  obtain ⟨text, htext⟩ := Option.isSome_iff_exists.mp hwritten
  obtain ⟨text', htext'⟩ := Option.isSome_iff_exists.mp hwritten'
  rw [numberText, numberText, htext, htext', Option.getD_some, Option.getD_some] at h
  subst h
  have hread := readNumber_numberText hnumber htext
  rw [readNumber_numberText hnumber' htext'] at hread
  exact (Option.some.inj hread).symm

end

/-! ## What a plan says -/

def modeOf (readOnly : Bool) : Str := if readOnly then str "ro" else str "rw"

def mountSetting (mount : ExecutionMount) : Setting :=
  .volume mount.source mount.target (modeOf mount.readOnly)

def isolationSettings (shown : Value → Str) (requirements : RuntimeIsolationRequirements) :
    List Setting :=
  (match requirements.uid, requirements.gid with
    | some uid, some gid => [.value (str "--user") (shown (.int uid) ++ str ":" ++ shown (.int gid))]
    | _, _ => []) ++
  (if requirements.nestedSandboxBootstrap then [.value (str "--security-opt") (str "unmask=/proc/*")]
    else [])

/-- The settings before those of the isolation. -/
def runtimeSettings (shown : Value → Str) (plan : ResolvedExecutionPlan) : List Setting :=
  [.flag (str "--rm"), .value (str "--network") plan.network.mode,
    .value (str "--http-proxy") (if plan.network.httpProxy then str "true" else str "false"),
    .flag (str "--read-only"), .value (str "--cap-drop") (str "all"),
    .value (str "--security-opt") (str "no-new-privileges"),
    .value (str "--pids-limit") (shown (.int plan.resourceLimits.pids)),
    .value (str "--memory") plan.resourceLimits.memory,
    .value (str "--cpus") (shown plan.resourceLimits.cpus),
    .value (str "--tmpfs") (str "/tmp:rw,nosuid,nodev,size=512m"),
    .value (str "--tmpfs") (str "/run:rw,nosuid,nodev,size=64m")]

def planSettings (shown : Value → Str) (plan : ResolvedExecutionPlan) : List Setting :=
  runtimeSettings shown plan ++ isolationSettings shown plan.runtimeIsolation ++
    plan.allMounts.map mountSetting ++ [.value (str "-w") plan.workingDirectory] ++
    plan.environment.map fun (name, value) => .variable name value

/-- The numbers among the arguments of a plan. -/
def planNumbers (plan : ResolvedExecutionPlan) : List Value :=
  [.int plan.resourceLimits.pids, plan.resourceLimits.cpus] ++
    (match plan.runtimeIsolation.uid, plan.runtimeIsolation.gid with
    | some uid, some gid => [.int uid, .int gid]
    | _, _ => [])

/-- The numbers of the plan can be written. -/
def Written (floats : Json.FloatText) (plan : ResolvedExecutionPlan) : Prop :=
  ∀ value ∈ planNumbers plan, (numberText? floats value).isSome = true

instance (floats : Json.FloatText) (plan : ResolvedExecutionPlan) : Decidable (Written floats plan) :=
  inferInstanceAs (Decidable (∀ value ∈ planNumbers plan, _))

/-- `execution_plan_argv(plan)`; `none` is a `ValueError`. -/
def planArgv (floats : Json.FloatText) (plan : ResolvedExecutionPlan) : Option (List Str) :=
  if Written floats plan then some (executionPlanArgv (numberText floats) plan) else none

/-- What a faithful reading of the arguments of a plan is. -/
def planReading (shown : Value → Str) (plan : ResolvedExecutionPlan) : Reading Setting :=
  ⟨planSettings shown plan, plan.image, plan.argv⟩

/-! ## Reading the parts -/

section

variable {other : Str → Bool} {shown : Value → Str}

theorem reads_value (name value : Str) {item : Str} (hitem : item = name ++ 61 :: value)
    (hdash : str "--" <+: name) (hname : 61 ∉ name) :
    (podmanRun other).Reads [item] (some [.value name value]) := by
  have hsetting : readSetting name (some value) = some (.value name value) := by
    unfold readSetting
    rw [if_neg, if_neg]
    · rintro rfl
      exact absurd hdash (by decide)
    · rintro rfl
      exact absurd hdash (by decide)
  have hreads : (podmanRun other).Reads [name ++ 61 :: value]
      ((readSetting name (some value)).map ([·])) := Grammar.Reads.joined hdash hname
  rw [hsetting, ← hitem] at hreads
  exact hreads

theorem reads_flag (name : Str) (hflag : name ∈ [str "--rm", str "--read-only"]) :
    (podmanRun other).Reads [name] (some [.flag name]) := by
  have hall : ∀ name ∈ [str "--rm", str "--read-only"], isOption name = true ∧ name ≠ str "--" ∧
      61 ∉ name ∧ name ∉ [str "--tmpfs", str "--user", str "-v", str "-w", str "-e"] := by
    decide
  obtain ⟨hoption, hdash, hname, hvalued⟩ := hall name hflag
  have htakes : (podmanRun other).takesNext name = false := by
    simp only [podmanRun, hvalued, hflag, decide_false, not_true_eq_false,
      Bool.false_and, Bool.or_false]
  have hsetting : readSetting name none = some (.flag name) := by
    unfold readSetting
    rw [if_neg, if_neg]
    · rintro rfl
      exact absurd hflag (by decide)
    · rintro rfl
      exact absurd hflag (by decide)
  have hreads : (podmanRun other).Reads [name] ((readSetting name none).map ([·])) :=
    Grammar.Reads.flag hoption hdash hname htakes
  rw [hsetting] at hreads
  exact hreads

theorem reads_next (name value : Str)
    (hname : name ∈ [str "--tmpfs", str "--user", str "-v", str "-w", str "-e"]) :
    (podmanRun other).Reads [name, value] ((readSetting name (some value)).map ([·])) := by
  have hall : ∀ name ∈ [str "--tmpfs", str "--user", str "-v", str "-w", str "-e"],
      isOption name = true ∧ name ≠ str "--" ∧ 61 ∉ name := by
    decide
  obtain ⟨hoption, hdash, hequals⟩ := hall name hname
  have htakes : (podmanRun other).takesNext name = true := by
    simp only [podmanRun, hname, decide_true, Bool.true_or]
  exact Grammar.Reads.next hoption hdash hequals htakes

theorem reads_runtime (shown : Value → Str) (plan : ResolvedExecutionPlan) :
    (podmanRun other).Reads [str "--rm", str "--network=" ++ plan.network.mode,
      str "--http-proxy=" ++ (if plan.network.httpProxy then str "true" else str "false"),
      str "--read-only", str "--cap-drop=all", str "--security-opt=no-new-privileges",
      str "--pids-limit=" ++ shown (.int plan.resourceLimits.pids),
      str "--memory=" ++ plan.resourceLimits.memory,
      str "--cpus=" ++ shown plan.resourceLimits.cpus,
      str "--tmpfs", str "/tmp:rw,nosuid,nodev,size=512m",
      str "--tmpfs", str "/run:rw,nosuid,nodev,size=64m"] (some (runtimeSettings shown plan)) := by
  refine (reads_flag (str "--rm") (by decide)).cons ?_
  refine (reads_value (str "--network") _ rfl (by decide) (by decide)).cons ?_
  refine (reads_value (str "--http-proxy") _ rfl (by decide) (by decide)).cons ?_
  refine (reads_flag (str "--read-only") (by decide)).cons ?_
  refine (reads_value (str "--cap-drop") _ rfl (by decide) (by decide)).cons ?_
  refine (reads_value (str "--security-opt") _ rfl (by decide) (by decide)).cons ?_
  refine (reads_value (str "--pids-limit") _ rfl (by decide) (by decide)).cons ?_
  refine (reads_value (str "--memory") _ rfl (by decide) (by decide)).cons ?_
  refine (reads_value (str "--cpus") _ rfl (by decide) (by decide)).cons ?_
  exact (reads_next (str "--tmpfs") (str "/tmp:rw,nosuid,nodev,size=512m") (by decide)).append
    (reads_next (str "--tmpfs") (str "/run:rw,nosuid,nodev,size=64m") (by decide))

theorem reads_isolation (shown : Value → Str) (requirements : RuntimeIsolationRequirements) :
    (podmanRun other).Reads (runtimeIsolationArgs shown requirements)
      (some (isolationSettings shown requirements)) := by
  unfold runtimeIsolationArgs isolationSettings
  apply Grammar.Reads.append_some
  · cases requirements.uid with
    | none => exact Grammar.Reads.nil _
    | some uid =>
      cases requirements.gid with
      | none => exact Grammar.Reads.nil _
      | some gid => exact reads_next (str "--user") _ (by decide)
  · split
    · exact reads_value (str "--security-opt") _ rfl (by decide) (by decide)
    · exact Grammar.Reads.nil _

/-! ### Mounts -/

/-- A mount without colons. -/
def PlainMount (mount : ExecutionMount) : Prop := 58 ∉ mount.source ∧ 58 ∉ mount.target

theorem two_le_length_splitOn {text : Str} {sep : CodePoint} (h : sep ∈ text) :
    2 ≤ (text.splitOn sep).length := by
  obtain ⟨first, rest, rfl⟩ := List.append_of_mem h
  have hfirst := List.length_pos_iff.mpr (List.splitOn_ne_nil sep first)
  have hrest := List.length_pos_iff.mpr (List.splitOn_ne_nil sep rest)
  rw [List.splitOn_append_cons_self, List.length_append]
  omega

theorem readVolume_of_length {text : Str} (h : (text.splitOn 58).length ≠ 3) : readVolume text = none := by
  unfold readVolume
  split
  · rename_i hfields
    rw [hfields] at h
    exact absurd rfl h
  · rfl

theorem splitOn_volume (mount : ExecutionMount) :
    mount.volume.splitOn 58 = mount.source.splitOn 58 ++ (mount.target.splitOn 58 ++
      [modeOf mount.readOnly]) := by
  have hvolume : mount.volume = mount.source ++ 58 :: (mount.target ++ 58 :: modeOf mount.readOnly) := by
    unfold ExecutionMount.Fields.volume volumeArgument
    simp only [List.append_assoc]
    rfl
  have hmode : 58 ∉ modeOf mount.readOnly := by
    unfold modeOf
    split <;> decide
  rw [hvolume, List.splitOn_append_cons_self, List.splitOn_append_cons_self,
    List.splitOn_eq_singleton hmode]

/-- A volume is read as the mount that it was written for, or not at all. -/
theorem readVolume_plain {mount : ExecutionMount} (h : PlainMount mount) :
    readVolume mount.volume = some (mountSetting mount) := by
  rw [readVolume, splitOn_volume, List.splitOn_eq_singleton h.1, List.splitOn_eq_singleton h.2]
  rfl

theorem readVolume_not_plain {mount : ExecutionMount} (h : ¬ PlainMount mount) :
    readVolume mount.volume = none := by
  apply readVolume_of_length
  have hsource := List.length_pos_iff.mpr (List.splitOn_ne_nil 58 mount.source)
  have htarget := List.length_pos_iff.mpr (List.splitOn_ne_nil 58 mount.target)
  rw [splitOn_volume, List.length_append, List.length_append, List.length_singleton]
  by_cases hcolon : 58 ∈ mount.source
  · have hlong := two_le_length_splitOn hcolon
    omega
  · have hlong := two_le_length_splitOn (not_not.mp fun hfree => h ⟨hcolon, hfree⟩)
    omega

open Classical in
theorem mapM_readVolume (mounts : List ExecutionMount) :
    (mounts.mapM fun mount => readVolume mount.volume) =
      if ∀ mount ∈ mounts, PlainMount mount then some (mounts.map mountSetting) else none := by
  induction mounts with
  | nil => rfl
  | cons mount mounts ih =>
    rw [List.mapM_cons, ih]
    by_cases hmount : PlainMount mount
    · rw [readVolume_plain hmount]
      simp only [List.forall_mem_cons, hmount, true_and]
      split <;> rfl
    · rw [readVolume_not_plain hmount]
      simp only [List.forall_mem_cons, hmount, false_and, if_false]
      rfl

theorem reads_mounts (mounts : List ExecutionMount) :
    (podmanRun other).Reads (mounts.flatMap fun mount => [str "-v", mount.volume])
      (mounts.mapM fun mount => readVolume mount.volume) := by
  induction mounts with
  | nil => exact Grammar.Reads.nil _
  | cons mount mounts ih =>
    have hreads := (reads_next (str "-v") mount.volume (by decide)).append ih
    have hsettings : (Option.map (fun s => [s]) (readSetting (str "-v") (some mount.volume))).bind
        (fun before => Option.map (before ++ ·) (mounts.mapM fun mount => readVolume mount.volume)) =
          (mount :: mounts).mapM fun mount => readVolume mount.volume := by
      rw [List.mapM_cons]
      change (Option.map (fun s => [s]) (readVolume mount.volume)).bind _ = _
      cases readVolume mount.volume with
      | none => rfl
      | some setting => cases mounts.mapM fun mount => readVolume mount.volume <;> rfl
    rw [hsettings] at hreads
    exact hreads

/-! ### The environment -/

theorem requireEnvironmentItems_names {label : Str} {seen : List Str} {environment : Environment}
    (h : requireEnvironmentItems label seen environment = .ok ()) :
    ∀ pair ∈ environment, 61 ∉ pair.1 := by
  induction environment generalizing seen with
  | nil => exact List.forall_mem_nil _
  | cons pair rest ih =>
    obtain ⟨_, -, h⟩ := bind_ok_iff.mp h
    obtain ⟨hname, h⟩ := ensure_then_ok.mp h
    obtain ⟨-, h⟩ := ensure_then_ok.mp h
    obtain ⟨-, h⟩ := ensure_then_ok.mp h
    exact List.forall_mem_cons.mpr ⟨of_decide_eq_true hname, ih h⟩

theorem reads_environment {environment : Environment} (h : ∀ pair ∈ environment, 61 ∉ pair.1) :
    (podmanRun other).Reads (environmentArgs environment)
      (some (environment.map fun (name, value) => .variable name value)) := by
  induction environment with
  | nil => exact Grammar.Reads.nil _
  | cons pair rest ih =>
    obtain ⟨hname, hrest⟩ := List.forall_mem_cons.mp h
    have hsetting : readSetting (str "-e") (some (pair.1 ++ str "=" ++ pair.2)) =
        some (.variable pair.1 pair.2) := by
      have htext : pair.1 ++ str "=" ++ pair.2 = pair.1 ++ 61 :: pair.2 := by
        rw [List.append_assoc]
        rfl
      rw [htext]
      change some (Setting.variable (splitAtEquals _).1 (splitAtEquals _).2) = _
      rw [splitAtEquals_append hname]
    have hreads : (podmanRun other).Reads [str "-e", pair.1 ++ str "=" ++ pair.2] _ :=
      reads_next (str "-e") (pair.1 ++ str "=" ++ pair.2) (by decide)
    rw [hsetting] at hreads
    exact hreads.append (ih hrest)

/-! ## Plans -/

theorem ResolvedExecutionPlan.environment_names (plan : ResolvedExecutionPlan) :
    ∀ pair ∈ plan.environment, 61 ∉ pair.1 := by
  have h := plan.checked
  simp only [Fields.postInit, bind_ok_iff] at h
  obtain ⟨_, -, _, -, _, -, _, henvironment, -⟩ := h
  exact requireEnvironmentItems_names henvironment

/-- The options of a plan are read up to its image, if its mounts can be. -/
theorem read_argv (plan : ResolvedExecutionPlan) :
    readPodman other (executionPlanArgv shown plan) =
      (plan.allMounts.mapM fun mount => readVolume mount.volume).bind fun mounts =>
        ((podmanRun other).read (plan.image :: plan.argv)).map fun reading =>
          reading.add (runtimeSettings shown plan ++ isolationSettings shown plan.runtimeIsolation ++
            mounts ++ [.value (str "-w") plan.workingDirectory] ++
            plan.environment.map fun (name, value) => .variable name value) := by
  have hdirectory : (podmanRun other).Reads [str "-w", plan.workingDirectory]
      (some [.value (str "-w") plan.workingDirectory]) := reads_next _ _ (by decide)
  have hreads : (podmanRun other).Reads _ _ := ((((reads_runtime shown plan).append
    (reads_isolation shown plan.runtimeIsolation)).append (reads_mounts plan.allMounts)).append
      hdirectory).append (reads_environment plan.environment_names)
  have hread := hreads (plan.image :: plan.argv)
  have hprefix : (executionPlanArgv shown plan).take 2 = [str "podman", str "run"] := rfl
  rw [readPodman, if_pos hprefix]
  refine hread.trans ?_
  cases plan.allMounts.mapM fun mount => readVolume mount.volume <;> rfl

/-- No source or target of a mount has a colon, and the image is no option. -/
structure PlainTexts (plan : ResolvedExecutionPlan) : Prop where
  mounts : ∀ mount ∈ plan.allMounts, PlainMount mount
  image : isOption plan.image = false

theorem readPodman_iff (plan : ResolvedExecutionPlan) :
    readPodman other (executionPlanArgv shown plan) = some (planReading shown plan) ↔
      PlainTexts plan := by
  rw [read_argv, mapM_readVolume]
  by_cases hmounts : ∀ mount ∈ plan.allMounts, PlainMount mount
  · rw [if_pos hmounts]
    constructor
    · intro h
      obtain ⟨reading, hreading, hadd⟩ := Option.map_eq_some_iff.mp h
      obtain ⟨settings, operand, rest⟩ := reading
      simp only [Reading.add, planReading, planSettings, Reading.mk.injEq] at hadd
      obtain ⟨hsettings, rfl, rfl⟩ := hadd
      obtain rfl := List.append_right_eq_self.mp hsettings
      exact ⟨hmounts, Grammar.read_eq_operand_iff.mp hreading⟩
    · intro h
      rw [Option.bind_some, Grammar.read_eq_operand_iff.mpr h.image, Option.map_some, Reading.add,
        List.append_nil]
      rfl
  · rw [if_neg hmounts]
    constructor
    · intro h
      cases h
    · intro h
      exact absurd h.mounts hmounts

/-! ## Plans with the same arguments -/

/-- What the runtime is told of two plans is the same. -/
structure SameRun (floats : Json.FloatText) (plan plan' : ResolvedExecutionPlan) : Prop where
  mounts : plan.allMounts.map (fun mount => (mount.source, mount.target, mount.readOnly)) =
    plan'.allMounts.map fun mount => (mount.source, mount.target, mount.readOnly)
  environment : plan.environment = plan'.environment
  workingDirectory : plan.workingDirectory = plan'.workingDirectory
  network : plan.network.mode = plan'.network.mode ∧ plan.network.httpProxy = plan'.network.httpProxy
  pids : plan.resourceLimits.pids = plan'.resourceLimits.pids
  memory : plan.resourceLimits.memory = plan'.resourceLimits.memory
  cpus : numberText floats plan.resourceLimits.cpus = numberText floats plan'.resourceLimits.cpus ∧
    (IsNumber plan.resourceLimits.cpus → IsNumber plan'.resourceLimits.cpus →
      plan.resourceLimits.cpus = plan'.resourceLimits.cpus)
  isolation : plan.runtimeIsolation.toFields = plan'.runtimeIsolation.toFields
  image : plan.image = plan'.image
  argv : plan.argv = plan'.argv

def asMount : Setting → Option (Str × Str × Bool)
  | .volume source target mode => some (source, target, mode = str "ro")
  | _ => none

def asVariable : Setting → Option (Str × Str)
  | .variable name value => some (name, value)
  | _ => none

/-- Apart from the mounts and the environment a plan has flags and values. -/
theorem filterMap_isolation {β : Type} {f : Setting → Option β}
    (h : ∀ name value, f (.value name value) = none) (requirements : RuntimeIsolationRequirements) :
    (isolationSettings shown requirements).filterMap f = [] := by
  rw [List.filterMap_eq_nil_iff]
  intro setting hsetting
  rcases List.mem_append.mp hsetting with hmem | hmem
  · split at hmem
    · rw [List.mem_singleton.mp hmem, h]
    · cases hmem
  · split at hmem
    · rw [List.mem_singleton.mp hmem, h]
    · cases hmem

theorem asMount_mountSetting (mount : ExecutionMount) :
    asMount (mountSetting mount) = some (mount.source, mount.target, mount.readOnly) := by
  have hmode : decide (modeOf mount.readOnly = str "ro") = mount.readOnly := by
    unfold modeOf
    cases mount.readOnly <;> decide
  rw [mountSetting, asMount, hmode]

theorem mounts_of_planSettings (plan : ResolvedExecutionPlan) :
    (planSettings shown plan).filterMap asMount =
      plan.allMounts.map fun mount => (mount.source, mount.target, mount.readOnly) := by
  have hruntime : (runtimeSettings shown plan).filterMap asMount = [] := rfl
  have henvironment : (plan.environment.map fun (name, value) =>
      Setting.variable name value).filterMap asMount = [] := by
    rw [List.filterMap_map, List.filterMap_eq_nil_iff]
    intro pair _
    rfl
  have hdirectory : [Setting.value (str "-w") plan.workingDirectory].filterMap asMount = [] := rfl
  have hmounts : (plan.allMounts.map mountSetting).filterMap asMount =
      plan.allMounts.map fun mount => (mount.source, mount.target, mount.readOnly) := by
    rw [List.filterMap_map, ← List.filterMap_eq_map]
    exact congrArg (fun f => plan.allMounts.filterMap f) (funext asMount_mountSetting)
  simp only [planSettings, List.filterMap_append, hruntime, hdirectory, henvironment, hmounts,
    filterMap_isolation (f := asMount) (fun _ _ => rfl), List.nil_append, List.append_nil]

theorem environment_of_planSettings (plan : ResolvedExecutionPlan) :
    (planSettings shown plan).filterMap asVariable = plan.environment := by
  have hruntime : (runtimeSettings shown plan).filterMap asVariable = [] := rfl
  have hdirectory : [Setting.value (str "-w") plan.workingDirectory].filterMap asVariable = [] := rfl
  have hmounts : (plan.allMounts.map mountSetting).filterMap asVariable = [] := by
    rw [List.filterMap_map, List.filterMap_eq_nil_iff]
    intro mount _
    rfl
  have henvironment : (plan.environment.map fun (name, value) =>
      Setting.variable name value).filterMap asVariable = plan.environment := by
    rw [List.filterMap_map]
    exact List.filterMap_some
  simp only [planSettings, List.filterMap_append, hruntime, hdirectory, henvironment, hmounts,
    filterMap_isolation (f := asVariable) (fun _ _ => rfl), List.nil_append]

/-- The identity of a process is set as a whole. -/
theorem isolation_cases (requirements : RuntimeIsolationRequirements) :
    (requirements.uid = none ∧ requirements.gid = none) ∨
      ∃ uid gid, requirements.uid = some uid ∧ requirements.gid = some gid := by
  have hchecked := requirements.checked
  unfold RuntimeIsolationRequirements.Fields.postInit at hchecked
  have htogether := (ensure_then_ok.mp hchecked).1
  cases huid : requirements.uid with
  | none =>
    cases hgid : requirements.gid with
    | none => exact Or.inl ⟨rfl, rfl⟩
    | some gid => simp [huid, hgid] at htogether
  | some uid =>
    cases hgid : requirements.gid with
    | none => simp [huid, hgid] at htogether
    | some gid => exact Or.inr ⟨uid, gid, rfl, rfl⟩

/-- The identifiers of an isolation can be written. -/
def IdsWritten (floats : Json.FloatText) (requirements : RuntimeIsolationRequirements) : Prop :=
  ∀ uid gid, requirements.uid = some uid → requirements.gid = some gid →
    (numberText? floats (.int uid)).isSome = true ∧ (numberText? floats (.int gid)).isSome = true

theorem bootstrap_eq {nested nested' : Bool} {setting : Setting}
    (h : (if nested then [setting] else []) = if nested' then [setting] else []) : nested = nested' := by
  cases nested <;> cases nested'
  · rfl
  · cases h
  · cases h
  · rfl

theorem bootstrap_ne {nested : Bool} {name value value' : Str} {rest : List Setting}
    (hname : name ≠ str "--security-opt") :
    (if nested then [Setting.value (str "--security-opt") value'] else []) ≠ .value name value :: rest := by
  intro h
  cases nested with
  | false => cases h
  | true =>
    obtain ⟨hsetting, -⟩ := List.cons.inj h
    obtain ⟨hsame, -⟩ := Setting.value.inj hsetting
    exact hname hsame.symm

theorem isolation_of_settings {floats : Json.FloatText} {requirements requirements' : RuntimeIsolationRequirements}
    (hids : IdsWritten floats requirements) (hids' : IdsWritten floats requirements')
    (h : isolationSettings (numberText floats) requirements =
      isolationSettings (numberText floats) requirements') :
    requirements.toFields = requirements'.toFields := by
  have hfields : ∀ fields fields' : RuntimeIsolationRequirements.Fields, fields.uid = fields'.uid →
      fields.gid = fields'.gid → fields.nestedSandboxBootstrap = fields'.nestedSandboxBootstrap →
      fields = fields' := by
    rintro ⟨uid, gid, nested⟩ ⟨uid', gid', nested'⟩ rfl rfl rfl
    rfl
  unfold isolationSettings at h
  rcases isolation_cases requirements with ⟨huid, hgid⟩ | ⟨uid, gid, huid, hgid⟩ <;>
    rcases isolation_cases requirements' with ⟨huid', hgid'⟩ | ⟨uid', gid', huid', hgid'⟩ <;>
    simp only [huid, hgid, huid', hgid', List.nil_append, List.cons_append] at h
  · exact hfields _ _ (huid.trans huid'.symm) (hgid.trans hgid'.symm) (bootstrap_eq h)
  · exact absurd h (bootstrap_ne (by decide))
  · exact absurd h.symm (bootstrap_ne (by decide))
  · obtain ⟨huser, hnested⟩ := List.cons.inj h
    obtain ⟨-, htext⟩ := Setting.value.inj huser
    simp only [List.append_assoc] at htext
    change _ ++ 58 :: _ = _ ++ 58 :: _ at htext
    obtain ⟨htextUid, -, htextGid⟩ := (List.append_cons_inj_of_notMem (colon_notMem_numberText uid)
      (colon_notMem_numberText gid)).mp htext
    obtain ⟨hwrittenUid, hwrittenGid⟩ := hids uid gid huid hgid
    obtain ⟨hwrittenUid', hwrittenGid'⟩ := hids' uid' gid' huid' hgid'
    have heqUid : Value.int uid = .int uid' :=
      numberText_inj trivial trivial hwrittenUid hwrittenUid' htextUid
    have heqGid : Value.int gid = .int gid' :=
      numberText_inj trivial trivial hwrittenGid hwrittenGid' htextGid
    cases heqUid
    cases heqGid
    exact hfields _ _ (huid.trans huid'.symm) (hgid.trans hgid'.symm) (bootstrap_eq hnested)

theorem Written.ids {floats : Json.FloatText} {plan : ResolvedExecutionPlan} (h : Written floats plan) :
    IdsWritten floats plan.runtimeIsolation := by
  intro uid gid huid hgid
  have hmem : ∀ value ∈ ([.int uid, .int gid] : List Value), value ∈ planNumbers plan := by
    intro value hvalue
    unfold planNumbers
    rw [huid, hgid]
    exact List.mem_append_right _ hvalue
  exact ⟨h _ (hmem _ List.mem_cons_self), h _ (hmem _ (List.mem_cons_of_mem _ List.mem_cons_self))⟩

theorem sameRun_of_planReading {floats : Json.FloatText} {plan plan' : ResolvedExecutionPlan}
    (hwritten : Written floats plan) (hwritten' : Written floats plan')
    (h : planReading (numberText floats) plan = planReading (numberText floats) plan') :
    SameRun floats plan plan' := by
  obtain ⟨hsettings, himage, hargv⟩ := Reading.mk.inj h
  have hmounts := congrArg (List.filterMap asMount) hsettings
  rw [mounts_of_planSettings, mounts_of_planSettings] at hmounts
  have henvironment := congrArg (List.filterMap asVariable) hsettings
  rw [environment_of_planSettings, environment_of_planSettings] at henvironment
  have hlength : plan.allMounts.length = plan'.allMounts.length := by
    simpa using congrArg List.length hmounts
  -- The parts before and after the isolation have one length in both plans.
  simp only [planSettings, List.append_assoc, henvironment] at hsettings
  obtain ⟨hruntime, hsettings⟩ := List.append_inj hsettings rfl
  obtain ⟨hisolation, hsettings⟩ := List.append_inj' hsettings (by simp [hlength])
  obtain ⟨-, hdirectory⟩ := List.append_inj hsettings (by simp [hlength])
  simp only [runtimeSettings, List.cons.injEq, Setting.value.injEq, true_and, and_true] at hruntime
  obtain ⟨hnetwork, hproxy, hpids, hmemory, hcpus⟩ := hruntime
  constructor
  · exact hmounts
  · exact henvironment
  · simpa using hdirectory
  · have htexts : ∀ proxy proxy' : Bool, (if proxy then str "true" else str "false") =
        (if proxy' then str "true" else str "false") → proxy = proxy' := by
      decide
    exact ⟨hnetwork, htexts _ _ hproxy⟩
  · have hfirst : ∀ plan : ResolvedExecutionPlan,
        Value.int plan.resourceLimits.pids ∈ planNumbers plan := fun _ => List.mem_cons_self
    exact Value.int.inj (numberText_inj trivial trivial (hwritten _ (hfirst plan))
      (hwritten' _ (hfirst plan')) hpids)
  · exact hmemory
  · have hsecond : ∀ plan : ResolvedExecutionPlan,
        plan.resourceLimits.cpus ∈ planNumbers plan :=
      fun _ => List.mem_cons_of_mem _ List.mem_cons_self
    exact ⟨hcpus, fun hnumber hnumber' => numberText_inj hnumber hnumber' (hwritten _ (hsecond plan))
      (hwritten' _ (hsecond plan')) hcpus⟩
  · exact isolation_of_settings hwritten.ids hwritten'.ids hisolation
  · exact himage
  · exact hargv

end

/-- The arguments of a plan are read as the plan exactly if no source or target of its mounts has a
colon, its image is no option and its numbers can be written; plans like this with the same arguments
are the same run. -/
theorem encoding_iff (other : Str → Bool) (floats : Json.FloatText) (plan : ResolvedExecutionPlan) :
    ((planArgv floats plan).bind (readPodman other) = some (planReading (numberText floats) plan) ↔
      PlainTexts plan ∧ Written floats plan) ∧
    ∀ plan' argv, PlainTexts plan → PlainTexts plan' → planArgv floats plan = some argv →
      planArgv floats plan' = some argv → SameRun floats plan plan' := by
  constructor
  · unfold planArgv
    by_cases hwritten : Written floats plan
    · rw [if_pos hwritten, Option.bind_some, readPodman_iff]
      exact ⟨fun h => ⟨h, hwritten⟩, fun h => h.1⟩
    · rw [if_neg hwritten, Option.bind_none]
      constructor
      · intro h
        cases h
      · intro h
        exact absurd h.2 hwritten
  · intro plan' argv hplan hplan' hargv hargv'
    obtain ⟨hwritten, hsame⟩ := Option.ite_none_right_eq_some.mp hargv
    obtain ⟨hwritten', hsame'⟩ := Option.ite_none_right_eq_some.mp hargv'
    have hread : readPodman other (executionPlanArgv (numberText floats) plan) =
        some (planReading (numberText floats) plan) := (readPodman_iff plan).mpr hplan
    have hread' : readPodman other (executionPlanArgv (numberText floats) plan') =
        some (planReading (numberText floats) plan') := (readPodman_iff plan').mpr hplan'
    rw [Option.some.inj (hsame'.trans hsame.symm), hread] at hread'
    exact sameRun_of_planReading hwritten hwritten' (Option.some.inj hread')

def loudPlan : ResolvedExecutionPlan where
  toFields := readonlyFields []
  checked := by decide +kernel

/-- The runtime is not told whether a run is interactive. -/
def quietPlan : ResolvedExecutionPlan where
  toFields := { readonlyFields [] with interactionMode := .noninteractive }
  checked := by decide +kernel

instance (mount : ExecutionMount) : Decidable (PlainMount mount) :=
  inferInstanceAs (Decidable (58 ∉ mount.source ∧ 58 ∉ mount.target))

theorem encoding_iff_example :
    (planArgv Json.exactDecimals loudPlan).bind (readPodman fun _ => false) =
        some (planReading (numberText Json.exactDecimals) loudPlan) ∧
      SameRun Json.exactDecimals loudPlan quietPlan := by
  have hloud : PlainTexts loudPlan := ⟨by decide +kernel, by decide +kernel⟩
  have hquiet : PlainTexts quietPlan := ⟨by decide +kernel, by decide +kernel⟩
  have hwritten : Written Json.exactDecimals loudPlan := by decide +kernel
  have hargv : planArgv Json.exactDecimals loudPlan =
      some (executionPlanArgv (numberText Json.exactDecimals) loudPlan) := if_pos hwritten
  have h := encoding_iff (fun _ => false) Json.exactDecimals loudPlan
  exact ⟨h.1.mpr ⟨hloud, hwritten⟩, h.2 quietPlan _ hloud hquiet hargv (if_pos hwritten)⟩

/-- A directory with the given source and target that a run may only read. -/
def colonMount (source target : Str)
    (h : (⟨source, target, true, .providerPolicy⟩ : ExecutionMount.Fields).postInit = .ok ()) :
    ExecutionMount :=
  ⟨⟨source, target, true, .providerPolicy⟩, h⟩

def colonTarget : ResolvedExecutionPlan where
  toFields := readonlyFields [colonMount (str "/srv/a") (str "/b:/c") (by decide +kernel)]
  checked := by decide +kernel

def colonSource : ResolvedExecutionPlan where
  toFields := readonlyFields [colonMount (str "/srv/a:/b") (str "/c") (by decide +kernel)]
  checked := by decide +kernel

/-- Two plans with different mounts have the same arguments, in which podman reads neither. -/
theorem colon_not_read :
    (planArgv Json.exactDecimals colonTarget).isSome = true ∧
      planArgv Json.exactDecimals colonTarget = planArgv Json.exactDecimals colonSource ∧
      colonTarget.allMounts.map (·.target) ≠ colonSource.allMounts.map (·.target) ∧
      ((planArgv Json.exactDecimals colonTarget).bind (readPodman fun _ => false)).isNone = true := by
  decide +kernel

end AgentDev.Execution
