import AgentDev.Python.Values

/-!
# Reading options

A command line is read from the left: options, each with its value if it takes one, up to the first
item that is none, which is the operand, and what follows the operand is left alone. `Reads` says what
a part of a command line contributes, whatever comes after it.
-/

namespace Options

open Python

/-! ## Items -/

/-- `-` alone is no option. -/
def isOption (item : Str) : Bool := item.head? = some 45 && 1 < item.length

/-- The text before the first `=`, and the text after it. -/
def splitAtEquals (text : Str) : Str × Str :=
  (text.takeWhile (· ≠ 61), (text.dropWhile (· ≠ 61)).tail)

/-- `--name=value` -/
def joinedValue (item : Str) : Option (Str × Str) :=
  if str "--" <+: item ∧ 61 ∈ item then some (splitAtEquals item) else none

theorem splitAtEquals_append {name text : Str} (h : 61 ∉ name) :
    splitAtEquals (name ++ 61 :: text) = (name, text) := by
  have hname : ∀ c ∈ name, decide (c ≠ 61) = true := by
    intro c hc
    apply decide_eq_true
    rintro rfl
    exact h hc
  unfold splitAtEquals
  rw [List.takeWhile_append_of_pos hname, List.dropWhile_append_of_pos hname]
  simp

theorem joinedValue_append {name text : Str} (hdash : str "--" <+: name) (h : 61 ∉ name) :
    joinedValue (name ++ 61 :: text) = some (name, text) := by
  have hmem : 61 ∈ name ++ 61 :: text := List.mem_append_right _ List.mem_cons_self
  rw [joinedValue, if_pos ⟨hdash.trans (List.prefix_append _ _), hmem⟩, splitAtEquals_append h]

/-! ## Command lines -/

/-- Which options take the next item as their value, and what an option with its value is. -/
structure Grammar (σ : Type) where
  takesNext : Str → Bool
  setting : Str → Option Str → Option σ

structure Reading (σ : Type) where
  settings : List σ
  operand : Str
  rest : List Str

def Reading.add {σ : Type} (settings : List σ) (reading : Reading σ) : Reading σ :=
  { reading with settings := settings ++ reading.settings }

variable {σ : Type}

/-- A reading after one more setting, if there is one. -/
def consSetting (setting : Option σ) (reading : Option (Reading σ)) : Option (Reading σ) :=
  setting.bind fun s => reading.map (·.add [s])

def Grammar.read (g : Grammar σ) : List Str → Option (Reading σ)
  | [] => none
  | [item] => if isOption item then none else some ⟨[], item, []⟩
  | item :: next :: rest =>
    if !isOption item then some ⟨[], item, next :: rest⟩
    else if item = str "--" then some ⟨[], next, rest⟩
    else
      match joinedValue item with
      | some (name, value) => consSetting (g.setting name (some value)) (g.read (next :: rest))
      | none =>
        if g.takesNext item then consSetting (g.setting item (some next)) (g.read rest)
        else consSetting (g.setting item none) (g.read (next :: rest))

theorem consSetting_rest {setting : Option σ} {reading : Option (Reading σ)} {reading' : Reading σ}
    (h : consSetting setting reading = some reading') :
    ∃ before, reading = some before ∧ reading'.rest = before.rest := by
  obtain ⟨s, -, h⟩ := Option.bind_eq_some_iff.mp h
  obtain ⟨before, hbefore, rfl⟩ := Option.map_eq_some_iff.mp h
  exact ⟨before, hbefore, rfl⟩

/-- What follows the operand is shorter than the command line. -/
theorem Grammar.read_length {g : Grammar σ} {items : List Str} {reading : Reading σ}
    (h : g.read items = some reading) : reading.rest.length < items.length := by
  fun_induction Grammar.read g items generalizing reading with
  | case1 => cases h
  | case2 => cases h
  | case3 =>
    cases h
    exact Nat.zero_lt_one
  | case4 =>
    cases h
    exact Nat.lt_succ_self _
  | case5 =>
    cases h
    simp only [List.length_cons]
    omega
  | case6 item next rest _ _ _ _ _ ih =>
    obtain ⟨before, hbefore, hrest⟩ := consSetting_rest h
    have hshort := ih hbefore
    rw [hrest, List.length_cons]
    omega
  | case7 item next rest _ _ _ _ ih =>
    obtain ⟨before, hbefore, hrest⟩ := consSetting_rest h
    have hshort := ih hbefore
    simp only [hrest, List.length_cons]
    omega
  | case8 item next rest _ _ _ _ ih =>
    obtain ⟨before, hbefore, hrest⟩ := consSetting_rest h
    have hshort := ih hbefore
    rw [hrest, List.length_cons]
    omega

theorem Grammar.read_of_operand (g : Grammar σ) {item : Str} (h : isOption item = false)
    (rest : List Str) : g.read (item :: rest) = some ⟨[], item, rest⟩ := by
  cases rest with
  | nil => rw [Grammar.read, h]; rfl
  | cons next rest => rw [Grammar.read, h]; rfl

/-- An option is not the operand: less is left after it. -/
theorem Grammar.read_of_option {g : Grammar σ} {item : Str} {rest : List Str} {reading : Reading σ}
    (hoption : isOption item = true) (h : g.read (item :: rest) = some reading) :
    reading.rest.length < rest.length := by
  cases rest with
  | nil =>
    rw [Grammar.read, if_pos hoption] at h
    cases h
  | cons next rest =>
    rw [Grammar.read, hoption, if_neg (by simp)] at h
    split at h
    · cases h
      exact Nat.lt_succ_self _
    · split at h
      · obtain ⟨before, hbefore, hrest⟩ := consSetting_rest h
        rw [hrest]
        exact read_length hbefore
      · split at h
        · obtain ⟨before, hbefore, hrest⟩ := consSetting_rest h
          rw [hrest, List.length_cons]
          exact (read_length hbefore).trans (Nat.lt_succ_self _)
        · obtain ⟨before, hbefore, hrest⟩ := consSetting_rest h
          rw [hrest]
          exact read_length hbefore

/-- The first item is read as the operand, and the rest left as it is, exactly if it is no option. -/
theorem Grammar.read_eq_operand_iff {g : Grammar σ} {item : Str} {rest : List Str} :
    g.read (item :: rest) = some ⟨[], item, rest⟩ ↔ isOption item = false := by
  constructor
  · intro h
    by_contra hoption
    have hlt := g.read_of_option (Bool.not_eq_false _ ▸ hoption) h
    exact absurd hlt (lt_irrefl _)
  · intro h
    exact g.read_of_operand h rest

/-! ## Parts of command lines -/

/-- The items contribute the settings, or cannot be read. -/
def Grammar.Reads (g : Grammar σ) (items : List Str) (settings : Option (List σ)) : Prop :=
  ∀ rest, g.read (items ++ rest) = settings.bind fun before => (g.read rest).map (·.add before)

theorem Grammar.Reads.nil (g : Grammar σ) : g.Reads [] (some []) := by
  intro rest
  cases h : g.read rest with
  | none => simp [h]
  | some reading => simp [h, Reading.add]

theorem Grammar.Reads.append {g : Grammar σ} {items items' : List Str} {settings settings' : Option (List σ)}
    (h : g.Reads items settings) (h' : g.Reads items' settings') :
    g.Reads (items ++ items') (settings.bind fun before => settings'.map (before ++ ·)) := by
  intro rest
  rw [List.append_assoc, h, h']
  cases settings with
  | none => rfl
  | some before =>
    cases settings' with
    | none => rfl
    | some after =>
      cases g.read rest with
      | none => rfl
      | some reading => simp [Reading.add]

theorem Grammar.Reads.append_some {g : Grammar σ} {items items' : List Str} {settings settings' : List σ}
    (h : g.Reads items (some settings)) (h' : g.Reads items' (some settings')) :
    g.Reads (items ++ items') (some (settings ++ settings')) := h.append h'

theorem Grammar.Reads.cons {g : Grammar σ} {item : Str} {items : List Str} {s : σ} {settings : List σ}
    (h : g.Reads [item] (some [s])) (h' : g.Reads items (some settings)) :
    g.Reads (item :: items) (some (s :: settings)) := h.append_some h'

variable {g : Grammar σ} {item : Str}

theorem consSetting_eq (setting : Option σ) (reading : Option (Reading σ)) :
    consSetting setting reading =
      (setting.map ([·])).bind fun before => reading.map (·.add before) := by
  cases setting <;> rfl

/-- Nothing is read of an option that nothing follows. -/
theorem Grammar.read_singleton (g : Grammar σ) (hoption : isOption item = true)
    (settings : Option (List σ)) :
    g.read [item] = settings.bind fun before => (g.read []).map (·.add before) := by
  have hnone : g.read [item] = none := by rw [Grammar.read, if_pos hoption]
  rw [hnone]
  cases settings <;> rfl

theorem not_joined (h : 61 ∉ item) : joinedValue item = none := if_neg fun hjoined => h hjoined.2

/-- `--name=value` -/
theorem Grammar.Reads.joined {name value : Str} (hdash : str "--" <+: name) (hname : 61 ∉ name) :
    g.Reads [name ++ 61 :: value] ((g.setting name (some value)).map ([·])) := by
  obtain ⟨tail, rfl⟩ := hdash
  have hoption : isOption (str "--" ++ tail ++ 61 :: value) = true := by
    rw [isOption, List.length_append, List.length_append]
    exact Bool.and_eq_true_iff.mpr ⟨rfl, decide_eq_true (by change 1 < 2 + _ + _; omega)⟩
  have hne : str "--" ++ tail ++ 61 :: value ≠ str "--" := by
    intro heq
    have hmem : 61 ∈ str "--" := heq ▸ List.mem_append_right _ List.mem_cons_self
    exact absurd hmem (by decide)
  intro rest
  cases rest with
  | nil => exact g.read_singleton hoption _
  | cons next rest =>
    rw [List.singleton_append, Grammar.read, hoption, if_neg (by simp), if_neg hne,
      joinedValue_append (List.prefix_append _ _) hname]
    exact consSetting_eq _ _

/-- An option without a value. -/
theorem Grammar.Reads.flag (hoption : isOption item = true) (hdash : item ≠ str "--")
    (hjoined : 61 ∉ item) (htakes : g.takesNext item = false) :
    g.Reads [item] ((g.setting item none).map ([·])) := by
  intro rest
  cases rest with
  | nil => exact g.read_singleton hoption _
  | cons next rest =>
    rw [List.singleton_append, Grammar.read, hoption, if_neg (by simp), if_neg hdash,
      not_joined hjoined]
    simp only [htakes, Bool.false_eq_true, if_false]
    exact consSetting_eq _ _

/-- An option and its value. -/
theorem Grammar.Reads.next {value : Str} (hoption : isOption item = true) (hdash : item ≠ str "--")
    (hjoined : 61 ∉ item) (htakes : g.takesNext item = true) :
    g.Reads [item, value] ((g.setting item (some value)).map ([·])) := by
  intro rest
  rw [List.cons_append, List.singleton_append, Grammar.read, hoption, if_neg (by simp), if_neg hdash,
    not_joined hjoined]
  simp only [htakes, if_true]
  exact consSetting_eq _ _

end Options
