import Mathlib.Data.List.Basic
import Mathlib.Data.List.Infix

/-!
# Paths into documents

JSON documents as `jq` sees them, with `getpath` and `setpath` for paths of object keys. A missing
key reads as `null`, and is made when something is set below it; what is not an object can be neither
read nor set below.

`setpath` changes what is below, at and above its path only, each in its own way (`getpath_below`,
`getpath_above`, `getpath_apart`), and it succeeds exactly where `getpath` does. `copyPaths` sets
several paths to what they are in another document. However the paths overlap, all of them agree with
that document afterwards (`agrees_copyPaths`), and copying once more changes nothing
(`copyPaths_again`).
-/

namespace Jq

/-- A document. `scalar` is a boolean, a number, a string or an array. -/
inductive Doc (K S : Type)
  | null
  | scalar (data : S)
  | object (fields : List (K × Doc K S))

variable {K S : Type} [DecidableEq K]

/-! ## Keys -/

def setField (key : K) (value : Doc K S) : List (K × Doc K S) → List (K × Doc K S)
  | [] => [(key, value)]
  | field :: rest =>
    if field.1 = key then (key, value) :: rest else field :: setField key value rest

theorem lookup_setField_self (key : K) (value : Doc K S) (fields : List (K × Doc K S)) :
    (setField key value fields).lookup key = some value := by
  induction fields with
  | nil => simp [setField]
  | cons field rest ih =>
    by_cases h : field.1 = key
    · simp [setField, h]
    · have hne : (key == field.1) = false := beq_false_of_ne (Ne.symm h)
      rw [setField, if_neg h, List.lookup_cons, hne]
      exact ih

theorem lookup_setField_of_ne {key other : K} (hne : other ≠ key) (value : Doc K S)
    (fields : List (K × Doc K S)) :
    (setField key value fields).lookup other = fields.lookup other := by
  induction fields with
  | nil => simp [setField, List.lookup_cons, beq_false_of_ne hne]
  | cons field rest ih =>
    by_cases h : field.1 = key
    · rw [setField, if_pos h, List.lookup_cons, List.lookup_cons, h, beq_false_of_ne hne]
    · rw [setField, if_neg h, List.lookup_cons, List.lookup_cons, ih]

/-- A field is set to what it is. -/
theorem setField_lookup {key : K} {value : Doc K S} {fields : List (K × Doc K S)}
    (h : fields.lookup key = some value) : setField key value fields = fields := by
  induction fields with
  | nil => cases h
  | cons field rest ih =>
    obtain ⟨name, old⟩ := field
    by_cases hname : name = key
    · subst hname
      simp only [List.lookup_cons, beq_self_eq_true, Option.some.injEq] at h
      rw [setField, if_pos rfl, h]
    · rw [List.lookup_cons, beq_false_of_ne (Ne.symm hname)] at h
      rw [setField, if_neg hname, ih h]

namespace Doc

/-- `.[key]` -/
def index (key : K) : Doc K S → Option (Doc K S)
  | null => some null
  | object fields => some ((fields.lookup key).getD null)
  | scalar _ => none

/-- `.[key] = value` -/
def put (doc : Doc K S) (key : K) (value : Doc K S) : Option (Doc K S) :=
  match doc with
  | null => some (object [(key, value)])
  | object fields => some (object (setField key value fields))
  | scalar _ => none

end Doc

section

variable {key other : K} {value doc doc' : Doc K S}

theorem index_put_self (h : doc.put key value = some doc') : doc'.index key = some value := by
  cases doc with
  | null =>
    cases h
    simp [Doc.index]
  | object fields =>
    cases h
    rw [Doc.index, lookup_setField_self]
    rfl
  | scalar data => cases h

theorem index_put_of_ne (hne : other ≠ key) (h : doc.put key value = some doc') :
    doc'.index other = doc.index other := by
  cases doc with
  | null =>
    cases h
    simp [Doc.index, List.lookup_cons, beq_false_of_ne hne]
  | object fields =>
    cases h
    rw [Doc.index, Doc.index, lookup_setField_of_ne hne]
  | scalar data => cases h

/-- What can be read below can be set. -/
theorem put_isSome (key : K) (value doc : Doc K S) :
    (doc.put key value).isSome = (doc.index key).isSome := by
  cases doc <;> rfl

theorem put_index {old : Doc K S} (hold : doc.index key = some old) (hne : old ≠ .null) :
    doc.put key old = some doc := by
  cases doc with
  | null =>
    cases hold
    exact absurd rfl hne
  | object fields =>
    rw [Doc.index, Option.some.injEq] at hold
    cases hlookup : fields.lookup key with
    | none =>
      rw [hlookup] at hold
      exact absurd hold.symm hne
    | some found =>
      rw [hlookup] at hold
      obtain rfl : found = old := hold
      rw [Doc.put, setField_lookup hlookup]
  | scalar data => cases hold

end

/-! ## Paths -/

/-- `getpath(path)` -/
def getpath : List K → Doc K S → Option (Doc K S)
  | [], doc => some doc
  | key :: rest, doc => (doc.index key).bind (getpath rest)

/-- `setpath(path; value)` -/
def setpath : List K → Doc K S → Doc K S → Option (Doc K S)
  | [], value, _ => some value
  | key :: rest, value, doc =>
    (doc.index key).bind fun old => (setpath rest value old).bind fun new => doc.put key new

/-- Neither path leads through the other. -/
def Apart (path other : List K) : Prop := ¬path <+: other ∧ ¬other <+: path

omit [DecidableEq K] in
theorem Apart.symm {path other : List K} (h : Apart path other) : Apart other path := ⟨h.2, h.1⟩

theorem comparable_or_apart (path other : List K) :
    path <+: other ∨ other <+: path ∨ Apart path other := by
  by_cases h : path <+: other
  · exact Or.inl h
  · by_cases h' : other <+: path
    · exact Or.inr (Or.inl h')
    · exact Or.inr (Or.inr ⟨h, h'⟩)

section

variable {path other below : List K} {value doc doc' : Doc K S}

@[simp] theorem getpath_null (path : List K) : getpath path (.null : Doc K S) = some .null := by
  induction path with
  | nil => rfl
  | cons key rest ih => exact ih

theorem getpath_append (path below : List K) (doc : Doc K S) :
    getpath (path ++ below) doc = (getpath path doc).bind (getpath below) := by
  induction path generalizing doc with
  | nil => rfl
  | cons key rest ih =>
    show (doc.index key).bind _ = ((doc.index key).bind _).bind _
    rw [Option.bind_assoc]
    exact congrArg _ (funext ih)

/-- The parts of a step down. -/
theorem setpath_cons {key : K} {rest : List K} (h : setpath (key :: rest) value doc = some doc') :
    ∃ old new, doc.index key = some old ∧ setpath rest value old = some new ∧
      doc.put key new = some doc' := by
  obtain ⟨old, hold, h⟩ := Option.bind_eq_some_iff.mp h
  obtain ⟨new, hnew, hput⟩ := Option.bind_eq_some_iff.mp h
  exact ⟨old, new, hold, hnew, hput⟩

theorem getpath_below (h : setpath path value doc = some doc') (below : List K) :
    getpath (path ++ below) doc' = getpath below value := by
  induction path generalizing doc doc' with
  | nil =>
    cases h
    rfl
  | cons key rest ih =>
    obtain ⟨old, new, -, hnew, hput⟩ := setpath_cons h
    show (doc'.index key).bind _ = _
    rw [index_put_self hput]
    exact ih hnew

/-- What stands above the path is changed as the path tells. -/
theorem getpath_above (h : setpath (path ++ below) value doc = some doc') :
    getpath path doc' = (getpath path doc).bind (setpath below value) := by
  induction path generalizing doc doc' with
  | nil => exact h.symm
  | cons key rest ih =>
    obtain ⟨old, new, hold, hnew, hput⟩ := setpath_cons h
    show (doc'.index key).bind _ = ((doc.index key).bind _).bind _
    rw [index_put_self hput, hold]
    exact ih hnew

theorem getpath_apart (hapart : Apart path other) (h : setpath path value doc = some doc') :
    getpath other doc' = getpath other doc := by
  induction path generalizing other doc doc' with
  | nil => exact absurd List.nil_prefix hapart.1
  | cons key rest ih =>
    cases other with
    | nil => exact absurd List.nil_prefix hapart.2
    | cons key' rest' =>
      obtain ⟨old, new, hold, hnew, hput⟩ := setpath_cons h
      show (doc'.index key').bind _ = (doc.index key').bind _
      by_cases hkey : key' = key
      · subst hkey
        have hrest : Apart rest rest' :=
          ⟨fun hprefix => hapart.1 (List.cons_prefix_cons.mpr ⟨rfl, hprefix⟩),
            fun hprefix => hapart.2 (List.cons_prefix_cons.mpr ⟨rfl, hprefix⟩)⟩
        rw [index_put_self hput, hold]
        exact ih hrest hnew
      · rw [index_put_of_ne hkey hput]

/-- `setpath` fails where `getpath` does. -/
theorem setpath_isSome (path : List K) (value doc : Doc K S) :
    (setpath path value doc).isSome = (getpath path doc).isSome := by
  induction path generalizing doc with
  | nil => rfl
  | cons key rest ih =>
    cases hold : doc.index key with
    | none => simp [setpath, getpath, hold]
    | some old =>
      have hput : ∀ new : Doc K S, (doc.put key new).isSome = true := fun new => by
        rw [put_isSome, hold]
        rfl
      cases hnew : setpath rest value old with
      | none => simpa [setpath, getpath, hold, hnew] using ih old
      | some new => simpa [setpath, getpath, hold, hnew, hput] using ih old

/-- A path is set to what it is. -/
theorem setpath_getpath (h : getpath path doc = some value) (hne : value ≠ .null) :
    setpath path value doc = some doc := by
  induction path generalizing doc with
  | nil => exact congrArg some (Option.some.inj h).symm
  | cons key rest ih =>
    obtain ⟨old, hold, hrest⟩ := Option.bind_eq_some_iff.mp h
    have hold' : old ≠ .null := by
      rintro rfl
      rw [getpath_null] at hrest
      exact hne (Option.some.inj hrest).symm
    show (doc.index key).bind _ = _
    rw [hold, Option.bind_some, ih hrest]
    exact put_index hold hold'

end

/-! ## Copying paths -/

/-- The paths are set to what they are in `seed`, one after another. -/
def copyPaths (seed : Doc K S) : List (List K) → Doc K S → Option (Doc K S)
  | [], doc => some doc
  | path :: rest, doc =>
    (getpath path seed).bind fun value => (setpath path value doc).bind (copyPaths seed rest)

/-- There is something at the path. -/
def Holds (seed : Doc K S) (path : List K) : Prop :=
  ∃ value, getpath path seed = some value ∧ value ≠ .null

def Agrees (seed doc : Doc K S) (path : List K) : Prop := getpath path doc = getpath path seed

section

variable {seed doc doc' : Doc K S} {path other : List K} {paths : List (List K)} {value : Doc K S}

/-- A path that agrees goes on to agree when another one is copied. -/
theorem Agrees.setpath (hvalue : getpath other seed = some value) (hne : value ≠ .null)
    (h : setpath other value doc = some doc') (hagrees : Agrees seed doc path) :
    Agrees seed doc' path := by
  unfold Agrees at hagrees ⊢
  rcases comparable_or_apart path other with ⟨below, rfl⟩ | ⟨below, rfl⟩ | hapart
  · -- what the copied path has below this one was there already
    rw [getpath_append] at hvalue
    obtain ⟨whole, hwhole, hbelow⟩ := Option.bind_eq_some_iff.mp hvalue
    rw [getpath_above h, hagrees, hwhole]
    exact setpath_getpath hbelow hne
  · rw [getpath_below h, getpath_append, hvalue]
    rfl
  · rw [getpath_apart hapart.symm h, hagrees]

theorem agrees_self (hvalue : getpath path seed = some value) (h : setpath path value doc = some doc') :
    Agrees seed doc' path := by
  have hself := getpath_below h []
  rw [List.append_nil] at hself
  exact hself.trans hvalue.symm

theorem copyPaths_cons (h : copyPaths seed (path :: paths) doc = some doc') :
    ∃ value next, getpath path seed = some value ∧ setpath path value doc = some next ∧
      copyPaths seed paths next = some doc' := by
  obtain ⟨value, hvalue, h⟩ := Option.bind_eq_some_iff.mp h
  obtain ⟨next, hnext, hrest⟩ := Option.bind_eq_some_iff.mp h
  exact ⟨value, next, hvalue, hnext, hrest⟩

theorem Agrees.copyPaths (hholds : ∀ path ∈ paths, Holds seed path)
    (h : copyPaths seed paths doc = some doc') (hagrees : Agrees seed doc path) :
    Agrees seed doc' path := by
  induction paths generalizing doc with
  | nil =>
    cases h
    exact hagrees
  | cons first rest ih =>
    obtain ⟨value, next, hvalue, hnext, hrest⟩ := copyPaths_cons h
    obtain ⟨held, hheld, hne⟩ := hholds first List.mem_cons_self
    obtain rfl : value = held := Option.some.inj (hvalue.symm.trans hheld)
    exact ih (fun path hpath => hholds path (List.mem_cons_of_mem _ hpath)) hrest
      (hagrees.setpath hvalue hne hnext)

/-- All copied paths agree, however they overlap. -/
theorem agrees_copyPaths (hholds : ∀ path ∈ paths, Holds seed path)
    (h : copyPaths seed paths doc = some doc') : ∀ path ∈ paths, Agrees seed doc' path := by
  induction paths generalizing doc with
  | nil => exact List.forall_mem_nil _
  | cons first rest ih =>
    obtain ⟨value, next, hvalue, hnext, hrest⟩ := copyPaths_cons h
    have hholds' : ∀ path ∈ rest, Holds seed path :=
      fun path hpath => hholds path (List.mem_cons_of_mem _ hpath)
    rw [List.forall_mem_cons]
    exact ⟨(agrees_self hvalue hnext).copyPaths hholds' hrest, ih hholds' hrest⟩

/-- What has nothing to do with the copied paths stays as it is. -/
theorem copyPaths_apart (hapart : ∀ path ∈ paths, Apart path other)
    (h : copyPaths seed paths doc = some doc') : getpath other doc' = getpath other doc := by
  induction paths generalizing doc with
  | nil =>
    cases h
    rfl
  | cons first rest ih =>
    obtain ⟨value, next, -, hnext, hrest⟩ := copyPaths_cons h
    rw [ih (fun path hpath => hapart path (List.mem_cons_of_mem _ hpath)) hrest,
      getpath_apart (hapart first List.mem_cons_self) hnext]

/-- Paths that agree already are copied without a change. -/
theorem copyPaths_of_agrees (hholds : ∀ path ∈ paths, Holds seed path)
    (hagrees : ∀ path ∈ paths, Agrees seed doc path) : copyPaths seed paths doc = some doc := by
  induction paths with
  | nil => rfl
  | cons first rest ih =>
    obtain ⟨value, hvalue, hne⟩ := hholds first List.mem_cons_self
    have hsame := setpath_getpath ((hagrees first List.mem_cons_self).trans hvalue) hne
    show (getpath first seed).bind _ = _
    rw [hvalue, Option.bind_some, hsame]
    exact ih (fun path hpath => hholds path (List.mem_cons_of_mem _ hpath))
      fun path hpath => hagrees path (List.mem_cons_of_mem _ hpath)

theorem copyPaths_again (hholds : ∀ path ∈ paths, Holds seed path)
    (h : copyPaths seed paths doc = some doc') : copyPaths seed paths doc' = some doc' :=
  copyPaths_of_agrees hholds (agrees_copyPaths hholds h)

/-- A path can be read after another one has been copied, if it could be read before or leads through
the copied one. -/
theorem getpath_isSome_setpath (hvalue : getpath other seed = some value)
    (h : Jq.setpath other value doc = some doc') (hpath : (getpath path seed).isSome = true) :
    (getpath path doc').isSome = true ↔ (getpath path doc).isSome = true ∨ other <+: path := by
  have hother : (getpath other doc).isSome = true := by
    rw [← setpath_isSome other value doc, h]
    rfl
  rcases comparable_or_apart path other with ⟨below, rfl⟩ | ⟨below, rfl⟩ | hapart
  · rw [getpath_append] at hother
    obtain ⟨whole, hwhole⟩ := Option.isSome_iff_exists.mp (Option.isSome_of_isSome_bind hother)
    rw [hwhole, Option.bind_some] at hother
    rw [getpath_above h, hwhole, Option.bind_some, setpath_isSome, hother]
    exact iff_of_true rfl (Or.inl rfl)
  · rw [getpath_append, hvalue, Option.bind_some] at hpath
    rw [getpath_below h, hpath]
    exact iff_of_true rfl (Or.inr (List.prefix_append _ _))
  · rw [getpath_apart hapart.symm h, or_iff_left hapart.2]

/-- The copying succeeds exactly if each path can be read in the document, or leads through one that has
been copied before. -/
theorem copyPaths_isSome_iff (hholds : ∀ path ∈ paths, Holds seed path) :
    (copyPaths seed paths doc).isSome = true ↔
      ∀ before path after, paths = before ++ path :: after →
        (getpath path doc).isSome = true ∨ ∃ first ∈ before, first <+: path := by
  induction paths generalizing doc with
  | nil =>
    refine iff_of_true rfl fun before path after h => ?_
    simp at h
  | cons first rest ih =>
    obtain ⟨value, hvalue, -⟩ := hholds first List.mem_cons_self
    have hholds' : ∀ path ∈ rest, Holds seed path :=
      fun path hpath => hholds path (List.mem_cons_of_mem _ hpath)
    have hstep : copyPaths seed (first :: rest) doc =
        (Jq.setpath first value doc).bind (copyPaths seed rest) := by
      rw [Jq.copyPaths, hvalue, Option.bind_some]
    rw [hstep]
    cases hnext : Jq.setpath first value doc with
    | none =>
      refine iff_of_false Bool.false_ne_true fun h => ?_
      rcases h [] first rest rfl with hread | ⟨path, hpath, -⟩
      · rw [← setpath_isSome first value doc, hnext] at hread
        cases hread
      · cases hpath
    | some next =>
      rw [Option.bind_some, ih hholds']
      constructor
      · intro h before path after hsplit
        cases before with
        | nil =>
          obtain ⟨rfl, -⟩ := List.cons.inj hsplit
          refine Or.inl ?_
          rw [← setpath_isSome first value doc, hnext]
          rfl
        | cons head before =>
          obtain ⟨rfl, hrest⟩ := List.cons.inj hsplit
          obtain ⟨found, hfound, -⟩ := hholds' path (by rw [hrest]; simp)
          rcases h before path after hrest with hread | ⟨earlier, hearlier, hprefix⟩
          · rw [getpath_isSome_setpath hvalue hnext (by rw [hfound]; rfl)] at hread
            exact hread.imp_right fun hprefix => ⟨_, List.mem_cons_self, hprefix⟩
          · exact Or.inr ⟨earlier, List.mem_cons_of_mem _ hearlier, hprefix⟩
      · intro h before path after hrest
        obtain ⟨found, hfound, -⟩ := hholds' path (by rw [hrest]; simp)
        rw [getpath_isSome_setpath hvalue hnext (by rw [hfound]; rfl)]
        rcases h (first :: before) path after (by rw [hrest]; rfl) with hread | ⟨earlier, hearlier, hprefix⟩
        · exact Or.inl (Or.inl hread)
        · rcases List.mem_cons.mp hearlier with rfl | hbefore
          · exact Or.inl (Or.inr hprefix)
          · exact Or.inr ⟨earlier, hbefore, hprefix⟩

end

end Jq
