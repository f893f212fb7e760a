import AgentDev.Python.Values

/-!
# Objects that can be changed

Sequences and mappings as objects at addresses, and computations that read them, make new ones and
change them. `Holds objects ref value` says what is read from a reference; the objects may be a part
of the heap only, which says what a value is read from. A computation keeps a heap if it changes none
of its objects, also when it raises (`Keeps`).
-/

namespace Python

/-- What a name or an item refers to: a value that nothing can change, or an object. -/
inductive Ref
  | plain (value : Value)
  | object (address : Nat)

/-- `ref == text` for a string `text`. -/
def Ref.isStr (ref : Ref) (text : Str) : Bool :=
  match ref with
  | .plain value => value.isStr text
  | .object _ => false

inductive Object
  | seq (items : List Ref)
  | dict (items : List (Key × Ref))

/-- The objects, each at its address. -/
abbrev Heap := List Object

/-! ## What a reference holds -/

mutual

/-- The value that is read from a reference. -/
def Holds (objects : Nat → Option Object) : Ref → Value → Prop
  | ref, .seq items => ∃ address refs, ref = .object address ∧
      objects address = some (.seq refs) ∧ AllHold objects refs items
  | ref, .dict items => ∃ address refs, ref = .object address ∧
      objects address = some (.dict refs) ∧ ItemsHold objects refs items
  | ref, value => ref = .plain value

def AllHold (objects : Nat → Option Object) : List Ref → List Value → Prop
  | refs, [] => refs = []
  | refs, value :: rest => ∃ ref others, refs = ref :: others ∧ Holds objects ref value ∧
      AllHold objects others rest

def ItemsHold (objects : Nat → Option Object) : List (Key × Ref) → List (Key × Value) → Prop
  | refs, [] => refs = []
  | refs, (key, value) :: rest => ∃ ref others, refs = (key, ref) :: others ∧
      Holds objects ref value ∧ ItemsHold objects others rest

end

section

variable {f g : Nat → Option Object}

mutual

/-- What is read from some objects is read from more objects, too. -/
theorem Holds.mono (h : ∀ {address object}, f address = some object → g address = some object) :
    ∀ {ref : Ref} {value : Value}, Holds f ref value → Holds g ref value
  | _, .seq _, hholds => by
    rw [Holds] at hholds ⊢
    obtain ⟨address, refs, rfl, hobject, hall⟩ := hholds
    exact ⟨address, refs, rfl, h hobject, AllHold.mono h hall⟩
  | _, .dict _, hholds => by
    rw [Holds] at hholds ⊢
    obtain ⟨address, refs, rfl, hobject, hitems⟩ := hholds
    exact ⟨address, refs, rfl, h hobject, ItemsHold.mono h hitems⟩
  | _, .none, hholds | _, .bool _, hholds | _, .int _, hholds | _, .float _, hholds
  | _, .str _, hholds | _, .other, hholds => by
    rw [Holds] at hholds ⊢
    · exact hholds
    all_goals simp

theorem AllHold.mono (h : ∀ {address object}, f address = some object → g address = some object) :
    ∀ {refs : List Ref} {values : List Value}, AllHold f refs values → AllHold g refs values
  | _, [], hall => by
    rw [AllHold] at hall ⊢
    exact hall
  | _, _ :: _, hall => by
    rw [AllHold] at hall ⊢
    obtain ⟨ref, others, rfl, hfirst, hrest⟩ := hall
    exact ⟨ref, others, rfl, Holds.mono h hfirst, AllHold.mono h hrest⟩

theorem ItemsHold.mono (h : ∀ {address object}, f address = some object → g address = some object) :
    ∀ {refs : List (Key × Ref)} {items : List (Key × Value)}, ItemsHold f refs items →
      ItemsHold g refs items
  | _, [], hitems => by
    rw [ItemsHold] at hitems ⊢
    exact hitems
  | _, (_, _) :: _, hitems => by
    rw [ItemsHold] at hitems ⊢
    obtain ⟨ref, others, rfl, hfirst, hrest⟩ := hitems
    exact ⟨ref, others, rfl, Holds.mono h hfirst, ItemsHold.mono h hrest⟩

end

end

theorem holds_plain {objects : Nat → Option Object} {value : Value}
    (hseq : ∀ items, value ≠ .seq items) (hdict : ∀ items, value ≠ .dict items) :
    Holds objects (.plain value) value := by
  rw [Holds]
  · exact hseq
  · exact hdict

/-- A mapping is an object. -/
theorem Holds.address {objects : Nat → Option Object} {ref : Ref} {items : Dict}
    (h : Holds objects ref (.dict items)) : ∃ address, ref = .object address := by
  rw [Holds] at h
  obtain ⟨address, _, rfl, -⟩ := h
  exact ⟨address, rfl⟩

/-- The objects of a heap. -/
def Heap.objects (heap : Heap) : Nat → Option Object := fun address => heap[address]?

/-- The objects that have been made since there were so many. -/
def Heap.since (heap : Heap) (count : Nat) : Nat → Option Object :=
  fun address => if count ≤ address then heap[address]? else none

/-- The same without one of them. -/
def Heap.without (heap : Heap) (count except : Nat) : Nat → Option Object :=
  fun address => if count ≤ address ∧ address ≠ except then heap[address]? else none

section

variable {heap before after : Heap} {address count : Nat} {object : Object}

theorem Heap.objects_mono (h : before <+: after) (hobject : before.objects address = some object) :
    after.objects address = some object := by
  obtain ⟨added, rfl⟩ := h
  have hlt := (List.getElem?_eq_some_iff.mp hobject).1
  show (before ++ added)[address]? = some object
  rw [List.getElem?_append_left hlt]
  exact hobject

theorem Heap.since_eq_some : heap.since count address = some object ↔
    count ≤ address ∧ heap[address]? = some object := by
  unfold Heap.since
  split
  · rename_i hle
    exact (and_iff_right hle).symm
  · rename_i hlt
    exact iff_of_false (by simp) fun h => hlt h.1

theorem Heap.without_eq_some {except : Nat} : heap.without count except address = some object ↔
    (count ≤ address ∧ address ≠ except) ∧ heap[address]? = some object := by
  unfold Heap.without
  split
  · rename_i hle
    exact (and_iff_right hle).symm
  · rename_i hlt
    exact iff_of_false (by simp) fun h => hlt h.1

/-- What is made later is left alone by a change of an older object. -/
theorem Heap.prefix_set (h : before <+: after) (hlength : before.length ≤ address) :
    before <+: after.set address object := by
  obtain ⟨added, rfl⟩ := h
  rw [List.set_append_right _ _ hlength]
  exact List.prefix_append before _

end

/-! ## Computations with objects -/

/-- What may read, make and change objects, and may raise. It is cut off with `none` where Python
raises `RecursionError`. -/
def ObjectM (ε α : Type) : Type := Heap → Except (Option ε) α × Heap

namespace ObjectM

variable {ε α β : Type}

instance : Monad (ObjectM ε) where
  pure a := fun heap => (.ok a, heap)
  bind x f := fun heap =>
    match x heap with
    | (.ok a, next) => f a next
    | (.error error, next) => (.error error, next)

section

variable {x : ObjectM ε α} {f : α → ObjectM ε β} {heap next : Heap}

theorem bind_ok_run {a : α} (h : x heap = (.ok a, next)) : (x >>= f) heap = f a next := by
  show (match x heap with
    | (.ok a, next) => f a next
    | (.error error, next) => (.error error, next)) = _
  rw [h]

theorem bind_error_run {error : Option ε} (h : x heap = (.error error, next)) :
    (x >>= f) heap = (.error error, next) := by
  show (match x heap with
    | (.ok a, next) => f a next
    | (.error error, next) => (.error error, next)) = _
  rw [h]

end

def raise (error : ε) : ObjectM ε α := fun heap => (.error (some error), heap)

def recursionError : ObjectM ε α := fun heap => (.error none, heap)

/-- What changes no object. -/
def lift (result : Except ε α) : ObjectM ε α := fun heap =>
  match result with
  | .ok a => (.ok a, heap)
  | .error error => (.error (some error), heap)

/-- The object at an address. -/
def load (address : Nat) : ObjectM ε Object := fun heap => (.ok (heap.getD address (.seq [])), heap)

/-- A new object. -/
def make (object : Object) : ObjectM ε Nat := fun heap => (.ok heap.length, heap ++ [object])

/-- The object at an address becomes another one. -/
def put (address : Nat) (object : Object) : ObjectM ε Unit := fun heap =>
  (.ok (), heap.set address object)

end ObjectM

/-! ## Mappings -/

/-- The items of a mapping; a sequence has none. -/
def Object.items : Object → List (Key × Ref)
  | .seq _ => []
  | .dict items => items

/-- `mapping[key] = ref` -/
def setItem (items : List (Key × Ref)) (key : Key) (ref : Ref) : List (Key × Ref) :=
  match items with
  | [] => [(key, ref)]
  | item :: rest => if item.1 = key then (key, ref) :: rest else item :: setItem rest key ref

namespace ObjectM

variable {ε : Type}

/-- `mapping.items()` -/
def itemsOf (mapping : Nat) : ObjectM ε (List (Key × Ref)) := do
  let object ← load mapping
  return object.items

/-- `mapping.get(name)` -/
def getItem (mapping : Nat) (name : Str) : ObjectM ε (Option Ref) := do
  let items ← itemsOf mapping
  return items.lookup (.str name)

/-- `mapping[key] = ref` for the mapping at an address. -/
def assign (mapping : Nat) (key : Key) (ref : Ref) : ObjectM ε Unit := do
  let items ← itemsOf mapping
  put mapping (.dict (setItem items key ref))

/-- `isinstance(value, Mapping)`, with the address of the mapping. -/
def asMapping (ref : Ref) : ObjectM ε (Option Nat) :=
  match ref with
  | .plain _ => return none
  | .object address => do
    let object ← load address
    return match object with
      | .seq _ => none
      | .dict _ => some address

/-- `dict(mapping)` -/
def copyDict (mapping : Nat) : ObjectM ε Nat := do
  let items ← itemsOf mapping
  make (.dict items)

def forItems {α : Type} (f : Ref → ObjectM ε α) : List (Key × Ref) → ObjectM ε (List (Key × α))
  | [] => return []
  | (key, ref) :: rest => do
    let first ← f ref
    let others ← forItems f rest
    return (key, first) :: others

def forRefs {α : Type} (f : Ref → ObjectM ε α) : List Ref → ObjectM ε (List α)
  | [] => return []
  | ref :: rest => do
    let first ← f ref
    let others ← forRefs f rest
    return first :: others

/-- The copy of a mapping, whose values are copied by `copy`. -/
def deepcopyDict (copy : Ref → ObjectM ε Ref) (mapping : Nat) : ObjectM ε Nat := do
  let items ← itemsOf mapping
  let copies ← forItems copy items
  make (.dict copies)

/-- `deepcopy(ref)`. An object that occurs twice is copied twice, which cannot be told from the value
of the copy. -/
def deepcopy : Nat → Ref → ObjectM ε Ref
  | 0, _ => recursionError
  | _ + 1, .plain value => return .plain value
  | depth + 1, .object address => do
    let object ← load address
    match object with
    | .seq refs => do
      let copies ← forRefs (deepcopy depth) refs
      let copy ← make (.seq copies)
      return .object copy
    | .dict _ => do
      let copy ← deepcopyDict (deepcopy depth) address
      return .object copy

mutual

/-- An expression that builds new objects, as `as_dict` does. -/
def build : Value → ObjectM ε Ref
  | .seq items => do
    let refs ← buildAll items
    let address ← make (.seq refs)
    return .object address
  | .dict items => do
    let refs ← buildItems items
    let address ← make (.dict refs)
    return .object address
  | value => return .plain value

def buildAll : List Value → ObjectM ε (List Ref)
  | [] => return []
  | value :: rest => do
    let ref ← build value
    let refs ← buildAll rest
    return ref :: refs

def buildItems : List (Key × Value) → ObjectM ε (List (Key × Ref))
  | [] => return []
  | (key, value) :: rest => do
    let ref ← build value
    let refs ← buildItems rest
    return (key, ref) :: refs

end

/-- A mapping of new objects. -/
def buildDict (items : Dict) : ObjectM ε Nat := do
  let refs ← buildItems items
  make (.dict refs)

/-- All that can be read from a reference. -/
def read : Nat → Ref → ObjectM ε Value
  | 0, _ => recursionError
  | _ + 1, .plain value => return value
  | depth + 1, .object address => do
    let object ← load address
    match object with
    | .seq refs => do
      let values ← forRefs (read depth) refs
      return .seq values
    | .dict items => do
      let values ← forItems (read depth) items
      return .dict values

end ObjectM

/-! ## What is kept -/

/-- The objects of `kept` stay as they are, also when an exception is raised, and what is returned is
as it should be. -/
def Keeps {ε α : Type} (kept : Heap) (x : ObjectM ε α) (post : α → Prop) : Prop :=
  ∀ heap, kept <+: heap → kept <+: (x heap).2 ∧ ∀ a, (x heap).1 = .ok a → post a

namespace Keeps

open ObjectM

variable {ε α β : Type} {kept : Heap} {x : ObjectM ε α} {f : α → ObjectM ε β} {post : α → Prop}
  {last : β → Prop} {address : Nat}

theorem pure {a : α} (h : post a) : Keeps kept (Pure.pure a : ObjectM ε α) post := by
  intro heap hkept
  refine ⟨hkept, fun b hb => ?_⟩
  cases hb
  exact h

theorem bind (hx : Keeps kept x post) (hf : ∀ a, post a → Keeps kept (f a) last) :
    Keeps kept (x >>= f) last := by
  intro heap hkept
  obtain ⟨hnext, hpost⟩ := hx heap hkept
  cases hrun : x heap with
  | mk result next =>
    rw [hrun] at hnext hpost
    cases result with
    | ok a =>
      rw [bind_ok_run hrun]
      exact hf a (hpost a rfl) next hnext
    | error error =>
      rw [bind_error_run hrun]
      exact ⟨hnext, fun _ h => (by cases h)⟩

/-- What changes no object at all. -/
theorem of_same (h : ∀ heap, (x heap).2 = heap) : Keeps kept x fun _ => True := by
  intro heap hkept
  rw [h]
  exact ⟨hkept, fun _ _ => trivial⟩

theorem recursionError : Keeps kept (ObjectM.recursionError : ObjectM ε α) post :=
  fun _ hkept => ⟨hkept, fun _ h => (by cases h)⟩

theorem raise {error : ε} : Keeps kept (ObjectM.raise error : ObjectM ε α) post :=
  fun _ hkept => ⟨hkept, fun _ h => (by cases h)⟩

theorem lift {result : Except ε α} : Keeps kept (ObjectM.lift result) fun _ => True := by
  apply of_same
  intro heap
  cases result with
  | ok a => rfl
  | error error => rfl

theorem make {object : Object} :
    Keeps kept (ObjectM.make object : ObjectM ε Nat) fun address => kept.length ≤ address := by
  intro heap hkept
  refine ⟨hkept.trans (List.prefix_append heap _), fun address h => ?_⟩
  cases h
  exact hkept.length_le

theorem itemsOf : Keeps kept (ObjectM.itemsOf address : ObjectM ε _) fun _ => True :=
  of_same fun _ => rfl

theorem getItem {name : Str} : Keeps kept (ObjectM.getItem address name : ObjectM ε _) fun _ => True :=
  of_same fun _ => rfl

theorem asMapping {ref : Ref} : Keeps kept (ObjectM.asMapping ref : ObjectM ε _) fun _ => True := by
  apply of_same
  intro heap
  cases ref with
  | plain value => rfl
  | object address => rfl

/-- Only what is new may be changed. -/
theorem assign {key : Key} {ref : Ref} (h : kept.length ≤ address) :
    Keeps kept (ObjectM.assign address key ref : ObjectM ε Unit) fun _ => True := by
  intro heap hkept
  exact ⟨Heap.prefix_set hkept h, fun _ _ => trivial⟩

theorem copyDict : Keeps kept (ObjectM.copyDict address : ObjectM ε Nat) fun copy =>
    kept.length ≤ copy :=
  itemsOf.bind fun _ _ => make

theorem forItems {f : Ref → ObjectM ε α} (h : ∀ ref, Keeps kept (f ref) fun _ => True)
    (items : List (Key × Ref)) : Keeps kept (ObjectM.forItems f items) fun _ => True := by
  induction items with
  | nil => exact pure trivial
  | cons item rest ih => exact (h item.2).bind fun _ _ => ih.bind fun _ _ => pure trivial

theorem forRefs {f : Ref → ObjectM ε α} (h : ∀ ref, Keeps kept (f ref) fun _ => True)
    (refs : List Ref) : Keeps kept (ObjectM.forRefs f refs) fun _ => True := by
  induction refs with
  | nil => exact pure trivial
  | cons ref rest ih => exact (h ref).bind fun _ _ => ih.bind fun _ _ => pure trivial

theorem deepcopyDict {copy : Ref → ObjectM ε Ref} (h : ∀ ref, Keeps kept (copy ref) fun _ => True) :
    Keeps kept (ObjectM.deepcopyDict copy address) fun result => kept.length ≤ result :=
  itemsOf.bind fun items _ => (forItems h items).bind fun _ _ => make

theorem deepcopy (depth : Nat) (ref : Ref) :
    Keeps kept (ObjectM.deepcopy depth ref : ObjectM ε Ref) fun _ => True := by
  induction depth generalizing ref with
  | zero => exact recursionError
  | succ depth ih =>
    cases ref with
    | plain value => exact pure trivial
    | object address =>
      refine bind (of_same fun _ => rfl) fun object _ => ?_
      cases object with
      | seq refs =>
        exact (forRefs ih refs).bind fun _ _ => make.bind fun _ _ => pure trivial
      | dict items => exact (deepcopyDict ih).bind fun _ _ => pure trivial

theorem read (depth : Nat) (ref : Ref) :
    Keeps kept (ObjectM.read depth ref : ObjectM ε Value) fun _ => True := by
  induction depth generalizing ref with
  | zero => exact recursionError
  | succ depth ih =>
    cases ref with
    | plain value => exact pure trivial
    | object address =>
      refine bind (of_same fun _ => rfl) fun object _ => ?_
      cases object with
      | seq refs => exact (forRefs ih refs).bind fun _ _ => pure trivial
      | dict items => exact (forItems ih items).bind fun _ _ => pure trivial

mutual

theorem build : ∀ value : Value, Keeps kept (ObjectM.build value : ObjectM ε Ref) fun _ => True
  | .seq items => by
    rw [ObjectM.build]
    exact (buildAll items).bind fun _ _ => make.bind fun _ _ => pure trivial
  | .dict items => by
    rw [ObjectM.build]
    exact (buildItems items).bind fun _ _ => make.bind fun _ _ => pure trivial
  | .none | .bool _ | .int _ | .float _ | .str _ | .other => by
    rw [ObjectM.build]
    · exact pure trivial
    all_goals simp

theorem buildAll : ∀ values : List Value,
    Keeps kept (ObjectM.buildAll values : ObjectM ε _) fun _ => True
  | [] => by
    rw [ObjectM.buildAll]
    exact pure trivial
  | value :: rest => by
    rw [ObjectM.buildAll]
    exact (build value).bind fun _ _ => (buildAll rest).bind fun _ _ => pure trivial

theorem buildItems : ∀ items : List (Key × Value),
    Keeps kept (ObjectM.buildItems items : ObjectM ε _) fun _ => True
  | [] => by
    rw [ObjectM.buildItems]
    exact pure trivial
  | (key, value) :: rest => by
    rw [ObjectM.buildItems]
    exact (build value).bind fun _ _ => (buildItems rest).bind fun _ _ => pure trivial

end

theorem buildDict (items : Dict) :
    Keeps kept (ObjectM.buildDict items : ObjectM ε Nat) fun address => kept.length ≤ address :=
  (buildItems items).bind fun _ _ => make

end Keeps

/-! ## What is computed -/

mutual

/-- How deep the mappings and sequences of a value are nested. -/
def Value.height : Value → Nat
  | .seq items => allHeight items + 1
  | .dict items => itemsHeight items + 1
  | _ => 1

def allHeight : List Value → Nat
  | [] => 0
  | value :: rest => max value.height (allHeight rest)

def itemsHeight : List (Key × Value) → Nat
  | [] => 0
  | (_, value) :: rest => max value.height (itemsHeight rest)

end

theorem Value.height_pos (value : Value) : 0 < value.height := by
  cases value with
  | seq items => exact Nat.succ_pos _
  | dict items => exact Nat.succ_pos _
  | _ => exact Nat.one_pos

theorem height_le_of_get? {items : Dict} {name : Str} {value : Value}
    (h : items.get? name = some value) : value.height ≤ itemsHeight items := by
  induction items with
  | nil => cases h
  | cons item rest ih =>
    obtain ⟨key, first⟩ := item
    rw [Dict.get?, Dict.lookup_cons] at h
    rw [itemsHeight]
    split at h
    · cases h
      exact Nat.le_max_left _ _
    · exact (ih h).trans (Nat.le_max_right _ _)

section

variable {before after : Heap} {ref : Ref} {value : Value} {address count least : Nat}
  {object : Object}

theorem Heap.since_mono (h : before <+: after) (hle : least ≤ count)
    (hobject : before.since count address = some object) :
    after.since least address = some object := by
  obtain ⟨hcount, hget⟩ := Heap.since_eq_some.mp hobject
  exact Heap.since_eq_some.mpr ⟨by omega, Heap.objects_mono h hget⟩

theorem Heap.objects_of_since (hobject : before.since count address = some object) :
    before.objects address = some object :=
  (Heap.since_eq_some.mp hobject).2

/-- The object at the address of a new one. -/
theorem Heap.since_concat (hle : count ≤ before.length) :
    (before ++ [object] : Heap).since count before.length = some object :=
  Heap.since_eq_some.mpr ⟨hle, List.getElem?_concat_length⟩

theorem Heap.getD_eq {heap : Heap} {otherwise : Object} (h : heap.objects address = some object) :
    heap.getD address otherwise = object := by
  have hget : heap[address]? = some object := h
  rw [List.getD_eq_getElem?_getD, hget, Option.getD_some]

end

theorem ObjectM.load_run {ε : Type} {heap : Heap} {address : Nat} {object : Object}
    (h : heap.objects address = some object) :
    (ObjectM.load address : ObjectM ε Object) heap = (.ok object, heap) := by
  rw [ObjectM.load, Heap.getD_eq h]

theorem ObjectM.itemsOf_run {ε : Type} {heap : Heap} {address : Nat} {refs : List (Key × Ref)}
    (h : heap.objects address = some (.dict refs)) :
    (ObjectM.itemsOf address : ObjectM ε _) heap = (.ok refs, heap) := by
  rw [ObjectM.itemsOf, ObjectM.bind_ok_run (ObjectM.load_run h)]
  rfl

theorem ObjectM.getItem_run {ε : Type} {heap : Heap} {address : Nat} {refs : List (Key × Ref)}
    {name : Str} (h : heap.objects address = some (.dict refs)) :
    (ObjectM.getItem address name : ObjectM ε _) heap = (.ok (refs.lookup (.str name)), heap) := by
  rw [ObjectM.getItem, ObjectM.bind_ok_run (ObjectM.itemsOf_run h)]
  rfl

/-! ## Setting an item -/

section

variable {objects : Nat → Option Object} {refs : List (Key × Ref)} {items : Dict} {key : Key}
  {ref : Ref} {value : Value}

theorem ItemsHold.set (hitems : ItemsHold objects refs items) (hholds : Holds objects ref value) :
    ItemsHold objects (setItem refs key ref) (Dict.set items key value) := by
  induction items generalizing refs with
  | nil =>
    rw [ItemsHold] at hitems
    subst hitems
    rw [Dict.set, ItemsHold]
    exact ⟨ref, [], rfl, hholds, by rw [ItemsHold]⟩
  | cons item rest ih =>
    obtain ⟨first, old⟩ := item
    rw [ItemsHold] at hitems
    obtain ⟨oldRef, others, rfl, hfirst, hrest⟩ := hitems
    rw [setItem, Dict.set]
    split
    · rw [ItemsHold]
      exact ⟨ref, others, rfl, hholds, hrest⟩
    · rw [ItemsHold]
      exact ⟨oldRef, _, rfl, hfirst, ih hrest⟩

/-- An item is found where it is in the value, and holds what it has there. -/
theorem ItemsHold.lookup (hitems : ItemsHold objects refs items) :
    (∀ value, items.lookup key = some value →
      ∃ ref, refs.lookup key = some ref ∧ Holds objects ref value) ∧
    (items.lookup key = none → refs.lookup key = none) := by
  induction items generalizing refs with
  | nil =>
    rw [ItemsHold] at hitems
    subst hitems
    constructor
    · intro value h
      cases h
    · intro _
      rfl
  | cons item rest ih =>
    obtain ⟨first, old⟩ := item
    rw [ItemsHold] at hitems
    obtain ⟨oldRef, others, rfl, hfirst, hrest⟩ := hitems
    rw [List.lookup_cons, List.lookup_cons]
    cases key == first with
    | true =>
      constructor
      · intro value hvalue
        cases hvalue
        exact ⟨oldRef, rfl, hfirst⟩
      · intro hnone
        cases hnone
    | false => exact ih hrest

theorem ItemsHold.keys (hitems : ItemsHold objects refs items) :
    refs.map Prod.fst = items.map Prod.fst := by
  induction items generalizing refs with
  | nil =>
    rw [ItemsHold] at hitems
    subst hitems
    rfl
  | cons item rest ih =>
    obtain ⟨first, old⟩ := item
    rw [ItemsHold] at hitems
    obtain ⟨oldRef, others, rfl, -, hrest⟩ := hitems
    rw [List.map_cons, List.map_cons, ih hrest]

end

/-! ## New mappings -/

/-- A mapping with these items that has been made since `start`, as everything in it has. -/
structure NewDict (start heap : Heap) (address : Nat) (items : Dict) : Prop where
  kept : start <+: heap
  new : start.length ≤ address
  held : ∃ refs, heap.objects address = some (.dict refs) ∧
    ItemsHold (heap.without start.length address) refs items

namespace NewDict

open ObjectM

variable {start heap next : Heap} {address : Nat} {items : Dict} {refs : List (Key × Ref)}

theorem of_make {count : Nat} (hstart : start <+: next) (hcount : start.length ≤ count)
    (hitems : ItemsHold (next.since count) refs items) :
    NewDict start (next ++ [.dict refs]) next.length items := by
  refine ⟨hstart.trans (List.prefix_append _ _), hstart.length_le, refs,
    List.getElem?_concat_length, ItemsHold.mono (fun hobject => ?_) hitems⟩
  obtain ⟨hle, hget⟩ := Heap.since_eq_some.mp hobject
  have hlt := (List.getElem?_eq_some_iff.mp hget).1
  refine Heap.without_eq_some.mpr ⟨⟨by omega, by omega⟩, ?_⟩
  rw [List.getElem?_append_left hlt]
  exact hget

theorem holds (h : NewDict start heap address items) :
    Holds (heap.since start.length) (.object address) (.dict items) := by
  obtain ⟨refs, hobject, hitems⟩ := h.held
  rw [Holds]
  refine ⟨address, refs, rfl, Heap.since_eq_some.mpr ⟨h.new, hobject⟩, ?_⟩
  refine ItemsHold.mono (fun hwithout => ?_) hitems
  obtain ⟨⟨hle, -⟩, hget⟩ := Heap.without_eq_some.mp hwithout
  exact Heap.since_eq_some.mpr ⟨hle, hget⟩

/-- What has been made later has been made since an earlier time. -/
theorem older {earlier : Heap} (h : NewDict start heap address items) (hearlier : earlier <+: start) :
    NewDict earlier heap address items := by
  obtain ⟨refs, hobject, hitems⟩ := h.held
  have hle := hearlier.length_le
  refine ⟨hearlier.trans h.kept, hle.trans h.new, refs, hobject,
    ItemsHold.mono (fun hwithout => ?_) hitems⟩
  obtain ⟨⟨hplace, hne⟩, hget⟩ := Heap.without_eq_some.mp hwithout
  exact Heap.without_eq_some.mpr ⟨⟨hle.trans hplace, hne⟩, hget⟩

/-- An item may be set to what has been made later, and the mapping has it then. -/
theorem assign {ε : Type} {key : Key} {ref : Ref} {value : Value}
    (h : NewDict start heap address items) (hnext : heap <+: next)
    (hvalue : Holds (next.since heap.length) ref value) :
    ∃ after, (ObjectM.assign address key ref : ObjectM ε Unit) next = (.ok (), after) ∧
      NewDict start after address (items.set key value) := by
  obtain ⟨refs, hobject, hitems⟩ := h.held
  have hlt : address < heap.length := (List.getElem?_eq_some_iff.mp hobject).1
  have hlength := hnext.length_le
  have hstart := h.kept.length_le
  have hother : ∀ {other : Nat} {object : Object}, other ≠ address → next[other]? = some object →
      (next.set address (.dict (setItem refs key ref)))[other]? = some object := by
    intro other object hne hget
    rw [List.getElem?_set_ne (Ne.symm hne)]
    exact hget
  refine ⟨next.set address (.dict (setItem refs key ref)), ?_, ?_, h.new, setItem refs key ref, ?_,
    ItemsHold.set (ItemsHold.mono (fun hwithout => ?_) hitems) (Holds.mono (fun hsince => ?_) hvalue)⟩
  · rw [ObjectM.assign, bind_ok_run (itemsOf_run (Heap.objects_mono hnext hobject))]
    rfl
  · exact Heap.prefix_set (h.kept.trans hnext) h.new
  · exact List.getElem?_set_self (by omega)
  · obtain ⟨hplace, hget⟩ := Heap.without_eq_some.mp hwithout
    exact Heap.without_eq_some.mpr ⟨hplace, hother hplace.2 (Heap.objects_mono hnext hget)⟩
  · obtain ⟨hle, hget⟩ := Heap.since_eq_some.mp hsince
    exact Heap.without_eq_some.mpr ⟨⟨by omega, by omega⟩, hother (by omega) hget⟩

end NewDict

/-! ## What copies hold -/

/-- A computation ends like `result`. -/
def Ends {ε α β : Type} (x : ObjectM ε α) (heap : Heap) (result : Except ε β)
    (post : Heap → α → β → Prop) : Prop :=
  match result with
  | .ok b => ∃ a after, x heap = (.ok a, after) ∧ post after a b
  | .error error => ∃ after, x heap = (.error (some error), after)

namespace Ends

variable {ε α β γ δ : Type} {x : ObjectM ε α} {f : α → ObjectM ε γ} {heap : Heap}
  {result : Except ε β} {g : β → Except ε δ} {post : Heap → α → β → Prop}
  {last : Heap → γ → δ → Prop}

theorem pure {a : α} {b : β} (h : post heap a b) :
    Ends (Pure.pure a : ObjectM ε α) heap (.ok b) post :=
  ⟨a, heap, rfl, h⟩

theorem raise {error : ε} : Ends (ObjectM.raise error : ObjectM ε α) heap (.error error) post :=
  ⟨heap, rfl⟩

theorem bind (hx : Ends x heap result post)
    (hf : ∀ after a b, post after a b → Ends (f a) after (g b) last) :
    Ends (x >>= f) heap (result >>= g) last := by
  cases result with
  | error error =>
    obtain ⟨after, hrun⟩ := hx
    exact ⟨after, ObjectM.bind_error_run hrun⟩
  | ok b =>
    obtain ⟨a, after, hrun, hpost⟩ := hx
    show Ends (x >>= f) heap (g b) last
    have hrest := hf after a b hpost
    unfold Ends at hrest ⊢
    rw [ObjectM.bind_ok_run hrun]
    exact hrest

/-- The first step may be known as it is. -/
theorem after_run {a : α} {next : Heap} {result : Except ε δ} (h : x heap = (.ok a, next))
    (hf : Ends (f a) next result last) : Ends (x >>= f) heap result last := by
  unfold Ends at hf ⊢
  rw [ObjectM.bind_ok_run h]
  exact hf

theorem weaken {weaker : Heap → α → β → Prop} (hx : Ends x heap result post)
    (h : ∀ after a b, post after a b → weaker after a b) : Ends x heap result weaker := by
  cases result with
  | error error => exact hx
  | ok b =>
    obtain ⟨a, after, hrun, hpost⟩ := hx
    exact ⟨a, after, hrun, h after a b hpost⟩

theorem result_eq {result : Except ε α} (hx : Ends x heap result fun _ a b => a = b) :
    (x heap).1 = result.mapError some := by
  cases result with
  | error error =>
    obtain ⟨after, hrun⟩ := hx
    rw [hrun]
    rfl
  | ok b =>
    obtain ⟨a, after, hrun, rfl⟩ := hx
    rw [hrun]
    rfl

end Ends

/-- A computation ends like `result`, and what it returns is read from new objects alone. -/
def Yields {ε α β : Type} (x : ObjectM ε α) (heap : Heap) (result : Except ε β)
    (reads : (Nat → Option Object) → α → β → Prop) : Prop :=
  Ends x heap result fun after a b => heap <+: after ∧ reads (after.since heap.length) a b

namespace Yields

open ObjectM

variable {ε : Type} {heap : Heap}

theorem forItems {copy : Ref → ObjectM ε Ref} {refs : List (Key × Ref)} {items : List (Key × Value)}
    (hitems : ItemsHold heap.objects refs items) {depth : Nat} (hdepth : itemsHeight items ≤ depth)
    (h : ∀ (later : Heap) (ref : Ref) (value : Value), Holds later.objects ref value →
      value.height ≤ depth → Yields (copy ref) later (.ok value) Holds) :
    Yields (ObjectM.forItems copy refs) heap (.ok items) ItemsHold := by
  induction items generalizing refs heap with
  | nil =>
    rw [ItemsHold] at hitems
    subst hitems
    exact ⟨[], heap, rfl, List.prefix_rfl, by rw [ItemsHold]⟩
  | cons item rest ih =>
    obtain ⟨key, value⟩ := item
    rw [ItemsHold] at hitems
    obtain ⟨ref, others, rfl, hfirst, hrest⟩ := hitems
    rw [itemsHeight] at hdepth
    obtain ⟨first, next, hrun, hnext, hreads⟩ := h heap ref value hfirst (by omega)
    obtain ⟨copies, after, hruns, hafter, hcopies⟩ :=
      ih (ItemsHold.mono (Heap.objects_mono hnext) hrest) (by omega)
    refine ⟨(key, first) :: copies, after, ?_, hnext.trans hafter, ?_⟩
    · rw [ObjectM.forItems, bind_ok_run hrun, bind_ok_run hruns]
      rfl
    · rw [ItemsHold]
      refine ⟨first, copies, rfl, ?_, ?_⟩
      · exact Holds.mono (Heap.since_mono hafter (Nat.le_refl _)) hreads
      · exact ItemsHold.mono (Heap.since_mono List.prefix_rfl hnext.length_le) hcopies

theorem forRefs {copy : Ref → ObjectM ε Ref} {refs : List Ref} {values : List Value}
    (hall : AllHold heap.objects refs values) {depth : Nat} (hdepth : allHeight values ≤ depth)
    (h : ∀ (later : Heap) (ref : Ref) (value : Value), Holds later.objects ref value →
      value.height ≤ depth → Yields (copy ref) later (.ok value) Holds) :
    Yields (ObjectM.forRefs copy refs) heap (.ok values) AllHold := by
  induction values generalizing refs heap with
  | nil =>
    rw [AllHold] at hall
    subst hall
    exact ⟨[], heap, rfl, List.prefix_rfl, by rw [AllHold]⟩
  | cons value rest ih =>
    rw [AllHold] at hall
    obtain ⟨ref, others, rfl, hfirst, hrest⟩ := hall
    rw [allHeight] at hdepth
    obtain ⟨first, next, hrun, hnext, hreads⟩ := h heap ref value hfirst (by omega)
    obtain ⟨copies, after, hruns, hafter, hcopies⟩ :=
      ih (AllHold.mono (Heap.objects_mono hnext) hrest) (by omega)
    refine ⟨first :: copies, after, ?_, hnext.trans hafter, ?_⟩
    · rw [ObjectM.forRefs, bind_ok_run hrun, bind_ok_run hruns]
      rfl
    · rw [AllHold]
      refine ⟨first, copies, rfl, ?_, ?_⟩
      · exact Holds.mono (Heap.since_mono hafter (Nat.le_refl _)) hreads
      · exact AllHold.mono (Heap.since_mono List.prefix_rfl hnext.length_le) hcopies

/-- A mapping that is made of new items. -/
theorem make_dict {next : Heap} {refs : List (Key × Ref)} {items : List (Key × Value)}
    (hnext : heap <+: next) (hitems : ItemsHold (next.since heap.length) refs items) :
    Holds ((next ++ [.dict refs] : Heap).since heap.length) (.object next.length) (.dict items) :=
  (NewDict.of_make hnext (Nat.le_refl _) hitems).holds

theorem make_seq {next : Heap} {refs : List Ref} {values : List Value}
    (hnext : heap <+: next) (hall : AllHold (next.since heap.length) refs values) :
    Holds ((next ++ [.seq refs] : Heap).since heap.length) (.object next.length) (.seq values) := by
  rw [Holds]
  exact ⟨next.length, refs, rfl, Heap.since_concat hnext.length_le,
    AllHold.mono (Heap.since_mono (List.prefix_append _ _) (Nat.le_refl _)) hall⟩

/-- The copy of a mapping is a new one with the same items. -/
theorem deepcopyDict {copy : Ref → ObjectM ε Ref} {address : Nat} {refs : List (Key × Ref)}
    {items : List (Key × Value)} (hobject : heap.objects address = some (.dict refs))
    (hitems : ItemsHold heap.objects refs items) {depth : Nat} (hdepth : itemsHeight items ≤ depth)
    (h : ∀ (later : Heap) (ref : Ref) (value : Value), Holds later.objects ref value →
      value.height ≤ depth → Yields (copy ref) later (.ok value) Holds) :
    ∃ result after, ObjectM.deepcopyDict copy address heap = (.ok result, after) ∧
      NewDict heap after result items := by
  obtain ⟨copies, next, hruns, hnext, hcopies⟩ := forItems hitems hdepth h
  refine ⟨next.length, next ++ [.dict copies], ?_, .of_make hnext (Nat.le_refl _) hcopies⟩
  rw [ObjectM.deepcopyDict, bind_ok_run (itemsOf_run hobject), bind_ok_run hruns]
  rfl

/-- A copy holds the same value. -/
theorem deepcopy {depth : Nat} {ref : Ref} {value : Value} (hholds : Holds heap.objects ref value)
    (hdepth : value.height ≤ depth) :
    Yields (ObjectM.deepcopy depth ref : ObjectM ε Ref) heap (.ok value) Holds := by
  induction depth generalizing heap ref value with
  | zero => exact absurd hdepth (by have := value.height_pos; omega)
  | succ depth ih =>
    cases value with
    | seq values =>
      rw [Holds] at hholds
      obtain ⟨address, refs, rfl, hobject, hall⟩ := hholds
      rw [Value.height] at hdepth
      obtain ⟨copies, next, hruns, hnext, hcopies⟩ :=
        @forRefs ε heap _ _ _ hall _ (Nat.le_of_succ_le_succ hdepth) fun _ _ _ => ih
      refine ⟨.object next.length, next ++ [.seq copies], ?_, hnext.trans (List.prefix_append _ _),
        make_seq hnext hcopies⟩
      rw [ObjectM.deepcopy, bind_ok_run (load_run hobject)]
      show (ObjectM.forRefs _ refs >>= _) heap = _
      rw [bind_ok_run hruns]
      rfl
    | dict items =>
      rw [Holds] at hholds
      obtain ⟨address, refs, rfl, hobject, hitems⟩ := hholds
      rw [Value.height] at hdepth
      obtain ⟨copy, next, hrun, hcopy⟩ :=
        @deepcopyDict ε heap _ _ _ _ hobject hitems _ (Nat.le_of_succ_le_succ hdepth) fun _ _ _ => ih
      refine ⟨.object copy, next, ?_, hcopy.kept, hcopy.holds⟩
      rw [ObjectM.deepcopy, bind_ok_run (load_run hobject)]
      show (ObjectM.deepcopyDict _ address >>= _) heap = _
      rw [bind_ok_run hrun]
      rfl
    | _ =>
      rw [Holds] at hholds
      · subst hholds
        exact ⟨_, heap, rfl, List.prefix_rfl, holds_plain (by simp) (by simp)⟩
      all_goals simp

mutual

/-- What is built holds the value. -/
theorem build : ∀ (value : Value) {heap : Heap},
    Yields (ObjectM.build value : ObjectM ε Ref) heap (.ok value) Holds
  | .seq values, heap => by
    obtain ⟨refs, next, hruns, hnext, hall⟩ := @buildAll values heap
    refine ⟨.object next.length, next ++ [.seq refs], ?_, hnext.trans (List.prefix_append _ _),
      make_seq hnext hall⟩
    rw [ObjectM.build, bind_ok_run hruns]
    rfl
  | .dict items, heap => by
    obtain ⟨refs, next, hruns, hnext, hitems⟩ := @buildItems items heap
    refine ⟨.object next.length, next ++ [.dict refs], ?_, hnext.trans (List.prefix_append _ _),
      make_dict hnext hitems⟩
    rw [ObjectM.build, bind_ok_run hruns]
    rfl
  | .none, heap | .bool _, heap | .int _, heap | .float _, heap | .str _, heap | .other, heap =>
    ⟨.plain _, heap, rfl, List.prefix_rfl, holds_plain (by simp) (by simp)⟩

theorem buildAll : ∀ (values : List Value) {heap : Heap},
    Yields (ObjectM.buildAll values : ObjectM ε _) heap (.ok values) AllHold
  | [], heap => by
    refine ⟨[], heap, ?_, List.prefix_rfl, by rw [AllHold]⟩
    rw [ObjectM.buildAll]
    rfl
  | value :: rest, heap => by
    obtain ⟨ref, next, hrun, hnext, hfirst⟩ := @build value heap
    obtain ⟨refs, after, hruns, hafter, hall⟩ := @buildAll rest next
    refine ⟨ref :: refs, after, ?_, hnext.trans hafter, ?_⟩
    · rw [ObjectM.buildAll, bind_ok_run hrun, bind_ok_run hruns]
      rfl
    · rw [AllHold]
      exact ⟨ref, refs, rfl, Holds.mono (Heap.since_mono hafter (Nat.le_refl _)) hfirst,
        AllHold.mono (Heap.since_mono List.prefix_rfl hnext.length_le) hall⟩

theorem buildItems : ∀ (items : List (Key × Value)) {heap : Heap},
    Yields (ObjectM.buildItems items : ObjectM ε _) heap (.ok items) ItemsHold
  | [], heap => by
    refine ⟨[], heap, ?_, List.prefix_rfl, by rw [ItemsHold]⟩
    rw [ObjectM.buildItems]
    rfl
  | (key, value) :: rest, heap => by
    obtain ⟨ref, next, hrun, hnext, hfirst⟩ := @build value heap
    obtain ⟨refs, after, hruns, hafter, hitems⟩ := @buildItems rest next
    refine ⟨(key, ref) :: refs, after, ?_, hnext.trans hafter, ?_⟩
    · rw [ObjectM.buildItems, bind_ok_run hrun, bind_ok_run hruns]
      rfl
    · rw [ItemsHold]
      exact ⟨ref, refs, rfl, Holds.mono (Heap.since_mono hafter (Nat.le_refl _)) hfirst,
        ItemsHold.mono (Heap.since_mono List.prefix_rfl hnext.length_le) hitems⟩

end

theorem buildDict (items : Dict) :
    Yields (ObjectM.buildDict items : ObjectM ε Nat) heap (.ok items) fun objects address items =>
      Holds objects (.object address) (.dict items) := by
  obtain ⟨refs, next, hruns, hnext, hitems⟩ := @buildItems ε items heap
  refine ⟨next.length, next ++ [.dict refs], ?_, hnext.trans (List.prefix_append _ _),
    make_dict hnext hitems⟩
  rw [ObjectM.buildDict, bind_ok_run hruns]
  rfl

end Yields

/-! ## What is read -/

section

open ObjectM

variable {ε : Type} {heap : Heap}

theorem readItems_run {f : Ref → ObjectM ε Value} {refs : List (Key × Ref)}
    {items : List (Key × Value)} (hitems : ItemsHold heap.objects refs items) {depth : Nat}
    (hdepth : itemsHeight items ≤ depth)
    (h : ∀ (ref : Ref) (value : Value), Holds heap.objects ref value → value.height ≤ depth →
      f ref heap = (.ok value, heap)) :
    ObjectM.forItems f refs heap = (.ok items, heap) := by
  induction items generalizing refs with
  | nil =>
    rw [ItemsHold] at hitems
    subst hitems
    rfl
  | cons item rest ih =>
    obtain ⟨key, value⟩ := item
    rw [ItemsHold] at hitems
    obtain ⟨ref, others, rfl, hfirst, hrest⟩ := hitems
    rw [itemsHeight] at hdepth
    rw [ObjectM.forItems, bind_ok_run (h ref value hfirst (by omega)),
      bind_ok_run (ih hrest (by omega))]
    rfl

theorem readRefs_run {f : Ref → ObjectM ε Value} {refs : List Ref} {values : List Value}
    (hall : AllHold heap.objects refs values) {depth : Nat} (hdepth : allHeight values ≤ depth)
    (h : ∀ (ref : Ref) (value : Value), Holds heap.objects ref value → value.height ≤ depth →
      f ref heap = (.ok value, heap)) :
    ObjectM.forRefs f refs heap = (.ok values, heap) := by
  induction values generalizing refs with
  | nil =>
    rw [AllHold] at hall
    subst hall
    rfl
  | cons value rest ih =>
    rw [AllHold] at hall
    obtain ⟨ref, others, rfl, hfirst, hrest⟩ := hall
    rw [allHeight] at hdepth
    rw [ObjectM.forRefs, bind_ok_run (h ref value hfirst (by omega)),
      bind_ok_run (ih hrest (by omega))]
    rfl

/-- What a reference holds is what is read from it. -/
theorem read_run {depth : Nat} {ref : Ref} {value : Value} (hholds : Holds heap.objects ref value)
    (hdepth : value.height ≤ depth) :
    (ObjectM.read depth ref : ObjectM ε Value) heap = (.ok value, heap) := by
  induction depth generalizing ref value with
  | zero => exact absurd hdepth (by have := value.height_pos; omega)
  | succ depth ih =>
    cases value with
    | seq values =>
      rw [Holds] at hholds
      obtain ⟨address, refs, rfl, hobject, hall⟩ := hholds
      rw [Value.height] at hdepth
      rw [ObjectM.read, bind_ok_run (load_run hobject)]
      show (ObjectM.forRefs _ refs >>= _) heap = _
      rw [bind_ok_run (readRefs_run hall (Nat.le_of_succ_le_succ hdepth) fun _ _ => ih)]
      rfl
    | dict items =>
      rw [Holds] at hholds
      obtain ⟨address, refs, rfl, hobject, hitems⟩ := hholds
      rw [Value.height] at hdepth
      rw [ObjectM.read, bind_ok_run (load_run hobject)]
      show (ObjectM.forItems _ refs >>= _) heap = _
      rw [bind_ok_run (readItems_run hitems (Nat.le_of_succ_le_succ hdepth) fun _ _ => ih)]
      rfl
    | _ =>
      rw [Holds] at hholds
      · subst hholds
        rfl
      all_goals simp

end

end Python
