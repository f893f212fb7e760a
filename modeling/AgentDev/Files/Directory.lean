import Mathlib.Logic.Function.Basic

/-!
# The files of one directory

A `Directory` says what stands under each name, and what each file contains. A file is known by its
number: a descriptor goes on writing to the file that it was opened on, whatever happens to the
name. No file has two names, and every file with a name has been created; both are fields, so
that the operations prove them once.

The operations are what the system calls do when they succeed: creating an empty file, truncating
and writing one, renaming it over another name, and removing a name.
-/

namespace Files

/-- What stands under a name. -/
inductive Node
  | missing
  | file (inode : Nat)
  | directory
  | link
  deriving DecidableEq

structure Directory (N : Type) where
  node : N → Node
  bytes : Nat → List UInt8
  /-- The number of the next file that is created. -/
  next : Nat
  created : ∀ name inode, node name = .file inode → inode < next
  single : ∀ name name' inode, node name = .file inode → node name' = .file inode → name = name'

/-- The bytes of a file after `data` has been written at `offset`; a gap is filled with zeros. -/
def overwrite (bytes : List UInt8) (offset : Nat) (data : List UInt8) : List UInt8 :=
  bytes.take offset ++ List.replicate (offset - bytes.length) 0 ++ data ++
    bytes.drop (offset + data.length)

/-- Writing on at the end of a file. -/
theorem overwrite_length (bytes data : List UInt8) :
    overwrite bytes bytes.length data = bytes ++ data := by
  simp [overwrite]

namespace Directory

variable {N : Type}

section

variable (d : Directory N)

def truncate (inode : Nat) : Directory N :=
  { d with bytes := Function.update d.bytes inode [] }

def write (inode offset : Nat) (data : List UInt8) : Directory N :=
  { d with bytes := Function.update d.bytes inode (overwrite (d.bytes inode) offset data) }

variable {d} {inode k : Nat}

@[simp] theorem truncate_bytes_self : (d.truncate inode).bytes inode = [] := Function.update_self ..

@[simp] theorem truncate_bytes_of_ne (h : k ≠ inode) : (d.truncate inode).bytes k = d.bytes k :=
  Function.update_of_ne h ..

@[simp] theorem write_bytes_self (offset : Nat) (data : List UInt8) :
    (d.write inode offset data).bytes inode = overwrite (d.bytes inode) offset data :=
  Function.update_self ..

@[simp] theorem write_bytes_of_ne (offset : Nat) (data : List UInt8) (h : k ≠ inode) :
    (d.write inode offset data).bytes k = d.bytes k := Function.update_of_ne h ..

end

variable [DecidableEq N] (d : Directory N)

/-- A new empty file under `name`. -/
def create (name : N) : Directory N where
  node := Function.update d.node name (.file d.next)
  bytes := Function.update d.bytes d.next []
  next := d.next + 1
  created other inode h := by
    by_cases hother : other = name
    · subst hother
      rw [Function.update_self, Node.file.injEq] at h
      omega
    · rw [Function.update_of_ne hother] at h
      have := d.created other inode h
      omega
  single other other' inode h h' := by
    by_cases hother : other = name <;> by_cases hother' : other' = name
    · rw [hother, hother']
    · subst hother
      rw [Function.update_self, Node.file.injEq] at h
      rw [Function.update_of_ne hother'] at h'
      have := d.created other' inode h'
      omega
    · subst hother'
      rw [Function.update_self, Node.file.injEq] at h'
      rw [Function.update_of_ne hother] at h
      have := d.created other inode h
      omega
    · rw [Function.update_of_ne hother] at h
      rw [Function.update_of_ne hother'] at h'
      exact d.single other other' inode h h'

/-- What stands under `name` is removed. -/
def unlink (name : N) : Directory N where
  node := Function.update d.node name .missing
  bytes := d.bytes
  next := d.next
  created other inode h := by
    by_cases hother : other = name
    · subst hother
      rw [Function.update_self] at h
      cases h
    · rw [Function.update_of_ne hother] at h
      exact d.created other inode h
  single other other' inode h h' := by
    by_cases hother : other = name
    · subst hother
      rw [Function.update_self] at h
      cases h
    · by_cases hother' : other' = name
      · subst hother'
        rw [Function.update_self] at h'
        cases h'
      · rw [Function.update_of_ne hother] at h
        rw [Function.update_of_ne hother'] at h'
        exact d.single other other' inode h h'

/-- What stands under `name` is replaced by what stands under another name `source`. -/
def rename (source name : N) : Directory N where
  node := Function.update (Function.update d.node source .missing) name (d.node source)
  bytes := d.bytes
  next := d.next
  created other inode h := by
    by_cases hother : other = name
    · subst hother
      rw [Function.update_self] at h
      exact d.created source inode h
    · rw [Function.update_of_ne hother] at h
      exact (d.unlink source).created other inode h
  single other other' inode h h' := by
    -- a second name of the renamed file could only be its old one, which is gone
    have hold : ∀ third, third ≠ name → d.node source = .file inode →
        Function.update (Function.update d.node source .missing) name (d.node source) third =
          .file inode → False := by
      intro third hthird hsource hfile
      rw [Function.update_of_ne hthird] at hfile
      by_cases hthird' : third = source
      · subst hthird'
        rw [Function.update_self] at hfile
        cases hfile
      · rw [Function.update_of_ne hthird'] at hfile
        exact hthird' (d.single third source inode hfile hsource)
    by_cases hother : other = name <;> by_cases hother' : other' = name
    · rw [hother, hother']
    · subst hother
      rw [Function.update_self] at h
      exact (hold other' hother' h h').elim
    · subst hother'
      rw [Function.update_self] at h'
      exact (hold other hother h' h).elim
    · rw [Function.update_of_ne hother] at h
      rw [Function.update_of_ne hother'] at h'
      exact (d.unlink source).single other other' inode h h'

/-! ## What the operations on names change -/

variable {d} {name other : N} {k : Nat}

@[simp] theorem create_node_self : (d.create name).node name = .file d.next := Function.update_self ..

@[simp] theorem create_node_of_ne (h : other ≠ name) : (d.create name).node other = d.node other :=
  Function.update_of_ne h ..

@[simp] theorem create_bytes_next : (d.create name).bytes d.next = [] := Function.update_self ..

@[simp] theorem create_bytes_of_ne (h : k ≠ d.next) : (d.create name).bytes k = d.bytes k :=
  Function.update_of_ne h ..

@[simp] theorem unlink_node_self : (d.unlink name).node name = .missing := Function.update_self ..

@[simp] theorem unlink_node_of_ne (h : other ≠ name) : (d.unlink name).node other = d.node other :=
  Function.update_of_ne h ..

@[simp] theorem rename_node_self (source : N) : (d.rename source name).node name = d.node source :=
  Function.update_self ..

theorem rename_node_source {source : N} (h : source ≠ name) :
    (d.rename source name).node source = .missing := by
  show Function.update _ _ _ _ = _
  rw [Function.update_of_ne h, Function.update_self]

theorem rename_node_of_ne {source : N} (h : other ≠ source) (h' : other ≠ name) :
    (d.rename source name).node other = d.node other := by
  show Function.update _ _ _ _ = _
  rw [Function.update_of_ne h', Function.update_of_ne h]

end Directory

end Files
