import Mathlib.Data.List.Induction

/-!
# Directory trees with symbolic links

A static file system: what stands at each absolute path, directories, files, and symbolic links
with arbitrary targets. `resolve` follows a path from the root to the place it leads to: it
goes through every link on the way, and fails when a part is missing, when something else than a
directory is gone through, or when links form a loop. The place that is found is `Real`: none of
its parts is a link (`resolve_real`), so resolving it again changes nothing
(`resolve_of_real`).

Names are of any type; `..` is a part of its own, and means the parent of the place that has been
reached.
-/

namespace Files

/-- A part of a path. -/
inductive Part (N : Type)
  | name (n : N)
  | up
  deriving DecidableEq

inductive Entry (N : Type)
  | dir
  | file
  | link (absolute : Bool) (target : List (Part N))
  deriving DecidableEq

def Entry.isLink {N : Type} : Entry N → Bool
  | link _ _ => true
  | _ => false

/-- What stands at each path. `depth` is at least the number of links, so that more links than that
inside each other are a loop. -/
structure FileSystem (N : Type) where
  entry : List N → Option (Entry N)
  root : entry [] = some .dir
  parent : ∀ dir n, (entry (dir ++ [n])).isSome = true → entry dir = some .dir
  depth : Nat

/-- The file system with these entries. -/
def FileSystem.ofEntries {N : Type} [DecidableEq N] (entries : List (List N × Entry N)) (depth : Nat)
    (hroot : entries.lookup [] = some .dir)
    (hparent : ∀ item ∈ entries, item.1 = [] ∨ entries.lookup item.1.dropLast = some .dir) :
    FileSystem N where
  entry place := entries.lookup place
  root := hroot
  parent dir n h := by
    obtain ⟨item, hitem, heq⟩ := List.lookup_isSome_iff.mp h
    have hplace : item.1 = dir ++ [n] := (eq_of_beq heq).symm
    have hdir := hparent item hitem
    rw [hplace] at hdir
    simpa using hdir
  depth := depth

/-- A path with no links and no `..`. -/
def names {N : Type} (place : List N) : List (Part N) := place.map .name

namespace FileSystem

variable {N : Type} (fs : FileSystem N)

def isDirAt (place : List N) : Bool :=
  match fs.entry place with
  | some .dir => true
  | _ => false

def isFileAt (place : List N) : Bool :=
  match fs.entry place with
  | some .file => true
  | _ => false

def isLinkAt (place : List N) : Bool := (fs.entry place).any Entry.isLink

/-- Where a path leads to from the directory `dir`, when links are followed by `follow`. -/
def walkWith (follow : List N → List (Part N) → Option (List N)) :
    List N → List (Part N) → Option (List N)
  | dir, [] => some dir
  | dir, part :: rest =>
    if fs.isDirAt dir then
      match part with
      | .up => walkWith follow dir.dropLast rest
      | .name n =>
        match fs.entry (dir ++ [n]) with
        | none => none
        | some (.link absolute target) =>
          (follow (if absolute then [] else dir) target).bind fun place => walkWith follow place rest
        | some _ => walkWith follow (dir ++ [n]) rest
    else none

/-- The same with at most so many links inside each other. -/
def walk : Nat → List N → List (Part N) → Option (List N)
  | 0 => fs.walkWith fun _ _ => none
  | depth + 1 => fs.walkWith (walk depth)

/-- `realpath`, which fails on a path that does not exist. -/
def resolve (path : List (Part N)) : Option (List N) := fs.walk fs.depth [] path

/-- `lstat` finds a symbolic link. -/
def isSymlink (path : List (Part N)) : Bool :=
  match path.getLast? with
  | some (.name n) => (fs.resolve path.dropLast).any fun dir => fs.isLinkAt (dir ++ [n])
  | _ => false

def pathExists (path : List (Part N)) : Bool := (fs.resolve path).isSome

/-- A place that is there, and none of whose parts is a link. -/
inductive Real : List N → Prop
  | root : Real []
  | entry {dir : List N} {n : N} (hdir : Real dir) (hexists : (fs.entry (dir ++ [n])).isSome = true)
      (hlink : fs.isLinkAt (dir ++ [n]) = false) : Real (dir ++ [n])

variable {fs}

theorem Real.dropLast {place : List N} (h : fs.Real place) : fs.Real place.dropLast := by
  cases h with
  | root => exact .root
  | entry hdir => simpa using hdir

theorem walkWith_real {follow : List N → List (Part N) → Option (List N)}
    (hfollow : ∀ dir target place, fs.Real dir → follow dir target = some place → fs.Real place)
    {path : List (Part N)} {dir place : List N} (hdir : fs.Real dir)
    (h : fs.walkWith follow dir path = some place) : fs.Real place := by
  induction path generalizing dir with
  | nil =>
    cases h
    exact hdir
  | cons part rest ih =>
    unfold walkWith at h
    split at h
    · cases part with
      | up => exact ih hdir.dropLast h
      | name n =>
        simp only at h
        split at h
        · cases h
        · rename_i absolute target hentry
          obtain ⟨mid, hmid, hrest⟩ := Option.bind_eq_some_iff.mp h
          refine ih (hfollow _ target mid ?_ hmid) hrest
          split
          · exact .root
          · exact hdir
        · rename_i entry hnone hnot
          refine ih (.entry hdir (by rw [hnot]; rfl) ?_) h
          unfold isLinkAt
          rw [hnot]
          cases entry with
          | link absolute target => exact absurd rfl (hnone absolute target)
          | _ => rfl
    · cases h

theorem walk_real {depth : Nat} {path : List (Part N)} {dir place : List N} (hdir : fs.Real dir)
    (h : fs.walk depth dir path = some place) : fs.Real place := by
  induction depth generalizing dir path place with
  | zero =>
    refine walkWith_real ?_ hdir h
    intro dir target place _ hnone
    cases hnone
  | succ depth ih => exact walkWith_real (fun _ _ _ hdir h => ih hdir h) hdir h

/-- What `resolve` finds has no links in it. -/
theorem resolve_real {path : List (Part N)} {place : List N} (h : fs.resolve path = some place) :
    fs.Real place :=
  walk_real .root h

theorem walkWith_append (follow : List N → List (Part N) → Option (List N)) (dir : List N)
    (path rest : List (Part N)) : fs.walkWith follow dir (path ++ rest) =
      (fs.walkWith follow dir path).bind fun place => fs.walkWith follow place rest := by
  induction path generalizing dir with
  | nil => rfl
  | cons part path ih =>
    simp only [List.cons_append, walkWith]
    split
    · cases part with
      | up => exact ih _
      | name n =>
        simp only
        split
        · rfl
        · rw [Option.bind_assoc]
          exact congrArg _ (funext fun place => ih place)
        · exact ih _
    · rfl

theorem walk_append (depth : Nat) (dir : List N) (path rest : List (Part N)) :
    fs.walk depth dir (path ++ rest) =
      (fs.walk depth dir path).bind fun place => fs.walk depth place rest := by
  cases depth <;> exact walkWith_append ..

theorem walk_name {depth : Nat} {dir : List N} {n : N}
    (hexists : (fs.entry (dir ++ [n])).isSome = true) (hlink : fs.isLinkAt (dir ++ [n]) = false) :
    fs.walk depth dir [.name n] = some (dir ++ [n]) := by
  have hdir : fs.isDirAt dir = true := by
    rw [isDirAt, fs.parent dir n hexists]
  obtain ⟨entry, hentry⟩ := Option.isSome_iff_exists.mp hexists
  have hstep : ∀ follow, fs.walkWith follow dir [.name n] = some (dir ++ [n]) := by
    intro follow
    unfold walkWith
    rw [if_pos hdir]
    simp only [hentry]
    cases entry with
    | link absolute target =>
      unfold isLinkAt at hlink
      rw [hentry] at hlink
      cases hlink
    | dir => rfl
    | file => rfl
  cases depth <;> exact hstep _

theorem walk_of_real {depth : Nat} {place : List N} (h : fs.Real place) :
    fs.walk depth [] (names place) = some place := by
  induction h with
  | root => cases depth <;> rfl
  | @entry dir n hdir hexists hlink ih =>
    have hnames : names (dir ++ [n]) = names dir ++ [.name n] := by simp [names]
    rw [hnames, walk_append, ih, Option.bind_some, walk_name hexists hlink]

/-- A place without links is resolved to itself. -/
theorem resolve_of_real {place : List N} (h : fs.Real place) :
    fs.resolve (names place) = some place :=
  walk_of_real h

theorem walk_of_missing {depth : Nat} {dir : List N} {n : N} (hnone : fs.entry (dir ++ [n]) = none) :
    fs.walk depth dir [.name n] = none := by
  have hstep : ∀ follow, fs.walkWith follow dir [.name n] = none := by
    intro follow
    unfold walkWith
    simp only [hnone, ite_self]
  cases depth <;> exact hstep _

/-- A path whose last part is no link leads to an entry of the place that the path before it leads
to. -/
theorem resolve_concat {path : List (Part N)} {n : N} {place : List N}
    (hlink : fs.isSymlink (path ++ [.name n]) = false)
    (h : fs.resolve (path ++ [.name n]) = some place) :
    ∃ dir, fs.resolve path = some dir ∧ place = dir ++ [n] ∧ fs.isLinkAt (dir ++ [n]) = false := by
  rw [resolve, walk_append] at h
  obtain ⟨dir, hdir, h⟩ := Option.bind_eq_some_iff.mp h
  have hdir' : fs.resolve path = some dir := hdir
  have hlink' : fs.isLinkAt (dir ++ [n]) = false := by
    simpa [isSymlink, hdir'] using hlink
  have hexists : (fs.entry (dir ++ [n])).isSome = true := by
    by_contra hnone
    have hnone' : fs.entry (dir ++ [n]) = none := by simpa using hnone
    rw [walk_of_missing hnone'] at h
    cases h
  rw [walk_name hexists hlink'] at h
  exact ⟨dir, hdir', (Option.some.inj h).symm, hlink'⟩

/-- An entry of a real place that is no link is resolved to itself. -/
theorem resolve_child {dir place : List N} {n : N} (hdir : fs.Real dir)
    (hlink : fs.isSymlink (names dir ++ [.name n]) = false)
    (h : fs.resolve (names dir ++ [.name n]) = some place) : place = dir ++ [n] := by
  obtain ⟨dir', hdir', hplace, -⟩ := resolve_concat hlink h
  rw [resolve_of_real hdir] at hdir'
  rw [hplace, Option.some.inj hdir']

end FileSystem

end Files
