import AgentDev.Files.Directory

/-!
# Publishing files by renaming

Threads share a directory in which some names are temporary. A thread writes a file under a
temporary name, its draft, and renames it over a name that readers use. `Orderly` is what one thread
guarantees to the others: it leaves their drafts alone, and what it does to a name that is not
temporary is to put one of its own files there, with content that fits.

When all other threads are orderly, a draft stays as it is (`Draft.orderly`), a published name goes
on to fit (`Published.orderly`), and a thread that has cleared away its drafts has none later
(`Cleared.orderly`). Each system call is orderly when its caller has the draft that it works on.

`active` are the threads that the others take care of: one that has given up may leave a draft behind,
which another one may write over.
-/

namespace Files

/-- Why a system call fails. `fault` is any reason outside of the directory. -/
inductive OsError
  | noEntry
  | occupied
  | isDirectory
  | fault
  deriving DecidableEq

/-- A directory that threads write to. `holder` is the thread that has opened a file for writing
last; no step asks for it. -/
structure SharedDirectory (N : Type) where
  directory : Directory N
  holder : Nat → Option Nat
  held : ∀ inode thread, holder inode = some thread → inode < directory.next

namespace SharedDirectory

variable {N : Type} [DecidableEq N]

/-- The directory when no thread has opened a file yet. -/
def unopened (d : Directory N) : SharedDirectory N where
  directory := d
  holder _ := none
  held _ _ h := nomatch h

variable (w : SharedDirectory N)

def created (thread : Nat) (name : N) : SharedDirectory N where
  directory := w.directory.create name
  holder := Function.update w.holder w.directory.next (some thread)
  held inode other h := by
    show inode < w.directory.next + 1
    by_cases hinode : inode = w.directory.next
    · omega
    · rw [Function.update_of_ne hinode] at h
      have := w.held inode other h
      omega

/-- The open file `inode` is truncated by `thread`. -/
def truncated (thread inode : Nat) (h : inode < w.directory.next) : SharedDirectory N where
  directory := w.directory.truncate inode
  holder := Function.update w.holder inode (some thread)
  held k other hk := by
    show k < w.directory.next
    by_cases hinode : k = inode
    · omega
    · rw [Function.update_of_ne hinode] at hk
      exact w.held k other hk

/-- `open(name, O_CREAT | O_EXCL)` -/
def create (thread : Nat) (name : N) : Except OsError Nat × SharedDirectory N :=
  match w.directory.node name with
  | .missing => (.ok w.directory.next, w.created thread name)
  | _ => (.error .occupied, w)

/-- `open(name, O_CREAT | O_TRUNC)`. Where a link leads is outside of the directory. -/
def openTruncated (thread : Nat) (name : N) : Except OsError Nat × SharedDirectory N :=
  match h : w.directory.node name with
  | .missing => (.ok w.directory.next, w.created thread name)
  | .file inode => (.ok inode, w.truncated thread inode (w.directory.created name inode h))
  | .directory => (.error .isDirectory, w)
  | .link => (.error .fault, w)

def write (inode offset : Nat) (data : List UInt8) : SharedDirectory N :=
  ⟨w.directory.write inode offset data, w.holder, w.held⟩

/-- `chmod(name)`. The mode itself is read by nobody here. -/
def chmod (name : N) : Except OsError Unit :=
  match w.directory.node name with
  | .missing => .error .noEntry
  | _ => .ok ()

def renamed (source name : N) : SharedDirectory N := ⟨w.directory.rename source name, w.holder, w.held⟩

/-- `rename(source, name)` of a file. -/
def rename (source name : N) : Except OsError Unit × SharedDirectory N :=
  match w.directory.node source, w.directory.node name with
  | .missing, _ => (.error .noEntry, w)
  | _, .directory => (.error .isDirectory, w)
  | _, _ => (.ok (), w.renamed source name)

def unlinked (name : N) : SharedDirectory N := ⟨w.directory.unlink name, w.holder, w.held⟩

def unlink (name : N) : Except OsError Unit × SharedDirectory N :=
  match w.directory.node name with
  | .missing => (.error .noEntry, w)
  | .directory => (.error .isDirectory, w)
  | _ => (.ok (), w.unlinked name)

variable {w}

/-- A file is renamed unless a directory stands under the new name. -/
theorem rename_of_file {source : N} {inode : Nat} (h : w.directory.node source = .file inode) (name : N) :
    w.rename source name = (.error .isDirectory, w) ∨
      w.rename source name = (.ok (), w.renamed source name) := by
  unfold rename
  split
  · rename_i hmissing
    rw [h] at hmissing
    cases hmissing
  · exact Or.inl rfl
  · exact Or.inr rfl

theorem unlink_of_file {name : N} {inode : Nat} (h : w.directory.node name = .file inode) :
    w.unlink name = (.ok (), w.unlinked name) := by
  simp only [unlink, h]

end SharedDirectory

variable {N : Type}

section

variable (temp : N → Prop) (active : Nat → Prop) (fits : N → List UInt8 → Prop)

/-- What a thread guarantees to the active ones. -/
structure Orderly (thread : Nat) (w w' : SharedDirectory N) : Prop where
  kept : ∀ k i, w.holder k = some i → i ≠ thread → active i →
    w'.holder k = some i ∧ w'.directory.bytes k = w.directory.bytes k ∧
    (∀ name, w'.directory.node name = .file k → w.directory.node name = .file k) ∧
    ∀ name, temp name → w.directory.node name = .file k → w'.directory.node name = .file k
  taken : ∀ k, w'.holder k = w.holder k ∨ w'.holder k = some thread
  published : ∀ name, ¬temp name →
    (w'.directory.node name = w.directory.node name ∧ ∀ k, w.directory.node name = .file k →
      w'.directory.bytes k = w.directory.bytes k ∧ w'.holder k = w.holder k) ∨
    ∃ k, w'.directory.node name = .file k ∧ w'.holder k = some thread ∧
      fits name (w'.directory.bytes k)

/-- The thread holds no file under a temporary name. -/
def Cleared (thread : Nat) (w : SharedDirectory N) : Prop :=
  ∀ name k, w.directory.node name = .file k → w.holder k = some thread → ¬temp name

/-- The thread holds one file under a temporary name, and it contains `data`. -/
structure Draft (thread : Nat) (name : N) (inode : Nat) (data : List UInt8) (w : SharedDirectory N) :
    Prop where
  node : w.directory.node name = .file inode
  holder : w.holder inode = some thread
  bytes : w.directory.bytes inode = data
  only : ∀ other k, w.directory.node other = .file k → w.holder k = some thread → temp other →
    other = name

/-- A file with fitting content stands under the name. -/
def Published (name : N) (w : SharedDirectory N) : Prop :=
  ∃ k, w.directory.node name = .file k ∧ fits name (w.directory.bytes k)

/-- What a thread has put under a name that is not temporary fits. -/
def Complete (fitsOf : Nat → N → List UInt8 → Prop) (w : SharedDirectory N) : Prop :=
  ∀ name k i, w.directory.node name = .file k → w.holder k = some i → ¬temp name →
    fitsOf i name (w.directory.bytes k)

end

variable {temp : N → Prop} {active : Nat → Prop} {fits fits' : N → List UInt8 → Prop}
  {thread other inode : Nat} {name : N} {data : List UInt8} {w w' : SharedDirectory N}

/-! ## What orderly threads leave as it is -/

theorem Orderly.refl : Orderly temp active fits thread w w where
  kept _ _ hk _ _ := ⟨hk, rfl, fun _ h => h, fun _ _ h => h⟩
  taken _ := Or.inl rfl
  published _ _ := Or.inl ⟨rfl, fun _ _ => ⟨rfl, rfl⟩⟩

/-- The name of a file that an active thread holds has been its name before. -/
theorem Orderly.node_of_held (h : Orderly temp active fits other w w') (hne : thread ≠ other)
    (hactive : active thread) {k : Nat} (hnode : w'.directory.node name = .file k)
    (hholder : w'.holder k = some thread) :
    w.directory.node name = .file k ∧ w.holder k = some thread := by
  have hbefore : w.holder k = some thread := by
    rcases h.taken k with hsame | htaken
    · rw [← hsame, hholder]
    · rw [hholder, Option.some.injEq] at htaken
      exact absurd htaken hne
  obtain ⟨-, -, hnamed, -⟩ := h.kept k thread hbefore hne hactive
  exact ⟨hnamed name hnode, hbefore⟩

theorem Cleared.orderly (hcleared : Cleared temp thread w) (hne : thread ≠ other)
    (hactive : active thread) (h : Orderly temp active fits other w w') :
    Cleared temp thread w' := by
  intro name k hnode hholder
  obtain ⟨hnode, hholder⟩ := h.node_of_held hne hactive hnode hholder
  exact hcleared name k hnode hholder

theorem Draft.orderly (hdraft : Draft temp thread name inode data w) (hname : temp name)
    (hne : thread ≠ other) (hactive : active thread) (h : Orderly temp active fits other w w') :
    Draft temp thread name inode data w' := by
  obtain ⟨hholder, hbytes, -, hnode⟩ := h.kept inode thread hdraft.holder hne hactive
  refine ⟨hnode name hname hdraft.node, hholder, hbytes.trans hdraft.bytes, ?_⟩
  intro other k hother hheld htemp
  obtain ⟨hother, hheld⟩ := h.node_of_held hne hactive hother hheld
  exact hdraft.only other k hother hheld htemp

theorem Published.orderly (hpublished : Published fits name w) (hname : ¬temp name)
    (hfits : ∀ bytes, fits' name bytes → fits name bytes)
    (h : Orderly temp active fits' other w w') : Published fits name w' := by
  obtain ⟨k, hnode, hbytes⟩ := hpublished
  rcases h.published name hname with ⟨hsame, hkept⟩ | ⟨k', hnode', -, hbytes'⟩
  · obtain ⟨hbytes', -⟩ := hkept k hnode
    exact ⟨k, hsame.trans hnode, by rw [hbytes']; exact hbytes⟩
  · exact ⟨k', hnode', hfits _ hbytes'⟩

theorem Complete.orderly {fitsOf : Nat → N → List UInt8 → Prop} (hcomplete : Complete temp fitsOf w)
    (h : Orderly temp active (fitsOf other) other w w') : Complete temp fitsOf w' := by
  intro name k i hnode hholder hname
  rcases h.published name hname with ⟨hsame, hkept⟩ | ⟨k', hnode', hholder', hfits⟩
  · rw [hsame] at hnode
    obtain ⟨hbytes, hheld⟩ := hkept k hnode
    rw [hbytes]
    exact hcomplete name k i hnode (hheld.symm.trans hholder) hname
  · rw [hnode', Node.file.injEq] at hnode
    subst hnode
    rw [hholder', Option.some.injEq] at hholder
    subst hholder
    exact hfits

/-! ## The steps of one thread -/

/-- A file that no active thread holds is opened and truncated. -/
theorem truncated_orderly (hnode : w.directory.node name = .file inode) (hname : temp name)
    (hfree : ∀ i, w.holder inode = some i → i ≠ thread → ¬active i)
    (honly : ∀ other k, w.directory.node other = .file k → w.holder k = some thread → temp other →
      other = name) :
    Orderly temp active fits thread w (w.truncated thread inode (w.directory.created name inode hnode)) ∧
      Draft temp thread name inode []
        (w.truncated thread inode (w.directory.created name inode hnode)) := by
  refine ⟨⟨?_, ?_, ?_⟩, ?_⟩
  · intro k i hk hne hactive
    have hinode : k ≠ inode := by
      rintro rfl
      exact hfree i hk hne hactive
    exact ⟨(Function.update_of_ne hinode ..).trans hk, Directory.truncate_bytes_of_ne hinode,
      fun _ h => h, fun _ _ h => h⟩
  · intro k
    by_cases hk : k = inode
    · subst hk
      exact Or.inr (Function.update_self ..)
    · exact Or.inl (Function.update_of_ne hk ..)
  · intro other hother
    refine Or.inl ⟨rfl, fun k hk => ?_⟩
    have hinode : k ≠ inode := by
      rintro rfl
      have heq := w.directory.single other name k hk hnode
      rw [heq] at hother
      exact hother hname
    exact ⟨Directory.truncate_bytes_of_ne hinode, Function.update_of_ne hinode ..⟩
  · refine ⟨hnode, Function.update_self .., Directory.truncate_bytes_self, ?_⟩
    intro other k hother hk htemp
    by_cases hinode : k = inode
    · subst hinode
      exact w.directory.single other name k hother hnode
    · exact honly other k hother ((Function.update_of_ne hinode ..).symm.trans hk) htemp

/-- Writing to one's own draft. -/
theorem Draft.write (hdraft : Draft temp thread name inode data w) (hname : temp name) (offset : Nat)
    (piece : List UInt8) :
    Orderly temp active fits thread w (w.write inode offset piece) ∧
      Draft temp thread name inode (overwrite data offset piece) (w.write inode offset piece) := by
  refine ⟨⟨?_, ?_, ?_⟩, ?_⟩
  · intro k i hk hne _
    have hinode : k ≠ inode := by
      rintro rfl
      rw [hdraft.holder, Option.some.injEq] at hk
      exact hne hk.symm
    exact ⟨hk, Directory.write_bytes_of_ne offset piece hinode, fun _ h => h, fun _ _ h => h⟩
  · exact fun k => Or.inl rfl
  · intro other hother
    refine Or.inl ⟨rfl, fun k hk => ?_⟩
    have hinode : k ≠ inode := by
      rintro rfl
      have heq := w.directory.single other name k hk hdraft.node
      rw [heq] at hother
      exact hother hname
    exact ⟨Directory.write_bytes_of_ne offset piece hinode, rfl⟩
  · refine ⟨hdraft.node, hdraft.holder, ?_, hdraft.only⟩
    rw [← hdraft.bytes]
    exact Directory.write_bytes_self offset piece

/-- The only names of files that other threads hold are not the draft's. -/
theorem Draft.ne_of_held (hdraft : Draft temp thread name inode data w) {k i : Nat} {other : N}
    (hk : w.holder k = some i) (hne : i ≠ thread) (hother : w.directory.node other = .file k) :
    other ≠ name := by
  rintro rfl
  rw [hdraft.node, Node.file.injEq] at hother
  subst hother
  rw [hdraft.holder, Option.some.injEq] at hk
  exact hne hk.symm

variable [DecidableEq N]

/-- A new file of the thread. -/
theorem created_orderly (hmissing : w.directory.node name = .missing) (hname : temp name)
    (hcleared : Cleared temp thread w) :
    Orderly temp active fits thread w (w.created thread name) ∧
      Draft temp thread name w.directory.next [] (w.created thread name) := by
  have hnode : ∀ {other : N} {k : Nat}, w.directory.node other = .file k → other ≠ name := by
    intro other k hother heq
    rw [heq, hmissing] at hother
    cases hother
  have hinode : ∀ {k i : Nat}, w.holder k = some i → k ≠ w.directory.next := by
    intro k i hk
    have := w.held k i hk
    omega
  refine ⟨⟨?_, ?_, ?_⟩, ?_⟩
  · intro k i hk _ _
    refine ⟨(Function.update_of_ne (hinode hk) ..).trans hk,
      Directory.create_bytes_of_ne (hinode hk), ?_, ?_⟩
    · intro other hother
      by_cases heq : other = name
      · subst heq
        have hnext : w.directory.next = k := Node.file.inj (Directory.create_node_self.symm.trans hother)
        exact absurd hnext.symm (hinode hk)
      · exact (Directory.create_node_of_ne heq).symm.trans hother
    · intro other _ hother
      exact (Directory.create_node_of_ne (hnode hother)).trans hother
  · intro k
    by_cases hk : k = w.directory.next
    · subst hk
      exact Or.inr (Function.update_self ..)
    · exact Or.inl (Function.update_of_ne hk ..)
  · intro other hother
    have hne : other ≠ name := by
      rintro rfl
      exact hother hname
    refine Or.inl ⟨Directory.create_node_of_ne hne, fun k hk => ?_⟩
    have hlt := w.directory.created other k hk
    have hknext : k ≠ w.directory.next := by omega
    exact ⟨Directory.create_bytes_of_ne hknext, Function.update_of_ne hknext ..⟩
  · refine ⟨Directory.create_node_self, Function.update_self .., Directory.create_bytes_next, ?_⟩
    intro other k hother hk htemp
    by_contra hne
    have hother' : w.directory.node other = .file k :=
      (Directory.create_node_of_ne hne).symm.trans hother
    have hlt := w.directory.created other k hother'
    have hk' : w.holder k = some thread :=
      (Function.update_of_ne (show k ≠ w.directory.next by omega) ..).symm.trans hk
    exact hcleared other k hother' hk' htemp

/-- The renamed draft stands under its new name. -/
theorem Draft.published (hdraft : Draft temp thread name inode data w) {target : N}
    (hfits : fits target data) :
    Published fits target (w.renamed name target) := by
  refine ⟨inode, (Directory.rename_node_self name).trans hdraft.node, ?_⟩
  show fits target (w.directory.bytes inode)
  rw [hdraft.bytes]
  exact hfits

/-- A draft whose content fits is published. -/
theorem Draft.renamed (hdraft : Draft temp thread name inode data w) (hname : temp name) {target : N}
    (htarget : ¬temp target) (hfits : fits target data) :
    Orderly temp active fits thread w (w.renamed name target) ∧
      Cleared temp thread (w.renamed name target) := by
  have hdiffer : name ≠ target := by
    rintro rfl
    exact htarget hname
  have htargetNode : (w.renamed name target).directory.node target = .file inode :=
    (Directory.rename_node_self name).trans hdraft.node
  have hsource : (w.renamed name target).directory.node name = .missing :=
    Directory.rename_node_source hdiffer
  have hold : ∀ {other : N} {k : Nat}, other ≠ target →
      (w.renamed name target).directory.node other = .file k →
        other ≠ name ∧ w.directory.node other = .file k := by
    intro other k hne hother
    by_cases heq : other = name
    · rw [heq, hsource] at hother
      cases hother
    · exact ⟨heq, (Directory.rename_node_of_ne heq hne).symm.trans hother⟩
  refine ⟨⟨?_, ?_, ?_⟩, ?_⟩
  · intro k i hk hne _
    have hinode : k ≠ inode := by
      rintro rfl
      rw [hdraft.holder, Option.some.injEq] at hk
      exact hne hk.symm
    refine ⟨hk, rfl, ?_, ?_⟩
    · intro other hother
      by_cases heq : other = target
      · rw [heq, htargetNode, Node.file.injEq] at hother
        exact absurd hother.symm hinode
      · exact (hold heq hother).2
    · intro other htemp hother
      have hne' : other ≠ target := by
        rintro rfl
        exact htarget htemp
      exact (Directory.rename_node_of_ne (hdraft.ne_of_held hk hne hother) hne').trans hother
  · exact fun k => Or.inl rfl
  · intro other hother
    by_cases heq : other = target
    · subst heq
      refine Or.inr ⟨inode, htargetNode, hdraft.holder, ?_⟩
      show fits other (w.directory.bytes inode)
      rw [hdraft.bytes]
      exact hfits
    · have hne : other ≠ name := by
        rintro rfl
        exact hother hname
      exact Or.inl ⟨Directory.rename_node_of_ne hne heq, fun _ _ => ⟨rfl, rfl⟩⟩
  · intro other k hother hk htemp
    have hne : other ≠ target := by
      rintro rfl
      exact htarget htemp
    obtain ⟨hne', hother'⟩ := hold hne hother
    exact hne' (hdraft.only other k hother' hk htemp)

/-- A draft is thrown away. -/
theorem Draft.unlinked (hdraft : Draft temp thread name inode data w) (hname : temp name) :
    Orderly temp active fits thread w (w.unlinked name) ∧ Cleared temp thread (w.unlinked name) := by
  have hold : ∀ {other : N} {k : Nat}, (w.unlinked name).directory.node other = .file k →
      other ≠ name ∧ w.directory.node other = .file k := by
    intro other k hother
    by_cases heq : other = name
    · subst heq
      have hmissing : (w.unlinked other).directory.node other = .missing :=
        Directory.unlink_node_self
      rw [hmissing] at hother
      cases hother
    · exact ⟨heq, (Directory.unlink_node_of_ne heq).symm.trans hother⟩
  refine ⟨⟨?_, ?_, ?_⟩, ?_⟩
  · intro k i hk hne _
    refine ⟨hk, rfl, fun other hother => (hold hother).2, ?_⟩
    intro other _ hother
    exact (Directory.unlink_node_of_ne (hdraft.ne_of_held hk hne hother)).trans hother
  · exact fun k => Or.inl rfl
  · intro other hother
    have hne : other ≠ name := by
      rintro rfl
      exact hother hname
    exact Or.inl ⟨Directory.unlink_node_of_ne hne, fun _ _ => ⟨rfl, rfl⟩⟩
  · intro other k hother hk htemp
    obtain ⟨hne, hother'⟩ := hold hother
    exact hne (hdraft.only other k hother' hk htemp)

/-! ## Files that are no drafts any more -/

/-- The file is not under a temporary name. -/
def Settled (temp : N → Prop) (inode : Nat) (w : SharedDirectory N) : Prop :=
  inode < w.directory.next ∧ ∀ name, temp name → w.directory.node name ≠ .file inode

/-- A file that is not a draft stays as it is, and is never one again. -/
def Settling (temp : N → Prop) (w w' : SharedDirectory N) : Prop :=
  ∀ inode, Settled temp inode w →
    Settled temp inode w' ∧ w'.directory.bytes inode = w.directory.bytes inode

/-- What a reader finds under a name. -/
def content (w : SharedDirectory N) (name : N) : Option (List UInt8) :=
  match w.directory.node name with
  | .file inode => some (w.directory.bytes inode)
  | _ => none

omit [DecidableEq N]

theorem Settling.refl : Settling temp w w := fun _ h => ⟨h, rfl⟩

theorem content_of_file (h : w.directory.node name = .file inode) :
    content w name = some (w.directory.bytes inode) := by
  rw [content, h]

/-- What stands under a name that is not temporary is settled. -/
theorem settled_of_node (h : w.directory.node name = .file inode) (hname : ¬temp name) :
    Settled temp inode w := by
  refine ⟨w.directory.created name inode h, fun other hother hnode => ?_⟩
  rw [w.directory.single other name inode hnode h] at hother
  exact hname hother

theorem Settling.content_eq (h : Settling temp w w') (hname : ¬temp name)
    (hnode : w'.directory.node name = w.directory.node name) : content w' name = content w name := by
  unfold content
  rw [hnode]
  split
  · rename_i inode hfile
    rw [(h inode (settled_of_node hfile hname)).2]
  · rfl

theorem settling_truncated (hnode : w.directory.node name = .file inode) (hname : temp name) :
    Settling temp w
      (w.truncated thread inode (w.directory.created name inode hnode)) := by
  intro k hk
  have hne : k ≠ inode := by
    rintro rfl
    exact hk.2 name hname hnode
  exact ⟨hk, Directory.truncate_bytes_of_ne hne⟩

theorem settling_write (hnode : w.directory.node name = .file inode) (hname : temp name) (offset : Nat)
    (piece : List UInt8) : Settling temp w (w.write inode offset piece) := by
  intro k hk
  have hne : k ≠ inode := by
    rintro rfl
    exact hk.2 name hname hnode
  exact ⟨hk, Directory.write_bytes_of_ne offset piece hne⟩

variable [DecidableEq N]

theorem settling_created : Settling temp w (w.created thread name) := by
  intro k hk
  have hne : k ≠ w.directory.next := by
    have := hk.1
    omega
  refine ⟨⟨Nat.lt_succ_of_lt hk.1, fun other hother hnode => ?_⟩, Directory.create_bytes_of_ne hne⟩
  by_cases heq : other = name
  · subst heq
    exact hne (Node.file.inj (Directory.create_node_self.symm.trans hnode)).symm
  · exact hk.2 other hother ((Directory.create_node_of_ne heq).symm.trans hnode)

theorem settling_renamed {source : N} (hsource : temp source) (hname : ¬temp name) :
    Settling temp w (w.renamed source name) := by
  intro k hk
  refine ⟨⟨hk.1, fun other hother hnode => ?_⟩, rfl⟩
  have hother' : other ≠ name := fun heq => hname (heq ▸ hother)
  by_cases heq : other = source
  · subst heq
    have hmissing : (w.renamed other name).directory.node other = .missing :=
      Directory.rename_node_source hother'
    rw [hmissing] at hnode
    cases hnode
  · exact hk.2 other hother ((Directory.rename_node_of_ne heq hother').symm.trans hnode)

end Files
