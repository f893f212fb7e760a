import Mathlib.Data.List.Infix

/-!
# Names of references

The rules of `git check-ref-format`, and which names a repository can take beside those it has: a
reference is a file below the directories of its name, so no name is a directory of another one.
-/

namespace Git

/-! ## The rules -/

/-- Control characters, and those that revisions and patterns are written with. -/
def isForbidden (c : Char) : Bool :=
  c.toNat < 32 || c.toNat = 127 || c ∈ [' ', '~', '^', ':', '?', '*', '[', '\\']

def dots : List Char := ['.', '.']

/-- `@` and an opening brace -/
def reflog : List Char := ['@', '\x7b']

def lockSuffix : List Char := ".lock".toList

/-- The rules for the text between two slashes. -/
def isComponent (part : List Char) : Bool :=
  part ≠ [] && part.head? ≠ some '.' && ¬ lockSuffix <:+ part

/-- The rules that do not mind slashes. -/
def isRefText (text : List Char) : Bool :=
  ¬ dots <:+: text && ¬ reflog <:+: text && text.all (fun c => !isForbidden c)

/-- `git check-ref-format name` -/
def isRefName (name : List Char) : Bool :=
  2 ≤ (name.splitOn '/').length && (name.splitOn '/').all isComponent && isRefText name &&
    name.getLast? ≠ some '.'

def headRef (branch : List Char) : List Char := "refs/heads/".toList ++ branch

/-- `git check-ref-format --branch name`, for a name without `@` -/
def isBranchName (branch : List Char) : Bool :=
  branch.head? ≠ some '-' && branch ≠ "HEAD".toList && isRefName (headRef branch)

/-- A pattern without the separator is on one side of it. -/
theorem infix_append_cons_iff {α : Type} {pattern first rest : List α} {sep : α}
    (h : sep ∉ pattern) :
    pattern <:+: first ++ sep :: rest ↔ pattern <:+: first ∨ pattern <:+: rest := by
  constructor
  · rintro ⟨before, after, heq⟩
    rcases List.append_eq_append_iff.mp heq with ⟨middle, hfirst, -⟩ | ⟨middle, hbefore, hrest⟩
    · exact Or.inl ⟨before, middle, hfirst.symm⟩
    · cases middle with
      | nil =>
        rw [List.append_nil] at hbefore
        exact Or.inl ⟨before, [], by rw [List.append_nil, hbefore]⟩
      | cons c middle =>
        obtain ⟨rfl, htail⟩ := List.cons_eq_cons.mp hrest
        rcases List.append_eq_append_iff.mp hbefore with ⟨left, -, hpattern⟩ | ⟨left, -, hmiddle⟩
        · rw [hpattern] at h
          exact absurd (List.mem_append_right _ List.mem_cons_self) h
        · cases left with
          | nil =>
            rw [List.nil_append] at hmiddle
            rw [← hmiddle] at h
            exact absurd List.mem_cons_self h
          | cons c' left =>
            obtain ⟨-, hmiddle⟩ := List.cons_eq_cons.mp hmiddle
            rw [hmiddle] at htail
            exact Or.inr ⟨left, after, htail.symm⟩
  · rintro (h | h)
    · exact h.trans (List.infix_append [] _ _)
    · exact h.trans ((List.suffix_cons sep rest).isInfix.trans (List.suffix_append _ _).isInfix)

theorem isRefText_append {first rest : List Char} (hfirst : isRefText first = true) :
    isRefText (first ++ '/' :: rest) = isRefText rest := by
  simp only [isRefText, Bool.and_eq_true, decide_eq_true_eq] at hfirst
  obtain ⟨⟨hdots, hreflog⟩, htext⟩ := hfirst
  have hdots' : dots <:+: first ++ '/' :: rest ↔ dots <:+: rest := by
    rw [infix_append_cons_iff (by decide)]
    exact or_iff_right hdots
  have hreflog' : reflog <:+: first ++ '/' :: rest ↔ reflog <:+: rest := by
    rw [infix_append_cons_iff (by decide)]
    exact or_iff_right hreflog
  have hslash : isForbidden '/' = false := by decide
  simp only [isRefText, hdots', hreflog', List.all_append, htext, List.all_cons, hslash,
    Bool.not_false, Bool.true_and]

/-- A name below another one is valid exactly if what it adds is. -/
theorem isRefName_append {base part : List Char} (hbase : isRefName base = true) (hpart : '/' ∉ part) :
    isRefName (base ++ '/' :: part) = true ↔
      isComponent part = true ∧ isRefText part = true ∧ part.getLast? ≠ some '.' := by
  simp only [isRefName, Bool.and_eq_true, decide_eq_true_eq] at hbase
  obtain ⟨⟨⟨hlength, hcomponents⟩, htext⟩, -⟩ := hbase
  have hsplit : (base ++ '/' :: part).splitOn '/' = base.splitOn '/' ++ [part] := by
    rw [List.splitOn_append_cons_self, List.splitOn_eq_singleton hpart]
  have hlong : 2 ≤ (base.splitOn '/' ++ [part]).length := by
    rw [List.length_append]
    omega
  simp only [isRefName, hsplit, hlong, List.all_append, hcomponents, List.all_cons, List.all_nil,
    isRefText_append htext, Bool.and_eq_true, decide_eq_true_eq, Bool.and_true, Bool.true_and,
    decide_true, and_assoc]
  cases part with
  | nil => simp [isComponent]
  | cons c part =>
    have hlast : (base ++ '/' :: c :: part).getLast? = (c :: part).getLast? := by
      rw [List.getLast?_append_of_ne_nil base (List.cons_ne_nil '/' _), List.getLast?_cons_cons]
    rw [hlast]

/-! ## References beside others -/

/-- `base` is a directory of `name`. -/
def Below (base name : List Char) : Prop := base ++ ['/'] <+: name

instance (base name : List Char) : Decidable (Below base name) :=
  inferInstanceAs (Decidable (base ++ ['/'] <+: name))

/-- No reference is a directory of another one. -/
def Separate (refs : List (List Char)) : Prop := ∀ ref ∈ refs, ∀ ref' ∈ refs, ¬ Below ref ref'

/-- A new reference is made: its name is valid, not taken, and no directory of another reference, nor is
one of them a directory of it. -/
def canCreate (refs : List (List Char)) (name : List Char) : Bool :=
  isRefName name && refs.all fun ref => ref ≠ name && ¬ Below ref name && ¬ Below name ref

theorem below_iff {base name : List Char} : Below base name ↔ ∃ rest, name = base ++ '/' :: rest := by
  constructor
  · rintro ⟨rest, h⟩
    refine ⟨rest, ?_⟩
    rw [← h, List.append_assoc]
    rfl
  · rintro ⟨rest, rfl⟩
    exact ⟨rest, by rw [List.append_assoc]; rfl⟩

theorem Below.trans {base middle name : List Char} (h : Below base middle) (h' : Below middle name) :
    Below base name :=
  List.IsPrefix.trans h ((List.prefix_append _ _).trans h')

/-- The directories of a name are those of its directory, and this one. -/
theorem below_append_iff {base name part : List Char} (hpart : '/' ∉ part) :
    Below base (name ++ '/' :: part) ↔ base = name ∨ Below base name := by
  constructor
  · intro h
    obtain ⟨rest, heq⟩ := below_iff.mp h
    rcases List.append_eq_append_iff.mp heq with ⟨middle, hbase, hrest⟩ | ⟨middle, hname, hrest⟩
    · cases middle with
      | nil =>
        rw [List.append_nil] at hbase
        exact Or.inl hbase
      | cons c middle =>
        obtain ⟨-, htail⟩ := List.cons_eq_cons.mp hrest
        rw [htail] at hpart
        exact absurd (List.mem_append_right _ List.mem_cons_self) hpart
    · cases middle with
      | nil =>
        rw [List.append_nil] at hname
        exact Or.inl hname.symm
      | cons c middle =>
        obtain ⟨rfl, -⟩ := List.cons_eq_cons.mp hrest
        exact Or.inr (below_iff.mpr ⟨middle, hname⟩)
  · have hbelow : Below name (name ++ '/' :: part) := below_iff.mpr ⟨part, rfl⟩
    rintro (rfl | h)
    · exact hbelow
    · exact h.trans hbelow

/-- Beside the references of its directory, which are files, a valid name is free unless it is taken. -/
theorem canCreate_append {refs : List (List Char)} {base part other : List Char}
    (hname : isRefName (base ++ '/' :: part) = true) (hpart : '/' ∉ part) (hseparate : Separate refs)
    (hother : base ++ '/' :: other ∈ refs)
    (hrefs : ∀ part', base ++ '/' :: part' ∈ refs → part' ≠ part ∧ '/' ∉ part') :
    canCreate refs (base ++ '/' :: part) = true := by
  simp only [canCreate, hname, Bool.true_and, List.all_eq_true, Bool.and_eq_true, decide_eq_true_eq]
  intro ref href
  refine ⟨⟨?_, ?_⟩, ?_⟩
  · rintro rfl
    exact (hrefs part href).1 rfl
  · -- The other reference would be below it as well.
    intro hbelow
    apply hseparate ref href _ hother
    rcases (below_append_iff hpart).mp hbelow with rfl | hbelow
    · exact below_iff.mpr ⟨other, rfl⟩
    · exact hbelow.trans (below_iff.mpr ⟨other, rfl⟩)
  · intro hbelow
    obtain ⟨rest, rfl⟩ := below_iff.mp hbelow
    rw [List.append_assoc, List.cons_append] at href
    exact (hrefs _ href).2 (List.mem_append_right _ List.mem_cons_self)

end Git
