import Mathlib.Logic.Function.Basic
import Mathlib.Data.Set.Basic
import Mathlib.Logic.Relation

/-!
# Growing commit graphs

The history of a version-control repository as a directed acyclic graph. Commits are numbered
in the order of their creation, so the parents of a commit have smaller numbers; a graph
only grows, by new commits on existing parents. `Anc g a b` is "`a` is an ancestor of or
equal to `b`"; `isAncestor` computes it. Ancestry never changes when a graph grows
(`Anc.mono`), which is what every statement about a moving branch rests on.
-/

namespace Commits

/-- A commit graph: `size` commits, and the parents of each. -/
structure Graph where
  size : Nat
  parents : Nat → List Nat
  parents_lt : ∀ c, ∀ p ∈ parents c, p < c
  parents_fresh : ∀ c, size ≤ c → parents c = []

namespace Graph

/-- `a` is an ancestor of `b` or equal to it. -/
def Anc (g : Graph) (a b : Nat) : Prop :=
  Relation.ReflTransGen (fun c p => p ∈ g.parents c) b a

@[refl] theorem Anc.refl {g : Graph} (a : Nat) : g.Anc a a := Relation.ReflTransGen.refl

theorem Anc.trans {g : Graph} {a b c : Nat} (hab : g.Anc a b) (hbc : g.Anc b c) : g.Anc a c :=
  Relation.ReflTransGen.trans hbc hab

theorem Anc.of_parent {g : Graph} {a b p : Nat} (hp : p ∈ g.parents b) (h : g.Anc a p) :
    g.Anc a b :=
  Relation.ReflTransGen.head hp h

theorem Anc.le {g : Graph} {a b : Nat} (h : g.Anc a b) : a ≤ b := by
  induction h with
  | refl => exact Nat.le_refl _
  | tail _ hp ih => exact Nat.le_trans (Nat.le_of_lt (g.parents_lt _ _ hp)) ih

/-- The history of a commit, with itself. -/
def ancestors (g : Graph) (b : Nat) : Set Nat := {a | g.Anc a b}

@[simp] theorem mem_ancestors {g : Graph} {a b : Nat} : a ∈ g.ancestors b ↔ g.Anc a b := Iff.rfl

theorem ancestors_subset {g : Graph} {a b : Nat} (h : g.Anc a b) : g.ancestors a ⊆ g.ancestors b :=
  fun _ hx => hx.trans h

/-! ## Growing -/

/-- `g'` has all commits of `g`, with the same parents. -/
structure Extends (g g' : Graph) : Prop where
  size_le : g.size ≤ g'.size
  parents_eq : ∀ c, c < g.size → g'.parents c = g.parents c

theorem Extends.refl (g : Graph) : g.Extends g := ⟨Nat.le_refl _, fun _ _ => rfl⟩

theorem Extends.trans {g g' g'' : Graph} (h : g.Extends g') (h' : g'.Extends g'') :
    g.Extends g'' := by
  refine ⟨Nat.le_trans h.size_le h'.size_le, fun c hc => ?_⟩
  rw [h'.parents_eq c (Nat.lt_of_lt_of_le hc h.size_le), h.parents_eq c hc]

theorem Anc.mono {g g' : Graph} (h : g.Extends g') {a b : Nat} (hab : g.Anc a b) :
    g'.Anc a b := by
  induction hab with
  | refl => exact .refl _
  | @tail c p _ hp ih =>
    by_cases hc : c < g.size
    · exact Anc.trans (Anc.of_parent ((h.parents_eq c hc).symm ▸ hp) (.refl p)) ih
    · rw [g.parents_fresh c (by omega)] at hp
      cases hp

/-- The graph with one more commit, numbered `g.size`, on the given parents. -/
def commit (g : Graph) (ps : List Nat) (hps : ∀ p ∈ ps, p < g.size) : Graph where
  size := g.size + 1
  parents := Function.update g.parents g.size ps
  parents_lt := by
    intro c p hp
    by_cases hc : c = g.size
    · subst hc
      rw [Function.update_self] at hp
      exact hps p hp
    · rw [Function.update_of_ne hc] at hp
      exact g.parents_lt c p hp
  parents_fresh := by
    intro c hc
    rw [Function.update_of_ne (by omega)]
    exact g.parents_fresh c (by omega)

@[simp] theorem commit_parents_self (g : Graph) (ps : List Nat) (hps : ∀ p ∈ ps, p < g.size) :
    (g.commit ps hps).parents g.size = ps :=
  Function.update_self ..

theorem commit_extends (g : Graph) (ps : List Nat) (hps : ∀ p ∈ ps, p < g.size) :
    g.Extends (g.commit ps hps) :=
  ⟨Nat.le_succ _, fun _ hc => Function.update_of_ne (Nat.ne_of_lt hc) ..⟩

theorem anc_commit {g : Graph} {ps : List Nat} (hps : ∀ p ∈ ps, p < g.size) {p : Nat}
    (hp : p ∈ ps) : (g.commit ps hps).Anc p g.size := by
  have hmem : p ∈ (g.commit ps hps).parents g.size := by
    rw [commit_parents_self]
    exact hp
  exact Anc.of_parent hmem (.refl p)

/-- The history of an old commit does not change. -/
theorem Anc.of_extends {g g' : Graph} (h : g.Extends g') {a b : Nat} (hb : b < g.size)
    (hab : g'.Anc a b) : g.Anc a b := by
  induction hab with
  | refl => exact .refl b
  | @tail c p hbc hp ih =>
    have hc : c < g.size := Nat.lt_of_le_of_lt (Anc.le hbc) hb
    rw [h.parents_eq c hc] at hp
    exact (Anc.of_parent hp (.refl p)).trans ih

theorem Extends.ancestors_eq {g g' : Graph} (h : g.Extends g') {b : Nat} (hb : b < g.size) :
    g'.ancestors b = g.ancestors b := by
  ext a
  exact ⟨Anc.of_extends h hb, fun hab => hab.mono h⟩

/-- The history of a new commit is that of its parents. -/
theorem anc_commit_iff {g : Graph} {ps : List Nat} (hps : ∀ p ∈ ps, p < g.size) {a : Nat} :
    (g.commit ps hps).Anc a g.size ↔ a = g.size ∨ ∃ p ∈ ps, g.Anc a p := by
  have hgrown := g.commit_extends ps hps
  constructor
  · intro h
    rcases Relation.ReflTransGen.cases_head h with heq | ⟨p, hp, hap⟩
    · exact Or.inl heq.symm
    · rw [commit_parents_self] at hp
      exact Or.inr ⟨p, hp, Anc.of_extends hgrown (hps p hp) hap⟩
  · rintro (rfl | ⟨p, hp, hap⟩)
    · exact .refl _
    · exact (hap.mono hgrown).trans (anc_commit hps hp)

/-- A graph with new commits added one after the other; commits with parents that do not exist
are left out. -/
def commitAll (g : Graph) : List (List Nat) → Graph
  | [] => g
  | ps :: rest =>
    if hps : ∀ p ∈ ps, p < g.size then (g.commit ps hps).commitAll rest else g.commitAll rest

theorem commitAll_extends (g : Graph) (news : List (List Nat)) :
    g.Extends (g.commitAll news) := by
  induction news generalizing g with
  | nil => exact .refl g
  | cons ps rest ih =>
    unfold commitAll
    split
    · exact (g.commit_extends ps _).trans (ih _)
    · exact ih g

/-! ## Deciding ancestry -/

/-- Search for `a` among the commits at most `fuel` steps above `b`. -/
def isAncestorWithin (g : Graph) (a : Nat) : Nat → Nat → Bool
  | 0, b => a == b
  | fuel + 1, b => a == b || (g.parents b).any (g.isAncestorWithin a fuel)

/-- `git merge-base --is-ancestor a b`: a commit has fewer generations than its number. -/
def isAncestor (g : Graph) (a b : Nat) : Bool := g.isAncestorWithin a b b

theorem anc_of_isAncestorWithin {g : Graph} {a : Nat} :
    ∀ {fuel b : Nat}, g.isAncestorWithin a fuel b = true → g.Anc a b := by
  intro fuel
  induction fuel with
  | zero =>
    intro b h
    obtain rfl : a = b := by simpa [isAncestorWithin] using h
    exact .refl a
  | succ fuel ih =>
    intro b h
    simp only [isAncestorWithin, Bool.or_eq_true, beq_iff_eq, List.any_eq_true] at h
    rcases h with rfl | ⟨p, hp, hap⟩
    · exact .refl a
    · exact Anc.of_parent hp (ih hap)

theorem isAncestorWithin_of_anc {g : Graph} {a : Nat} :
    ∀ {fuel b : Nat}, b ≤ fuel → g.Anc a b → g.isAncestorWithin a fuel b = true := by
  intro fuel
  induction fuel with
  | zero =>
    intro b hb h
    have := h.le
    obtain rfl : a = b := by omega
    simp [isAncestorWithin]
  | succ fuel ih =>
    intro b hb h
    simp only [isAncestorWithin, Bool.or_eq_true, beq_iff_eq, List.any_eq_true]
    rcases Relation.ReflTransGen.cases_head h with rfl | ⟨p, hp, hap⟩
    · exact Or.inl rfl
    · have := g.parents_lt b p hp
      exact Or.inr ⟨p, hp, ih (by omega) hap⟩

theorem isAncestor_iff {g : Graph} {a b : Nat} : g.isAncestor a b = true ↔ g.Anc a b :=
  ⟨anc_of_isAncestorWithin, isAncestorWithin_of_anc (Nat.le_refl b)⟩

end Graph

end Commits
