import AgentDev.Interleaving.Locks
import Mathlib.Order.WellFounded

/-!
# Locks taken in an order

A thread that asks for a lock is blocked by every handle that is not compatible, its own handles
included. A set of threads is deadlocked when each of them is blocked by one of the set.

When all threads take their locks in an order in which no chain goes on for ever (a thread
asks only for locks that come after all that it holds), no set of threads is ever
deadlocked (`Locking.Started.not_deadlocked`); a deadlock of one thread with itself is the
set with this thread only.
-/

namespace Interleaving

namespace LockTable

variable {L : Type}

/-- No thread has two handles on one lock. -/
def Distinct (table : LockTable L) : Prop :=
  table.Pairwise fun h h' => h.thread = h'.thread → h.lock ≠ h'.lock

variable [DecidableEq L]

/-- When no thread has two handles on one lock, giving a lock back gives back all of it. -/
theorem not_mem_release {table : LockTable L} (h : table.Distinct) {thread : Nat} {lock : L}
    (shared : Bool) : ⟨thread, lock, shared⟩ ∉ table.release thread lock := by
  induction table with
  | nil => exact fun hmem => nomatch hmem
  | cons first rest ih =>
    obtain ⟨hfirst, hrest⟩ := List.pairwise_cons.mp h
    unfold release
    by_cases hmine : first.thread = thread ∧ first.lock = lock
    · rw [List.eraseP_cons_of_pos (by simpa using hmine)]
      exact fun hmem => hfirst _ hmem hmine.1 hmine.2
    · rw [List.eraseP_cons_of_neg (by simpa using hmine)]
      intro hmem
      rcases List.mem_cons.mp hmem with rfl | hmem
      · exact hmine ⟨rfl, rfl⟩
      · exact ih hrest hmem

end LockTable

namespace Locking

variable {A : Type} {R : A → Type} {S C ε β L : Type} [DecidableEq L] {M : Machine R S C}
  (K : Locking M L)

/-- The next action of thread `i` takes the lock. -/
def Wants (c : Config R S ε β) (i : Nat) (lock : L) (shared : Bool) : Prop :=
  ∃ action rest, c.programs i = .act action rest ∧ K.acquires action = some (lock, shared)

/-- A handle of thread `j` keeps thread `i` from the lock that it asks for. -/
def BlockedBy (c : Config R S ε β) (i j : Nat) : Prop :=
  ∃ lock shared shared', K.Wants c i lock shared ∧ ⟨j, lock, shared'⟩ ∈ K.table c.state ∧
    (shared && shared') = false

/-- Each of the threads waits for one of them. -/
def Deadlocked (c : Config R S ε β) (threads : Set Nat) : Prop :=
  threads.Nonempty ∧ ∀ i ∈ threads, ∃ j ∈ threads, K.BlockedBy c i j

/-- All locks that are held come before the one that the action takes. -/
def InOrder (before : L → L → Prop) (h : List (Event R)) (action : A) : Prop :=
  ∀ lock shared, K.acquires action = some (lock, shared) →
    ∀ held ∈ K.held h, before held.1 lock

variable {K} {guard : Guard R S C} {c₀ c : Config R S ε β} {before : L → L → Prop}

/-- Whoever never asks for a lock that it holds has no handles other than those of its history. -/
theorem Started.held_of_listed (h₀ : K.Started c₀) (hirrefl : ∀ lock, ¬before lock lock)
    (hordered : ∀ c i action rest, M.Reaches guard c₀ c → c.programs i = .act action rest →
      K.InOrder before (own i c.trace) action)
    (hrun : M.Reaches guard c₀ c) {i : Nat} {lock : L} {shared : Bool}
    (hlisted : ⟨i, lock, shared⟩ ∈ K.table c.state) :
    (lock, shared) ∈ K.held (own i c.trace) := by
  -- of each thread and lock there is at most one handle, which the history has
  suffices hinv : (K.table c.state).Distinct ∧ ∀ i lock shared, ⟨i, lock, shared⟩ ∈ K.table c.state →
        (lock, shared) ∈ K.held (own i c.trace) from hinv.2 i lock shared hlisted
  clear hlisted
  induction hrun with
  | refl =>
    rw [h₀.table]
    exact ⟨List.Pairwise.nil, fun _ _ _ hmem => nomatch hmem⟩
  | @step c c' e hreach hstep ih =>
    obtain ⟨hdistinct, hheld⟩ := ih
    have htrace := hstep.trace_eq
    obtain ⟨rest, choice, state, hprog, -, hexec, rfl⟩ := hstep
    have hmine : K.held (own e.thread (c.trace ++ [e])) =
        K.hold (K.held (own e.thread c.trace)) e.action := by
      rw [own_append, own_cons_self rfl, own_nil, held_snoc]
    have hothers : ∀ i, i ≠ e.thread → own i (c.trace ++ [e]) = own i c.trace := by
      intro i hi
      rw [own_append, own_cons_of_ne (Ne.symm hi), own_nil, List.append_nil]
    rw [htrace]
    change (K.table state).Distinct ∧ ∀ i lock shared, _ ∈ K.table state → _
    cases hacq : K.acquires e.action with
    | some taken =>
      obtain ⟨lock, shared⟩ := taken
      obtain ⟨-, htable⟩ := LockTable.acquire_eq_some_iff.mp (K.exec_acquires hacq hexec)
      rw [htable]
      constructor
      · refine List.Pairwise.cons (fun h hmem hthread heq => ?_) hdistinct
        have hmem' : ⟨e.thread, lock, h.shared⟩ ∈ K.table c.state := by
          change e.thread = h.thread at hthread
          change lock = h.lock at heq
          rw [hthread, heq]
          exact hmem
        have hold := hheld e.thread lock h.shared hmem'
        exact hirrefl lock (hordered c e.thread e.action rest hreach hprog lock shared hacq _ hold)
      · intro i lock' shared' hmem
        rcases List.mem_cons.mp hmem with heq | hmem
        · cases heq
          rw [hmine, hold, hacq]
          exact List.mem_cons_self
        · by_cases hi : i = e.thread
          · subst hi
            rw [hmine, hold, hacq]
            exact List.mem_cons_of_mem _ (hheld _ _ _ hmem)
          · rw [hothers i hi]
            exact hheld _ _ _ hmem
    | none =>
      cases hrel : K.releases e.action with
      | some lock =>
        rw [K.exec_releases hacq hrel hexec]
        refine ⟨hdistinct.sublist List.eraseP_sublist, fun i lock' shared' hmem => ?_⟩
        have hold := hheld i lock' shared' (List.mem_of_mem_eraseP hmem)
        by_cases hi : i = e.thread
        · subst hi
          rw [hmine, Locking.hold, hacq, hrel]
          refine List.mem_filter.mpr ⟨hold, ?_⟩
          -- the handle that was given back was the only one
          by_contra hlock
          obtain rfl : lock' = lock := by simpa using hlock
          exact LockTable.not_mem_release hdistinct shared' hmem
        · rw [hothers i hi]
          exact hold
      | none =>
        rw [K.exec_other hacq hrel hexec]
        refine ⟨hdistinct, fun i lock' shared' hmem => ?_⟩
        by_cases hi : i = e.thread
        · subst hi
          rw [hmine, hold_internal ⟨hacq, hrel⟩]
          exact hheld _ _ _ hmem
        · rw [hothers i hi]
          exact hheld _ _ _ hmem

/-- Threads that take their locks in a well-founded order are never deadlocked. -/
theorem Started.not_deadlocked (h₀ : K.Started c₀)
    (hwf : WellFounded fun lock lock' => before lock' lock)
    (hordered : ∀ c i action rest, M.Reaches guard c₀ c → c.programs i = .act action rest →
      K.InOrder before (own i c.trace) action)
    (hrun : M.Reaches guard c₀ c) (threads : Set Nat) : ¬K.Deadlocked c threads := by
  rintro ⟨⟨i, hi⟩, hblocked⟩
  have hirrefl : ∀ lock, ¬before lock lock := fun lock h => hwf.irrefl.irrefl lock h
  -- by induction on the lock: nobody of the set asks for it
  have hnone : ∀ lock, ∀ i ∈ threads, ∀ shared, ¬K.Wants c i lock shared := by
    intro lock
    induction lock using hwf.induction with
    | _ lock ih =>
      rintro i hi shared ⟨action, rest, hprog, hacq⟩
      obtain ⟨j, hj, lock', shared₁, shared', ⟨action', rest', hprog', hacq'⟩, hlisted, -⟩ :=
        hblocked i hi
      rw [hprog] at hprog'
      cases hprog'
      rw [hacq] at hacq'
      cases hacq'
      obtain ⟨-, -, next, shared₂, -, hwants, -, -⟩ := hblocked j hj
      have hheld := h₀.held_of_listed hirrefl hordered hrun hlisted
      obtain ⟨action₂, rest₂, hprog₂, hacq₂⟩ := hwants
      exact ih next (hordered c j action₂ rest₂ hrun hprog₂ next shared₂ hacq₂ _ hheld) j hj shared₂
        ⟨action₂, rest₂, hprog₂, hacq₂⟩
  obtain ⟨-, -, lock, shared, -, hwants, -, -⟩ := hblocked i hi
  exact hnone lock i hi shared hwants

end Locking

end Interleaving
