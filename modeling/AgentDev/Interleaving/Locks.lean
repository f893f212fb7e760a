import AgentDev.Interleaving.History
import Mathlib.Data.List.Induction
import Mathlib.Data.List.Pairwise

/-!
# File locks and the lock discipline

A lock table lists the open handles that own a lock, each shared or exclusive, as `flock` has
it: two handles on one lock coexist only when both are shared, also when one thread opened
both. Closing a handle gives the lock back.

Which locks a thread holds can be read off its own history (`Locking.held`), and is then true
of the lock table (`Locking.Started.listed`). What only other threads could change, and only
under a lock that the thread holds, stays as it is meanwhile (`Locking.Started.while_held`).

A program is disciplined when every action that touches a resource is performed while the lock
of the resource is held (`Locking.Covered`). `Touching` says that a thread touches a resource
within its present critical section, before or after the present moment. In a pool of
disciplined programs two threads that are touching one resource at the same time both hold
its lock in shared mode (`Locking.Started.shared_of_touching`).
-/

namespace Interleaving

/-- An open handle that owns a lock. -/
structure Handle (L : Type) where
  thread : Nat
  lock : L
  shared : Bool
  deriving DecidableEq

abbrev LockTable (L : Type) := List (Handle L)

namespace LockTable

variable {L : Type} [DecidableEq L]

/-- Whether one more handle on `lock` can be granted. -/
def grants (table : LockTable L) (lock : L) (shared : Bool) : Bool :=
  table.all fun h => h.lock ≠ lock || (h.shared && shared)

def acquire (table : LockTable L) (thread : Nat) (lock : L) (shared : Bool) :
    Option (LockTable L) :=
  if table.grants lock shared then some (⟨thread, lock, shared⟩ :: table) else none

def release (table : LockTable L) (thread : Nat) (lock : L) : LockTable L :=
  table.eraseP fun h => h.thread = thread && h.lock = lock

/-- Handles on one lock are compatible. -/
def Consistent (table : LockTable L) : Prop :=
  table.Pairwise fun h h' => h.lock = h'.lock → h.shared = true ∧ h'.shared = true

theorem acquire_eq_some_iff {table table' : LockTable L} {thread : Nat} {lock : L}
    {shared : Bool} :
    table.acquire thread lock shared = some table' ↔
      table.grants lock shared = true ∧ table' = ⟨thread, lock, shared⟩ :: table := by
  unfold acquire
  split
  · rename_i h
    simp only [Option.some.injEq, h, true_and]
    exact eq_comm
  · rename_i h
    simp [h]

theorem Consistent.acquire {table table' : LockTable L} {thread : Nat} {lock : L}
    {shared : Bool} (h : table.Consistent)
    (hacq : table.acquire thread lock shared = some table') : table'.Consistent := by
  obtain ⟨hgrants, rfl⟩ := acquire_eq_some_iff.mp hacq
  refine List.Pairwise.cons (fun h' hh' hlock => ?_) h
  have hcompat := List.all_eq_true.mp hgrants h' hh'
  simp only [← hlock, ne_eq, not_true_eq_false, decide_false, Bool.false_or,
    Bool.and_eq_true] at hcompat
  exact hcompat.symm

theorem Consistent.release {table : LockTable L} (h : table.Consistent) (thread : Nat)
    (lock : L) : (table.release thread lock).Consistent :=
  h.sublist List.eraseP_sublist

omit [DecidableEq L] in
/-- Two handles of different threads on one lock are both shared. -/
theorem Consistent.shared {table : LockTable L} (h : table.Consistent) {i j : Nat} {lock : L}
    {s s' : Bool} (hi : ⟨i, lock, s⟩ ∈ table) (hj : ⟨j, lock, s'⟩ ∈ table) (hne : i ≠ j) :
    s = true ∧ s' = true := by
  have hsymm : Std.Symm fun h h' : Handle L =>
      h.lock = h'.lock → h.shared = true ∧ h'.shared = true :=
    ⟨fun _ _ hc hl => (hc hl.symm).symm⟩
  exact h.forall hi hj (by simp [hne]) rfl

omit [DecidableEq L] in
/-- An exclusive handle excludes every other thread. -/
theorem Consistent.eq_of_exclusive {table : LockTable L} (h : table.Consistent) {i j : Nat}
    {lock : L} {s : Bool} (hi : ⟨i, lock, false⟩ ∈ table) (hj : ⟨j, lock, s⟩ ∈ table) :
    i = j := by
  by_contra hne
  exact absurd (h.shared hi hj hne).1 (by simp)

theorem mem_release_of_ne {table : LockTable L} {h : Handle L} {thread : Nat} {lock : L}
    (hne : h.thread ≠ thread ∨ h.lock ≠ lock) : h ∈ table.release thread lock ↔ h ∈ table := by
  refine List.mem_eraseP_of_neg ?_
  rcases hne with hne | hne <;> simp [hne]

end LockTable

/-! ## The locks that a history holds -/

section Histories

variable {A : Type} {R : A → Type} {S C ε β L W : Type} [DecidableEq L]

/-- The lock actions of a machine, and where its state keeps the lock table. -/
structure Locking (M : Machine R S C) (L : Type) [DecidableEq L] where
  table : S → LockTable L
  acquires : A → Option (L × Bool)
  releases : A → Option L
  exec_acquires : ∀ {i a choice s reply s' lock shared}, acquires a = some (lock, shared) →
    M.exec i a choice s = some (reply, s') → (table s).acquire i lock shared = some (table s')
  exec_releases : ∀ {i a choice s reply s' lock}, acquires a = none → releases a = some lock →
    M.exec i a choice s = some (reply, s') → table s' = (table s).release i lock
  exec_other : ∀ {i a choice s reply s'}, acquires a = none → releases a = none →
    M.exec i a choice s = some (reply, s') → table s' = table s

namespace Locking

variable {M : Machine R S C} (K : Locking M L)

/-- The locks held after one more action. -/
def hold (locks : List (L × Bool)) (action : A) : List (L × Bool) :=
  match K.acquires action, K.releases action with
  | some lock, _ => lock :: locks
  | none, some lock => locks.filter fun h => h.1 ≠ lock
  | none, none => locks

/-- The locks that a thread holds after its own history. -/
def held (h : List (Event R)) : List (L × Bool) :=
  h.foldl (fun locks e => K.hold locks e.action) []

/-- The action neither takes nor gives back a lock. -/
def Internal (action : A) : Prop := K.acquires action = none ∧ K.releases action = none

variable {K} {i : Nat} {lock : L} {shared : Bool} {h h' : List (Event R)} {e : Event R}

@[simp] theorem held_snoc : K.held (h ++ [e]) = K.hold (K.held h) e.action := by
  simp [held, List.foldl_append]

theorem hold_internal {action : A} (hint : K.Internal action) (locks : List (L × Bool)) :
    K.hold locks action = locks := by
  simp [hold, hint.1, hint.2]

/-- Only giving it back loses a lock. -/
theorem mem_hold {action : A} {locks : List (L × Bool)} (hmem : (lock, shared) ∈ locks)
    (hkeep : K.releases action ≠ some lock) : (lock, shared) ∈ K.hold locks action := by
  unfold hold
  split
  · exact List.mem_cons_of_mem _ hmem
  · rename_i lock' hacq hrel
    refine List.mem_filter.mpr ⟨hmem, ?_⟩
    have hne : lock ≠ lock' := fun heq => hkeep (heq ▸ hrel)
    simpa using hne
  · exact hmem

theorem mem_held_append (hmem : (lock, shared) ∈ K.held h)
    (hkeep : ∀ e ∈ h', K.releases e.action ≠ some lock) : (lock, shared) ∈ K.held (h ++ h') := by
  induction h' using List.reverseRecOn with
  | nil => simpa using hmem
  | append_singleton init last ih =>
    rw [← List.append_assoc, held_snoc]
    refine mem_hold (ih fun e he => hkeep e (by simp [he])) (hkeep last (by simp))

/-- A lock that is held has been taken. -/
theorem acquired_of_held (hmem : (lock, shared) ∈ K.held h) :
    ∃ e ∈ h, K.acquires e.action = some (lock, shared) := by
  induction h using List.reverseRecOn with
  | nil => cases hmem
  | append_singleton init last ih =>
    have hinit : (lock, shared) ∈ K.held init →
        ∃ e ∈ init ++ [last], K.acquires e.action = some (lock, shared) := by
      intro hmem
      obtain ⟨e, he, hacq⟩ := ih hmem
      exact ⟨e, List.mem_append_left _ he, hacq⟩
    rw [held_snoc, hold] at hmem
    split at hmem
    · rename_i hacq
      rcases List.mem_cons.mp hmem with rfl | hmem
      · exact ⟨last, by simp, hacq⟩
      · exact hinit hmem
    · exact hinit (List.mem_of_mem_filter hmem)
    · exact hinit hmem

theorem held_append_internal (hint : ∀ e ∈ h', K.Internal e.action) :
    K.held (h ++ h') = K.held h := by
  induction h' using List.reverseRecOn with
  | nil => simp
  | append_singleton init last ih =>
    rw [← List.append_assoc, held_snoc, hold_internal (hint last (by simp))]
    exact ih fun e he => hint e (by simp [he])

/-! ## Runs that start without locks -/

/-- A configuration in which no thread has done anything and no lock is held. -/
structure Started (K : Locking M L) (c₀ : Config R S ε β) : Prop where
  trace : c₀.trace = []
  table : K.table c₀.state = []

variable {guard : Guard R S C} {c₀ c₁ c₂ c : Config R S ε β}

/-- The lock table is consistent and has the locks of every history. -/
theorem Started.listed (h₀ : K.Started c₀) (hrun : M.Reaches guard c₀ c) :
    (K.table c.state).Consistent ∧ ∀ i lock shared, (lock, shared) ∈ K.held (own i c.trace) →
      ⟨i, lock, shared⟩ ∈ K.table c.state := by
  induction hrun with
  | refl =>
    rw [h₀.table, h₀.trace]
    refine ⟨List.Pairwise.nil, fun i lock shared hmem => ?_⟩
    simp [held] at hmem
  | @step c c' e _ hstep ih =>
    obtain ⟨hcons, hlisted⟩ := ih
    have htrace := hstep.trace_eq
    obtain ⟨rest, choice, state, -, -, hexec, rfl⟩ := hstep
    have hothers : ∀ i lock shared, i ≠ e.thread →
        (lock, shared) ∈ K.held (own i (c.trace ++ [e])) →
        ⟨i, lock, shared⟩ ∈ K.table c.state := by
      intro i lock shared hi hmem
      rw [own_append, own_cons_of_ne (Ne.symm hi), own_nil, List.append_nil] at hmem
      exact hlisted i lock shared hmem
    have hmine : K.held (own e.thread (c.trace ++ [e])) =
        K.hold (K.held (own e.thread c.trace)) e.action := by
      rw [own_append, own_cons_self rfl, own_nil, held_snoc]
    rw [htrace]
    cases hacq : K.acquires e.action with
    | some lock =>
      obtain ⟨lock, shared⟩ := lock
      have htable := K.exec_acquires hacq hexec
      refine ⟨hcons.acquire htable, fun i lock' shared' hmem => ?_⟩
      obtain ⟨-, heq⟩ := LockTable.acquire_eq_some_iff.mp htable
      show _ ∈ K.table state
      rw [heq]
      by_cases hi : i = e.thread
      · subst hi
        rw [hmine, hold, hacq] at hmem
        rcases List.mem_cons.mp hmem with heq | hmem
        · cases heq
          exact List.mem_cons_self
        · exact List.mem_cons_of_mem _ (hlisted _ _ _ hmem)
      · exact List.mem_cons_of_mem _ (hothers i _ _ hi hmem)
    | none =>
      cases hrel : K.releases e.action with
      | some lock =>
        have htable := K.exec_releases hacq hrel hexec
        show (K.table state).Consistent ∧ ∀ i lock shared, _ → _ ∈ K.table state
        rw [htable]
        refine ⟨hcons.release e.thread lock, fun i lock' shared' hmem => ?_⟩
        by_cases hi : i = e.thread
        · subst hi
          rw [hmine, hold, hacq, hrel] at hmem
          obtain ⟨hmem, hne⟩ := List.mem_filter.mp hmem
          exact (LockTable.mem_release_of_ne (Or.inr (by simpa using hne))).mpr
            (hlisted _ _ _ hmem)
        · exact (LockTable.mem_release_of_ne (Or.inl hi)).mpr (hothers i _ _ hi hmem)
      | none =>
        have htable := K.exec_other hacq hrel hexec
        show (K.table state).Consistent ∧ ∀ i lock shared, _ → _ ∈ K.table state
        rw [htable]
        refine ⟨hcons, fun i lock' shared' hmem => ?_⟩
        by_cases hi : i = e.thread
        · subst hi
          rw [hmine, hold_internal ⟨hacq, hrel⟩] at hmem
          exact hlisted _ _ _ hmem
        · exact hothers i _ _ hi hmem

/-- While a thread holds a lock exclusively, nobody else holds it. -/
theorem Started.not_held (h₀ : K.Started c₀) (hrun : M.Reaches guard c₀ c) {j : Nat}
    (hi : (lock, false) ∈ K.held (own i c.trace)) (hne : j ≠ i) (shared : Bool) :
    (lock, shared) ∉ K.held (own j c.trace) := by
  intro hj
  obtain ⟨hcons, hlisted⟩ := h₀.listed hrun
  exact hne (hcons.eq_of_exclusive (hlisted i lock false hi) (hlisted j lock shared hj)).symm

/-- What holds when a thread has a lock exclusively still holds later, as long as it has not
given the lock back, when its own steps and the steps of threads without the lock keep it. -/
theorem Started.while_held (h₀ : K.Started c₀) (h₁ : M.Reaches guard c₀ c₁)
    (h : M.Reaches guard c₁ c₂) {m : List (Event R)}
    (hmine : own i c₂.trace = own i c₁.trace ++ m)
    (hheld : (lock, false) ∈ K.held (own i c₁.trace))
    (hkeep : ∀ e ∈ m, K.releases e.action ≠ some lock) {I : Config R S ε β → Prop}
    (hbase : I c₁)
    (hself : ∀ c e c', e ∈ m → M.Reaches guard c₀ c → M.Step guard e c c' → I c → I c')
    (hother : ∀ c e c', e.thread ≠ i → (∀ shared, (lock, shared) ∉ K.held (own e.thread c.trace)) →
      M.Reaches guard c₀ c → M.Step guard e c c' → I c → I c') : I c₂ := by
  obtain ⟨events, hevents⟩ := h.trace_prefix
  have hown : m = own i events := by
    rw [hevents, own_append] at hmine
    exact (List.append_cancel_left hmine).symm
  refine h.interval hevents hbase fun c e c' before after hsplit htrace hreach hstep hI => ?_
  have hmem : e ∈ events := by simp [hsplit]
  by_cases hthread : e.thread = i
  · exact hself c e c' (hown ▸ mem_own.mpr ⟨hmem, hthread⟩) (h₁.trans hreach) hstep hI
  · refine hother c e c' hthread ?_ (h₁.trans hreach) hstep hI
    refine h₀.not_held (h₁.trans hreach) ?_ hthread
    rw [htrace, own_append]
    refine mem_held_append hheld fun e' he' => hkeep e' ?_
    have hbefore := mem_own.mp he'
    exact hown ▸ mem_own.mpr ⟨by simp [hsplit, hbefore.1], hbefore.2⟩

/-! ## Touching resources -/

variable (K) (touches : A → W → Prop) (lockOf : W → L)

/-- The locks of all resources that the action touches are held. -/
def Covered (h : List (Event R)) (action : A) : Prop :=
  ∀ w, touches action w → ∃ shared, (lockOf w, shared) ∈ K.held h

/-- The program may still touch `w` before it takes or gives back a lock. -/
def MayTouch (w : W) : Program R ε β → Prop
  | .ret _ => False
  | .fail _ => False
  | .act action rest => K.Internal action ∧ (touches action w ∨ ∃ reply, MayTouch w (rest reply))

/-- Thread `i` has touched `w` since it last took or gave back a lock. -/
def HasTouched (i : Nat) (w : W) (trace : List (Event R)) : Prop :=
  ∃ before event after, trace = before ++ event :: after ∧ event.thread = i ∧
    K.Internal event.action ∧ touches event.action w ∧
    ∀ e ∈ after, e.thread = i → K.Internal e.action

/-- Thread `i` touches `w` in its present critical section. -/
def Touching (c : Config R S ε β) (i : Nat) (w : W) : Prop :=
  K.HasTouched touches i w c.trace ∨ K.MayTouch touches w (c.programs i)

variable {K touches lockOf} {w : W} {rules : Rules R ε β}

theorem mayTouch_held {allowed : List (Event R) → A → Prop} {post : β → List (Event R) → Prop}
    {postE : ε → List (Event R) → Prop} {program : Program R ε β}
    (hcovered : ∀ h action, allowed h action → K.Covered touches lockOf h action)
    (hobeys : Obeys i allowed post postE h program) (hmay : K.MayTouch touches w program) :
    ∃ shared, (lockOf w, shared) ∈ K.held h := by
  induction program generalizing h with
  | ret value => exact hmay.elim
  | fail error => exact hmay.elim
  | act action rest ih =>
    obtain ⟨hinternal, htouch | ⟨reply, hmay⟩⟩ := hmay
    · exact hcovered h action hobeys.1 w htouch
    · have hrest := ih reply (hobeys.2 reply) hmay
      rwa [held_snoc, hold_internal hinternal] at hrest

/-- A thread that is touching a resource holds its lock. -/
theorem Started.touching_held (h₀ : K.Started c₀) (hrules : rules.Obeyed c₀)
    (hcovered : ∀ i h action, rules.allowed i h action → K.Covered touches lockOf h action)
    (hrun : M.Reaches guard c₀ c) (htouching : K.Touching touches c i w) :
    ∃ shared, (lockOf w, shared) ∈ K.held (own i c.trace) := by
  rcases htouching with ⟨before, event, after, hsplit, hthread, hinternal, htouch, hafter⟩ | hmay
  · have hallowed := hrules.allowed_of_split h₀.trace hrun hsplit
    obtain ⟨shared, hmem⟩ := hcovered _ _ _ hallowed w htouch
    refine ⟨shared, ?_⟩
    rw [hsplit, own_append, own_cons_self hthread, held_append_internal]
    · exact hthread ▸ hmem
    · intro e he
      rcases List.mem_cons.mp he with rfl | he
      · exact hinternal
      · exact hafter e (mem_own.mp he).1 (mem_own.mp he).2
  · exact mayTouch_held (hcovered i) (hrules.reaches hrun i) hmay

/-- Whether a thread has touched a resource can be read off the last part of its own history. -/
theorem hasTouched_of_any [∀ action, Decidable (K.Internal action)]
    [∀ action, Decidable (touches action w)] {trace : List (Event R)}
    (h : (((own i trace).reverse.takeWhile fun e => K.Internal e.action).any fun e =>
      touches e.action w) = true) : K.HasTouched touches i w trace := by
  have hinternal : ∀ e ∈ (own i trace).reverse.takeWhile (fun e => K.Internal e.action),
      K.Internal e.action := fun e he => of_decide_eq_true (List.all_eq_true.mp List.all_takeWhile e he)
  obtain ⟨event, hmem, htouch⟩ := List.any_eq_true.mp h
  obtain ⟨later, earlier, hsplit⟩ := List.append_of_mem hmem
  have hown : ∃ first, own i trace = first ++ event :: later.reverse := by
    have hwhole := List.takeWhile_append_dropWhile (l := (own i trace).reverse)
      (p := fun e => decide (K.Internal e.action))
    rw [hsplit] at hwhole
    refine ⟨(earlier ++ (own i trace).reverse.dropWhile fun e => K.Internal e.action).reverse, ?_⟩
    rw [← List.reverse_inj]
    simpa using hwhole.symm
  obtain ⟨first, hown⟩ := hown
  obtain ⟨before, after, htrace, -, hafter, hthread⟩ := own_split hown
  refine ⟨before, event, after, htrace, hthread, hinternal event hmem, of_decide_eq_true htouch,
    fun e he hi => hinternal e ?_⟩
  have hlater : e ∈ later := by
    rw [← List.mem_reverse, ← hafter]
    exact mem_own.mpr ⟨he, hi⟩
  rw [hsplit]
  exact List.mem_append_left _ hlater

/-- Two threads of a disciplined pool that touch one resource in critical sections that overlap
both hold its lock, and hold it in shared mode. -/
theorem Started.shared_of_touching (h₀ : K.Started c₀) (hrules : rules.Obeyed c₀)
    (hcovered : ∀ i h action, rules.allowed i h action → K.Covered touches lockOf h action)
    (hrun : M.Reaches guard c₀ c) {j : Nat} (hne : i ≠ j)
    (hi : K.Touching touches c i w) (hj : K.Touching touches c j w) :
    (lockOf w, true) ∈ K.held (own i c.trace) ∧ (lockOf w, true) ∈ K.held (own j c.trace) := by
  obtain ⟨shared, hmem⟩ := h₀.touching_held hrules hcovered hrun hi
  obtain ⟨shared', hmem'⟩ := h₀.touching_held hrules hcovered hrun hj
  obtain ⟨hcons, hlisted⟩ := h₀.listed hrun
  obtain ⟨rfl, rfl⟩ := hcons.shared (hlisted _ _ _ hmem) (hlisted _ _ _ hmem') hne
  exact ⟨hmem, hmem'⟩

end Locking

end Histories

end Interleaving
