import AgentDev.Interleaving.Machine
import Mathlib.Logic.Relation

/-!
# Rely-guarantee reasoning

A `Contract` consists of an invariant of the shared view and of a guarantee for every thread: a
relation that each of its steps satisfies. The *rely* of a thread is what the guarantees of
all other threads allow. `Safe` says of a program and a view that, whatever the other
threads do within their guarantees, every further step of the program keeps the invariant
and the guarantee, and that its end satisfies a postcondition.

* `Contract.sound`: when all programs of a pool are safe at the start, the invariant and the
  safety of all programs hold in every configuration that any schedule reaches.
* `Spec`: safety from a precondition that is stable under the rely, with one rule for each
  program constructor. Programs are verified with these rules only.
-/

namespace Interleaving

variable {A : Type} {R : A → Type} {S C ε α β : Type}

/-- An invariant of the view, and what each thread guarantees of its own steps. -/
structure Contract (R : A → Type) (S : Type) where
  inv : View R S → Prop
  guar : Nat → View R S → View R S → Prop

namespace Contract

variable (K : Contract R S)

/-- What thread `i` may rely on: another thread moves within its guarantee. -/
def rely (i : Nat) (v v' : View R S) : Prop :=
  K.inv v ∧ K.inv v' ∧ ∃ j, j ≠ i ∧ K.guar j v v'

/-- No step of another thread invalidates `P`. -/
def Stable (i : Nat) (P : View R S → Prop) : Prop :=
  ∀ v v', K.rely i v v' → P v → P v'

variable {K}

theorem Stable.star {i : Nat} {P : View R S → Prop} (hP : K.Stable i P) {v v' : View R S}
    (h : Relation.ReflTransGen (K.rely i) v v') (hv : P v) : P v' := by
  induction h with
  | refl => exact hv
  | tail _ hstep ih => exact hP _ _ hstep ih

theorem Stable.and {i : Nat} {P P' : View R S → Prop} (h : K.Stable i P) (h' : K.Stable i P') :
    K.Stable i fun v => P v ∧ P' v :=
  fun v v' hr hv => ⟨h v v' hr hv.1, h' v v' hr hv.2⟩

theorem Stable.const (i : Nat) (p : Prop) : K.Stable i fun _ => p := fun _ _ _ hv => hv

theorem Stable.all {ι : Sort*} {i : Nat} {P : ι → View R S → Prop} (h : ∀ x, K.Stable i (P x)) :
    K.Stable i fun v => ∀ x, P x v :=
  fun v v' hr hv x => h x v v' hr (hv x)

theorem Stable.imp {i : Nat} {p : Prop} {P : View R S → Prop} (h : p → K.Stable i P) :
    K.Stable i fun v => p → P v :=
  fun v v' hr hv hp => h hp v v' hr (hv hp)

variable (K) (M : Machine R S C) (guard : Guard R S C)

/-- From the view `v` on, the program of thread `i` keeps the invariant and its guarantee, and
ends with `Q` or, by an exception, with `E`, whatever the other threads do. -/
def Safe (i : Nat) (Q : α → View R S → Prop) (E : ε → View R S → Prop) :
    Program R ε α → View R S → Prop
  | .ret value, v => ∀ v', Relation.ReflTransGen (K.rely i) v v' → Q value v'
  | .fail error, v => ∀ v', Relation.ReflTransGen (K.rely i) v v' → E error v'
  | .act action rest, v => ∀ v', Relation.ReflTransGen (K.rely i) v v' → K.inv v' →
      ∀ choice reply state, guard v' i action choice →
        M.exec i action choice v'.state = some (reply, state) →
          let v'' := v'.after state ⟨i, action, reply⟩
          K.inv v'' ∧ K.guar i v' v'' ∧ Safe i Q E (rest reply) v''

/-- Safety from every view that satisfies `P`. -/
def Spec (i : Nat) (P : View R S → Prop) (body : Program R ε α) (Q : α → View R S → Prop)
    (E : ε → View R S → Prop) : Prop :=
  ∀ v, P v → K.Safe M guard i Q E body v

variable {K M guard} {i : Nat} {P P' : View R S → Prop} {Q : α → View R S → Prop}
  {E E' : ε → View R S → Prop}

/-- A step of another thread does not hurt. -/
theorem Safe.rely_step {body : Program R ε α} {v v' : View R S}
    (h : K.Safe M guard i Q E body v) (hr : K.rely i v v') :
    K.Safe M guard i Q E body v' := by
  cases body with
  | ret value => exact fun w hw => h w (.head hr hw)
  | fail error => exact fun w hw => h w (.head hr hw)
  | act action rest => exact fun w hw => h w (.head hr hw)

theorem Safe.bind {Q' : β → View R S → Prop} {body : Program R ε α}
    {next : α → Program R ε β} {v : View R S}
    (h : K.Safe M guard i (fun value => K.Safe M guard i Q' E (next value)) E body v) :
    K.Safe M guard i Q' E (body.bind next) v := by
  induction body generalizing v with
  | ret value => exact h v .refl
  | fail error => exact h
  | act action rest ih =>
    intro v' hr hinv choice reply state hguard hexec
    obtain ⟨hinv', hguar, hrest⟩ := h v' hr hinv choice reply state hguard hexec
    exact ⟨hinv', hguar, ih reply hrest⟩

theorem Safe.mono {Q' : α → View R S → Prop} {body : Program R ε α} {v : View R S}
    (hQ : ∀ value v, Q value v → Q' value v) (hE : ∀ error v, E error v → E' error v)
    (h : K.Safe M guard i Q E body v) : K.Safe M guard i Q' E' body v := by
  induction body generalizing v with
  | ret value => exact fun v' hr => hQ value v' (h v' hr)
  | fail error => exact fun v' hr => hE error v' (h v' hr)
  | act action rest ih =>
    intro v' hr hinv choice reply state hguard hexec
    obtain ⟨hinv', hguar, hrest⟩ := h v' hr hinv choice reply state hguard hexec
    exact ⟨hinv', hguar, ih reply hrest⟩

/-- What every step of every thread keeps holds on. -/
theorem Safe.frame {F : View R S → Prop}
    (hF : ∀ j v v', K.inv v → K.inv v' → K.guar j v v' → F v → F v') {body : Program R ε α}
    {v : View R S} (h : K.Safe M guard i Q E body v) (hv : F v) :
    K.Safe M guard i (fun value v => Q value v ∧ F v) (fun error v => E error v ∧ F v) body v := by
  have hstable : K.Stable i F := by
    rintro v v' ⟨hinv, hinv', j, -, hguar⟩ hv
    exact hF j v v' hinv hinv' hguar hv
  induction body generalizing v with
  | ret value => exact fun v' hr => ⟨h v' hr, hstable.star hr hv⟩
  | fail error => exact fun v' hr => ⟨h v' hr, hstable.star hr hv⟩
  | act action rest ih =>
    intro v' hr hinv choice reply state hguard hexec
    obtain ⟨hinv', hguar, hrest⟩ := h v' hr hinv choice reply state hguard hexec
    exact ⟨hinv', hguar, ih reply hrest (hF i _ _ hinv hinv' hguar (hstable.star hr hv))⟩

theorem Safe.handling {handler : ε → Program R ε α} {body : Program R ε α} {v : View R S}
    (h : K.Safe M guard i Q (fun error => K.Safe M guard i Q E (handler error)) body v) :
    K.Safe M guard i Q E (body.handling handler) v := by
  induction body generalizing v with
  | ret value => exact h
  | fail error => exact h v .refl
  | act action rest ih =>
    intro v' hr hinv choice reply state hguard hexec
    obtain ⟨hinv', hguar, hrest⟩ := h v' hr hinv choice reply state hguard hexec
    exact ⟨hinv', hguar, ih reply hrest⟩

/-- What holds at the end of a program holds from then on. -/
theorem Safe.settled {body : Program R ε α} {v : View R S} (h : K.Safe M guard i Q E body v) :
    K.Safe M guard i (fun value v => ∀ v', Relation.ReflTransGen (K.rely i) v v' → Q value v') E
      body v := by
  induction body generalizing v with
  | ret value => exact fun v' hr v'' hr' => h v'' (hr.trans hr')
  | fail error => exact h
  | act action rest ih =>
    intro v' hr hinv choice reply state hguard hexec
    obtain ⟨hinv', hguar, hrest⟩ := h v' hr hinv choice reply state hguard hexec
    exact ⟨hinv', hguar, ih reply hrest⟩

theorem Safe.ensuring {final : Program R ε Unit} {body : Program R ε α} {v : View R S}
    (h : K.Safe M guard i (fun value => K.Safe M guard i (fun _ => Q value) E final)
      (fun error => K.Safe M guard i (fun _ => E error) E final) body v) :
    K.Safe M guard i Q E (body.ensuring final) v := by
  induction body generalizing v with
  | ret value => exact Safe.bind (Safe.settled (h v .refl))
  | fail error => exact Safe.bind (Safe.settled (h v .refl))
  | act action rest ih =>
    intro v' hr hinv choice reply state hguard hexec
    obtain ⟨hinv', hguar, hrest⟩ := h v' hr hinv choice reply state hguard hexec
    exact ⟨hinv', hguar, ih reply hrest⟩

namespace Spec

theorem ret {value : α} (hP : K.Stable i P) (h : ∀ v, P v → Q value v) :
    K.Spec M guard i P (.ret value : Program R ε α) Q E :=
  fun _ hv v' hr => h v' (hP.star hr hv)

theorem fail {error : ε} (hP : K.Stable i P) (h : ∀ v, P v → E error v) :
    K.Spec M guard i P (.fail error : Program R ε α) Q E :=
  fun _ hv v' hr => h v' (hP.star hr hv)

/-- The rule for one action: the precondition is stable, and the action leads from it to the
precondition of what follows its reply. -/
theorem act {a : A} {rest : R a → Program R ε α} {J : R a → View R S → Prop}
    (hP : K.Stable i P)
    (hstep : ∀ v choice reply state, guard v i a choice → K.inv v → P v →
      M.exec i a choice v.state = some (reply, state) →
        K.inv (v.after state ⟨i, a, reply⟩) ∧ K.guar i v (v.after state ⟨i, a, reply⟩) ∧
        J reply (v.after state ⟨i, a, reply⟩))
    (hrest : ∀ reply, K.Spec M guard i (J reply) (rest reply) Q E) :
    K.Spec M guard i P (.act a rest) Q E := by
  intro v hv v' hr hinv choice reply state hguard hexec
  obtain ⟨hinv', hguar, hJ⟩ := hstep v' choice reply state hguard hinv (hP.star hr hv) hexec
  exact ⟨hinv', hguar, hrest reply _ hJ⟩

theorem bind {Q' : β → View R S → Prop} {body : Program R ε α} {next : α → Program R ε β}
    (hbody : K.Spec M guard i P body Q E)
    (hnext : ∀ value, K.Spec M guard i (Q value) (next value) Q' E) :
    K.Spec M guard i P (body.bind next) Q' E :=
  fun v hv => Safe.bind ((hbody v hv).mono (fun value v' hQ => hnext value v' hQ) fun _ _ hE => hE)

theorem handling {handler : ε → Program R ε α} {body : Program R ε α}
    (hbody : K.Spec M guard i P body Q E')
    (hhandler : ∀ error, K.Spec M guard i (E' error) (handler error) Q E) :
    K.Spec M guard i P (body.handling handler) Q E :=
  fun v hv => Safe.handling ((hbody v hv).mono (fun _ _ hQ => hQ)
    fun error v' hE => hhandler error v' hE)

theorem ensuring {J : α → View R S → Prop} {F : ε → View R S → Prop} {final : Program R ε Unit}
    {body : Program R ε α} (hbody : K.Spec M guard i P body J F)
    (hret : ∀ value, K.Spec M guard i (J value) final (fun _ => Q value) E)
    (hfail : ∀ error, K.Spec M guard i (F error) final (fun _ => E error) E) :
    K.Spec M guard i P (body.ensuring final) Q E :=
  fun v hv => Safe.ensuring ((hbody v hv).mono (fun value v' hQ => hret value v' hQ)
    fun error v' hE => hfail error v' hE)

theorem frame {F : View R S → Prop}
    (hF : ∀ j v v', K.inv v → K.inv v' → K.guar j v v' → F v → F v') {body : Program R ε α}
    (h : K.Spec M guard i P body Q E) :
    K.Spec M guard i (fun v => P v ∧ F v) body (fun value v => Q value v ∧ F v)
      (fun error v => E error v ∧ F v) :=
  fun v hv => (h v hv.1).frame hF hv.2

theorem weaken {Q' : α → View R S → Prop} {body : Program R ε α}
    (h : K.Spec M guard i P' body Q' E') (hP : ∀ v, P v → P' v)
    (hQ : ∀ value v, Q' value v → Q value v) (hE : ∀ error v, E' error v → E error v) :
    K.Spec M guard i P body Q E :=
  fun v hv => (h v (hP v hv)).mono hQ hE

end Spec

/-! ## Soundness for pools of programs -/

variable {Q : Nat → β → View R S → Prop} {E : Nat → ε → View R S → Prop}

/-- Every program of the pool is safe in the current view. -/
def PoolSafe (K : Contract R S) (M : Machine R S C) (guard : Guard R S C)
    (Q : Nat → β → View R S → Prop) (E : Nat → ε → View R S → Prop)
    (c : Config R S ε β) : Prop :=
  K.inv c.view ∧ ∀ i, K.Safe M guard i (Q i) (E i) (c.programs i) c.view

/-- One step of a safe pool satisfies the guarantee of its thread and leaves a safe pool. -/
theorem PoolSafe.step {c c' : Config R S ε β} {e : Event R} (h : PoolSafe K M guard Q E c)
    (hstep : M.Step guard e c c') :
    PoolSafe K M guard Q E c' ∧ K.guar e.thread c.view c'.view := by
  obtain ⟨rest, choice, state, hprog, hguard, hexec, rfl⟩ := hstep
  have hsafe := h.2 e.thread
  rw [hprog] at hsafe
  obtain ⟨hinv', hguar, hrest⟩ := hsafe c.view .refl h.1 choice e.reply state hguard hexec
  refine ⟨⟨hinv', fun j => ?_⟩, hguar⟩
  by_cases hj : j = e.thread
  · subst hj
    rw [Config.advance_self]
    exact hrest
  · rw [Config.advance_of_ne c hj]
    exact (h.2 j).rely_step ⟨h.1, hinv', e.thread, Ne.symm hj, hguar⟩

/-- Soundness: all programs stay safe along every run whose steps meet the guard. -/
theorem sound {c₀ c : Config R S ε β} (h₀ : PoolSafe K M guard Q E c₀)
    (h : M.Reaches guard c₀ c) : PoolSafe K M guard Q E c := by
  induction h with
  | refl => exact h₀
  | step _ hstep ih => exact (ih.step hstep).1

/-- A thread that has ended satisfies its postcondition from then on. -/
theorem PoolSafe.post {c : Config R S ε β} (h : PoolSafe K M guard Q E c) {i : Nat} {value : β}
    (hret : c.programs i = .ret value) : Q i value c.view := by
  have hsafe := h.2 i
  rw [hret] at hsafe
  exact hsafe _ .refl

/-- The same for a thread that has ended with an exception. -/
theorem PoolSafe.post_fail {c : Config R S ε β} (h : PoolSafe K M guard Q E c) {i : Nat} {error : ε}
    (hfail : c.programs i = .fail error) : E i error c.view := by
  have hsafe := h.2 i
  rw [hfail] at hsafe
  exact hsafe _ .refl

end Contract

end Interleaving
