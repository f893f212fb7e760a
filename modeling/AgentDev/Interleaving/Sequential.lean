import AgentDev.Interleaving.History
import AgentDev.Interleaving.RelyGuarantee

/-!
# Threads that run one after another

`Spec effect allowed post postE x program` says what `program` does when it runs alone from the
state `x`: every action is allowed in the state in which it is performed, and the program ends
as `post` and `postE` say, for all replies and next states that the relation `effect` has for
its actions. There is one rule for each program constructor.

The states are those of a `Machine` with their traces (`Machine.alone`), or any abstraction that
they simulate (`Spec.of_simulation`): what one wants to know about a program decides how much
of the state has to be seen.

`Reaches (guard.only i)` are the runs of thread `i` alone, and `Serial` the runs in which thread 0
runs as far as it can, then thread 1, and so on. A specification holds along them
(`Spec.reaches`), and when every allowed action can happen, a thread that cannot go on has
ended (`Spec.ended_of_final`).
-/

namespace Interleaving

variable {A : Type} {R : A → Type} {S C X Y ε α β : Type}

/-- What an action may reply in a state, and the state after it. -/
abbrev Effects (R : A → Type) (X : Type) := X → (action : A) → R action → X → Prop

/-- What the program does when it runs alone. -/
def Spec (effect : Effects R X) (allowed : X → A → Prop) (post : α → X → Prop)
    (postE : ε → X → Prop) : X → Program R ε α → Prop
  | x, .ret value => post value x
  | x, .fail error => postE error x
  | x, .act action rest =>
    allowed x action ∧ ∀ reply x', effect x action reply x' →
      Spec effect allowed post postE x' (rest reply)

namespace Spec

variable {effect : Effects R X} {allowed : X → A → Prop} {Q : α → X → Prop} {E : ε → X → Prop}
  {x : X}

theorem mono {J : α → X → Prop} {F : ε → X → Prop} {body : Program R ε α}
    (hbody : Spec effect allowed Q E x body) (hQ : ∀ value x, Q value x → J value x)
    (hE : ∀ error x, E error x → F error x) : Spec effect allowed J F x body := by
  induction body generalizing x with
  | ret value => exact hQ value x hbody
  | fail error => exact hE error x hbody
  | act action rest ih =>
    exact ⟨hbody.1, fun reply x' heffect => ih reply (hbody.2 reply x' heffect)⟩

theorem bind {J : β → X → Prop} {body : Program R ε α} {next : α → Program R ε β}
    (hbody : Spec effect allowed Q E x body)
    (hnext : ∀ value x, Q value x → Spec effect allowed J E x (next value)) :
    Spec effect allowed J E x (body.bind next) := by
  induction body generalizing x with
  | ret value => exact hnext value x hbody
  | fail error => exact hbody
  | act action rest ih =>
    exact ⟨hbody.1, fun reply x' heffect => ih reply (hbody.2 reply x' heffect)⟩

/-- The rule of conjunction. -/
theorem and {allowed' : X → A → Prop} {Q' : α → X → Prop} {E' : ε → X → Prop} {body : Program R ε α}
    (hbody : Spec effect allowed Q E x body) (hbody' : Spec effect allowed' Q' E' x body) :
    Spec effect allowed (fun value x => Q value x ∧ Q' value x) (fun error x => E error x ∧ E' error x)
      x body := by
  induction body generalizing x with
  | ret value => exact ⟨hbody, hbody'⟩
  | fail error => exact ⟨hbody, hbody'⟩
  | act action rest ih =>
    exact ⟨hbody.1, fun reply x' heffect =>
      ih reply (hbody.2 reply x' heffect) (hbody'.2 reply x' heffect)⟩

theorem ensuring {J : α → X → Prop} {F : ε → X → Prop} {body : Program R ε α}
    {final : Program R ε Unit} (hbody : Spec effect allowed Q E x body)
    (hret : ∀ value x, Q value x → Spec effect allowed (fun _ => J value) F x final)
    (hfail : ∀ error x, E error x → Spec effect allowed (fun _ => F error) F x final) :
    Spec effect allowed J F x (body.ensuring final) := by
  induction body generalizing x with
  | ret value => exact (hret value x hbody).bind fun _ _ hQ => hQ
  | fail error => exact (hfail error x hbody).bind fun _ _ hQ => hQ
  | act action rest ih =>
    exact ⟨hbody.1, fun reply x' heffect => ih reply (hbody.2 reply x' heffect)⟩

/-- A program with certain actions only keeps what these keep. -/
theorem of_only {p : A → Prop} {I : X → Prop} {body : Program R ε α} (hbody : body.Only p)
    (hallowed : ∀ x action, I x → p action → allowed x action)
    (hkept : ∀ x action reply x', I x → p action → effect x action reply x' → I x') (hx : I x) :
    Spec effect allowed (fun _ => I) (fun _ => I) x body := by
  induction body generalizing x with
  | ret value => exact hx
  | fail error => exact hx
  | act action rest ih =>
    refine ⟨hallowed x action hx hbody.1, fun reply x' heffect => ?_⟩
    exact ih reply (hbody.2 reply) (hkept x action reply x' hx hbody.1 heffect)

/-- More may be allowed. -/
theorem weaken {allowed' : X → A → Prop} {body : Program R ε α}
    (hbody : Spec effect allowed Q E x body)
    (hallowed : ∀ x action, allowed x action → allowed' x action) :
    Spec effect allowed' Q E x body := by
  induction body generalizing x with
  | ret value => exact hbody
  | fail error => exact hbody
  | act action rest ih =>
    exact ⟨hallowed x action hbody.1, fun reply x' heffect => ih reply (hbody.2 reply x' heffect)⟩

/-- The actions that a program is allowed are all that it performs. -/
theorem only {p : A → Prop} {body : Program R ε α}
    (hbody : Spec (fun _ _ _ _ => True) (fun _ => p) Q E x body) : body.Only p := by
  induction body with
  | ret value => trivial
  | fail error => trivial
  | act action rest ih => exact ⟨hbody.1, fun reply => ih reply (hbody.2 reply x trivial)⟩

/-- What a program is known to do when it ends holds under any rules that allow its actions. -/
theorem allowing {p : A → Prop} {allowed' : X → A → Prop} {body : Program R ε α}
    (hbody : Spec effect allowed Q E x body) (honly : body.Only p)
    (hallowed : ∀ x action, p action → allowed' x action) : Spec effect allowed' Q E x body := by
  induction body generalizing x with
  | ret value => exact hbody
  | fail error => exact hbody
  | act action rest ih =>
    exact ⟨hallowed x action honly.1, fun reply x' heffect =>
      ih reply (hbody.2 reply x' heffect) (honly.2 reply)⟩

/-- What holds of the abstract states holds of the states that they stand for. -/
theorem of_simulation {effect' : Effects R Y} {abs : Y → X} {y : Y}
    (hsimulates : ∀ y action reply y', effect' y action reply y' →
      effect (abs y) action reply (abs y'))
    {body : Program R ε α} (hbody : Spec effect allowed Q E (abs y) body) :
    Spec effect' (fun y => allowed (abs y)) (fun value y => Q value (abs y))
      (fun error y => E error (abs y)) y body := by
  induction body generalizing y with
  | ret value => exact hbody
  | fail error => exact hbody
  | act action rest ih =>
    refine ⟨hbody.1, fun reply y' heffect => ?_⟩
    exact ih reply (hbody.2 reply (abs y') (hsimulates y action reply y' heffect))

end Spec

/-! ## Runs of one thread -/

/-- Only thread `i` makes steps. -/
def Guard.only (guard : Guard R S C) (i : Nat) : Guard R S C :=
  fun v j action choice => j = i ∧ guard v j action choice

namespace Machine

/-- What the actions of thread `i` do to the view. -/
def alone (M : Machine R S C) (guard : Guard R S C) (i : Nat) : Effects R (View R S) :=
  fun v action reply v' => ∃ choice state, guard v i action choice ∧
    M.exec i action choice v.state = some (reply, state) ∧ v' = v.after state ⟨i, action, reply⟩

/-- Some choice of the environment lets the action happen. -/
def Enabled (M : Machine R S C) (guard : Guard R S C) (i : Nat) (v : View R S) (action : A) : Prop :=
  ∃ reply v', M.alone guard i v action reply v'

/-- Thread `i` cannot go on. -/
def Final (M : Machine R S C) (guard : Guard R S C) (i : Nat) (c : Config R S ε β) : Prop :=
  ∀ e c', ¬M.Step (guard.only i) e c c'

theorem final_of_ended {M : Machine R S C} {guard : Guard R S C} {i : Nat} {c : Config R S ε β}
    (hended : ∀ action rest, c.programs i ≠ .act action rest) : M.Final guard i c := by
  rintro e c' ⟨rest, choice, state, hprog, ⟨rfl, -⟩, -⟩
  exact hended e.action rest hprog

end Machine

namespace Spec

variable {M : Machine R S C} {guard : Guard R S C} {i : Nat} {allowed : View R S → A → Prop}
  {Q : α → View R S → Prop} {E : ε → View R S → Prop} {c c' : Config R S ε α} {e : Event R}

theorem step (h : Spec (M.alone guard i) allowed Q E c.view (c.programs i))
    (hstep : M.Step (guard.only i) e c c') :
    e.thread = i ∧ allowed c.view e.action ∧
      Spec (M.alone guard i) allowed Q E c'.view (c'.programs i) := by
  obtain ⟨rest, choice, state, hprog, ⟨rfl, hguard⟩, hexec, rfl⟩ := hstep
  rw [hprog] at h
  refine ⟨rfl, h.1, ?_⟩
  rw [Config.advance_self]
  exact h.2 e.reply _ ⟨choice, state, hguard, hexec, rfl⟩

theorem reaches (h : Spec (M.alone guard i) allowed Q E c.view (c.programs i))
    (hrun : M.Reaches (guard.only i) c c') :
    Spec (M.alone guard i) allowed Q E c'.view (c'.programs i) := by
  induction hrun with
  | refl => exact h
  | step _ hstep ih => exact (ih.step hstep).2.2

theorem post (h : Spec (M.alone guard i) allowed Q E c.view (c.programs i))
    (hrun : M.Reaches (guard.only i) c c') {value : α} (hret : c'.programs i = .ret value) :
    Q value c'.view := by
  have hend := h.reaches hrun
  rw [hret] at hend
  exact hend

/-- What the allowed actions keep holds all along. -/
theorem kept {I : View R S → Prop} (h : Spec (M.alone guard i) allowed Q E c.view (c.programs i))
    (hkept : ∀ v action reply v', allowed v action → M.alone guard i v action reply v' → I v → I v')
    (hrun : M.Reaches (guard.only i) c c') (hI : I c.view) : I c'.view := by
  induction hrun with
  | refl => exact hI
  | @step c' c'' e hreach hstep ih =>
    have hallowed := ((h.reaches hreach).step hstep).2.1
    obtain ⟨rest, choice, state, -, ⟨rfl, hguard⟩, hexec, rfl⟩ := hstep
    exact hkept c'.view e.action e.reply _ hallowed ⟨choice, state, hguard, hexec, rfl⟩ ih

/-- A thread all of whose actions can happen goes on until it has ended. -/
theorem ended_of_final (henabled : ∀ v action, allowed v action → M.Enabled guard i v action)
    (h : Spec (M.alone guard i) allowed Q E c.view (c.programs i))
    (hrun : M.Reaches (guard.only i) c c') (hfinal : M.Final guard i c') :
    (∃ value, c'.programs i = .ret value ∧ Q value c'.view) ∨
      ∃ error, c'.programs i = .fail error ∧ E error c'.view := by
  have hend := h.reaches hrun
  cases hprog : c'.programs i with
  | ret value =>
    rw [hprog] at hend
    exact Or.inl ⟨value, rfl, hend⟩
  | fail error =>
    rw [hprog] at hend
    exact Or.inr ⟨error, rfl, hend⟩
  | act action rest =>
    rw [hprog] at hend
    obtain ⟨reply, -, choice, state, hguard, hexec, -⟩ := henabled c'.view action hend.1
    exact absurd ⟨rest, choice, state, hprog, ⟨rfl, hguard⟩, hexec, rfl⟩
      (hfinal ⟨i, action, reply⟩ _)

/-- A thread all of whose actions can happen has a run to its end. -/
theorem exists_final (henabled : ∀ v action, allowed v action → M.Enabled guard i v action)
    (h : Spec (M.alone guard i) allowed Q E c.view (c.programs i)) :
    ∃ c', M.Reaches (guard.only i) c c' ∧ M.Final guard i c' := by
  generalize hprogram : c.programs i = program at h
  induction program generalizing c with
  | ret value => exact ⟨c, .refl, Machine.final_of_ended (by simp [hprogram])⟩
  | fail error => exact ⟨c, .refl, Machine.final_of_ended (by simp [hprogram])⟩
  | act action rest ih =>
    obtain ⟨reply, v', choice, state, hguard, hexec, rfl⟩ := henabled c.view action h.1
    have hstep : M.Step (guard.only i) ⟨i, action, reply⟩ c
        (c.advance i (rest reply) state ⟨i, action, reply⟩) :=
      ⟨rest, choice, state, hprogram, ⟨rfl, hguard⟩, hexec, rfl⟩
    obtain ⟨c', hrun, hfinal⟩ := ih reply (c.advance_self ..)
      (h.2 reply _ ⟨choice, state, hguard, hexec, rfl⟩)
    exact ⟨c', (Machine.Reaches.refl.step hstep).trans hrun, hfinal⟩

end Spec

/-- A program that is safe whatever the other threads do is safe when they do nothing. -/
theorem Spec.of_safe {K : Contract R S} {M : Machine R S C} {guard guard' : Guard R S C} {i : Nat}
    {Q : α → View R S → Prop} {E : ε → View R S → Prop} {I : View R S → Prop}
    {allowed : View R S → A → Prop} {body : Program R ε α} {v : View R S}
    (hguard : ∀ v action choice, guard' v i action choice → guard v i action choice)
    (hallowed : ∀ v action, I v → allowed v action)
    (hkept : ∀ v action reply v', M.alone guard' i v action reply v' → K.guar i v v' → I v → I v')
    (h : K.Safe M guard i Q E body v) (hinv : K.inv v) (hI : I v) :
    Spec (M.alone guard' i) allowed (fun value v => Q value v ∧ I v) (fun error v => E error v ∧ I v)
      v body := by
  induction body generalizing v with
  | ret value => exact ⟨h v .refl, hI⟩
  | fail error => exact ⟨h v .refl, hI⟩
  | act action rest ih =>
    refine ⟨hallowed v action hI, fun reply v' halone => ?_⟩
    obtain ⟨choice, state, hallow, hexec, rfl⟩ := halone
    obtain ⟨hinv', hguar, hrest⟩ :=
      h v .refl hinv choice reply state (hguard v action choice hallow) hexec
    exact ih reply hrest hinv' (hkept v action reply _ ⟨choice, state, hallow, hexec, rfl⟩ hguar hI)

/-! ## One thread after the other -/

namespace Machine

/-- The threads before `i` have run to their ends, one after another, and each of them as `ends`
says of the configurations before and after its run; the others have not begun. -/
inductive Serial (M : Machine R S C) (guard : Guard R S C)
    (ends : Nat → Config R S ε β → Config R S ε β → Prop) (c₀ : Config R S ε β) :
    Nat → Config R S ε β → Prop
  | start : Serial M guard ends c₀ 0 c₀
  | next {i : Nat} {c c' : Config R S ε β} : Serial M guard ends c₀ i c →
      M.Reaches (guard.only i) c c' → M.Final guard i c' → ends i c c' →
      Serial M guard ends c₀ (i + 1) c'

variable {M : Machine R S C} {guard guard' : Guard R S C} {i : Nat}
  {ends : Nat → Config R S ε β → Config R S ε β → Prop} {c₀ c c' : Config R S ε β}

theorem Reaches.weaken (hguard : ∀ v j action choice, guard v j action choice →
    guard' v j action choice) (h : M.Reaches guard c c') : M.Reaches guard' c c' := by
  induction h with
  | refl => exact .refl
  | step _ hstep ih =>
    obtain ⟨rest, choice, state, hprog, hg, hexec, rfl⟩ := hstep
    exact ih.step ⟨rest, choice, state, hprog, hguard _ _ _ _ hg, hexec, rfl⟩

theorem Reaches.of_only (h : M.Reaches (guard.only i) c c') : M.Reaches guard c c' :=
  h.weaken fun _ _ _ _ hguard => hguard.2

/-- While one thread runs, the others stay where they are. -/
theorem Reaches.only_other (h : M.Reaches (guard.only i) c c') {j : Nat} (hj : j ≠ i) :
    c'.programs j = c.programs j ∧ own j c'.trace = own j c.trace := by
  induction h with
  | refl => exact ⟨rfl, rfl⟩
  | @step c c' e _ hstep ih =>
    have htrace := hstep.trace_eq
    obtain ⟨rest, choice, state, -, ⟨rfl, -⟩, -, rfl⟩ := hstep
    rw [htrace, own_append, own_cons_of_ne (Ne.symm hj), own_nil, List.append_nil,
      Config.advance_of_ne _ hj]
    exact ih

/-- A thread whose turn has not come has not begun. -/
theorem Serial.untouched (h : M.Serial guard ends c₀ i c) {j : Nat} (hj : i ≤ j) :
    c.programs j = c₀.programs j ∧ own j c.trace = own j c₀.trace := by
  induction h with
  | start => exact ⟨rfl, rfl⟩
  | @next i c c' _ hrun _ _ ih =>
    obtain ⟨hprog, htrace⟩ := hrun.only_other (show j ≠ i by omega)
    obtain ⟨hprog₀, htrace₀⟩ := ih (by omega)
    exact ⟨hprog.trans hprog₀, htrace.trans htrace₀⟩

/-- What holds at first and is kept by every thread that runs alone holds in a serial run. -/
theorem Serial.invariant {I : S → Prop} (h : M.Serial guard ends c₀ i c) (hbase : I c₀.state)
    (hkept : ∀ i c c', c.programs i = c₀.programs i → I c.state →
      M.Reaches (guard.only i) c c' → M.Final guard i c' → ends i c c' → I c'.state) :
    I c.state := by
  induction h with
  | start => exact hbase
  | next hserial hrun hfinal hends ih =>
    exact hkept _ _ _ (hserial.untouched (Nat.le_refl _)).1 ih hrun hfinal hends

end Machine

end Interleaving
