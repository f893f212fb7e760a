import AgentDev.Interleaving.Machine

/-!
# What a thread knows from its own history

The events of a thread in a trace, `own i trace`, determine where its program is. So what a
program has done before each of its actions can be checked on the program alone, with
arbitrary replies and without any state: `Obeys i allowed post postE h body` says that
`body`, started after the own history `h`, performs every action `a` after a history `h'` with
`allowed h' a`, and ends as `post` and `postE` allow. There is one rule for each program
constructor.

In a pool of programs that obey, `allowed` then holds at every step of every run
(`Machine.Step.allowed`), whatever the schedule is. What the other threads do is not seen
here: that is the matter of inductions over runs.
-/

namespace Interleaving

variable {A : Type} {R : A → Type} {S C ε α β : Type}

/-- The events of thread `i`. -/
def own (i : Nat) (trace : List (Event R)) : List (Event R) :=
  trace.filter fun e => e.thread = i

section Own

variable {i : Nat} {trace trace' : List (Event R)} {e : Event R}

@[simp] theorem own_nil : own i ([] : List (Event R)) = [] := rfl

@[simp] theorem own_append : own i (trace ++ trace') = own i trace ++ own i trace' :=
  List.filter_append ..

theorem own_cons_self (h : e.thread = i) : own i (e :: trace) = e :: own i trace := by
  simp [own, h]

theorem own_cons_of_ne (h : e.thread ≠ i) : own i (e :: trace) = own i trace := by
  simp [own, h]

theorem mem_own : e ∈ own i trace ↔ e ∈ trace ∧ e.thread = i := by
  simp [own]

/-- An event of the own history is an event of the trace, with the same events of the thread
before and after it. -/
theorem own_split {before after : List (Event R)} (h : own i trace = before ++ e :: after) :
    ∃ p s, trace = p ++ e :: s ∧ own i p = before ∧ own i s = after ∧ e.thread = i := by
  obtain ⟨p, s, rfl, hp, hs⟩ := List.filter_eq_append_iff.mp h
  obtain ⟨q, s', rfl, hq, he, hs'⟩ := List.filter_eq_cons_iff.mp hs
  have hnone : own i q = [] := List.filter_eq_nil_iff.mpr fun a ha => by simpa using hq a ha
  refine ⟨p ++ q, s', by simp, ?_, hs', by simpa using he⟩
  rw [own_append, hnone, List.append_nil]
  exact hp

/-- The events after the first one that `p` holds of. -/
def since (p : Event R → Bool) (trace : List (Event R)) : List (Event R) :=
  (trace.dropWhile fun e => !p e).tail

theorem mem_since {p : Event R → Bool} {before after : List (Event R)} {e e' : Event R}
    (hsplit : trace = before ++ e :: after) (hp : p e = true) (hmem : e' ∈ after) :
    e' ∈ since p trace := by
  subst hsplit
  induction before with
  | nil => simpa [since, hp] using hmem
  | cons first before ih =>
    by_cases hfirst : p first = true
    · simp [since, hfirst, hmem]
    · simpa [since, hfirst] using ih

/-- One of two events comes first. -/
theorem mem_since_or_mem {p : Event R → Bool} {before after : List (Event R)} {e e' : Event R}
    (hsplit : trace = before ++ e :: after) (hmem : e' ∈ trace) (hp : p e' = true)
    (hne : e ≠ e') : e ∈ since p trace ∨ e' ∈ after := by
  rw [hsplit] at hmem
  rcases List.mem_append.mp hmem with hbefore | hrest
  · obtain ⟨first, second, rfl⟩ := List.append_of_mem hbefore
    left
    have hsplit' : trace = first ++ e' :: (second ++ e :: after) := by simp [hsplit]
    exact mem_since hsplit' hp (by simp)
  · rcases List.mem_cons.mp hrest with heq | hafter
    · exact absurd heq.symm hne
    · exact Or.inr hafter

/-- Every event that comes after is after some event that `p` holds of. -/
theorem split_of_mem_since {p : Event R → Bool} {e' : Event R} (h : e' ∈ since p trace) :
    ∃ before e after, trace = before ++ e :: after ∧ p e = true ∧ e' ∈ after := by
  induction trace with
  | nil => cases h
  | cons first trace ih =>
    by_cases hfirst : p first = true
    · refine ⟨[], first, trace, rfl, hfirst, ?_⟩
      simpa [since, hfirst] using h
    · have hrest : e' ∈ since p trace := by simpa [since, hfirst] using h
      obtain ⟨before, e, after, rfl, hp, hmem⟩ := ih hrest
      exact ⟨first :: before, e, after, rfl, hp, hmem⟩

/-- An event after one that `p` holds of, and before `e`. -/
theorem split_of_mem_since_before {p : Event R → Bool} {before after : List (Event R)}
    {e' : Event R} (hsplit : trace = before ++ e :: after) (h : e' ∈ since p before) :
    ∃ first middle, trace = first ++ e' :: (middle ++ e :: after) := by
  obtain ⟨start, found, rest, rfl, -, hmem⟩ := split_of_mem_since h
  obtain ⟨first, middle, rfl⟩ := List.append_of_mem hmem
  refine ⟨start ++ found :: first, middle, ?_⟩
  rw [hsplit]
  simp

/-- Two different events of a trace, in one order or the other. -/
theorem ordered_of_mem {e' : Event R} (hmem : e ∈ trace) (hmem' : e' ∈ trace) (hne : e ≠ e') :
    ∃ before middle after, trace = before ++ e :: (middle ++ e' :: after) ∨
      trace = before ++ e' :: (middle ++ e :: after) := by
  obtain ⟨before, after, hsplit⟩ := List.append_of_mem hmem
  rw [hsplit] at hmem'
  rcases List.mem_append.mp hmem' with hbefore | hrest
  · obtain ⟨first, middle, rfl⟩ := List.append_of_mem hbefore
    exact ⟨first, middle, after, Or.inr (by rw [hsplit]; simp)⟩
  · rcases List.mem_cons.mp hrest with heq | hafter
    · exact absurd heq.symm hne
    · obtain ⟨middle, last, rfl⟩ := List.append_of_mem hafter
      exact ⟨before, middle, last, Or.inl hsplit⟩

end Own

/-- After the own history `h`, the program performs only allowed actions, whatever the replies
are, and ends as allowed. -/
def Obeys (i : Nat) (allowed : List (Event R) → A → Prop) (post : α → List (Event R) → Prop)
    (postE : ε → List (Event R) → Prop) : List (Event R) → Program R ε α → Prop
  | h, .ret value => post value h
  | h, .fail error => postE error h
  | h, .act action rest =>
    allowed h action ∧ ∀ reply, Obeys i allowed post postE (h ++ [⟨i, action, reply⟩]) (rest reply)

namespace Obeys

variable {i : Nat} {allowed : List (Event R) → A → Prop} {Q : α → List (Event R) → Prop}
  {E : ε → List (Event R) → Prop} {h : List (Event R)}

theorem mono {J : α → List (Event R) → Prop} {F : ε → List (Event R) → Prop}
    {body : Program R ε α} (hbody : Obeys i allowed Q E h body)
    (hQ : ∀ value h, Q value h → J value h)
    (hE : ∀ error h, E error h → F error h) :
    Obeys i allowed J F h body := by
  induction body generalizing h with
  | ret value => exact hQ value h hbody
  | fail error => exact hE error h hbody
  | act action rest ih => exact ⟨hbody.1, fun reply => ih reply (hbody.2 reply)⟩

theorem bind {J : β → List (Event R) → Prop} {body : Program R ε α}
    {next : α → Program R ε β} (hbody : Obeys i allowed Q E h body)
    (hnext : ∀ value h, Q value h → Obeys i allowed J E h (next value)) :
    Obeys i allowed J E h (body.bind next) := by
  induction body generalizing h with
  | ret value => exact hnext value h hbody
  | fail error => exact hbody
  | act action rest ih => exact ⟨hbody.1, fun reply => ih reply (hbody.2 reply)⟩

theorem ensuring {J : α → List (Event R) → Prop} {F : ε → List (Event R) → Prop}
    {body : Program R ε α} {final : Program R ε Unit}
    (hbody : Obeys i allowed Q E h body)
    (hret : ∀ value h, Q value h → Obeys i allowed (fun _ => J value) F h final)
    (hfail : ∀ error h, E error h → Obeys i allowed (fun _ => F error) F h final) :
    Obeys i allowed J F h (body.ensuring final) := by
  induction body generalizing h with
  | ret value => exact (hret value h hbody).bind fun _ _ hQ => hQ
  | fail error => exact (hfail error h hbody).bind fun _ _ hQ => hQ
  | act action rest ih => exact ⟨hbody.1, fun reply => ih reply (hbody.2 reply)⟩

/-- A program with certain actions only obeys when these are allowed after any of their kind. -/
theorem of_only {p : A → Prop} {body : Program R ε α} (hbody : body.Only p)
    (hallowed : ∀ new action, (∀ e ∈ new, p e.action) → p action → allowed (h ++ new) action)
    (hret : ∀ new value, (∀ e ∈ new, p e.action) → Q value (h ++ new))
    (hfail : ∀ new error, (∀ e ∈ new, p e.action) → E error (h ++ new)) :
    Obeys i allowed Q E h body := by
  induction body generalizing h with
  | ret value => simpa [Obeys] using hret [] value (by simp)
  | fail error => simpa [Obeys] using hfail [] error (by simp)
  | act action rest ih =>
    refine ⟨by simpa using hallowed [] action (by simp) hbody.1, fun reply => ?_⟩
    have hnew : ∀ new : List (Event R), (∀ e ∈ new, p e.action) →
        ∀ e ∈ ⟨i, action, reply⟩ :: new, p e.action := by
      intro new hnew e he
      rcases List.mem_cons.mp he with rfl | he
      · exact hbody.1
      · exact hnew e he
    refine ih reply (hbody.2 reply) (fun new a hn ha => ?_) (fun new v hn => ?_) fun new v hn => ?_
    · simpa using hallowed (⟨i, action, reply⟩ :: new) a (hnew new hn) ha
    · simpa using hret (⟨i, action, reply⟩ :: new) v (hnew new hn)
    · simpa using hfail (⟨i, action, reply⟩ :: new) v (hnew new hn)

/-- What a program is known to do before it ends holds under any rules that allow its actions. -/
theorem allowing {p : A → Prop} {allowed' : List (Event R) → A → Prop} {body : Program R ε α}
    (hbody : Obeys i allowed Q E h body) (honly : body.Only p)
    (hallowed : ∀ h action, p action → allowed' h action) : Obeys i allowed' Q E h body := by
  induction body generalizing h with
  | ret value => exact hbody
  | fail error => exact hbody
  | act action rest ih =>
    exact ⟨hallowed h action honly.1, fun reply => ih reply (hbody.2 reply) (honly.2 reply)⟩

end Obeys

/-! ## Pools of programs that obey -/

/-- What every thread `i` is allowed to do, and how it may end. -/
structure Rules (R : A → Type) (ε β : Type) where
  allowed : Nat → List (Event R) → A → Prop
  post : Nat → β → List (Event R) → Prop
  postE : Nat → ε → List (Event R) → Prop

/-- What is left of every program obeys the rules after the own history of its thread. -/
def Rules.Obeyed (rules : Rules R ε β) (c : Config R S ε β) : Prop :=
  ∀ i, Obeys i (rules.allowed i) (rules.post i) (rules.postE i) (own i c.trace) (c.programs i)

variable {rules : Rules R ε β} {M : Machine R S C} {guard : Guard R S C}
  {c₀ c c' : Config R S ε β} {e : Event R}

theorem Rules.Obeyed.allowed (h : rules.Obeyed c) (hstep : M.Step guard e c c') :
    rules.allowed e.thread (own e.thread c.trace) e.action := by
  obtain ⟨rest, choice, state, hprog, -⟩ := hstep
  have hobeys := h e.thread
  rw [hprog] at hobeys
  exact hobeys.1

theorem Rules.Obeyed.step (h : rules.Obeyed c) (hstep : M.Step guard e c c') :
    rules.Obeyed c' := by
  intro i
  have htrace := hstep.trace_eq
  obtain ⟨rest, choice, state, hprog, -, -, rfl⟩ := hstep
  rw [htrace, own_append]
  by_cases hi : i = e.thread
  · subst hi
    have hobeys := h e.thread
    rw [hprog] at hobeys
    rw [own_cons_self rfl, Config.advance_self]
    exact hobeys.2 e.reply
  · rw [own_cons_of_ne (Ne.symm hi), own_nil, List.append_nil, Config.advance_of_ne c hi]
    exact h i

/-- A pool of programs that obey the rules obeys them along every run. -/
theorem Rules.Obeyed.reaches (h : rules.Obeyed c₀) (hrun : M.Reaches guard c₀ c) :
    rules.Obeyed c := by
  induction hrun with
  | refl => exact h
  | step _ hstep ih => exact ih.step hstep

/-- The step at which an event of the trace happened, when the trace is known around it. -/
theorem Machine.Reaches.at_event (htrace₀ : c₀.trace = []) (hrun : M.Reaches guard c₀ c)
    {before after : List (Event R)} (htrace : c.trace = before ++ e :: after) :
    ∃ c₁ c₂, M.Reaches guard c₀ c₁ ∧ c₁.trace = before ∧ M.Step guard e c₁ c₂ ∧
      M.Reaches guard c₂ c := by
  obtain ⟨c₁, c₂, h₁, htr₁, hstep, h₂, -⟩ :=
    hrun.split (show c.trace = c₀.trace ++ before ++ e :: after by rw [htrace₀, htrace]; rfl)
  rw [htrace₀, List.nil_append] at htr₁
  exact ⟨c₁, c₂, h₁, htr₁, hstep, h₂⟩

/-- The steps at which two events of the trace happened. -/
theorem Machine.Reaches.at_events (htrace₀ : c₀.trace = []) (hrun : M.Reaches guard c₀ c)
    {e' : Event R} {before middle after : List (Event R)}
    (htrace : c.trace = before ++ e :: (middle ++ e' :: after)) :
    ∃ c₁ c₂ c₃ c₄, M.Reaches guard c₀ c₁ ∧ M.Step guard e c₁ c₂ ∧ M.Reaches guard c₂ c₃ ∧
      c₃.trace = c₂.trace ++ middle ∧ M.Step guard e' c₃ c₄ ∧ M.Reaches guard c₄ c := by
  have htrace' : c.trace = (before ++ e :: middle) ++ e' :: after := by
    rw [htrace]
    simp
  obtain ⟨c₃, c₄, hrun₃, htr₃, hstep', hrest⟩ := hrun.at_event htrace₀ htrace'
  obtain ⟨c₁, c₂, hrun₁, htr₁, hstep, hrest'⟩ := hrun₃.at_event htrace₀ htr₃
  refine ⟨c₁, c₂, c₃, c₄, hrun₁, hstep, hrest', ?_, hstep', hrest⟩
  rw [hstep.trace_eq, htr₁, htr₃]
  simp

/-- Every event of a run was allowed when it happened. -/
theorem Rules.Obeyed.allowed_of_split (h : rules.Obeyed c₀) (htrace₀ : c₀.trace = [])
    (hrun : M.Reaches guard c₀ c) {before after : List (Event R)}
    (htrace : c.trace = before ++ e :: after) :
    rules.allowed e.thread (own e.thread before) e.action := by
  obtain ⟨c₁, c₂, h₁, htr₁, hstep, -⟩ := hrun.at_event htrace₀ htrace
  have hallowed := (h.reaches h₁).allowed hstep
  rw [htr₁] at hallowed
  exact hallowed

/-- The step at which an event of the own history happened. -/
theorem Machine.Reaches.own_split (htrace₀ : c₀.trace = []) (hrun : M.Reaches guard c₀ c) {i : Nat}
    {h₁ h₂ : List (Event R)} (hown : own i c.trace = h₁ ++ e :: h₂) :
    ∃ c₁ c₂ after, M.Reaches guard c₀ c₁ ∧ M.Step guard e c₁ c₂ ∧ M.Reaches guard c₂ c ∧
      e.thread = i ∧ c.trace = c₁.trace ++ e :: after ∧ c.trace = c₂.trace ++ after ∧
      own i c₁.trace = h₁ ∧ own i after = h₂ := by
  obtain ⟨before, after, htrace, hbefore, hafter, hthread⟩ := Interleaving.own_split hown
  obtain ⟨c₁, c₂, h₁', htr₁, hstep, h₂'⟩ := hrun.at_event htrace₀ htrace
  have hsplit : c.trace = c₁.trace ++ e :: after := by rw [htrace, htr₁]
  refine ⟨c₁, c₂, after, h₁', hstep, h₂', hthread, hsplit, ?_, by rw [htr₁, hbefore], hafter⟩
  rw [hsplit, hstep.trace_eq, List.append_assoc]
  rfl

/-- The step at which an event of the trace happened. -/
theorem Machine.Reaches.split_of_mem (htrace₀ : c₀.trace = []) (hrun : M.Reaches guard c₀ c)
    (hmem : e ∈ c.trace) :
    ∃ c₁ c₂ after, M.Reaches guard c₀ c₁ ∧ M.Step guard e c₁ c₂ ∧ M.Reaches guard c₂ c ∧
      c.trace = c₁.trace ++ e :: after ∧ c.trace = c₂.trace ++ after := by
  obtain ⟨before, after, htrace⟩ := List.append_of_mem hmem
  obtain ⟨c₁, c₂, h₁, -, hstep, h₂⟩ := hrun.at_event htrace₀ htrace
  obtain ⟨rest, hsplit, hrest⟩ := hstep.trace_split h₂
  exact ⟨c₁, c₂, rest, h₁, hstep, h₂, hsplit, hrest⟩

theorem Rules.Obeyed.post (h : rules.Obeyed c) {i : Nat} {value : β}
    (hret : c.programs i = .ret value) : rules.post i value (own i c.trace) := by
  have hobeys := h i
  rw [hret] at hobeys
  exact hobeys

end Interleaving
