import AgentDev.Interleaving.Program
import Mathlib.Data.List.Basic
import Mathlib.Logic.Function.Basic

/-!
# Interleaved runs of any number of programs

A `Machine` says what one action does to the shared state. `exec i a ch s` is the action `a`
of thread `i` in the state `s`; `ch` is a choice of the environment (the outcome of a merge,
the reading of a clock, a command that fails), and `none` means that the action cannot
happen now: a lock that is not free, or a choice that does not concern the action.

A `Config` holds one program for every thread `i : Nat` and the shared state with the trace of
all events so far. A thread that has not been scheduled yet is a request that has not
arrived yet, so a pool of programs covers any number of requests arriving at any time.
`Reaches` ranges over all schedules; its guard is a condition on the view before each step,
so that `Reaches guard` are the runs whose steps all meet `guard`. `run` executes one
schedule under a decidable guard.
-/

namespace Interleaving

variable {A : Type} {R : A → Type} {S C ε β : Type}

/-- The atomic semantics of actions `a : A` with replies `R a` over states `S`, with choices
`C` of the environment. -/
structure Machine (R : A → Type) (S C : Type) where
  exec : Nat → (action : A) → C → S → Option (R action × S)

/-- One action that a thread has performed, with its reply. -/
structure Event (R : A → Type) where
  thread : Nat
  action : A
  reply : R action

/-- What all threads share: the state, and the history of events. -/
structure View (R : A → Type) (S : Type) where
  state : S
  trace : List (Event R)

/-- The view after one more event. -/
def View.after (v : View R S) (state : S) (event : Event R) : View R S :=
  ⟨state, v.trace ++ [event]⟩

/-- The programs that are left to run, and the shared view. -/
structure Config (R : A → Type) (S ε β : Type) where
  programs : Nat → Program R ε β
  view : View R S

abbrev Config.state (c : Config R S ε β) : S := c.view.state

abbrev Config.trace (c : Config R S ε β) : List (Event R) := c.view.trace

/-- Thread `i` has gone on to `program` by the event `event`, which led to `state`. -/
def Config.advance (c : Config R S ε β) (i : Nat) (program : Program R ε β) (state : S)
    (event : Event R) : Config R S ε β :=
  ⟨Function.update c.programs i program, c.view.after state event⟩

@[simp] theorem Config.advance_self (c : Config R S ε β) (i : Nat) (program : Program R ε β)
    (s : S) (e : Event R) : (c.advance i program s e).programs i = program := by
  simp [Config.advance]

theorem Config.advance_of_ne (c : Config R S ε β) {i j : Nat} (h : j ≠ i)
    (program : Program R ε β) (s : S) (e : Event R) :
    (c.advance i program s e).programs j = c.programs j := by
  simp [Config.advance, h]

/-- A condition on a step: on the view before it, its thread, its action and its choice. -/
abbrev Guard (R : A → Type) (S C : Type) := View R S → Nat → A → C → Prop

namespace Machine

variable (M : Machine R S C)

/-- The event `e` happens: its thread performs the next action of its program, gets the reply,
and the step meets the guard. -/
def Step (guard : Guard R S C) (e : Event R) (c c' : Config R S ε β) : Prop :=
  ∃ rest choice state, c.programs e.thread = .act e.action rest ∧
    guard c.view e.thread e.action choice ∧
    M.exec e.thread e.action choice c.state = some (e.reply, state) ∧
    c' = c.advance e.thread (rest e.reply) state e

/-- The configurations that runs reach from `c₀` whose steps all meet the guard. -/
inductive Reaches (guard : Guard R S C) (c₀ : Config R S ε β) : Config R S ε β → Prop
  | refl : Reaches guard c₀ c₀
  | step {c c' : Config R S ε β} {e : Event R} :
      Reaches guard c₀ c → M.Step guard e c c' → Reaches guard c₀ c'

/-- One step of a schedule: the thread and the choice of the environment. -/
def step (guard : View R S → Nat → A → C → Bool) (c : Config R S ε β) (label : Nat × C) :
    Option (Config R S ε β) :=
  match c.programs label.1 with
  | .ret _ => none
  | .fail _ => none
  | .act action rest =>
    if guard c.view label.1 action label.2 then
      (M.exec label.1 action label.2 c.state).map fun out =>
        c.advance label.1 (rest out.1) out.2 ⟨label.1, action, out.1⟩
    else none

/-- A whole schedule, or `none` when one of its steps cannot happen. -/
def run (guard : View R S → Nat → A → C → Bool) :
    Config R S ε β → List (Nat × C) → Option (Config R S ε β)
  | c, [] => some c
  | c, label :: labels => (M.step guard c label).bind fun c' => run guard c' labels

variable {M} {guard guard' : Guard R S C} {c₀ c₁ c₂ c c' : Config R S ε β} {e : Event R}

theorem Step.trace_eq (h : M.Step guard e c c') : c'.trace = c.trace ++ [e] := by
  obtain ⟨rest, choice, state, -, -, -, rfl⟩ := h
  rfl

theorem Reaches.trans (h₁ : M.Reaches guard c₀ c₁) (h₂ : M.Reaches guard c₁ c₂) :
    M.Reaches guard c₀ c₂ := by
  induction h₂ with
  | refl => exact h₁
  | step _ hstep ih => exact .step ih hstep

theorem step_sound {guardB : View R S → Nat → A → C → Bool}
    (hguard : ∀ v i action choice, guardB v i action choice = true → guard v i action choice)
    {label : Nat × C} (h : M.step guardB c label = some c') :
    ∃ e, e.thread = label.1 ∧ M.Step guard e c c' := by
  unfold step at h
  cases hp : c.programs label.1 with
  | ret value => simp [hp] at h
  | fail error => simp [hp] at h
  | act action rest =>
    simp only [hp] at h
    split at h
    · rename_i hg
      obtain ⟨⟨reply, state⟩, hexec, rfl⟩ := Option.map_eq_some_iff.mp h
      exact ⟨⟨label.1, action, reply⟩, rfl, rest, label.2, state, hp, hguard _ _ _ _ hg, hexec,
        rfl⟩
    · cases h

/-- A schedule that runs to its end is a run. -/
theorem reaches_of_run {guardB : View R S → Nat → A → C → Bool}
    (hguard : ∀ v i action choice, guardB v i action choice = true → guard v i action choice)
    {labels : List (Nat × C)} (h : M.run guardB c labels = some c') :
    M.Reaches guard c c' := by
  induction labels generalizing c with
  | nil =>
    cases h
    exact .refl
  | cons label labels ih =>
    obtain ⟨mid, hstep, hrest⟩ := Option.bind_eq_some_iff.mp h
    obtain ⟨e, -, hstep'⟩ := step_sound hguard hstep
    exact (Reaches.refl.step hstep').trans (ih hrest)

/-- A schedule that can be executed under a guard, and what it leads to. -/
theorem exists_of_guarded_run {guardB : View R S → Nat → A → C → Bool}
    (hguard : ∀ v i action choice, guardB v i action choice = true → guard v i action choice)
    {α : Type} {labels : List (Nat × C)} {value : α} {f : Config R S ε β → α}
    (h : (M.run guardB c labels).map f = some value) :
    ∃ c', M.Reaches guard c c' ∧ f c' = value := by
  obtain ⟨c', hc', hvalue⟩ := Option.map_eq_some_iff.mp h
  exact ⟨c', reaches_of_run hguard hc', hvalue⟩

/-- A schedule that can be executed, and what comes after it. -/
theorem exists_of_bound_run {guardB : View R S → Nat → A → C → Bool}
    (hguard : ∀ v i action choice, guardB v i action choice = true → guard v i action choice)
    {α : Type} {labels : List (Nat × C)} {value : α} {f : Config R S ε β → Option α}
    (h : (M.run guardB c labels).bind f = some value) :
    ∃ c', M.Reaches guard c c' ∧ f c' = some value := by
  obtain ⟨c', hrun, hvalue⟩ := Option.bind_eq_some_iff.mp h
  exact ⟨c', reaches_of_run hguard hrun, hvalue⟩

/-- One schedule after another, which may begin in a configuration made from the last one. -/
theorem exists_of_two_runs {guardB guardB' : View R S → Nat → A → C → Bool}
    (hguard : ∀ v i action choice, guardB v i action choice = true → guard v i action choice)
    (hguard' : ∀ v i action choice, guardB' v i action choice = true → guard' v i action choice)
    {α : Type} {labels labels' : List (Nat × C)} {value : α}
    (next : Config R S ε β → Config R S ε β) {f : Config R S ε β → Config R S ε β → α}
    (h : ((M.run guardB c labels).bind fun c' =>
      (M.run guardB' (next c') labels').map (f c')) = some value) :
    ∃ c₁ c₂, M.Reaches guard c c₁ ∧ M.Reaches guard' (next c₁) c₂ ∧ f c₁ c₂ = value := by
  obtain ⟨c₁, hrun₁, hrest⟩ := exists_of_bound_run hguard h
  obtain ⟨c₂, hrun₂, hvalue⟩ := exists_of_guarded_run hguard' hrest
  exact ⟨c₁, c₂, hrun₁, hrun₂, hvalue⟩

/-- A schedule that can be executed, and what it leads to. -/
theorem exists_of_run {α : Type} {labels : List (Nat × C)} {value : α} {f : Config R S ε β → α}
    (h : (M.run (fun _ _ _ _ => true) c labels).map f = some value) :
    ∃ c', M.Reaches (fun _ _ _ _ => True) c c' ∧ f c' = value :=
  exists_of_guarded_run (fun _ _ _ _ _ => trivial) h

/-- The same with one more step, and what holds before and after it. -/
theorem exists_step_of_run {α : Type} {labels : List (Nat × C)} {label : Nat × C} {value : α}
    {f : Config R S ε β → Config R S ε β → α}
    (h : ((M.run (fun _ _ _ _ => true) c labels).bind fun c' =>
      (M.step (fun _ _ _ _ => true) c' label).map (f c')) = some value) :
    ∃ c₁ c₂ e, M.Reaches (fun _ _ _ _ => True) c c₁ ∧ e.thread = label.1 ∧
      M.Step (fun _ _ _ _ => True) e c₁ c₂ ∧ f c₁ c₂ = value := by
  obtain ⟨c₁, hc₁, hrest⟩ := Option.bind_eq_some_iff.mp h
  obtain ⟨c₂, hc₂, hvalue⟩ := Option.map_eq_some_iff.mp hrest
  obtain ⟨e, hthread, hstep⟩ := step_sound (fun _ _ _ _ _ => trivial) hc₂
  exact ⟨c₁, c₂, e, reaches_of_run (fun _ _ _ _ _ => trivial) hc₁, hthread, hstep, hvalue⟩

/-! ## Looking back in a run

The trace of a run tells its whole past: at every event of the trace there was a step, from a
configuration that the run has passed through.
-/

/-- The trace only grows. -/
theorem Reaches.trace_prefix (h : M.Reaches guard c₀ c) :
    ∃ tail, c.trace = c₀.trace ++ tail := by
  induction h with
  | refl => exact ⟨[], by simp⟩
  | step _ hstep ih =>
    obtain ⟨tail, htail⟩ := ih
    exact ⟨tail ++ [_], by rw [hstep.trace_eq, htail, List.append_assoc]⟩

/-- The event of a step stands in every later trace where the step happened. -/
theorem Step.trace_split (hstep : M.Step guard e c c₁) (hrest : M.Reaches guard c₁ c₂) :
    ∃ after, c₂.trace = c.trace ++ e :: after ∧ c₂.trace = c₁.trace ++ after := by
  obtain ⟨after, hafter⟩ := hrest.trace_prefix
  refine ⟨after, ?_, hafter⟩
  rw [hafter, hstep.trace_eq, List.append_assoc]
  rfl

/-- The step at which an event of the trace happened. -/
theorem Reaches.split (h : M.Reaches guard c₀ c) {before after : List (Event R)}
    (htrace : c.trace = c₀.trace ++ before ++ e :: after) :
    ∃ c₁ c₂, M.Reaches guard c₀ c₁ ∧ c₁.trace = c₀.trace ++ before ∧ M.Step guard e c₁ c₂ ∧
      M.Reaches guard c₂ c ∧ c.trace = c₂.trace ++ after := by
  induction h generalizing after with
  | refl =>
    have hlen := congrArg List.length htrace
    simp at hlen
  | @step c c' e' hreach hstep ih =>
    have htr := hstep.trace_eq
    rcases List.eq_nil_or_concat' after with rfl | ⟨init, last, rfl⟩
    · rw [htrace] at htr
      obtain ⟨hbefore, he⟩ := List.append_inj' htr rfl
      obtain rfl : e = e' := by simpa using he
      exact ⟨c, c', hreach, hbefore.symm, hstep, .refl, by simp⟩
    · rw [htrace, ← List.cons_append, ← List.append_assoc] at htr
      obtain ⟨hinit, hlast⟩ := List.append_inj' htr rfl
      obtain rfl : last = e' := by simpa using hlast
      obtain ⟨c₁, c₂, h₁, htr₁, hs, h₂, htr₂⟩ := ih hinit.symm
      refine ⟨c₁, c₂, h₁, htr₁, hs, h₂.step hstep, ?_⟩
      rw [hstep.trace_eq, htr₂, List.append_assoc]

/-- Induction over a part of a run, in which every step adds the next of the events `events`. -/
theorem Reaches.interval {I : Config R S ε β → Prop} (h : M.Reaches guard c₁ c₂)
    {events : List (Event R)} (htrace : c₂.trace = c₁.trace ++ events) (hbase : I c₁)
    (hstep : ∀ c e c' before after, events = before ++ e :: after →
      c.trace = c₁.trace ++ before → M.Reaches guard c₁ c → M.Step guard e c c' → I c → I c') :
    I c₂ := by
  induction h generalizing events with
  | refl => exact hbase
  | @step c c' e hreach hs ih =>
    obtain ⟨tail, htail⟩ := hreach.trace_prefix
    have hevents : events = tail ++ [e] := by
      have htr := hs.trace_eq
      rw [htrace, htail, List.append_assoc] at htr
      exact List.append_cancel_left htr
    refine hstep c e c' tail [] hevents htail hreach hs (ih htail ?_)
    intro d f d' before after hsplit
    exact hstep d f d' before (after ++ [e]) (by rw [hevents, hsplit]; simp)

end Machine

end Interleaving
