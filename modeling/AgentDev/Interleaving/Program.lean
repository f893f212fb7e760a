import Mathlib.Logic.Basic

/-!
# Sequential programs over atomic actions

A program of one thread is a tree: it has ended with a value, it has raised an exception, or
it performs one atomic action `a : A` and goes on with the reply of type `R a`. What the
actions do to a shared state is the matter of a `Machine`
(`AgentDev/Interleaving/Machine.lean`); here they are only names, so a program is written
once and run alone, interleaved with others, or analysed without any state.

`ensuring` is `try ... finally`, `handling` is `try ... except`: both are structural in
the guarded program.
-/

namespace Interleaving

variable {A : Type} {R : A → Type} {ε α β γ : Type}

/-- A program over the actions `A` with replies `R`, exceptions `ε` and result `α`. -/
inductive Program (R : A → Type) (ε α : Type) : Type
  | ret (value : α)
  | fail (error : ε)
  | act (action : A) (rest : R action → Program R ε α)

namespace Program

def bind : Program R ε α → (α → Program R ε β) → Program R ε β
  | ret value, next => next value
  | fail error, _ => fail error
  | act action rest, next => act action fun reply => (rest reply).bind next

instance : Monad (Program R ε) where
  pure := ret
  bind := bind

/-- The program that performs one action and returns its reply. -/
def perform (action : A) : Program R ε (R action) := act action ret

/-- `try body finally final`. -/
def ensuring : Program R ε α → Program R ε Unit → Program R ε α
  | ret value, final => final.bind fun _ => ret value
  | fail error, final => final.bind fun _ => fail error
  | act action rest, final => act action fun reply => (rest reply).ensuring final

/-- `try body except handler`. -/
def handling : Program R ε α → (ε → Program R ε α) → Program R ε α
  | ret value, _ => ret value
  | fail error, handler => handler error
  | act action rest, handler => act action fun reply => (rest reply).handling handler

theorem bind_assoc (body : Program R ε α) (next : α → Program R ε β) (last : β → Program R ε γ) :
    (body.bind next).bind last = body.bind fun value => (next value).bind last := by
  induction body with
  | ret value => rfl
  | fail error => rfl
  | act action rest ih => exact congrArg (act action) (funext ih)

theorem bind_ret (body : Program R ε α) : body.bind ret = body := by
  induction body with
  | ret value => rfl
  | fail error => rfl
  | act action rest ih => exact congrArg (act action) (funext ih)

/-! ## Programs with certain actions only -/

/-- The program performs no action without `p`, whatever the replies are. -/
def Only (p : A → Prop) : Program R ε α → Prop
  | ret _ => True
  | fail _ => True
  | act action rest => p action ∧ ∀ reply, (rest reply).Only p

section

variable {p q : A → Prop}

theorem only_mono {body : Program R ε α} (hbody : body.Only p) (h : ∀ action, p action → q action) :
    body.Only q := by
  induction body with
  | ret value => trivial
  | fail error => trivial
  | act action rest ih => exact ⟨h action hbody.1, fun reply => ih reply (hbody.2 reply)⟩

theorem only_bind {body : Program R ε α} {next : α → Program R ε β} (hbody : body.Only p)
    (hnext : ∀ value, (next value).Only p) : (body.bind next).Only p := by
  induction body with
  | ret value => exact hnext value
  | fail error => trivial
  | act action rest ih => exact ⟨hbody.1, fun reply => ih reply (hbody.2 reply)⟩

theorem only_ensuring {body : Program R ε α} {final : Program R ε Unit} (hbody : body.Only p)
    (hfinal : final.Only p) : (body.ensuring final).Only p := by
  induction body with
  | ret value => exact only_bind hfinal fun _ => trivial
  | fail error => exact only_bind hfinal fun _ => trivial
  | act action rest ih => exact ⟨hbody.1, fun reply => ih reply (hbody.2 reply)⟩

end

/-! ## Programs of few actions -/

/-- The program performs at most so many actions, and all of them have `p`. -/
def AtMost (p : A → Prop) : Program R ε α → Nat → Prop
  | ret _, _ => True
  | fail _, _ => True
  | act _ _, 0 => False
  | act action rest, k + 1 => p action ∧ ∀ reply, (rest reply).AtMost p k

section

variable {p : A → Prop} {body : Program R ε α} {k m : Nat}

theorem AtMost.only (h : body.AtMost p k) : body.Only p := by
  induction body generalizing k with
  | ret value => trivial
  | fail error => trivial
  | act action rest ih =>
    cases k with
    | zero => exact h.elim
    | succ k => exact ⟨h.1, fun reply => ih reply (h.2 reply)⟩

theorem AtMost.mono (h : body.AtMost p k) (hk : k ≤ m) : body.AtMost p m := by
  induction body generalizing k m with
  | ret value => trivial
  | fail error => trivial
  | act action rest ih =>
    cases k with
    | zero => exact h.elim
    | succ k =>
      obtain ⟨m, rfl⟩ := Nat.exists_eq_add_of_le' (show 1 ≤ m by omega)
      exact ⟨h.1, fun reply => ih reply (h.2 reply) (by omega)⟩

theorem AtMost.any (h : body.AtMost p k) : body.AtMost (fun _ => True) k := by
  induction body generalizing k with
  | ret value => trivial
  | fail error => trivial
  | act action rest ih =>
    cases k with
    | zero => exact h.elim
    | succ k => exact ⟨trivial, fun reply => ih reply (h.2 reply)⟩

theorem AtMost.bind {next : α → Program R ε β} (h : body.AtMost p k)
    (hnext : ∀ value, (next value).AtMost p m) : (body.bind next).AtMost p (k + m) := by
  induction body generalizing k with
  | ret value => exact (hnext value).mono (Nat.le_add_left m k)
  | fail error => trivial
  | act action rest ih =>
    cases k with
    | zero => exact h.elim
    | succ k =>
      rw [Nat.succ_add]
      exact ⟨h.1, fun reply => ih reply (h.2 reply)⟩

end

/-! ## Actions with one outcome -/

section

variable {S : Type}

/-- How the program ends when its actions are functions of a state. -/
def evaluate (perform : (action : A) → S → R action × S) : Program R ε α → S → Except ε α × S
  | ret value, s => (.ok value, s)
  | fail error, s => (.error error, s)
  | act action rest, s => (rest (perform action s).1).evaluate perform (perform action s).2

variable {perform : (action : A) → S → R action × S} {s s' : S}

theorem evaluate_bind_ok {body : Program R ε α} {value : α}
    (h : body.evaluate perform s = (.ok value, s')) (next : α → Program R ε β) :
    (body.bind next).evaluate perform s = (next value).evaluate perform s' := by
  induction body generalizing s with
  | ret value =>
    cases h
    rfl
  | fail error => cases h
  | act action rest ih => exact ih _ h

theorem evaluate_bind_error {body : Program R ε α} {error : ε}
    (h : body.evaluate perform s = (.error error, s')) (next : α → Program R ε β) :
    (body.bind next).evaluate perform s = (.error error, s') := by
  induction body generalizing s with
  | ret value => cases h
  | fail error =>
    cases h
    rfl
  | act action rest ih => exact ih _ h

/-- What the actions of a program keep holds at its end. -/
theorem evaluate_kept {p : A → Prop} {I : S → Prop} {body : Program R ε α} (hbody : body.Only p)
    (hkept : ∀ action s, p action → I s → I (perform action s).2) (hs : I s) :
    I (body.evaluate perform s).2 := by
  induction body generalizing s with
  | ret value => exact hs
  | fail error => exact hs
  | act action rest ih => exact ih _ (hbody.2 _) (hkept action s hbody.1 hs)

end

/-- The value of a program that has ended normally. -/
def value? : Program R ε α → Option α
  | ret value => some value
  | _ => none

theorem value?_eq_some_iff {body : Program R ε α} {value : α} :
    body.value? = some value ↔ body = ret value := by
  cases body <;> simp [value?]

/-- The exception of a program that has ended with one. -/
def error? : Program R ε α → Option ε
  | fail error => some error
  | _ => none

theorem error?_eq_some_iff {body : Program R ε α} {error : ε} :
    body.error? = some error ↔ body = fail error := by
  cases body <;> simp [error?]

end Program

end Interleaving
