import AgentDev.Interleaving.Sequential

/-!
# Loops

`rounds stuck body n` is a loop without bound, cut off after `n` rounds: `stuck` stands for everything
that comes later. When `stuck` is an action that no machine performs, the runs of the loop with
all bounds are the finite runs of the loop itself, and a loop that is cut off has not ended.

The rule for loops asks for what every round keeps.
-/

namespace Interleaving

variable {A : Type} {R : A → Type} {S C X ε α β : Type}

namespace Program

/-- `while True`, for a body that may end the loop with a value. -/
def rounds (stuck : Program R ε α) (body : Program R ε (Option α)) : Nat → Program R ε α
  | 0 => stuck
  | n + 1 => body.bind fun
    | some value => ret value
    | none => rounds stuck body n

end Program

/-- After a round, the invariant holds or the loop has ended with a value. -/
def Round (I : X → Prop) (Q : α → X → Prop) : Option α → X → Prop
  | none, x => I x
  | some value, x => Q value x

/-- The rule for loops. -/
theorem Spec.rounds {effect : Effects R X} {allowed : X → A → Prop} {Q : α → X → Prop}
    {E : ε → X → Prop} {I : X → Prop} {stuck : Program R ε α} {body : Program R ε (Option α)}
    (hstuck : ∀ x, I x → Spec effect allowed Q E x stuck)
    (hbody : ∀ x, I x → Spec effect allowed (Round I Q) E x body) (n : Nat) {x : X} (hx : I x) :
    Spec effect allowed Q E x (Program.rounds stuck body n) := by
  induction n generalizing x with
  | zero => exact hstuck x hx
  | succ n ih =>
    refine (hbody x hx).bind fun result x' hround => ?_
    cases result with
    | some value => exact hround
    | none => exact ih hround

end Interleaving
