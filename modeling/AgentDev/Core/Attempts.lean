import AgentDev.Core.Lifecycle

/-!
# Attempts

A request that is served alone, step by step: as long as it has only looked, the records,
worktrees and branches are as before (`Untouched`), and it always comes to its end when its locks
are free, whatever fails.
-/

namespace AgentDev

open Interleaving

abbrev WorldView := View Action.Reply World

theorem anyStep_tolerant : Tolerant anyStep := fun _ _ _ _ _ => trivial

theorem only_thread {i : Nat} (v : WorldView) (j : Nat) (action : Action) (choice : Choice)
    (h : decide (j = i) = true) : (anyStep.only i) v j action choice :=
  ⟨of_decide_eq_true h, trivial⟩

section

variable {guard : Guard Action.Reply World Choice} {i : Nat} {v v' : WorldView} {action : Action}
  {reply : action.Reply}

theorem alone_trace (h : machine.alone guard i v action reply v') :
    v'.trace = v.trace ++ [⟨i, action, reply⟩] := by
  obtain ⟨choice, state, -, -, rfl⟩ := h
  rfl

theorem alone_changes (h : machine.alone guard i v action reply v') :
    v'.state.ledger = v.state.ledger.after action reply := by
  obtain ⟨choice, state, -, hexec, rfl⟩ := h
  exact exec_ledger hexec

/-- A condition on events that the last event meets. -/
theorem forall_snoc {p : Event Action.Reply → Prop} {trace : History} {e : Event Action.Reply}
    (h : ∀ e ∈ trace, p e) (he : p e) : ∀ e' ∈ trace ++ [e], p e' := by
  intro e' he'
  rcases List.mem_append.mp he' with he' | he'
  · exact h e' he'
  · rw [List.mem_singleton.mp he']
    exact he

theorem enabled_unlocking (hguard : Tolerant guard) (haction : action.acquires = none) :
    machine.Enabled guard i v action := by
  refine enabled hguard fun lock shared heq => ?_
  rw [heq] at haction
  cases haction

theorem enabled_acquire (hguard : Tolerant guard) {lock : Name} {shared : Bool}
    (hfree : v.state.locks.grants lock shared = true) :
    machine.Enabled guard i v (.acquire lock shared) := by
  refine enabled hguard fun lock' shared' heq => ?_
  cases heq
  exact hfree

theorem Action.internal_of_quiet (h : action.quiet) : fileLocks.Internal action := by
  cases action with
  | acquire => exact h.elim
  | release => exact h.elim
  | _ => exact ⟨rfl, rfl⟩

end

/-! ## Before the first change -/

/-- The ledger is `L`, the locks are `locks`, and no step has been `bad`. -/
structure Untouched (bad : Event Action.Reply → Bool) (L : Ledger) (locks : LockTable Name)
    (v : WorldView) : Prop where
  ledger : v.state.ledger = L
  locks : v.state.locks = locks
  trace : ∀ e ∈ v.trace, bad e = false

/-- The bad steps are not among those that only look. -/
def Overlooks (bad : Event Action.Reply → Bool) : Prop :=
  ∀ i action reply, Action.silent action → bad ⟨i, action, reply⟩ = false

namespace Untouched

variable {bad : Event Action.Reply → Bool} {L : Ledger} {locks : LockTable Name}
  {guard : Guard Action.Reply World Choice} {i : Nat} {v v' : WorldView}

/-- A step that concerns no lock. -/
theorem step {action : Action} {reply : action.Reply} (h : Untouched bad L locks v)
    (halone : machine.alone guard i v action reply v') (hinternal : fileLocks.Internal action)
    (hgood : bad ⟨i, action, reply⟩ = false) :
    Untouched bad (L.after action reply) locks v' := by
  refine ⟨?_, ?_, ?_⟩
  · rw [alone_changes halone, h.ledger]
  · obtain ⟨choice, state, -, hexec, rfl⟩ := halone
    have hlocks : state.locks = v.state.locks :=
      fileLocks.exec_other hinternal.1 hinternal.2 hexec
    exact hlocks.trans h.locks
  · rw [alone_trace halone]
    exact forall_snoc h.trace hgood

/-- A step that only looks. -/
theorem look {action : Action} {reply : action.Reply} (h : Untouched bad L locks v)
    (halone : machine.alone guard i v action reply v') (hbad : Overlooks bad)
    (hquiet : action.quiet) : Untouched bad L locks v' := by
  have hsilent := Action.silent_of_quiet hquiet
  have hstep := h.step halone (Action.internal_of_quiet hquiet) (hbad i action reply hsilent)
  rw [Ledger.after_silent hsilent] at hstep
  exact hstep

theorem acquire {lock : Name} {shared : Bool} (h : Untouched bad L locks v) (hbad : Overlooks bad)
    (halone : machine.alone guard i v (.acquire lock shared) () v') :
    Untouched bad L (⟨i, lock, shared⟩ :: locks) v' := by
  refine ⟨(alone_changes halone).trans h.ledger, ?_, ?_⟩
  · obtain ⟨choice, state, -, hexec, rfl⟩ := halone
    obtain ⟨-, hlocks⟩ := LockTable.acquire_eq_some_iff.mp (fileLocks.exec_acquires rfl hexec)
    exact hlocks.trans (congrArg _ h.locks)
  · rw [alone_trace halone]
    exact forall_snoc h.trace (hbad i _ _ trivial)

end Untouched

/-- What a part of a request does, when every step that it comes to can happen. -/
abbrev Does {α : Type} (guard : Guard Action.Reply World Choice) (Q : α → WorldView → Prop)
    (E : WorldView → Prop) (v : WorldView) (body : Op α) : Prop :=
  Spec (machine.alone guard 0) (machine.Enabled guard 0) Q (fun _ => E) v body

section

variable {bad : Event Action.Reply → Bool} {L : Ledger} {locks : LockTable Name}
  {guard : Guard Action.Reply World Choice} {v : WorldView} {α β : Type}
  {Q : β → WorldView → Prop} {E : WorldView → Prop}

/-- A part that only looks. -/
theorem untouched_bind {first : Op α} {next : α → Op β} (h : Untouched bad L locks v)
    (hguard : Tolerant guard) (hbad : Overlooks bad) (hfirst : first.Only Action.quiet)
    (hfail : ∀ v', Untouched bad L locks v' → E v')
    (hnext : ∀ value v', Untouched bad L locks v' → Does guard Q E v' (next value)) :
    Does guard Q E v (first >>= next) := by
  have hkept : Does guard (fun _ => Untouched bad L locks) (Untouched bad L locks) v first := by
    refine Spec.of_only hfirst (fun v' action _ hquiet => ?_) ?_ h
    · exact enabled_unlocking hguard (Action.internal_of_quiet hquiet).1
    · intro v₁ action reply v₂ h₁ hquiet halone
      exact h₁.look halone hbad hquiet
  exact (hkept.mono (fun _ _ h' => h') fun _ v' h' => hfail v' h').bind hnext

end

end AgentDev
