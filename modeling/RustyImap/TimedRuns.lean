import Mathlib.Data.Nat.Basic

/-!
# Computations that take time

A computation over fixed answers of its environment is its outcome together with
the time it has taken.  Sequencing adds the times up to the first failure, and a
deadline cuts what takes longer.

`Within` is the judgement that a computation takes at most a given time; there is
one rule for each way to build a computation.
-/

namespace RustyImap.TimedRuns

/-- What a computation ends with, and after how long. -/
structure Timed (ε α : Type) where
  outcome : Except ε α
  elapsed : Nat
deriving DecidableEq

namespace Timed

variable {ε ε' α β : Type}

protected def pure (a : α) : Timed ε α := ⟨.ok a, 0⟩

/-- A failure ends the sequence, with the time up to it. -/
protected def bind (x : Timed ε α) (f : α → Timed ε β) : Timed ε β :=
  match x.outcome with
  | .error e => ⟨.error e, x.elapsed⟩
  | .ok a => ⟨(f a).outcome, x.elapsed + (f a).elapsed⟩

instance : Monad (Timed ε) where
  pure := Timed.pure
  bind := Timed.bind

/-- Work that takes no time. -/
def lift (result : Except ε α) : Timed ε α := ⟨result, 0⟩

instance : MonadLift (Except ε) (Timed ε) := ⟨lift⟩

def mapError (f : ε → ε') (x : Timed ε α) : Timed ε' α := ⟨x.outcome.mapError f, x.elapsed⟩

/-- The outcome as a value: what follows runs either way. -/
def attempted (x : Timed ε α) : Timed ε' (Except ε α) := ⟨.ok x.outcome, x.elapsed⟩

/-- A computation under a deadline; one that ends at the deadline has made it. -/
def withTimeout (late : ε) (deadline : Nat) (x : Timed ε α) : Timed ε α :=
  if x.elapsed ≤ deadline then x else ⟨.error late, deadline⟩

end Timed

/-! ## The judgement -/

section Rules

variable {ε ε' α β : Type}

def Within (x : Timed ε α) (budget : Nat) : Prop := x.elapsed ≤ budget

theorem within_pure (a : α) (budget : Nat) : Within (pure a : Timed ε α) budget :=
  Nat.zero_le budget

theorem within_lift (result : Except ε α) (budget : Nat) : Within (Timed.lift result) budget :=
  Nat.zero_le budget

theorem Within.mono {x : Timed ε α} {small large : Nat} (h : Within x small)
    (hle : small ≤ large) : Within x large :=
  Nat.le_trans h hle

theorem within_withTimeout (late : ε) (deadline : Nat) (x : Timed ε α) :
    Within (x.withTimeout late deadline) deadline := by
  unfold Within Timed.withTimeout
  split
  · assumption
  · exact Nat.le_refl deadline

theorem Within.mapError {x : Timed ε α} {budget : Nat} (h : Within x budget) (f : ε → ε') :
    Within (x.mapError f) budget := h

theorem Within.attempted {x : Timed ε α} {budget : Nat} (h : Within x budget) :
    Within (x.attempted : Timed ε' (Except ε α)) budget := h

/-- What follows has the budget that is left when the first part has ended. -/
theorem within_bind_left {x : Timed ε α} {f : α → Timed ε β} {budget : Nat}
    (hx : Within x budget)
    (hf : ∀ a, x.outcome = .ok a → Within (f a) (budget - x.elapsed)) :
    Within (x >>= f) budget := by
  change (Timed.bind x f).elapsed ≤ budget
  unfold Timed.bind
  rcases hout : x.outcome with e | a
  · exact hx
  · have hrest : (f a).elapsed ≤ budget - x.elapsed := hf a hout
    have hfirst : x.elapsed ≤ budget := hx
    change x.elapsed + (f a).elapsed ≤ budget
    omega

/-- The budgets of the two parts, inside a budget for the whole. -/
theorem within_bind {x : Timed ε α} {f : α → Timed ε β} {first total : Nat} (second : Nat)
    (hx : Within x first) (hf : ∀ a, x.outcome = .ok a → Within (f a) second)
    (hle : first + second ≤ total) : Within (x >>= f) total := by
  have hfirst : x.elapsed ≤ first := hx
  apply within_bind_left (hx.mono (by omega))
  intro a ha
  exact (hf a ha).mono (by omega)

/-- Before what takes no time the budget is whole. -/
theorem within_lift_bind {result : Except ε α} {f : α → Timed ε β} {budget : Nat}
    (hf : ∀ a, result = .ok a → Within (f a) budget) : Within (Timed.lift result >>= f) budget :=
  within_bind budget (within_lift result 0) hf (Nat.le_of_eq (Nat.zero_add budget))

theorem Within.bind_free {x : Timed ε α} {f : α → Timed ε β} {budget : Nat} (hx : Within x budget)
    (hf : ∀ a, x.outcome = .ok a → Within (f a) 0) : Within (x >>= f) budget :=
  within_bind 0 hx hf (Nat.le_of_eq (Nat.add_zero budget))

/-- A deadline that is long enough changes nothing. -/
theorem withTimeout_of_within {late : ε} {deadline : Nat} {x : Timed ε α}
    (h : Within x deadline) : x.withTimeout late deadline = x := if_pos h

end Rules

end RustyImap.TimedRuns
