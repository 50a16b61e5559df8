import Mathlib.Algebra.Order.Ring.Int

/-!
# Signed arithmetic that can go wrong

The product of two signed integers has no meaning when it is out of range, and a division by zero
has none.
-/

namespace Wave300.Lib.Checked

inductive Fault where
  | overflow
  | divisionByZero
  deriving DecidableEq, Repr

/-- A signed integer of `w` bits can hold it. -/
def Fits (w : Nat) (n : Int) : Prop := -2 ^ (w - 1) ≤ n ∧ n < 2 ^ (w - 1)

instance (w : Nat) (n : Int) : Decidable (Fits w n) := inferInstanceAs (Decidable (_ ∧ _))

def mul (w : Nat) (a b : Int) : Except Fault Int :=
  if Fits w (a * b) then .ok (a * b) else .error .overflow

/-- The quotient is rounded toward zero. -/
def div (a b : Int) : Except Fault Int :=
  if b = 0 then .error .divisionByZero else .ok (a.tdiv b)

variable {w : Nat} {a b r : Int}

theorem mul_of_fits (h : Fits w (a * b)) : mul w a b = .ok (a * b) := if_pos h

theorem div_of_ne_zero (h : b ≠ 0) : div a b = .ok (a.tdiv b) := if_neg h

theorem mul_ok (h : mul w a b = .ok r) : r = a * b := by
  rw [mul] at h
  split at h
  · exact (Except.ok.inj h).symm
  · cases h

theorem div_ok (h : div a b = .ok r) : r = a.tdiv b := by
  rw [div] at h
  split at h
  · cases h
  · exact (Except.ok.inj h).symm

theorem ok_bind {ε α β : Type} (a : α) (f : α → Except ε β) : (.ok a >>= f) = f a := rfl

theorem bind_ok {ε α β : Type} {x : Except ε α} {f : α → Except ε β} {r : β}
    (h : x >>= f = .ok r) : ∃ a, x = .ok a ∧ f a = .ok r := by
  cases x with
  | error e => cases h
  | ok a => exact ⟨a, rfl, h⟩

end Wave300.Lib.Checked
