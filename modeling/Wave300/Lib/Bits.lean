import Mathlib.Data.Nat.Notation
import Mathlib.Tactic.ByContra

/-!
# Masks of bits

A bit vector as a set of positions, of which one is set or cleared at a time.
-/

namespace Wave300.Lib

variable {w : ℕ} {i j : ℕ}

theorem getLsbD_clear (mask : BitVec w) (i j : ℕ) :
    (mask &&& ~~~(BitVec.twoPow w i)).getLsbD j = (mask.getLsbD j && !decide (i = j)) := by
  by_cases inside : j < w
  · rw [BitVec.getLsbD_and, BitVec.getLsbD_not, BitVec.getLsbD_twoPow]
    by_cases same : i = j
    · subst same
      simp [inside]
    · simp [inside, same]
  · simp [BitVec.getLsbD_of_ge mask j (Nat.le_of_not_lt inside)]

theorem getLsbD_set (mask : BitVec w) (inside : i < w) (j : ℕ) :
    (mask ||| BitVec.twoPow w i).getLsbD j = (mask.getLsbD j || decide (i = j)) := by
  rw [BitVec.getLsbD_or, BitVec.getLsbD_twoPow, decide_eq_true inside, Bool.true_and]

theorem twoPow_inj (inside : i < w) (same : BitVec.twoPow w i = BitVec.twoPow w j) : i = j := by
  have bit := congrArg (BitVec.getLsbD · i) same
  simp only [BitVec.getLsbD_twoPow, inside, decide_true, Bool.true_and] at bit
  exact (of_decide_eq_true (Bool.and_eq_true_iff.1 bit.symm).2).symm

theorem ne_zero_iff_getLsbD {mask : BitVec w} : mask ≠ 0#w ↔ ∃ i, mask.getLsbD i = true := by
  constructor
  · intro nonzero
    by_contra clear
    apply nonzero
    apply BitVec.eq_of_getLsbD_eq
    intro i _
    rw [BitVec.getLsbD_zero]
    exact Bool.eq_false_iff.2 fun set => clear ⟨i, set⟩
  · rintro ⟨i, set⟩ rfl
    rw [BitVec.getLsbD_zero] at set
    cases set

end Wave300.Lib
