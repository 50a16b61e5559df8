import Mathlib.Logic.Function.Basic

/-!
# Maps in two columns

A map whose keys and values are two arrays with a common index. One key means that a place is free.
-/

namespace Wave300.Lib

section Columns
variable {ι κ β : Type*} {keys : ι → κ} {vals : ι → β} {free k k' : κ} {v v' : β} {i : ι}

/-- No key is there twice, but the free one. -/
def Distinct (free : κ) (keys : ι → κ) : Prop :=
  ∀ i j, keys i ≠ free → keys i = keys j → i = j

/-- A key is there with a value. -/
def Maps (keys : ι → κ) (vals : ι → β) (k : κ) (v : β) : Prop := ∃ i, keys i = k ∧ vals i = v

theorem Distinct.unique (h : Distinct free keys) (some : k ≠ free) (here : Maps keys vals k v)
    (there : Maps keys vals k v') : v = v' := by
  obtain ⟨i, rfl, rfl⟩ := here
  obtain ⟨j, same, rfl⟩ := there
  rw [h i j some same.symm]

variable [DecidableEq ι]

theorem Distinct.clear (h : Distinct free keys) (i : ι) :
    Distinct free (Function.update keys i free) := by
  intro j j' some same
  have other : j ≠ i := by
    rintro rfl
    exact some (Function.update_self ..)
  rw [Function.update_of_ne other] at some same
  have other' : j' ≠ i := by
    rintro rfl
    rw [Function.update_self] at same
    exact some same
  rw [Function.update_of_ne other'] at same
  exact h j j' some same

theorem Distinct.fill (h : Distinct free keys) (new : ∀ j, keys j ≠ k) (i : ι) :
    Distinct free (Function.update keys i k) := by
  intro j j' some same
  by_cases here : j = i
  · by_cases here' : j' = i
    · rw [here, here']
    · rw [here, Function.update_self, Function.update_of_ne here'] at same
      exact absurd same.symm (new j')
  · rw [Function.update_of_ne here] at some same
    by_cases here' : j' = i
    · rw [here', Function.update_self] at same
      exact absurd same (new j)
    · rw [Function.update_of_ne here'] at same
      exact h j j' some same

theorem maps_update_self (keys : ι → κ) (vals : ι → β) (i : ι) (k : κ) (v : β) :
    Maps (Function.update keys i k) (Function.update vals i v) k v :=
  ⟨i, Function.update_self .., Function.update_self ..⟩

/-- A place is written that had another key and gets another. -/
theorem maps_update_other (old : keys i ≠ k') (new : k ≠ k') (v : β) :
    Maps (Function.update keys i k) (Function.update vals i v) k' v' ↔ Maps keys vals k' v' := by
  constructor
  · rintro ⟨j, key, value⟩
    have other : j ≠ i := by
      rintro rfl
      rw [Function.update_self] at key
      exact new key
    rw [Function.update_of_ne other] at key value
    exact ⟨j, key, value⟩
  · rintro ⟨j, key, value⟩
    have other : j ≠ i := by
      rintro rfl
      exact old key
    refine ⟨j, ?_, ?_⟩
    · rwa [Function.update_of_ne other]
    · rwa [Function.update_of_ne other]

end Columns

end Wave300.Lib
