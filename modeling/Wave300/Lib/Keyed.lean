import Mathlib.Data.List.Nodup
import Mathlib.Logic.Function.Basic

/-!
# Lists of records found by a key

Records in a list that are looked up by a key, written back after a change and taken out again.
The key of a record never changes.
-/

namespace Wave300.Lib

section Keyed
variable {R κ : Type*} [DecidableEq κ] (key : R → κ)

def findKey (k : κ) (l : List R) : Option R := l.find? fun r => key r = k

/-- The record with this key is written back. -/
def putKey (r : R) (l : List R) : List R := l.map fun q => if key q = key r then r else q

def removeKey (k : κ) (l : List R) : List R := l.filter fun r => key r ≠ k

variable {key} {k : κ} {l : List R} {q r : R}

theorem findKey_some (found : findKey key k l = some r) : r ∈ l ∧ key r = k :=
  ⟨List.mem_of_find?_eq_some found, by simpa using List.find?_some found⟩

theorem findKey_none (absent : findKey key k l = none) (mem : r ∈ l) : key r ≠ k := by
  simpa using List.find?_eq_none.1 absent r mem

theorem mem_putKey (mem : q ∈ putKey key r l) : q = r ∨ q ∈ l ∧ key q ≠ key r := by
  obtain ⟨p, there, rfl⟩ := List.mem_map.1 mem
  by_cases same : key p = key r
  · exact .inl (if_pos same)
  · rw [if_neg same]
    exact .inr ⟨there, same⟩

/-- The keys stay. -/
theorem map_key_putKey : (putKey key r l).map key = l.map key := by
  rw [putKey, List.map_map]
  apply List.map_congr_left
  intro q _
  by_cases same : key q = key r
  · simp [same]
  · simp [same]

theorem mem_removeKey : q ∈ removeKey key k l ↔ q ∈ l ∧ key q ≠ k := by
  simp [removeKey]

/-- A record that is written back unchanged. -/
theorem putKey_self (distinct : (l.map key).Nodup) (mem : r ∈ l) : putKey key r l = l := by
  rw [putKey, List.map_congr_left (g := id), List.map_id]
  intro q there
  split
  · next same => exact (List.inj_on_of_nodup_map distinct there mem same).symm
  · rfl

theorem nodup_removeKey (distinct : (l.map key).Nodup) : ((removeKey key k l).map key).Nodup :=
  distinct.sublist (List.filter_sublist.map key)

theorem map_key_removeKey : (removeKey key k l).map key = (l.map key).filter (· ≠ k) := by
  rw [removeKey, List.filter_map]
  rfl

/-- The records whose key has a mark, when one key's mark is set. -/
theorem countP_update (distinct : (l.map key).Nodup) (f : κ → Bool) (b : Bool) :
    (l.countP fun r => Function.update f k b (key r)) + (if k ∈ l.map key ∧ f k then 1 else 0) =
      (l.countP fun r => f (key r)) + (if k ∈ l.map key ∧ b then 1 else 0) := by
  induction l with
  | nil => simp
  | cons r l ih =>
    obtain ⟨notin, distinct⟩ := List.nodup_cons.1 distinct
    have rest := ih distinct
    rw [List.countP_cons, List.countP_cons]
    by_cases here : key r = k
    · subst here
      simp only [notin, false_and, if_false] at rest
      simp only [Function.update_self, List.map_cons, List.mem_cons, true_or, true_and]
      omega
    · simp only [Function.update_of_ne here, List.map_cons, List.mem_cons, Ne.symm here, false_or]
      omega

/-- One record fewer is counted when one with a mark is taken out. -/
theorem countP_removeKey (distinct : (l.map key).Nodup) (f : κ → Bool) :
    ((removeKey key k l).countP fun r => f (key r)) + (if k ∈ l.map key ∧ f k then 1 else 0) =
      l.countP fun r => f (key r) := by
  induction l with
  | nil => simp [removeKey]
  | cons r l ih =>
    obtain ⟨notin, distinct⟩ := List.nodup_cons.1 distinct
    have rest := ih distinct
    rw [List.countP_cons]
    by_cases here : key r = k
    · subst here
      simp only [notin, false_and, if_false] at rest
      simp only [removeKey, ne_eq, not_true_eq_false, decide_false, Bool.false_eq_true,
        not_false_eq_true, List.filter_cons_of_neg, List.map_cons, List.mem_cons, true_or,
        true_and] at rest ⊢
      omega
    · have kept : removeKey key k (r :: l) = r :: removeKey key k l :=
        List.filter_cons_of_pos (by simpa using here)
      rw [kept, List.countP_cons]
      simp only [List.map_cons, List.mem_cons, Ne.symm here, false_or]
      omega

end Keyed

end Wave300.Lib
