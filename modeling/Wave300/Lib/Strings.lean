import Mathlib.Data.List.GetD

/-!
# Strings in memory

A string is kept as its characters and a zero after them, and copied as by `strncpy`: at most `n`
cells are written, all of them, with zeros from the end of the string on.
-/

namespace Wave300.Lib

variable {α : Type*} [Zero α] {m dst : Nat → α} {l : List α} {n i k : Nat}

/-- The memory begins with a string. -/
structure Terminated (m : Nat → α) (l : List α) : Prop where
  same : ∀ i (_ : i < l.length), m i = l[i]
  clean : 0 ∉ l
  zero : m l.length = 0

/-- The memory of a string, zeros all the way after it. -/
def text (l : List α) (i : Nat) : α := l.getD i 0

theorem text_terminated (clean : 0 ∉ l) : Terminated (text l) l where
  same _ h := List.getD_eq_getElem l 0 h
  clean := clean
  zero := List.getD_eq_default l 0 (Nat.le_refl _)

theorem Terminated.ne_zero (h : Terminated m l) (inside : i < l.length) : m i ≠ 0 := by
  intro zero
  apply h.clean
  rw [← zero, h.same i inside]
  exact List.getElem_mem inside

variable [DecidableEq α]

/-- Cell `i` of the destination. -/
def strncpy (dst src : Nat → α) (n i : Nat) : α :=
  if i < n then if ∃ j < i, src j = 0 then 0 else src i else dst i

/-- How many cells the copy reads from `i` on: it stops after a zero. -/
def scanned (src : Nat → α) : Nat → Nat → Nat
  | 0, _ => 0
  | n + 1, i => if src i = 0 then 1 else scanned src n (i + 1) + 1

theorem strncpy_beyond (beyond : n ≤ i) : strncpy dst m n i = dst i :=
  if_neg (Nat.not_lt.2 beyond)

/-- A string with room for a zero is copied whole, whatever there was before. -/
theorem Terminated.strncpy (h : Terminated m l) (room : l.length < n) :
    Terminated (strncpy dst m n) l := by
  have copied : ∀ i ≤ l.length, Lib.strncpy dst m n i = m i := by
    intro i le
    have before : ¬ ∃ j < i, m j = 0 := by
      rintro ⟨j, lt, zero⟩
      exact h.ne_zero (Nat.lt_of_lt_of_le lt le) zero
    rw [Lib.strncpy, if_pos (Nat.lt_of_le_of_lt le room), if_neg before]
  constructor
  case same => exact fun i inside => (copied i (Nat.le_of_lt inside)).trans (h.same i inside)
  case clean => exact h.clean
  case zero => exact (copied _ (Nat.le_refl _)).trans h.zero

/-- A copy of what begins as a string does, as far as it goes. -/
theorem strncpy_text (clean : 0 ∉ l) (same : ∀ j < n, m j = text l j) (below : i < n) :
    strncpy dst m n i = text l i := by
  rw [strncpy, if_pos below]
  split
  next ended =>
    obtain ⟨j, lt, zero⟩ := ended
    have past : l.length ≤ j := Nat.le_of_not_lt fun inside => by
      refine (text_terminated clean).ne_zero inside ?_
      rw [← same j (Nat.lt_trans lt below), zero]
    exact (List.getD_eq_default l 0 (Nat.le_trans past (Nat.le_of_lt lt))).symm
  next => exact same i below

theorem scanned_le (m : Nat → α) (n i : Nat) : scanned m n i ≤ n := by
  induction n generalizing i with
  | zero => exact Nat.le_refl 0
  | succ n ih =>
    rw [scanned]
    split
    · exact Nat.succ_le_succ (Nat.zero_le n)
    · exact Nat.succ_le_succ (ih (i + 1))

theorem scanned_pos (pos : 0 < n) : 0 < scanned m n i := by
  cases n with
  | zero => exact absurd pos (Nat.lt_irrefl 0)
  | succ n =>
    rw [scanned]
    split
    · exact Nat.one_pos
    · exact Nat.succ_pos _

theorem scanned_le_of_zero (zero : m (i + k) = 0) : scanned m n i ≤ k + 1 := by
  induction n generalizing i k with
  | zero => exact Nat.zero_le _
  | succ n ih =>
    rw [scanned]
    split
    · exact Nat.succ_le_succ (Nat.zero_le k)
    next more =>
      cases k with
      | zero => exact absurd zero more
      | succ k =>
        rw [← Nat.add_assoc, Nat.add_right_comm] at zero
        exact Nat.succ_le_succ (ih zero)

/-- Reading a string ends with its zero. -/
theorem Terminated.scanned_le (h : Terminated m l) : scanned m n 0 ≤ l.length + 1 := by
  apply scanned_le_of_zero
  rw [Nat.zero_add]
  exact h.zero

end Wave300.Lib
