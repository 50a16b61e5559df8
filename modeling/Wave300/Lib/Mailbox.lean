import Mathlib.Data.List.Basic
import Mathlib.Logic.Function.Basic

/-!
# A ring of mailboxes

The entries of a ring are written in turn, each only while it is empty, and emptied in turn by the
reader. Neither of them needs to know how far the other is: everything written and not yet read is
in the ring, in the order it was written.
-/

namespace Wave300.Lib

variable {μ : Type*}

/-- The entry after `i` in a ring of `n`. -/
def nextEntry (n i : Nat) : Nat := if n ≤ i + 1 then 0 else i + 1

/-- Of all that was written the first `r` were read, and the rest is in the ring. -/
structure Mailbox (n : Nat) (ring : Nat → Option μ) (written : List μ) (r : Nat) : Prop where
  le : r ≤ written.length
  fits : written.length ≤ r + n
  full : ∀ j, r ≤ j → j < written.length → ring (j % n) = written[j]?
  empty : ∀ j, written.length ≤ j → j < r + n → ring (j % n) = none

/-- What is found in so many entries from one on, up to the first that is empty. -/
def readOut (n : Nat) (ring : Nat → Option μ) : Nat → Nat → List μ
  | 0, _ => []
  | k + 1, i => match ring i with
    | none => []
    | some m => m :: readOut n ring k (nextEntry n i)

variable {n r : Nat} {ring : Nat → Option μ} {written : List μ} {m : μ}

theorem nextEntry_mod (pos : 0 < n) (j : Nat) : nextEntry n (j % n) = (j + 1) % n := by
  have lt := Nat.mod_lt j pos
  have step : (j + 1) % n = (j % n + 1) % n := (Nat.mod_add_mod j n 1).symm
  rw [step]
  unfold nextEntry
  split
  · case isTrue last => rw [show j % n + 1 = n by omega, Nat.mod_self]
  · case isFalse inside => exact (Nat.mod_eq_of_lt (by omega)).symm

theorem mod_ne_of_lt {i j : Nat} (lt : i < j) (near : j < i + n) : i % n ≠ j % n := by
  intro same
  have zero := Nat.sub_mod_eq_zero_of_mod_eq same.symm
  rw [Nat.mod_eq_of_lt (by omega)] at zero
  omega

namespace Mailbox

theorem start (n : Nat) : Mailbox n (fun _ => (none : Option μ)) [] 0 :=
  ⟨Nat.le_refl 0, Nat.zero_le _, fun _ _ lt => absurd lt (Nat.not_lt_zero _), fun _ _ _ => rfl⟩

/-- The entry to be read next is empty exactly when everything was read. -/
theorem read_none (h : Mailbox n ring written r) (pos : 0 < n) :
    ring (r % n) = none ↔ r = written.length := by
  constructor
  · intro none
    by_contra ne
    have lt : r < written.length := Nat.lt_of_le_of_ne h.le ne
    rw [h.full r (Nat.le_refl r) lt, List.getElem?_eq_getElem lt] at none
    cases none
  · intro eq
    exact h.empty r (Nat.le_of_eq eq.symm) (by omega)

theorem read_some (h : Mailbox n ring written r) (pos : 0 < n) (found : ring (r % n) = some m) :
    written[r]? = some m := by
  have lt : r < written.length := by
    apply Nat.lt_of_le_of_ne h.le
    intro eq
    rw [(h.read_none pos).2 eq] at found
    cases found
  rw [← h.full r (Nat.le_refl r) lt, found]

/-- The writer finds its entry empty, so there is room. -/
theorem room (h : Mailbox n ring written r) (pos : 0 < n)
    (zeroed : ring (written.length % n) = none) : written.length < r + n := by
  apply Nat.lt_of_le_of_ne h.fits
  intro eq
  rw [eq, Nat.add_mod_right, h.read_none pos] at zeroed
  omega

theorem write (h : Mailbox n ring written r) (pos : 0 < n)
    (zeroed : ring (written.length % n) = none) (m : μ) :
    Mailbox n (Function.update ring (written.length % n) (some m)) (written ++ [m]) r := by
  have room := h.room pos zeroed
  have length : (written ++ [m]).length = written.length + 1 := List.length_append
  constructor
  case le => exact length ▸ Nat.le_succ_of_le h.le
  case fits => omega
  case full =>
    intro j ge lt
    by_cases last : j = written.length
    · subst last
      rw [Function.update_self, List.getElem?_concat_length]
    · have before : j < written.length := by omega
      rw [Function.update_of_ne (mod_ne_of_lt before (by omega)),
        List.getElem?_append_left before]
      exact h.full j ge before
  case empty =>
    intro j ge lt
    have le := h.le
    rw [Function.update_of_ne (mod_ne_of_lt (by omega) (by omega)).symm]
    exact h.empty j (by omega) lt

/-- The reader empties the entry it has read. -/
theorem consume (h : Mailbox n ring written r) (more : r < written.length) :
    Mailbox n (Function.update ring (r % n) none) written (r + 1) := by
  have fits := h.fits
  constructor
  case le => exact more
  case fits => omega
  case full =>
    intro j ge lt
    rw [Function.update_of_ne (mod_ne_of_lt (by omega) (by omega)).symm]
    exact h.full j (by omega) lt
  case empty =>
    intro j ge lt
    by_cases same : j % n = r % n
    · rw [same, Function.update_self]
    · rw [Function.update_of_ne same]
      apply h.empty j ge
      apply Nat.lt_of_le_of_ne (by omega)
      rintro rfl
      exact same (Nat.add_mod_right ..)

/-- What is in the ring is what was not read. -/
theorem readOut_eq (h : Mailbox n ring written r) (pos : 0 < n) :
    readOut n ring n (r % n) = written.drop r := by
  have upto : ∀ k j, r ≤ j → j ≤ written.length → j + k = r + n →
      readOut n ring k (j % n) = written.drop j := by
    intro k
    induction k with
    | zero =>
      intro j ge le sum
      have fits := h.fits
      rw [readOut, List.drop_eq_nil_of_le (by omega)]
    | succ k ih =>
      intro j ge le sum
      rw [readOut]
      by_cases more : j < written.length
      · rw [h.full j ge more, List.getElem?_eq_getElem more, nextEntry_mod pos,
          List.drop_eq_getElem_cons more, ih (j + 1) (by omega) more (by omega)]
      · rw [h.empty j (by omega) (by omega), List.drop_eq_nil_of_le (by omega)]
  exact upto n r (Nat.le_refl r) h.le rfl

end Mailbox

end Wave300.Lib
