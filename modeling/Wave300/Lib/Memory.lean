import Mathlib.Data.List.GetD
import Mathlib.Data.List.Range

/-!
# Memory

A memory is a function on addresses. What lies at an address, copies between ranges that may
overlap, and ranges that a copy does not touch.
-/

namespace Wave300.Lib

variable {α : Type*} {m m' : Nat → α} {a d s k l : Nat}

/-- The bytes of a range. -/
def slice (m : Nat → α) (a l : Nat) : List α := (List.range l).map fun i => m (a + i)

/-- A copy of a range, as of `memmove`. -/
def move (m : Nat → α) (d s l : Nat) : Nat → α := fun j =>
  if d ≤ j ∧ j < d + l then m (s + (j - d)) else m j

/-- Bytes written to an address. -/
def store (m : Nat → α) (a : Nat) (bytes : List α) : Nat → α := fun j =>
  if a ≤ j then bytes.getD (j - a) (m j) else m j

@[simp] theorem slice_length (m : Nat → α) (a l : Nat) : (slice m a l).length = l := by
  simp [slice]

theorem slice_congr (same : ∀ j, a ≤ j → j < a + l → m j = m' j) : slice m a l = slice m' a l := by
  refine List.map_congr_left ?_
  intro i mem
  have below := List.mem_range.1 mem
  exact same _ (Nat.le_add_right ..) (Nat.add_lt_add_left below a)

theorem slice_append (m : Nat → α) (a k l : Nat) :
    slice m a (k + l) = slice m a k ++ slice m (a + k) l := by
  simp only [slice, List.range_add, List.map_append, List.map_map]
  congr 1
  refine List.map_congr_left ?_
  intro i _
  simp only [Function.comp_apply, Nat.add_assoc]

theorem slice_take (le : k ≤ l) : (slice m a l).take k = slice m a k := by
  obtain ⟨e, rfl⟩ := Nat.exists_eq_add_of_le le
  rw [slice_append, List.take_left' (slice_length m a k)]

theorem slice_drop (le : k ≤ l) : (slice m a l).drop k = slice m (a + k) (l - k) := by
  obtain ⟨e, rfl⟩ := Nat.exists_eq_add_of_le le
  rw [slice_append, List.drop_left' (slice_length m a k), Nat.add_sub_cancel_left]

theorem move_inside {j : Nat} (low : d ≤ j) (high : j < d + l) :
    move m d s l j = m (s + (j - d)) := if_pos ⟨low, high⟩

theorem move_outside {j : Nat} (out : j < d ∨ d + l ≤ j) : move m d s l j = m j := by
  refine if_neg ?_
  rintro ⟨low, high⟩
  omega

/-- The destination of a copy. -/
theorem slice_move : slice (move m d s l) d l = slice m s l := by
  refine List.map_congr_left ?_
  intro i mem
  have below := List.mem_range.1 mem
  rw [move_inside (Nat.le_add_right ..) (Nat.add_lt_add_left below d), Nat.add_sub_cancel_left]

/-- A range beside the destination of a copy. -/
theorem slice_move_of_disjoint (apart : a + k ≤ d ∨ d + l ≤ a) :
    slice (move m d s l) a k = slice m a k := by
  refine slice_congr ?_
  intro j low high
  refine move_outside ?_
  omega

theorem store_outside {bytes : List α} {j : Nat} (out : j < a ∨ a + bytes.length ≤ j) :
    store m a bytes j = m j := by
  simp only [store]
  split
  · exact List.getD_eq_default _ _ (by omega)
  · rfl

@[simp] theorem store_nil (m : Nat → α) (a : Nat) : store m a [] = m := by
  funext j
  simp [store]

/-- Bytes written behind others. -/
theorem store_store (m : Nat → α) (a : Nat) (bytes bytes' : List α) :
    store (store m a bytes) (a + bytes.length) bytes' = store m a (bytes ++ bytes') := by
  funext j
  simp only [store]
  split
  case isTrue behind =>
    have past : bytes.getD (j - a) (m j) = m j := List.getD_eq_default _ _ (by omega)
    have low : a ≤ j := Nat.le_trans (Nat.le_add_right ..) behind
    rw [if_pos low, if_pos low, past, List.getD_append_right _ _ _ _ (by omega), Nat.sub_add_eq]
  case isFalse before =>
    split
    case isTrue here => rw [List.getD_append _ _ _ _ (by omega)]
    case isFalse => rfl

/-- What was written is there. -/
theorem slice_store {bytes : List α} (long : bytes.length = l) :
    slice (store m a bytes) a l = bytes := by
  subst long
  refine List.ext_getElem (by simp) ?_
  intro i _ below
  simp only [slice, List.getElem_map, List.getElem_range, store]
  rw [if_pos (Nat.le_add_right a i), Nat.add_sub_cancel_left, List.getD_eq_getElem _ _ below]

/-- A range beside what was written. -/
theorem slice_store_of_disjoint {bytes : List α} (apart : a + k ≤ d ∨ d + bytes.length ≤ a) :
    slice (store m d bytes) a k = slice m a k := by
  refine slice_congr ?_
  intro j low high
  exact store_outside (by omega)

/-! ## What a change leaves alone -/

/-- Two memories hold the same before an address. -/
def Agree (n : Nat) (m m' : Nat → α) : Prop := ∀ j < n, m j = m' j

section Agree
variable {n : Nat}

theorem Agree.slice_eq (h : Agree n m m') (inside : a + l ≤ n) : slice m a l = slice m' a l :=
  slice_congr fun j _ below => h j (Nat.lt_of_lt_of_le below inside)

theorem Agree.store (h : Agree n m m') (a : Nat) (bytes : List α) :
    Agree n (store m a bytes) (store m' a bytes) := by
  intro j below
  simp only [Lib.store, h j below]

theorem Agree.move (h : Agree n m m') (d : Nat) (inside : s + l ≤ n) :
    Agree n (move m d s l) (move m' d s l) := by
  intro j below
  simp only [Lib.move]
  split
  next within => exact h _ (by omega)
  · exact h j below

theorem Agree.shift {k : Nat} (h : Agree n m m') (le : d + k ≤ n) :
    Agree k (fun j => m (d + j)) fun j => m' (d + j) := fun j below => h (d + j) (by omega)

end Agree

/-- An address lies in none of some ranges, each an address and a length. -/
def Outside (ranges : List (Nat × Nat)) (j : Nat) : Prop :=
  ∀ r ∈ ranges, j < r.1 ∨ r.1 + r.2 ≤ j

/-- A memory differs from another in some ranges only. -/
def ChangesIn (ranges : List (Nat × Nat)) (m m' : Nat → α) : Prop :=
  ∀ j, Outside ranges j → m' j = m j

variable {ranges ranges' : List (Nat × Nat)} {m'' : Nat → α}

theorem ChangesIn.refl (ranges : List (Nat × Nat)) (m : Nat → α) : ChangesIn ranges m m :=
  fun _ _ => rfl

theorem ChangesIn.trans (first : ChangesIn ranges m m') (second : ChangesIn ranges m' m'') :
    ChangesIn ranges m m'' := fun j out => (second j out).trans (first j out)

theorem ChangesIn.mono (change : ChangesIn ranges m m')
    (cover : ∀ j, Outside ranges' j → Outside ranges j) : ChangesIn ranges' m m' :=
  fun j out => change j (cover j out)

theorem ChangesIn.of_subset (change : ChangesIn ranges m m') (subset : ranges ⊆ ranges') :
    ChangesIn ranges' m m' := change.mono fun _ out r mem => out r (subset mem)

/-- A range may be taken for a longer one. -/
theorem ChangesIn.widen {b n : Nat} (change : ChangesIn [(b, n)] m m') (low : a ≤ b)
    (high : b + n ≤ a + l) : ChangesIn [(a, l)] m m' := by
  apply change.mono
  intro j out
  rw [Outside, List.forall_mem_singleton] at out ⊢
  exact out.imp (fun before => Nat.lt_of_lt_of_le before low) fun behind => high.trans behind

/-- Bytes that are written lie in one of the ranges. -/
theorem store_changesIn {bytes : List α} (mem : (a, bytes.length) ∈ ranges) :
    ChangesIn ranges m (store m a bytes) := fun _ out => store_outside (out _ mem)

theorem ChangesIn.slice_eq (change : ChangesIn ranges m m')
    (apart : ∀ r ∈ ranges, a + l ≤ r.1 ∨ r.1 + r.2 ≤ a) : slice m' a l = slice m a l := by
  apply slice_congr
  intro j low high
  apply change j
  intro r mem
  have := apart r mem
  omega

end Wave300.Lib
