import Mathlib.Algebra.BigOperators.Fin
import Mathlib.Data.Fintype.Option

/-!
# Circular buffers that share their elements

Several circular buffers of `n` entries each. An element is in one of them or in none, and
records which one and at which entry, so that it can be taken out of the middle: by putting
the first element in its place, or by moving the elements before it up by one.
-/

namespace Wave300.Lib

/-- The entry after `i`. -/
def incWrap (n i : Nat) : Nat := if i + 1 = n then 0 else i + 1

/-- The entry before `i`. -/
def decWrap (n i : Nat) : Nat := if i = 0 then n - 1 else i - 1

/-- Entry `i` of a buffer of `n`, for `i` up to one round too far. -/
def wrap (n i : Nat) : Nat := if i < n then i else i - n

/-- How far entry `i` is behind entry `a`. -/
def offset (n a i : Nat) : Nat := if a ≤ i then i - a else i + n - a

/-- A circular buffer. `fromIdx` equals `toIdx` both when it is empty and when it is full. -/
structure Ring (α : Type*) where
  ptr : Nat → α
  fromIdx : Nat
  toIdx : Nat
  total : Nat

namespace Ring
variable {α : Type*} {n : Nat} {r : Ring α}

/-- Entry `i` is in the window from `fromIdx` to `toIdx`. -/
def Holds (n : Nat) (r : Ring α) (i : Nat) : Prop := i < n ∧ offset n r.fromIdx i < r.total

/-- `total` is the length of the window from `fromIdx` to `toIdx`. -/
structure Valid (n : Nat) (r : Ring α) : Prop where
  from_lt : r.fromIdx < n
  total_le : r.total ≤ n
  to_eq : r.toIdx = wrap n (r.fromIdx + r.total)

def push (n : Nat) (r : Ring α) (a : α) : Ring α :=
  { r with ptr := Function.update r.ptr r.toIdx a, toIdx := incWrap n r.toIdx,
           total := r.total + 1 }

def pop (n : Nat) (r : Ring α) : Ring α :=
  { r with fromIdx := incWrap n r.fromIdx, total := r.total - 1 }

theorem Valid.holds_from (h : r.Valid n) (some : r.total ≠ 0) : r.Holds n r.fromIdx := by
  refine ⟨h.from_lt, ?_⟩
  rw [offset, if_pos (le_refl _), Nat.sub_self]
  exact Nat.pos_of_ne_zero some

theorem Valid.not_holds_to (h : r.Valid n) (room : r.total < n) : ¬r.Holds n r.toIdx := by
  rintro ⟨_, inside⟩
  have := h.from_lt
  have e := h.to_eq
  simp only [offset, wrap] at inside e
  split at e <;> split at inside <;> omega

theorem Valid.push (h : r.Valid n) (a : α) (room : r.total < n) : (r.push n a).Valid n := by
  have := h.from_lt
  have e := h.to_eq
  refine ⟨h.from_lt, room, ?_⟩
  simp only [Ring.push]
  simp only [incWrap, wrap] at e ⊢
  split at e <;> split <;> split <;> omega

theorem Valid.holds_push (h : r.Valid n) {a : α} (room : r.total < n) {i : Nat} :
    (r.push n a).Holds n i ↔ r.Holds n i ∨ i = r.toIdx := by
  have := h.from_lt
  have e := h.to_eq
  simp only [Holds, Ring.push]
  simp only [offset, wrap] at e ⊢
  split at e <;> split <;> omega

theorem Valid.pop (h : r.Valid n) (some : r.total ≠ 0) : (r.pop n).Valid n := by
  have := h.from_lt
  have := h.total_le
  have e := h.to_eq
  refine ⟨?_, ?_, ?_⟩ <;> simp only [Ring.pop] <;> simp only [incWrap, wrap] at e ⊢
  · split <;> omega
  · omega
  · split at e <;> split <;> split <;> omega

theorem Valid.holds_pop (h : r.Valid n) {i : Nat} :
    (r.pop n).Holds n i ↔ r.Holds n i ∧ i ≠ r.fromIdx := by
  have := h.from_lt
  have := h.total_le
  simp only [Holds, Ring.pop]
  simp only [offset, incWrap]
  split <;> split <;> split <;> omega

/-- Walking the window forward, the entry after one in the window is in it, or is its end. -/
theorem Valid.holds_next (h : r.Valid n) {i : Nat} (held : r.Holds n i) :
    r.Holds n (incWrap n i) ∨ incWrap n i = r.toIdx := by
  have := h.from_lt
  have := h.total_le
  have e := h.to_eq
  obtain ⟨lt, inside⟩ := held
  simp only [Holds, offset, incWrap, wrap] at e inside ⊢
  split at e <;> split at inside <;> split <;> split <;> omega

/-- A walk through the window that has not passed its last entry goes on. -/
theorem Valid.next_of_lt (h : r.Valid n) {i : Nat} (held : r.Holds n i)
    (more : offset n r.fromIdx i + 1 < r.total) :
    offset n r.fromIdx (incWrap n i) = offset n r.fromIdx i + 1 ∧ incWrap n i ≠ r.toIdx := by
  have := h.from_lt
  have := h.total_le
  have := held.1
  rw [h.to_eq]
  simp only [offset, incWrap, wrap] at more ⊢
  split at more <;> split <;> split <;> split <;> omega

theorem Valid.from_eq_to (h : r.Valid n) {i : Nat} (held : r.Holds n i)
    (round : incWrap n i = r.fromIdx) : r.fromIdx = r.toIdx := by
  have := h.from_lt
  have := h.total_le
  have e := h.to_eq
  obtain ⟨lt, inside⟩ := held
  simp only [offset, incWrap, wrap] at e inside round
  split at e <;> split at inside <;> split at round <;> omega

/-- Walking the window backward, the entry before one that is not the first is in it. -/
theorem Valid.holds_prev (h : r.Valid n) {i : Nat} (held : r.Holds n i) (ne : i ≠ r.fromIdx) :
    r.Holds n (decWrap n i) ∧ decWrap n i ≠ i := by
  have := h.from_lt
  have := h.total_le
  obtain ⟨lt, inside⟩ := held
  simp only [Holds, offset, decWrap] at inside ⊢
  split at inside <;> split <;> split <;> omega

/-- In a full buffer the window ends where it begins. -/
theorem Valid.from_eq_to_of_full (h : r.Valid n) (full : r.total = n) : r.fromIdx = r.toIdx := by
  have := h.from_lt
  rw [h.to_eq, full, wrap]
  split <;> omega

/-- In a buffer with room a walk comes to the end of the window after all entries. -/
theorem Valid.wrap_eq_to (h : r.Valid n) (room : r.total < n) {k : Nat} (le : k ≤ r.total) :
    wrap n (r.fromIdx + k) = r.toIdx ↔ k = r.total := by
  have := h.from_lt
  rw [h.to_eq]
  simp only [wrap]
  split <;> split <;> omega

theorem Valid.incWrap_wrap (h : r.Valid n) {k : Nat} (lt : k < n) :
    incWrap n (wrap n (r.fromIdx + k)) = wrap n (r.fromIdx + (k + 1)) ∧
      incWrap n (wrap n (r.fromIdx + k)) = wrap n (incWrap n r.fromIdx + k) := by
  have := h.from_lt
  simp only [wrap, incWrap]
  split <;> split <;> split <;> split <;> split <;> omega

theorem Valid.holds_wrap (h : r.Valid n) {k : Nat} (lt : k < r.total) :
    r.Holds n (wrap n (r.fromIdx + k)) ∧ offset n r.fromIdx (wrap n (r.fromIdx + k)) = k := by
  have := h.from_lt
  have := h.total_le
  simp only [Holds, offset, wrap]
  split <;> split <;> omega

theorem Valid.wrap_offset (h : r.Valid n) {i : Nat} (held : r.Holds n i) :
    wrap n (r.fromIdx + offset n r.fromIdx i) = i := by
  have := h.from_lt
  have := held.1
  simp only [offset, wrap]
  split <;> split <;> omega

end Ring

/-- Circular buffers named by `κ` over elements `α`. Each element has a record of the
buffer it is in and of its entry there. -/
structure Rings (κ α : Type*) where
  ring : κ → Ring α
  home : α → Option κ
  idx : α → Nat

namespace Rings
variable {κ α : Type*} {n : Nat} {t : Rings κ α} {q : κ} {a : α} {i : Nat}

section
variable [DecidableEq κ] [DecidableEq α]

/-- Takes the first element of `q` out. Its records stay as they were. -/
def take (n : Nat) (t : Rings κ α) (q : κ) : Rings κ α :=
  { t with ring := Function.update t.ring q ((t.ring q).pop n) }

def put (n : Nat) (t : Rings κ α) (q : κ) (a : α) : Rings κ α where
  ring := Function.update t.ring q ((t.ring q).push n a)
  home := Function.update t.home a (some q)
  idx := Function.update t.idx a (t.ring q).toIdx

/-- Records that `a` is in no buffer. -/
def setOut (t : Rings κ α) (a : α) : Rings κ α :=
  { t with home := Function.update t.home a none }

/-- Copies entry `j` of `q` to entry `i` and records the new entry. -/
def carry (t : Rings κ α) (q : κ) (j i : Nat) : Rings κ α :=
  let a := (t.ring q).ptr j
  { t with ring := Function.update t.ring q
             { t.ring q with ptr := Function.update (t.ring q).ptr i a }
           idx := Function.update t.idx a i }

/-- Moves the elements before entry `i` up by one, over entry `i`. -/
def shiftUp (n : Nat) (q : κ) : Nat → Nat → Rings κ α → Rings κ α
  | 0, _, t => t
  | fuel + 1, i, t =>
    let t := t.carry q (decWrap n i) i
    if decWrap n i = (t.ring q).fromIdx then t else shiftUp n q fuel (decWrap n i) t

/-- Takes `a` out of `q`, if it is at its entry there: the elements before it move up, or
the first one takes its place. -/
def unlink (n : Nat) (t : Rings κ α) (q : κ) (a : α) (keepOrder : Bool) : Rings κ α :=
  if (t.ring q).ptr (t.idx a) = a then
    let t' :=
      if t.idx a = (t.ring q).fromIdx then t
      else if keepOrder then shiftUp n q n (t.idx a) t
      else t.carry q (t.ring q).fromIdx (t.idx a)
    (t'.take n q).setOut a
  else t

end

/-- Every entry of a window is known to its element, and every element is where its
records say. -/
structure Seated (n : Nat) (t : Rings κ α) : Prop where
  valid : ∀ q, (t.ring q).Valid n
  held : ∀ q i, (t.ring q).Holds n i →
    t.home ((t.ring q).ptr i) = some q ∧ t.idx ((t.ring q).ptr i) = i
  seat : ∀ a q, t.home a = some q →
    (t.ring q).Holds n (t.idx a) ∧ (t.ring q).ptr (t.idx a) = a

/-- `Seated` but for `a`, that is being taken out of `q`, and for entry `i` of `q`, that
is up for reuse. -/
structure Gap (n : Nat) (t : Rings κ α) (q : κ) (a : α) (i : Nat) : Prop where
  valid : ∀ q, (t.ring q).Valid n
  inside : (t.ring q).Holds n i
  held : ∀ q' j, (t.ring q').Holds n j → (q' = q → j ≠ i) → (t.ring q').ptr j ≠ a ∧
    t.home ((t.ring q').ptr j) = some q' ∧ t.idx ((t.ring q').ptr j) = j
  seat : ∀ b q', b ≠ a → t.home b = some q' →
    (t.ring q').Holds n (t.idx b) ∧ (t.ring q').ptr (t.idx b) = b ∧ (q' = q → t.idx b ≠ i)

theorem Seated.gap (h : t.Seated n) (home : t.home a = some q) : t.Gap n q a (t.idx a) := by
  obtain ⟨inside, at_entry⟩ := h.seat a q home
  constructor
  case valid => exact h.valid
  case inside => exact inside
  case held =>
    intro q' j holds ne
    obtain ⟨home', idx'⟩ := h.held q' j holds
    refine ⟨?_, home', idx'⟩
    rintro rfl
    rw [home, Option.some_inj] at home'
    exact ne home'.symm idx'.symm
  case seat =>
    intro b q' ne home'
    obtain ⟨holds, at_idx⟩ := h.seat b q' home'
    refine ⟨holds, at_idx, ?_⟩
    rintro rfl same
    rw [same, at_entry] at at_idx
    exact ne at_idx.symm

variable [DecidableEq κ] [DecidableEq α]

theorem Gap.carry {j : Nat} (h : t.Gap n q a i) (holds : (t.ring q).Holds n j) (ne : j ≠ i) :
    (t.carry q j i).Gap n q a j := by
  obtain ⟨b_ne, b_home, b_idx⟩ := h.held q j holds fun _ => ne
  have holds_iff (q' k) : ((t.carry q j i).ring q').Holds n k ↔ (t.ring q').Holds n k := by
    by_cases e : q' = q
    · subst e
      simp only [Rings.carry, Function.update_self]
      exact Iff.rfl
    · simp only [Rings.carry, Function.update_of_ne e]
  constructor
  case valid =>
    intro q'
    by_cases e : q' = q
    · subst e
      simp only [Rings.carry, Function.update_self]
      exact ⟨(h.valid q').from_lt, (h.valid q').total_le, (h.valid q').to_eq⟩
    · simpa only [Rings.carry, Function.update_of_ne e] using h.valid q'
  case inside => exact (holds_iff q j).2 holds
  case held =>
    intro q' k holds' k_ne
    rw [holds_iff] at holds'
    by_cases e : q' = q
    · subst e
      by_cases ki : k = i
      · subst ki
        simpa only [Rings.carry, Function.update_self, and_true] using ⟨b_ne, b_home⟩
      · obtain ⟨c_ne, c_home, c_idx⟩ := h.held q' k holds' fun _ => ki
        have apart : (t.ring q').ptr k ≠ (t.ring q').ptr j := by
          intro same
          rw [same, b_idx] at c_idx
          exact k_ne rfl c_idx.symm
        simp only [Rings.carry, Function.update_self, Function.update_of_ne ki,
          Function.update_of_ne apart]
        exact ⟨c_ne, c_home, c_idx⟩
    · obtain ⟨c_ne, c_home, c_idx⟩ := h.held q' k holds' fun same => absurd same e
      have apart : (t.ring q').ptr k ≠ (t.ring q).ptr j := by
        intro same
        rw [same, b_home, Option.some_inj] at c_home
        exact e c_home.symm
      simp only [Rings.carry, Function.update_of_ne e, Function.update_of_ne apart]
      exact ⟨c_ne, c_home, c_idx⟩
  case seat =>
    intro c q' c_ne c_home
    rw [holds_iff]
    by_cases cb : c = (t.ring q).ptr j
    · have same : q' = q := by
        rw [cb] at c_home
        exact Option.some_inj.1 (c_home.symm.trans b_home)
      subst same cb
      simp only [Rings.carry, Function.update_self, true_and]
      exact ⟨h.inside, fun _ => ne.symm⟩
    · obtain ⟨c_holds, c_at, c_idx⟩ := h.seat c q' c_ne c_home
      simp only [Rings.carry, Function.update_of_ne cb]
      refine ⟨c_holds, ?_, ?_⟩
      · by_cases e : q' = q
        · subst e
          rw [Function.update_self]
          exact (Function.update_of_ne (c_idx rfl) _ _).trans c_at
        · rw [Function.update_of_ne e]
          exact c_at
      · rintro rfl same
        rw [same] at c_at
        exact cb c_at.symm

/-- What rearranging the entries of `q` leaves as it is. -/
structure Arranged (t t' : Rings κ α) (q : κ) : Prop where
  home : t'.home = t.home
  others : ∀ q', q' ≠ q → t'.ring q' = t.ring q'
  fromIdx : (t'.ring q).fromIdx = (t.ring q).fromIdx
  toIdx : (t'.ring q).toIdx = (t.ring q).toIdx
  total : (t'.ring q).total = (t.ring q).total

omit [DecidableEq κ] [DecidableEq α] in
theorem Arranged.refl (t : Rings κ α) (q : κ) : Arranged t t q :=
  ⟨rfl, fun _ _ => rfl, rfl, rfl, rfl⟩

omit [DecidableEq κ] [DecidableEq α] in
theorem Arranged.trans {t' t'' : Rings κ α} (h : Arranged t t' q) (h' : Arranged t' t'' q) :
    Arranged t t'' q :=
  ⟨h'.home.trans h.home, fun q' ne => (h'.others q' ne).trans (h.others q' ne),
    h'.fromIdx.trans h.fromIdx, h'.toIdx.trans h.toIdx, h'.total.trans h.total⟩

theorem carry_arranged (t : Rings κ α) (q : κ) (j i : Nat) : Arranged t (t.carry q j i) q := by
  refine ⟨rfl, fun q' ne => ?_, ?_, ?_, ?_⟩
  · exact Function.update_of_ne ne _ _
  all_goals simp only [carry, Function.update_self]

theorem shiftUp_arranged (fuel i : Nat) (t : Rings κ α) :
    Arranged t (shiftUp n q fuel i t) q := by
  induction fuel generalizing i t with
  | zero => exact .refl t q
  | succ fuel ih =>
    rw [shiftUp]
    split
    · exact carry_arranged ..
    · exact (carry_arranged ..).trans (ih _ _)

/-- The loop that moves elements up leaves the gap at the first entry. -/
theorem Gap.shiftUp {fuel : Nat} (h : t.Gap n q a i) (ne : i ≠ (t.ring q).fromIdx)
    (enough : offset n (t.ring q).fromIdx i ≤ fuel) :
    (shiftUp n q fuel i t).Gap n q a (t.ring q).fromIdx := by
  induction fuel generalizing i t with
  | zero =>
    have := h.inside.1
    have := (h.valid q).from_lt
    simp only [offset] at enough
    split at enough <;> omega
  | succ fuel ih =>
    obtain ⟨holds, apart⟩ := (h.valid q).holds_prev h.inside ne
    have moved := h.carry holds apart
    have first := (carry_arranged t q (decWrap n i) i).fromIdx
    rw [Rings.shiftUp]
    split
    · rename_i last
      rw [← first, ← last]
      exact moved
    · rename_i more
      rw [← first]
      apply ih moved more
      have := h.inside.1
      have := (h.valid q).from_lt
      rw [first]
      simp only [offset, decWrap] at enough ⊢
      split at enough <;> split <;> split <;> omega

/-- Dropping the first entry, when that is the gap, completes the removal. -/
theorem Gap.close (h : t.Gap n q a (t.ring q).fromIdx) :
    ((t.take n q).setOut a).Seated n := by
  have some : (t.ring q).total ≠ 0 := Nat.ne_of_gt (Nat.zero_lt_of_lt h.inside.2)
  constructor
  · intro q'
    by_cases e : q' = q
    · subst e
      simpa only [setOut, take, Function.update_self] using (h.valid q').pop some
    · simpa only [setOut, take, Function.update_of_ne e] using h.valid q'
  · intro q' k holds
    by_cases e : q' = q
    · subst e
      simp only [setOut, take, Function.update_self] at holds ⊢
      obtain ⟨holds, k_ne⟩ := (h.valid q').holds_pop.1 holds
      obtain ⟨c_ne, c_home, c_idx⟩ := h.held q' k holds fun _ => k_ne
      exact ⟨(Function.update_of_ne c_ne _ _).trans c_home, c_idx⟩
    · simp only [setOut, take, Function.update_of_ne e] at holds ⊢
      obtain ⟨c_ne, c_home, c_idx⟩ := h.held q' k holds fun same => absurd same e
      exact ⟨(Function.update_of_ne c_ne _ _).trans c_home, c_idx⟩
  · intro c q' c_home
    have c_ne : c ≠ a := by
      rintro rfl
      simp only [setOut, Function.update_self, reduceCtorEq] at c_home
    simp only [setOut, take, Function.update_of_ne c_ne] at c_home ⊢
    obtain ⟨c_holds, c_at, c_idx⟩ := h.seat c q' c_ne c_home
    by_cases e : q' = q
    · subst e
      rw [Function.update_self]
      exact ⟨(h.valid q').holds_pop.2 ⟨c_holds, c_idx rfl⟩, c_at⟩
    · rw [Function.update_of_ne e]
      exact ⟨c_holds, c_at⟩

theorem unlink_eq (keepOrder : Bool) (found : (t.ring q).ptr (t.idx a) = a) :
    ∃ t', Arranged t t' q ∧ t.unlink n q a keepOrder = (t'.take n q).setOut a := by
  rw [unlink, if_pos found]
  refine ⟨_, ?_, rfl⟩
  split
  · exact .refl t q
  · split
    · exact shiftUp_arranged ..
    · exact carry_arranged ..

theorem Seated.unlink (h : t.Seated n) (keepOrder : Bool) (home : t.home a = some q) :
    (t.unlink n q a keepOrder).Seated n := by
  have gap := h.gap home
  have first := (h.valid q).from_lt
  have inside := gap.inside
  rw [Rings.unlink, if_pos (h.seat a q home).2]
  split
  · rename_i at_first
    rw [at_first] at gap
    exact gap.close
  · rename_i ne
    split
    · apply Gap.close
      rw [(shiftUp_arranged ..).fromIdx]
      apply gap.shiftUp ne
      have := inside.1
      simp only [offset]
      split <;> omega
    · apply Gap.close
      rw [(carry_arranged ..).fromIdx]
      have some : (t.ring q).total ≠ 0 := Nat.ne_of_gt (Nat.zero_lt_of_lt inside.2)
      exact gap.carry ((h.valid q).holds_from some) (Ne.symm ne)

theorem unlink_home (keepOrder : Bool) (found : (t.ring q).ptr (t.idx a) = a) :
    (t.unlink n q a keepOrder).home = Function.update t.home a none := by
  obtain ⟨t', same, e⟩ := unlink_eq (n := n) keepOrder found
  rw [e]
  simp only [setOut, take, same.home]

theorem unlink_home_of_ne {b : α} (keepOrder : Bool) (ne : b ≠ a) :
    (t.unlink n q a keepOrder).home b = t.home b := by
  by_cases found : (t.ring q).ptr (t.idx a) = a
  · rw [unlink_home keepOrder found, Function.update_of_ne ne]
  · rw [unlink, if_neg found]

theorem unlink_others {q' : κ} (keepOrder : Bool) (ne : q' ≠ q) :
    (t.unlink n q a keepOrder).ring q' = t.ring q' := by
  by_cases found : (t.ring q).ptr (t.idx a) = a
  · obtain ⟨t', same, e⟩ := unlink_eq (n := n) keepOrder found
    rw [e]
    simp only [setOut, take, Function.update_of_ne ne, same.others q' ne]
  · rw [unlink, if_neg found]

theorem unlink_total (keepOrder : Bool) (found : (t.ring q).ptr (t.idx a) = a) :
    ((t.unlink n q a keepOrder).ring q).total = (t.ring q).total - 1 := by
  obtain ⟨t', same, e⟩ := unlink_eq (n := n) keepOrder found
  rw [e]
  simp only [setOut, take, Function.update_self, Ring.pop, same.total]

theorem unlink_fromIdx (keepOrder : Bool) (found : (t.ring q).ptr (t.idx a) = a) :
    ((t.unlink n q a keepOrder).ring q).fromIdx = incWrap n (t.ring q).fromIdx := by
  obtain ⟨t', same, e⟩ := unlink_eq (n := n) keepOrder found
  rw [e]
  simp only [setOut, take, Function.update_self, Ring.pop, same.fromIdx]

theorem unlink_toIdx (keepOrder : Bool) : ((t.unlink n q a keepOrder).ring q).toIdx =
    (t.ring q).toIdx := by
  by_cases found : (t.ring q).ptr (t.idx a) = a
  · obtain ⟨t', same, e⟩ := unlink_eq (n := n) keepOrder found
    rw [e]
    simp only [setOut, take, Function.update_self, Ring.pop, same.toIdx]
  · rw [unlink, if_neg found]

theorem Seated.holds_unlink (h : t.Seated n) (keepOrder : Bool) (home : t.home a = some q)
    {j : Nat} : ((t.unlink n q a keepOrder).ring q).Holds n j ↔
      (t.ring q).Holds n j ∧ j ≠ (t.ring q).fromIdx := by
  obtain ⟨t', same, e⟩ := unlink_eq (n := n) keepOrder (h.seat a q home).2
  rw [← (h.valid q).holds_pop, e]
  simp only [setOut, take, Function.update_self, Ring.Holds, Ring.pop, same.fromIdx, same.total]

/-- A walk through the window goes on to the same end when an element is taken out. -/
theorem Seated.walk_unlink (h : t.Seated n) (keepOrder : Bool) (home : t.home a = some q)
    (holds : (t.ring q).Holds n i) :
    ((t.unlink n q a keepOrder).ring q).Holds n (incWrap n i) ∨
      incWrap n i = ((t.unlink n q a keepOrder).ring q).toIdx := by
  rw [h.holds_unlink keepOrder home, unlink_toIdx]
  by_cases round : incWrap n i = (t.ring q).fromIdx
  · exact .inr (round.trans ((h.valid q).from_eq_to holds round))
  · obtain next | last := (h.valid q).holds_next holds
    · exact .inl ⟨next, round⟩
    · exact .inr last

theorem put_others {q' : κ} (ne : q' ≠ q) : (t.put n q a).ring q' = t.ring q' :=
  Function.update_of_ne ne ..

omit [DecidableEq α] in
theorem take_others {q' : κ} (ne : q' ≠ q) : (t.take n q).ring q' = t.ring q' :=
  Function.update_of_ne ne ..

theorem put_setOut : (t.setOut a).put n q a = t.put n q a := by
  simp only [put, setOut, Function.update_idem]

theorem Seated.take (h : t.Seated n) (some : (t.ring q).total ≠ 0) :
    ((t.take n q).setOut ((t.ring q).ptr (t.ring q).fromIdx)).Seated n := by
  obtain ⟨home, idx⟩ := h.held q _ ((h.valid q).holds_from some)
  have gap := h.gap home
  rw [idx] at gap
  exact gap.close

theorem Seated.put (h : t.Seated n) (out : t.home a = none) (room : (t.ring q).total < n) :
    (t.put n q a).Seated n := by
  have fresh {b : α} {q' : κ} (home : t.home b = some q') : b ≠ a := by
    rintro rfl
    rw [out] at home
    cases home
  have past {i : Nat} (holds : (t.ring q).Holds n i) : i ≠ (t.ring q).toIdx := by
    rintro rfl
    exact (h.valid q).not_holds_to room holds
  constructor
  · intro q'
    by_cases e : q' = q
    · subst e
      simpa only [Rings.put, Function.update_self] using (h.valid q').push a room
    · simpa only [Rings.put, Function.update_of_ne e] using h.valid q'
  · intro q' k holds
    by_cases e : q' = q
    · subst e
      simp only [Rings.put, Function.update_self] at holds ⊢
      obtain holds | rfl := ((h.valid q').holds_push room).1 holds
      · obtain ⟨home, idx⟩ := h.held q' k holds
        simp only [Ring.push, Function.update_of_ne (past holds),
          Function.update_of_ne (fresh home)]
        exact ⟨home, idx⟩
      · simp only [Ring.push, Function.update_self, and_self]
    · simp only [Rings.put, Function.update_of_ne e] at holds ⊢
      obtain ⟨home, idx⟩ := h.held q' k holds
      simp only [Function.update_of_ne (fresh home)]
      exact ⟨home, idx⟩
  · intro b q' home
    by_cases ba : b = a
    · subst ba
      simp only [Rings.put, Function.update_self, Option.some_inj] at home ⊢
      subst home
      rw [Function.update_self]
      exact ⟨((h.valid q).holds_push room).2 (.inr rfl), Function.update_self ..⟩
    · simp only [Rings.put, Function.update_of_ne ba] at home ⊢
      obtain ⟨holds, at_idx⟩ := h.seat b q' home
      by_cases e : q' = q
      · subst e
        rw [Function.update_self]
        refine ⟨((h.valid q').holds_push room).2 (.inl holds), ?_⟩
        exact (Function.update_of_ne (past holds) _ _).trans at_idx
      · rw [Function.update_of_ne e]
        exact ⟨holds, at_idx⟩

section Count
variable [Fintype α]

omit [DecidableEq α] in
theorem Seated.card_home (h : t.Seated n) (q : κ) :
    (Finset.univ.filter fun a => t.home a = some q).card = (t.ring q).total := by
  symm
  rw [← Finset.card_range (t.ring q).total]
  refine Finset.card_nbij' (fun k => (t.ring q).ptr (wrap n ((t.ring q).fromIdx + k)))
    (fun a => offset n (t.ring q).fromIdx (t.idx a)) ?_ ?_ ?_ ?_
  · intro k lt
    have inside := ((h.valid q).holds_wrap (Finset.mem_range.1 lt)).1
    simpa using (h.held q _ inside).1
  · intro a member
    have home := (Finset.mem_filter.1 (Finset.mem_coe.1 member)).2
    exact Finset.mem_range.2 (h.seat a q home).1.2
  · intro k lt
    obtain ⟨inside, e⟩ := (h.valid q).holds_wrap (Finset.mem_range.1 lt)
    simp only [(h.held q _ inside).2, e]
  · intro a member
    have home := (Finset.mem_filter.1 (Finset.mem_coe.1 member)).2
    obtain ⟨inside, at_idx⟩ := h.seat a q home
    simp only [(h.valid q).wrap_offset inside, at_idx]

omit [DecidableEq α] in
/-- The buffers hold every element that is not out of all of them. -/
theorem Seated.total_add_out [Fintype κ] (h : t.Seated n) :
    ∑ q, (t.ring q).total + (Finset.univ.filter fun a => t.home a = none).card =
      Fintype.card α := by
  have fibres := Finset.card_eq_sum_card_fiberwise (f := t.home) (s := Finset.univ)
    (t := Finset.univ) fun a _ => Finset.mem_coe.2 (Finset.mem_univ (t.home a))
  rw [Fintype.sum_option, Finset.card_univ, add_comm] at fibres
  rw [fibres]
  congr 1
  apply Finset.sum_congr rfl
  intro q _
  rw [← h.card_home q]

omit [DecidableEq α] in
/-- An element out of all buffers leaves room in each of them. -/
theorem Seated.room (h : t.Seated n) (out : t.home a = none) (card : Fintype.card α ≤ n) (q : κ) :
    (t.ring q).total < n := by
  rw [← h.card_home q]
  refine Nat.lt_of_lt_of_le ?_ card
  apply Finset.card_lt_univ_of_notMem (x := a)
  simp [out]

end Count

end Rings
end Wave300.Lib
