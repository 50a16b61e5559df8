import Mathlib.Data.Nat.Find
import Mathlib.Logic.Function.Iterate

/-!
# The ideal reorder buffer

Elements are numbered by an unbounded counter and released in that order:

* `Buffer.release` delivers what is held for the next number, if anything, and
  moves on;
* `Buffer.put` stores an element for a number of the window;
* `Buffer.drain` releases up to the first number with nothing held, `Buffer.flush`
  up to the last number with something held.

The window, the order of the deliveries and the fact that everything delivered
lies behind the window are fields, so no other state can be built.
-/

namespace Wave300.Lib

/-- What is waiting for its turn and what has been delivered, with the numbers. -/
structure Buffer (w : Nat) (β : Type) where
  next : Nat
  held : Nat → Option β
  out : List (Nat × β)
  bounded : ∀ n x, held n = some x → next ≤ n ∧ n < next + w
  past : ∀ e ∈ out, e.1 < next
  ordered : (out.map Prod.fst).Pairwise (· < ·)

namespace Buffer

variable {w : Nat} {β : Type}

def start (w : Nat) (β : Type) (n : Nat) : Buffer w β where
  next := n
  held := fun _ => none
  out := []
  bounded := by simp
  past := by simp
  ordered := by simp

/-- The delivery the next number gives rise to. -/
def due (b : Buffer w β) : List (Nat × β) := (b.held b.next).toList.map (fun x => (b.next, x))

theorem mem_due {b : Buffer w β} {e : Nat × β} (h : e ∈ b.due) : e.1 = b.next := by
  obtain ⟨x, _, rfl⟩ := List.mem_map.mp h
  rfl

theorem due_ordered (b : Buffer w β) : (b.due.map Prod.fst).Pairwise (· < ·) := by
  unfold due
  cases b.held b.next <;> simp

def release (b : Buffer w β) : Buffer w β where
  next := b.next + 1
  held := Function.update b.held b.next none
  out := b.out ++ b.due
  bounded := by
    intro n x h
    by_cases hn : n = b.next
    · subst hn; simp at h
    · rw [Function.update_of_ne hn] at h
      have := b.bounded n x h
      omega
  past := by
    intro e he
    rcases List.mem_append.mp he with he | he
    · have := b.past e he
      omega
    · have := mem_due he
      omega
  ordered := by
    rw [List.map_append, List.pairwise_append]
    refine ⟨b.ordered, b.due_ordered, ?_⟩
    intro n hn m hm
    obtain ⟨e, he, rfl⟩ := List.mem_map.mp hn
    obtain ⟨d, hd, rfl⟩ := List.mem_map.mp hm
    rw [mem_due hd]
    exact b.past e he

/-- Slide the window forward over `k` numbers, delivering what is held for them. -/
def advance (k : Nat) (b : Buffer w β) : Buffer w β := release^[k] b

/-- Store `x` for `n`. A number outside the window has no place to be stored in. -/
def put (n : Nat) (x : β) (b : Buffer w β) : Buffer w β :=
  if h : b.next ≤ n ∧ n < b.next + w then
    { b with
      held := Function.update b.held n (some x)
      bounded := by
        intro m y hm
        by_cases e : m = n
        · subst e; exact h
        · rw [Function.update_of_ne e] at hm
          exact b.bounded m y hm }
  else b

theorem exists_gap (b : Buffer w β) : ∃ k, b.held (b.next + k) = none := by
  refine ⟨w, ?_⟩
  cases h : b.held (b.next + w) with
  | none => rfl
  | some x =>
    have := b.bounded _ x h
    omega

/-- How many numbers in a row from the next one on have something held. -/
def gap (b : Buffer w β) : Nat := Nat.find b.exists_gap

theorem exists_span (b : Buffer w β) : ∃ k, ∀ j, j < w → k ≤ j → b.held (b.next + j) = none :=
  ⟨w, fun j hj hk => absurd hk (by omega)⟩

/-- How far the last held element lies from the next number, itself included. -/
def span (b : Buffer w β) : Nat := Nat.find b.exists_span

def drain (b : Buffer w β) : Buffer w β := b.advance b.gap

def flush (b : Buffer w β) : Buffer w β := b.advance b.span

@[simp] theorem release_next (b : Buffer w β) : b.release.next = b.next + 1 := rfl

@[simp] theorem release_out (b : Buffer w β) : b.release.out = b.out ++ b.due := rfl

theorem release_held (b : Buffer w β) (n : Nat) :
    b.release.held n = if n = b.next then none else b.held n := by
  simp only [release, Function.update_apply]

theorem advance_zero (b : Buffer w β) : b.advance 0 = b := rfl

theorem advance_succ (b : Buffer w β) (k : Nat) : b.advance (k + 1) = b.release.advance k := rfl

@[simp] theorem advance_next (b : Buffer w β) (k : Nat) : (b.advance k).next = b.next + k := by
  induction k generalizing b with
  | zero => rfl
  | succ k ih => rw [advance_succ, ih, release_next]; omega

theorem put_next (b : Buffer w β) (n : Nat) (x : β) : (b.put n x).next = b.next := by
  unfold put; split <;> rfl

theorem put_out (b : Buffer w β) (n : Nat) (x : β) : (b.put n x).out = b.out := by
  unfold put; split <;> rfl

theorem put_held {b : Buffer w β} {n : Nat} (h : b.next ≤ n ∧ n < b.next + w) (x : β) (m : Nat) :
    (b.put n x).held m = if m = n then some x else b.held m := by
  unfold put
  rw [dif_pos h]
  exact Function.update_apply ..

theorem gap_eq_zero {b : Buffer w β} (h : b.held b.next = none) : b.gap = 0 := by
  rw [gap, Nat.find_eq_zero]
  exact h

/-- A held next number is one more in the row that starts after it. -/
theorem gap_release {b : Buffer w β} {x : β} (h : b.held b.next = some x) :
    b.gap = b.release.gap + 1 := by
  have spec := Nat.find_spec b.release.exists_gap
  have here := Nat.find_spec b.exists_gap
  change b.held (b.next + b.gap) = none at here
  change b.release.held (b.release.next + b.release.gap) = none at spec
  have pos : b.gap ≠ 0 := by
    intro h0
    rw [h0, Nat.add_zero, h] at here
    cases here
  rw [release_held, release_next, if_neg (by omega)] at spec
  have le : b.gap ≤ b.release.gap + 1 := by
    apply Nat.find_min' b.exists_gap
    rw [← spec]
    congr 1
    omega
  have ge : b.release.gap ≤ b.gap - 1 := by
    apply Nat.find_min' b.release.exists_gap
    rw [release_held, release_next, if_neg (by omega), ← here]
    congr 1
    omega
  omega

theorem gap_le (b : Buffer w β) : b.gap ≤ w := by
  apply Nat.find_min' b.exists_gap
  cases h : b.held (b.next + w) with
  | none => rfl
  | some x =>
    have := b.bounded _ x h
    omega

theorem span_le (b : Buffer w β) : b.span ≤ w :=
  Nat.find_min' b.exists_span (fun j hj hk => absurd hk (by omega))

theorem held_of_span_le {b : Buffer w β} {n : Nat} (h : b.next + b.span ≤ n) : b.held n = none := by
  cases hn : b.held n with
  | none => rfl
  | some x =>
    have bound := b.bounded n x hn
    have spec := Nat.find_spec b.exists_span (n - b.next) (by omega)
      (show b.span ≤ n - b.next by omega)
    rw [show b.next + (n - b.next) = n by omega, hn] at spec
    cases spec

theorem span_eq_zero_iff {b : Buffer w β} : b.span = 0 ↔ ∀ n, b.held n = none := by
  constructor
  · intro h n
    cases hn : b.held n with
    | none => rfl
    | some x =>
      have bound := b.bounded n x hn
      have away := held_of_span_le (b := b) (n := n) (by omega)
      rw [hn] at away
      cases away
  · intro h
    rw [span, Nat.find_eq_zero]
    exact fun j _ _ => h _

/-- While something is held, moving on by one shortens the span by one. -/
theorem span_release {b : Buffer w β} {n : Nat} {x : β} (h : b.held n = some x) :
    b.span = b.release.span + 1 := by
  have pos : b.span ≠ 0 := by
    intro h0
    have none := span_eq_zero_iff.mp h0 n
    rw [h] at none
    cases none
  have le : b.span ≤ b.release.span + 1 := by
    apply Nat.find_min' b.exists_span
    intro j hj hk
    have away := held_of_span_le (b := b.release) (n := b.next + j) (by rw [release_next]; omega)
    rwa [release_held, if_neg (by omega)] at away
  have ge : b.release.span ≤ b.span - 1 := by
    apply Nat.find_min' b.release.exists_span
    intro j _ hk
    rw [release_held, release_next, if_neg (by omega)]
    exact held_of_span_le (by omega)
  omega

/-- Nothing is waiting. -/
def Empty (b : Buffer w β) : Prop := ∀ n, b.held n = none

theorem Empty.advance {b : Buffer w β} (h : b.Empty) (k : Nat) :
    (b.advance k).Empty ∧ (b.advance k).out = b.out := by
  induction k generalizing b with
  | zero => exact ⟨h, rfl⟩
  | succ k ih =>
    have released : b.release.Empty := by
      intro n
      rw [release_held]
      split
      · rfl
      · exact h n
    have out : b.release.out = b.out := by
      simp only [release, due, h b.next, Option.toList_none, List.map_nil, List.append_nil]
    rw [advance_succ]
    exact ⟨(ih released).1, (ih released).2.trans out⟩

/-- What comes into an empty buffer at its next number goes out at once. -/
theorem Empty.drain_put {b : Buffer w β} (h : b.Empty) (window : 0 < w) (x : β) :
    (b.put b.next x).drain.Empty ∧ (b.put b.next x).drain.next = b.next + 1 ∧
      (b.put b.next x).drain.out = b.out ++ [(b.next, x)] := by
  have held := put_held (x := x) (b := b) ⟨Nat.le_refl b.next, Nat.lt_add_of_pos_right window⟩
  have next : (b.put b.next x).next = b.next := put_next b b.next x
  have here : (b.put b.next x).held (b.put b.next x).next = some x := by
    rw [next, held, if_pos rfl]
  have empty : (b.put b.next x).release.Empty := by
    intro n
    rw [release_held, next, held, h n]
    split <;> rfl
  have stop : (b.put b.next x).drain = (b.put b.next x).release := by
    rw [drain, gap_release here, gap_eq_zero (empty _)]
    rfl
  rw [stop]
  refine ⟨empty, by rw [release_next, next], ?_⟩
  rw [release_out, due, here, next, put_out]
  rfl

/-- `P` holds of everything held and delivered, at its number. -/
structure Carries (P : Nat → β → Prop) (b : Buffer w β) : Prop where
  held : ∀ n x, b.held n = some x → P n x
  out : ∀ e ∈ b.out, P e.1 e.2

variable {P : Nat → β → Prop} {b : Buffer w β}

theorem Carries.start (n : Nat) : Carries P (start w β n) where
  held := by rintro n x ⟨⟩
  out := by rintro e ⟨⟩

theorem Carries.release (h : Carries P b) : Carries P b.release where
  held n x here := by
    rw [release_held] at here
    split at here
    · cases here
    · exact h.held n x here
  out e here := by
    obtain here | here := List.mem_append.1 here
    · exact h.out e here
    · obtain ⟨x, due, rfl⟩ := List.mem_map.1 here
      exact h.held b.next x (Option.mem_toList.1 due)

theorem Carries.advance (h : Carries P b) (k : Nat) : Carries P (b.advance k) := by
  induction k generalizing b with
  | zero => exact h
  | succ k ih => exact ih h.release

theorem Carries.put (h : Carries P b) {n : Nat} {x : β} (new : P n x) : Carries P (b.put n x) := by
  by_cases inside : b.next ≤ n ∧ n < b.next + w
  · constructor
    case held =>
      intro m y here
      rw [put_held inside] at here
      split at here
      case isTrue same =>
        subst same
        cases here
        exact new
      case isFalse => exact h.held m y here
    case out => rw [put_out]; exact h.out
  · rwa [Buffer.put, dif_neg inside]

end Buffer

end Wave300.Lib
