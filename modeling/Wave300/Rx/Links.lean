import Wave300.Rx.Subframes

/-!
# The chain of subframe buffers

Where `sub_frame` leads: the clones are linked in their order, with the original buffer behind them
when it took the last subframe, and before them when the parsing failed.
-/

namespace Wave300.Rx

open Lib

variable {s : Parse} {sub : Buf → Option Buf} {tail : Option Buf} {l : List Buf} {k : Nat}

/-- The buffers that are reached from one over `sub_frame`. -/
inductive Chain (sub : Buf → Option Buf) : Buf → List Buf → Prop where
  | last {b : Buf} : sub b = none → Chain sub b [b]
  | next {b c : Buf} {l : List Buf} : sub b = some c → Chain sub c l → Chain sub b (b :: l)

/-- What follows the last clone. -/
def Follows (sub : Buf → Option Buf) : Option Buf → List Buf → Prop
  | none, l => l = []
  | some b, l => Chain sub b l

/-- The first `k` clones. -/
def clones (k : Nat) : List Buf := (List.range k).map .clone

theorem chain_clones (links : ∀ i, i < k →
      sub (.clone i) = if i + 1 < k then some (.clone (i + 1)) else tail)
    (follows : Follows sub tail l) {j : Nat} (below : j < k) :
    Chain sub (.clone j) ((List.range' j (k - j)).map .clone ++ l) := by
  induction left : k - j generalizing j with
  | zero => omega
  | succ m ih =>
    rw [List.range'_succ, List.map_cons, List.cons_append]
    by_cases more : j + 1 < k
    · refine .next (c := .clone (j + 1)) ?_ (ih more (by omega))
      rw [links j below, if_pos more]
    · obtain rfl : m = 0 := by omega
      have here := links j below
      rw [if_neg more] at here
      cases tail with
      | none =>
        obtain rfl : l = [] := follows
        exact .last here
      | some b => exact .next here follows

/-- All clones, from the first. -/
theorem chain_all (sub : Buf → Option Buf) (tail : Option Buf) (links : ∀ i, i < k →
      sub (.clone i) = if i + 1 < k then some (.clone (i + 1)) else tail)
    (follows : Follows sub tail l) (some_ : 0 < k) : Chain sub (.clone 0) (clones k ++ l) := by
  have chain := chain_clones links follows some_
  rwa [Nat.sub_zero, ← List.range_eq_range'] at chain

/-- The links between the clones that were made. -/
structure Linked (s : Parse) : Prop where
  stored : s.subNbufStored =
    if s.clones.length = 0 then none else some (.clone (s.clones.length - 1))
  first : s.subNbufFirst = if s.clones.length = 0 then .original else .clone 0
  original : s.subFrame .original = none
  clone : ∀ i, i < s.clones.length →
    s.subFrame (.clone i) = if i + 1 < s.clones.length then some (.clone (i + 1)) else none
  unused : ∀ i, s.clones.length ≤ i → s.subFrame (.clone i) = none

/-- `_mtlk_update_prev_sub_nbuf`, field by field. -/
theorem update_eq (s : Parse) (nbuf : Buf) : s.updatePrevSubNbuf nbuf =
    { s with
      subFrame := fun b => if s.subNbufStored = some b then some nbuf else s.subFrame b
      subNbufFirst := if s.subNbufStored = none then nbuf else s.subNbufFirst
      subNbufStored := some nbuf } := by
  unfold Parse.updatePrevSubNbuf
  cases stored : s.subNbufStored with
  | none => simp
  | some st => simp [eq_comm]

theorem takeOriginal_eq (s : Parse) (header len : Nat) : s.takeOriginal header len =
    { s.present header with
      nbuf := s.nbuf.presented len
      subFrame := fun b => if s.subNbufStored = some b then some .original else s.subFrame b
      subNbufFirst := if s.subNbufStored = none then .original else s.subNbufFirst
      subNbufStored := some .original } := by
  simp only [Parse.takeOriginal, update_eq]
  rfl

theorem takeClone_eq (s : Parse) (header len : Nat) : s.takeClone header len =
    { s.present header with
      aMsduLen := s.aMsduLen - (padOf len : Int)
      nbuf := s.nbuf.pull (len + padOf len)
      clones := s.clones ++ [s.nbuf.presented len]
      subFrame := fun b =>
        if s.subNbufStored = some b then some (.clone s.clones.length) else s.subFrame b
      subNbufFirst := if s.subNbufStored = none then .clone s.clones.length else s.subNbufFirst
      subNbufStored := some (.clone s.clones.length) } := by
  simp only [Parse.takeClone, update_eq]
  rfl

theorem Linked.stored_clone (h : Linked s) (i : Nat) :
    s.subNbufStored = some (.clone i) ↔ i + 1 = s.clones.length := by
  rw [h.stored]
  split
  · simp only [reduceCtorEq, false_iff]
    omega
  · simp only [Option.some.injEq, Buf.clone.injEq]
    omega

theorem Linked.stored_original (h : Linked s) : s.subNbufStored ≠ some .original := by
  rw [h.stored]
  split <;> simp

theorem Linked.stored_none (h : Linked s) : s.subNbufStored = none ↔ s.clones.length = 0 := by
  rw [h.stored]
  split <;> simp_all

theorem linked_takeClone (h : Linked s) (header len : Nat) : Linked (s.takeClone header len) := by
  rw [takeClone_eq]
  constructor <;> simp only [List.length_append, List.length_singleton]
  case stored => simp
  case first =>
    simp only [h.stored_none, h.first, Nat.add_eq_zero_iff, one_ne_zero, and_false, if_false]
    split
    next none => rw [none]
    next => rfl
  case original =>
    rw [if_neg h.stored_original]
    exact h.original
  case clone =>
    intro i below
    simp only [h.stored_clone]
    by_cases last : i + 1 = s.clones.length
    · rw [if_pos last, if_pos (by omega), last]
    · rw [if_neg last]
      by_cases old : i < s.clones.length
      · rw [h.clone i old, if_pos (by omega), if_pos (by omega)]
      · rw [h.unused i (by omega), if_neg (by omega)]
  case unused =>
    intro i above
    simp only [h.stored_clone]
    rw [if_neg (by omega)]
    exact h.unused i (by omega)

/-- The original buffer took the last subframe. -/
theorem chain_takeOriginal (h : Linked s) (header len : Nat) :
    Chain (s.takeOriginal header len).subFrame (s.takeOriginal header len).subNbufFirst
      (clones s.clones.length ++ [Buf.original]) := by
  rw [takeOriginal_eq]
  simp only [h.stored_none, h.first]
  have last : Chain (fun b => if s.subNbufStored = some b then some .original else s.subFrame b)
      .original [.original] := by
    refine .last ?_
    rw [if_neg h.stored_original]
    exact h.original
  by_cases none : s.clones.length = 0
  · simp only [none, if_true]
    exact last
  · simp only [none, if_false]
    refine chain_all _ (some .original) ?_ last (Nat.pos_of_ne_zero none)
    intro i below
    simp only [h.stored_clone]
    by_cases is : i + 1 = s.clones.length
    · rw [if_pos is, if_neg (by omega)]
    · rw [if_neg is, h.clone i below, if_pos (by omega), if_pos (by omega)]

/-- The parsing failed. -/
theorem chain_onError (h : Linked s) :
    Chain s.onError.subFrame .original (.original :: clones s.clones.length) := by
  unfold Parse.onError
  by_cases none : s.clones.length = 0
  · have first : s.subNbufFirst = .original := by rw [h.first, if_pos none]
    simp only [first, ne_eq, not_true_eq_false, if_false, none]
    exact .last h.original
  · have first : s.subNbufFirst = .clone 0 := by rw [h.first, if_neg none]
    simp only [first, ne_eq, reduceCtorEq, not_false_eq_true, if_true]
    refine .next (c := .clone 0) (by simp) ?_
    have chain := chain_all (l := [])
      (fun b => if b = .original then some (.clone 0) else s.subFrame b) Option.none ?_ rfl
      (Nat.pos_of_ne_zero none)
    · rwa [List.append_nil] at chain
    · intro i below
      simp only [reduceCtorEq, if_false]
      exact h.clone i below

end Wave300.Rx
