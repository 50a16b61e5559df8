import Mathlib.Data.Multiset.Filter
import Mathlib.Data.Multiset.Range
import Mathlib.Logic.Function.Basic

/-!
# Arrays of optional entries

`contents f w` is what the first `w` entries of an array hold, with multiplicity.
-/

namespace Wave300.Lib

variable {β : Type}

def contents (f : Nat → Option β) (w : Nat) : Multiset β := (Multiset.range w).filterMap f

/-- What the entries other than `i` hold. -/
def contentsExcept (f : Nat → Option β) (w i : Nat) : Multiset β :=
  ((Multiset.range w).erase i).filterMap f

theorem filterMap_congr_of_mem {f g : Nat → Option β} (s : Multiset Nat)
    (h : ∀ i ∈ s, f i = g i) : s.filterMap f = s.filterMap g := by
  induction s using Multiset.induction with
  | empty => rfl
  | cons i s ih =>
    rw [Multiset.filterMap_cons, Multiset.filterMap_cons, h i (Multiset.mem_cons_self i s),
      ih (fun j hj => h j (Multiset.mem_cons_of_mem hj))]

theorem contentsExcept_update (f : Nat → Option β) (w i : Nat) (x : Option β) :
    contentsExcept (Function.update f i x) w i = contentsExcept f w i := by
  apply filterMap_congr_of_mem _
  intro j hj
  have ne : j ≠ i := ((Multiset.nodup_range w).mem_erase_iff.mp hj).1
  exact Function.update_of_ne ne x f

theorem contents_of_none {f : Nat → Option β} {w i : Nat} (hi : i < w) (h : f i = none) :
    contents f w = contentsExcept f w i := by
  rw [contents, ← Multiset.cons_erase (Multiset.mem_range.mpr hi),
    Multiset.filterMap_cons_none _ _ h]
  rfl

theorem contents_of_some {f : Nat → Option β} {w i : Nat} {x : β} (hi : i < w)
    (h : f i = some x) : contents f w = x ::ₘ contentsExcept f w i := by
  rw [contents, ← Multiset.cons_erase (Multiset.mem_range.mpr hi),
    Multiset.filterMap_cons_some f i _ h]
  rfl

/-- Emptying an entry takes out just what it held. -/
theorem contents_clear {f : Nat → Option β} {w i : Nat} {x : β} (hi : i < w)
    (h : f i = some x) : contents f w = x ::ₘ contents (Function.update f i none) w := by
  rw [contents_of_some hi h, contents_of_none hi (Function.update_self ..),
    contentsExcept_update]

/-- Filling an empty entry adds just what is put there. -/
theorem contents_fill {f : Nat → Option β} {w i : Nat} (x : β) (hi : i < w)
    (h : f i = none) : contents (Function.update f i (some x)) w = x ::ₘ contents f w := by
  rw [contents_of_some hi (Function.update_self ..), contentsExcept_update,
    ← contents_of_none hi h]

/-- Replacing an entry takes out what it held and adds what is put there. -/
theorem contents_replace {f : Nat → Option β} {w i : Nat} {x : β} (hi : i < w)
    (h : f i = some x) (y : β) :
    ∃ rest, contents f w = x ::ₘ rest ∧
      contents (Function.update f i (some y)) w = y ::ₘ rest := by
  refine ⟨contentsExcept f w i, contents_of_some hi h, ?_⟩
  rw [contents_of_some hi (Function.update_self ..), contentsExcept_update]

/-- Filling the next entry. -/
theorem contents_push (f : Nat → Option β) (w : Nat) (x : β) :
    contents (Function.update f w (some x)) (w + 1) = x ::ₘ contents f w := by
  rw [contents_of_some (Nat.lt_succ_self w) (Function.update_self ..), contentsExcept_update,
    contentsExcept, Multiset.range_succ, Multiset.erase_cons_head, contents]

theorem contents_eq_zero {f : Nat → Option β} {w : Nat} :
    contents f w = 0 ↔ ∀ i, i < w → f i = none := by
  constructor
  · intro h i hi
    cases hf : f i with
    | none => rfl
    | some x =>
      rw [contents_of_some hi hf] at h
      exact absurd h (Multiset.cons_ne_zero)
  · intro h
    apply Multiset.eq_zero_of_forall_notMem
    intro x hx
    obtain ⟨i, hi, hf⟩ := (Multiset.mem_filterMap f _).mp hx
    rw [h i (Multiset.mem_range.mp hi)] at hf
    cases hf

/-- The entries in use, counted by index. -/
theorem countP_contents (f : Nat → Option β) (w : Nat) (P : β → Prop) [DecidablePred P] :
    (contents f w).countP P = (List.range w).countP fun i => (f i).any fun x => P x := by
  induction w with
  | zero => rfl
  | succ w ih =>
    rw [contents, Multiset.range_succ, List.range_succ, List.countP_append, ← ih]
    cases h : f w with
    | none =>
      rw [Multiset.filterMap_cons_none _ _ h]
      simp [contents, h]
    | some x =>
      rw [Multiset.filterMap_cons_some f w _ h, Multiset.countP_cons]
      simp [contents, h]

theorem card_contents_le (f : Nat → Option β) (w : Nat) : (contents f w).card ≤ w := by
  induction w with
  | zero => simp [contents]
  | succ w ih =>
    rw [contents, Multiset.range_succ]
    cases h : f w with
    | none =>
      rw [Multiset.filterMap_cons_none _ _ h]
      exact Nat.le_succ_of_le ih
    | some x =>
      rw [Multiset.filterMap_cons_some f w _ h, Multiset.card_cons]
      exact Nat.succ_le_succ ih

/-- As many entries are in use as there are exactly if all are. -/
theorem card_contents_eq_iff {f : Nat → Option β} {w : Nat} :
    (contents f w).card = w ↔ ∀ i, i < w → f i ≠ none := by
  induction w with
  | zero => simp [contents]
  | succ w ih =>
    rw [Nat.forall_lt_succ_right, ← ih, contents, Multiset.range_succ]
    cases h : f w with
    | none =>
      have le := card_contents_le f w
      rw [Multiset.filterMap_cons_none _ _ h]
      refine iff_of_false (fun full => ?_) fun all => all.2 rfl
      rw [contents] at le
      omega
    | some x =>
      rw [Multiset.filterMap_cons_some f w _ h, Multiset.card_cons, Nat.succ_inj]
      exact ⟨fun all => ⟨all, Option.some_ne_none x⟩, fun all => all.1⟩

theorem mem_contents {f : Nat → Option β} {w : Nat} {x : β} :
    x ∈ contents f w ↔ ∃ i, i < w ∧ f i = some x := by
  simp [contents, Multiset.mem_filterMap]

/-- Entries that are all different. -/
theorem contents_nodup {f : Nat → Option β} {w : Nat}
    (distinct : ∀ i < w, ∀ j < w, ∀ x, f i = some x → f j = some x → i = j) :
    (contents f w).Nodup := by
  induction w with
  | zero => exact Multiset.nodup_zero
  | succ w ih =>
    have before := ih fun i hi j hj =>
      distinct i (Nat.lt_succ_of_lt hi) j (Nat.lt_succ_of_lt hj)
    rw [contents, Multiset.range_succ]
    cases h : f w with
    | none => rwa [Multiset.filterMap_cons_none _ _ h]
    | some x =>
      rw [Multiset.filterMap_cons_some f w _ h, Multiset.nodup_cons]
      refine ⟨fun mem => ?_, before⟩
      obtain ⟨i, hi, at_i⟩ := mem_contents.1 mem
      have same := distinct i (Nat.lt_succ_of_lt hi) w (Nat.lt_succ_self w) x at_i h
      exact absurd same (Nat.ne_of_lt hi)

/-- The first entries hold all there is exactly if they are as many. -/
theorem contents_eq_of_card {f : Nat → Option β} {k w : Nat} (le : k ≤ w)
    (card : (contents f w).card ≤ (contents f k).card) : contents f k = contents f w := by
  apply Multiset.eq_of_le_of_card_le _ card
  exact Multiset.filterMap_le_filterMap f (Multiset.range_le.2 le)

/-- The entries of an array of which all are in use. -/
theorem map_some_contents {f : Nat → Option β} {w : Nat} (full : ∀ i, i < w → f i ≠ none) :
    (contents f w).map some = (Multiset.range w).map f := by
  induction w with
  | zero => rfl
  | succ w ih =>
    obtain ⟨before, last⟩ := Nat.forall_lt_succ_right.1 full
    obtain ⟨x, used⟩ := Option.ne_none_iff_exists'.1 last
    rw [contents, Multiset.range_succ, Multiset.filterMap_cons_some f w _ used, Multiset.map_cons,
      Multiset.map_cons, used, ← ih before, contents]

/-! ## Lists by key -/

section Keys
variable {κ : Type} [DecidableEq κ] {l : List κ} {k : κ}

theorem flatMap_update_of_notMem (notMem : k ∉ l) (f : κ → List β) (x : List β) :
    l.flatMap (Function.update f k x) = l.flatMap f := by
  rw [List.flatMap, List.flatMap]
  congr 1
  apply List.map_congr_left
  intro j hj
  have ne : j ≠ k := by
    rintro rfl
    exact notMem hj
  exact Function.update_of_ne ne x f

/-- Changing the list of one key. -/
theorem flatMap_update_perm (nodup : l.Nodup) (mem : k ∈ l) (f : κ → List β) (x : List β) :
    (l.flatMap (Function.update f k x) ++ f k).Perm (l.flatMap f ++ x) := by
  induction l with
  | nil => cases mem
  | cons j l ih =>
    obtain ⟨notMem, nodup⟩ := List.nodup_cons.1 nodup
    rw [List.flatMap_cons, List.flatMap_cons]
    by_cases same : j = k
    · subst same
      rw [flatMap_update_of_notMem notMem, Function.update_self, List.append_assoc]
      exact List.perm_append_comm.trans (List.perm_append_comm.append_right x)
    · have rest := ih nodup ((List.mem_cons.1 mem).resolve_left (Ne.symm same))
      rw [Function.update_of_ne same, List.append_assoc, List.append_assoc]
      exact rest.append_left (f j)

theorem countP_flatMap_update (nodup : l.Nodup) (mem : k ∈ l) (f : κ → List β) (x : List β)
    (P : β → Bool) :
    (l.flatMap (Function.update f k x)).countP P + (f k).countP P =
      (l.flatMap f).countP P + x.countP P := by
  rw [← List.countP_append, ← List.countP_append]
  exact (flatMap_update_perm nodup mem f x).countP_eq P

end Keys

end Wave300.Lib
