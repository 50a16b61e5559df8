import Mathlib.Data.Fintype.EquivFin
import Mathlib.Logic.Function.Basic

/-!
# Buckets

A bucket is a row of slots, each empty or with the name of a member. It holds each of its members
exactly once.
-/

namespace Wave300.Lib

variable {κ ι : Type*}

structure Holds (bucket : κ → Option ι) (members : ι → Prop) : Prop where
  sound : ∀ i x, bucket i = some x → members x
  complete : ∀ x, members x → ∃ i, bucket i = some x
  unique : ∀ i j x, bucket i = some x → bucket j = some x → i = j

theorem Holds.congr {bucket : κ → Option ι} {members members' : ι → Prop}
    (h : Holds bucket members) (same : ∀ x, members x ↔ members' x) : Holds bucket members' where
  sound i x at' := (same x).1 (h.sound i x at')
  complete x mem := h.complete x ((same x).2 mem)
  unique := h.unique

theorem holds_empty : Holds (fun _ : κ => (none : Option ι)) (fun _ => False) where
  sound := nofun
  complete := nofun
  unique := nofun

/-- As long as there is somebody who is no member, a bucket with a slot for everybody has room. -/
theorem Holds.exists_empty [Fintype κ] [Fintype ι] {bucket : κ → Option ι} {members : ι → Prop}
    (h : Holds bucket members) (room : Fintype.card ι ≤ Fintype.card κ) {x : ι}
    (free : ¬ members x) : ∃ i, bucket i = none := by
  by_contra none
  have full : ∀ i, ∃ y, bucket i = some y := fun i =>
    Option.ne_none_iff_exists'.1 fun empty => none ⟨i, empty⟩
  choose name at' using full
  have inj : Function.Injective name := by
    intro i j same
    exact h.unique i j (name i) (at' i) (same ▸ at' j)
  have surj : Function.Surjective name :=
    ((Fintype.bijective_iff_injective_and_card name).2
      ⟨inj, Nat.le_antisymm (Fintype.card_le_of_injective name inj) room⟩).2
  obtain ⟨i, rfl⟩ := surj x
  exact free (h.sound i _ (at' i))

/-- A member is cleared from the bucket. -/
theorem Holds.clear [DecidableEq ι] {bucket cleared : κ → Option ι} {members : ι → Prop}
    (h : Holds bucket members) {x : ι}
    (clear : ∀ i, cleared i = if bucket i = some x then none else bucket i) :
    Holds cleared (fun y => members y ∧ y ≠ x) := by
  have was : ∀ i y, cleared i = some y → bucket i = some y ∧ y ≠ x := by
    intro i y at'
    rw [clear] at at'
    split at at'
    case isTrue => cases at'
    case isFalse kept =>
      refine ⟨at', ?_⟩
      rintro rfl
      exact kept at'
  constructor
  case sound =>
    intro i y at'
    exact ⟨h.sound i y (was i y at').1, (was i y at').2⟩
  case complete =>
    rintro y ⟨mem, ne⟩
    obtain ⟨i, at'⟩ := h.complete y mem
    refine ⟨i, ?_⟩
    rw [clear, at', if_neg]
    rintro ⟨⟩
    exact ne rfl
  case unique =>
    intro i j y ati atj
    exact h.unique i j y (was i y ati).1 (was j y atj).1

variable [DecidableEq κ]

/-- A new member is put into an empty slot. -/
theorem Holds.insert {bucket : κ → Option ι} {members : ι → Prop} (h : Holds bucket members) {i : κ}
    (empty : bucket i = none) {x : ι} (new : ¬ members x) :
    Holds (Function.update bucket i (some x)) (fun y => y = x ∨ members y) where
  sound j y at' := by
    by_cases here : j = i
    · subst here
      rw [Function.update_self, Option.some.injEq] at at'
      exact .inl at'.symm
    · rw [Function.update_of_ne here] at at'
      exact .inr (h.sound j y at')
  complete y mem := by
    rcases mem with rfl | mem
    · exact ⟨i, Function.update_self ..⟩
    · obtain ⟨j, at'⟩ := h.complete y mem
      have ne : j ≠ i := by
        rintro rfl
        rw [empty] at at'
        cases at'
      exact ⟨j, (Function.update_of_ne ne ..).trans at'⟩
  unique j k y atj atk := by
    have here : ∀ j, Function.update bucket i (some x) j = some y → (j = i ↔ y = x) := by
      intro j at'
      by_cases same : j = i
      · subst same
        rw [Function.update_self, Option.some.injEq] at at'
        exact iff_of_true rfl at'.symm
      · rw [Function.update_of_ne same] at at'
        refine iff_of_false same ?_
        rintro rfl
        exact new (h.sound j y at')
    by_cases same : y = x
    · rw [(here j atj).2 same, (here k atk).2 same]
    · rw [Function.update_of_ne fun eq => same ((here j atj).1 eq)] at atj
      rw [Function.update_of_ne fun eq => same ((here k atk).1 eq)] at atk
      exact h.unique j k y atj atk

/-- What is in one slot is moved to an empty one. -/
theorem Holds.move {bucket : κ → Option ι} {members : ι → Prop} (h : Holds bucket members)
    {hole : κ} (empty : bucket hole = none) (other : κ) :
    Holds (Function.update (Function.update bucket hole (bucket other)) other none) members := by
  by_cases same : hole = other
  case pos =>
    subst same
    rw [Function.update_idem, ← empty, Function.update_eq_self]
    exact h
  case neg =>
    -- Where a name is now says where it was.
    have was : ∀ i x, Function.update (Function.update bucket hole (bucket other)) other none i =
        some x → i = hole ∧ bucket other = some x ∨ i ≠ hole ∧ i ≠ other ∧ bucket i = some x := by
      intro i x at'
      by_cases last : i = other
      · subst last
        rw [Function.update_self] at at'
        cases at'
      rw [Function.update_of_ne last] at at'
      by_cases first : i = hole
      · subst first
        rw [Function.update_self] at at'
        exact .inl ⟨rfl, at'⟩
      · rw [Function.update_of_ne first] at at'
        exact .inr ⟨first, last, at'⟩
    constructor
    case sound =>
      intro i x at'
      rcases was i x at' with ⟨-, at'⟩ | ⟨-, -, at'⟩
      · exact h.sound _ x at'
      · exact h.sound _ x at'
    case complete =>
      intro x mem
      obtain ⟨i, at'⟩ := h.complete x mem
      by_cases last : i = other
      · subst last
        refine ⟨hole, ?_⟩
        rw [Function.update_of_ne same, Function.update_self, at']
      · have ne : i ≠ hole := by
          rintro rfl
          rw [empty] at at'
          cases at'
        refine ⟨i, ?_⟩
        rw [Function.update_of_ne last, Function.update_of_ne ne, at']
    case unique =>
      intro i j x ati atj
      rcases was i x ati with ⟨rfl, hi⟩ | ⟨-, ne, hi⟩
      · rcases was j x atj with ⟨rfl, -⟩ | ⟨-, ne, hj⟩
        · rfl
        · exact absurd (h.unique _ _ x hj hi) ne
      · rcases was j x atj with ⟨rfl, hj⟩ | ⟨-, -, hj⟩
        · exact absurd (h.unique _ _ x hi hj) ne
        · exact h.unique i j x hi hj

end Wave300.Lib
