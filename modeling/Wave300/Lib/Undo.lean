import Mathlib.Algebra.BigOperators.Group.Finset.Basic
import Mathlib.Algebra.Order.Group.Multiset
import Mathlib.Algebra.Order.Sub.Basic

/-!
# Stages that are undone

A long operation in stages, each of which may be left out, is made of repetitions, and may fail at
any of them. A plan says what is to be undone: the stage done last comes first in it, and the
repetitions of one stage in the order in which they were made. An attempt follows the plan when a
stage fails, so that it leaves nothing behind.
-/

namespace Wave300.Lib

structure Stage (σ : Type*) where
  wanted : σ → Bool
  times : Nat
  act : Nat → σ → σ × Bool
  undo : Nat → σ → σ

abbrev Plan (σ : Type*) := List (σ → σ)

/-- What was done before it ended, what is to be undone, and whether all went well. -/
structure Progress (σ : Type*) where
  state : σ
  plan : Plan σ
  ok : Bool

/-- Everything that is planned is undone. -/
def Plan.follow {σ : Type*} (plan : Plan σ) (s : σ) : σ := plan.foldl (fun s f => f s) s

namespace Stage

variable {σ : Type*}

/-- The first `n` repetitions. -/
def repetitions (st : Stage σ) (n : Nat) : Plan σ := (List.range n).map st.undo

/-- `left` more repetitions after `n` of them. -/
def repeat' (st : Stage σ) (plan : Plan σ) : Nat → Nat → σ → Progress σ
  | _, 0, s => ⟨s, st.repetitions st.times ++ plan, true⟩
  | n, left + 1, s =>
    if (st.act n s).2 then st.repeat' plan (n + 1) left (st.act n s).1
    else ⟨(st.act n s).1, st.repetitions n ++ plan, false⟩

def perform : List (Stage σ) → Plan σ → σ → Progress σ
  | [], plan, s => ⟨s, plan, true⟩
  | st :: l, plan, s =>
    if st.wanted s then
      let r := st.repeat' plan 0 st.times s
      if r.ok then perform l r.plan r.state else r
    else perform l plan s

/-- All stages are made, or none. -/
def attempt (l : List (Stage σ)) (s : σ) : Progress σ :=
  let r := perform l [] s
  if r.ok then r else ⟨r.plan.follow r.state, [], false⟩

end Stage

@[simp] theorem Plan.follow_nil {σ : Type*} (s : σ) : Plan.follow [] s = s := rfl

@[simp] theorem Plan.follow_cons {σ : Type*} (f : σ → σ) (plan : Plan σ) (s : σ) :
    Plan.follow (f :: plan) s = Plan.follow plan (f s) := rfl

theorem Plan.follow_append {σ : Type*} (plan plan' : Plan σ) (s : σ) :
    Plan.follow (plan ++ plan') s = plan'.follow (plan.follow s) := List.foldl_append

section Balance
variable {σ ρ : Type*} [DecidableEq ρ] {held : σ → Multiset ρ} {good : σ → Prop}

/-- Undoing what is planned gives back `m`, which is held, and nothing goes wrong meanwhile. -/
def Plan.Returns (held : σ → Multiset ρ) (good : σ → Prop) : Plan σ → Multiset ρ → Prop
  | [], m => m = 0
  | f :: plan, m => ∃ r m', m = r + m' ∧
      (∀ s, good s → r ≤ held s → good (f s) ∧ held (f s) = held s - r) ∧
      Plan.Returns held good plan m'

theorem Plan.Returns.follow {plan : Plan σ} {m : Multiset ρ} {s : σ}
    (h : plan.Returns held good m) (fine : good s) (has : m ≤ held s) :
    good (plan.follow s) ∧ held (plan.follow s) = held s - m := by
  induction plan generalizing s m with
  | nil =>
    cases h
    exact ⟨fine, (tsub_zero _).symm⟩
  | cons f plan ih =>
    obtain ⟨r, m', rfl, first, rest⟩ := h
    obtain ⟨fine', less⟩ := first s fine (le_trans (Multiset.le_add_right r m') has)
    have still : m' ≤ held (f s) := by
      rw [less]
      exact le_tsub_of_add_le_left has
    obtain ⟨fine'', less'⟩ := ih rest fine' still
    exact ⟨fine'', by rw [follow_cons, less', less, tsub_tsub]⟩

theorem Plan.Returns.append {plan plan' : Plan σ} {m m' : Multiset ρ}
    (h : plan.Returns held good m) (h' : plan'.Returns held good m') :
    (plan ++ plan').Returns held good (m + m') := by
  induction plan generalizing m with
  | nil =>
    cases h
    rwa [List.nil_append, zero_add]
  | cons f plan ih =>
    obtain ⟨r, rest, rfl, first, later⟩ := h
    exact ⟨r, rest + m', add_assoc r rest m', first, ih later⟩

/-- A stage whose repetitions each take something, of which a repetition that fails keeps nothing
and one that is undone gives it back. -/
structure Stage.Balanced (st : Stage σ) (held : σ → Multiset ρ) (good : σ → Prop)
    (takes : Nat → Multiset ρ) : Prop where
  done : ∀ n s, good s → (st.act n s).2 = true →
    good (st.act n s).1 ∧ held (st.act n s).1 = takes n + held s
  failed : ∀ n s, good s → (st.act n s).2 = false →
    good (st.act n s).1 ∧ held (st.act n s).1 = held s
  undone : ∀ n s, good s → takes n ≤ held s →
    good (st.undo n s) ∧ held (st.undo n s) = held s - takes n

/-- What is held is what was held before and what the plan gives back. -/
def Progress.Accounted (r : Progress σ) (held : σ → Multiset ρ) (good : σ → Prop)
    (before : Multiset ρ) : Prop :=
  good r.state ∧ ∃ m, r.plan.Returns held good m ∧ held r.state = m + before

namespace Stage

variable {st : Stage σ} {takes : Nat → Multiset ρ} {l : List (Stage σ)} {plan : Plan σ} {s : σ}
  {before : Multiset ρ}

theorem Balanced.repetitions (h : st.Balanced held good takes) (n : Nat) :
    (st.repetitions n).Returns held good (∑ i ∈ Finset.range n, takes i) := by
  induction n with
  | zero => rfl
  | succ n ih =>
    rw [Stage.repetitions, List.range_succ, List.map_append, Finset.sum_range_succ]
    apply ih.append
    exact ⟨takes n, 0, (add_zero _).symm, h.undone n, rfl⟩

theorem Balanced.repeat' (h : st.Balanced held good takes) (n left : Nat)
    (all : n + left = st.times) (fine : good s) {m : Multiset ρ}
    (owed : plan.Returns held good m)
    (has : held s = (∑ i ∈ Finset.range n, takes i) + m + before) :
    (st.repeat' plan n left s).Accounted held good before := by
  induction left generalizing n s with
  | zero =>
    refine ⟨fine, _, (h.repetitions st.times).append owed, ?_⟩
    rw [← all, Nat.add_zero]
    exact has
  | succ left ih =>
    rw [Stage.repeat']
    split
    case isTrue ok =>
      obtain ⟨fine', more⟩ := h.done n s fine ok
      apply ih (n + 1) (by omega) fine'
      rw [more, has, Finset.sum_range_succ, add_comm (∑ i ∈ Finset.range n, takes i) (takes n),
        add_assoc, add_assoc, add_assoc]
    case isFalse failed =>
      obtain ⟨fine', same⟩ := h.failed n s fine (Bool.eq_false_iff.2 failed)
      exact ⟨fine', _, (h.repetitions n).append owed, by rw [same, has]⟩

theorem Balanced.perform (plan : Plan σ)
    (h : ∀ st ∈ l, ∃ takes, st.Balanced held good takes) (fine : good s)
    {m : Multiset ρ} (owed : plan.Returns held good m) (has : held s = m + before) :
    (Stage.perform l plan s).Accounted held good before := by
  induction l generalizing s plan m with
  | nil => exact ⟨fine, m, owed, has⟩
  | cons st l ih =>
    obtain ⟨takes, balanced⟩ := h st List.mem_cons_self
    have rest := fun st mem => h st (List.mem_cons_of_mem _ mem)
    rw [Stage.perform]
    split
    case isTrue =>
      have here : (st.repeat' plan 0 st.times s).Accounted held good before :=
        balanced.repeat' 0 st.times (Nat.zero_add _) fine owed (by simpa using has)
      dsimp only
      split
      case isTrue =>
        obtain ⟨fine', m', owed', has'⟩ := here
        exact ih _ rest fine' owed' has'
      case isFalse => exact here
    case isFalse => exact ih _ rest fine owed has

/-- An attempt that fails leaves what was held, and what one that went well took is what its plan
gives back. -/
theorem Balanced.attempt (h : ∀ st ∈ l, ∃ takes, st.Balanced held good takes) (fine : good s) :
    good (Stage.attempt l s).state ∧
    ((Stage.attempt l s).ok = false → held (Stage.attempt l s).state = held s) ∧
    ((Stage.attempt l s).ok = true → ∃ m, (Stage.attempt l s).plan.Returns held good m ∧
      held (Stage.attempt l s).state = m + held s) := by
  obtain ⟨fine', m, owed, has⟩ := Balanced.perform [] h fine rfl (zero_add (held s)).symm
  cases all : (Stage.perform l [] s).ok with
  | true =>
    rw [Stage.attempt, if_pos all]
    refine ⟨fine', fun failed => ?_, fun _ => ⟨m, owed, has⟩⟩
    rw [all] at failed
    cases failed
  | false =>
    rw [Stage.attempt, if_neg (by rw [all]; decide)]
    obtain ⟨fine'', less⟩ := owed.follow fine' (by rw [has]; exact Multiset.le_add_right m _)
    refine ⟨fine'', fun _ => ?_, nofun⟩
    rw [less, has, add_tsub_cancel_left]

end Stage
end Balance

/-! ## Phases -/

section Phases
variable {σ : Type*} {st : Stage σ} {l : List (Stage σ)} {plan : Plan σ} {s : σ}

/-- A stage that leads from `P` to `Q`, while undoing it leads from `Q'` to `P'`, which also holds
when the stage fails. -/
structure Stage.Rung (st : Stage σ) (P P' Q Q' : σ → Prop) : Prop where
  always : ∀ s, P s → st.wanted s = true
  once : st.times = 1
  done : ∀ s, P s → (st.act 0 s).2 = true → Q (st.act 0 s).1
  failed : ∀ s, P s → (st.act 0 s).2 = false → P' (st.act 0 s).1
  undone : ∀ s, Q' s → P' (st.undo 0 s)

/-- Stages that lead from one phase to the next, and back. -/
inductive Stage.Ladder : List (Stage σ) → (P P' Q Q' : σ → Prop) → Prop where
  | nil (P P' : σ → Prop) : Ladder [] P P' P P'
  | cons {st : Stage σ} {l : List (Stage σ)} {P P' R R' Q Q' : σ → Prop} :
    st.Rung P P' R R' → Ladder l R R' Q Q' → Ladder (st :: l) P P' Q Q'

namespace Stage

variable {P P' Q Q' start : σ → Prop}

theorem Ladder.perform (plan : Plan σ) (h : Ladder l P P' Q Q') (here : P s)
    (back : ∀ s, P' s → start (plan.follow s)) :
    ((Stage.perform l plan s).ok = false →
      start ((Stage.perform l plan s).plan.follow (Stage.perform l plan s).state)) ∧
    ((Stage.perform l plan s).ok = true → Q (Stage.perform l plan s).state ∧
      ∀ s', Q' s' → start ((Stage.perform l plan s).plan.follow s')) := by
  induction h generalizing plan s with
  | nil => exact ⟨nofun, fun _ => ⟨here, back⟩⟩
  | @cons st l _ _ _ _ _ _ rung _ ih =>
    have step : Stage.perform (st :: l) plan s =
        if (st.act 0 s).2 then Stage.perform l (st.undo 0 :: plan) (st.act 0 s).1
        else ⟨(st.act 0 s).1, plan, false⟩ := by
      rw [Stage.perform, if_pos (rung.always s here), rung.once, Stage.repeat']
      cases (st.act 0 s).2 with
      | true => simp [Stage.repeat', repetitions, rung.once]
      | false => simp [repetitions]
    cases act : (st.act 0 s).2 with
    | true =>
      rw [step, act, if_pos rfl]
      exact ih _ (rung.done s here act) fun s' there => back _ (rung.undone s' there)
    | false =>
      rw [step, act, if_neg (by decide)]
      exact ⟨fun _ => back _ (rung.failed s here act), nofun⟩

/-- An attempt ends at the top, from where its plan leads back, or where it began. -/
theorem Ladder.attempt (h : Ladder l P P' Q Q') (here : P s) :
    ((Stage.attempt l s).ok = false → P' (Stage.attempt l s).state) ∧
    ((Stage.attempt l s).ok = true → Q (Stage.attempt l s).state ∧
      ∀ s', Q' s' → P' ((Stage.attempt l s).plan.follow s')) := by
  have all := h.perform [] here fun _ (there : P' _) => there
  rw [Stage.attempt]
  split
  case isTrue ok => exact ⟨fun no => absurd (ok.symm.trans no) (by decide), all.2⟩
  case isFalse no => exact ⟨fun _ => all.1 (Bool.eq_false_iff.2 no), nofun⟩

end Stage
end Phases

end Wave300.Lib
