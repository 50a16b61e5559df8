import Mathlib.Algebra.BigOperators.Fin
import Mathlib.Algebra.Order.BigOperators.Group.Finset

/-!
# Runs, switches and totals

What the invariants of a state machine are stated with: the states its runs reach, a
switch that a log of events turns on and off in turn, what holds of each entry of a log given
the entries before it, and the total over a table of which one entry changes at a time.
-/

namespace Wave300.Lib

section Runs
variable {σ ι : Type*} {step : σ → ι → σ} {ok : σ → ι → Prop} {s₀ s : σ}

/-- The states reached from `s₀` by steps each allowed where it is taken. -/
inductive Runs (step : σ → ι → σ) (ok : σ → ι → Prop) (s₀ : σ) : σ → Prop where
  | start : Runs step ok s₀ s₀
  | step {s : σ} (i : ι) : Runs step ok s₀ s → ok s i → Runs step ok s₀ (step s i)

theorem Runs.invariant {P : σ → Prop} (h : Runs step ok s₀ s) (start : P s₀)
    (keep : ∀ s i, P s → ok s i → P (step s i)) : P s := by
  induction h with
  | start => exact start
  | step i _ allowed ih => exact keep _ i ih allowed

theorem Runs.mono {ok' : σ → ι → Prop} (h : Runs step ok s₀ s)
    (weaker : ∀ s i, ok s i → ok' s i) : Runs step ok' s₀ s := by
  induction h with
  | start => exact .start
  | step i _ allowed ih => exact .step i ih (weaker _ i allowed)

theorem Runs.trans {t : σ} (h : Runs step ok s₀ s) (h' : Runs step ok s t) :
    Runs step ok s₀ t := by
  induction h' with
  | start => exact h
  | step i _ allowed ih => exact .step i ih allowed

/-- A goal is reached when until then some step takes from a measure. -/
theorem Runs.reaches {P goal : σ → Prop} (measure : σ → Nat) (s : σ) (here : P s)
    (keep : ∀ s i, P s → ok s i → P (step s i))
    (progress : ∀ s, P s → ¬ goal s → ∃ i, ok s i ∧ measure (step s i) < measure s) :
    ∃ t, Runs step ok s t ∧ goal t := by
  induction left : measure s using Nat.strong_induction_on generalizing s with
  | _ m ih =>
    by_cases done : goal s
    · exact ⟨s, .start, done⟩
    · obtain ⟨i, allowed, less⟩ := progress s here done
      obtain ⟨t, run, reached⟩ := ih _ (left ▸ less) _ (keep s i here allowed) rfl
      exact ⟨t, (Runs.step i .start allowed).trans run, reached⟩

/-- Every step of a list is allowed where it is taken. -/
def Allowed (step : σ → ι → σ) (ok : σ → ι → Prop) : σ → List ι → Prop
  | _, [] => True
  | s, i :: l => ok s i ∧ Allowed step ok (step s i) l

instance [∀ s i, Decidable (ok s i)] : ∀ (s : σ) (l : List ι), Decidable (Allowed step ok s l)
  | _, [] => .isTrue trivial
  | s, i :: l => have := instDecidableAllowed (step s i) l; inferInstanceAs (Decidable (_ ∧ _))

/-- Two conditions on the steps say the same of a list of them when they agree in the states that
the first leads to. -/
theorem allowed_iff {ok' : σ → ι → Prop} {inv : σ → Prop} {l : List ι} (start : inv s)
    (same : ∀ s i, inv s → (ok s i ↔ ok' s i)) (keep : ∀ s i, inv s → ok s i → inv (step s i)) :
    Allowed step ok s l ↔ Allowed step ok' s l := by
  induction l generalizing s with
  | nil => exact Iff.rfl
  | cons i l ih =>
    constructor
    · rintro ⟨here, rest⟩
      exact ⟨(same s i start).1 here, (ih (keep s i start here)).1 rest⟩
    · rintro ⟨here, rest⟩
      have first := (same s i start).2 here
      exact ⟨first, (ih (keep s i start first)).2 rest⟩

theorem allowed_and {ok' : σ → ι → Prop} {l : List ι} :
    Allowed step (fun s i => ok s i ∧ ok' s i) s l ↔
      Allowed step ok s l ∧ Allowed step ok' s l := by
  induction l generalizing s with
  | nil => exact ⟨fun _ => ⟨trivial, trivial⟩, fun _ => trivial⟩
  | cons i l ih => simp only [Allowed, ih, and_and_and_comm]

/-- The same of lists in which every step is allowed for another reason already. -/
theorem Allowed.iff {ok' given : σ → ι → Prop} {inv : σ → Prop} {l : List ι}
    (h : Allowed step given s l) (start : inv s)
    (same : ∀ s i, inv s → given s i → (ok s i ↔ ok' s i))
    (keep : ∀ s i, inv s → given s i → ok s i → inv (step s i)) :
    Allowed step ok s l ↔ Allowed step ok' s l := by
  have both : Allowed step (fun s i => given s i ∧ ok s i) s l ↔
      Allowed step (fun s i => given s i ∧ ok' s i) s l :=
    allowed_iff start (fun s i here => and_congr_right (same s i here))
      fun s i here both => keep s i here both.1 both.2
  rw [allowed_and, allowed_and] at both
  constructor
  · exact fun right => (both.1 ⟨h, right⟩).2
  · exact fun right => (both.2 ⟨h, right⟩).2

theorem Runs.of_allowed {l : List ι} (h : Allowed step ok s l) :
    Runs step ok s (l.foldl step s) := by
  induction l generalizing s with
  | nil => exact .start
  | cons i l ih => exact (Runs.step i .start h.1).trans (ih h.2)

end Runs

section Switch
variable {β : Type*} (on off : β → Bool)

/-- One event on a switch. Turning on what is on, or off what is off, is an error. -/
def toggle (b : Bool) (x : β) : Option Bool :=
  if on x then (if b then none else some true)
  else if off x then (if b then some false else none)
  else some b

/-- The position of the switch after a log, if it was turned on and off in turn. -/
def toggles (l : List β) : Option Bool := l.foldlM (toggle on off) false

theorem toggles_concat (l : List β) (x : β) :
    toggles on off (l ++ [x]) = (toggles on off l).bind (toggle on off · x) := by
  rw [toggles, List.foldlM_append]
  refine congrArg (Option.bind (toggles on off l)) (funext fun b => ?_)
  simp only [List.foldlM_cons, List.foldlM_nil, bind_pure]

end Switch

section Each
variable {α : Type*} {P : List α → α → Prop} {l new : List α}

/-- `P` holds of every entry of a list, given the entries before it. -/
def Each (P : List α → α → Prop) (l : List α) : Prop :=
  ∀ pre x post, l = pre ++ x :: post → P pre x

theorem Each.nil : Each P [] := by
  intro pre x post e
  cases pre <;> cases e

theorem Each.concat {x : α} (h : Each P l) (last : P l x) : Each P (l ++ [x]) := by
  intro pre y post e
  obtain rfl | ⟨post', z, rfl⟩ := List.eq_nil_or_concat post
  · obtain ⟨rfl, rfl⟩ := List.append_singleton_inj.1 e
    exact last
  · rw [List.concat_eq_append, ← List.cons_append, ← List.append_assoc] at e
    exact h pre y post' (List.append_singleton_inj.1 e).1

theorem Each.singleton {x : α} (h : P [] x) : Each P [x] := Each.nil.concat h

theorem Each.append {l' : List α} (h : Each P l) (h' : Each (fun pre => P (l ++ pre)) l') :
    Each P (l ++ l') := by
  intro pre x post e
  obtain ⟨m, rfl, rest⟩ | ⟨m, rfl, rest⟩ := List.append_eq_append_iff.1 e
  · exact h' m x post rest
  · cases m with
    | nil =>
      have first := h' [] x post rest.symm
      simpa using first
    | cons y m =>
      obtain ⟨rfl, -⟩ := List.cons.inj rest
      exact h pre x m rfl

end Each

section Total
variable {ι A : Type*} [Fintype ι]

/-- What the entries of a table weigh together. -/
def total (weight : A → Int) (f : ι → A) : Int := ∑ i, weight (f i)

theorem total_update [DecidableEq ι] (weight : A → Int) (f : ι → A) (i : ι) (a : A) :
    total weight (Function.update f i a) = total weight f - weight (f i) + weight a := by
  have others : ∑ x ∈ Finset.univ.erase i, weight (Function.update f i a x) =
      ∑ x ∈ Finset.univ.erase i, weight (f x) := by
    apply Finset.sum_congr rfl
    intro x hx
    rw [Function.update_of_ne (Finset.ne_of_mem_erase hx)]
  rw [total, total, ← Finset.add_sum_erase _ _ (Finset.mem_univ i), others,
    ← Finset.add_sum_erase _ (fun x => weight (f x)) (Finset.mem_univ i), Function.update_self]
  omega

theorem le_total {weight : A → Int} (nonneg : ∀ a, 0 ≤ weight a) (f : ι → A) (i : ι) :
    weight (f i) ≤ total weight f :=
  Finset.single_le_sum (f := fun x => weight (f x)) (fun x _ => nonneg (f x)) (Finset.mem_univ i)

/-- A sum of which one term changes. -/
theorem sum_add_eq_sum_add [DecidableEq ι] {f g : ι → Nat} {m n : Nat} (i : ι)
    (here : f i + m = g i + n) (there : ∀ j, j ≠ i → f j = g j) :
    ∑ j, f j + m = ∑ j, g j + n := by
  have others : ∑ j ∈ Finset.univ.erase i, f j = ∑ j ∈ Finset.univ.erase i, g j := by
    apply Finset.sum_congr rfl
    intro j hj
    exact there j (Finset.ne_of_mem_erase hj)
  rw [← Finset.add_sum_erase _ f (Finset.mem_univ i),
    ← Finset.add_sum_erase _ g (Finset.mem_univ i), others]
  omega

/-- One more member of a set is counted. -/
theorem card_filter_eq_add_one {α : Type*} [DecidableEq α] {S : Finset α} {P P' : α → Prop}
    [DecidablePred P] [DecidablePred P'] {k : α} (mem : k ∈ S) (new : ¬ P k)
    (or_k : ∀ i, P' i ↔ P i ∨ i = k) :
    {i ∈ S | P' i}.card = {i ∈ S | P i}.card + 1 := by
  have inserted : {i ∈ S | P' i} = insert k {i ∈ S | P i} := by
    ext i
    simp only [Finset.mem_filter, Finset.mem_insert, or_k]
    constructor
    · rintro ⟨there, old | rfl⟩
      · exact .inr ⟨there, old⟩
      · exact .inl rfl
    · rintro (rfl | ⟨there, old⟩)
      · exact ⟨mem, .inr rfl⟩
      · exact ⟨there, .inl old⟩
  rw [inserted, Finset.card_insert_of_notMem]
  intro other
  exact new (Finset.mem_filter.1 other).2

end Total

end Wave300.Lib
