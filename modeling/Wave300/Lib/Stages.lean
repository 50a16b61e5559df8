import Mathlib.Logic.Basic

/-!
# Stages that may fail

A long operation is a list of stages, each of which succeeds or fails, and of which the first that
fails ends it. What such an operation does is said by what holds after it when it succeeds, and by
what holds when it fails at any stage.
-/

namespace Wave300.Lib

variable {σ ι : Type*} {act : σ → ι → σ × Bool} {P Q F : σ → Prop} {s : σ} {i : ι} {l l' : List ι}

/-- The stages of a list, up to the first that fails. -/
def stages (act : σ → ι → σ × Bool) : List ι → σ → σ × Bool
  | [], s => (s, true)
  | i :: l, s => if (act s i).2 then stages act l (act s i).1 else ((act s i).1, false)

/-- `Q` holds after a success, and `F` after a failure. -/
def Ends (Q F : σ → Prop) (r : σ × Bool) : Prop :=
  (r.2 = true → Q r.1) ∧ (r.2 = false → F r.1)

theorem Ends.ok (h : Q s) : Ends Q F (s, true) := ⟨fun _ => h, nofun⟩

theorem Ends.failed (h : F s) : Ends Q F (s, false) := ⟨nofun, fun _ => h⟩

/-- What holds either way. -/
theorem Ends.either {r : σ × Bool} (h : Ends Q Q r) : Q r.1 := by
  cases e : r.2 with
  | true => exact h.1 e
  | false => exact h.2 e

theorem Ends.of_either {r : σ × Bool} (h : Q r.1) : Ends Q Q r := ⟨fun _ => h, fun _ => h⟩

theorem Ends.mono {P' F' : σ → Prop} {r : σ × Bool} (h : Ends P F r) (ok : ∀ s, P s → P' s)
    (failed : ∀ s, F s → F' s) : Ends P' F' r :=
  ⟨fun e => ok _ (h.1 e), fun e => failed _ (h.2 e)⟩

theorem Ends.stages_nil (h : Q s) : Ends Q F (stages act [] s) := .ok h

theorem Ends.stages_cons (first : Ends P F (act s i))
    (rest : ∀ s, P s → Ends Q F (stages act l s)) : Ends Q F (stages act (i :: l) s) := by
  unfold stages
  split
  case isTrue e => exact rest _ (first.1 e)
  case isFalse e => exact .failed (first.2 (by simpa using e))

theorem Ends.stages_append (first : Ends P F (stages act l s))
    (rest : ∀ s, P s → Ends Q F (stages act l' s)) : Ends Q F (stages act (l ++ l') s) := by
  induction l generalizing s with
  | nil => exact rest s (first.1 rfl)
  | cons i l ih =>
    rw [List.cons_append]
    unfold stages at first ⊢
    split at first
    case isTrue e =>
      rw [if_pos e]
      exact ih first
    case isFalse e =>
      rw [if_neg e]
      exact .failed (first.2 rfl)

/-- What every stage of a list keeps. -/
theorem Ends.stages_keep (keep : ∀ i ∈ l, ∀ s, P s → Ends P F (act s i)) (h : P s) :
    Ends P F (stages act l s) := by
  induction l generalizing s with
  | nil => exact .ok h
  | cons i l ih =>
    apply Ends.stages_cons (keep i List.mem_cons_self s h)
    intro s h
    exact ih (fun i mem => keep i (List.mem_cons_of_mem _ mem)) h

/-- When all went well, each stage did in some state. -/
theorem stages_ok (ok : (stages act l s).2 = true) (mem : i ∈ l) : ∃ s, (act s i).2 = true := by
  induction l generalizing s with
  | nil => cases mem
  | cons j l ih =>
    unfold stages at ok
    split at ok
    case isTrue e =>
      obtain rfl | mem := List.mem_cons.1 mem
      · exact ⟨s, e⟩
      · exact ih ok mem
    case isFalse => cases ok

end Wave300.Lib
