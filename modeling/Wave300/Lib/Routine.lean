import Mathlib.Logic.Basic

/-!
# Routines that stop with a code

A routine of the kernel goes to its end at the first call that fails, with the code of that call,
and what it did until then stays done. So there are two ends to say something about.
-/

namespace Wave300.Lib

/-- From a state to what the routine returns, or to the code it stops with, and the state there. -/
def Routine (ε σ α : Type) : Type := σ → Except ε α × σ

namespace Routine

variable {ε σ α β : Type}

instance : Monad (Routine ε σ) where
  pure a s := (.ok a, s)
  bind m k s :=
    match m s with
    | (.ok a, s') => k a s'
    | (.error e, s') => (.error e, s')

def stop (e : ε) : Routine ε σ α := fun s => (.error e, s)

def read (f : σ → α) : Routine ε σ α := fun s => (.ok (f s), s)

def write (f : σ → σ) : Routine ε σ Unit := fun s => (.ok (), f s)

/-- The routine whose code nobody looks at. -/
def ignored (m : Routine ε σ α) : Routine ε σ Unit := fun s => (.ok (), (m s).2)

/-- The routine, and what is done after it at either end. -/
def always (m : Routine ε σ α) (f : σ → σ) : Routine ε σ α := fun s => ((m s).1, f (m s).2)

/-- From where `P` holds, `Q` holds of what is returned, and `F` of the code if there is one. -/
def Triple (P : σ → Prop) (m : Routine ε σ α) (Q : α → σ → Prop) (F : ε → σ → Prop) : Prop :=
  ∀ s, P s → (∀ a, (m s).1 = .ok a → Q a (m s).2) ∧ ∀ e, (m s).1 = .error e → F e (m s).2

/-- `P` holds at either end. -/
abbrev Keeps (P : σ → Prop) (m : Routine ε σ α) : Prop := Triple P m (fun _ => P) fun _ => P

variable {P P' : σ → Prop} {m : Routine ε σ α} {Q Q' : α → σ → Prop} {F F' : ε → σ → Prop} {s : σ}

theorem Triple.mono (h : Triple P m Q F) (before : ∀ s, P' s → P s)
    (after : ∀ a s, Q a s → Q' a s) (failed : ∀ e s, F e s → F' e s) : Triple P' m Q' F' := by
  intro s holds
  obtain ⟨ok, error⟩ := h s (before s holds)
  exact ⟨fun a e => after a _ (ok a e), fun a e => failed a _ (error a e)⟩

theorem Triple.and {R : σ → Prop} (h : Triple P m Q F) (keeps : Keeps R m) :
    Triple (fun s => P s ∧ R s) m (fun a s => Q a s ∧ R s) fun e s => F e s ∧ R s := by
  rintro s ⟨holds, also⟩
  obtain ⟨ok, error⟩ := h s holds
  obtain ⟨ok', error'⟩ := keeps s also
  exact ⟨fun a e => ⟨ok a e, ok' a e⟩, fun a e => ⟨error a e, error' a e⟩⟩

theorem Triple.pure {a : α} (h : ∀ s, P s → Q a s) :
    Triple P (Pure.pure a : Routine ε σ α) Q F := by
  intro s holds
  refine ⟨fun b e => ?_, fun _ e => by cases e⟩
  cases e
  exact h s holds

theorem Triple.bind {k : α → Routine ε σ β} {R : β → σ → Prop} (first : Triple P m Q F)
    (rest : ∀ a, Triple (Q a) (k a) R F) : Triple P (m >>= k) R F := by
  intro s holds
  have at_first := first s holds
  show (∀ b, _ = _ → _) ∧ ∀ e, _ = _ → _
  simp only [Bind.bind]
  cases ended : m s with
  | mk r s' =>
    rw [ended] at at_first
    cases r with
    | ok a => exact rest a s' (at_first.1 a rfl)
    | error e =>
      refine ⟨fun _ same => (by cases same), fun e' same => ?_⟩
      cases same
      exact at_first.2 e rfl

theorem Triple.stop {e : ε} (h : ∀ s, P s → F e s) : Triple P (stop e : Routine ε σ α) Q F := by
  intro s holds
  refine ⟨fun _ same => (by cases same), fun e' same => ?_⟩
  cases same
  exact h s holds

theorem Triple.read {f : σ → α} (h : ∀ s, P s → Q (f s) s) : Triple P (read f) Q F := by
  intro s holds
  refine ⟨fun a same => ?_, fun _ same => by cases same⟩
  cases same
  exact h s holds

theorem Triple.write {f : σ → σ} {Q : Unit → σ → Prop} (h : ∀ s, P s → Q () (f s)) :
    Triple P (write f) Q F := by
  intro s holds
  exact ⟨fun _ _ => h s holds, fun _ same => by cases same⟩

theorem Triple.ignored {R : Unit → σ → Prop} (h : Triple P m (fun _ => R ()) fun _ => R ()) :
    Triple P (ignored m) R F := by
  intro s holds
  obtain ⟨ok, error⟩ := h s holds
  refine ⟨fun _ _ => ?_, fun _ same => by cases same⟩
  cases ended : (m s).1 with
  | ok a => exact ok a ended
  | error e => exact error e ended

theorem Triple.always {f : σ → σ} (h : Triple P m Q F) (after : ∀ a s, Q a s → Q' a (f s))
    (failed : ∀ e s, F e s → F' e (f s)) : Triple P (always m f) Q' F' := by
  intro s holds
  obtain ⟨ok, error⟩ := h s holds
  exact ⟨fun a e => after a _ (ok a e), fun a e => failed a _ (error a e)⟩

theorem Triple.ite {c : Prop} [Decidable c] {m' : Routine ε σ α}
    (holds : c → Triple P m Q F) (fails : ¬ c → Triple P m' Q F) :
    Triple P (if c then m else m') Q F := by
  split
  · exact holds ‹_›
  · exact fails ‹_›

/-- What is read is known in what follows. -/
theorem Triple.read_bind {f : σ → α} {k : α → Routine ε σ β} {R : β → σ → Prop}
    (rest : ∀ a, Triple (fun s => P s ∧ f s = a) (k a) R F) : Triple P (Routine.read f >>= k) R F :=
  Triple.bind (Q := fun a s => P s ∧ f s = a) (.read fun _ holds => ⟨holds, rfl⟩) rest

/-- Either end satisfies what both do. -/
theorem Triple.run {R : σ → Prop} (h : Triple P m (fun _ => R) fun _ => R) (holds : P s) :
    R (m s).2 := by
  obtain ⟨ok, error⟩ := h s holds
  cases ended : (m s).1 with
  | ok a => exact ok a ended
  | error e => exact error e ended

end Routine

end Wave300.Lib
