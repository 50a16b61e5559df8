import Mathlib.Algebra.Order.Ring.Int
import Mathlib.Data.Fintype.Basic
import Wave300.Lib.Trace

/-!
# Flushing the send queue

`mtlk_sq_flush`, with each access to the flag and to the counter a step of its own. A caller
that finds the flag raised leaves it to the thread that flushes: it counts its request and
returns.

The calls are numbered, so that it can be told which of them began before a pass over the
queues started.
-/

namespace Wave300.Sq

open Wave300.Lib

/-- Where a thread is in `mtlk_sq_flush`: what it does next. From `reraise` on it carries
`initial_flush_count`. -/
inductive Pc where
  | idle
  | check
  | count
  | raise
  | lock
  | read
  | reraise (initial : Nat)
  | start (initial : Nat)
  | drain (initial : Nat)
  | lower (initial : Nat)
  | compare (initial : Nat)
  | unlock
  deriving DecidableEq, Repr

/-- `flushCount` is the number of increments. The variable is an `atomic_t` of 32 bits.

What follows `pc` is not in the source: the number of calls so far, the number of the call each
thread is in, how many calls had begun when the last pass started, and the calls that have
returned. -/
structure Flush (τ : Type) where
  flushInProgress : Bool
  flushCount : Nat
  queueLock : Option τ
  pc : τ → Pc
  calls : Nat
  number : τ → Nat
  swept : Nat
  returned : List Nat

variable {τ : Type} [DecidableEq τ]

def Flush.init : Flush τ where
  flushInProgress := false
  flushCount := 0
  queueLock := none
  pc := fun _ => .idle
  calls := 0
  number := fun _ => 0
  swept := 0
  returned := []

def Flush.goto (s : Flush τ) (t : τ) (pc : Pc) : Flush τ :=
  { s with pc := Function.update s.pc t pc }

/-- The call of `t` returns. -/
def Flush.leave (s : Flush τ) (t : τ) : Flush τ :=
  { s.goto t .idle with returned := s.number t :: s.returned }

/-- A thread calls `mtlk_sq_flush`, or takes a step of it. -/
inductive Flush.Event (τ : Type) where
  | call (t : τ)
  | run (t : τ)

/-- The pass over the queues is from `start` to `drain`. -/
def Flush.step (s : Flush τ) : Event τ → Flush τ
  | .call t =>
    if s.pc t = .idle then
      { s.goto t .check with
        calls := s.calls + 1
        number := Function.update s.number t (s.calls + 1) }
    else s
  | .run t =>
    match s.pc t with
    | .idle => s
    | .check => s.goto t (if s.flushInProgress then .count else .raise)
    | .count => { s with flushCount := s.flushCount + 1 }.leave t
    | .raise => { s with flushInProgress := true }.goto t .lock
    | .lock => if s.queueLock = none then { s with queueLock := some t }.goto t .read else s
    | .read => s.goto t (.reraise s.flushCount)
    | .reraise initial => { s with flushInProgress := true }.goto t (.start initial)
    | .start initial => { s with swept := s.calls }.goto t (.drain initial)
    | .drain initial => s.goto t (.lower initial)
    | .lower initial => { s with flushInProgress := false }.goto t (.compare initial)
    | .compare initial =>
      s.goto t (if initial % 2 ^ 32 ≠ s.flushCount % 2 ^ 32 then .read else .unlock)
    | .unlock => { s with queueLock := none }.leave t

/-! ## Threads that will make a pass -/

/-- A thread at `pc` goes on to a pass. -/
def Pc.Toward : Pc → Prop
  | raise | lock | read | reraise _ | start _ => True
  | _ => False

/-- A thread at `pc` has started a pass, and has not compared the counter yet. -/
def Pc.InPass : Pc → Prop
  | drain _ | lower _ | compare _ => True
  | _ => False

/-- A thread at `pc` has raised the flag. -/
def Pc.Raised : Pc → Prop
  | lock | read | reraise _ | start _ | drain _ | lower _ => True
  | _ => False

/-- The `initial_flush_count` that a thread carries. -/
def Pc.initial : Pc → Option Nat
  | reraise i | start i | drain i | lower i | compare i => some i
  | _ => none

/-- A thread at `pc` starts a pass before it returns: it is on the way to one, or the counter has
gone up since it was read for the one it is in. -/
def Pc.Bound (flushCount : Nat) (pc : Pc) : Prop :=
  pc.Toward ∨ pc.InPass ∧ ∀ i ∈ pc.initial, i ≠ flushCount

/-- A thread at `pc` has made a pass in this call. -/
def Pc.Swept : Pc → Prop
  | drain _ | lower _ | compare _ | unlock => True
  | _ => False

theorem Pc.Toward.bound {p : Pc} (toward : p.Toward) (flushCount : Nat) : p.Bound flushCount :=
  .inl toward

theorem Pc.InPass.bound_iff {p : Pc} (pass : p.InPass) {flushCount : Nat} :
    p.Bound flushCount ↔ ∀ i ∈ p.initial, i ≠ flushCount := by
  constructor
  · rintro (toward | ⟨-, changed⟩)
    · cases p with
      | drain | lower | compare => cases toward
      | _ => cases pass
    · exact changed
  · exact fun changed => .inr ⟨pass, changed⟩

theorem Pc.InPass.swept {p : Pc} (pass : p.InPass) : p.Swept := by
  cases p with
  | drain | lower | compare => trivial
  | _ => cases pass

/-- A thread will start a pass. -/
def Flush.Pending (s : Flush τ) : Prop := ∃ t, (s.pc t).Bound s.flushCount

/-- The counter is not compared, and found unchanged, while a caller that the last pass came too
early for is about to count its request, unless another pass is to come. Fewer than 2^32
requests come in during a pass. -/
def Flush.TimelyAt (s : Flush τ) : Pc → Prop
  | .compare initial => s.flushCount < initial + 2 ^ 32 ∧
      (initial = s.flushCount → ∀ t, s.pc t = .count → s.number t ≤ s.swept ∨ s.Pending)
  | _ => True

@[inherit_doc Flush.TimelyAt]
def Flush.Timely (s : Flush τ) : Event τ → Prop
  | .call _ => True
  | .run t => s.TimelyAt (s.pc t)

instance : DecidablePred Pc.Toward
  | .raise | .lock | .read | .reraise _ | .start _ => .isTrue trivial
  | .idle | .check | .count | .drain _ | .lower _ | .compare _ | .unlock => .isFalse nofun

instance : DecidablePred Pc.InPass
  | .drain _ | .lower _ | .compare _ => .isTrue trivial
  | .idle | .check | .count | .raise | .lock | .read | .reraise _ | .start _ | .unlock =>
    .isFalse nofun

instance (flushCount : Nat) (pc : Pc) : Decidable (pc.Bound flushCount) :=
  inferInstanceAs (Decidable (_ ∨ _))

section
variable [Fintype τ] (s : Flush τ)

instance : Decidable s.Pending := inferInstanceAs (Decidable (∃ _, _))

instance : DecidablePred s.TimelyAt
  | .compare _ => inferInstanceAs (Decidable (_ ∧ _))
  | .idle | .check | .count | .raise | .lock | .read | .reraise _ | .start _ | .drain _ |
    .lower _ | .unlock => .isTrue trivial

instance : DecidablePred s.Timely
  | .call _ => .isTrue trivial
  | .run t => inferInstanceAs (Decidable (s.TimelyAt (s.pc t)))

end

/-! ## Invariant -/

structure Flush.Sound (s : Flush τ) : Prop where
  number : ∀ t, s.number t ≤ s.calls
  initial : ∀ t, ∀ i ∈ (s.pc t).initial, i ≤ s.flushCount
  passed : ∀ t, (s.pc t).Swept → s.number t ≤ s.swept
  raised : s.flushInProgress → ∃ t, (s.pc t).Raised
  counts : ∀ t, s.pc t = .count → s.number t ≤ s.swept ∨ s.Pending ∨ ∃ t', (s.pc t').InPass
  known : ∀ n ∈ s.returned, n ≤ s.calls
  served : ∀ n ∈ s.returned, n ≤ s.swept ∨ s.Pending

section
variable {s s' : Flush τ} {t : τ} {p p' : Pc}

theorem exists_update {K : Pc → Prop} {pc : τ → Pc} (kept : K (pc t) → K p')
    (found : ∃ t, K (pc t)) : ∃ t', K (Function.update pc t p' t') := by
  obtain ⟨t', here⟩ := found
  by_cases same : t' = t
  · refine ⟨t, ?_⟩
    rw [Function.update_self]
    exact kept (same ▸ here)
  · refine ⟨t', ?_⟩
    rwa [Function.update_of_ne same]

theorem forall_update {P : τ → Pc → Prop} {pc : τ → Pc} (others : ∀ t', t' ≠ t → P t' (pc t'))
    (here : P t p') : ∀ t', P t' (Function.update pc t p' t') := by
  intro t'
  by_cases same : t' = t
  · rw [same, Function.update_self]
    exact here
  · rw [Function.update_of_ne same]
    exact others t' same

theorem count_update {pc : τ → Pc} {t' : τ} (counts : Function.update pc t p' t' = .count)
    (ne : p' ≠ .count) : t' ≠ t ∧ pc t' = .count := by
  by_cases same : t' = t
  · rw [same, Function.update_self] at counts
    exact absurd counts ne
  · rw [Function.update_of_ne same] at counts
    exact ⟨same, counts⟩

/-- A thread moves, and the counter, the calls and the passes are left alone. -/
structure Flush.Moves (s s' : Flush τ) (t : τ) (p' : Pc) : Prop where
  pc : s'.pc = Function.update s.pc t p'
  flushCount : s'.flushCount = s.flushCount
  calls : s'.calls = s.calls
  number : s'.number = s.number
  swept : s'.swept = s.swept
  returned : s'.returned = s.returned

theorem Flush.Moves.pending (moves : s.Moves s' t p')
    (bound : (s.pc t).Bound s.flushCount → p'.Bound s.flushCount) (pending : s.Pending) :
    s'.Pending := by
  unfold Flush.Pending
  rw [moves.flushCount, moves.pc]
  exact exists_update bound pending

theorem Flush.Sound.move (h : s.Sound) (moves : s.Moves s' t p')
    (initial : ∀ i ∈ p'.initial, i ≤ s.flushCount) (passed : p'.Swept → s.number t ≤ s.swept)
    (raised : s'.flushInProgress → p'.Raised ∨ s.flushInProgress ∧ ((s.pc t).Raised → p'.Raised))
    (bound : (s.pc t).Bound s.flushCount → p'.Bound s.flushCount)
    (inPass : (s.pc t).InPass → p'.InPass ∨ s'.Pending ∨
      ∀ t', s.pc t' = .count → s.number t' ≤ s.swept)
    (counts : p' = .count → s.Pending ∨ ∃ t', (s.pc t').InPass) : s'.Sound := by
  have pending := moves.pending bound
  constructor
  case number =>
    rw [moves.number, moves.calls]
    exact h.number
  case initial =>
    rw [moves.flushCount, moves.pc]
    exact forall_update (P := fun _ p => ∀ i ∈ p.initial, i ≤ s.flushCount)
      (fun t' _ => h.initial t') initial
  case passed =>
    rw [moves.number, moves.swept, moves.pc]
    exact forall_update (P := fun t p => p.Swept → s.number t ≤ s.swept)
      (fun t' _ => h.passed t') passed
  case raised =>
    intro flag
    obtain here | ⟨flag, kept⟩ := raised flag
    · refine ⟨t, ?_⟩
      rwa [moves.pc, Function.update_self]
    · rw [moves.pc]
      exact exists_update kept (h.raised flag)
  case counts =>
    intro t' here
    rw [moves.number, moves.swept]
    -- a thread in a pass stays in it, or goes on to another, or has nobody to wait for
    have covered (before : s.Pending ∨ ∃ t', (s.pc t').InPass)
        (counted : s.pc t' = .count ∨ t' = t) :
        s.number t' ≤ s.swept ∨ s'.Pending ∨ ∃ t', (s'.pc t').InPass := by
      obtain before | ⟨u, pass⟩ := before
      · exact .inr (.inl (pending before))
      · by_cases same : u = t
        · rw [same] at pass
          obtain stays | again | served := inPass pass
          · rw [moves.pc]
            exact .inr (.inr (exists_update (fun _ => stays) ⟨t, pass⟩))
          · exact .inr (.inl again)
          · refine .inl ?_
            obtain counted | rfl := counted
            · exact served t' counted
            · exact h.passed t' pass.swept
        · refine .inr (.inr ⟨u, ?_⟩)
          rwa [moves.pc, Function.update_of_ne same]
    rw [moves.pc] at here
    by_cases same : t' = t
    · rw [same, Function.update_self] at here
      exact covered (counts here) (.inr same)
    · rw [Function.update_of_ne same] at here
      obtain served | before := h.counts t' here
      · exact .inl served
      · exact covered before (.inl here)
  case known =>
    rw [moves.returned, moves.calls]
    exact h.known
  case served =>
    intro n mem
    rw [moves.returned] at mem
    rw [moves.swept]
    exact (h.served n mem).imp_right pending

/-- A thread that has raised the flag is in a pass, or on the way to one. -/
theorem Pc.Raised.bound_or_inPass (raised : p.Raised) (flushCount : Nat) :
    p.Bound flushCount ∨ p.InPass := by
  cases p with
  | lock | read | reraise | start => exact .inl (.inl trivial)
  | drain | lower => exact .inr trivial
  | _ => cases raised

/-- A thread moves toward a pass. -/
theorem Flush.Sound.toward (h : s.Sound) (moves : s.Moves s' t p') (toward : p'.Toward)
    (initial : ∀ i ∈ p'.initial, i ≤ s.flushCount)
    (raised : s'.flushInProgress →
      p'.Raised ∨ s.flushInProgress ∧ ((s.pc t).Raised → p'.Raised)) : s'.Sound := by
  have bound := toward.bound s.flushCount
  have pending : s'.Pending := by
    refine ⟨t, ?_⟩
    rwa [moves.pc, Function.update_self, moves.flushCount]
  apply h.move moves initial _ raised (fun _ => bound) (fun _ => .inr (.inl pending))
  · rintro rfl
    cases toward
  · intro passed
    cases p' with
    | drain | lower | compare | unlock => cases toward
    | _ => cases passed

/-- A thread in a pass goes on in it. -/
theorem Flush.Sound.within (h : s.Sound) (moves : s.Moves s' t p') (pass : (s.pc t).InPass)
    (pass' : p'.InPass) (same : p'.initial = (s.pc t).initial)
    (raised : s'.flushInProgress →
      p'.Raised ∨ s.flushInProgress ∧ ((s.pc t).Raised → p'.Raised)) : s'.Sound := by
  apply h.move moves _ _ raised _ (fun _ => .inl pass')
  · rintro rfl
    cases pass'
  · rw [same]
    exact h.initial t
  · exact fun _ => h.passed t pass.swept
  · rw [pass.bound_iff, pass'.bound_iff, same]
    exact id

theorem Flush.Sound.call (h : s.Sound) (idle : s.pc t = .idle) : Sound { s.goto t .check with
    calls := s.calls + 1
    number := Function.update s.number t (s.calls + 1) } := by
  have same {t' : τ} (other : t' ≠ t) : Function.update s.number t (s.calls + 1) t' = s.number t' :=
    Function.update_of_ne other ..
  have pending (pending : s.Pending) : (s.goto t .check).Pending := by
    apply exists_update _ pending
    rw [idle]
    rintro (toward | ⟨pass, -⟩)
    · cases toward
    · cases pass
  constructor
  case number =>
    intro t'
    by_cases here : t' = t
    · rw [here]
      exact (Function.update_self ..).le
    · exact (same here).trans_le ((h.number t').trans (Nat.le_succ _))
  case initial =>
    exact forall_update (P := fun _ p => ∀ i ∈ p.initial, i ≤ s.flushCount)
      (fun t' _ => h.initial t') nofun
  case passed =>
    refine forall_update (P := fun t' p => p.Swept →
      Function.update s.number t (s.calls + 1) t' ≤ s.swept) ?_ nofun
    intro t' other
    rw [same other]
    exact h.passed t'
  case raised =>
    intro flag
    apply exists_update _ (h.raised flag)
    rw [idle]
    exact nofun
  case counts =>
    intro t' counts
    obtain ⟨other, counts⟩ := count_update counts nofun
    have before := h.counts t' counts
    rw [← same other] at before
    refine before.imp_right (.imp pending (exists_update ?_))
    rw [idle]
    exact nofun
  case known => exact fun n mem => (h.known n mem).trans (Nat.le_succ _)
  case served => exact fun n mem => (h.served n mem).imp_right pending

theorem Flush.Sound.count (h : s.Sound) (here : s.pc t = .count) :
    ({ s with flushCount := s.flushCount + 1 }.leave t).Sound := by
  -- whoever is in a pass will see that the counter has gone up
  have pending (before : s.Pending ∨ ∃ t', (s.pc t').InPass) :
      ({ s with flushCount := s.flushCount + 1 }.leave t).Pending := by
    have again {t' : τ} (pass : (s.pc t').InPass) : (s.pc t').Bound (s.flushCount + 1) := by
      rw [pass.bound_iff]
      exact fun i mem => Nat.ne_of_lt (Nat.lt_succ_of_le (h.initial t' i mem))
    apply exists_update (K := Pc.Bound (s.flushCount + 1))
    · rw [here]
      rintro (toward | ⟨pass, -⟩)
      · cases toward
      · cases pass
    · obtain ⟨t', toward | ⟨pass, -⟩⟩ | ⟨t', pass⟩ := before
      · exact ⟨t', .inl toward⟩
      · exact ⟨t', again pass⟩
      · exact ⟨t', again pass⟩
  constructor
  case number => exact h.number
  case initial =>
    refine forall_update (P := fun _ p => ∀ i ∈ p.initial, i ≤ s.flushCount + 1) ?_ nofun
    exact fun t' _ i mem => (h.initial t' i mem).trans (Nat.le_succ _)
  case passed =>
    exact forall_update (P := fun t' p => p.Swept → s.number t' ≤ s.swept)
      (fun t' _ => h.passed t') nofun
  case raised =>
    intro flag
    apply exists_update _ (h.raised flag)
    rw [here]
    exact nofun
  case counts =>
    intro t' counts
    obtain ⟨-, counts⟩ := count_update counts nofun
    exact (h.counts t' counts).imp_right fun before => .inl (pending before)
  case known =>
    intro n mem
    obtain rfl | mem := List.mem_cons.1 mem
    · exact h.number t
    · exact h.known n mem
  case served =>
    intro n mem
    obtain rfl | mem := List.mem_cons.1 mem
    · exact (h.counts t here).imp_right pending
    · exact (h.served n mem).imp_right fun before => pending (.inl before)

theorem Flush.Sound.start (h : s.Sound) {initial : Nat} (here : s.pc t = .start initial) :
    ({ s with swept := s.calls }.goto t (.drain initial)).Sound where
  number := h.number
  initial := by
    apply forall_update (P := fun _ p => ∀ i ∈ p.initial, i ≤ s.flushCount)
    · exact fun t' _ => h.initial t'
    · exact fun i mem => h.initial t i (by rwa [here])
  passed := fun t' _ => h.number t'
  raised := fun flag => exists_update (fun _ => trivial) (h.raised flag)
  counts := fun t' _ => .inl (h.number t')
  known := h.known
  served := fun n mem => .inl (h.known n mem)

theorem Flush.Sound.unlock (h : s.Sound) (here : s.pc t = .unlock) :
    ({ s with queueLock := none }.leave t).Sound := by
  have pending (pending : s.Pending) : ({ s with queueLock := none }.leave t).Pending := by
    apply exists_update _ pending
    rw [here]
    rintro (toward | ⟨pass, -⟩)
    · cases toward
    · cases pass
  constructor
  case number => exact h.number
  case initial =>
    exact forall_update (P := fun _ p => ∀ i ∈ p.initial, i ≤ s.flushCount)
      (fun t' _ => h.initial t') nofun
  case passed =>
    exact forall_update (P := fun t' p => p.Swept → s.number t' ≤ s.swept)
      (fun t' _ => h.passed t') nofun
  case raised =>
    intro flag
    apply exists_update _ (h.raised flag)
    rw [here]
    exact nofun
  case counts =>
    intro t' counts
    obtain ⟨-, counts⟩ := count_update counts nofun
    refine (h.counts t' counts).imp_right (.imp pending (exists_update ?_))
    rw [here]
    exact nofun
  case known =>
    intro n mem
    obtain rfl | mem := List.mem_cons.1 mem
    · exact h.number t
    · exact h.known n mem
  case served =>
    intro n mem
    obtain rfl | mem := List.mem_cons.1 mem
    · exact .inl (h.passed t (by rw [here]; trivial))
    · exact (h.served n mem).imp_right pending

theorem Flush.Sound.check (h : s.Sound) (here : s.pc t = .check) :
    (s.goto t (if s.flushInProgress then .count else .raise)).Sound := by
  split
  · rename_i flag
    refine h.move (t := t) ⟨rfl, rfl, rfl, rfl, rfl, rfl⟩ nofun nofun ?_ ?_ ?_ ?_
    · intro _
      refine .inr ⟨flag, ?_⟩
      rw [here]
      exact nofun
    · rw [here]
      exact nofun
    · rw [here]
      exact nofun
    · intro _
      obtain ⟨t', raised⟩ := h.raised flag
      exact (raised.bound_or_inPass s.flushCount).imp (fun bound => ⟨t', bound⟩) fun pass =>
        ⟨t', pass⟩
  · rename_i down
    refine h.toward (t := t) ⟨rfl, rfl, rfl, rfl, rfl, rfl⟩ trivial nofun ?_
    exact fun flag => absurd flag down

theorem Flush.Sound.compare (h : s.Sound) {initial : Nat} (here : s.pc t = .compare initial)
    (timely : s.TimelyAt (s.pc t)) :
    (s.goto t (if initial % 2 ^ 32 ≠ s.flushCount % 2 ^ 32 then .read else .unlock)).Sound := by
  have le : initial ≤ s.flushCount := h.initial t initial (by rw [here]; rfl)
  obtain ⟨few, nobody⟩ : s.TimelyAt (.compare initial) := by rwa [← here]
  have lowered : ¬(s.pc t).Raised := by
    rw [here]
    exact id
  split
  · refine h.toward (t := t) ⟨rfl, rfl, rfl, rfl, rfl, rfl⟩ trivial nofun ?_
    exact fun _ => .inl trivial
  · rename_i same
    have unchanged : initial = s.flushCount := by omega
    have moves : s.Moves (s.goto t .unlock) t .unlock := ⟨rfl, rfl, rfl, rfl, rfl, rfl⟩
    have unbound : ¬(s.pc t).Bound s.flushCount := by
      rw [here]
      rintro (toward | ⟨-, changed⟩)
      · cases toward
      · exact changed initial rfl unchanged
    apply h.move moves nofun
    · exact fun _ => h.passed t (by rw [here]; trivial)
    · exact fun flag => .inr ⟨flag, fun raised => absurd raised lowered⟩
    · exact fun bound => absurd bound unbound
    · intro _
      by_cases pending : s.Pending
      · exact .inr (.inl (moves.pending (fun bound => absurd bound unbound) pending))
      · exact .inr (.inr fun t' counts => (nobody unchanged t' counts).resolve_right pending)
    · exact nofun

theorem Flush.Sound.step (h : s.Sound) {e : Flush.Event τ} (timely : s.Timely e) :
    (s.step e).Sound := by
  cases e with
  | call t =>
    simp only [Flush.step]
    split
    · rename_i idle
      exact h.call idle
    · exact h
  | run t =>
    simp only [Flush.step]
    split
    · exact h
    · rename_i here
      exact h.check here
    · rename_i here
      exact h.count here
    · refine h.toward (t := t) ⟨rfl, rfl, rfl, rfl, rfl, rfl⟩ trivial nofun ?_
      exact fun _ => .inl trivial
    · split
      · refine h.toward (t := t) ⟨rfl, rfl, rfl, rfl, rfl, rfl⟩ trivial nofun ?_
        exact fun _ => .inl trivial
      · exact h
    · refine h.toward (t := t) ⟨rfl, rfl, rfl, rfl, rfl, rfl⟩ trivial ?_ ?_
      · intro i mem
        cases mem
        exact Nat.le_refl _
      · exact fun _ => .inl trivial
    · rename_i initial here
      refine h.toward (t := t) ⟨rfl, rfl, rfl, rfl, rfl, rfl⟩ trivial ?_ ?_
      · exact fun i mem => h.initial t i (by rwa [here])
      · exact fun _ => .inl trivial
    · rename_i initial here
      exact h.start here
    · rename_i initial here
      refine h.within (t := t) ⟨rfl, rfl, rfl, rfl, rfl, rfl⟩ (by rw [here]; trivial) trivial ?_ ?_
      · rw [here]
        rfl
      · exact fun _ => .inl trivial
    · rename_i initial here
      refine h.within (t := t) ⟨rfl, rfl, rfl, rfl, rfl, rfl⟩ (by rw [here]; trivial) trivial ?_ ?_
      · rw [here]
        rfl
      · exact nofun
    · rename_i initial here
      exact h.compare here timely
    · rename_i here
      exact h.unlock here

def Flush.Event.thread : Flush.Event τ → τ
  | .call t | .run t => t

/-- A step of another thread leaves a thread where it is. -/
theorem Flush.step_other {e : Flush.Event τ} (other : t ≠ e.thread) : (s.step e).pc t = s.pc t ∧
    ((s.step e).flushCount = s.flushCount ∨ (s.step e).flushCount = s.flushCount + 1) := by
  have stays (p : Pc) : Function.update s.pc e.thread p t = s.pc t := Function.update_of_ne other ..
  cases e with
  | call t' =>
    simp only [Flush.step]
    split
    · exact ⟨stays _, .inl rfl⟩
    · exact ⟨rfl, .inl rfl⟩
  | run t' =>
    simp only [Flush.step]
    split
    case h_3 => exact ⟨stays _, .inr rfl⟩
    case h_1 => exact ⟨rfl, .inl rfl⟩
    case h_5 =>
      split
      · exact ⟨stays _, .inl rfl⟩
      · exact ⟨rfl, .inl rfl⟩
    all_goals exact ⟨stays _, .inl rfl⟩

theorem Flush.Sound.bound_run (h : s.Sound) (timely : s.TimelyAt (s.pc t))
    (bound : (s.pc t).Bound s.flushCount) : ((s.step (.run t)).pc t).Bound
      (s.step (.run t)).flushCount ∨ (s.step (.run t)).swept = (s.step (.run t)).calls := by
  have moved (p : Pc) : Function.update s.pc t p t = p := Function.update_self ..
  simp only [Flush.step]
  have initial := h.initial t
  cases here : s.pc t with
  | idle | check | count | unlock =>
    rw [here] at bound
    obtain toward | ⟨pass, -⟩ := bound
    · cases toward
    · cases pass
  | raise | read | reraise =>
    refine .inl (.inl ?_)
    change (Function.update s.pc t _ t).Toward
    rw [moved]
    trivial
  | lock =>
    by_cases free : s.queueLock = none
    · simp only [free, if_true]
      refine .inl (.inl ?_)
      change (Function.update s.pc t _ t).Toward
      rw [moved]
      trivial
    · simp only [free, if_false]
      exact .inl bound
  | start => exact .inr rfl
  | drain initial | lower initial =>
    rw [here] at bound
    refine .inl ?_
    change (Function.update s.pc t _ t).Bound s.flushCount
    rw [moved]
    exact .inr (bound.resolve_left nofun)
  | compare initial' =>
    rw [here] at bound timely initial
    refine .inl ?_
    change (Function.update s.pc t _ t).Bound s.flushCount
    have changed := (bound.resolve_left nofun).2 initial' rfl
    have le := initial initial' rfl
    have few := timely.1
    rw [moved, if_pos (by omega)]
    exact .inl trivial

/-- A thread that is to start a pass does not return before it has started one. -/
theorem Flush.Sound.bound_until (h : s.Sound) {e : Flush.Event τ} (timely : s.Timely e)
    (bound : (s.pc t).Bound s.flushCount) :
    ((s.step e).pc t).Bound (s.step e).flushCount ∨ (s.step e).swept = (s.step e).calls := by
  by_cases other : t = e.thread
  · subst other
    cases e with
    | call t =>
      simp only [Flush.step]
      split
      · rename_i idle
        rw [show (Event.call t).thread = t from rfl, idle] at bound
        obtain toward | ⟨pass, -⟩ := bound
        · cases toward
        · cases pass
      · exact .inl bound
    | run t => exact h.bound_run timely bound
  · obtain ⟨same, count⟩ := Flush.step_other (s := s) other
    rw [same]
    obtain count | count := count
    · rw [count]
      exact .inl bound
    · rw [count]
      refine .inl (bound.imp_right (.imp_right fun _ i mem => ?_))
      exact Nat.ne_of_lt (Nat.lt_succ_of_le (h.initial t i mem))

end

/-- Every call that has returned was followed by a pass that started after the call began, or a
thread is to start one and does not return before it has. -/
theorem flush_followed_by_pass :
    ∀ s : Flush τ, Runs Flush.step Flush.Timely .init s →
      (∀ n ∈ s.returned, n ≤ s.swept ∨ s.Pending) ∧
      ∀ e t, s.Timely e → (s.pc t).Bound s.flushCount →
        ((s.step e).pc t).Bound (s.step e).flushCount ∨ (s.step e).swept = (s.step e).calls := by
  intro s run
  have sound : s.Sound := by
    apply run.invariant
    · exact ⟨fun _ => Nat.le_refl 0, nofun, nofun, nofun, nofun, nofun, nofun⟩
    · exact fun s e before timely => before.step timely
  exact ⟨sound.served, fun e t timely bound => sound.bound_until timely bound⟩

/-- Thread 0 flushes. Thread 1 calls during its pass, and counts its request after `late` more
steps of thread 0. -/
def overlapping (late : Nat) : List (Flush.Event (Fin 2)) :=
  let first : Fin 2 := ⟨0, Nat.zero_lt_two⟩
  let second : Fin 2 := ⟨1, Nat.one_lt_two⟩
  [[.call first], List.replicate 6 (.run first), [.call second, .run second],
    List.replicate late (.run first), [.run second],
    List.replicate (12 - late) (.run first)].flatten

theorem flush_followed_by_pass_once :
    let s := (overlapping 2).foldl Flush.step .init
    2 ∈ s.returned ∧ ¬s.Pending ∧ 2 ≤ s.swept := by
  intro s
  have run : Runs Flush.step Flush.Timely .init s := by
    apply Runs.of_allowed
    decide
  have returned : 2 ∈ s.returned := by decide
  have ended : ¬s.Pending := by decide
  exact ⟨returned, ended, ((flush_followed_by_pass s run).1 2 returned).resolve_right ended⟩

/-- The request is counted when thread 0 has compared the counter: no pass follows. -/
theorem late_request_lost :
    let s := (overlapping 4).foldl Flush.step .init
    2 ∈ s.returned ∧ s.swept < 2 ∧ ∀ t, s.pc t = .idle := by
  decide

end Wave300.Sq
