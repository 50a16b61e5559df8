import Mathlib.Data.Fintype.Basic
import Mathlib.Data.List.Nodup
import Mathlib.Logic.Relation
import Wave300.Lib.Trace

/-!
# Locks and the threads that wait for them

Threads that make calls, each call a sequence of acquisitions and releases. A thread whose next
lock is taken waits for the thread that holds it; threads that wait for each other in a cycle
are deadlocked.

Two threads cross on a pair of locks when each holds one of them and will take the other before
it gives up its own. Neither gets any further.
-/

namespace Wave300.Lib

inductive Act (L : Type*) where
  | acquire (l : L)
  | release (l : L)
  deriving DecidableEq

/-- The locks a thread holds, the one taken last in front, and what is left of its call. -/
structure Locks (τ L : Type*) where
  owner : L → Option τ
  held : τ → List L
  rest : τ → List (Act L)

/-- A thread begins a call, or takes the next step of the one it is in. -/
inductive Turn (τ κ : Type*) where
  | call (t : τ) (c : κ)
  | run (t : τ)

namespace Locks
variable {τ L κ : Type*} [DecidableEq τ] [DecidableEq L]

def init : Locks τ L := ⟨fun _ => none, fun _ => [], fun _ => []⟩

def acquire (s : Locks τ L) (t : τ) (l : L) (rest : List (Act L)) : Locks τ L where
  owner := Function.update s.owner l (some t)
  held := Function.update s.held t (l :: s.held t)
  rest := Function.update s.rest t rest

def release (s : Locks τ L) (t : τ) (l : L) (rest : List (Act L)) : Locks τ L where
  owner := Function.update s.owner l none
  held := Function.update s.held t ((s.held t).erase l)
  rest := Function.update s.rest t rest

/-- A thread that is in a call begins no other, and waits for a lock that is taken. -/
def step (acts : κ → List (Act L)) (s : Locks τ L) : Turn τ κ → Locks τ L
  | .call t c => if s.rest t = [] then { s with rest := Function.update s.rest t (acts c) } else s
  | .run t =>
    match s.rest t with
    | [] => s
    | .acquire l :: rest => if s.owner l = none then s.acquire t l rest else s
    | .release l :: rest => s.release t l rest

/-- The lock that a thread takes next. -/
def next (s : Locks τ L) (t : τ) : Option L :=
  match s.rest t with
  | .acquire l :: _ => some l
  | _ => none

/-- `t` takes next a lock that `t'` holds. -/
def Waits (s : Locks τ L) (t t' : τ) : Prop := ∃ l ∈ s.next t, s.owner l = some t'

def Deadlock (s : Locks τ L) : Prop := ∃ t, Relation.TransGen s.Waits t t

/-- `t` holds `l`, and takes `l'` before it gives `l` up. -/
def Nests (s : Locks τ L) (t : τ) (l l' : L) : Prop :=
  l ∈ s.held t ∧ .acquire l' ∈ (s.rest t).takeWhile (· ≠ .release l)

/-- Two threads that each will take the lock of the other. -/
def Crossed (s : Locks τ L) : Prop :=
  ∃ t t' l l', t ≠ t' ∧ s.Nests t l l' ∧ s.Nests t' l' l

/-- The lock that `acts` begin with does not make `t` cross with another thread. -/
def Clear (s : Locks τ L) (t : τ) : List (Act L) → Prop
  | .acquire l :: rest => s.owner l = none → ∀ t', t' ≠ t → ∀ l' ∈ s.held t', s.Nests t' l' l →
      .acquire l' ∉ rest.takeWhile (· ≠ .release l)
  | _ => True

/-- No lock is taken that makes two threads cross. -/
def Uncrossing (s : Locks τ L) : Turn τ κ → Prop
  | .call _ _ => True
  | .run t => s.Clear t (s.rest t)

instance (s : Locks τ L) (t : τ) (l l' : L) : Decidable (s.Nests t l l') :=
  inferInstanceAs (Decidable (_ ∧ _))

instance [Fintype τ] (s : Locks τ L) (t : τ) : ∀ acts, Decidable (s.Clear t acts)
  | .acquire _ :: _ => inferInstanceAs (Decidable (_ → _))
  | [] | .release _ :: _ => .isTrue trivial

instance [Fintype τ] (s : Locks τ L) : ∀ i : Turn τ κ, Decidable (s.Uncrossing i)
  | .call _ _ => .isTrue trivial
  | .run t => inferInstanceAs (Decidable (s.Clear t _))

instance (s : Locks τ L) (t t' : τ) : Decidable (s.Waits t t') :=
  inferInstanceAs (Decidable (∃ l ∈ s.next t, s.owner l = some t'))

end Locks

/-! ## Calls that nest their locks -/

section Nested
variable {L : Type*} {allowed : List L → L → Prop} {held : List L}

/-- A call gives its locks up in the reverse order, and takes a lock only on top of those that
`allowed` lets it take it on. -/
def Nested (allowed : List L → L → Prop) : List L → List (Act L) → Prop
  | held, [] => held = []
  | held, .acquire l :: rest => allowed held l ∧ Nested allowed (l :: held) rest
  | [], .release _ :: _ => False
  | l' :: held, .release l :: rest => l' = l ∧ Nested allowed held rest

/-- A part of a call that gives up what it takes. -/
def Balanced (allowed : List L → L → Prop) (held : List L) (acts : List (Act L)) : Prop :=
  ∀ rest, Nested allowed held rest → Nested allowed held (acts ++ rest)

/-- Take a lock, and give it up after `body`. -/
def locked (l : L) (body : List (Act L)) : List (Act L) := .acquire l :: body ++ [Act.release l]

theorem Balanced.nil : Balanced allowed held [] := fun _ nested => nested

theorem Balanced.append {acts acts' : List (Act L)} (first : Balanced allowed held acts)
    (second : Balanced allowed held acts') : Balanced allowed held (acts ++ acts') := by
  intro rest nested
  rw [List.append_assoc]
  exact first _ (second rest nested)

theorem Balanced.locked {l : L} {body : List (Act L)} (top : allowed held l)
    (inner : Balanced allowed (l :: held) body) : Balanced allowed held (locked l body) := by
  intro rest nested
  refine ⟨top, ?_⟩
  change Nested allowed (l :: held) (body ++ [Act.release l] ++ rest)
  rw [List.append_assoc]
  exact inner _ ⟨rfl, nested⟩

theorem Balanced.ite {acts : List (Act L)} {P : Prop} [Decidable P]
    (balanced : Balanced allowed held acts) :
    Balanced allowed held (if P then acts else []) := by
  split
  · exact balanced
  · exact .nil

theorem Balanced.flatMap {ι : Type*} {f : ι → List (Act L)} {is : List ι}
    (each : ∀ i, Balanced allowed held (f i)) : Balanced allowed held (is.flatMap f) := by
  induction is with
  | nil => exact .nil
  | cons i is ih => exact (each i).append ih

theorem Balanced.nested {acts : List (Act L)} (balanced : Balanced allowed [] acts) :
    Nested allowed [] acts := by
  have whole := balanced [] rfl
  rwa [List.append_nil] at whole

end Nested

namespace Locks
variable {τ L κ : Type*} {allowed : List L → L → Prop}

/-- The threads hold the locks they own, and keep to `allowed`. -/
structure Orderly (allowed : List L → L → Prop) (s : Locks τ L) : Prop where
  owned : ∀ l t, s.owner l = some t ↔ l ∈ s.held t
  nodup : ∀ t, (s.held t).Nodup
  nested : ∀ t, Nested allowed (s.held t) (s.rest t)

theorem Orderly.top {s : Locks τ L} (h : s.Orderly allowed) {t : τ} {l : L}
    (next : l ∈ s.next t) : allowed (s.held t) l := by
  have nested := h.nested t
  unfold Locks.next at next
  split at next
  · rename_i rest
    cases next
    rw [rest] at nested
    exact nested.1
  · cases next

theorem init_orderly : (init : Locks τ L).Orderly allowed where
  owned := by
    intro l t
    constructor
    · exact nofun
    · exact nofun
  nodup := fun _ => .nil
  nested := fun _ => rfl

/-! ## Cycles -/

section
variable {s : Locks τ L} {t : τ}

/-- A thread of a cycle waits for another thread of it. -/
theorem waits_of_cycle (cycle : Relation.TransGen s.Waits t t) :
    ∃ t', s.Waits t t' ∧ Relation.TransGen s.Waits t' t' := by
  obtain ⟨t', waits, back⟩ := Relation.TransGen.head'_iff.1 cycle
  exact ⟨t', waits, .tail' back waits⟩

/-- However the locks are ranked, somewhere in a cycle a thread waits for a lock that is ranked
no higher than one that it holds. -/
theorem cycle_descends (cycle : Relation.TransGen s.Waits t t) (rank : L → Nat) :
    ∃ t l l', s.owner l = some t ∧ l' ∈ s.next t ∧ rank l' ≤ rank l ∧
      Relation.TransGen s.Waits t t := by
  by_contra none
  have ascends {b : τ} {l l' : L} (owned : s.owner l = some b) (next : l' ∈ s.next b)
      (cycle : Relation.TransGen s.Waits b b) : rank l < rank l' := by
    by_contra le
    exact none ⟨b, l, l', owned, next, Nat.le_of_not_lt le, cycle⟩
  -- along a path that returns to `t`, the locks that are waited for go up
  have climbs {b : τ} (path : Relation.TransGen s.Waits t b)
      (back : Relation.TransGen s.Waits b t) {l l' : L} (first : l ∈ s.next t)
      (last : l' ∈ s.next b) : rank l < rank l' := by
    induction path generalizing l' with
    | single waits =>
      obtain ⟨m, mem, owned⟩ := waits
      cases Option.mem_unique mem first
      exact ascends owned last (back.tail ⟨l, first, owned⟩)
    | tail path waits ih =>
      obtain ⟨m, mem, owned⟩ := waits
      have climbed := ih (.head ⟨m, mem, owned⟩ back) mem
      exact climbed.trans (ascends owned last (back.trans (path.tail ⟨m, mem, owned⟩)))
  obtain ⟨t', ⟨l, next, -⟩, -⟩ := waits_of_cycle cycle
  exact Nat.lt_irrefl _ (climbs cycle cycle next next)

end

/-! ## Steps -/

variable [DecidableEq τ] [DecidableEq L]

/-- What a step does. -/
theorem step_cases (acts : κ → List (Act L)) (s : Locks τ L) (i : Turn τ κ) :
    s.step acts i = s ∨
    (∃ t c, i = .call t c ∧ s.rest t = [] ∧
      s.step acts i = { s with rest := Function.update s.rest t (acts c) }) ∨
    (∃ t l rest, i = .run t ∧ s.rest t = .acquire l :: rest ∧ s.owner l = none ∧
      s.step acts i = s.acquire t l rest) ∨
    (∃ t l rest, i = .run t ∧ s.rest t = .release l :: rest ∧
      s.step acts i = s.release t l rest) := by
  cases i with
  | call t c =>
    simp only [step]
    split
    · rename_i idle
      exact .inr (.inl ⟨t, c, rfl, idle, rfl⟩)
    · exact .inl rfl
  | run t =>
    simp only [step]
    split
    · exact .inl rfl
    · rename_i l rest left
      split
      · rename_i free
        exact .inr (.inr (.inl ⟨t, l, rest, rfl, left, free, rfl⟩))
      · exact .inl rfl
    · rename_i l rest left
      exact .inr (.inr (.inr ⟨t, l, rest, rfl, left, rfl⟩))

variable {s : Locks τ L} {t : τ} {l : L} {rest : List (Act L)}

omit [DecidableEq L] in
theorem Orderly.call (h : s.Orderly allowed) (idle : s.rest t = []) {acts : List (Act L)}
    (nested : Nested allowed [] acts) :
    Orderly allowed { s with rest := Function.update s.rest t acts } := by
  refine ⟨h.owned, h.nodup, ?_⟩
  intro t'
  simp only
  by_cases here : t' = t
  · have none : s.held t = [] := by
      have nested := h.nested t
      rwa [idle] at nested
    rw [here, Function.update_self, none]
    exact nested
  · rw [Function.update_of_ne here]
    exact h.nested t'

theorem Orderly.acquire (h : s.Orderly allowed) (left : s.rest t = .acquire l :: rest)
    (free : s.owner l = none) : (s.acquire t l rest).Orderly allowed := by
  have fresh (t' : τ) : l ∉ s.held t' := by
    intro mem
    rw [(h.owned l t').2 mem] at free
    cases free
  have nested := h.nested t
  rw [left] at nested
  constructor
  case owned =>
    intro l' t'
    simp only [Locks.acquire]
    by_cases same : l' = l
    · rw [same, Function.update_self]
      by_cases here : t' = t
      · rw [here, Function.update_self]
        exact ⟨fun _ => List.mem_cons_self, fun _ => rfl⟩
      · rw [Function.update_of_ne here]
        constructor
        · intro owned
          exact absurd (Option.some.inj owned).symm here
        · exact fun mem => absurd mem (fresh t')
    · rw [Function.update_of_ne same, h.owned]
      by_cases here : t' = t
      · rw [here, Function.update_self, List.mem_cons]
        exact ⟨.inr, fun mem => mem.resolve_left same⟩
      · rw [Function.update_of_ne here]
  case nodup =>
    intro t'
    simp only [Locks.acquire]
    by_cases here : t' = t
    · rw [here, Function.update_self]
      exact List.nodup_cons.2 ⟨fresh t, h.nodup t⟩
    · rw [Function.update_of_ne here]
      exact h.nodup t'
  case nested =>
    intro t'
    simp only [Locks.acquire]
    by_cases here : t' = t
    · rw [here, Function.update_self, Function.update_self]
      exact nested.2
    · rw [Function.update_of_ne here, Function.update_of_ne here]
      exact h.nested t'

theorem Orderly.release (h : s.Orderly allowed) (left : s.rest t = .release l :: rest) :
    (s.release t l rest).Orderly allowed := by
  obtain ⟨held, below, nested⟩ : ∃ held, s.held t = l :: held ∧ Nested allowed held rest := by
    have nested := h.nested t
    rw [left] at nested
    cases below : s.held t with
    | nil =>
      rw [below] at nested
      exact nested.elim
    | cons l' held =>
      rw [below] at nested
      exact ⟨held, by rw [nested.1], nested.2⟩
  have erased : (s.held t).erase l = held := by rw [below, List.erase_cons_head]
  have fresh : l ∉ held ∧ held.Nodup := by
    have nodup := h.nodup t
    rw [below] at nodup
    exact List.nodup_cons.1 nodup
  constructor
  case owned =>
    intro l' t'
    simp only [Locks.release, erased]
    by_cases same : l' = l
    · rw [same, Function.update_self]
      refine ⟨nofun, ?_⟩
      intro mem
      by_cases here : t' = t
      · rw [here, Function.update_self] at mem
        exact absurd mem fresh.1
      · rw [Function.update_of_ne here] at mem
        have mine : l ∈ s.held t := by
          rw [below]
          exact List.mem_cons_self
        have owner := ((h.owned l t').2 mem).symm.trans ((h.owned l t).2 mine)
        exact absurd (Option.some.inj owner) here
    · rw [Function.update_of_ne same, h.owned]
      by_cases here : t' = t
      · rw [here, Function.update_self, below, List.mem_cons]
        exact ⟨fun mem => mem.resolve_left same, .inr⟩
      · rw [Function.update_of_ne here]
  case nodup =>
    intro t'
    simp only [Locks.release, erased]
    by_cases here : t' = t
    · rw [here, Function.update_self]
      exact fresh.2
    · rw [Function.update_of_ne here]
      exact h.nodup t'
  case nested =>
    intro t'
    simp only [Locks.release, erased]
    by_cases here : t' = t
    · rw [here, Function.update_self, Function.update_self]
      exact nested
    · rw [Function.update_of_ne here, Function.update_of_ne here]
      exact h.nested t'

theorem Orderly.step {acts : κ → List (Act L)} (h : s.Orderly allowed)
    (nested : ∀ c, Nested allowed [] (acts c)) (i : Turn τ κ) :
    (s.step acts i).Orderly allowed := by
  obtain same | ⟨t, c, -, idle, same⟩ | ⟨t, l, rest, -, left, free, same⟩ |
    ⟨t, l, rest, -, left, same⟩ := step_cases acts s i
  · rwa [same]
  · rw [same]
    exact h.call idle (nested c)
  · rw [same]
    exact h.acquire left free
  · rw [same]
    exact h.release left

/-! ## Crossing -/

omit [DecidableEq τ] in
theorem nests_of_next (mem : l ∈ s.held t) {l' : L} (next : l' ∈ s.next t) : s.Nests t l l' := by
  refine ⟨mem, ?_⟩
  unfold Locks.next at next
  split at next
  · rename_i left
    cases next
    rw [left, List.takeWhile_cons_of_pos (by simp)]
    exact List.mem_cons_self
  · cases next

/-- Taking a lock makes no thread nest more than it did, but for that lock. -/
theorem nests_acquire (left : s.rest t = .acquire l :: rest) {t' : τ} {a b : L}
    (nests : (s.acquire t l rest).Nests t' a b) :
    s.Nests t' a b ∨ t' = t ∧ a = l ∧ .acquire b ∈ rest.takeWhile (· ≠ .release l) := by
  obtain ⟨mem, will⟩ := nests
  simp only [Locks.acquire] at mem will
  by_cases here : t' = t
  · rw [here, Function.update_self] at mem will
    obtain rfl | mem := List.mem_cons.1 mem
    · exact .inr ⟨here, rfl, will⟩
    · refine .inl ⟨by rwa [here], ?_⟩
      rw [here, left, List.takeWhile_cons_of_pos (by simp)]
      exact List.mem_cons_of_mem _ will
  · rw [Function.update_of_ne here] at mem will
    exact .inl ⟨mem, will⟩

theorem nests_release (left : s.rest t = .release l :: rest) (nodup : (s.held t).Nodup) {t' : τ}
    {a b : L} (nests : (s.release t l rest).Nests t' a b) : s.Nests t' a b := by
  obtain ⟨mem, will⟩ := nests
  simp only [Locks.release] at mem will
  by_cases here : t' = t
  · rw [here, Function.update_self] at mem will
    obtain ⟨other, mem⟩ := (List.Nodup.mem_erase_iff nodup).1 mem
    refine ⟨by rwa [here], ?_⟩
    rw [here, left, List.takeWhile_cons_of_pos (by simpa using fun e => other e.symm)]
    exact List.mem_cons_of_mem _ will
  · rw [Function.update_of_ne here] at mem will
    exact ⟨mem, will⟩

/-- A thread that begins a call holds nothing. -/
theorem Orderly.nests_call (h : s.Orderly allowed) (idle : s.rest t = []) {acts : List (Act L)}
    {t' : τ} {a b : L}
    (nests : Nests { s with rest := Function.update s.rest t acts } t' a b) : s.Nests t' a b := by
  obtain ⟨mem, will⟩ := nests
  by_cases here : t' = t
  · have none := h.nested t
    rw [idle] at none
    rw [here] at mem
    change a ∈ s.held t at mem
    rw [show s.held t = [] from none] at mem
    cases mem
  · simp only [Function.update_of_ne here] at will
    exact ⟨mem, will⟩

/-- While no lock is taken into a crossing, no two threads cross. -/
theorem uncrossed_step {acts : κ → List (Act L)} (orderly : s.Orderly allowed)
    (h : ¬s.Crossed) {i : Turn τ κ} (ok : s.Uncrossing i) : ¬(s.step acts i).Crossed := by
  obtain same | ⟨t, c, -, idle, same⟩ | ⟨t, l, rest, rfl, left, free, same⟩ |
    ⟨t, l, rest, -, left, same⟩ := step_cases acts s i
  · rwa [same]
  · rw [same]
    rintro ⟨t', t'', a, b, ne, nests, nests'⟩
    exact h ⟨t', t'', a, b, ne, orderly.nests_call idle nests, orderly.nests_call idle nests'⟩
  · rw [same]
    change s.Clear t (s.rest t) at ok
    rw [left] at ok
    rintro ⟨t', t'', a, b, ne, nests, nests'⟩
    obtain before | ⟨rfl, rfl, will⟩ := nests_acquire left nests
    · obtain before' | ⟨rfl, rfl, will⟩ := nests_acquire left nests'
      · exact h ⟨t', t'', a, b, ne, before, before'⟩
      · exact ok free t' ne a before.1 before will
    · obtain before' | ⟨same, -, -⟩ := nests_acquire left nests'
      · exact ok free t'' ne.symm b before'.1 before' will
      · exact ne same.symm
  · rw [same]
    rintro ⟨t', t'', a, b, ne, nests, nests'⟩
    exact h ⟨t', t'', a, b, ne, nests_release left (orderly.nodup t) nests,
      nests_release left (orderly.nodup t) nests'⟩

end Locks

end Wave300.Lib
