import Wave300.Hash.Enumeration

/-!
# The hash is a finite map

The calls a run makes, what they do to a map from keys to entries, and what the links of an entry
ask of the callers: an entry that is on a list is not inserted under another key, and only an entry
that is on a list is removed.
-/

namespace Wave300.Hash

open Lib

inductive Op (κ ε : Type*) where
  | insert (k : κ) (e : ε)
  | insertReplace (k : κ) (e : ε)
  | find (k : κ)
  | remove (e : ε)
  | enumFirst
  | enumNext

variable {κ ε : Type*} [DecidableEq κ] [DecidableEq ε]

/-- What the map has for each key after a call: the entry last inserted under it and not removed. -/
def Op.apply (m : κ → Option ε) : Op κ ε → κ → Option ε
  | .insert k e => if m k = none then Function.update m k (some e) else m
  | .insertReplace k e => Function.update m k (some e)
  | .remove e => fun k => if m k = some e then none else m k
  | _ => m

def Op.Valid (m : κ → Option ε) : Op κ ε → Prop
  | .insert k e => m k = none → ∀ k', m k' ≠ some e
  | .insertReplace k e => ∀ k', m k' = some e → k' = k
  | .remove e => ∃ k, m k = some e
  | _ => True

/-- The hash and the cursor of the enumeration last started. -/
structure State (κ ε : Type*) where
  table : Table κ ε
  cursor : Cursor ε

/-- A call, none when a loop of it does not end. -/
def step (K : KeyType κ) (s : State κ ε) : Op κ ε → Option (State κ ε)
  | .insert k e => (s.table.insert K k e).map fun r => { s with table := r.1 }
  | .insertReplace k e => (s.table.insertReplace K k e).map fun r => { s with table := r.1 }
  | .find k => (s.table.find K k).map fun _ => s
  | .remove e => some { s with table := s.table.remove e }
  | .enumFirst => some { s with cursor := (s.table.enumNext s.table.enumFirst).2 }
  | .enumNext => some { s with cursor := (s.table.enumNext s.cursor).2 }

def run (K : KeyType κ) : State κ ε → List (Op κ ε) → Option (State κ ε)
  | s, [] => some s
  | s, op :: ops => (step K s op).bind fun s' => run K s' ops

variable {K : KeyType κ} {s : State κ ε} {lists : Nat → List ε} {m : κ → Option ε} {k : κ} {e : ε}

theorem apply_remove (h : Represents K s.table lists m) (mapped : m k = some e) :
    Op.apply m (.remove e) = Function.update m k none := by
  funext k'
  by_cases key : k' = k
  · subst key
    rw [Function.update_self]
    exact if_pos mapped
  · rw [Function.update_of_ne key]
    apply if_neg
    intro other
    exact key (((h.maps k' e).1 other).2.symm.trans ((h.maps k e).1 mapped).2)

/-- An entry takes the place of another under a key. -/
theorem Represents.replace_spec {t : Table κ ε} {prev : ε} (h : Represents K t lists m)
    (pos : 0 < t.nofBuckets) (found : m k = some prev) (only : ∀ k', m k' = some e → k' = k) :
    ∃ lists', Represents K ((t.remove prev).link K k e) lists' (Function.update m k (some e)) := by
  have removed := h.remove_spec pos found
  have linked := removed.link_spec (e := e) pos (Function.update_self k none m) ?_
  · rw [Function.update_idem] at linked
    exact ⟨_, linked⟩
  · intro k' mapped
    by_cases key : k' = k
    · subst key
      rw [Function.update_self] at mapped
      cases mapped
    · rw [Function.update_of_ne key] at mapped
      exact key (only k' mapped)

theorem step_spec {op : Op κ ε} (h : Represents K s.table lists m) (pos : 0 < s.table.nofBuckets)
    (valid : op.Valid m) :
    ∃ s' lists', step K s op = some s' ∧ Represents K s'.table lists' (op.apply m) ∧
      s'.table.nofBuckets = s.table.nofBuckets := by
  have finds := fun k => h.find_spec pos k
  cases op with
  | insert k e =>
    simp only [step, Table.insert, finds, Option.map_some, Op.apply]
    cases found : m k with
    | none =>
      rw [if_pos rfl]
      exact ⟨_, _, rfl, h.link_spec pos found (valid found), rfl⟩
    | some p =>
      rw [if_neg nofun]
      exact ⟨_, lists, rfl, h, rfl⟩
  | insertReplace k e =>
    simp only [step, Table.insertReplace, finds, Option.map_some, Op.apply]
    cases found : m k with
    | none =>
      refine ⟨_, _, rfl, h.link_spec pos found ?_, rfl⟩
      intro k' mapped
      obtain rfl := valid k' mapped
      rw [found] at mapped
      cases mapped
    | some p =>
      obtain ⟨lists', replaced⟩ := h.replace_spec pos found valid
      exact ⟨_, lists', rfl, replaced, rfl⟩
  | find k =>
    simp only [step, finds, Option.map_some]
    exact ⟨_, lists, rfl, h, rfl⟩
  | remove e =>
    obtain ⟨k, mapped⟩ := valid
    rw [apply_remove h mapped]
    exact ⟨_, _, rfl, h.remove_spec pos mapped, rfl⟩
  | enumFirst => exact ⟨_, lists, rfl, h, rfl⟩
  | enumNext => exact ⟨_, lists, rfl, h, rfl⟩

theorem run_spec {ops : List (Op κ ε)} (h : Represents K s.table lists m)
    (pos : 0 < s.table.nofBuckets) (valid : Allowed Op.apply Op.Valid m ops) :
    ∃ s' lists', run K s ops = some s' ∧ Represents K s'.table lists' (ops.foldl Op.apply m) ∧
      s'.table.nofBuckets = s.table.nofBuckets := by
  induction ops generalizing s lists m with
  | nil => exact ⟨s, lists, rfl, h, rfl⟩
  | cons op ops ih =>
    obtain ⟨s₁, lists₁, first, h₁, same⟩ := step_spec h pos valid.1
    obtain ⟨s', lists', rest, h', same'⟩ := ih h₁ (same ▸ pos) valid.2
    refine ⟨s', lists', ?_, h', same'.trans same⟩
    rw [run, first]
    exact rest

/-- After any calls made as the links ask for, all of which end: a key is found with the entry last
inserted under it and not removed; inserting under a key that is present returns its entry and does
nothing; and an enumeration whose caller removes only entries it was just given ends, and is given
each entry that was there at its start once. -/
theorem finite_map (K : KeyType κ) (s : State κ ε) (nofBuckets : Nat) (pos : 0 < nofBuckets)
    (ops : List (Op κ ε)) (valid : Allowed Op.apply Op.Valid (fun _ => none) ops) :
    ∃ s', run K { s with table := s.table.init nofBuckets } ops = some s' ∧
      (∀ k, s'.table.find K k = some (ops.foldl Op.apply (fun _ => none) k)) ∧
      (∀ k e p, ops.foldl Op.apply (fun _ => none) k = some p →
        s'.table.insert K k e = some (s'.table, some p)) ∧
      ∀ removes, ∃ returned t', s'.table.enumerate removes = some (returned, t') ∧
        returned.Nodup ∧
        (∀ e, e ∈ returned ↔ ∃ k, ops.foldl Op.apply (fun _ => none) k = some e) ∧
        ∀ k, ∃ found, t'.find K k = some found ∧
          ∀ e, found = some e ↔ ops.foldl Op.apply (fun _ => none) k = some e ∧
            Kept removes returned e := by
  obtain ⟨s', lists, ends, h, same⟩ :=
    run_spec (s := { s with table := s.table.init nofBuckets })
      (represents_init K s.table nofBuckets) pos valid
  have pos' : 0 < s'.table.nofBuckets := same ▸ pos
  refine ⟨s', ends, h.find_spec pos', ?_, ?_⟩
  · intro k e p found
    rw [Table.insert, h.find_spec pos', found]
    rfl
  · intro removes
    obtain ⟨t', lists', m', enumerated, h', same', kept⟩ := h.enumerate_spec pos' removes
    refine ⟨_, t', enumerated, h.entries_nodup, fun e => h.mem_entries pos', ?_⟩
    intro k
    exact ⟨m' k, h'.find_spec (same' ▸ pos') k, kept k⟩

/-- Two hosts of one bucket of the sixteen, of which the first is removed and comes again as another
entry. -/
def exampleOps : List (Op (Fin 6 → UInt8) Nat) :=
  [.insert (fun _ => 0) 0, .insert (fun _ => 16) 1, .enumFirst, .remove 0, .enumNext,
    .insert (fun _ => 0) 2]

def exampleState : State (Fin 6 → UInt8) Nat where
  table := ⟨0, ⟨id, id⟩, fun _ => 0, fun _ _ => 0, fun _ => 0⟩
  cursor := ⟨.poison, 0⟩

theorem exampleOps_valid : Allowed Op.apply Op.Valid (fun _ => none) exampleOps := by
  refine ⟨fun _ _ => nofun, ?_, trivial, ⟨fun _ => 0, ?_⟩, trivial, ?_, trivial⟩
  · intro _ k
    simp [Op.apply, Function.update_apply]
  · decide
  · intro _ k
    simp only [Op.apply]
    grind

theorem finite_map_of_two_hosts :
    ∃ s', run ieeeAddr { exampleState with table := exampleState.table.init 16 } exampleOps =
      some s' ∧ s'.table.find ieeeAddr (fun _ => 0) = some (some 2) := by
  obtain ⟨s', ends, finds, -⟩ :=
    finite_map ieeeAddr exampleState 16 (by decide) exampleOps exampleOps_valid
  exact ⟨s', ends, (finds _).trans (by decide)⟩

end Wave300.Hash
