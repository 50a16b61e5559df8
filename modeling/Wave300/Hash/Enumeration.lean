import Wave300.Hash.Table

/-!
# Going through the hash

An enumeration keeps the index of a list and a link into it: the entry it will return next, or the
head when the list is done. An entry that was returned may be removed before the next one is asked
for, since the link has already gone past it.
-/

namespace Wave300.Hash

open Lib

/-- `mtlk_hash_enum_t` -/
structure Cursor (ε : Type*) where
  data1 : Node ε
  data2 : Nat

section Calls
variable {κ ε : Type*} [DecidableEq ε]

namespace Table

/-- `mtlk_hash_enum_first`, up to the call of `mtlk_hash_enum_next`. -/
def enumFirst (t : Table κ ε) : Cursor ε where
  data1 := t.links.next (.head 0)
  data2 := 0

/-- The loop of `mtlk_hash_enum_next` over the lists, of which so many are left. -/
def enumSkip (t : Table κ ε) : Nat → Nat → Node ε → Nat × Node ε
  | 0, idx, curr => (idx, curr)
  | left + 1, idx, curr =>
    if curr = .head idx then t.enumSkip left (idx + 1) (t.links.next (.head (idx + 1)))
    else (idx, curr)

/-- `mtlk_hash_enum_next` -/
def enumNext (t : Table κ ε) (c : Cursor ε) : Option ε × Cursor ε :=
  let stop := t.enumSkip (t.nofBuckets - 1 - c.data2) c.data2 c.data1
  if stop.2 = .head stop.1 then (none, c)
  else (stop.2.containerOf, ⟨t.links.next stop.2, stop.1⟩)

/-- The loop of a caller that removes some of the entries it is given, each right when it is given
it, in a number of rounds: the entries in the order they were given, and what is left. -/
def enumLoop : Nat → (Nat → Bool) → Table κ ε → Option ε × Cursor ε → Option (List ε × Table κ ε)
  | 0, _, _, _ => none
  | _ + 1, _, t, (none, _) => some ([], t)
  | rounds + 1, removes, t, (some e, c) =>
    let t' := if removes 0 then t.remove e else t
    (enumLoop rounds (fun i => removes (i + 1)) t' (t'.enumNext c)).map fun r => (e :: r.1, r.2)

/-- An enumeration from its start, given one round more than the hash has members. -/
def enumerate (removes : Nat → Bool) (t : Table κ ε) : Option (List ε × Table κ ε) :=
  enumLoop (((List.range t.nofBuckets).map t.depth).sum + 1) removes t (t.enumNext t.enumFirst)

end Table

end Calls

variable {κ ε : Type*}

/-- The entries of the lists from one on. -/
def entriesFrom (lists : Nat → List ε) (nofBuckets idx : Nat) : List ε :=
  (List.range' idx (nofBuckets - idx)).flatMap lists

/-- The cursor points between the entries that were returned and those that are to come. -/
structure Points (t : Table κ ε) (lists : Nat → List ε) (idx : Nat) (curr : Node ε)
    (before behind coming : List ε) : Prop where
  lt : idx < t.nofBuckets
  split : lists idx = before ++ behind
  curr : curr = (behind.map Node.entry).headD (.head idx)
  coming : coming = behind ++ entriesFrom lists t.nofBuckets (idx + 1)

variable {K : KeyType κ} {t : Table κ ε} {lists : Nat → List ε} {m : κ → Option ε} {k : κ} {e : ε}
  {idx : Nat} {curr : Node ε} {c : Cursor ε} {before behind coming : List ε}

theorem entriesFrom_of_lt {n : Nat} (lt : idx < n) :
    entriesFrom lists n idx = lists idx ++ entriesFrom lists n (idx + 1) := by
  unfold entriesFrom
  obtain ⟨d, rfl⟩ := Nat.exists_eq_add_of_lt lt
  rw [show idx + d + 1 - idx = d + 1 by omega, show idx + d + 1 - (idx + 1) = d by omega,
    List.range'_succ, List.flatMap_cons]

/-- At the start of a list everything from that list on is to come. -/
theorem points_start (h : Represents K t lists m) (lt : idx < t.nofBuckets) :
    Points t lists idx (t.links.next (.head idx)) [] (lists idx)
      (entriesFrom lists t.nofBuckets idx) where
  lt := lt
  split := rfl
  curr := (h.ring idx lt).path.next_eq
  coming := entriesFrom_of_lt lt

namespace Represents

/-- Every entry is there once when the lists are gone through in turn. -/
theorem entries_nodup (h : Represents K t lists m) :
    (entriesFrom lists t.nofBuckets 0).Nodup := by
  rw [entriesFrom, List.nodup_flatMap]
  constructor
  · intro i mem
    have lt : i < t.nofBuckets := by
      have := (List.mem_range'_1.1 mem).2
      omega
    exact ((List.nodup_cons.1 (h.ring i lt).nodup).2).of_map
  · apply List.Nodup.pairwise_of_forall_ne (List.nodup_range' ..)
    intro i hi j hj ne e mem mem'
    have hi' := (List.mem_range'_1.1 hi).2
    have hj' := (List.mem_range'_1.1 hj).2
    exact ne ((h.home i (by omega) e mem).1.symm.trans (h.home j (by omega) e mem').1)

theorem mem_entries (h : Represents K t lists m) (pos : 0 < t.nofBuckets) :
    e ∈ entriesFrom lists t.nofBuckets 0 ↔ ∃ k, m k = some e := by
  rw [entriesFrom, List.mem_flatMap]
  constructor
  · rintro ⟨i, mem, has⟩
    have lt := (List.mem_range'_1.1 mem).2
    exact ⟨_, ((h.mem_iff (by omega)).1 has).1⟩
  · rintro ⟨k, mapped⟩
    have lt := K.lt k _ pos
    refine ⟨_, List.mem_range'_1.2 ⟨Nat.zero_le _, by omega⟩, ((h.maps k e).1 mapped).1⟩

theorem length_entries (h : Represents K t lists m) :
    (entriesFrom lists t.nofBuckets 0).length = ((List.range t.nofBuckets).map t.depth).sum := by
  rw [entriesFrom, List.length_flatMap, Nat.sub_zero, ← List.range_eq_range']
  congr 1
  apply List.map_congr_left
  intro i mem
  exact (h.depth i (List.mem_range.1 mem)).symm

end Represents

variable [DecidableEq ε]

/-- The loop over the lists stops at an entry, unless there is none to come. -/
theorem enumSkip_spec (h : Represents K t lists m) {left : Nat}
    (last : left = t.nofBuckets - 1 - idx) (p : Points t lists idx curr before behind coming) :
    ∃ before' behind', Points t lists (t.enumSkip left idx curr).1 (t.enumSkip left idx curr).2
      before' behind' coming ∧ (behind' = [] → coming = []) := by
  induction left generalizing idx curr before behind with
  | zero =>
    refine ⟨before, behind, p, ?_⟩
    rintro rfl
    have lt := p.lt
    have none : t.nofBuckets - (idx + 1) = 0 := by omega
    rw [p.coming, entriesFrom, none, List.range'_zero, List.flatMap_nil, List.append_nil]
  | succ left ih =>
    cases behind with
    | nil =>
      have lt : idx + 1 < t.nofBuckets := by omega
      have done : curr = .head idx := p.curr
      have skip : t.enumSkip (left + 1) idx curr =
          t.enumSkip left (idx + 1) (t.links.next (.head (idx + 1))) := if_pos done
      obtain rfl : coming = entriesFrom lists t.nofBuckets (idx + 1) := p.coming
      rw [skip]
      exact ih (by omega) (points_start h lt)
    | cons e behind =>
      have here : curr = .entry e := p.curr
      have stop : t.enumSkip (left + 1) idx curr = (idx, curr) := by
        apply if_neg
        rw [here]
        rintro ⟨⟩
      rw [stop]
      exact ⟨before, e :: behind, p, nofun⟩

theorem enumNext_done (h : Represents K t lists m)
    (p : Points t lists c.data2 c.data1 before behind []) : t.enumNext c = (none, c) := by
  obtain ⟨before', behind', p', -⟩ := enumSkip_spec h rfl p
  have nil : behind' = [] := (List.append_eq_nil_iff.1 p'.coming.symm).1
  subst nil
  exact if_pos p'.curr

/-- The next entry is returned, and the cursor points behind it. -/
theorem enumNext_some (h : Represents K t lists m)
    (p : Points t lists c.data2 c.data1 before behind (e :: coming)) :
    ∃ c' before' behind', t.enumNext c = (some e, c') ∧
      lists c'.data2 = before' ++ e :: behind' ∧
      Points t lists c'.data2 c'.data1 (before' ++ [e]) behind' coming := by
  obtain ⟨before', behind', p', stop⟩ := enumSkip_spec h rfl p
  cases behind' with
  | nil => cases stop rfl
  | cons x behind' =>
    obtain ⟨rfl, rest⟩ := List.cons.inj p'.coming
    have here : (t.enumSkip (t.nofBuckets - 1 - c.data2) c.data2 c.data1).2 = .entry e := p'.curr
    have split := p'.split
    have ring := (h.ring _ p'.lt).path
    rw [split, List.map_append, List.map_cons] at ring
    refine ⟨⟨t.links.next (.entry e), _⟩, before', behind', ?_, split, ?_⟩
    · unfold Table.enumNext
      rw [if_neg]
      · rw [here]
        rfl
      · rw [here]
        rintro ⟨⟩
    · constructor
      case lt => exact p'.lt
      case split => rw [split, List.append_assoc, List.singleton_append]
      case curr => exact (Links.path_append.1 ring).2.next_eq
      case coming => exact rest

/-- What was returned can be removed: the cursor has gone past it. -/
theorem Points.remove {removed : List ε} (p : Points t lists idx curr before behind coming)
    (kept : removed ++ behind = (lists idx).erase e) :
    Points (t.remove e) (Function.update lists idx ((lists idx).erase e)) idx curr removed behind
      coming := by
  constructor
  case lt => exact p.lt
  case split => rw [Function.update_self, kept]
  case curr => exact p.curr
  case coming =>
    rw [p.coming]
    congr 1
    apply List.flatMap_congr
    intro i mem
    rw [Function.update_of_ne]
    have := (List.mem_range'_1.1 mem).1
    omega

/-- The entries that stay when of those returned some are removed. -/
def Kept (removes : Nat → Bool) (returned : List ε) (e : ε) : Prop :=
  ∀ i, returned[i]? = some e → removes i = false

omit [DecidableEq ε] in
theorem kept_cons {removes : Nat → Bool} {coming : List ε} {x : ε} :
    Kept removes (e :: coming) x ↔
      (x = e → removes 0 = false) ∧ Kept (fun i => removes (i + 1)) coming x := by
  constructor
  · intro kept
    refine ⟨?_, fun i => kept (i + 1)⟩
    rintro rfl
    exact kept 0 rfl
  · rintro ⟨first, rest⟩ i at'
    cases i with
    | zero => exact first (Option.some.inj at').symm
    | succ i => exact rest i at'

variable [DecidableEq κ]

omit [DecidableEq ε] in
/-- Taking an entry out of the map leaves the others. -/
theorem Represents.unmapped (h : Represents K t lists m) (mapped : m (t.key e) = some e) (k : κ)
    (x : ε) : Function.update m (t.key e) none k = some x ↔ m k = some x ∧ x ≠ e := by
  by_cases key : k = t.key e
  · subst key
    rw [Function.update_self, mapped]
    refine iff_of_false nofun ?_
    rintro ⟨⟨⟩, ne⟩
    exact ne rfl
  · rw [Function.update_of_ne key]
    refine (and_iff_left_of_imp ?_).symm
    rintro other rfl
    exact absurd ((h.maps k x).1 other).2.symm key

theorem enumLoop_spec (h : Represents K t lists m) (pos : 0 < t.nofBuckets)
    (p : Points t lists c.data2 c.data1 before behind coming) (removes : Nat → Bool) {rounds : Nat}
    (enough : coming.length < rounds) :
    ∃ t' lists' m', Table.enumLoop rounds removes t (t.enumNext c) = some (coming, t') ∧
      Represents K t' lists' m' ∧ t'.nofBuckets = t.nofBuckets ∧
      ∀ k x, m' k = some x ↔ m k = some x ∧ Kept removes coming x := by
  induction coming generalizing rounds removes t lists m c before behind with
  | nil =>
    obtain ⟨rounds, rfl⟩ := Nat.exists_eq_succ_of_ne_zero (Nat.ne_of_gt enough)
    refine ⟨t, lists, m, ?_, h, rfl, ?_⟩
    · rw [enumNext_done h p]
      rfl
    · intro k x
      exact (and_iff_left nofun).symm
  | cons e coming ih =>
    obtain ⟨rounds, rfl⟩ := Nat.exists_eq_succ_of_ne_zero (Nat.ne_of_gt (Nat.zero_lt_of_lt enough))
    have enough' : coming.length < rounds := Nat.lt_of_succ_lt_succ enough
    obtain ⟨c', before', behind', next, split, p'⟩ := enumNext_some h p
    have mem : e ∈ lists c'.data2 := split ▸ List.mem_append_right _ List.mem_cons_self
    obtain ⟨mapped, idx⟩ := (h.mem_iff p'.lt).1 mem
    rw [next, Table.enumLoop]
    cases removed : removes 0 with
    | false =>
      obtain ⟨t', lists', m', loop, represents, same, holds⟩ :=
        ih h pos p' (fun i => removes (i + 1)) enough'
      refine ⟨t', lists', m', ?_, represents, same, ?_⟩
      · simp only [Bool.false_eq_true, if_false, loop, Option.map_some]
      · intro k x
        rw [holds k x, kept_cons, removed]
        exact and_congr_right' (and_iff_right fun _ => rfl).symm
    | true =>
      have h' := h.remove_spec pos mapped
      rw [idx] at h'
      have nodup : (lists c'.data2).Nodup :=
        ((List.nodup_cons.1 (h.ring _ p'.lt).nodup).2).of_map
      have fresh : e ∉ before' := by
        rw [split] at nodup
        exact fun mem => (List.nodup_append.1 nodup).2.2 e mem e List.mem_cons_self rfl
      have p'' : Points (t.remove e) (Function.update lists c'.data2 ((lists c'.data2).erase e))
          c'.data2 c'.data1 before' behind' coming := by
        apply p'.remove
        rw [split, List.erase_append_right _ fresh, List.erase_cons_head]
      obtain ⟨t', lists', m', loop, represents, same, holds⟩ :=
        ih h' pos p'' (fun i => removes (i + 1)) enough'
      refine ⟨t', lists', m', ?_, represents, same, ?_⟩
      · simp only [if_true, loop, Option.map_some]
      · intro k x
        rw [holds k x, kept_cons, removed, ← and_assoc, h.unmapped mapped]
        simp only [Bool.true_eq_false, imp_false, ne_eq]

namespace Represents

/-- An enumeration ends, has returned everything that was there at its start in turn, and leaves
what the caller has not removed. -/
theorem enumerate_spec (h : Represents K t lists m) (pos : 0 < t.nofBuckets)
    (removes : Nat → Bool) :
    ∃ t' lists' m', t.enumerate removes = some (entriesFrom lists t.nofBuckets 0, t') ∧
      Represents K t' lists' m' ∧ t'.nofBuckets = t.nofBuckets ∧
      ∀ k x, m' k = some x ↔ m k = some x ∧ Kept removes (entriesFrom lists t.nofBuckets 0) x :=
  enumLoop_spec h pos (points_start h pos : Points t lists t.enumFirst.data2 _ _ _ _) removes
    (h.length_entries ▸ Nat.lt_succ_self _)

end Represents

end Wave300.Hash
