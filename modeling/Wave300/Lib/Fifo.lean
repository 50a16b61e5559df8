import Wave300.Lib.Rings

/-!
# Queues that can be left from the middle

A circular buffer as the list of what it holds, and the ledger of a queue: entries are
numbered as they come, and each is served, withdraws, or still waits.
-/

namespace Wave300.Lib

namespace Ring
variable {α : Type*} {n : Nat} {r : Ring α} {a : α} {i : Nat}

/-- What the window holds, from its first entry on. -/
def toList (n : Nat) (r : Ring α) : List α :=
  (List.range r.total).map fun k => r.ptr (wrap n (r.fromIdx + k))

@[simp] theorem length_toList : (r.toList n).length = r.total := by
  rw [toList, List.length_map, List.length_range]

theorem getElem_toList {k : Nat} (lt : k < (r.toList n).length) :
    (r.toList n)[k] = r.ptr (wrap n (r.fromIdx + k)) := by
  simp only [toList, List.getElem_map, List.getElem_range]

theorem toList_eq_nil (empty : r.total = 0) : r.toList n = [] := by
  rw [toList, empty, List.range_zero, List.map_nil]

theorem Valid.mem_toList (h : r.Valid n) : a ∈ r.toList n ↔ ∃ i, r.Holds n i ∧ r.ptr i = a := by
  simp only [toList, List.mem_map, List.mem_range]
  constructor
  · rintro ⟨k, lt, rfl⟩
    exact ⟨_, (h.holds_wrap lt).1, rfl⟩
  · rintro ⟨i, holds, rfl⟩
    exact ⟨offset n r.fromIdx i, holds.2, by rw [h.wrap_offset holds]⟩

theorem Valid.toList_push (h : r.Valid n) (room : r.total < n) :
    (r.push n a).toList n = r.toList n ++ [a] := by
  have e : (r.push n a).total = r.total + 1 := rfl
  simp only [toList, e, List.range_succ, List.map_append, List.map_cons, List.map_nil]
  congr 1
  · apply List.map_congr_left
    intro k mem
    have holds := (h.holds_wrap (List.mem_range.1 mem)).1
    have apart : wrap n (r.fromIdx + k) ≠ r.toIdx := by
      intro same
      rw [same] at holds
      exact h.not_holds_to room holds
    exact Function.update_of_ne apart _ _
  · congr 1
    change Function.update r.ptr r.toIdx a (wrap n (r.fromIdx + r.total)) = a
    rw [← h.to_eq, Function.update_self]

theorem Valid.toList_pop (h : r.Valid n) (some : r.total ≠ 0) :
    r.toList n = r.ptr r.fromIdx :: (r.pop n).toList n := by
  obtain ⟨t, e⟩ := Nat.exists_eq_succ_of_ne_zero some
  have e' : (r.pop n).total = t := by simp only [Ring.pop, e, Nat.succ_sub_one]
  simp only [toList, e, e', List.range_succ_eq_map, List.map_cons, List.map_map]
  have := h.from_lt
  have := h.total_le
  congr 1
  · rw [Nat.add_zero, wrap, if_pos h.from_lt]
  · apply List.map_congr_left
    intro k mem
    have lt := List.mem_range.1 mem
    simp only [Function.comp_apply, Ring.pop]
    congr 1
    simp only [wrap, incWrap]
    split <;> split <;> split <;> omega

theorem Valid.toList_update (h : r.Valid n) (holds : r.Holds n i) :
    Ring.toList n { r with ptr := Function.update r.ptr i a } =
      (r.toList n).set (offset n r.fromIdx i) a := by
  apply List.ext_getElem
  · simp only [length_toList, List.length_set]
  · intro k lt lt'
    rw [length_toList] at lt
    rw [getElem_toList, List.getElem_set, getElem_toList]
    obtain ⟨_, at_k⟩ := h.holds_wrap lt
    simp only [Function.update_apply]
    by_cases e : wrap n (r.fromIdx + k) = i
    · rw [if_pos e, if_pos (by rw [← e, at_k])]
    · rw [if_neg e, if_neg]
      intro same
      apply e
      rw [← same, h.wrap_offset holds]

end Ring

/-- Moving an element up by one moves the gap it goes over down by one. -/
theorem eraseIdx_set_succ {α : Type*} {l : List α} {d : Nat} (lt : d + 1 < l.length) :
    (l.set (d + 1) l[d]).eraseIdx d = l.eraseIdx (d + 1) := by
  induction l generalizing d with
  | nil => cases lt
  | cons x l ih =>
    cases d with
    | zero =>
      cases l with
      | nil => exact absurd lt (Nat.lt_irrefl 1)
      | cons y l => rfl
    | succ d => exact congrArg (x :: ·) (ih (Nat.lt_of_succ_lt_succ lt))

namespace Rings
variable {κ α : Type*} [DecidableEq κ] [DecidableEq α] {n : Nat} {t : Rings κ α} {q : κ} {a : α}
  {i : Nat}

theorem carry_ring (j : Nat) : (t.carry q j i).ring q =
    { t.ring q with ptr := Function.update (t.ring q).ptr i ((t.ring q).ptr j) } :=
  Function.update_self ..

omit [DecidableEq α] in
theorem offset_decWrap {r : Ring α} (h : r.Valid n) (holds : r.Holds n i) (ne : i ≠ r.fromIdx) :
    offset n r.fromIdx (decWrap n i) + 1 = offset n r.fromIdx i := by
  have := h.from_lt
  have := holds.1
  simp only [offset, decWrap]
  split <;> split <;> split <;> omega

/-- The loop that moves elements up leaves them in order. -/
theorem shiftUp_eraseIdx {fuel : Nat} (valid : (t.ring q).Valid n) (holds : (t.ring q).Holds n i)
    (ne : i ≠ (t.ring q).fromIdx) (enough : offset n (t.ring q).fromIdx i ≤ fuel) :
    (((shiftUp n q fuel i t).ring q).toList n).eraseIdx 0 =
      ((t.ring q).toList n).eraseIdx (offset n (t.ring q).fromIdx i) := by
  induction fuel generalizing i t with
  | zero =>
    have := offset_decWrap valid holds ne
    omega
  | succ fuel ih =>
    have step := offset_decWrap valid holds ne
    have before := (valid.holds_prev holds ne).1
    have moved : (((t.carry q (decWrap n i) i).ring q).toList n).eraseIdx
        (offset n (t.ring q).fromIdx (decWrap n i)) =
        ((t.ring q).toList n).eraseIdx (offset n (t.ring q).fromIdx i) := by
      have lt : offset n (t.ring q).fromIdx (decWrap n i) + 1 < ((t.ring q).toList n).length := by
        rw [Ring.length_toList, step]
        exact holds.2
      have e : (t.ring q).ptr (decWrap n i) =
          ((t.ring q).toList n)[offset n (t.ring q).fromIdx (decWrap n i)] := by
        rw [Ring.getElem_toList, valid.wrap_offset before]
      rw [carry_ring, valid.toList_update holds, e, ← step]
      exact eraseIdx_set_succ lt
    have valid' : ((t.carry q (decWrap n i) i).ring q).Valid n := by
      rw [carry_ring]
      exact ⟨valid.from_lt, valid.total_le, valid.to_eq⟩
    have first := (carry_arranged t q (decWrap n i) i).fromIdx
    rw [← moved, shiftUp]
    split
    · rename_i last
      rw [last, first, offset, if_pos (le_refl _), Nat.sub_self]
    · rename_i more
      rw [← first]
      apply ih valid' _ more
      · rw [first]
        omega
      · rw [carry_ring]
        exact before

/-- What is left when the first entry is dropped after the entries were rearranged. -/
theorem Arranged.toList_take {t' : Rings κ α} (same : Arranged t t' q)
    (valid : (t.ring q).Valid n) (some : (t.ring q).total ≠ 0) :
    (((t'.take n q).setOut a).ring q).toList n = ((t'.ring q).toList n).eraseIdx 0 := by
  have valid' : (t'.ring q).Valid n := by
    refine ⟨?_, ?_, ?_⟩
    · rw [same.fromIdx]
      exact valid.from_lt
    · rw [same.total]
      exact valid.total_le
    · rw [same.toIdx, same.fromIdx, same.total]
      exact valid.to_eq
  have e : ((t'.take n q).setOut a).ring q = (t'.ring q).pop n := Function.update_self ..
  rw [e, valid'.toList_pop (same.total ▸ some)]
  rfl

theorem Seated.toList_unlink_eq (h : t.Seated n) (home : t.home a = some q) :
    ((t.unlink n q a true).ring q).toList n =
      ((t.ring q).toList n).eraseIdx (offset n (t.ring q).fromIdx (t.idx a)) := by
  obtain ⟨holds, found⟩ := h.seat a q home
  have valid := h.valid q
  have some : (t.ring q).total ≠ 0 := Nat.ne_of_gt (Nat.zero_lt_of_lt holds.2)
  rw [Rings.unlink, if_pos found]
  split
  · rename_i first
    rw [(Arranged.refl t q).toList_take valid some, first, offset, if_pos (le_refl _),
      Nat.sub_self]
  · rename_i ne
    rw [if_pos rfl, (shiftUp_arranged ..).toList_take valid some, shiftUp_eraseIdx valid holds ne]
    have := holds.1
    have := valid.from_lt
    simp only [offset]
    split <;> omega

/-- Taking an element out leaves the others in order. -/
theorem Seated.toList_unlink (h : t.Seated n) (home : t.home a = some q) :
    (((t.unlink n q a true).ring q).toList n).Sublist ((t.ring q).toList n) := by
  rw [h.toList_unlink_eq home]
  exact List.eraseIdx_sublist ..

/-- Taking an element out leaves those behind it where they are. -/
theorem Seated.drop_unlink (h : t.Seated n) (keepOrder : Bool) (home : t.home a = some q) :
    (((t.unlink n q a keepOrder).ring q).toList n).drop (offset n (t.ring q).fromIdx (t.idx a)) =
      ((t.ring q).toList n).drop (offset n (t.ring q).fromIdx (t.idx a) + 1) := by
  cases keepOrder with
  | true =>
    have inside : offset n (t.ring q).fromIdx (t.idx a) < ((t.ring q).toList n).length := by
      rw [Ring.length_toList]
      exact (h.seat a q home).1.2
    rw [h.toList_unlink_eq home, List.eraseIdx_eq_take_drop_succ]
    apply List.drop_left'
    rw [List.length_take, Nat.min_eq_left inside.le]
  | false =>
    obtain ⟨holds, found⟩ := h.seat a q home
    have valid := h.valid q
    have some : (t.ring q).total ≠ 0 := Nat.ne_of_gt (Nat.zero_lt_of_lt holds.2)
    rw [Rings.unlink, if_pos found]
    split
    · rename_i first
      rw [(Arranged.refl t q).toList_take valid some, first, offset, if_pos (le_refl _),
        Nat.sub_self, List.drop_zero, List.eraseIdx_zero, List.drop_one]
    · rw [if_neg Bool.false_ne_true, (carry_arranged ..).toList_take valid some, carry_ring,
        valid.toList_update holds, List.eraseIdx_zero, ← List.drop_one, List.drop_drop,
        Nat.add_comm 1, List.drop_set_of_lt (Nat.lt_succ_self _)]

omit [DecidableEq κ] [DecidableEq α] in
theorem Seated.mem_toList (h : t.Seated n) : a ∈ (t.ring q).toList n ↔ t.home a = some q := by
  rw [(h.valid q).mem_toList]
  constructor
  · rintro ⟨i, holds, rfl⟩
    exact (h.held q i holds).1
  · intro home
    exact ⟨t.idx a, h.seat a q home⟩

omit [DecidableEq κ] [DecidableEq α] in
theorem Seated.nodup_toList (h : t.Seated n) : ((t.ring q).toList n).Nodup := by
  apply List.nodup_range.map_on
  intro j j_lt k k_lt same
  obtain ⟨j_holds, at_j⟩ := (h.valid q).holds_wrap (List.mem_range.1 j_lt)
  obtain ⟨k_holds, at_k⟩ := (h.valid q).holds_wrap (List.mem_range.1 k_lt)
  rw [← at_j, ← at_k, ← (h.held q _ j_holds).2, same, (h.held q _ k_holds).2]

end Rings

/-- The history of a queue. Entries are numbered in the order in which they come; `latest`
is the number of somebody's last entry. -/
structure Ledger (β : Type*) where
  entered : Nat
  latest : β → Nat
  served : List Nat
  withdrawn : List Nat

namespace Ledger
variable {β : Type*} {l : Ledger β} {line line' : List β} {b : β}

def enter [DecidableEq β] (l : Ledger β) (b : β) : Ledger β :=
  { l with entered := l.entered + 1, latest := Function.update l.latest b l.entered }

def serve (l : Ledger β) (b : β) : Ledger β := { l with served := l.served ++ [l.latest b] }

def withdraw (l : Ledger β) (gone : List β) : Ledger β :=
  { l with withdrawn := l.withdrawn ++ gone.map l.latest }

/-- Entries are served in the order in which they came, each at most once and those that
withdraw not at all; who has come is served, has withdrawn, or waits in `line`. -/
structure InOrder (l : Ledger β) (line : List β) : Prop where
  served : l.served.Pairwise (· < ·)
  waiting : (line.map l.latest).Pairwise (· < ·)
  behind : ∀ k ∈ l.served, ∀ b ∈ line, k < l.latest b
  fate : ∀ k, k < l.entered ↔ k ∈ l.served ∨ k ∈ l.withdrawn ∨ k ∈ line.map l.latest
  kept : ∀ k ∈ l.withdrawn, k ∉ l.served ∧ k ∉ line.map l.latest

theorem InOrder.nodup (h : l.InOrder line) : line.Nodup :=
  List.Nodup.of_map l.latest (h.waiting.imp Nat.ne_of_lt)

theorem InOrder.enter [DecidableEq β] (h : l.InOrder line) (fresh : b ∉ line) :
    (l.enter b).InOrder (line ++ [b]) := by
  have same : ∀ c ∈ line, (l.enter b).latest c = l.latest c := by
    intro c mem
    apply Function.update_of_ne
    rintro rfl
    exact fresh mem
  have now : (l.enter b).latest b = l.entered := Function.update_self ..
  have numbers : (line ++ [b]).map (l.enter b).latest = line.map l.latest ++ [l.entered] := by
    rw [List.map_append, List.map_congr_left same, List.map_cons, List.map_nil, now]
  constructor
  case served => exact h.served
  case waiting =>
    rw [numbers, List.pairwise_append]
    refine ⟨h.waiting, List.pairwise_singleton .., ?_⟩
    intro k mem j mem'
    obtain rfl := List.mem_singleton.1 mem'
    exact (h.fate k).2 (.inr (.inr mem))
  case behind =>
    intro k mem c mem'
    obtain mem' | mem' := List.mem_append.1 mem'
    · rw [same c mem']
      exact h.behind k mem c mem'
    · obtain rfl := List.mem_singleton.1 mem'
      rw [now]
      exact (h.fate k).2 (.inl mem)
  case fate =>
    intro k
    rw [numbers, List.mem_append, List.mem_singleton]
    change k < l.entered + 1 ↔ k ∈ l.served ∨ k ∈ l.withdrawn ∨ _
    rw [Nat.lt_succ_iff_lt_or_eq, h.fate k, or_assoc, or_assoc]
  case kept =>
    intro k mem
    rw [numbers, List.mem_append, List.mem_singleton]
    have lt := (h.fate k).2 (.inr (.inl mem))
    refine ⟨(h.kept k mem).1, ?_⟩
    rintro (waits | rfl)
    · exact (h.kept k mem).2 waits
    · exact Nat.lt_irrefl _ lt

theorem InOrder.enters [DecidableEq β] {new : List β} (h : l.InOrder line)
    (fresh : (line ++ new).Nodup) : (new.foldl Ledger.enter l).InOrder (line ++ new) := by
  induction new generalizing l line with
  | nil => rwa [List.append_nil]
  | cons b new ih =>
    rw [List.append_cons] at fresh ⊢
    apply ih (h.enter _) fresh
    intro mem
    exact (List.nodup_append.1 fresh.of_append_left).2.2 b mem b (List.mem_singleton_self b) rfl

theorem InOrder.serve (h : l.InOrder (b :: line)) : (l.serve b).InOrder line := by
  have ahead := h.waiting
  rw [List.map_cons, List.pairwise_cons] at ahead
  constructor
  case served =>
    change (l.served ++ [l.latest b]).Pairwise (· < ·)
    rw [List.pairwise_append]
    refine ⟨h.served, List.pairwise_singleton .., ?_⟩
    intro k mem j mem'
    obtain rfl := List.mem_singleton.1 mem'
    exact h.behind k mem b List.mem_cons_self
  case waiting => exact ahead.2
  case behind =>
    intro k mem c mem'
    obtain mem | mem := List.mem_append.1 mem
    · exact h.behind k mem c (List.mem_cons_of_mem b mem')
    · obtain rfl := List.mem_singleton.1 mem
      exact ahead.1 _ (List.mem_map_of_mem mem')
  case fate =>
    intro k
    rw [show (l.serve b).served = l.served ++ [l.latest b] from rfl, List.mem_append,
      List.mem_singleton]
    change k < l.entered ↔ (k ∈ l.served ∨ k = l.latest b) ∨ k ∈ l.withdrawn ∨ _
    rw [h.fate k, List.map_cons, List.mem_cons]
    tauto
  case kept =>
    intro k mem
    obtain ⟨unserved, gone⟩ := h.kept k mem
    rw [List.map_cons, List.mem_cons, not_or] at gone
    refine ⟨?_, gone.2⟩
    intro mem'
    obtain mem' | mem' := List.mem_append.1 mem'
    · exact unserved mem'
    · exact gone.1 (List.mem_singleton.1 mem')

/-- Some of the line leave it, and the others keep their places. -/
theorem InOrder.withdraw {gone : List β} (h : l.InOrder line) (rest : line'.Sublist line)
    (left : ∀ c, c ∈ gone ↔ c ∈ line ∧ c ∉ line') : (l.withdraw gone).InOrder line' := by
  have numbers := rest.map l.latest
  have apart {c d : β} (mem : c ∈ line) (mem' : d ∈ line) (same : l.latest c = l.latest d) :
      c = d := List.inj_on_of_nodup_map (h.waiting.imp Nat.ne_of_lt) mem mem' same
  constructor
  case served => exact h.served
  case waiting => exact h.waiting.sublist numbers
  case behind =>
    intro k mem c mem'
    exact h.behind k mem c (rest.subset mem')
  case fate =>
    intro k
    change k < l.entered ↔ k ∈ l.served ∨ k ∈ l.withdrawn ++ gone.map l.latest ∨
      k ∈ line'.map l.latest
    rw [h.fate k, List.mem_append, or_assoc]
    have split : k ∈ line.map l.latest ↔ k ∈ gone.map l.latest ∨ k ∈ line'.map l.latest := by
      constructor
      · intro mem
        obtain ⟨c, waits, rfl⟩ := List.mem_map.1 mem
        by_cases stays : c ∈ line'
        · exact .inr (List.mem_map_of_mem stays)
        · exact .inl (List.mem_map_of_mem ((left c).2 ⟨waits, stays⟩))
      · rintro (mem | mem)
        · obtain ⟨c, leaves, rfl⟩ := List.mem_map.1 mem
          exact List.mem_map_of_mem ((left c).1 leaves).1
        · exact numbers.subset mem
    rw [split]
  case kept =>
    intro k mem
    obtain mem | mem := List.mem_append.1 mem
    · exact ⟨(h.kept k mem).1, fun waits => (h.kept k mem).2 (numbers.subset waits)⟩
    · obtain ⟨c, leaves, rfl⟩ := List.mem_map.1 mem
      obtain ⟨waits, away⟩ := (left c).1 leaves
      constructor
      · intro served
        exact Nat.lt_irrefl _ (h.behind _ served c waits)
      · intro mem'
        obtain ⟨d, stays, same⟩ := List.mem_map.1 mem'
        rw [apart (rest.subset stays) waits same] at stays
        exact away stays

end Ledger

end Wave300.Lib
