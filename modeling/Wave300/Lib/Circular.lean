import Mathlib.Data.List.Nodup
import Mathlib.Logic.Function.Basic

/-!
# Circular lists

Nodes with a link to the next one and a link back. A ring goes from its head through its members
and back to the head; a new member is linked in before the head, and a member is unlinked from
where it stands.
-/

namespace Wave300.Lib

variable {ν : Type*}

structure Links (ν : Type*) where
  next : ν → ν
  prev : ν → ν

/-- From one node through a list of others to a last one, each linked with the one after it. -/
def Links.Path (L : Links ν) : ν → List ν → ν → Prop
  | a, [], b => L.next a = b ∧ L.prev b = a
  | a, x :: l, b => L.next a = x ∧ L.prev x = a ∧ L.Path x l b

structure Links.Ring (L : Links ν) (head : ν) (l : List ν) : Prop where
  path : L.Path head l head
  nodup : (head :: l).Nodup

namespace Links
variable {L L' : Links ν} {a b head new e x poison : ν} {l r : List ν}

theorem path_append : L.Path a (l ++ x :: r) b ↔ L.Path a l x ∧ L.Path x r b := by
  induction l generalizing a with
  | nil => simp only [List.nil_append, Path, and_assoc]
  | cons y l ih => simp only [List.cons_append, Path, ih, and_assoc]

/-- The last link leads from a node of the path. -/
theorem Path.prev_mem (h : L.Path a l b) : L.prev b ∈ a :: l := by
  induction l generalizing a with
  | nil => exact h.2 ▸ List.mem_cons_self
  | cons x l ih => exact List.mem_cons_of_mem _ (ih h.2.2)

theorem Path.next_eq (h : L.Path a l b) : L.next a = l.headD b := by
  cases l with
  | nil => exact h.1
  | cons x l => exact h.1

theorem Path.next_mem (h : L.Path a l b) : L.next a ∈ l ++ [b] := by
  cases l with
  | nil => exact h.1 ▸ List.mem_cons_self
  | cons x l => exact h.1 ▸ List.mem_cons_self

/-- A path is still there when none of its links was written. -/
theorem Path.frame (h : L.Path a l b) (next : ∀ x ∈ a :: l, L'.next x = L.next x)
    (prev : ∀ x ∈ l ++ [b], L'.prev x = L.prev x) : L'.Path a l b := by
  induction l generalizing a with
  | nil =>
    constructor
    · rw [next a List.mem_cons_self, h.1]
    · rw [prev b List.mem_cons_self, h.2]
  | cons x l ih =>
    obtain ⟨first, back, rest⟩ := h
    refine ⟨?_, ?_, ih rest ?_ ?_⟩
    · rw [next a List.mem_cons_self, first]
    · rw [prev x List.mem_cons_self, back]
    · intro y mem
      exact next y (List.mem_cons_of_mem _ mem)
    · intro y mem
      exact prev y (List.mem_cons_of_mem _ mem)

theorem Ring.frame (h : L.Ring head l) (next : ∀ x ∈ head :: l, L'.next x = L.next x)
    (prev : ∀ x ∈ head :: l, L'.prev x = L.prev x) : L'.Ring head l := by
  refine ⟨h.path.frame next ?_, h.nodup⟩
  intro x mem
  apply prev
  simpa [or_comm] using mem

variable [DecidableEq ν]

/-- `INIT_LIST_HEAD` -/
def initListHead (L : Links ν) (head : ν) : Links ν where
  next := Function.update L.next head head
  prev := Function.update L.prev head head

/-- `list_add_tail` -/
def listAddTail (L : Links ν) (new head : ν) : Links ν where
  next := Function.update (Function.update L.next new head) (L.prev head) new
  prev := Function.update (Function.update L.prev head new) new (L.prev head)

/-- `list_del`, which leaves poison in the links of what it unlinks. -/
def listDel (L : Links ν) (poison e : ν) : Links ν where
  next := Function.update (Function.update L.next (L.prev e) (L.next e)) e poison
  prev := Function.update (Function.update L.prev (L.next e) (L.prev e)) e poison

theorem ring_initListHead (L : Links ν) (head : ν) : (L.initListHead head).Ring head [] :=
  ⟨⟨Function.update_self .., Function.update_self ..⟩, List.nodup_singleton head⟩

theorem initListHead_frame (ne : x ≠ head) : (L.initListHead head).next x = L.next x ∧
    (L.initListHead head).prev x = L.prev x :=
  ⟨Function.update_of_ne ne .., Function.update_of_ne ne ..⟩

theorem Path.listAddTail (h : L.Path a l b) (nodup : (a :: l).Nodup) (last : b ∉ l)
    (new_nmem : new ∉ b :: a :: l) : (L.listAddTail new b).Path a (l ++ [new]) b := by
  induction l generalizing a with
  | nil =>
    obtain ⟨-, rfl⟩ := h
    simp only [List.mem_cons, List.not_mem_nil, or_false, not_or] at new_nmem
    refine ⟨Function.update_self .., Function.update_self .., ?_, ?_⟩
    · exact (Function.update_of_ne new_nmem.2 ..).trans (Function.update_self ..)
    · exact (Function.update_of_ne (Ne.symm new_nmem.1) ..).trans (Function.update_self ..)
  | cons x l ih =>
    obtain ⟨first, back, rest⟩ := h
    have mem := rest.prev_mem
    have apart := (List.nodup_cons.1 nodup).1
    simp only [List.mem_cons, not_or] at new_nmem last
    refine ⟨?_, ?_, ih rest (List.nodup_cons.1 nodup).2 last.2 ?_⟩
    · have ne : a ≠ L.prev b := by
        rintro rfl
        exact apart mem
      calc (L.listAddTail new b).next a = Function.update L.next new b a :=
            Function.update_of_ne ne ..
        _ = L.next a := Function.update_of_ne (Ne.symm new_nmem.2.1) ..
        _ = x := first
    · calc (L.listAddTail new b).prev x = Function.update L.prev b new x :=
            Function.update_of_ne (Ne.symm new_nmem.2.2.1) ..
        _ = L.prev x := Function.update_of_ne (Ne.symm last.1) ..
        _ = a := back
    · simp only [List.mem_cons, not_or]
      exact ⟨new_nmem.1, new_nmem.2.2⟩

theorem Ring.listAddTail (h : L.Ring head l) (new_nmem : new ∉ head :: l) :
    (L.listAddTail new head).Ring head (l ++ [new]) := by
  constructor
  case path =>
    apply h.path.listAddTail h.nodup (List.nodup_cons.1 h.nodup).1
    simpa using new_nmem
  case nodup =>
    rw [← List.cons_append, ← List.concat_eq_append]
    exact h.nodup.concat new_nmem

/-- Linking in writes links of the ring and of the new member only. -/
theorem Ring.listAddTail_frame (h : L.Ring head l) (out : x ∉ head :: l) (ne : x ≠ new) :
    (L.listAddTail new head).next x = L.next x ∧ (L.listAddTail new head).prev x = L.prev x := by
  have last : x ≠ L.prev head := by
    rintro rfl
    exact out h.path.prev_mem
  have first : x ≠ head := by
    rintro rfl
    exact out List.mem_cons_self
  exact ⟨(Function.update_of_ne last ..).trans (Function.update_of_ne ne ..),
    (Function.update_of_ne ne ..).trans (Function.update_of_ne first ..)⟩

/-- The member right after `a` is unlinked. -/
theorem Path.listDel_first (back : L.prev e = a) (h' : L.Path e r b) (nodup : (a :: e :: r).Nodup)
    (last : b ∉ e :: r) : (L.listDel poison e).Path a r b := by
  simp only [List.nodup_cons, List.mem_cons, not_or] at nodup last
  have next : (L.listDel poison e).next a = L.next e := by
    refine (Function.update_of_ne nodup.1.1 ..).trans ?_
    rw [back]
    exact Function.update_self ..
  cases r with
  | nil =>
    obtain ⟨wrap, -⟩ := h'
    refine ⟨next.trans wrap, (Function.update_of_ne last.1 ..).trans ?_⟩
    rw [wrap, back]
    exact Function.update_self ..
  | cons y r =>
    obtain ⟨after, -, rest⟩ := h'
    simp only [List.mem_cons, not_or, List.nodup_cons] at nodup last
    refine ⟨next.trans after, (Function.update_of_ne (Ne.symm nodup.2.1.1) ..).trans ?_,
      rest.frame ?_ ?_⟩
    · rw [after, back]
      exact Function.update_self ..
    · intro z mem
      have ne : z ≠ e ∧ z ≠ a := by
        constructor
        · rintro rfl
          exact (List.mem_cons.1 mem).elim nodup.2.1.1 nodup.2.1.2
        · rintro rfl
          exact (List.mem_cons.1 mem).elim nodup.1.2.1 nodup.1.2.2
      refine (Function.update_of_ne ne.1 ..).trans ?_
      rw [back]
      exact Function.update_of_ne ne.2 ..
    · intro z mem
      have ne : z ≠ e ∧ z ≠ y := by
        simp only [List.mem_append, List.mem_singleton] at mem
        constructor
        · rintro rfl
          rcases mem with mem | rfl
          · exact nodup.2.1.2 mem
          · exact last.1 rfl
        · rintro rfl
          rcases mem with mem | rfl
          · exact nodup.2.2.1 mem
          · exact last.2.1 rfl
      refine (Function.update_of_ne ne.1 ..).trans ?_
      rw [after]
      exact Function.update_of_ne ne.2 ..

theorem Path.listDel (h : L.Path a l e) (h' : L.Path e r b) (nodup : (a :: (l ++ e :: r)).Nodup)
    (last : b ∉ l ++ e :: r) : (L.listDel poison e).Path a (l ++ r) b := by
  induction l generalizing a with
  | nil => exact listDel_first h.2 h' nodup last
  | cons x l ih =>
    obtain ⟨first, back, rest⟩ := h
    have before := rest.prev_mem
    have behind := h'.next_mem
    rw [List.cons_append] at nodup last
    have apart := (List.nodup_cons.1 nodup).1
    have apart' := (List.nodup_cons.1 (List.nodup_cons.1 nodup).2).1
    refine ⟨?_, ?_, ih rest (List.nodup_cons.1 nodup).2 (List.not_mem_of_not_mem_cons last)⟩
    · have ne : a ≠ e ∧ a ≠ L.prev e := by
        constructor
        · rintro rfl
          exact apart (by simp)
        · rintro rfl
          apply apart
          rcases List.mem_cons.1 before with eq | mem
          · exact eq ▸ List.mem_cons_self
          · exact List.mem_cons_of_mem _ (List.mem_append_left _ mem)
      exact (Function.update_of_ne ne.1 ..).trans ((Function.update_of_ne ne.2 ..).trans first)
    · have ne : x ≠ e ∧ x ≠ L.next e := by
        constructor
        · rintro rfl
          exact apart' (by simp)
        · rintro rfl
          rcases List.mem_append.1 behind with mem | mem
          · exact apart' (List.mem_append_right _ (List.mem_cons_of_mem _ mem))
          · rw [List.mem_singleton.1 mem] at last
            exact last List.mem_cons_self
      exact (Function.update_of_ne ne.1 ..).trans ((Function.update_of_ne ne.2 ..).trans back)

theorem Ring.listDel (h : L.Ring head (l ++ e :: r)) :
    (L.listDel poison e).Ring head (l ++ r) := by
  obtain ⟨before, behind⟩ := path_append.1 h.path
  constructor
  case path => exact before.listDel behind h.nodup (List.nodup_cons.1 h.nodup).1
  case nodup =>
    have fewer : (l ++ r).Sublist (l ++ e :: r) :=
      List.Sublist.append_left (List.sublist_cons_self e r) l
    exact (fewer.cons_cons head).nodup h.nodup

/-- Unlinking writes links of the ring only. -/
theorem Ring.listDel_frame (h : L.Ring head (l ++ e :: r)) (out : x ∉ head :: (l ++ e :: r)) :
    (L.listDel poison e).next x = L.next x ∧ (L.listDel poison e).prev x = L.prev x := by
  obtain ⟨before, behind⟩ := path_append.1 h.path
  have last := before.prev_mem
  have first := behind.next_mem
  simp only [List.mem_cons, List.mem_append, List.not_mem_nil, or_false, not_or] at out last first
  have ne : x ≠ e := out.2.2.1
  have ne' : x ≠ L.prev e := by
    rintro rfl
    exact last.elim out.1 out.2.1
  have ne'' : x ≠ L.next e := by
    rintro rfl
    exact first.elim out.2.2.2 out.1
  exact ⟨(Function.update_of_ne ne ..).trans (Function.update_of_ne ne' ..),
    (Function.update_of_ne ne ..).trans (Function.update_of_ne ne'' ..)⟩

end Links

end Wave300.Lib
