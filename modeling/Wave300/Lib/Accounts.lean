import Mathlib.Data.List.Nodup
import Mathlib.Data.List.Perm.Basic

/-!
# Resources that are accounted for

Resources are numbered in the order in which they are acquired, so that a number is used once. A
party holds some of them and has let go of the others. That every number below the next one is in
one place says that nothing was let go of twice, and that nothing was lost.
-/

namespace Wave300.Lib

section FilterMap
variable {α : Type*} [DecidableEq α] {l : List α} {a : α} {f g : α → Option Nat}

/-- What one member contributes to a `filterMap`, and what the others do. -/
theorem filterMap_perm_erase (mem : a ∈ l) (f : α → Option Nat) :
    (l.filterMap f).Perm ((f a).toList ++ (l.erase a).filterMap f) := by
  have split := (List.perm_cons_erase mem).filterMap f
  match here : f a with
  | none => simpa [List.filterMap_cons, here] using split
  | some b => simpa [List.filterMap_cons, here] using split

theorem filterMap_erase_congr (nodup : l.Nodup) (same : ∀ b, b ≠ a → f b = g b) :
    (l.erase a).filterMap f = (l.erase a).filterMap g := by
  apply List.filterMap_congr
  intro b mem
  exact same b (nodup.mem_erase_iff.1 mem).1

end FilterMap

/-- Of the resources `0` to `n - 1` those in `held` are still held, and those in `gone` are not. -/
def Accounted (n : Nat) (held gone : List Nat) : Prop := (held ++ gone).Perm (List.range n)

namespace Accounted

variable {n p : Nat} {held gone held' gone' : List Nat}

theorem none : Accounted 0 [] [] := List.Perm.nil

theorem nodup (h : Accounted n held gone) : (held ++ gone).Nodup :=
  h.nodup_iff.2 List.nodup_range

theorem gone_nodup (h : Accounted n held gone) : gone.Nodup :=
  h.nodup.of_append_right

theorem not_gone (h : Accounted n held gone) (mem : p ∈ held) : p ∉ gone :=
  fun other => List.disjoint_of_nodup_append h.nodup mem other

theorem acquire (h : Accounted n held gone) : Accounted (n + 1) (n :: held) gone := by
  rw [Accounted, List.range_succ]
  exact (h.cons n).trans (List.perm_append_singleton n _).symm

/-- What is held and what is gone, in another order. -/
theorem reorder (h : Accounted n held gone) (same : (held' ++ gone').Perm (held ++ gone)) :
    Accounted n held' gone' := same.trans h

theorem held_perm (h : Accounted n held gone) (same : held'.Perm held) : Accounted n held' gone :=
  h.reorder (same.append_right gone)

/-- What `ps` names is let go of. -/
theorem release (ps : List Nat) (h : Accounted n held gone) (had : held.Perm (ps ++ held'))
    (more : gone'.Perm (ps ++ gone)) : Accounted n held' gone' := by
  apply h.reorder
  calc held' ++ gone' |>.Perm (held' ++ (ps ++ gone)) := more.append_left held'
    _ |>.Perm ((held' ++ ps) ++ gone) := by rw [List.append_assoc]
    _ |>.Perm ((ps ++ held') ++ gone) := List.perm_append_comm.append_right gone
    _ |>.Perm (held ++ gone) := had.symm.append_right gone

/-- Each resource is held once, or was let go of once. -/
theorem count_add_count (h : Accounted n held gone) (lt : p < n) :
    held.count p + gone.count p = 1 := by
  rw [← List.count_append]
  exact List.count_eq_one_of_mem h.nodup (h.symm.subset (List.mem_range.2 lt))

end Accounted

end Wave300.Lib
