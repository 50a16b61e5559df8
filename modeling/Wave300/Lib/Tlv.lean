import Mathlib.Algebra.Order.Ring.Int
import Mathlib.Data.List.Infix

/-!
# Elements with a type and a length

A byte string is read as a sequence of elements: a byte that identifies the element, one with the
length of its data, and the data. And, for any list of things that have sizes: the longest prefix
that fits into a room, and the offset of the last thing of a kind.
-/

namespace Wave300.Lib

structure Tlv where
  id : UInt8
  data : List UInt8
  short : data.length < 256
  deriving DecidableEq

namespace Tlv

def encode (t : Tlv) : List UInt8 := t.id :: UInt8.ofNat t.data.length :: t.data

def size (t : Tlv) : Nat := t.data.length + 2

@[simp] theorem length_encode (t : Tlv) : t.encode.length = t.size := rfl

end Tlv

/-- The data of an element is as long as its length field can say. -/
theorem length_take_lt (length : UInt8) (rest : List UInt8) :
    (rest.take length.toNat).length < 256 := by
  have := length.toNat_lt
  rw [List.length_take]
  omega

/-- The elements of the longest prefix of a byte string that is well-formed. -/
def tlvs : List UInt8 → List Tlv
  | id :: length :: rest =>
    if length.toNat ≤ rest.length then
      ⟨id, rest.take length.toNat, length_take_lt length rest⟩ :: tlvs (rest.drop length.toNat)
    else []
  | _ => []
termination_by bytes => bytes.length
decreasing_by
  simp only [List.length_drop, List.length_cons]
  omega

theorem tlvs_encode (t : Tlv) (rest : List UInt8) : tlvs (t.encode ++ rest) = t :: tlvs rest := by
  have length : (UInt8.ofNat t.data.length).toNat = t.data.length :=
    UInt8.toNat_ofNat_of_lt' t.short
  rw [Tlv.encode, List.cons_append, List.cons_append, tlvs]
  simp only [length, List.take_left, List.drop_left, List.length_append, Nat.le_add_right, if_true]

theorem tlvs_incomplete {id length : UInt8} {rest : List UInt8}
    (more : rest.length < length.toNat) : tlvs (id :: length :: rest) = [] := by
  rw [tlvs, if_neg (Nat.not_le.2 more)]

theorem tlvs_short {bytes : List UInt8} (short : bytes.length < 2) : tlvs bytes = [] := by
  match bytes, short with
  | [], _ => rw [tlvs]; nofun
  | [_], _ => rw [tlvs]; nofun

/-! ## Things with sizes -/

section Sizes
variable {α : Type*} (size : α → Nat)

/-- The longest prefix that fits. -/
structure IsLongest (room : Nat) (all p : List α) : Prop where
  isPrefix : p <+: all
  fits : (p.map size).sum ≤ room
  longest : ∀ q, q <+: all → (q.map size).sum ≤ room → q <+: p

/-- The offset of the last thing of a kind, or `absent` when there is none. -/
def LastAt (absent : Nat) (kind : α → Prop) (l : List α) (offs : Nat) : Prop :=
  (∃ (a : List α) (x : α) (b : List α), l = a ++ x :: b ∧ kind x ∧ (∀ y ∈ b, ¬ kind y) ∧
    offs = (a.map size).sum) ∨
    offs = absent ∧ ∀ y ∈ l, ¬ kind y

variable {size} {room absent offs : Nat} {all p : List α} {kind : α → Prop}

/-- Everything is there. -/
theorem IsLongest.of_all (fits : (p.map size).sum ≤ room) : IsLongest size room p p where
  isPrefix := List.prefix_refl p
  fits := fits
  longest := fun _ q _ => q

/-- The next thing does not fit. -/
theorem IsLongest.of_next (isPrefix : p <+: all) (fits : (p.map size).sum ≤ room)
    (next : ∀ x rest, all = p ++ x :: rest → room < (p.map size).sum + size x) :
    IsLongest size room all p where
  isPrefix := isPrefix
  fits := fits
  longest q isPrefix' fits' := by
    rcases List.prefix_or_prefix_of_prefix isPrefix' isPrefix with shorter | longer
    · exact shorter
    obtain ⟨more, rfl⟩ := longer
    cases more with
    | nil => simp
    | cons x more =>
      obtain ⟨rest, rfl⟩ := isPrefix'
      have exceeds := next x (more ++ rest) (by simp)
      simp only [List.map_append, List.map_cons, List.sum_append, List.sum_cons] at fits'
      omega

theorem IsLongest.unique {q : List α} (h : IsLongest size room all p)
    (h' : IsLongest size room all q) : q = p := by
  have first := h.longest q h'.isPrefix h'.fits
  have second := h'.longest p h.isPrefix h.fits
  exact first.eq_of_length (Nat.le_antisymm first.length_le second.length_le)

theorem LastAt.nil : LastAt size absent kind [] absent := .inr ⟨rfl, nofun⟩

theorem LastAt.concat (h : LastAt size absent kind p offs) (x : α) [Decidable (kind x)] :
    LastAt size absent kind (p ++ [x]) (if kind x then (p.map size).sum else offs) := by
  split
  case isTrue here => exact .inl ⟨p, x, [], rfl, here, nofun, rfl⟩
  case isFalse other =>
    rcases h with ⟨a, y, b, rfl, here, last, eq⟩ | ⟨eq, none⟩
    · refine .inl ⟨a, y, b ++ [x], by simp, here, ?_, eq⟩
      intro z mem
      rcases List.mem_append.1 mem with mem | mem
      · exact last z mem
      · rw [List.mem_singleton.1 mem]
        exact other
    · refine .inr ⟨eq, ?_⟩
      intro z mem
      rcases List.mem_append.1 mem with mem | mem
      · exact none z mem
      · rw [List.mem_singleton.1 mem]
        exact other

/-- What is at the offset lies within the whole. -/
theorem LastAt.within (h : LastAt size absent kind p offs) (there : offs ≠ absent) :
    ∃ (a : List α) (x : α) (b : List α), p = a ++ x :: b ∧ kind x ∧ offs = (a.map size).sum := by
  rcases h with ⟨a, x, b, eq, here, -, at'⟩ | ⟨eq, -⟩
  · exact ⟨a, x, b, eq, here, at'⟩
  · exact absurd eq there

/-- Two places in a list, neither before the other. -/
theorem append_cons_inj {a a' b b' : List α} {x x' : α} (eq : a ++ x :: b = a' ++ x' :: b')
    (first : ∀ c, a' = a ++ x :: c → False) (second : ∀ c, a = a' ++ x' :: c → False) :
    a = a' ∧ x = x' := by
  rcases List.append_eq_append_iff.1 eq with ⟨c, rfl, rest⟩ | ⟨c, rfl, rest⟩
  · cases c with
    | nil =>
      rw [List.nil_append, List.cons.injEq] at rest
      exact ⟨(List.append_nil a).symm, rest.1⟩
    | cons y c =>
      rw [List.cons_append, List.cons.injEq] at rest
      exact (first c (by rw [rest.1])).elim
  · cases c with
    | nil =>
      rw [List.nil_append, List.cons.injEq] at rest
      exact ⟨List.append_nil a', rest.1.symm⟩
    | cons y c =>
      rw [List.cons_append, List.cons.injEq] at rest
      exact (second c (by rw [rest.1])).elim

/-- What looks like a thing of the kind is one when it is long enough. Then the offset of the last
thing that looks so is right exactly when that is long enough. -/
theorem LastAt.looks_iff {looks long : α → Prop} (h : LastAt size absent looks p offs)
    (kinds : ∀ x ∈ p, kind x ↔ looks x ∧ long x) (pos : ∀ x, 0 < size x)
    (within : (p.map size).sum < absent) :
    LastAt size absent kind p offs ↔
      ∀ a x b, p = a ++ x :: b → looks x → (∀ y ∈ b, ¬ looks y) → long x := by
  constructor
  · rintro right a x b rfl here last
    have mem : x ∈ a ++ x :: b := by simp
    rcases h with ⟨a', x', b', eq, here', last', at'⟩ | ⟨-, none⟩
    case inr => exact absurd here (none x mem)
    case inl =>
      -- There is only one last thing that looks so.
      obtain ⟨rfl, rfl⟩ := append_cons_inj eq
        (by
          rintro c rfl
          rw [List.append_assoc, List.append_cancel_left_eq, List.cons_append,
            List.cons.injEq] at eq
          exact last x' (by rw [eq.2]; simp) here')
        (by
          rintro c rfl
          rw [List.append_assoc, List.append_cancel_left_eq, List.cons_append,
            List.cons.injEq] at eq
          exact last' x (by rw [← eq.2]; simp) here)
      simp only [List.map_append, List.map_cons, List.sum_append, List.sum_cons] at within
      rcases right with ⟨a', x', b', eq', here'', -, at''⟩ | ⟨eq', -⟩
      case inr => omega
      case inl =>
        rw [at''] at at'
        obtain ⟨rfl, rfl⟩ := append_cons_inj eq'
          (by
            rintro c rfl
            have less := pos x
            simp only [List.map_append, List.map_cons, List.sum_append, List.sum_cons] at at'
            omega)
          (by
            rintro c rfl
            have less := pos x'
            simp only [List.map_append, List.map_cons, List.sum_append, List.sum_cons] at at'
            omega)
        exact ((kinds x mem).1 here'').2
  · intro long
    rcases h with ⟨a, x, b, rfl, here, last, at'⟩ | ⟨eq, none⟩
    · refine .inl ⟨a, x, b, rfl, (kinds x (by simp)).2 ⟨here, long a x b rfl here last⟩, ?_, at'⟩
      intro y mem is
      exact last y mem ((kinds y (by simp [mem])).1 is).1
    · exact .inr ⟨eq, fun y mem is => none y mem ((kinds y mem).1 is).1⟩

end Sizes

end Wave300.Lib
