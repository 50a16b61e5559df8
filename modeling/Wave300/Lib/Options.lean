import Wave300.Lib.Tlv

/-!
# Options

A byte string is read as a sequence of options: a type, a length and data, but for two types that
are a single byte, one that pads and one that ends the sequence. Reading stops at the end, or at an
option that is not complete.
-/

namespace Wave300.Lib

inductive Element where
  | pad
  | stop
  | tlv (t : Tlv)
  deriving DecidableEq

namespace Element

def size : Element → Nat
  | pad | stop => 1
  | tlv t => t.size

/-- How many bytes a list of elements takes. -/
def sizes (l : List Element) : Nat := (l.map size).sum

section
variable (padCode stopCode : UInt8)

def code : Element → UInt8
  | pad => padCode
  | stop => stopCode
  | tlv t => t.id

def encode : Element → List UInt8
  | pad => [padCode]
  | stop => [stopCode]
  | tlv t => t.encode

/-- The element can be read back. -/
def Proper : Element → Prop
  | pad | stop => True
  | tlv t => t.id ≠ padCode ∧ t.id ≠ stopCode

end

/-- The offset of the first element of a kind. -/
def offset (kind : Element → Bool) : List Element → Option Nat
  | [] => none
  | x :: l => if kind x then some 0 else (offset kind l).map (x.size + ·)

theorem offset_eq_none {kind : Element → Bool} {l : List Element}
    (others : ∀ y ∈ l, kind y = false) : offset kind l = none := by
  induction l with
  | nil => rfl
  | cons y l ih =>
    rw [List.forall_mem_cons] at others
    rw [offset, others.1, if_neg Bool.false_ne_true, ih others.2]
    rfl

theorem offset_eq_none_iff {kind : Element → Bool} {l : List Element} :
    offset kind l = none ↔ ∀ y ∈ l, kind y = false := by
  constructor
  · intro none
    induction l with
    | nil => exact nofun
    | cons y l ih =>
      cases here : kind y with
      | true =>
        rw [offset, here, if_pos rfl] at none
        cases none
      | false =>
        rw [offset, here, if_neg Bool.false_ne_true, Option.map_eq_none_iff] at none
        exact List.forall_mem_cons.2 ⟨here, ih none⟩
  · exact offset_eq_none

end Element

section
variable (padCode stopCode : UInt8)

/-- The elements of a byte string. -/
def elements : List UInt8 → List Element
  | [] => []
  | [b] => if b = stopCode then [.stop] else if b = padCode then [.pad] else []
  | b :: length :: rest =>
    if b = stopCode then [.stop]
    else if b = padCode then .pad :: elements (length :: rest)
    else if length.toNat ≤ rest.length then
      .tlv ⟨b, rest.take length.toNat, length_take_lt length rest⟩ ::
        elements (rest.drop length.toNat)
    else []
termination_by bytes => bytes.length
decreasing_by
  · simp
  · simp only [List.length_drop, List.length_cons]
    omega

variable {padCode stopCode}

theorem elements_nil : elements padCode stopCode [] = [] := by rw [elements]

theorem elements_stop (rest : List UInt8) :
    elements padCode stopCode (stopCode :: rest) = [.stop] := by
  cases rest with
  | nil => rw [elements, if_pos rfl]
  | cons => rw [elements, if_pos rfl]

theorem elements_pad (ne : padCode ≠ stopCode) (rest : List UInt8) :
    elements padCode stopCode (padCode :: rest) = .pad :: elements padCode stopCode rest := by
  cases rest with
  | nil => rw [elements_nil, elements, if_neg ne, if_pos rfl]
  | cons => rw [elements, if_neg ne, if_pos rfl]

variable {b length : UInt8} {rest : List UInt8}

theorem elements_short (notStop : b ≠ stopCode) (notPad : b ≠ padCode) :
    elements padCode stopCode [b] = [] := by
  rw [elements, if_neg notStop, if_neg notPad]

theorem elements_incomplete (notStop : b ≠ stopCode) (notPad : b ≠ padCode)
    (more : rest.length < length.toNat) : elements padCode stopCode (b :: length :: rest) = [] := by
  rw [elements, if_neg notStop, if_neg notPad]
  exact if_neg (Nat.not_le.2 more)

theorem elements_tlv (t : Tlv) (proper : (Element.tlv t).Proper padCode stopCode)
    (rest : List UInt8) : elements padCode stopCode (t.encode ++ rest) =
      .tlv t :: elements padCode stopCode rest := by
  have length : (UInt8.ofNat t.data.length).toNat = t.data.length :=
    UInt8.toNat_ofNat_of_lt' t.short
  rw [Tlv.encode, List.cons_append, List.cons_append, elements, if_neg proper.2, if_neg proper.1]
  simp only [length, List.take_left, List.drop_left, List.length_append, Nat.le_add_right, if_true]

/-- A complete option at the front of a byte string. -/
theorem exists_tlv (enough : length.toNat ≤ rest.length) :
    ∃ t : Tlv, t.id = b ∧ t.size = length.toNat + 2 ∧
      b :: length :: rest = t.encode ++ rest.drop length.toNat := by
  have short := length.toNat_lt
  have taken : (rest.take length.toNat).length = length.toNat := by
    rw [List.length_take, Nat.min_eq_left enough]
  refine ⟨⟨b, rest.take length.toNat, by omega⟩, rfl, ?_, ?_⟩
  · simp only [Tlv.size, taken]
  · simp only [Tlv.encode, taken, UInt8.ofNat_toNat, List.cons_append, List.take_append_drop]

/-- Elements that were written are read back, up to one that ends them. -/
theorem elements_encode {l : List Element} (ne : padCode ≠ stopCode)
    (proper : ∀ x ∈ l, x.Proper padCode stopCode) (unended : .stop ∉ l) (rest : List UInt8) :
    elements padCode stopCode (l.flatMap (·.encode padCode stopCode) ++ rest) =
      l ++ elements padCode stopCode rest := by
  induction l with
  | nil => rfl
  | cons x l ih =>
    rw [List.forall_mem_cons] at proper
    obtain ⟨notStop, later⟩ := not_or.1 (mt List.mem_cons.2 unended)
    rw [List.flatMap_cons, List.append_assoc]
    cases x with
    | pad => exact (elements_pad ne _).trans (congrArg _ (ih proper.2 later))
    | stop => exact absurd rfl notStop
    | tlv t => exact (elements_tlv t proper.1 _).trans (congrArg _ (ih proper.2 later))

variable (padCode stopCode) in
/-- The cases of a byte string, by its first element. -/
theorem elements_cases (bytes : List UInt8) :
    elements padCode stopCode bytes = [] ∨
    (∃ rest, bytes = stopCode :: rest) ∨
    (padCode ≠ stopCode ∧ ∃ rest, bytes = padCode :: rest) ∨
    ∃ t : Tlv, (Element.tlv t).Proper padCode stopCode ∧ ∃ rest, bytes = t.encode ++ rest := by
  match bytes with
  | [] => exact .inl elements_nil
  | b :: rest =>
    by_cases notStop : b = stopCode
    · exact .inr (.inl ⟨rest, by rw [notStop]⟩)
    by_cases notPad : b = padCode
    · subst notPad
      exact .inr (.inr (.inl ⟨notStop, rest, rfl⟩))
    match rest with
    | [] => exact .inl (elements_short notStop notPad)
    | length :: rest =>
      by_cases enough : length.toNat ≤ rest.length
      · obtain ⟨t, rfl, -, eq⟩ := exists_tlv (b := b) enough
        exact .inr (.inr (.inr ⟨t, ⟨notPad, notStop⟩, _, eq⟩))
      · exact .inl (elements_incomplete notStop notPad (Nat.not_le.1 enough))

end

end Wave300.Lib
