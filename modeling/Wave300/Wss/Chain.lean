import Wave300.Lib.Trace
import Wave300.Wss.Merge

/-!
# The contexts of a counter handle

What a handle runs over, for every node of a tree that was built by the calls of the module:
contexts with the id of the handle, at the node and above it. All of them are there unless the
topmost node that has the statistic has it more than once.
-/

namespace Wave300.Wss

open Lib

variable {m : Mem} {a b : ℕ} {S : ℕ}

/-- The node `b` is the node `a` or one of its ancestors. -/
inductive Mem.Above (m : Mem) (b : ℕ) : ℕ → Prop where
  | self : m.Above b b
  | up {a p : ℕ} {w : Node} : m.node a = some w → w.parent = some p → m.Above b p → m.Above b a

/-- The node `b` is an ancestor of the node `a`. -/
def Mem.StrictlyAbove (m : Mem) (b a : ℕ) : Prop :=
  ∃ w p, m.node a = some w ∧ w.parent = some p ∧ m.Above b p

def Mem.context (m : Mem) (p : Ptr) : Option Context :=
  (m.node p.node).bind fun w => w.contexts[p.idx]?

/-- The context exists and counts the statistic. -/
def Mem.HasId (m : Mem) (p : Ptr) (statId : ℕ) : Prop :=
  ∃ c, m.context p = some c ∧ c.statId = statId

/-- The topmost node with a statistic, at `a` or above it, has one context for it. -/
def Mem.OnceAtTop (m : Mem) (a statId : ℕ) : Prop :=
  ∀ t, m.Above t a → (∀ b i, m.StrictlyAbove b t → ¬ m.HasId ⟨b, i⟩ statId) →
    ∀ i j, m.HasId ⟨t, i⟩ statId → m.HasId ⟨t, j⟩ statId → i = j

/-- The ids of the contexts of a node. -/
def Node.ids (w : Node) : List ℕ := w.contexts.map Context.statId

/-- What holds of every tree: parents are older than their children, and what is found at a
node is what is found at its parent, merged with what the node has. -/
structure Wf (m : Mem) : Prop where
  below : ∀ a w, m.node a = some w → a < m.next
  parent : ∀ a w p, m.node a = some w → w.parent = some p → p < a ∧ (m.node p).isSome
  entries : ∀ a w, m.node a = some w → ∃ l, Holds (a + 1) w.entries l
  found : ∀ a w, m.node a = some w → ∀ id,
    m.cntrOpen a id = merge (w.parent.bind (m.cntrOpen · id)) (own a w.ids.zipIdx id)

theorem Mem.above_iff : m.Above b a ↔ b = a ∨ m.StrictlyAbove b a := by
  constructor
  · intro h
    cases h with
    | self => exact .inl rfl
    | up here parent above => exact .inr ⟨_, _, here, parent, above⟩
  · rintro (rfl | ⟨w, p, here, parent, above⟩)
    · exact .self
    · exact .up here parent above

theorem Wf.le_of_above (wf : Wf m) (h : m.Above b a) : b ≤ a := by
  induction h with
  | self => exact Nat.le_refl b
  | up here parent _ ih => exact Nat.le_trans ih (Nat.le_of_lt (wf.parent _ _ _ here parent).1)

theorem Wf.lt_of_strictlyAbove (wf : Wf m) (h : m.StrictlyAbove b a) : b < a := by
  obtain ⟨w, p, here, parent, above⟩ := h
  exact Nat.lt_of_le_of_lt (wf.le_of_above above) (wf.parent a w p here parent).1

theorem mem_own {ids : List ℕ} {p : Ptr} :
    p ∈ own a ids.zipIdx S ↔ p.node = a ∧ ids[p.idx]? = some S := by
  obtain ⟨b, i⟩ := p
  simp only [own, List.mem_map, List.mem_filter, beq_iff_eq, Prod.exists, Ptr.mk.injEq,
    List.mem_zipIdx_iff_getElem?]
  constructor
  · rintro ⟨id, j, ⟨here, rfl⟩, rfl, rfl⟩
    exact ⟨rfl, here⟩
  · rintro ⟨rfl, here⟩
    exact ⟨S, i, ⟨here, rfl⟩, rfl, rfl⟩

theorem nodup_own (ids : List ℕ) : (own a ids.zipIdx S).Nodup := by
  have indices : ((ids.zipIdx.filter (·.1 == S)).map Prod.snd).Nodup := by
    apply List.Nodup.sublist (List.filter_sublist.map _)
    rw [List.zipIdx_map_snd]
    exact List.nodup_range'
  have pointers : own a ids.zipIdx S =
      ((ids.zipIdx.filter (·.1 == S)).map Prod.snd).map (Ptr.mk a) := by
    rw [List.map_map]
    rfl
  rw [pointers]
  exact indices.map fun i j eq => (Ptr.mk.injEq .. ▸ eq).2

theorem hasId_iff {w : Node} (here : m.node a = some w) {p : Ptr} :
    p.node = a ∧ m.HasId p S ↔ p ∈ own a w.ids.zipIdx S := by
  rw [mem_own]
  apply and_congr_right
  rintro rfl
  simp only [Mem.HasId, Mem.context, here, Option.bind_some, Node.ids, List.getElem?_map,
    Option.map_eq_some_iff]

/-- Contexts without repetition that count a statistic, from nodes of a kind. -/
structure Counts (m : Mem) (S : ℕ) (nodes : ℕ → Prop) (h : List Ptr) : Prop where
  nodup : h.Nodup
  sound : ∀ p ∈ h, nodes p.node ∧ m.HasId p S
  nonempty : ∃ p, p ∈ h

/-- What is found at a place, for the nodes that are searched there. -/
structure Finds (m : Mem) (S : ℕ) (nodes : ℕ → Prop) (once : Prop) (handle : Option (List Ptr)) :
    Prop where
  absent : handle = none → ∀ p : Ptr, nodes p.node → ¬ m.HasId p S
  found : ∀ h, handle = some h → Counts m S nodes h ∧
    ((∀ p : Ptr, nodes p.node → m.HasId p S → p ∈ h) ↔ once)

/-- The condition of `OnceAtTop` for the nodes above `a` only. -/
def Mem.OnceAbove (m : Mem) (a statId : ℕ) : Prop :=
  ∀ t, m.StrictlyAbove t a → (∀ b i, m.StrictlyAbove b t → ¬ m.HasId ⟨b, i⟩ statId) →
    ∀ i j, m.HasId ⟨t, i⟩ statId → m.HasId ⟨t, j⟩ statId → i = j

/-- The contexts of a node come behind those found above it. -/
theorem Finds.behind (wf : Wf m) {w : Node} (here : m.node a = some w) {l : List Ptr}
    (h : Finds m S (m.StrictlyAbove · a) (m.OnceAbove a S) (some l)) :
    Finds m S (m.Above · a) (m.OnceAtTop a S) (some (l ++ own a w.ids.zipIdx S)) := by
  have mine {p : Ptr} : p.node = a ∧ m.HasId p S ↔ p ∈ own a w.ids.zipIdx S := hasId_iff here
  obtain ⟨counts, complete⟩ := h.found l rfl
  constructor
  case absent => rintro ⟨⟩
  case found =>
    rintro _ ⟨⟩
    refine ⟨⟨?_, ?_, ?_⟩, Iff.trans ?_ (complete.trans ?_)⟩
    · rw [List.nodup_append]
      refine ⟨counts.nodup, nodup_own w.ids, ?_⟩
      rintro p mem q mem' rfl
      exact Nat.ne_of_lt (wf.lt_of_strictlyAbove (counts.sound p mem).1) (mine.2 mem').1
    · intro p mem
      obtain mem | mem := List.mem_append.1 mem
      · exact ⟨Mem.above_iff.2 (.inr (counts.sound p mem).1), (counts.sound p mem).2⟩
      · exact ⟨Mem.above_iff.2 (.inl (mine.2 mem).1), (mine.2 mem).2⟩
    · obtain ⟨p, mem⟩ := counts.nonempty
      exact ⟨p, List.mem_append_left _ mem⟩
    · constructor
      · intro all p above has
        obtain mem | mem := List.mem_append.1 (all p (Mem.above_iff.2 (.inr above)) has)
        · exact mem
        · exact absurd (mine.2 mem).1 (Nat.ne_of_lt (wf.lt_of_strictlyAbove above))
      · intro all p above has
        obtain same | above := Mem.above_iff.1 above
        · exact List.mem_append_right _ (mine.1 ⟨same, has⟩)
        · exact List.mem_append_left _ (all p above has)
    -- something above counts the statistic, so the node is not the topmost one
    · constructor
      · intro once t above top
        obtain rfl | above := Mem.above_iff.1 above
        · obtain ⟨p, mem⟩ := counts.nonempty
          exact absurd (counts.sound p mem).2 (top p.node p.idx (counts.sound p mem).1)
        · exact once t above top
      · intro once t above
        exact once t (Mem.above_iff.2 (.inr above))

/-- With nothing above it, the first context of a node is found. -/
theorem Finds.atTop {w : Node} (here : m.node a = some w)
    (h : Finds m S (m.StrictlyAbove · a) (m.OnceAbove a S) none) :
    Finds m S (m.Above · a) (m.OnceAtTop a S) (merge none (own a w.ids.zipIdx S)) := by
  have mine {p : Ptr} : p.node = a ∧ m.HasId p S ↔ p ∈ own a w.ids.zipIdx S := hasId_iff here
  have away := h.absent rfl
  cases list : own a w.ids.zipIdx S with
  | nil =>
    constructor
    case absent =>
      intro _ p above has
      obtain same | above := Mem.above_iff.1 above
      · exact absurd (list ▸ mine.1 ⟨same, has⟩) List.not_mem_nil
      · exact away p above has
    case found => rintro h ⟨⟩
  | cons x rest =>
    have first := mine.2 (list ▸ List.mem_cons_self)
    constructor
    case absent => rintro ⟨⟩
    case found =>
      rintro _ ⟨⟩
      refine ⟨⟨List.nodup_singleton x, ?_, x, List.mem_singleton_self x⟩, ?_, ?_⟩
      · intro p mem
        rw [List.mem_singleton.1 mem]
        exact ⟨Mem.above_iff.2 (.inl first.1), first.2⟩
      · intro all t above _ i j hasi hasj
        have only (i : ℕ) (has : m.HasId ⟨t, i⟩ S) := List.mem_singleton.1 (all ⟨t, i⟩ above has)
        exact congrArg Ptr.idx ((only i hasi).trans (only j hasj).symm)
      · intro once p above has
        obtain same | above := Mem.above_iff.1 above
        · have top := once a .self fun b i above => away ⟨b, i⟩ above
          obtain ⟨b, i⟩ := p
          obtain ⟨b', j⟩ := x
          obtain ⟨rfl, has'⟩ := first
          obtain rfl : b = b' := same
          rw [top i j has has']
          exact List.mem_singleton_self _
        · exact absurd has (away p above)

/-- From what is found above a node to what is found at it. -/
theorem Finds.atNode (wf : Wf m) {w : Node} (here : m.node a = some w) {up : Option (List Ptr)}
    (h : Finds m S (m.StrictlyAbove · a) (m.OnceAbove a S) up) :
    Finds m S (m.Above · a) (m.OnceAtTop a S) (merge up (own a w.ids.zipIdx S)) := by
  cases up with
  | some l => exact h.behind wf here
  | none => exact h.atTop here

/-- What is found at a node of a tree. -/
theorem Wf.finds (wf : Wf m) {w : Node} (here : m.node a = some w) :
    Finds m S (m.Above · a) (m.OnceAtTop a S) (m.cntrOpen a S) := by
  induction a using Nat.strong_induction_on generalizing w with
  | _ a ih =>
    rw [wf.found a w here S]
    apply Finds.atNode wf here
    cases parent : w.parent with
    | none =>
      have none : ∀ b, ¬ m.StrictlyAbove b a := by
        rintro b ⟨w', p, here', parent', -⟩
        rw [here] at here'
        cases here'
        rw [parent] at parent'
        cases parent'
      exact ⟨fun _ p above => absurd above (none p.node), by rintro h ⟨⟩⟩
    | some p =>
      obtain ⟨less, live⟩ := wf.parent a w p here parent
      obtain ⟨w', there⟩ := Option.isSome_iff_exists.1 live
      have strictly : ∀ b, m.StrictlyAbove b a ↔ m.Above b p := by
        intro b
        constructor
        · rintro ⟨w', p', here', parent', above⟩
          rw [here] at here'
          cases here'
          rw [parent] at parent'
          cases parent'
          exact above
        · exact fun above => ⟨w, p, here, parent, above⟩
      have above := ih p less there
      have once : m.OnceAbove a S ↔ m.OnceAtTop p S := by
        simp only [Mem.OnceAbove, Mem.OnceAtTop, strictly]
      constructor
      case absent =>
        intro missing q up
        exact above.absent missing q ((strictly q.node).1 up)
      case found =>
        intro h here'
        obtain ⟨counts, complete⟩ := above.found h here'
        refine ⟨⟨counts.nodup, ?_, counts.nonempty⟩, ?_⟩
        · intro q mem
          exact ⟨(strictly q.node).2 (counts.sound q mem).1, (counts.sound q mem).2⟩
        · simp only [strictly, once]
          exact complete

end Wave300.Wss
