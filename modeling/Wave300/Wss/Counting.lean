import Wave300.Wss.Chain

/-!
# Counting in the tree

Every call keeps the tree well-formed. Adding to a counter handle adds to the contexts it runs
over, and a call that fails leaves the tree as it was.
-/

namespace Wave300.Wss

open Lib

variable {m m' : Mem} {a b : ℕ} {S : ℕ}

theorem cntrOpen_eq {l : List Entry} {bound : ℕ}
    (h : Holds bound ((m.node a).bind Node.entries) l) (id : ℕ) :
    m.cntrOpen a id = lookup l id := by
  rw [Mem.cntrOpen, h.cells, findEntry_filled, ← lookup_eq]
  simp only [filled, List.replicate_zero, List.append_nil]

theorem cntrOpen_congr (same : (m'.node a).bind Node.entries = (m.node a).bind Node.entries)
    (id : ℕ) : m'.cntrOpen a id = m.cntrOpen a id := by
  rw [Mem.cntrOpen, Mem.cntrOpen, same]

theorem Wf.init : Wf Mem.init where
  below := by rintro a w ⟨⟩
  parent := by rintro a w p ⟨⟩
  entries := by rintro a w ⟨⟩
  found := by rintro a w ⟨⟩

/-- A tree that loses nodes without children, or none, and changes in nothing else. -/
theorem Wf.restrict (wf : Wf m) (next : m.next ≤ m'.next)
    (sub : ∀ a w, m'.node a = some w → ∃ w', m.node a = some w' ∧ w.parent = w'.parent ∧
      w.entries = w'.entries ∧ w.ids = w'.ids)
    (parents : ∀ a w p, m'.node a = some w → w.parent = some p → (m'.node p).isSome) : Wf m' := by
  have open_eq : ∀ a w, m'.node a = some w → ∀ id, m'.cntrOpen a id = m.cntrOpen a id := by
    intro a w here
    obtain ⟨w', there, -, entries, -⟩ := sub a w here
    apply cntrOpen_congr
    rw [here, there, Option.bind_some, Option.bind_some, entries]
  constructor
  case below =>
    intro a w here
    obtain ⟨w', there, -⟩ := sub a w here
    exact Nat.lt_of_lt_of_le (wf.below a w' there) next
  case parent =>
    intro a w p here parent
    obtain ⟨w', there, same, -⟩ := sub a w here
    exact ⟨(wf.parent a w' p there (same ▸ parent)).1, parents a w p here parent⟩
  case entries =>
    intro a w here
    obtain ⟨w', there, -, same, -⟩ := sub a w here
    rw [same]
    exact wf.entries a w' there
  case found =>
    intro a w here id
    obtain ⟨w', there, same, -, ids⟩ := sub a w here
    rw [open_eq a w here, wf.found a w' there, ids]
    cases parent : w.parent with
    | none => rw [← same, parent]; rfl
    | some p =>
      obtain ⟨w'', here'⟩ := Option.isSome_iff_exists.1 (parents a w p here parent)
      rw [← same, parent, Option.bind_some, Option.bind_some, open_eq p w'' here']

/-- What the parent of a new node has, if it has one. -/
theorem Wf.inherited (wf : Wf m) {parent : Option ℕ}
    (live : ∀ p, parent = some p → (m.node p).isSome) :
    ∃ l, Holds m.next ((parent.bind m.node).bind Node.entries) l ∧
      ∀ id, lookup l id = parent.bind (m.cntrOpen · id) := by
  cases parent with
  | none =>
    refine ⟨[], ⟨rfl, ?_⟩, fun _ => rfl⟩
    rintro e ⟨⟩
  | some p =>
    obtain ⟨w, here⟩ := Option.isSome_iff_exists.1 (live p rfl)
    obtain ⟨l, holds⟩ := wf.entries p w here
    have entries : ((some p).bind m.node).bind Node.entries = w.entries := by
      rw [Option.bind_some, here, Option.bind_some]
    rw [entries]
    refine ⟨l, ⟨holds.cells, ?_⟩, ?_⟩
    · intro e mem
      exact Nat.lt_of_lt_of_le (holds.below e mem) (wf.below p w here)
    · intro id
      apply Eq.symm
      apply cntrOpen_eq
      rw [here]
      exact holds

/-- A node is made at the end of the memory, and finds what its entries name. -/
theorem Wf.extend {m' : Mem} {w : Node} {l' : List Entry} (wf : Wf m) (next : m.next < m'.next)
    (node : m'.node = Function.update m.node m.next (some w))
    (live : ∀ p, w.parent = some p → (m.node p).isSome) (made : Holds (m.next + 1) w.entries l')
    (found : ∀ id, lookup l' id =
      merge (w.parent.bind (m.cntrOpen · id)) (own m.next w.ids.zipIdx id)) : Wf m' := by
  -- the others are as they were, and none of them has the new node as its parent
  have others : ∀ b, b ≠ m.next → m'.node b = m.node b := by
    intro b ne
    rw [node, Function.update_of_ne ne]
  have older : ∀ b w, m.node b = some w → b ≠ m.next :=
    fun b w here => Nat.ne_of_lt (wf.below b w here)
  have same : ∀ b, b ≠ m.next → ∀ id, m'.cntrOpen b id = m.cntrOpen b id := by
    intro b ne
    apply cntrOpen_congr
    rw [others b ne]
  have new : m'.node m.next = some w := by rw [node, Function.update_self]
  have live' : ∀ p, (m.node p).isSome → p < m.next ∧ (m'.node p).isSome := by
    intro p here
    obtain ⟨v, here⟩ := Option.isSome_iff_exists.1 here
    rw [others p (older p v here), here]
    exact ⟨wf.below p v here, rfl⟩
  have split : ∀ b v, m'.node b = some v → (b = m.next ∧ v = w) ∨ m.node b = some v := by
    intro b v here
    by_cases eq : b = m.next
    · subst eq
      rw [new] at here
      exact .inl ⟨rfl, (Option.some.inj here).symm⟩
    · rw [others b eq] at here
      exact .inr here
  constructor
  case below =>
    intro b v here
    obtain ⟨rfl, -⟩ | here := split b v here
    · exact next
    · exact Nat.lt_trans (wf.below b v here) next
  case parent =>
    intro b v p here isParent
    obtain ⟨rfl, rfl⟩ | here := split b v here
    · exact live' p (live p isParent)
    · obtain ⟨less, there⟩ := wf.parent b v p here isParent
      exact ⟨less, (live' p there).2⟩
  case entries =>
    intro b v here
    obtain ⟨rfl, rfl⟩ | here := split b v here
    · exact ⟨l', made⟩
    · exact wf.entries b v here
  case found =>
    intro b v here id
    obtain ⟨rfl, rfl⟩ | here := split b v here
    · have handle : m'.cntrOpen m.next id = lookup l' id := by
        apply cntrOpen_eq
        rw [new]
        exact made
      rw [handle, found]
      cases isParent : v.parent with
      | none => rfl
      | some p =>
        have less := (live' p (live p isParent)).1
        rw [Option.bind_some, Option.bind_some, same p (Nat.ne_of_lt less)]
    · rw [same b (older b v here), wf.found b v here id]
      cases isParent : v.parent with
      | none => rfl
      | some p =>
        obtain ⟨w', there⟩ := Option.isSome_iff_exists.1 (wf.parent b v p here isParent).2
        rw [Option.bind_some, Option.bind_some, same p (older p w' there)]

theorem Wf.create (wf : Wf m) {grant : ℕ → Bool} {parent : Option ℕ} (ids : List ℕ)
    (live : ∀ p, parent = some p → (m.node p).isSome) : Wf (m.create grant parent ids).1 := by
  obtain ⟨l, holds, up⟩ := wf.inherited live
  obtain ⟨-, kept⟩ | ⟨-, next, entries, l', node, made, found⟩ :=
    create_cases grant ids holds
  · apply wf.restrict kept.next
    · intro a w here
      exact ⟨w, kept.node ▸ here, rfl, rfl, rfl⟩
    · intro a w p here isParent
      rw [kept.node] at here ⊢
      exact (wf.parent a w p here isParent).2
  · have names : Node.ids ⟨parent, entries, ids.map (⟨·, 0⟩)⟩ = ids := by
      simp [Node.ids, Function.comp_def]
    apply wf.extend next node live made
    intro id
    rw [found, up, names]

theorem rollbackContexts_node (m : Mem) (a : ℕ) (parent entries : Option Entries) :
    (rollbackContexts m a parent entries).node = m.node ∧
      (rollbackContexts m a parent entries).next = m.next := by
  have frees : ∀ (l : List Entry) (m : Mem), (l.foldl (fun m e => m.free e.addr) m).node = m.node ∧
      (l.foldl (fun m e => m.free e.addr) m).next = m.next := by
    intro l
    induction l with
    | nil => exact fun m => ⟨rfl, rfl⟩
    | cons e l ih => exact fun m => ih (m.free e.addr)
  cases entries with
  | none => exact ⟨rfl, rfl⟩
  | some e =>
    simp only [rollbackContexts]
    split
    · exact frees _ m
    · exact ⟨rfl, rfl⟩

theorem Wf.delete (wf : Wf m) (childless : ∀ b w, m.node b = some w → w.parent ≠ some a) :
    Wf (m.delete a) := by
  cases here : m.node a with
  | none =>
    rw [Mem.delete, here]
    exact wf
  | some w =>
    obtain ⟨node, next⟩ :=
      rollbackContexts_node m a ((w.parent.bind m.node).bind Node.entries) w.entries
    have nodes : (m.delete a).node = Function.update m.node a none := by
      simp only [Mem.delete, here, node]
    have more : (m.delete a).next = m.next := by
      simp only [Mem.delete, here]
      exact next
    have kept : ∀ b w', (m.delete a).node b = some w' → m.node b = some w' := by
      intro b w' there
      rw [nodes] at there
      by_cases same : b = a
      · subst same
        rw [Function.update_self] at there
        cases there
      · rwa [Function.update_of_ne same] at there
    apply wf.restrict (Nat.le_of_eq more.symm)
    · intro b w' there
      exact ⟨w', kept b w' there, rfl, rfl, rfl⟩
    · intro b w' p there isParent
      have ne : p ≠ a := by
        rintro rfl
        exact childless b w' (kept b w' there) isParent
      rw [nodes, Function.update_of_ne ne]
      exact (wf.parent b w' p (kept b w' there) isParent).2

/-- What adding to counters leaves as it is. -/
def Node.shape (w : Node) : Option ℕ × Option Entries × List ℕ := (w.parent, w.entries, w.ids)

/-- The trees are the same but for the values of the contexts. -/
structure SameTree (m m' : Mem) : Prop where
  live : m'.live = m.live
  next : m'.next = m.next
  shape : ∀ b, (m'.node b).map Node.shape = (m.node b).map Node.shape

theorem addTo_sameTree (n : BitVec 32) (m : Mem) (p : Ptr) : SameTree m (m.addTo n p) where
  live := rfl
  next := rfl
  shape b := by
    by_cases same : b = p.node
    · subst same
      simp only [Mem.addTo, Function.update_self, Option.map_map]
      congr 1
      funext w
      simp only [Function.comp, Node.shape, Node.ids]
      congr 2
      apply List.ext_getElem?
      intro i
      rw [List.getElem?_map, List.getElem?_map, List.getElem?_modify]
      cases w.contexts[i]? with
      | none => rfl
      | some c =>
        simp only [Option.map_some]
        split <;> rfl
    · simp only [Mem.addTo, Function.update_of_ne same]

theorem cntrAdd_sameTree (h : List Ptr) (n : BitVec 32) (m : Mem) :
    SameTree m (m.cntrAdd h n) := by
  induction h generalizing m with
  | nil => exact ⟨rfl, rfl, fun _ => rfl⟩
  | cons p h ih =>
    have one := addTo_sameTree n m p
    have rest := ih (m.addTo n p)
    exact ⟨rest.live.trans one.live, rest.next.trans one.next,
      fun b => (rest.shape b).trans (one.shape b)⟩

theorem Wf.sameTree (wf : Wf m) (same : SameTree m m') : Wf m' := by
  have back : ∀ b w, m'.node b = some w → ∃ w', m.node b = some w' ∧ w'.shape = w.shape := by
    intro b w here
    have shape := same.shape b
    rw [here, Option.map_some] at shape
    exact Option.map_eq_some_iff.1 shape.symm
  apply wf.restrict (Nat.le_of_eq same.next.symm)
  · intro b w here
    obtain ⟨w', there, shape⟩ := back b w here
    simp only [Node.shape, Prod.mk.injEq] at shape
    exact ⟨w', there, shape.1.symm, shape.2.1.symm, shape.2.2.symm⟩
  · intro b w p here isParent
    obtain ⟨w', there, shape⟩ := back b w here
    have live := (wf.parent b w' p there ((congrArg Prod.fst shape).trans isParent)).2
    rw [← Option.isSome_map (f := Node.shape), same.shape p, Option.isSome_map]
    exact live

theorem Wf.step (wf : Wf m) {grant : ℕ → Bool} {op : Op} (calls : m.Calls op) :
    Wf (step grant m op) := by
  cases op with
  | create parent ids => exact wf.create ids calls
  | delete a => exact wf.delete calls.2
  | add a statId n =>
    simp only [Wss.step]
    cases m.cntrOpen a statId with
    | none => exact wf
    | some h => exact wf.sameTree (cntrAdd_sameTree h n m)

/-! ## What is counted -/

theorem context_addTo (n : BitVec 32) (m : Mem) (p q : Ptr) :
    (m.addTo n p).context q =
      (m.context q).map fun c => { c with value := c.value + if q = p then n else 0 } := by
  obtain ⟨b, i⟩ := q
  simp only [Mem.context, Mem.addTo]
  by_cases same : b = p.node
  · subst same
    rw [Function.update_self]
    cases m.node p.node with
    | none => rfl
    | some w =>
      simp only [Option.map_some, Option.bind_some, List.getElem?_modify]
      cases w.contexts[i]? with
      | none => rfl
      | some c =>
        by_cases eq : p.idx = i
        · subst eq
          simp
        · have ne : (⟨p.node, i⟩ : Ptr) ≠ p := fun h => eq (congrArg Ptr.idx h).symm
          simp [eq, ne]
  · have ne : (⟨b, i⟩ : Ptr) ≠ p := fun h => same (congrArg Ptr.node h)
    rw [Function.update_of_ne same, if_neg ne]
    simp

/-- A handle without repetitions adds once to each of its contexts. -/
theorem context_cntrAdd {h : List Ptr} (nodup : h.Nodup) (n : BitVec 32) (m : Mem) (q : Ptr) :
    (m.cntrAdd h n).context q =
      (m.context q).map fun c => { c with value := c.value + if q ∈ h then n else 0 } := by
  induction h generalizing m with
  | nil => simp [Mem.cntrAdd]
  | cons p h ih =>
    obtain ⟨new, nodup⟩ := List.nodup_cons.1 nodup
    have one := context_addTo n m p q
    rw [Mem.cntrAdd, List.foldl_cons, ← Mem.cntrAdd, ih nodup, one, Option.map_map]
    congr 1
    funext c
    by_cases eq : q = p
    · subst eq
      simp [new]
    · simp [eq]

/-- Adding to a handle adds to each context with its id at the node and above it, and to no
other. -/
def Mem.CountsExactly (m : Mem) (a statId : ℕ) (h : List Ptr) : Prop :=
  ∀ n p c, m.context p = some c → ∃ c', (m.cntrAdd h n).context p = some c' ∧
    c'.statId = c.statId ∧ (m.Above p.node a ∧ c.statId = statId → c'.value = c.value + n) ∧
    (¬ (m.Above p.node a ∧ c.statId = statId) → c'.value = c.value)

theorem Wf.countsExactly_iff (wf : Wf m) {w : Node} (here : m.node a = some w) {h : List Ptr}
    (opened : m.cntrOpen a S = some h) : m.CountsExactly a S h ↔ m.OnceAtTop a S := by
  obtain ⟨counts, complete⟩ := (wf.finds here).found h opened
  have after := context_cntrAdd counts.nodup
  refine Iff.trans ?_ complete
  constructor
  · intro exactly p above ⟨c, there, id⟩
    obtain ⟨c', there', -, value, -⟩ := exactly 1 p c there
    rw [after, there, Option.map_some] at there'
    cases there'
    by_contra absent
    have changed := value ⟨above, id⟩
    rw [if_neg absent] at changed
    revert changed
    simp
  · intro all n p c there
    refine ⟨⟨c.statId, c.value + if p ∈ h then n else 0⟩, ?_, rfl, ?_, ?_⟩
    · rw [after, there, Option.map_some]
    · rintro ⟨above, id⟩
      rw [if_pos (all p above ⟨c, there, id⟩)]
    · intro other
      have absent : p ∉ h := by
        intro mem
        obtain ⟨above, c', there', id⟩ := counts.sound p mem
        rw [there] at there'
        cases there'
        exact other ⟨above, id⟩
      rw [if_neg absent]
      exact BitVec.add_zero _

theorem openLoop_failed (m : Mem) (a : ℕ) (ids : List ℕ) (failed : (m.openLoop a ids).1 = false) :
    ∀ h ∈ (m.openLoop a ids).2.dropWhile Option.isSome, h = none := by
  induction ids with
  | nil => cases failed
  | cons id ids ih =>
    revert failed
    simp only [Mem.openLoop]
    cases m.cntrOpen a id with
    | some h => exact ih
    | none =>
      intro _ h mem
      simp only [Option.isSome_none, Bool.false_eq_true, not_false_eq_true,
        List.dropWhile_cons_of_neg, List.mem_cons, List.mem_map] at mem
      obtain rfl | ⟨id, -, rfl⟩ := mem
      · rfl
      · rfl

/-- In every tree, adding to a handle adds to each context with its id at the node and above it
and to nothing else, exactly when the topmost node with the statistic has it once; and a call
that fails leaves the tree as it was. -/
theorem statistics_tree (grant : ℕ → Bool) (run : Runs (step grant) Mem.Calls .init m) :
    (∀ a S h, (m.node a).isSome → m.cntrOpen a S = some h →
      (∀ n, SameTree m (m.cntrAdd h n)) ∧ (m.CountsExactly a S h ↔ m.OnceAtTop a S)) ∧
    (∀ parent ids, m.Calls (.create parent ids) → (m.create grant parent ids).2 = none →
      (m.create grant parent ids).1.node = m.node ∧
      ∀ b, b < m.next → (m.create grant parent ids).1.live b = m.live b) ∧
    (∀ a ids, (m.cntrsOpen a ids).2.1 = false →
      (m.cntrsOpen a ids).1 = m ∧ ∀ h ∈ (m.cntrsOpen a ids).2.2, h = none) := by
  have wf : Wf m := run.invariant Wf.init fun m op h calls => h.step calls
  refine ⟨?_, ?_, ?_⟩
  · intro a S h live opened
    obtain ⟨w, here⟩ := Option.isSome_iff_exists.1 live
    exact ⟨fun n => cntrAdd_sameTree h n m, wf.countsExactly_iff here opened⟩
  · intro parent ids calls failed
    obtain ⟨l, holds, -⟩ := wf.inherited calls
    obtain ⟨-, kept⟩ | ⟨made, -⟩ := create_cases grant ids holds
    · exact ⟨kept.node, kept.live⟩
    · rw [failed] at made
      cases made
  · intro a ids failed
    have rest := openLoop_failed m a ids
    simp only [Mem.cntrsOpen] at *
    cases result : m.openLoop a ids with
    | mk success hs =>
      rw [result] at failed rest
      cases success with
      | true => cases failed
      | false =>
        refine ⟨rfl, ?_⟩
        intro h mem
        obtain mem | mem := List.mem_append.1 mem
        · obtain ⟨h', -, rfl⟩ := List.mem_map.1 mem
          rfl
        · exact rest rfl h mem

/-- A node with one statistic, and below it one with the same and another. -/
theorem statistics_tree_of_two :
    let m := [Op.create none [0x80000000], .create (some 0) [0x80000000, 0x80000001]].foldl
      (step fun _ => true) .init
    m.cntrOpen 3 0x80000000 = some [⟨0, 0⟩, ⟨3, 0⟩] ∧
      m.CountsExactly 3 0x80000000 [⟨0, 0⟩, ⟨3, 0⟩] := by
  intro m
  have run : Runs (step fun _ => true) Mem.Calls .init m :=
    Runs.of_allowed ⟨by rintro p ⟨⟩, by rintro p ⟨⟩; rfl, trivial⟩
  have opened : m.cntrOpen 3 0x80000000 = some [⟨0, 0⟩, ⟨3, 0⟩] := by decide
  refine ⟨opened, ((statistics_tree _ run).1 3 _ _ rfl opened).2.2 ?_⟩
  have lower : m.node 3 = some ⟨some 0, (m.node 3).bind Node.entries,
    [⟨0x80000000, 0⟩, ⟨0x80000001, 0⟩]⟩ := rfl
  have upper : m.node 0 = some ⟨none, (m.node 0).bind Node.entries, [⟨0x80000000, 0⟩]⟩ := rfl
  intro t above _ i j hasi hasj
  obtain rfl | ⟨w, p, here, parent, above⟩ := Mem.above_iff.1 above
  · have first : ∀ i, m.HasId ⟨3, i⟩ 0x80000000 → i = 0 := by
      rintro i ⟨c, there, id⟩
      rw [Mem.context, lower, Option.bind_some] at there
      obtain _ | _ | i := i
      · rfl
      · cases there
        cases id
      · cases there
    rw [first i hasi, first j hasj]
  · rw [lower] at here
    cases here
    cases parent
    obtain rfl | ⟨w, p, here, parent, -⟩ := Mem.above_iff.1 above
    · have first : ∀ i, m.HasId ⟨0, i⟩ 0x80000000 → i = 0 := by
        rintro i ⟨c, there, -⟩
        rw [Mem.context, upper, Option.bind_some] at there
        obtain _ | i := i
        · rfl
        · cases there
      rw [first i hasi, first j hasj]
    · rw [upper] at here
      cases here
      cases parent

/-- A root created with the same statistic twice: the handle finds the first context only. -/
theorem second_context_not_counted :
    ¬ ∀ m, Runs (step fun _ => true) Mem.Calls .init m → ∀ a S h, (m.node a).isSome →
      m.cntrOpen a S = some h → m.CountsExactly a S h := by
  intro claim
  let m := [Op.create none [0x80000000, 0x80000000]].foldl (step fun _ => true) .init
  have run : Runs (step fun _ => true) Mem.Calls .init m :=
    Runs.of_allowed ⟨by rintro p ⟨⟩, trivial⟩
  have opened : m.cntrOpen 0 0x80000000 = some [⟨0, 0⟩] := by decide
  have second : (m.cntrAdd [⟨0, 0⟩] 1).context ⟨0, 1⟩ = some ⟨0x80000000, 0⟩ := by decide
  obtain ⟨c', there, -, value, -⟩ :=
    claim m run 0 0x80000000 _ rfl opened 1 ⟨0, 1⟩ ⟨0x80000000, 0⟩ (by decide)
  rw [second] at there
  cases there
  exact absurd (value ⟨.self, rfl⟩) (by decide)

end Wave300.Wss
