import Mathlib.Data.List.ReduceOption
import Wave300.Wss.Tree

/-!
# The entries of a node

What `_mtlk_wss_adopt_contexts` makes of the entries of the parent: a statistic the parent has
gets the contexts of the node added to its entry, any other gets an entry for each of them,
of which only the first is ever found.
-/

namespace Wave300.Wss

/-- The contexts of the first entry with an id. -/
def lookup (entries : List Entry) (statId : ℕ) : Option (List Ptr) :=
  (entries.find? (·.statId == statId)).map Entry.contexts

/-- The contexts of a node with an id, from the ids and indices of all. -/
def own (a : ℕ) (contexts : List (ℕ × ℕ)) (statId : ℕ) : List Ptr :=
  (contexts.filter (·.1 == statId)).map fun c => ⟨a, c.2⟩

/-- What is found at a node, from what is found at its parent and the contexts of its own. -/
def merge : Option (List Ptr) → List Ptr → Option (List Ptr)
  | some up, own => some (up ++ own)
  | none, [] => none
  | none, p :: _ => some [p]

/-- The cells while the contexts are added: all entries so far, then the empty ones. -/
def filled (entries : List Entry) (free : ℕ) : List (Option Entry) :=
  entries.map some ++ List.replicate free none

theorem findEntry_filled (entries : List Entry) (free statId : ℕ) :
    findEntry (filled entries free) statId = entries.findIdx? (·.statId == statId) := by
  have empty : (List.replicate free (none : Option Entry)).findIdx?
      (fun c => c.any (·.statId == statId)) = none := by
    rw [List.findIdx?_eq_none_iff]
    intro c here
    rw [List.eq_of_mem_replicate here]
    rfl
  rw [findEntry, filled, List.findIdx?_append, empty, List.findIdx?_map]
  simp [Function.comp_def]

theorem findIdx_filled (entries : List Entry) (free : ℕ) :
    (filled entries (free + 1)).findIdx Option.isNone = entries.length := by
  induction entries with
  | nil => rfl
  | cons e entries ih =>
    rw [filled, List.map_cons, List.cons_append, List.findIdx_cons]
    exact congrArg (· + 1) ih

theorem getElem?_filled {entries : List Entry} {free i : ℕ} {e : Entry}
    (here : entries[i]? = some e) : (filled entries free)[i]? = some (some e) := by
  have inside : i < entries.length := (List.getElem?_eq_some_iff.1 here).1
  rw [filled, List.getElem?_append_left (by rwa [List.length_map]), List.getElem?_map, here]
  rfl

theorem set_filled {entries : List Entry} {free i : ℕ} (inside : i < entries.length) (e : Entry) :
    (filled entries free).set i (some e) = filled (entries.set i e) free := by
  rw [filled, List.set_append_left _ _ (by rwa [List.length_map]), ← List.map_set]
  rfl

theorem set_filled_free (entries : List Entry) (free : ℕ) (e : Entry) :
    (filled entries (free + 1)).set entries.length (some e) = filled (entries ++ [e]) free := by
  rw [filled, List.set_append_right _ _ (Nat.le_of_eq (List.length_map some)), List.length_map,
    Nat.sub_self, List.replicate_succ, List.set_cons_zero, filled, List.map_append,
    List.append_assoc]
  rfl

/-- The handle at a node is what its entries give. -/
theorem lookup_eq (entries : List Entry) (statId : ℕ) :
    (entries.findIdx? (·.statId == statId)).bind
      (fun i => ((entries.map some)[i]?.join).map Entry.contexts) = lookup entries statId := by
  induction entries with
  | nil => rfl
  | cons e entries ih =>
    rw [List.findIdx?_cons, lookup, List.find?_cons]
    cases same : e.statId == statId with
    | true => rfl
    | false =>
      simp only [Bool.false_eq_true, if_false]
      rw [← lookup, ← ih, Option.bind_map]
      rfl

/-- Replacing the first entry of an id changes what is found under that id only. -/
theorem lookup_set {entries : List Entry} {statId i : ℕ} {e : Entry}
    (first : entries.findIdx? (·.statId == statId) = some i) (same : e.statId = statId) (id : ℕ) :
    lookup (entries.set i e) id = if id = statId then some e.contexts else lookup entries id := by
  induction entries generalizing i with
  | nil => cases first
  | cons e' entries ih =>
    rw [List.findIdx?_cons] at first
    cases here : e'.statId == statId with
    | true =>
      rw [here, if_pos rfl] at first
      cases first
      rw [List.set_cons_zero, lookup, List.find?_cons, same]
      split
      case h_1 found =>
        rw [if_pos (beq_iff_eq.1 found).symm]
        rfl
      case h_2 other =>
        have differs : id ≠ statId := fun eq => by simp [eq] at other
        have other' : (e'.statId == id) = false := by
          rw [beq_iff_eq.1 here]
          exact other
        rw [if_neg differs, lookup, List.find?_cons, other']
    | false =>
      rw [here, if_neg Bool.false_ne_true] at first
      obtain ⟨j, before, rfl⟩ := Option.map_eq_some_iff.1 first
      have rest := ih before
      rw [List.set_cons_succ, lookup, List.find?_cons, lookup, List.find?_cons]
      cases found : e'.statId == id with
      | true =>
        have differs : id ≠ statId := by
          rintro rfl
          rw [here] at found
          cases found
        rw [if_neg differs]
      | false => exact rest

theorem lookup_concat (entries : List Entry) (e : Entry) (id : ℕ) :
    lookup (entries ++ [e]) id =
      (lookup entries id).or (if e.statId = id then some e.contexts else none) := by
  rw [lookup, List.find?_append, Option.map_or, ← lookup]
  congr 1
  rw [List.find?_singleton]
  by_cases same : e.statId = id <;> simp [same]

/-! ## The loop -/

/-- The entries on the way from those of the parent, in a call that began at address `start`. -/
structure Adding (a start : ℕ) (parent entries : List Entry) : Prop where
  ids : parent.map Entry.statId <+: entries.map Entry.statId
  fresh : ∀ e ∈ entries, e.allocator = a → start ≤ e.addr
  bounded : ∀ e ∈ entries, e.allocator ≤ a

/-- What is found under an id when some contexts with it are added. -/
def grown (known : Prop) [Decidable known] (before : Option (List Ptr)) (new : List Ptr) :
    Option (List Ptr) :=
  if known then before.map (· ++ new) else before.or (new.head?.map ([·]))

/-- What the loop leaves in memory alone. -/
structure Keeps (start : ℕ) (m m' : Mem) : Prop where
  node : m'.node = m.node
  next : m.next ≤ m'.next
  live : ∀ b, b < start → m'.live b = m.live b

theorem Keeps.refl (start : ℕ) (m : Mem) : Keeps start m m := ⟨rfl, Nat.le_refl _, fun _ _ => rfl⟩

theorem Keeps.trans {start : ℕ} {m m' m'' : Mem} (h : Keeps start m m') (h' : Keeps start m' m'') :
    Keeps start m m'' :=
  ⟨h'.node.trans h.node, Nat.le_trans h.next h'.next,
    fun b lt => (h'.live b lt).trans (h.live b lt)⟩

theorem Mem.alloc_keeps (grant : ℕ → Bool) {start : ℕ} {m : Mem} (le : start ≤ m.next) :
    Keeps start m (m.alloc grant).1 := by
  unfold Mem.alloc
  split
  · refine ⟨rfl, Nat.le_succ _, ?_⟩
    intro b lt
    exact Function.update_of_ne (Nat.ne_of_lt (Nat.lt_of_lt_of_le lt le)) ..
  · exact ⟨rfl, Nat.le_succ _, fun _ _ => rfl⟩

theorem Mem.alloc_some {grant : ℕ → Bool} {m : Mem} {a : ℕ} (h : (m.alloc grant).2 = some a) :
    a = m.next ∧ (m.alloc grant).1.next = m.next + 1 := by
  unfold Mem.alloc at *
  split at h
  · cases h
    exact ⟨rfl, by simp [*]⟩
  · cases h

theorem Mem.free_keeps {start a : ℕ} (m : Mem) (le : start ≤ a) : Keeps start m (m.free a) := by
  refine ⟨rfl, Nat.le_refl _, ?_⟩
  intro b lt
  exact Function.update_of_ne (Nat.ne_of_lt (Nat.lt_of_lt_of_le lt le)) ..

/-- The first entry of an id the parent has is at the same place among those of the node. -/
theorem Adding.findIdx? {a start : ℕ} {parent entries : List Entry}
    (h : Adding a start parent entries) {statId i : ℕ}
    (found : parent.findIdx? (·.statId == statId) = some i) :
    entries.findIdx? (·.statId == statId) = some i := by
  have ids (l : List Entry) : l.findIdx? (·.statId == statId) =
      (l.map Entry.statId).findIdx? (· == statId) := by
    rw [List.findIdx?_map]
    rfl
  obtain ⟨more, whole⟩ := h.ids
  rw [ids] at found ⊢
  rw [← whole, List.findIdx?_append, found]
  rfl

theorem mem_ids_iff {parent : List Entry} {statId : ℕ} :
    statId ∈ parent.map Entry.statId ↔ (parent.findIdx? (·.statId == statId)).isSome := by
  rw [List.findIdx?_isSome, List.any_eq_true, List.mem_map]
  simp only [beq_iff_eq]

theorem own_cons (a statId idx : ℕ) (rest : List (ℕ × ℕ)) (id : ℕ) :
    own a ((statId, idx) :: rest) id =
      if statId = id then ⟨a, idx⟩ :: own a rest id else own a rest id := by
  by_cases same : statId = id <;> simp [own, same]

/-- One context added to the entry its statistic has from the parent. -/
theorem Adding.set {a start : ℕ} {parent entries : List Entry}
    (h : Adding a start parent entries) {statId i addr : ℕ} {contexts : List Ptr}
    (found : entries.findIdx? (·.statId == statId) = some i) (le : start ≤ addr) :
    Adding a start parent (entries.set i ⟨addr, a, statId, contexts⟩) := by
  obtain ⟨inside, same, -⟩ := List.findIdx?_eq_some_iff_getElem.1 found
  have kept : (entries.set i ⟨addr, a, statId, contexts⟩).map Entry.statId =
      entries.map Entry.statId := by
    rw [List.map_set]
    apply List.ext_getElem?
    intro j
    rw [List.getElem?_set]
    split
    case isTrue eq =>
      subst eq
      rw [List.getElem?_map, List.getElem?_eq_getElem inside, Option.map_some, beq_iff_eq.1 same,
        List.length_map, if_pos inside]
    case isFalse => rfl
  constructor
  case ids => rw [kept]; exact h.ids
  case fresh =>
    intro e mem
    obtain mem | rfl := List.mem_or_eq_of_mem_set mem
    · exact h.fresh e mem
    · exact fun _ => le
  case bounded =>
    intro e mem
    obtain mem | rfl := List.mem_or_eq_of_mem_set mem
    · exact h.bounded e mem
    · exact Nat.le_refl _

theorem Adding.concat {a start : ℕ} {parent entries : List Entry}
    (h : Adding a start parent entries) {statId addr : ℕ} {contexts : List Ptr}
    (le : start ≤ addr) :
    Adding a start parent (entries ++ [⟨addr, a, statId, contexts⟩]) := by
  constructor
  case ids =>
    rw [List.map_append]
    exact h.ids.trans (List.prefix_append ..)
  case fresh =>
    intro e mem
    obtain mem | mem := List.mem_append.1 mem
    · exact h.fresh e mem
    · rw [List.mem_singleton.1 mem]
      exact fun _ => le
  case bounded =>
    intro e mem
    obtain mem | mem := List.mem_append.1 mem
    · exact h.bounded e mem
    · obtain rfl := List.mem_singleton.1 mem
      exact Nat.le_refl a

/-- A context is added, to the entry the parent has for its statistic or in an empty cell. -/
theorem realloc_spec (grant : ℕ → Bool) (idx : ℕ) {m : Mem} {a start free statId : ℕ}
    {parent entries : List Entry} (h : Adding a start parent entries) (le : start ≤ m.next)
    (room : statId ∈ parent.map Entry.statId ∨ 0 < free) :
    let r := reallocStatsEntryAddContext grant m a (filled entries free)
      (parent.findIdx? (·.statId == statId)) idx statId
    Keeps start m r.1 ∧ ∀ cells, r.2 = some cells → ∃ entries',
      cells = filled entries' (if statId ∈ parent.map Entry.statId then free else free - 1) ∧
      Adding a start parent entries' ∧ ∀ id, lookup entries' id =
        if id = statId then grown (id ∈ parent.map Entry.statId) (lookup entries id) [⟨a, idx⟩]
        else lookup entries id := by
  have kept := Mem.alloc_keeps grant le
  simp only [reallocStatsEntryAddContext]
  cases got : m.alloc grant with
  | mk m' addr =>
    rw [got] at kept
    cases addr with
    | none => exact ⟨kept, by rintro cells ⟨⟩⟩
    | some addr =>
      have fresh : start ≤ addr := by
        have next : addr = m.next := (Mem.alloc_some (by rw [got])).1
        rw [next]
        exact le
      refine ⟨kept, ?_⟩
      rintro cells ⟨⟩
      cases found : parent.findIdx? (·.statId == statId) with
      | some i =>
        have known : statId ∈ parent.map Entry.statId := mem_ids_iff.2 (by rw [found]; rfl)
        have first := h.findIdx? found
        obtain ⟨inside, same, -⟩ := List.findIdx?_eq_some_iff_getElem.1 first
        have here := List.getElem?_eq_getElem inside
        refine ⟨entries.set i ⟨addr, a, statId, entries[i].contexts ++ [⟨a, idx⟩]⟩, ?_,
          h.set first fresh, ?_⟩
        · simp only [getElem?_filled here, set_filled inside, if_pos known]
        · intro id
          have before : lookup entries statId = some entries[i].contexts := by
            rw [← lookup_eq, first, Option.bind_some, List.getElem?_map, here]
            rfl
          rw [lookup_set first rfl]
          split
          case isTrue eq =>
            subst eq
            rw [grown, if_pos known, before]
            rfl
          case isFalse => rfl
      | none =>
        have unknown : statId ∉ parent.map Entry.statId := by
          rw [mem_ids_iff, found]
          exact Bool.false_ne_true
        obtain ⟨free, rfl⟩ : ∃ n, free = n + 1 :=
          Nat.exists_eq_add_one.2 (room.resolve_left unknown)
        refine ⟨entries ++ [⟨addr, a, statId, [⟨a, idx⟩]⟩], ?_, h.concat fresh, ?_⟩
        · simp only [if_neg unknown, findIdx_filled, set_filled_free, Nat.add_sub_cancel,
            List.nil_append]
        · intro id
          rw [lookup_concat]
          split
          case isTrue eq =>
            subst eq
            rw [grown, if_neg unknown, if_pos rfl]
            rfl
          case isFalse other => rw [if_neg (Ne.symm other), Option.or_none]

theorem grown_grown {known : Prop} [Decidable known] (before : Option (List Ptr)) (p : Ptr)
    (new : List Ptr) :
    grown known (grown known before [p]) new = grown known before (p :: new) := by
  unfold grown
  split
  · cases before with
    | none => rfl
    | some l => simp
  · cases before <;> rfl

theorem grown_nil {known : Prop} [Decidable known] (before : Option (List Ptr)) :
    grown known before [] = before := by
  unfold grown
  split <;> cases before <;> simp

/-- How many of the contexts need a cell of their own. -/
def cellsNeeded (parent : List Entry) (contexts : List (ℕ × ℕ)) : ℕ :=
  contexts.countP fun c => decide (c.1 ∉ parent.map Entry.statId)

/-- The loop fills the empty cells, and adds each context to what is found under its id. -/
theorem adoptLoop_spec (grant : ℕ → Bool) {a start : ℕ} {parent : List Entry}
    (contexts : List (ℕ × ℕ)) {m : Mem} {entries : List Entry}
    (h : Adding a start parent entries) (le : start ≤ m.next) :
    let r := adoptLoop grant a (filled parent 0) contexts m
      (filled entries (cellsNeeded parent contexts))
    Keeps start m r.1 ∧ ∃ entries' free, r.2.1 = filled entries' free ∧
      Adding a start parent entries' ∧ (r.2.2 = true → free = 0 ∧ ∀ id, lookup entries' id =
        grown (id ∈ parent.map Entry.statId) (lookup entries id) (own a contexts id)) := by
  induction contexts generalizing m entries with
  | nil =>
    refine ⟨.refl start m, entries, 0, rfl, h, fun _ => ⟨rfl, ?_⟩⟩
    intro id
    exact (grown_nil _).symm
  | cons c contexts ih =>
    obtain ⟨statId, idx⟩ := c
    have room : statId ∈ parent.map Entry.statId ∨
        0 < cellsNeeded parent ((statId, idx) :: contexts) := by
      by_cases known : statId ∈ parent.map Entry.statId
      · exact .inl known
      · right
        rw [cellsNeeded, List.countP_cons_of_pos (by simpa using known)]
        exact Nat.succ_pos _
    have left : (if statId ∈ parent.map Entry.statId
        then cellsNeeded parent ((statId, idx) :: contexts)
        else cellsNeeded parent ((statId, idx) :: contexts) - 1) =
        cellsNeeded parent contexts := by
      simp only [cellsNeeded, List.countP_cons]
      split <;> simp [*]
    have one := realloc_spec grant idx h le room
    simp only [adoptLoop, findEntry_filled]
    revert one
    cases reallocStatsEntryAddContext grant m a
      (filled entries (cellsNeeded parent ((statId, idx) :: contexts)))
      (parent.findIdx? (·.statId == statId)) idx statId with
    | mk m' cells =>
      rintro ⟨kept, added⟩
      cases cells with
      | none => exact ⟨kept, entries, _, rfl, h, by rintro ⟨⟩⟩
      | some cells =>
        obtain ⟨entries', rfl, adding, found⟩ := added cells rfl
        rw [left]
        obtain ⟨kept', entries'', free, whole, adding', found'⟩ :=
          ih adding (Nat.le_trans le kept.next)
        refine ⟨kept.trans kept', entries'', free, whole, adding', ?_⟩
        intro success
        refine ⟨(found' success).1, ?_⟩
        intro id
        rw [(found' success).2 id, found id, own_cons]
        by_cases same : statId = id
        · rw [if_pos same, if_pos same.symm, grown_grown]
        · rw [if_neg same, if_neg (Ne.symm same)]

/-! ## The calls -/

theorem rollbackContexts_keeps {m : Mem} {a start : ℕ} {parent : Option Entries} {e : Entries}
    (array : start ≤ e.addr)
    (fresh : ∀ x ∈ e.cells.reduceOption, x.allocator = a → start ≤ x.addr) :
    Keeps start m (rollbackContexts m a parent (some e)) := by
  have frees : ∀ (l : List Entry) (m : Mem), (∀ x ∈ l, start ≤ x.addr) →
      Keeps start m (l.foldl (fun m e => m.free e.addr) m) := by
    intro l
    induction l with
    | nil => exact fun m _ => .refl start m
    | cons x l ih =>
      intro m all
      apply (m.free_keeps (all x List.mem_cons_self)).trans
      exact ih _ fun y mem => all y (List.mem_cons_of_mem x mem)
  simp only [rollbackContexts]
  split
  · refine (frees _ m ?_).trans (Mem.free_keeps _ array)
    intro x mem
    obtain ⟨mem, same⟩ := List.mem_filter.1 mem
    exact fresh x mem (beq_iff_eq.1 same)
  · exact .refl start m

theorem rollbackContexts_self (m : Mem) (a : ℕ) (parent : Option Entries) :
    rollbackContexts m a parent parent = m := by
  cases parent <;> simp [rollbackContexts]

theorem reduceOption_filled (entries : List Entry) (free : ℕ) :
    (filled entries free).reduceOption = entries := by
  rw [filled, List.reduceOption_append, List.reduceOption_replicate_none, List.append_nil]
  induction entries with
  | nil => rfl
  | cons e entries ih => rw [List.map_cons, List.reduceOption_cons_of_some, ih]

theorem cellsNeeded_zipIdx (parent : List Entry) (ids : List ℕ) :
    getMergedNofEntries (filled parent 0) ids - (filled parent 0).length =
      cellsNeeded parent ids.zipIdx := by
  have found : (fun id => (findEntry (filled parent 0) id).isSome) =
      fun id => decide (id ∈ parent.map Entry.statId) := by
    funext id
    rw [findEntry_filled]
    exact Bool.eq_iff_iff.2 (by rw [← mem_ids_iff, decide_eq_true_iff])
  have split : ids.length = ids.countP (fun id => decide (id ∈ parent.map Entry.statId)) +
      ids.countP (fun id => decide (id ∉ parent.map Entry.statId)) := by
    rw [ids.length_eq_countP_add_countP fun id => decide (id ∈ parent.map Entry.statId)]
    simp only [decide_eq_true_eq]
  have needed : cellsNeeded parent ids.zipIdx =
      ids.countP fun id => decide (id ∉ parent.map Entry.statId) := by
    calc cellsNeeded parent ids.zipIdx
      _ = (ids.zipIdx.map Prod.fst).countP fun id => decide (id ∉ parent.map Entry.statId) := by
        rw [List.countP_map]
        rfl
      _ = _ := by rw [List.zipIdx_map_fst]
  rw [getMergedNofEntries, found, needed]
  omega

/-- The cells of a node are the entries `l`, made for nodes below an address. -/
structure Holds (bound : ℕ) (entries : Option Entries) (l : List Entry) : Prop where
  cells : cellsOf entries = filled l 0
  below : ∀ e ∈ l, e.allocator < bound

theorem merge_eq_grown (parent : List Entry) (new : List Ptr) (id : ℕ) :
    grown (id ∈ parent.map Entry.statId) (lookup parent id) new = merge (lookup parent id) new := by
  have known : id ∈ parent.map Entry.statId ↔ (lookup parent id).isSome := by
    rw [lookup, Option.isSome_map, List.find?_isSome, List.mem_map]
    simp only [beq_iff_eq]
  rw [grown]
  cases found : lookup parent id with
  | some l => rw [if_pos (known.2 (by rw [found]; rfl))]; rfl
  | none =>
    have unknown : id ∉ parent.map Entry.statId := fun mem => by
      rw [known, found] at mem
      cases mem
    rw [if_neg unknown]
    cases new <;> rfl

theorem adoptContexts_spec (grant : ℕ → Bool) {m : Mem} {a : ℕ} {parent : Option Entries}
    {l : List Entry} (ids : List ℕ) (h : Holds a parent l) (le : a ≤ m.next) :
    let r := adoptContexts grant m a parent ids
    Keeps a m r.1 ∧ ∀ entries, r.2 = some entries → ∃ l', Holds (a + 1) (some entries) l' ∧
      ∀ id, lookup l' id = merge (lookup l id) (own a ids.zipIdx id) := by
  have kept := Mem.alloc_keeps grant le
  simp only [adoptContexts, h.cells, cellsNeeded_zipIdx]
  cases got : m.alloc grant with
  | mk m' addr =>
    rw [got] at kept
    cases addr with
    | none =>
      simp only [rollbackContexts_self]
      exact ⟨kept, by rintro entries ⟨⟩⟩
    | some addr =>
      have array : a ≤ addr := by
        have next : addr = m.next := (Mem.alloc_some (by rw [got])).1
        rw [next]
        exact le
      have adding : Adding a a l l := by
        constructor
        case ids => exact List.prefix_rfl
        case fresh =>
          intro e mem same
          have below := h.below e mem
          omega
        case bounded => exact fun e mem => Nat.le_of_lt (h.below e mem)
      have start : filled l 0 ++ List.replicate (cellsNeeded l ids.zipIdx) none =
          filled l (cellsNeeded l ids.zipIdx) := by
        simp only [filled, List.replicate_zero, List.append_nil]
      have loop := adoptLoop_spec grant ids.zipIdx adding
        (Nat.le_trans le kept.next)
      simp only [start]
      revert loop
      cases adoptLoop grant a (filled l 0) ids.zipIdx m' (filled l (cellsNeeded l ids.zipIdx)) with
      | mk m'' rest =>
        obtain ⟨cells, success⟩ := rest
        rintro ⟨kept', l', free, whole, added, found⟩
        subst whole
        cases success with
        | true =>
          obtain ⟨rfl, same⟩ := found rfl
          refine ⟨kept.trans kept', ?_⟩
          rintro entries ⟨⟩
          refine ⟨l', ⟨rfl, fun e mem => Nat.lt_succ_of_le (added.bounded e mem)⟩, ?_⟩
          intro id
          rw [same id, merge_eq_grown]
        | false =>
          refine ⟨(kept.trans kept').trans (rollbackContexts_keeps array ?_), by rintro entries ⟨⟩⟩
          rw [reduceOption_filled]
          exact added.fresh

/-- Everything `mtlk_wss_create` can do. -/
theorem create_cases (grant : ℕ → Bool) {m : Mem} {parent : Option ℕ} {l : List Entry}
    (ids : List ℕ) (h : Holds m.next ((parent.bind m.node).bind Node.entries) l) :
    let r := m.create grant parent ids
    (r.2 = none ∧ Keeps m.next m r.1) ∨
    (r.2 = some m.next ∧ m.next < r.1.next ∧ ∃ entries l',
      r.1.node = Function.update m.node m.next (some ⟨parent, entries, ids.map (⟨·, 0⟩)⟩) ∧
      Holds (m.next + 1) entries l' ∧
      ∀ id, lookup l' id = merge (lookup l id) (own m.next ids.zipIdx id)) := by
  have kept := Mem.alloc_keeps grant (Nat.le_refl m.next)
  simp only [Mem.create]
  cases got : m.alloc grant with
  | mk m' a =>
    rw [got] at kept
    cases a with
    | none => exact .inl ⟨rfl, kept⟩
    | some a =>
      obtain ⟨rfl, next⟩ : a = m.next ∧ (m.alloc grant).1.next = m.next + 1 :=
        Mem.alloc_some (by rw [got])
      rw [got] at next
      have same : m'.node = m.node := kept.node
      by_cases none : ids = []
      · subst none
        right
        simp only [↓reduceIte, same]
        refine ⟨trivial, next ▸ Nat.lt_succ_self _, _, l, rfl,
          ⟨h.cells, fun e mem => Nat.lt_succ_of_lt (h.below e mem)⟩, ?_⟩
        intro id
        cases lookup l id with
        | none => rfl
        | some up => exact (congrArg some (List.append_nil up)).symm
      · simp only [if_neg none]
        have adopted := adoptContexts_spec grant ids h kept.next
        revert adopted
        cases adoptContexts grant m' m.next ((parent.bind m.node).bind Node.entries) ids with
        | mk m'' entries =>
          rintro ⟨kept', made⟩
          cases entries with
          | none => exact .inl ⟨rfl, (kept.trans kept').trans (Mem.free_keeps _ (Nat.le_refl _))⟩
          | some entries =>
            obtain ⟨l', holds, found⟩ := made entries rfl
            right
            have same' : m''.node = m.node := kept'.node.trans same
            have later : m.next < m''.next :=
              Nat.lt_of_lt_of_le (next ▸ Nat.lt_succ_self _) kept'.next
            refine ⟨rfl, later, some entries, l', ?_, holds, found⟩
            simp only [same']

end Wave300.Wss
