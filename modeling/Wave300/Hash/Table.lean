import Wave300.Lib.Circular
import Wave300.Lib.Trace

/-!
# The hash

`mtlkhash.h`: a hash has an array of lists, and the entries carry the links by which they are on
one of them. The key and the index of the list are kept in the entry as well. The memory of the
links, the keys and the indices is that of the heads and of every entry there is, on a list or not.
-/

namespace Wave300.Hash

open Lib

/-- What a hash is defined with for a type of keys: `hash_f`, and that its index is one of the
lists. -/
structure KeyType (κ : Type*) where
  hash : κ → Nat → Nat
  lt : ∀ k nofBuckets, 0 < nofBuckets → hash k nofBuckets < nofBuckets

/-- `_mtlk_hash_ieee_addr_hashval` -/
def ieeeAddr : KeyType (Fin 6 → UInt8) where
  hash key nofBuckets := (key (Fin.last 5)).toNat &&& (nofBuckets - 1)
  lt key nofBuckets pos := by
    have := Nat.and_le_right (n := (key (Fin.last 5)).toNat) (m := nofBuckets - 1)
    omega

/-- What a link leads to. -/
inductive Node (ε : Type*) where
  | head (idx : Nat)
  | entry (e : ε)
  | poison
  deriving DecidableEq

/-- `MTLK_CONTAINER_OF` -/
def Node.containerOf {ε : Type*} : Node ε → Option ε
  | .entry e => some e
  | _ => none

structure Table (κ ε : Type*) where
  nofBuckets : Nat
  links : Links (Node ε)
  depth : Nat → Nat
  key : ε → κ
  hashIdx : ε → Nat

section Calls
variable {κ ε : Type*} [DecidableEq ε]

/-- `mtlk_dlist_init` of the first lists -/
def initLists (links : Links (Node ε)) : Nat → Links (Node ε)
  | 0 => links
  | n + 1 => (initLists links n).initListHead (.head n)

namespace Table

/-- `mtlk_hash_init`, in whatever the memory held before. -/
def init (t : Table κ ε) (nofBuckets : Nat) : Table κ ε :=
  { t with
    nofBuckets
    links := initLists t.links nofBuckets
    depth := fun i => if i < nofBuckets then 0 else t.depth i }

/-- `__mtlk_hash_insert` -/
def link (K : KeyType κ) (t : Table κ ε) (k : κ) (e : ε) : Table κ ε :=
  let idx := K.hash k t.nofBuckets
  { t with
    key := Function.update t.key e k
    hashIdx := Function.update t.hashIdx e idx
    links := t.links.listAddTail (.entry e) (.head idx)
    depth := Function.update t.depth idx (t.depth idx + 1) }

/-- `mtlk_hash_remove` -/
def remove (t : Table κ ε) (e : ε) : Table κ ε :=
  let idx := t.hashIdx e
  { t with
    links := t.links.listDel .poison (.entry e)
    depth := Function.update t.depth idx (t.depth idx - 1) }

variable [DecidableEq κ]

/-- The loop of `mtlk_hash_find` over a list, in a number of rounds; none when they are used up. -/
def findLoop (t : Table κ ε) (k : κ) (head : Node ε) : Nat → Node ε → Option (Option ε)
  | 0, _ => none
  | rounds + 1, curr =>
    if curr = head then some none
    else curr.containerOf.bind fun e =>
      if k = t.key e then some (some e) else t.findLoop k head rounds (t.links.next curr)

/-- `mtlk_hash_find`; the loop is given one round more than the list has members. -/
def find (K : KeyType κ) (t : Table κ ε) (k : κ) : Option (Option ε) :=
  let idx := K.hash k t.nofBuckets
  t.findLoop k (.head idx) (t.depth idx + 1) (t.links.next (.head idx))

/-- `mtlk_hash_insert` -/
def insert (K : KeyType κ) (t : Table κ ε) (k : κ) (e : ε) : Option (Table κ ε × Option ε) :=
  (t.find K k).map fun prev =>
    match prev with
    | none => (t.link K k e, none)
    | some p => (t, some p)

/-- `mtlk_hash_insert_replace` -/
def insertReplace (K : KeyType κ) (t : Table κ ε) (k : κ) (e : ε) :
    Option (Table κ ε × Option ε) :=
  (t.find K k).map fun prev =>
    match prev with
    | none => (t.link K k e, none)
    | some p => ((t.remove p).link K k e, some p)

end Table

end Calls

variable {κ ε : Type*}

/-- The members of the lists, and what a map from keys to entries has for each key. -/
structure Represents (K : KeyType κ) (t : Table κ ε) (lists : Nat → List ε) (m : κ → Option ε) :
    Prop where
  ring : ∀ i < t.nofBuckets, t.links.Ring (.head i) ((lists i).map .entry)
  depth : ∀ i < t.nofBuckets, t.depth i = (lists i).length
  home : ∀ i < t.nofBuckets, ∀ e ∈ lists i, t.hashIdx e = i ∧ K.hash (t.key e) t.nofBuckets = i
  maps : ∀ k e, m k = some e ↔ e ∈ lists (K.hash k t.nofBuckets) ∧ t.key e = k

variable {K : KeyType κ} {t : Table κ ε} {lists : Nat → List ε} {m : κ → Option ε} {k : κ} {e : ε}
  {i j n : Nat}

namespace Represents

/-- An entry is on a list exactly when it is mapped from its key. -/
theorem mem_iff (h : Represents K t lists m) (lt : i < t.nofBuckets) :
    e ∈ lists i ↔ m (t.key e) = some e ∧ t.hashIdx e = i := by
  constructor
  · intro mem
    obtain ⟨idx, hash⟩ := h.home i lt e mem
    exact ⟨(h.maps _ e).2 ⟨hash.symm ▸ mem, rfl⟩, idx⟩
  · rintro ⟨mapped, idx⟩
    have mem := ((h.maps _ e).1 mapped).1
    have pos := K.lt (t.key e) _ (Nat.zero_lt_of_lt lt)
    rw [(h.home _ pos e mem).1] at idx
    exact idx ▸ mem

/-- What happens to one list leaves the others as they are. -/
theorem other_ring {links : Links (Node ε)} (h : Represents K t lists m) (lt : j < t.nofBuckets)
    (same : ∀ x ∈ Node.head j :: (lists j).map Node.entry,
      links.next x = t.links.next x ∧ links.prev x = t.links.prev x) :
    links.Ring (.head j) ((lists j).map .entry) :=
  (h.ring j lt).frame (fun x mem => (same x mem).1) fun x mem => (same x mem).2

/-- No node is on two lists. -/
theorem disjoint (h : Represents K t lists m) (hi : i < t.nofBuckets) (hj : j < t.nofBuckets)
    (ne : j ≠ i) {x : Node ε} (mem : x ∈ Node.head j :: (lists j).map Node.entry) :
    x ∉ Node.head i :: (lists i).map Node.entry := by
  simp only [List.mem_cons, List.mem_map] at mem ⊢
  rcases mem with rfl | ⟨e, mem, rfl⟩
  · rintro (⟨⟨⟩⟩ | ⟨_, _, ⟨⟩⟩)
    exact ne rfl
  · rintro (⟨⟨⟩⟩ | ⟨_, mem', ⟨⟩⟩)
    exact ne ((h.home j hj e mem).1.symm.trans (h.home i hi e mem').1)

end Represents

variable [DecidableEq ε]

theorem ring_initLists (links : Links (Node ε)) (lt : i < n) :
    (initLists links n).Ring (.head i) [] := by
  induction n with
  | zero => exact absurd lt (Nat.not_lt_zero i)
  | succ n ih =>
    by_cases last : i = n
    · subst last
      exact Links.ring_initListHead ..
    · have other : Node.head (ε := ε) i ≠ .head n := by
        rintro ⟨⟩
        exact last rfl
      apply (ih (by omega)).frame
      · intro x mem
        rw [List.mem_singleton.1 mem]
        exact (Links.initListHead_frame other).1
      · intro x mem
        rw [List.mem_singleton.1 mem]
        exact (Links.initListHead_frame other).2

theorem represents_init (K : KeyType κ) (t : Table κ ε) (n : Nat) :
    Represents K (t.init n) (fun _ => []) fun _ => none where
  ring _ lt := ring_initLists t.links lt
  depth _ lt := if_pos lt
  home _ _ _ mem := absurd mem List.not_mem_nil
  maps _ _ := ⟨nofun, fun has => absurd has.1 List.not_mem_nil⟩

variable [DecidableEq κ]

namespace Represents

/-- The new entry is mapped from its key. -/
theorem link_maps (h : Represents K t lists m) (absent : m k = none) (free : ∀ k, m k ≠ some e)
    (k' : κ) (x : ε) : Function.update m k (some e) k' = some x ↔
      x ∈ Function.update lists (K.hash k t.nofBuckets) (lists (K.hash k t.nofBuckets) ++ [e])
        (K.hash k' t.nofBuckets) ∧ (t.link K k e).key x = k' := by
  by_cases same : x = e
  · subst same
    have is : (t.link K k x).key x = k := Function.update_self ..
    rw [is]
    constructor
    · intro mapped
      by_cases eq : k' = k
      · subst eq
        refine ⟨?_, rfl⟩
        rw [Function.update_self]
        exact List.mem_append_right _ List.mem_cons_self
      · rw [Function.update_of_ne eq] at mapped
        exact absurd mapped (free k')
    · rintro ⟨-, rfl⟩
      exact Function.update_self ..
  · have is : (t.link K k e).key x = t.key x := Function.update_of_ne same ..
    have mem : x ∈ Function.update lists (K.hash k t.nofBuckets)
        (lists (K.hash k t.nofBuckets) ++ [e]) (K.hash k' t.nofBuckets) ↔
        x ∈ lists (K.hash k' t.nofBuckets) := by
      by_cases here : K.hash k' t.nofBuckets = K.hash k t.nofBuckets
      · rw [here, Function.update_self, List.mem_append, List.mem_singleton]
        simp only [same, or_false]
      · rw [Function.update_of_ne here]
    have mapped : Function.update m k (some e) k' = some x ↔ m k' = some x := by
      by_cases eq : k' = k
      · subst eq
        rw [Function.update_self, absent, Option.some.injEq]
        exact iff_of_false (Ne.symm same) nofun
      · rw [Function.update_of_ne eq]
    rw [mapped, h.maps k' x, is]
    exact and_congr_left' mem.symm

theorem link_spec (h : Represents K t lists m) (pos : 0 < t.nofBuckets) (absent : m k = none)
    (free : ∀ k, m k ≠ some e) :
    Represents K (t.link K k e)
      (Function.update lists (K.hash k t.nofBuckets) (lists (K.hash k t.nofBuckets) ++ [e]))
      (Function.update m k (some e)) := by
  have lt := K.lt k _ pos
  have out : ∀ i < t.nofBuckets, e ∉ lists i := by
    intro i lt mem
    exact free _ ((h.mem_iff lt).1 mem).1
  have new : Node.entry e ∉
      Node.head (K.hash k t.nofBuckets) :: (lists (K.hash k t.nofBuckets)).map .entry := by
    simpa using out _ lt
  have key : ∀ i < t.nofBuckets, ∀ x ∈ lists i, (t.link K k e).key x = t.key x ∧
      (t.link K k e).hashIdx x = t.hashIdx x := by
    intro i lt x mem
    have ne : x ≠ e := by
      rintro rfl
      exact out i lt mem
    exact ⟨Function.update_of_ne ne .., Function.update_of_ne ne ..⟩
  constructor
  case ring =>
    intro i hi
    by_cases here : i = K.hash k t.nofBuckets
    · subst here
      rw [Function.update_self, List.map_append]
      exact (h.ring _ lt).listAddTail new
    · rw [Function.update_of_ne here]
      apply h.other_ring hi
      intro x mem
      apply (h.ring _ lt).listAddTail_frame (h.disjoint lt hi here mem)
      rintro rfl
      exact out i hi (by simpa using mem)
  case depth =>
    intro i hi
    by_cases here : i = K.hash k t.nofBuckets
    · subst here
      rw [Function.update_self, List.length_append, ← h.depth _ lt]
      exact Function.update_self ..
    · rw [Function.update_of_ne here, ← h.depth i hi]
      exact Function.update_of_ne here ..
  case home =>
    intro i hi x mem
    by_cases here : i = K.hash k t.nofBuckets
    · subst here
      rw [Function.update_self, List.mem_append, List.mem_singleton] at mem
      rcases mem with mem | rfl
      · rw [(key _ lt x mem).1, (key _ lt x mem).2]
        exact h.home _ lt x mem
      · constructor
        · exact Function.update_self ..
        · exact congrArg (K.hash · t.nofBuckets) (Function.update_self ..)
    · rw [Function.update_of_ne here] at mem
      rw [(key i hi x mem).1, (key i hi x mem).2]
      exact h.home i hi x mem
  case maps => exact h.link_maps absent free

/-- Nothing is mapped from the key of the entry that was removed. -/
theorem remove_maps (h : Represents K t lists m) (pos : 0 < t.nofBuckets) (mapped : m k = some e)
    (k' : κ) (x : ε) : Function.update m k none k' = some x ↔
      x ∈ Function.update lists (t.hashIdx e) ((lists (t.hashIdx e)).erase e)
        (K.hash k' t.nofBuckets) ∧ t.key x = k' := by
  obtain ⟨mem, is⟩ := (h.maps k e).1 mapped
  have idx := (h.home _ (K.lt k _ pos) e mem).1
  have nodup : (lists (t.hashIdx e)).Nodup :=
    ((List.nodup_cons.1 (h.ring _ (idx ▸ K.lt k _ pos)).nodup).2).of_map
  have kept : x ∈ Function.update lists (t.hashIdx e) ((lists (t.hashIdx e)).erase e)
      (K.hash k' t.nofBuckets) ↔ x ∈ lists (K.hash k' t.nofBuckets) ∧ x ≠ e := by
    by_cases here : K.hash k' t.nofBuckets = t.hashIdx e
    · rw [here, Function.update_self, nodup.mem_erase_iff, and_comm]
    · rw [Function.update_of_ne here]
      refine (and_iff_left_of_imp ?_).symm
      rintro mem' rfl
      exact here (h.home _ (K.lt k' _ pos) x mem').1.symm
  rw [kept]
  by_cases eq : k' = k
  · subst eq
    rw [Function.update_self]
    refine iff_of_false nofun ?_
    rintro ⟨⟨mem, ne⟩, is'⟩
    have other := (h.maps k' x).2 ⟨mem, is'⟩
    rw [mapped] at other
    exact ne (Option.some.inj other).symm
  · rw [Function.update_of_ne eq, h.maps k' x, and_right_comm]
    refine (and_iff_left_of_imp ?_).symm
    rintro ⟨-, is'⟩ rfl
    exact eq (is'.symm.trans is)

theorem remove_spec (h : Represents K t lists m) (pos : 0 < t.nofBuckets) (mapped : m k = some e) :
    Represents K (t.remove e) (Function.update lists (t.hashIdx e) ((lists (t.hashIdx e)).erase e))
      (Function.update m k none) := by
  obtain ⟨mem, is⟩ := (h.maps k e).1 mapped
  have lt := K.lt k _ pos
  have idx := (h.home _ lt e mem).1
  have lt' : t.hashIdx e < t.nofBuckets := idx ▸ lt
  rw [← idx] at mem
  obtain ⟨before, behind, -, split, erased⟩ := List.exists_erase_eq mem
  have ring := h.ring _ lt'
  rw [split, List.map_append, List.map_cons] at ring
  have whole : Node.head (t.hashIdx e) ::
      (before.map Node.entry ++ Node.entry e :: behind.map Node.entry) =
        Node.head (t.hashIdx e) :: (lists (t.hashIdx e)).map Node.entry := by
    rw [split, List.map_append, List.map_cons]
  constructor
  case ring =>
    intro i hi
    by_cases here : i = t.hashIdx e
    · subst here
      rw [Function.update_self, erased, List.map_append]
      exact ring.listDel
    · rw [Function.update_of_ne here]
      apply h.other_ring hi
      intro x mem
      apply ring.listDel_frame
      rw [whole]
      exact h.disjoint lt' hi here mem
  case depth =>
    intro i hi
    by_cases here : i = t.hashIdx e
    · subst here
      rw [Function.update_self, List.length_erase_of_mem mem, ← h.depth _ lt']
      exact Function.update_self ..
    · rw [Function.update_of_ne here, ← h.depth i hi]
      exact Function.update_of_ne here ..
  case home =>
    intro i hi x mem
    by_cases here : i = t.hashIdx e
    · subst here
      rw [Function.update_self] at mem
      exact h.home _ lt' x (List.mem_of_mem_erase mem)
    · rw [Function.update_of_ne here] at mem
      exact h.home i hi x mem
  case maps => exact h.remove_maps pos mapped

end Represents

theorem findLoop_spec {head a : Node ε} {l : List ε} (path : t.links.Path a (l.map .entry) head)
    (nmem : head ∉ l.map .entry) {rounds : Nat} (enough : l.length < rounds) :
    t.findLoop k head rounds (t.links.next a) = some (l.find? fun e => k = t.key e) := by
  induction l generalizing a rounds with
  | nil =>
    obtain ⟨rounds, rfl⟩ := Nat.exists_eq_succ_of_ne_zero (Nat.ne_of_gt enough)
    rw [Table.findLoop, if_pos path.1, List.find?_nil]
  | cons e l ih =>
    obtain ⟨rounds, rfl⟩ := Nat.exists_eq_succ_of_ne_zero (Nat.ne_of_gt (Nat.zero_lt_of_lt enough))
    simp only [List.map_cons, List.mem_cons, not_or] at nmem
    rw [Table.findLoop, path.1, if_neg (Ne.symm nmem.1), Node.containerOf, Option.bind_some]
    by_cases same : k = t.key e
    · simp [same]
    · rw [if_neg same, List.find?_cons_of_neg (by simpa using same)]
      exact ih path.2.2 nmem.2 (Nat.lt_of_succ_lt_succ enough)

theorem Represents.find_spec (h : Represents K t lists m) (pos : 0 < t.nofBuckets) (k : κ) :
    t.find K k = some (m k) := by
  have lt := K.lt k _ pos
  have ring := h.ring _ lt
  have enough : (lists (K.hash k t.nofBuckets)).length < t.depth (K.hash k t.nofBuckets) + 1 := by
    rw [h.depth _ lt]
    omega
  unfold Table.find
  rw [findLoop_spec ring.path (List.nodup_cons.1 ring.nodup).1 enough]
  congr 1
  cases found : (lists (K.hash k t.nofBuckets)).find? fun e => k = t.key e with
  | some e =>
    have is : k = t.key e := by simpa using List.find?_some found
    exact ((h.maps k e).2 ⟨List.mem_of_find?_eq_some found, is.symm⟩).symm
  | none =>
    rw [List.find?_eq_none] at found
    symm
    rw [Option.eq_none_iff_forall_ne_some]
    intro e mapped
    obtain ⟨mem, is⟩ := (h.maps k e).1 mapped
    exact found e mem (by simpa using is.symm)

end Wave300.Hash
