import Wave300.L2nat.Table
import Wave300.Lib.Buckets

/-!
# What the table keeps

The entries are partitioned into the two lists, the active ones have distinct addresses, and each
bucket holds exactly the active entries whose addresses are hashed to it, so that an entry that is
free is in no bucket and finds room in any.
-/

namespace Wave300.L2nat

open Wave300.Lib

/-! ## The loop over a bucket -/

/-- The slots that were cleared, and the one that is free since. -/
structure Scanned (delInd : Index) (bucket : Bucket) (r : Scan) : Prop where
  slots : ∀ i, r.bucket i = bucket i ∨ bucket i = some delInd ∧ r.bucket i = none
  freed : ∀ i, r.justFreed = some i → r.bucket i = none

variable {delInd : Index} {bucket : Bucket}

theorem Scanned.slot {r : Scan} (h : Scanned delInd bucket r) (i : Slot) :
    Scanned delInd bucket (scanSlot delInd r i) := by
  rw [scanSlot]
  split
  case isTrue here =>
    have was : bucket i = some delInd := by
      rcases h.slots i with same | ⟨-, none⟩
      · rw [← same, here]
      · rw [none] at here
        cases here
    constructor
    case slots =>
      intro j
      by_cases same : j = i
      · subst same
        exact .inr ⟨was, Function.update_self ..⟩
      · simp only [Function.update_of_ne same]
        exact h.slots j
    case freed =>
      intro j freed
      by_cases same : j = i
      · subst same
        exact Function.update_self ..
      · simp only [Function.update_of_ne same]
        apply h.freed j
        cases before : r.justFreed with
        | none =>
          rw [before] at freed
          exact absurd (Option.some.inj freed).symm same
        | some first =>
          rw [before] at freed
          exact freed
  case isFalse =>
    split
    · exact { h with }
    · exact h

theorem scanSlot_clears (r : Scan) (i : Slot) : (scanSlot delInd r i).bucket i ≠ some delInd := by
  rw [scanSlot]
  split
  case isTrue =>
    simp only [Function.update_self]
    exact nofun
  case isFalse other =>
    split <;> exact other

theorem scanSlot_keeps {r : Scan} {i j : Slot} (clear : r.bucket j ≠ some delInd) :
    (scanSlot delInd r i).bucket j ≠ some delInd := by
  rw [scanSlot]
  split
  · by_cases same : j = i
    · subst same
      simp only [Function.update_self]
      exact nofun
    · simp only [Function.update_of_ne same]
      exact clear
  · split <;> exact clear

theorem foldl_scanned (l : List Slot) {r : Scan} (h : Scanned delInd bucket r) :
    Scanned delInd bucket (l.foldl (scanSlot delInd) r) := by
  induction l generalizing r with
  | nil => exact h
  | cons i l ih => exact ih (h.slot i)

theorem foldl_clears (l : List Slot) (r : Scan) {j : Slot}
    (done : j ∈ l ∨ r.bucket j ≠ some delInd) :
    (l.foldl (scanSlot delInd) r).bucket j ≠ some delInd := by
  induction l generalizing r with
  | nil => exact done.resolve_left List.not_mem_nil
  | cons i l ih =>
    apply ih
    rcases done with mem | clear
    · rcases List.mem_cons.1 mem with rfl | mem
      · exact .inr (scanSlot_clears r j)
      · exact .inl mem
    · exact .inr (scanSlot_keeps clear)

theorem Scanned.compact_holds {r : Scan} (scanned : Scanned delInd bucket r)
    (clears : ∀ i, r.bucket i ≠ some delInd) {members : Index → Prop} (h : Holds bucket members) :
    Holds r.compact (fun i => members i ∧ i ≠ delInd) := by
  have cleared : Holds r.bucket (fun i => members i ∧ i ≠ delInd) := by
    apply h.clear
    intro i
    rcases scanned.slots i with same | ⟨was, none⟩
    · rw [← same, if_neg (clears i)]
    · rw [if_pos was, none]
  rw [Scan.compact]
  split
  case h_1 last freed _ isFreed =>
    split
    · exact cleared.move (scanned.freed freed isFreed) last
    · exact cleared
  case h_2 => exact cleared

/-- The bucket holds its members but the one that is deleted. -/
theorem clearSlots_holds {members : Index → Prop} (h : Holds bucket members) :
    Holds (clearSlots delInd bucket) (fun i => members i ∧ i ≠ delInd) := by
  have scanned : Scanned delInd bucket (scanSlots delInd bucket) :=
    foldl_scanned _ ⟨fun _ => .inl rfl, nofun⟩
  have clears (j : Slot) : (scanSlots delInd bucket).bucket j ≠ some delInd :=
    foldl_clears _ _ (.inl (List.mem_finRange j))
  exact scanned.compact_holds clears h

/-! ## The table -/

namespace Table

variable {k : Kernel} {s t : Table}

structure Sound (k : Kernel) (s : Table) : Prop where
  partition : (s.freeEntries ++ s.activeEntries).Perm (List.finRange numEntries)
  active : ∀ i, (s.entries i).active = true ↔ i ∈ s.activeEntries
  nonzero : ∀ i, (s.entries i).active = true → (s.entries i).ip ≠ 0
  distinct : ∀ i j, (s.entries i).active = true → (s.entries j).active = true →
    (s.entries i).ip = (s.entries j).ip → i = j
  slots : ∀ b, Holds (s.hash b)
    (fun i => (s.entries i).active = true ∧ k.bucketOf (s.entries i).ip = b)

theorem init_sound (k : Kernel) (agingTimeout now : UInt32) : (init agingTimeout now).Sound k where
  partition := by simp [init]
  active := by simp [init]
  nonzero := nofun
  distinct := nofun
  slots b := holds_empty.congr fun i => by simp [init]

theorem Sound.mem_free (h : s.Sound k) (i : Index) :
    i ∈ s.freeEntries ↔ (s.entries i).active = false := by
  have all : i ∈ s.freeEntries ++ s.activeEntries := h.partition.mem_iff.2 (List.mem_finRange i)
  have nodup := h.partition.nodup_iff.2 (List.nodup_finRange numEntries)
  have apart := (List.nodup_append.1 nodup).2.2
  rw [← Bool.not_eq_true, h.active]
  constructor
  · intro free active
    exact apart i free i active rfl
  · exact (List.mem_append.1 all).resolve_right

/-- What does not matter here changes. -/
theorem Sound.congr (h : s.Sound k) (active : ∀ i, (t.entries i).active = (s.entries i).active)
    (ip : ∀ i, (t.entries i).ip = (s.entries i).ip) (free : t.freeEntries = s.freeEntries)
    (list : t.activeEntries = s.activeEntries) (hash : t.hash = s.hash) : t.Sound k where
  partition := by
    rw [free, list]
    exact h.partition
  active i := by
    rw [active, list]
    exact h.active i
  nonzero i := by
    rw [active, ip]
    exact h.nonzero i
  distinct i j := by
    rw [active, active, ip, ip]
    exact h.distinct i j
  slots b := by
    rw [hash]
    apply (h.slots b).congr
    intro i
    rw [active, ip]

theorem set_self (s : Table) (i : Index) (ent : HashEntry) : (s.set i ent).entries i = ent :=
  Function.update_self ..

theorem set_of_ne (s : Table) {i j : Index} (ne : j ≠ i) (ent : HashEntry) :
    (s.set i ent).entries j = s.entries j := Function.update_of_ne ne ..

theorem Sound.set (h : s.Sound k) {i : Index} {ent : HashEntry}
    (active : ent.active = (s.entries i).active) (ip : ent.ip = (s.entries i).ip) :
    (s.set i ent).Sound k := by
  have same : ∀ j, ((s.set i ent).entries j).active = (s.entries j).active ∧
      ((s.set i ent).entries j).ip = (s.entries j).ip := by
    intro j
    by_cases here : j = i
    · subst here
      rw [set_self]
      exact ⟨active, ip⟩
    · rw [set_of_ne s here]
      exact ⟨rfl, rfl⟩
  exact h.congr (fun j => (same j).1) (fun j => (same j).2) rfl rfl rfl

/-- The entry is active no more, and the others are left alone. -/
theorem deleteEntry_entries (s : Table) (d : Index) : ∃ ent,
    (s.deleteEntry k d).entries = Function.update s.entries d ent ∧
      ent.ip = (s.entries d).ip ∧ ent.active = false := by
  rw [deleteEntry]
  split
  case isTrue idle => exact ⟨_, rfl, rfl, idle⟩
  case isFalse => exact ⟨_, rfl, rfl, rfl⟩

theorem deleteEntry_active (s : Table) (d i : Index) :
    ((s.deleteEntry k d).entries i).active = true ↔ (s.entries i).active = true ∧ i ≠ d := by
  obtain ⟨ent, entries, -, idle⟩ := deleteEntry_entries (k := k) s d
  rw [entries]
  by_cases same : i = d
  · subst same
    rw [Function.update_self, idle]
    simp
  · rw [Function.update_of_ne same]
    simp [same]

theorem deleteEntry_ip (s : Table) (d i : Index) :
    ((s.deleteEntry k d).entries i).ip = (s.entries i).ip := by
  obtain ⟨ent, entries, ip, -⟩ := deleteEntry_entries (k := k) s d
  rw [entries]
  by_cases same : i = d
  · subst same
    rw [Function.update_self, ip]
  · rw [Function.update_of_ne same]

theorem Sound.deleteEntry (h : s.Sound k) (d : Index) : (s.deleteEntry k d).Sound k := by
  cases active : (s.entries d).active with
  | false =>
    rw [Table.deleteEntry, if_pos active]
    exact h.set rfl rfl
  | true =>
    have mem : d ∈ s.activeEntries := (h.active d).1 active
    have nodup := h.partition.nodup_iff.2 (List.nodup_finRange numEntries)
    have eq : s.deleteEntry k d = _ := if_neg (by simp [active])
    constructor
    case partition =>
      rw [eq]
      have perm := (List.perm_cons_erase mem).append_left s.freeEntries
      exact (List.perm_middle.symm.trans perm.symm).trans h.partition
    case active =>
      intro i
      rw [deleteEntry_active, h.active, eq]
      rw [(List.nodup_append.1 nodup).2.1.mem_erase_iff]
      exact And.comm
    case nonzero =>
      intro i
      rw [deleteEntry_active, deleteEntry_ip]
      exact fun still => h.nonzero i still.1
    case distinct =>
      intro i j
      rw [deleteEntry_active, deleteEntry_active, deleteEntry_ip, deleteEntry_ip]
      exact fun first second => h.distinct i j first.1 second.1
    case slots =>
      intro b
      by_cases here : b = k.bucketOf (s.entries d).ip
      · subst here
        have hash : (s.deleteEntry k d).hash (k.bucketOf (s.entries d).ip) =
            clearSlots d (s.hash (k.bucketOf (s.entries d).ip)) := by
          rw [eq]
          exact Function.update_self ..
        rw [hash]
        apply (clearSlots_holds (h.slots _)).congr
        intro i
        rw [deleteEntry_active, deleteEntry_ip]
        exact and_right_comm
      · have hash : (s.deleteEntry k d).hash b = s.hash b := by
          rw [eq]
          exact Function.update_of_ne here ..
        rw [hash]
        apply (h.slots b).congr
        intro i
        rw [deleteEntry_active, deleteEntry_ip]
        constructor
        · rintro ⟨still, rfl⟩
          refine ⟨⟨still, ?_⟩, rfl⟩
          rintro rfl
          exact here rfl
        · exact fun still => ⟨still.1.1, still.2⟩

/-- `find_entry` finds the active entry of an address. -/
theorem Sound.findEntry_eq (h : s.Sound k) (ip : UInt32) (i : Index) :
    s.findEntry k ip = some i ↔ (s.entries i).active = true ∧ (s.entries i).ip = ip := by
  have sound : ∀ j, s.findEntry k ip = some j →
      (s.entries j).active = true ∧ (s.entries j).ip = ip := by
    intro j found
    obtain ⟨slot, -, at'⟩ := List.exists_of_findSome?_eq_some found
    exact of_decide_eq_true (Option.filter_eq_some_iff.1 at').2
  constructor
  · exact sound i
  · rintro ⟨active, rfl⟩
    obtain ⟨slot, at'⟩ := (h.slots _).complete i ⟨active, rfl⟩
    have some : (s.findEntry k (s.entries i).ip).isSome := by
      rw [findEntry, List.findSome?_isSome_iff]
      refine ⟨slot, List.mem_finRange slot, ?_⟩
      rw [at', Option.filter_some_pos (by simp [active])]
      rfl
    obtain ⟨j, found⟩ := Option.isSome_iff_exists.1 some
    obtain ⟨active', same⟩ := sound j found
    rw [found, h.distinct j i active' active same]

theorem Sound.findEntry_none (h : s.Sound k) {ip : UInt32} (none : s.findEntry k ip = none)
    {i : Index} (active : (s.entries i).active = true) : (s.entries i).ip ≠ ip := by
  intro same
  rw [(h.findEntry_eq ip i).2 ⟨active, same⟩] at none
  cases none

/-! ## Adding an entry -/

/-- Every bucket has room for a free entry. -/
theorem Sound.exists_slot (h : s.Sound k) {i : Index} (free : i ∈ s.freeEntries)
    (b : Fin bucketsNum) :
    ∃ slot, (List.finRange bucketSize).find? (s.hash b · = none) = some slot ∧
      s.hash b slot = none := by
  obtain ⟨slot, empty⟩ := (h.slots b).exists_empty (Nat.le_refl _) (x := i) (by
    rw [(h.mem_free i).1 free]
    exact fun mem => Bool.false_ne_true mem.1)
  have some : ((List.finRange bucketSize).find? (s.hash b · = none)).isSome := by
    rw [List.find?_isSome]
    exact ⟨slot, List.mem_finRange slot, decide_eq_true empty⟩
  obtain ⟨first, found⟩ := Option.isSome_iff_exists.1 some
  have none := List.find?_some found
  exact ⟨first, found, of_decide_eq_true none⟩

/-- The first free entry is made that of a new address. -/
theorem Sound.fill (h : s.Sound k) {i : Index} {free : List Index}
    (head : s.freeEntries = i :: free) {ent : HashEntry} (active : ent.active = true)
    (nonzero : ent.ip ≠ 0)
    (new : ∀ j, (s.entries j).active = true → (s.entries j).ip ≠ ent.ip) {slot : Slot}
    (empty : s.hash (k.bucketOf ent.ip) slot = none)
    (entries : t.entries = Function.update s.entries i ent) (freeEntries : t.freeEntries = free)
    (activeEntries : t.activeEntries = s.activeEntries ++ [i])
    (hash : t.hash = Function.update s.hash (k.bucketOf ent.ip)
      (Function.update (s.hash (k.bucketOf ent.ip)) slot (some i))) : t.Sound k := by
  have idle : (s.entries i).active = false := by
    apply (h.mem_free i).1
    rw [head]
    exact List.mem_cons_self
  have here : t.entries i = ent := by rw [entries, Function.update_self]
  have there : ∀ j, j ≠ i → t.entries j = s.entries j := by
    intro j ne
    rw [entries, Function.update_of_ne ne]
  have isActive : ∀ j, (t.entries j).active = true ↔ j = i ∨ (s.entries j).active = true := by
    intro j
    by_cases same : j = i
    · rw [same, here, active, idle]
      simp
    · rw [there j same]
      simp [same]
  constructor
  case partition =>
    have partition := h.partition
    rw [head] at partition
    refine List.Perm.trans ?_ partition
    rw [freeEntries, activeEntries, ← List.append_assoc]
    exact List.perm_append_singleton ..
  case active =>
    intro j
    rw [isActive, activeEntries, List.mem_append, List.mem_singleton, h.active, or_comm]
  case nonzero =>
    intro j isActive'
    by_cases same : j = i
    · rw [same, here]
      exact nonzero
    · rw [there j same] at isActive' ⊢
      exact h.nonzero j isActive'
  case distinct =>
    intro j j' first second
    by_cases same : j = i
    · by_cases same' : j' = i
      · exact fun _ => same.trans same'.symm
      · rw [there j' same'] at second
        rw [same, here, there j' same']
        exact fun eq => absurd eq.symm (new j' second)
    · rw [there j same] at first
      by_cases same' : j' = i
      · rw [same', here, there j same]
        exact fun eq => absurd eq (new j first)
      · rw [there j' same'] at second
        rw [there j same, there j' same']
        exact h.distinct j j' first second
  case slots =>
    intro b
    by_cases eq : b = k.bucketOf ent.ip
    · have added := (h.slots b).insert (i := slot) (x := i) (by rw [eq, empty]) (by
        rw [idle]
        exact fun mem => Bool.false_ne_true mem.1)
      rw [hash, eq, Function.update_self, ← eq]
      apply added.congr
      intro j
      by_cases same : j = i
      · rw [same, here, active]
        simp [eq]
      · rw [there j same]
        simp [same]
    · rw [hash, Function.update_of_ne eq]
      apply (h.slots b).congr
      intro j
      by_cases same : j = i
      · rw [same, here, idle]
        simp [Ne.symm eq]
      · rw [there j same]

/-- `check_and_add_entry` adds an address that is not in the table, given a free entry. -/
theorem Sound.addEntry (h : s.Sound k) {i : Index} {free : List Index}
    (head : s.freeEntries = i :: free) {ip : UInt32} (nonzero : ip ≠ 0)
    (new : ∀ j, (s.entries j).active = true → (s.entries j).ip ≠ ip) (mac : Mac)
    (first last : UInt32) :
    (s.addEntry k ip mac first last).2 = .added ∧ (s.addEntry k ip mac first last).1.Sound k ∧
      ∃ ent, (s.addEntry k ip mac first last).1.entries = Function.update s.entries i ent ∧
        ent.ip = ip ∧ ent.active = true ∧ ent.mac = mac := by
  obtain ⟨slot, found, empty⟩ := h.exists_slot (i := i) (by rw [head]; exact List.mem_cons_self)
    (k.bucketOf ip)
  rw [Table.addEntry, head]
  simp only [found, true_and]
  constructor
  · apply Sound.set
    · exact h.fill head rfl nonzero new empty rfl rfl rfl rfl
    · rfl
    · rfl
  · simp only [updateEntry, Table.set, Function.update_self, Function.update_idem]
    exact ⟨_, rfl, rfl, rfl, rfl⟩

end Table

end Wave300.L2nat
