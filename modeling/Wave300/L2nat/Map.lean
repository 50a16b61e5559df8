import Wave300.L2nat.Sound

/-!
# The table as a map

Adding an address leaves the other addresses alone, but for the one whose entry is evicted when all
entries are in use: that has not been used for the longest time.
-/

namespace Wave300.L2nat

open Wave300.Lib

namespace Table

variable {k : Kernel} {s t : Table}

/-! ## The least recently used entry -/

/-- The age that goes with the entry found so far. -/
def Aged (s : Table) (now : UInt32) (r : Option Index × UInt32) : Prop :=
  ∀ i, r.1 = some i → s.delta now i = r.2

theorem older_aged {now : UInt32} {r : Option Index × UInt32} (h : s.Aged now r) (i : Index) :
    s.Aged now (s.older now r i) ∧ r.2 ≤ (s.older now r i).2 ∧
      s.delta now i ≤ (s.older now r i).2 := by
  rw [older]
  split
  case isTrue gt =>
    refine ⟨?_, UInt32.le_of_lt gt, UInt32.le_refl _⟩
    rintro j ⟨rfl⟩
    rfl
  case isFalse le => exact ⟨h, UInt32.le_refl _, UInt32.not_lt.1 le⟩

theorem foldl_older (s : Table) (now : UInt32) (l : List Index) {r : Option Index × UInt32}
    (h : s.Aged now r) :
    s.Aged now (l.foldl (s.older now) r) ∧ r.2 ≤ (l.foldl (s.older now) r).2 ∧
      ∀ i ∈ l, s.delta now i ≤ (l.foldl (s.older now) r).2 := by
  induction l generalizing r with
  | nil => exact ⟨h, UInt32.le_refl _, nofun⟩
  | cons i l ih =>
    obtain ⟨aged, more, here⟩ := older_aged h i
    obtain ⟨aged', more', all⟩ := ih aged
    refine ⟨aged', UInt32.le_trans more more', fun j mem => ?_⟩
    rcases List.mem_cons.1 mem with rfl | mem
    · exact UInt32.le_trans here more'
    · exact all j mem

theorem findOldest_max {now : UInt32} {x : Index} (oldest : s.findOldest now = some x)
    (i : Index) : s.delta now i ≤ s.delta now x := by
  obtain ⟨aged, -, all⟩ := foldl_older s now (List.finRange numEntries) (r := (none, 0)) nofun
  rw [aged x oldest]
  exact all i (List.mem_finRange i)

/-- As long as no entry is found the age is zero. -/
theorem foldl_older_none (s : Table) (now : UInt32) (l : List Index)
    {r : Option Index × UInt32} (h : r.1 = none ↔ r.2 = 0) :
    (l.foldl (s.older now) r).1 = none ↔ (l.foldl (s.older now) r).2 = 0 := by
  induction l generalizing r with
  | nil => exact h
  | cons i l ih =>
    refine ih ?_
    rw [older]
    split
    case isTrue gt =>
      have positive : s.delta now i ≠ 0 := fun zero => UInt32.not_lt_zero (zero ▸ gt)
      exact iff_of_false nofun positive
    case isFalse => exact h

theorem findOldest_ne_none {now : UInt32} :
    s.findOldest now ≠ none ↔ ∃ i, 0 < s.delta now i := by
  have idle_iff := foldl_older_none s now (List.finRange numEntries) (r := (none, 0)) (by simp)
  obtain ⟨aged, -, all⟩ := foldl_older s now (List.finRange numEntries) (r := (none, 0)) nofun
  constructor
  · intro some
    obtain ⟨i, some'⟩ := Option.ne_none_iff_exists'.1 some
    refine ⟨i, UInt32.pos_iff_ne_zero.2 fun zero => some (idle_iff.2 ?_)⟩
    rw [← aged i some', zero]
  · rintro ⟨i, positive⟩ idle
    have le := all i (List.mem_finRange i)
    rw [idle_iff.1 idle] at le
    exact UInt32.not_le.2 positive le

/-! ## What `check_and_add_entry` does to the map -/

/-- The outcome for an address, and for the other addresses. -/
structure Adds (k : Kernel) (s : Table) (ip : UInt32) (mac : Mac) (now : UInt32)
    (r : Table × Outcome) : Prop where
  sound : r.1.Sound k
  room : r.2 ≠ .bucketFull ∧ r.2 ≠ .noFree
  here : r.2 = .added ∨ r.2 = .updated → ∃ i, r.1.findEntry k ip = some i ∧
    (r.1.entries i).mac = mac
  there : ∀ other, other ≠ ip → r.1.findEntry k other = s.findEntry k other ∨
    s.freeEntries = [] ∧ ∃ x, s.findEntry k other = some x ∧ r.1.findEntry k other = none ∧
      r.1.findEntry k ip = some x ∧ ∀ i, s.delta now i ≤ s.delta now x

theorem Sound.find_congr (h : s.Sound k) (h' : t.Sound k) {ip : UInt32}
    (same : ∀ i, (t.entries i).active = true ∧ (t.entries i).ip = ip ↔
      (s.entries i).active = true ∧ (s.entries i).ip = ip) :
    t.findEntry k ip = s.findEntry k ip := by
  apply Option.ext
  intro i
  rw [h.findEntry_eq, h'.findEntry_eq, same]

theorem Sound.adds_nothing (h : s.Sound k) (ip : UInt32) (mac : Mac) (now : UInt32)
    {outcome : Outcome} (nothing : outcome = .zeroIp ∨ outcome = .noLru) :
    Adds k s ip mac now (s, outcome) where
  sound := h
  room := by rcases nothing with rfl | rfl <;> exact ⟨nofun, nofun⟩
  here := by rcases nothing with rfl | rfl <;> exact nofun
  there := fun _ _ => .inl rfl

theorem Sound.updates (h : s.Sound k) {ip : UInt32} {i : Index} (found : s.findEntry k ip = some i)
    (mac : Mac) (now last : UInt32) : Adds k s ip mac now (s.updateEntry i mac last, .updated) := by
  have sound : (s.updateEntry i mac last).Sound k := h.set rfl rfl
  have find : ∀ other, (s.updateEntry i mac last).findEntry k other = s.findEntry k other := by
    intro other
    apply h.find_congr sound
    intro j
    by_cases same : j = i
    · subst same
      rw [updateEntry, set_self]
    · rw [updateEntry, set_of_ne s same]
  constructor
  case sound => exact sound
  case room => exact ⟨by rintro ⟨⟩, by rintro ⟨⟩⟩
  case here =>
    refine fun _ => ⟨i, (find ip).trans found, ?_⟩
    simp only [updateEntry, set_self]
  case there => exact fun other _ => .inl (find other)

/-- A free entry is used. -/
theorem Sound.adds (h : s.Sound k) {ip : UInt32} (none : s.findEntry k ip = none)
    (nonzero : ip ≠ 0) (some : s.freeEntries ≠ []) (mac : Mac) (now first last : UInt32) :
    Adds k s ip mac now (s.addEntry k ip mac first last) := by
  obtain ⟨i, free, head⟩ := List.exists_cons_of_ne_nil some
  obtain ⟨added, sound, ent, entries, ip', active, mac'⟩ := h.addEntry head nonzero
    (fun j active => h.findEntry_none none active) mac first last
  have idle : (s.entries i).active = false := by
    apply (h.mem_free i).1
    rw [head]
    exact List.mem_cons_self
  have here : (s.addEntry k ip mac first last).1.entries i = ent := by
    rw [entries, Function.update_self]
  constructor
  case sound => exact sound
  case room => rw [added]; exact ⟨nofun, nofun⟩
  case here =>
    refine fun _ => ⟨i, (sound.findEntry_eq ip i).2 ?_, ?_⟩
    · rw [here]
      exact ⟨active, ip'⟩
    · rw [here, mac']
  case there =>
    intro other ne
    refine .inl (h.find_congr sound fun j => ?_)
    by_cases same : j = i
    · rw [same, here, ip', idle]
      simp [ne.symm]
    · rw [entries, Function.update_of_ne same]

/-- The entry of another address is evicted. -/
theorem Sound.evicts (h : s.Sound k) {ip : UInt32} (none : s.findEntry k ip = none)
    (nonzero : ip ≠ 0) (full : s.freeEntries = []) {now : UInt32} {x : Index}
    (oldest : s.findOldest now = some x) (mac : Mac) (first last : UInt32) :
    Adds k s ip mac now ((s.deleteEntry k x).addEntry k ip mac first last) := by
  have active : ∀ i, (s.entries i).active = true := by
    intro i
    by_contra idle
    have mem := (h.mem_free i).2 (Bool.not_eq_true _ ▸ idle)
    rw [full] at mem
    cases mem
  have head : (s.deleteEntry k x).freeEntries = x :: [] := by
    rw [Table.deleteEntry, if_neg (by simp [active]), full]
  obtain ⟨added, sound, ent, entries, ip', active', mac'⟩ := (h.deleteEntry x).addEntry head nonzero
    (fun j active => by
      rw [deleteEntry_ip]
      exact h.findEntry_none none ((deleteEntry_active s x j).1 active).1) mac first last
  have here : ((s.deleteEntry k x).addEntry k ip mac first last).1.entries x = ent := by
    rw [entries, Function.update_self]
  have found : ((s.deleteEntry k x).addEntry k ip mac first last).1.findEntry k ip = some x := by
    rw [sound.findEntry_eq, here]
    exact ⟨active', ip'⟩
  have there : ∀ j, j ≠ x →
      (((s.deleteEntry k x).addEntry k ip mac first last).1.entries j).active = true ∧
      (((s.deleteEntry k x).addEntry k ip mac first last).1.entries j).ip = (s.entries j).ip := by
    intro j ne
    rw [entries, Function.update_of_ne ne, deleteEntry_ip, deleteEntry_active]
    exact ⟨⟨active j, ne⟩, rfl⟩
  constructor
  case sound => exact sound
  case room => rw [added]; exact ⟨by rintro ⟨⟩, by rintro ⟨⟩⟩
  case here =>
    refine fun _ => ⟨x, found, ?_⟩
    rw [here, mac']
  case there =>
    intro other ne
    by_cases its : (s.entries x).ip = other
    · refine .inr ⟨full, x, (h.findEntry_eq other x).2 ⟨active x, its⟩, ?_, found,
        findOldest_max oldest⟩
      cases find : ((s.deleteEntry k x).addEntry k ip mac first last).1.findEntry k other with
      | none => rfl
      | some j =>
        obtain ⟨-, ip''⟩ := (sound.findEntry_eq other j).1 find
        by_cases same : j = x
        · rw [same, here, ip'] at ip''
          exact absurd ip''.symm ne
        · rw [(there j same).2] at ip''
          exact absurd (h.distinct j x (active j) (active x) (ip''.trans its.symm)) same
    · refine .inl (h.find_congr sound fun j => ?_)
      by_cases same : j = x
      · rw [same, here, ip']
        simp [ne.symm, its]
      · rw [(there j same).2]
        simp [(there j same).1, active j]

theorem Sound.checkAndAddEntry (h : s.Sound k) (ip : UInt32) (mac : Mac)
    (now first last : UInt32) :
    Adds k s ip mac now (s.checkAndAddEntry k ip mac now first last) := by
  rw [Table.checkAndAddEntry]
  split
  case h_1 i found => exact h.updates found mac now last
  case h_2 none =>
    split
    case isTrue => exact h.adds_nothing ip mac now (.inl rfl)
    case isFalse nonzero =>
      split
      case isTrue full =>
        split
        case h_1 => exact h.adds_nothing ip mac now (.inr rfl)
        case h_2 x oldest => exact h.evicts none nonzero full oldest mac first last
      case isFalse some => exact h.adds none nonzero some mac now first last

theorem addEntry_outcome (s : Table) (ip : UInt32) (mac : Mac) (first last : UInt32) :
    (s.addEntry k ip mac first last).2 ≠ .zeroIp ∧ (s.addEntry k ip mac first last).2 ≠ .noLru := by
  rw [addEntry]
  split
  · simp
  · dsimp only
    split <;> simp

/-- An address is put into the table unless it is zero, or the table is full of entries that were
used just now. -/
theorem Sound.puts_iff (h : s.Sound k) (ip : UInt32) (mac : Mac) (now first last : UInt32) :
    ((s.checkAndAddEntry k ip mac now first last).2 = .added ∨
      (s.checkAndAddEntry k ip mac now first last).2 = .updated) ↔
      ip ≠ 0 ∧ (s.findEntry k ip ≠ none ∨ s.freeEntries ≠ [] ∨ ∃ i, 0 < s.delta now i) := by
  have room := (h.checkAndAddEntry ip mac now first last).room
  have put {o : Outcome} (room : o ≠ .bucketFull ∧ o ≠ .noFree)
      (taken : o ≠ .zeroIp ∧ o ≠ .noLru) : o = .added ∨ o = .updated := by
    cases o <;> simp_all
  rw [← findOldest_ne_none]
  rw [Table.checkAndAddEntry] at room ⊢
  split at room
  case h_1 i found =>
    obtain ⟨active, its⟩ := (h.findEntry_eq ip i).1 found
    exact iff_of_true (.inr rfl) ⟨its ▸ h.nonzero i active, .inl (by simp [found])⟩
  case h_2 none =>
    split at room
    case isTrue zero => exact iff_of_false (by simp [zero]) fun put => put.1 zero
    case isFalse nonzero =>
      rw [if_neg nonzero]
      split at room
      case isTrue full =>
        rw [if_pos full]
        split at room
        case h_1 idle => exact iff_of_false (by simp) (by simp [none, full, idle])
        case h_2 x oldest =>
          rw [oldest]
          exact iff_of_true (put room (addEntry_outcome _ ip mac first last))
            ⟨nonzero, .inr (.inr nofun)⟩
      case isFalse some =>
        rw [if_neg some]
        exact iff_of_true (put room (addEntry_outcome s ip mac first last))
          ⟨nonzero, .inr (.inl some)⟩

/-! ## All operations -/

theorem Sound.clearTable (h : s.Sound k) : (s.clearTable k).Sound k := by
  have all : ∀ (l : List Index) {s : Table}, s.Sound k →
      (l.foldl (Table.deleteEntry k) s).Sound k := by
    intro l
    induction l with
    | nil => exact id
    | cons i l ih => exact fun h => ih (h.deleteEntry i)
  exact all _ h

theorem Sound.genFakeArpReq (h : s.Sound k) (sip : UInt32) (smac : Mac) (dip now : UInt32) :
    (s.genFakeArpReq k sip smac dip now).Sound k := by
  rw [Table.genFakeArpReq]
  split
  · exact h
  split
  · exact h
  · exact { h with }

theorem Sound.agingTimer (h : s.Sound k) (i : Index) (now : UInt32) :
    (s.agingTimer k i now).Sound k := by
  rw [Table.agingTimer]
  split
  · exact h
  split
  · exact h.set rfl rfl
  simp only
  split
  · exact h.deleteEntry i
  split
  · exact h.set rfl rfl
  split
  · have flagged : { s with needArpInfo := true }.Sound k := { h with }
    exact flagged.set rfl rfl
  · exact (h.genFakeArpReq ..).set rfl rfl

theorem Sound.step (h : s.Sound k) (e : Event) : (s.step k e).Sound k := by
  cases e with
  | checkAndAddEntry ip mac now first last => exact (h.checkAndAddEntry ip mac now first last).sound
  | deleteEntry i => exact h.deleteEntry i
  | agingTimer i now => exact h.agingTimer i now
  | clearTable => exact h.clearTable
  | setAgingTimeout timeout => exact { h with }
  | onRxIp saddr source daddr now =>
    rw [Table.step, onRxIp]
    split
    · exact h.genFakeArpReq ..
    · split
      · exact { h with }
      · exact h

theorem Sound.run (h : s.Sound k) (events : List Event) :
    (events.foldl (Table.step k) s).Sound k := by
  induction events generalizing s with
  | nil => exact h
  | cons e events ih => exact ih (h.step e)

end Table

open Table

/-- After any operations the entries are partitioned into the two lists; the active ones have
distinct addresses, none of them zero, and their indices are exactly once in the hash array, in the
bucket of the address, where those of free entries are nowhere; and an address is found exactly when
there is an active entry of it. Adding an address finds room in its bucket. It fails for zero, and
if all entries are in use for other addresses and none has an age. It leaves what is found for other
addresses alone, unless all entries are in use: then the entry that is evicted for it has the
largest age. -/
theorem l2nat_is_map (k : Kernel) (agingTimeout start : UInt32) (events : List Event) :
    let s := events.foldl (step k) (init agingTimeout start)
    ((s.freeEntries ++ s.activeEntries).Perm (List.finRange numEntries) ∧
      ∀ i, (s.entries i).active = true ↔ i ∈ s.activeEntries) ∧
    (∀ i ∈ s.activeEntries, (s.entries i).ip ≠ 0 ∧
      ∀ j ∈ s.activeEntries, (s.entries j).ip = (s.entries i).ip → j = i) ∧
    (∀ i ∈ s.activeEntries, ∃ slot, ∀ b j,
      s.hash b j = some i ↔ b = k.bucketOf (s.entries i).ip ∧ j = slot) ∧
    (∀ i ∈ s.freeEntries, ∀ b j, s.hash b j ≠ some i) ∧
    (∀ ip i, s.findEntry k ip = some i ↔ i ∈ s.activeEntries ∧ (s.entries i).ip = ip) ∧
    ∀ ip mac now first last,
      let r := s.checkAndAddEntry k ip mac now first last
      r.2 ≠ .bucketFull ∧ r.2 ≠ .noFree ∧
      (r.2 = .added ∨ r.2 = .updated ↔
        ip ≠ 0 ∧ (s.findEntry k ip ≠ none ∨ s.freeEntries ≠ [] ∨ ∃ i, 0 < s.delta now i)) ∧
      (r.2 = .added ∨ r.2 = .updated →
        ∃ i, r.1.findEntry k ip = some i ∧ (r.1.entries i).mac = mac) ∧
      ∀ other, other ≠ ip → r.1.findEntry k other = s.findEntry k other ∨
        s.freeEntries = [] ∧ ∃ x, s.findEntry k other = some x ∧ r.1.findEntry k other = none ∧
          r.1.findEntry k ip = some x ∧ ∀ i, s.delta now i ≤ s.delta now x := by
  intro s
  have h : s.Sound k := (init_sound k agingTimeout start).run events
  refine ⟨⟨h.partition, h.active⟩, ?_, ?_, ?_, ?_, ?_⟩
  · intro i mem
    have active := (h.active i).2 mem
    refine ⟨h.nonzero i active, fun j mem' same => ?_⟩
    exact h.distinct j i ((h.active j).2 mem') active same
  · intro i mem
    obtain ⟨slot, at'⟩ := (h.slots _).complete i ⟨(h.active i).2 mem, rfl⟩
    refine ⟨slot, fun b j => ⟨fun here => ?_, ?_⟩⟩
    · have bucket := ((h.slots b).sound j i here).2
      subst bucket
      exact ⟨rfl, (h.slots _).unique j slot i here at'⟩
    · rintro ⟨rfl, rfl⟩
      exact at'
  · intro i mem b j here
    have active := ((h.slots b).sound j i here).1
    rw [(h.mem_free i).1 mem] at active
    cases active
  · intro ip i
    rw [h.findEntry_eq, h.active]
  · intro ip mac now first last r
    have adds : Adds k s ip mac now r := h.checkAndAddEntry ip mac now first last
    exact ⟨adds.room.1, adds.room.2, h.puts_iff ip mac now first last, adds.here, adds.there⟩

end Wave300.L2nat
