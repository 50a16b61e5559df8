import Wave300.Cache.Entries

/-!
# The order of the cache

Each BSSID is in the list at most once, the list is sorted by channel and within a channel by RSSI,
and the cursor is on an entry of the list.
-/

namespace Wave300.Cache

/-- The order of the list. -/
def Precedes (a b : BssData) : Prop :=
  a.channel < b.channel ∨ a.channel = b.channel ∧ b.maxRssi ≤ a.maxRssi

theorem Precedes.trans {a b c : BssData} (h : Precedes a b) (h' : Precedes b c) :
    Precedes a c := by
  rcases h with lt | ⟨eq, le⟩
  · rcases h' with lt' | ⟨eq', -⟩
    · exact .inl (UInt16.lt_trans lt lt')
    · exact .inl (eq' ▸ lt)
  · rcases h' with lt' | ⟨eq', le'⟩
    · exact .inl (eq ▸ lt')
    · exact .inr ⟨eq.trans eq', UInt8.le_trans le' le⟩

/-! ## Placing an entry -/

theorem insertSorted_perm (slot : CacheEntry) (l : List CacheEntry) :
    (insertSorted slot l).Perm (slot :: l) := by
  have swap (place : CacheEntry) (rest : List CacheEntry)
      (ih : (insertSorted slot rest).Perm (slot :: rest)) :
      (place :: insertSorted slot rest).Perm (slot :: place :: rest) :=
    (ih.cons place).trans (.swap slot place rest)
  induction l with
  | nil => exact .refl _
  | cons place rest ih =>
    rw [insertSorted]
    split
    · exact swap place rest ih
    split
    · split
      · exact .refl _
      · exact swap place rest ih
    · exact .refl _

theorem insertSorted_sorted (slot : CacheEntry) {l : List CacheEntry}
    (sorted : l.Pairwise (Precedes ·.bss ·.bss)) :
    (insertSorted slot l).Pairwise (Precedes ·.bss ·.bss) := by
  induction l with
  | nil => exact List.pairwise_singleton _ _
  | cons place rest ih =>
    obtain ⟨first, later⟩ := List.pairwise_cons.1 sorted
    have after (le : Precedes place.bss slot.bss) :
        (place :: insertSorted slot rest).Pairwise (Precedes ·.bss ·.bss) := by
      refine List.pairwise_cons.2 ⟨fun e mem => ?_, ih later⟩
      rcases List.mem_cons.1 ((insertSorted_perm slot rest).mem_iff.1 mem) with rfl | mem
      · exact le
      · exact first e mem
    have before (le : Precedes slot.bss place.bss) :
        (slot :: place :: rest).Pairwise (Precedes ·.bss ·.bss) := by
      refine List.pairwise_cons.2 ⟨fun e mem => ?_, sorted⟩
      rcases List.mem_cons.1 mem with rfl | mem
      · exact le
      · exact le.trans (first e mem)
    rw [insertSorted]
    split
    case isTrue lt => exact after (.inl lt)
    case isFalse ge =>
      split
      case isTrue eq =>
        split
        case isTrue lt => exact before (.inr ⟨eq.symm, UInt8.le_of_lt lt⟩)
        case isFalse ge => exact after (.inr ⟨eq, UInt8.not_lt.1 ge⟩)
      case isFalse ne =>
        exact before (.inl (UInt16.lt_of_le_of_ne (UInt16.not_lt.1 ge) (Ne.symm ne)))

/-- What is found and what is left when it is erased. -/
theorem perm_cons_eraseP {α : Type} {p : α → Bool} {l : List α} {a : α}
    (found : l.find? p = some a) : l.Perm (a :: l.eraseP p) := by
  induction l with
  | nil => cases found
  | cons b l ih =>
    rw [List.find?_cons] at found
    cases here : p b with
    | true =>
      rw [here] at found
      cases found
      rw [List.eraseP_cons_of_pos here]
    | false =>
      rw [here] at found
      rw [List.eraseP_cons_of_neg (by rw [here]; exact Bool.false_ne_true)]
      exact ((ih found).cons b).trans (.swap a b _)

namespace ScanCache

def bssids (s : ScanCache) : List Bssid := s.bssList.map (·.bss.bssid)

structure Ordered (s : ScanCache) : Prop where
  bssids : s.bssids.Nodup
  addrs : s.addrs.Nodup
  sorted : s.bssList.Pairwise (Precedes ·.bss ·.bss)
  cursor : ∀ cur, s.curEntry = some cur → cur ∈ s.addrs

variable {s t : ScanCache}

theorem init_ordered (expire : UInt32) : (init expire).Ordered where
  bssids := List.nodup_nil
  addrs := List.nodup_nil
  sorted := .nil
  cursor := nofun

/-- Entries are taken out of the list. -/
theorem Ordered.sublist (h : s.Ordered) (sub : t.bssList.Sublist s.bssList)
    (cursor : ∀ cur, t.curEntry = some cur → cur ∈ t.addrs) : t.Ordered where
  bssids := h.bssids.sublist (sub.map _)
  addrs := h.addrs.sublist (sub.map _)
  sorted := h.sorted.sublist sub
  cursor := cursor

/-- An entry is placed among entries of the list. -/
theorem Ordered.place (h : s.Ordered) {list : List CacheEntry} (sub : list.Sublist s.bssList)
    {addr : Nat} {bss : BssData} (env : Env) (newBssid : bss.bssid ∉ list.map (·.bss.bssid))
    (newAddr : addr ∉ list.map (·.addr)) (all : ∀ a ∈ s.addrs, a ∈ addr :: list.map (·.addr)) :
    (s.place list addr bss env).Ordered := by
  constructor
  case bssids =>
    apply ((insertSorted_perm _ list).map (·.bss.bssid)).nodup_iff.2
    exact List.nodup_cons.2 ⟨newBssid, h.bssids.sublist (sub.map _)⟩
  case addrs =>
    apply ((insertSorted_perm _ list).map (·.addr)).nodup_iff.2
    exact List.nodup_cons.2 ⟨newAddr, h.addrs.sublist (sub.map _)⟩
  case sorted => exact insertSorted_sorted _ (h.sorted.sublist sub)
  case cursor =>
    intro cur at'
    apply ((insertSorted_perm _ list).map (·.addr)).mem_iff.2
    exact all cur (h.cursor cur at')

theorem find_perm {bssid : Bssid} {entry : CacheEntry} (found : s.find bssid = some entry) :
    s.bssList.Perm (entry :: s.without bssid) := perm_cons_eraseP found

theorem find_bssid {bssid : Bssid} {entry : CacheEntry} (found : s.find bssid = some entry) :
    entry.bss.bssid = bssid := by
  simpa using List.find?_some found

theorem not_mem_of_find {bssid : Bssid} (none : s.find bssid = none) : bssid ∉ s.bssids := by
  intro mem
  obtain ⟨entry, mem, same⟩ := List.mem_map.1 mem
  exact List.find?_eq_none.1 none entry mem (decide_eq_true same)

theorem Ordered.registerBss (h : s.Ordered) (bss : BssData) (env : Env) :
    (s.registerBss bss env).Ordered := by
  rw [ScanCache.registerBss]
  split
  case h_1 slot found =>
    -- The slot that is placed is the one that was taken out.
    have perm := find_perm found
    have same := find_bssid found
    have bssids := h.bssids
    have addrs := h.addrs
    rw [ScanCache.bssids, (perm.map _).nodup_iff, List.map_cons, same] at bssids
    rw [ScanCache.addrs, (perm.map _).nodup_iff, List.map_cons] at addrs
    have sub : (s.without bss.bssid).Sublist s.bssList := List.eraseP_sublist
    have kept : (if bss.essid[0] = 0 then { bss with essid := slot.bss.essid } else bss).bssid =
        bss.bssid := by
      split <;> rfl
    simp only [kept]
    apply h.place sub
    · rw [kept]
      exact (List.nodup_cons.1 bssids).1
    · exact (List.nodup_cons.1 addrs).1
    · intro a mem
      exact (perm.map (·.addr)).mem_iff.1 mem
  case h_2 absent =>
    split
    case h_1 addr alloc =>
      apply h.place (List.Sublist.refl _)
      · exact not_mem_of_find absent
      · rw [memAlloc, Option.filter_eq_some_iff] at alloc
        exact of_decide_eq_true alloc.2
      · exact fun a mem => List.mem_cons_of_mem _ mem
    case h_2 => exact h

theorem Ordered.clearExceptEntry (h : s.Ordered) (bssid : Bssid) :
    (s.clearExceptEntry bssid).Ordered := by
  rw [ScanCache.clearExceptEntry]
  split
  case h_1 saved last =>
    have mem : saved ∈ s.bssList := List.mem_of_mem_filter (List.mem_of_getLast? last)
    apply h.sublist (List.singleton_sublist.2 mem)
    rintro cur ⟨⟩
    exact List.mem_singleton_self _
  case h_2 => exact h.sublist (List.nil_sublist _) nofun

theorem head_mem_addrs {l : List CacheEntry} {cur : Nat}
    (head : l.head?.map (·.addr) = some cur) : cur ∈ l.map (·.addr) := by
  obtain ⟨entry, first, rfl⟩ := Option.map_eq_some_iff.1 head
  exact List.mem_map_of_mem (List.mem_of_head? first)

theorem removeExpired_suffix (s : ScanCache) (now : UInt32) (l : List CacheEntry) :
    s.removeExpired now l <:+ l := by
  induction l with
  | nil => exact List.suffix_refl _
  | cons entry rest ih =>
    rw [removeExpired]
    split
    · exact ih.trans (List.suffix_cons _ _)
    · exact List.suffix_refl _

theorem Ordered.getNextBss (h : s.Ordered) (now : UInt32) : (s.getNextBss now).1.Ordered := by
  rw [ScanCache.getNextBss]
  split
  case h_1 => exact h
  case h_2 cur at' =>
    simp only
    split
    · exact h.sublist (List.Sublist.refl _) nofun
    · apply h.sublist
      · have left := (s.removeExpired_suffix now (s.bssList.dropWhile (·.addr ≠ cur))).sublist
        have all := left.append_left (s.bssList.takeWhile (·.addr ≠ cur))
        rwa [List.takeWhile_append_dropWhile] at all
      · intro next head
        have mem := List.map_subset _ (List.tail_sublist _).subset (head_mem_addrs head)
        rw [ScanCache.addrs, List.map_append]
        exact List.mem_append_right _ mem

theorem Ordered.removeBssByBssid (h : s.Ordered) (bssid : Bssid) :
    (s.removeBssByBssid bssid).Ordered := by
  rw [ScanCache.removeBssByBssid]
  split
  case h_1 entry found =>
    apply h.sublist (List.eraseP_sublist)
    intro cur at'
    simp only at at'
    split at at'
    case isTrue => cases at'
    case isFalse other =>
      have mem := ((find_perm found).map (·.addr)).mem_iff.1 (h.cursor cur at')
      rcases List.mem_cons.1 mem with rfl | mem
      · exact absurd at' other
      · exact mem
  case h_2 => exact h

theorem Ordered.deleteCurrent (h : s.Ordered) : s.deleteCurrent.Ordered := by
  rw [ScanCache.deleteCurrent]
  split
  · split
    · exact h.sublist List.eraseP_sublist nofun
    · exact h.sublist (List.Sublist.refl _) nofun
  · exact h

/-- What `mtlk_cache_set_persistent` leaves alone. -/
theorem map_markPersistent {β : Type} {f : CacheEntry → β}
    (keeps : ∀ e now p, f { e with localTimestamp := now, isPersistent := p } = f e)
    (bssid : Bssid) (isPersistent : Bool) (now : UInt32) (l : List CacheEntry) :
    (markPersistent bssid isPersistent now l).map f = l.map f := by
  induction l with
  | nil => rfl
  | cons entry rest ih =>
    rw [markPersistent]
    split
    · rw [List.map_cons, keeps]
      rfl
    · rw [List.map_cons, ih]
      rfl

theorem Ordered.setPersistent (h : s.Ordered) (bssid : Bssid) (isPersistent : Bool)
    (now : UInt32) : (s.setPersistent bssid isPersistent now).Ordered := by
  have addrs : (s.setPersistent bssid isPersistent now).addrs = s.addrs :=
    map_markPersistent (fun _ _ _ => rfl) ..
  constructor
  case bssids =>
    rw [ScanCache.bssids, ScanCache.setPersistent, map_markPersistent (fun _ _ _ => rfl)]
    exact h.bssids
  case addrs =>
    rw [addrs]
    exact h.addrs
  case sorted =>
    rw [← List.pairwise_map, ScanCache.setPersistent, map_markPersistent (fun _ _ _ => rfl),
      List.pairwise_map]
    exact h.sorted
  case cursor =>
    rw [addrs]
    exact h.cursor

theorem Ordered.step (h : s.Ordered) (e : Event) : (s.step e).Ordered := by
  cases e with
  | registerBss bss env => exact h.registerBss bss env
  | clear => exact h.sublist (List.nil_sublist _) nofun
  | clearExceptEntry bssid => exact h.clearExceptEntry bssid
  | rewind => exact h.sublist (List.Sublist.refl _) fun _ head => head_mem_addrs head
  | getNextBss now => exact h.getNextBss now
  | removeBssByBssid bssid => exact h.removeBssByBssid bssid
  | deleteCurrent => exact h.deleteCurrent
  | setPersistent bssid isPersistent now => exact h.setPersistent bssid isPersistent now
  | setExpirationTime | clearModifiedFlag => exact { h with }

theorem Ordered.run (h : s.Ordered) (events : List Event) :
    (events.foldl ScanCache.step s).Ordered := by
  induction events generalizing s with
  | nil => exact h
  | cons e events ih => exact ih (h.step e)

end ScanCache

open ScanCache

/-- After any operations each BSSID is in the list at most once, the list is sorted by ascending
channel and within a channel by RSSI that does not increase, and the cursor is on an entry. -/
theorem bss_cache_ordered (expire : UInt32) (events : List Event) :
    let s := events.foldl step (init expire)
    (s.bssList.map (·.bss.bssid)).Nodup ∧
      s.bssList.Pairwise (fun a b => a.bss.channel < b.bss.channel ∨
        a.bss.channel = b.bss.channel ∧ b.bss.maxRssi ≤ a.bss.maxRssi) ∧
      ∀ cur, s.curEntry = some cur → ∃ e ∈ s.bssList, e.addr = cur := by
  intro s
  have ordered : s.Ordered := (init_ordered expire).run events
  refine ⟨ordered.bssids, ordered.sorted, fun cur at' => ?_⟩
  exact List.mem_map.1 (ordered.cursor cur at')

end Wave300.Cache
