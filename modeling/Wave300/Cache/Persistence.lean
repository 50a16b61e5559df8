import Wave300.Cache.Order
import Wave300.Lib.Trace

/-!
# Persistent BSSs

A BSS to which a STA has connected is made persistent, so that it does not expire. The flag is in
the entry of the BSS, and registering the BSS anew overwrites the entry: after the next beacon it
expires like any other.
-/

namespace Wave300.Cache

open Wave300.Lib

namespace ScanCache

variable {s : ScanCache} {bssid : Bssid}

def Persistent (bssid : Bssid) (s : ScanCache) : Prop :=
  ∃ e ∈ s.bssList, e.bss.bssid = bssid ∧ e.isPersistent = true

/-- The BSS is not removed explicitly, and it does not cease to be persistent. -/
def Keeps (bssid : Bssid) (s : ScanCache) : Event → Prop
  | .clear => False
  | .clearExceptEntry other => other = bssid
  | .removeBssByBssid other => other ≠ bssid
  | .deleteCurrent => ∀ e ∈ s.bssList, s.curEntry = some e.addr → e.bss.bssid ≠ bssid
  | .setPersistent other isPersistent _ => other = bssid → isPersistent = true
  | .registerBss .. | .rewind | .getNextBss _ | .setExpirationTime _ | .clearModifiedFlag => True

instance : ∀ e, Decidable (s.Keeps bssid e)
  | .clear => .isFalse id
  | .clearExceptEntry _ => inferInstanceAs (Decidable (_ = _))
  | .removeBssByBssid _ => inferInstanceAs (Decidable (_ ≠ _))
  | .deleteCurrent => inferInstanceAs (Decidable (∀ e ∈ s.bssList, _ → _))
  | .setPersistent .. => inferInstanceAs (Decidable (_ → _))
  | .registerBss .. | .rewind | .getNextBss _ | .setExpirationTime _ | .clearModifiedFlag =>
    .isTrue trivial

/-- No beacon or probe response of the BSS is registered. -/
def Unheard (bssid : Bssid) : Event → Prop
  | .registerBss bss _ => bss.bssid ≠ bssid
  | _ => True

instance : ∀ e, Decidable (Unheard bssid e)
  | .registerBss .. => inferInstanceAs (Decidable (_ ≠ _))
  | .clear | .clearExceptEntry _ | .rewind | .getNextBss _ | .removeBssByBssid _ | .deleteCurrent
  | .setPersistent .. | .setExpirationTime _ | .clearModifiedFlag => .isTrue trivial

theorem Persistent.of_mem {t : ScanCache} (h : s.Persistent bssid)
    (keeps : ∀ e ∈ s.bssList, e.bss.bssid = bssid → e.isPersistent = true → e ∈ t.bssList) :
    t.Persistent bssid := by
  obtain ⟨e, mem, same, persistent⟩ := h
  exact ⟨e, keeps e mem same persistent, same, persistent⟩

theorem mem_without {e : CacheEntry} {other : Bssid} (mem : e ∈ s.bssList)
    (ne : e.bss.bssid ≠ other) : e ∈ s.without other :=
  (List.mem_eraseP_of_neg (by simpa using ne)).2 mem

theorem Persistent.registerBss (h : s.Persistent bssid) {bss : BssData} (ne : bss.bssid ≠ bssid)
    (env : Env) : (s.registerBss bss env).Persistent bssid := by
  apply h.of_mem
  intro e mem same _
  rw [ScanCache.registerBss]
  split
  case h_1 slot found =>
    apply (insertSorted_perm ..).mem_iff.2
    apply List.mem_cons_of_mem
    apply mem_without mem
    rw [same]
    split <;> exact ne.symm
  case h_2 =>
    split
    · exact (insertSorted_perm ..).mem_iff.2 (List.mem_cons_of_mem _ mem)
    · exact mem

/-- There is one entry to save. -/
theorem Persistent.clearExceptEntry (h : s.Persistent bssid) (ordered : s.Ordered) :
    (s.clearExceptEntry bssid).Persistent bssid := by
  apply h.of_mem
  intro e mem same _
  have found : e ∈ s.bssList.filter (·.bss.bssid = bssid) :=
    List.mem_filter.2 ⟨mem, decide_eq_true same⟩
  rw [ScanCache.clearExceptEntry]
  split
  case h_1 saved last =>
    obtain ⟨mem', same'⟩ := List.mem_filter.1 (List.mem_of_getLast? last)
    have eq : e = saved := by
      apply List.inj_on_of_nodup_map ordered.bssids mem mem'
      rw [same, of_decide_eq_true same']
    exact List.mem_singleton.2 eq
  case h_2 none =>
    rw [List.getLast?_eq_none_iff.1 none] at found
    cases found

theorem mem_removeExpired {now : UInt32} {e : CacheEntry} (persistent : e.isPersistent = true)
    {l : List CacheEntry} (mem : e ∈ l) : e ∈ s.removeExpired now l := by
  induction l with
  | nil => exact mem
  | cons entry rest ih =>
    rw [removeExpired]
    split
    case isTrue expired =>
      rcases List.mem_cons.1 mem with rfl | mem
      · simp [ScanCache.expired, persistent] at expired
      · exact ih mem
    case isFalse => exact mem

theorem Persistent.getNextBss (h : s.Persistent bssid) (now : UInt32) :
    (s.getNextBss now).1.Persistent bssid := by
  apply h.of_mem
  intro e mem _ persistent
  rw [ScanCache.getNextBss]
  split
  case h_1 => exact mem
  case h_2 cur _ =>
    simp only
    split
    · exact mem
    · rw [← List.takeWhile_append_dropWhile (p := (·.addr ≠ cur)) (l := s.bssList),
        List.mem_append] at mem
      exact List.mem_append.2 (mem.imp_right (mem_removeExpired persistent))

theorem Persistent.removeBssByBssid (h : s.Persistent bssid) {other : Bssid}
    (ne : other ≠ bssid) : (s.removeBssByBssid other).Persistent bssid := by
  apply h.of_mem
  intro e mem same _
  rw [ScanCache.removeBssByBssid]
  split
  · exact mem_without mem (same ▸ ne.symm)
  · exact mem

theorem Persistent.deleteCurrent (h : s.Persistent bssid) (other : s.Keeps bssid .deleteCurrent) :
    s.deleteCurrent.Persistent bssid := by
  apply h.of_mem
  intro e mem same _
  rw [ScanCache.deleteCurrent]
  split
  case h_1 cur at' =>
    split
    · refine (List.mem_eraseP_of_neg ?_).2 mem
      intro here
      exact other e mem (at'.trans (congrArg some (of_decide_eq_true here).symm)) same
    · exact mem
  case h_2 => exact mem

/-- The entry of another BSS is left alone. -/
theorem mem_markPersistent {other : Bssid} {isPersistent : Bool} {now : UInt32} {e : CacheEntry}
    (ne : e.bss.bssid ≠ other) {l : List CacheEntry} (mem : e ∈ l) :
    e ∈ markPersistent other isPersistent now l := by
  induction l with
  | nil => exact mem
  | cons entry rest ih =>
    rw [markPersistent]
    split
    case isTrue here =>
      rcases List.mem_cons.1 mem with rfl | mem
      · exact absurd here ne
      · exact List.mem_cons_of_mem _ mem
    case isFalse =>
      rcases List.mem_cons.1 mem with rfl | mem
      · exact List.mem_cons_self
      · exact List.mem_cons_of_mem _ (ih mem)

/-- `mtlk_cache_set_persistent` finds the entry. -/
theorem setPersistent_persistent (found : bssid ∈ s.bssids) (now : UInt32) :
    (s.setPersistent bssid true now).Persistent bssid := by
  obtain ⟨e, mem, same⟩ := List.mem_map.1 found
  rw [Persistent, ScanCache.setPersistent]
  generalize s.bssList = l at mem
  induction l with
  | nil => cases mem
  | cons entry rest ih =>
    rw [markPersistent]
    split
    case isTrue here => exact ⟨_, List.mem_cons_self, here, rfl⟩
    case isFalse other =>
      rcases List.mem_cons.1 mem with rfl | mem
      · exact absurd same other
      · obtain ⟨e, mem, rest⟩ := ih mem
        exact ⟨e, List.mem_cons_of_mem _ mem, rest⟩

theorem Persistent.bssid_mem (h : s.Persistent bssid) : bssid ∈ s.bssids := by
  obtain ⟨e, mem, same, -⟩ := h
  exact List.mem_map.2 ⟨e, mem, same⟩

theorem Persistent.setPersistent (h : s.Persistent bssid) {other : Bssid} {isPersistent : Bool}
    (on : other = bssid → isPersistent = true) (now : UInt32) :
    (s.setPersistent other isPersistent now).Persistent bssid := by
  by_cases same : other = bssid
  · rw [same, on same]
    exact setPersistent_persistent h.bssid_mem now
  · apply h.of_mem
    intro e mem eq _
    exact mem_markPersistent (eq ▸ Ne.symm same) mem

theorem Persistent.step (h : s.Persistent bssid) (ordered : s.Ordered) {e : Event}
    (keeps : s.Keeps bssid e) (unheard : Unheard bssid e) : (s.step e).Persistent bssid := by
  cases e with
  | registerBss bss env => exact h.registerBss unheard env
  | clear => exact keeps.elim
  | clearExceptEntry other =>
    rw [show other = bssid from keeps]
    exact h.clearExceptEntry ordered
  | getNextBss now => exact h.getNextBss now
  | removeBssByBssid other => exact h.removeBssByBssid keeps
  | deleteCurrent => exact h.deleteCurrent keeps
  | setPersistent other isPersistent now => exact h.setPersistent keeps now
  | rewind | setExpirationTime | clearModifiedFlag => exact h

end ScanCache

open ScanCache

/-- A BSS that was found and made persistent stays in the cache, whatever is done to the cache,
however much time passes and whatever other BSSs are registered, as long as the BSS itself is not
registered anew. -/
theorem persistent_bss_stays {expire : UInt32} {before after : List Event} {bssid : Bssid}
    {now : UInt32} (found : bssid ∈ (before.foldl step (init expire)).bssids)
    (keeps : Allowed step (fun s e => s.Keeps bssid e ∧ Unheard bssid e)
      ((before.foldl step (init expire)).setPersistent bssid true now) after) :
    bssid ∈ (after.foldl step
      ((before.foldl step (init expire)).setPersistent bssid true now)).bssids := by
  have ordered := ((init_ordered expire).run before).setPersistent bssid true now
  have persistent := setPersistent_persistent found now
  have both := (Runs.of_allowed keeps).invariant
    (P := fun s => s.Ordered ∧ s.Persistent bssid) ⟨ordered, persistent⟩ (by
      rintro s e ⟨ordered, persistent⟩ ⟨keeps, unheard⟩
      exact ⟨ordered.step e, persistent.step ordered keeps unheard⟩)
  exact both.2.bssid_mem

/-- A beacon. -/
def beacon (bssid : Bssid) (channel : UInt16) : BssData :=
  ⟨bssid, channel, 200, Vector.replicate 33 0, none, 0⟩

theorem persistent_bss_stays_long :
    1 ∈ ([.registerBss (beacon 2 6) ⟨some 20, true, 50⟩, .rewind, .getNextBss 100000,
      .getNextBss 100000].foldl step
        (([.registerBss (beacon 1 6) ⟨some 10, true, 0⟩].foldl step (init 1)).setPersistent
          1 true 0)).bssids := by
  apply persistent_bss_stays
  · decide
  · decide

/-- The same BSS is heard once more, and when its entry has expired it is removed. -/
theorem removed_after_beacon :
    let s := [.registerBss (beacon 1 6) ⟨some 10, true, 0⟩].foldl step (init 1)
    let heard : List Event :=
      [.registerBss (beacon 1 6) ⟨none, true, 0⟩, .rewind, .getNextBss 2000]
    1 ∈ s.bssids ∧ Allowed step (Keeps 1) (s.setPersistent 1 true 0) heard ∧
      1 ∉ (heard.foldl step (s.setPersistent 1 true 0)).bssids := by
  decide

end Wave300.Cache
