import Mathlib.Algebra.Order.Ring.Int
import Mathlib.Data.List.Nodup
import Wave300.Cache.Order

/-!
# Iterating over the cache

`mtlk_cache_rewind` and then `mtlk_cache_get_next_bss` until it returns 0. Each call removes and
frees the expired entries that it comes to, up to the entry that it returns. Time goes on between
the calls.
-/

namespace Wave300.Cache

/-! ## What an iteration comes to -/

section Reached
variable (drop : UInt32 → CacheEntry → Bool) (times : Nat → UInt32) (l : List CacheEntry)

/-- The entries of a list, each with the time of the call that comes to it. `drop` says which
entries a call removes. An entry that is not removed is returned, and so ends the call. -/
def reached (drop : UInt32 → CacheEntry → Bool) :
    (Nat → UInt32) → List CacheEntry → List (CacheEntry × UInt32)
  | _, [] => []
  | times, e :: l =>
    (e, times 0) :: reached drop (if drop (times 0) e then times else fun i => times (i + 1)) l

def kept : List CacheEntry := ((reached drop times l).filter fun x => !drop x.2 x.1).map (·.1)

def gone : List CacheEntry := ((reached drop times l).filter fun x => drop x.2 x.1).map (·.1)

theorem reached_fst : (reached drop times l).map (·.1) = l := by
  induction l generalizing times with
  | nil => rfl
  | cons e l ih => rw [reached, List.map_cons, ih]

theorem kept_sublist : (kept drop times l).Sublist l := by
  have sub := (List.filter_sublist (p := fun x => !drop x.2 x.1)
    (l := reached drop times l)).map (·.1)
  rwa [reached_fst] at sub

/-- Every entry is kept or goes. -/
theorem kept_append_gone : (kept drop times l ++ gone drop times l).Perm l := by
  have all := (List.filter_append_perm (fun x => !drop x.2 x.1) (reached drop times l)).map (·.1)
  rw [List.map_append, reached_fst] at all
  simpa [kept, gone] using all

variable {drop times l} {e : CacheEntry}

theorem kept_of_drop (here : drop (times 0) e = true) :
    kept drop times (e :: l) = kept drop times l := by
  simp [kept, reached, here]

theorem gone_of_drop (here : drop (times 0) e = true) :
    gone drop times (e :: l) = e :: gone drop times l := by
  simp [gone, reached, here]

theorem kept_of_keep (here : drop (times 0) e = false) :
    kept drop times (e :: l) = e :: kept drop (fun i => times (i + 1)) l := by
  simp [kept, reached, here]

theorem gone_of_keep (here : drop (times 0) e = false) :
    gone drop times (e :: l) = gone drop (fun i => times (i + 1)) l := by
  simp [gone, reached, here]

variable (drop times) in
/-- The entries up to the first that stays are the first call's. -/
theorem first_call (l : List CacheEntry) :
    (l.dropWhile (drop (times 0)) = [] → kept drop times l = [] ∧
      gone drop times l = l.takeWhile (drop (times 0))) ∧
    ∀ e rest, l.dropWhile (drop (times 0)) = e :: rest →
      kept drop times l = e :: kept drop (fun i => times (i + 1)) rest ∧
      gone drop times l =
        l.takeWhile (drop (times 0)) ++ gone drop (fun i => times (i + 1)) rest := by
  induction l with
  | nil => exact ⟨fun _ => ⟨rfl, rfl⟩, nofun⟩
  | cons a l ih =>
    cases here : drop (times 0) a with
    | true =>
      rw [List.dropWhile_cons_of_pos here, List.takeWhile_cons_of_pos here, kept_of_drop here,
        gone_of_drop here]
      constructor
      · intro all
        obtain ⟨keeps, goes⟩ := ih.1 all
        exact ⟨keeps, by rw [goes]⟩
      · intro e rest found
        obtain ⟨keeps, goes⟩ := ih.2 e rest found
        exact ⟨keeps, by rw [goes, List.cons_append]⟩
    | false =>
      have stop : ¬drop (times 0) a = true := by
        rw [here]
        exact Bool.false_ne_true
      rw [List.dropWhile_cons_of_neg stop, List.takeWhile_cons_of_neg stop, kept_of_keep here,
        gone_of_keep here]
      refine ⟨nofun, ?_⟩
      rintro _ _ ⟨⟩
      exact ⟨rfl, rfl⟩

end Reached

namespace ScanCache

variable {s t u : ScanCache}

/-! ## The calls -/

/-- What one call frees. -/
def freed (s : ScanCache) (now : UInt32) : List CacheEntry :=
  match s.curEntry with
  | none => []
  | some cur => (s.bssList.dropWhile (·.addr ≠ cur)).takeWhile (s.expired now)

/-- The calls until one returns 0, at their times: the entries that they return, those that they
free, and the cache after them. -/
inductive Calls : ScanCache → List UInt32 → List CacheEntry → List CacheEntry → ScanCache → Prop
  where
  | last {s t : ScanCache} {now : UInt32} : s.getNextBss now = (t, none) →
      Calls s [now] [] (s.freed now) t
  | next {s t u : ScanCache} {now : UInt32} {times : List UInt32} {e : CacheEntry}
      {found freed : List CacheEntry} : s.getNextBss now = (t, some e) →
      Calls t times found freed u → Calls s (now :: times) (e :: found) (s.freed now ++ freed) u

theorem removeExpired_eq (s : ScanCache) (now : UInt32) (l : List CacheEntry) :
    s.removeExpired now l = l.dropWhile (s.expired now) := by
  induction l with
  | nil => rfl
  | cons e l ih =>
    rw [removeExpired, List.dropWhile_cons]
    split
    · exact ih
    · rfl

/-- The cursor is on the first entry of `rest`, or there is none. -/
structure At (s : ScanCache) (before rest : List CacheEntry) : Prop where
  list : s.bssList = before ++ rest
  cursor : s.curEntry = rest.head?.map (·.addr)
  nodup : s.addrs.Nodup

/-- The loop of the source that looks for the cursor finds it. -/
theorem At.located {before rest : List CacheEntry} (h : s.At before rest) {cur : Nat}
    (cursor : s.curEntry = some cur) : s.bssList.takeWhile (·.addr ≠ cur) = before ∧
      s.bssList.dropWhile (·.addr ≠ cur) = rest := by
  cases rest with
  | nil =>
    rw [h.cursor] at cursor
    cases cursor
  | cons e rest =>
    rw [h.cursor] at cursor
    obtain rfl := Option.some.inj cursor
    have other : ∀ x ∈ before, (decide (x.addr ≠ e.addr)) = true := by
      intro x mem
      have nodup := h.nodup
      rw [addrs, h.list, List.map_append, List.map_cons] at nodup
      have disjoint := (List.nodup_append.1 nodup).2.2
      exact decide_eq_true (disjoint x.addr (List.mem_map_of_mem mem) e.addr List.mem_cons_self)
    rw [h.list, List.takeWhile_append_of_pos other, List.dropWhile_append_of_pos other]
    simp

/-- One call, with the cursor on the first entry of `rest`. -/
theorem At.getNextBss {before rest : List CacheEntry} (h : s.At before rest) (now : UInt32) :
    s.freed now = rest.takeWhile (s.expired now) ∧
    (s.getNextBss now).2 = (rest.dropWhile (s.expired now)).head? ∧
    (s.getNextBss now).1.cacheExpire = s.cacheExpire ∧
    (s.getNextBss now).1.bssList = before ++ rest.dropWhile (s.expired now) ∧
    (s.getNextBss now).1.curEntry =
      (rest.dropWhile (s.expired now)).tail.head?.map (·.addr) := by
  have list := h.list
  have cursor := h.cursor
  cases rest with
  | nil => simp [freed, ScanCache.getNextBss, cursor, list]
  | cons e rest =>
    obtain ⟨takes, drops⟩ := h.located cursor
    simp only [List.head?_cons, Option.map_some] at cursor takes drops
    simp only [freed, ScanCache.getNextBss, cursor, takes, drops, removeExpired_eq, reduceCtorEq,
      ↓reduceIte]
    exact ⟨trivial, trivial, trivial, trivial, trivial⟩

/-- The calls with the cursor on the first entry of `rest`, whatever their times. -/
theorem At.calls {before rest : List CacheEntry} (h : s.At before rest) (times : Nat → UInt32) :
    ∃ n t, Calls s ((List.range n).map times) (kept s.expired times rest)
      (gone s.expired times rest) t ∧ t.bssList = before ++ kept s.expired times rest := by
  induction length : rest.length using Nat.strongRecOn generalizing s before rest times with
  | ind n ih =>
    obtain ⟨frees, returns, expire, list, cursor⟩ := h.getNextBss (times 0)
    obtain ⟨last, next⟩ := first_call s.expired times rest
    rcases call : s.getNextBss (times 0) with ⟨t, found⟩
    rw [call] at returns expire list cursor
    cases left : rest.dropWhile (s.expired (times 0)) with
    | nil =>
      obtain ⟨keeps, goes⟩ := last left
      rw [left] at returns list
      obtain rfl : found = none := returns
      refine ⟨1, t, ?_, ?_⟩
      · rw [keeps, goes, ← frees]
        exact .last call
      · rw [keeps]
        exact list
    | cons e rest' =>
      obtain ⟨keeps, goes⟩ := next e rest' left
      rw [left] at returns list cursor
      obtain rfl : found = some e := returns
      have shorter : rest'.length < n := by
        have suffix := (List.dropWhile_suffix (s.expired (times 0)) (l := rest)).length_le
        rw [left, List.length_cons] at suffix
        omega
      have there : t.At (before ++ [e]) rest' := by
        constructor
        case list => simpa using list
        case cursor => exact cursor
        case nodup =>
          have sub : t.bssList.Sublist s.bssList := by
            rw [list, h.list, ← left]
            exact (List.dropWhile_sublist _).append_left before
          exact h.nodup.sublist (sub.map _)
      have same : t.expired = s.expired := by
        funext now e
        rw [expired, expired, expire]
      obtain ⟨m, u, calls, after⟩ := ih _ shorter there (fun i => times (i + 1)) rfl
      rw [same] at calls after
      refine ⟨m + 1, u, ?_, ?_⟩
      · rw [keeps, goes, ← frees, List.range_succ_eq_map, List.map_cons, List.map_map]
        exact .next call calls
      · rw [keeps, after, List.append_assoc, List.singleton_append]

theorem rewind_at (nodup : s.addrs.Nodup) : s.rewind.At [] s.bssList := ⟨rfl, rfl, nodup⟩

/-! ## What should expire -/

/-- The entry is older than the expiry. There is none when the expiry is 0. -/
def outdated (s : ScanCache) (now : UInt32) (e : CacheEntry) : Bool :=
  s.cacheExpire ≠ 0 ∧ s.cacheExpire.toNat * 1000 < (now - e.localTimestamp).toNat ∧
    e.isPersistent = false

/-- The expiry in ms is right for the entry: it has 32 bits, or what is left of it in 32 bits is
not exceeded either. -/
def Undistorted (s : ScanCache) (x : CacheEntry × UInt32) : Prop :=
  s.cacheExpire.toNat * 1000 < 2 ^ 32 ∨ x.1.isPersistent = true ∨
    (x.2 - x.1.localTimestamp).toNat ≤ s.cacheExpire.toNat * 1000 % 2 ^ 32

theorem expired_eq_outdated_iff (s : ScanCache) (now : UInt32) (e : CacheEntry) :
    s.expired now e = s.outdated now e ↔ s.Undistorted (e, now) := by
  have age := (now - e.localTimestamp).toNat_lt
  have product : (s.cacheExpire * 1000).toNat = s.cacheExpire.toNat * 1000 % 2 ^ 32 :=
    UInt32.toNat_mul ..
  have set : s.cacheExpire ≠ 0 ↔ s.cacheExpire.toNat ≠ 0 := by
    rw [Ne, ← UInt32.toNat_inj]
    rfl
  rw [expired, outdated, decide_eq_decide, gt_iff_lt, UInt32.lt_iff_toNat_lt, product, set,
    Undistorted]
  cases e.isPersistent with
  | true => simp
  | false =>
    simp only [and_true, Bool.false_eq_true, false_or]
    omega

/-- Two rules keep the same of a list just when they say the same wherever an iteration comes. -/
theorem kept_eq_iff {drop drop' : UInt32 → CacheEntry → Bool} {l : List CacheEntry}
    (nodup : l.Nodup) (times : Nat → UInt32) :
    (kept drop times l = kept drop' times l ∧ gone drop times l = gone drop' times l) ↔
      ∀ x ∈ reached drop' times l, drop x.2 x.1 = drop' x.2 x.1 := by
  induction l generalizing times with
  | nil => simp [kept, gone, reached]
  | cons e l ih =>
    obtain ⟨new, nodup⟩ := List.nodup_cons.1 nodup
    rw [reached, List.forall_mem_cons]
    cases here : drop' (times 0) e with
    | true =>
      rw [if_pos rfl, kept_of_drop here, gone_of_drop here]
      cases there : drop (times 0) e with
      | true =>
        rw [kept_of_drop there, gone_of_drop there, ← ih nodup]
        simp
      | false =>
        rw [kept_of_keep there]
        simp only [Bool.false_eq_true, false_and, iff_false, not_and]
        intro same
        have mem : e ∈ kept drop' times l := same ▸ List.mem_cons_self
        exact absurd ((kept_sublist ..).subset mem) new
    | false =>
      rw [if_neg Bool.false_ne_true, kept_of_keep here, gone_of_keep here]
      cases there : drop (times 0) e with
      | true =>
        rw [kept_of_drop there]
        simp only [Bool.true_eq_false, false_and, iff_false, not_and]
        intro same
        have mem : e ∈ kept drop times l := same ▸ List.mem_cons_self
        exact absurd ((kept_sublist ..).subset mem) new
      | false =>
        rw [kept_of_keep there, gone_of_keep there, ← ih nodup]
        simp

/-- The iteration comes to an end, and it returns the entries that are persistent or not older
than the expiry, in the order of the list, frees the others and leaves just the former in the list,
just when the expiry is right for every entry that it comes to. -/
theorem iteration_exact_iff (s : ScanCache) (nodup : s.addrs.Nodup) (times : Nat → UInt32) :
    ∃ n found freed t, Calls s.rewind ((List.range n).map times) found freed t ∧
      t.bssList = found ∧ (found ++ freed).Perm s.bssList ∧
      ((found = kept s.outdated times s.bssList ∧ freed = gone s.outdated times s.bssList) ↔
        ∀ x ∈ reached s.outdated times s.bssList, s.Undistorted x) := by
  obtain ⟨n, t, calls, after⟩ := (rewind_at nodup).calls times
  refine ⟨n, _, _, t, calls, after, ?_, ?_⟩
  · exact kept_append_gone s.expired times s.bssList
  · rw [kept_eq_iff (List.Nodup.of_map _ nodup)]
    exact forall₂_congr fun x _ => s.expired_eq_outdated_iff x.2 x.1

/-- Three BSSs that were heard at different times, in a cache whose entries may be a second old. -/
def heardThrice : ScanCache :=
  (((init 1).registerBss ⟨2, 6, 50, .replicate 33 0, none, 1⟩ ⟨some 16, true, 0⟩).registerBss
    ⟨1, 1, 50, .replicate 33 0, none, 1⟩ ⟨some 32, true, 500⟩).registerBss
    ⟨3, 11, 50, .replicate 33 0, none, 1⟩ ⟨some 48, true, 900⟩

/-- The second of the list has not been heard for more than a second. -/
theorem iteration_exact_iff_heardThrice :
    ∃ n found freed t, Calls heardThrice.rewind ((List.range n).map fun _ => 1100) found freed t ∧
      t.bssList = found ∧ found.map (·.bss.bssid) = [1, 3] ∧ freed.map (·.bss.bssid) = [2] := by
  obtain ⟨n, found, freed, t, calls, after, -, exact⟩ :=
    iteration_exact_iff heardThrice (by decide) fun _ => 1100
  obtain ⟨rfl, rfl⟩ := exact.2 fun _ _ => .inl (by decide)
  exact ⟨n, _, _, t, calls, after, by decide, by decide⟩

/-- A BSS that was heard at time 0, in a cache whose entries may be 4294968 seconds old. -/
def heardOnce : ScanCache :=
  (init 4294968).registerBss ⟨1, 6, 50, .replicate 33 0, none, 1⟩ ⟨some 16, true, 0⟩

/-- One second later the BSS is far from outdated, and the iteration frees it. -/
theorem young_entry_freed :
    (heardOnce.rewind.getNextBss 1000).2 = none ∧
    heardOnce.rewind.freed 1000 = heardOnce.bssList ∧
    ∀ e ∈ heardOnce.bssList, heardOnce.outdated 1000 e = false := by
  decide

end ScanCache

end Wave300.Cache
