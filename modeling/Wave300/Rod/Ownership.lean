import Wave300.Lib.Trace
import Wave300.Rod.Lifetime

/-!
# The WSS object of a reordering queue

A queue in use owns one WSS object, and no other is left. Only a call that creates the queue while
it is in use breaks this: the pointer is overwritten before the object it led to is deleted, and a
failure then leaves the queue in use without an object of its own.
-/

namespace Wave300.Rod

open Wave300.Lib

variable {α : Type} {t : Nat} {q q' : Queue α}

/-- The queue has one live WSS object with open counters when it is in use, and else none. -/
structure Owns (q : Queue α) : Prop where
  used : q.used = true → ∃ id, q.wss = some id ∧ q.wssStore.live = [id] ∧ q.wssStore.opened = [id]
  unused : q.used = false → q.wssStore.live = [] ∧ q.wssStore.opened = []

/-- A new object is none of those there are. -/
def Numbered (q : Queue α) : Prop := ∀ id ∈ q.wssStore.live, id < q.wssStore.created

/-- A queue is not created while it is in use. -/
def Unoccupied (q : Queue α) : Call α → Prop
  | .create _ _ _ _ => q.used = false
  | .between _ => True

instance (q : Queue α) : ∀ c : Call α, Decidable (Unoccupied q c)
  | .create _ _ _ _ => inferInstanceAs (Decidable (q.used = false))
  | .between _ => .isTrue trivial

/-- What the calls keep. -/
structure Tended (q : Queue α) : Prop where
  owns : Owns q
  numbered : Numbered q

theorem Owns.zeroed : Owns (Queue.zeroed α) where
  used := by rintro ⟨⟩
  unused _ := ⟨rfl, rfl⟩

theorem Numbered.zeroed : Numbered (Queue.zeroed α) := by
  rintro id ⟨⟩

theorem Tended.zeroed : Tended (Queue.zeroed α) := ⟨.zeroed, .zeroed⟩

/-! ## What packets leave alone -/

/-- The fields that say which object the queue has. -/
def Queue.owned (q : Queue α) : Bool × Option Nat × WssStore := (q.used, q.wss, q.wssStore)

theorem used_of_owned (same : q'.owned = q.owned) : q'.used = q.used :=
  (Prod.mk.inj same).1

theorem wss_of_owned (same : q'.owned = q.owned) : q'.wss = q.wss :=
  (Prod.mk.inj (Prod.mk.inj same).2).1

theorem wssStore_of_owned (same : q'.owned = q.owned) : q'.wssStore = q.wssStore :=
  (Prod.mk.inj (Prod.mk.inj same).2).2

theorem Owns.congr (h : Owns q) (same : q'.owned = q.owned) : Owns q' := by
  constructor
  case used =>
    rw [used_of_owned same, wss_of_owned same, wssStore_of_owned same]
    exact h.used
  case unused =>
    rw [used_of_owned same, wssStore_of_owned same]
    exact h.unused

theorem Numbered.congr (h : Numbered q) (same : q'.owned = q.owned) : Numbered q' := by
  rw [Numbered, wssStore_of_owned same]
  exact h

theorem retireSlot_owned (q : Queue α) (slot : Nat) : (retireSlot t q slot).owned = q.owned := by
  cases hn : q.nbuf (slot % q.windowSize) with
  | none =>
    rw [retireSlot_none hn]
    rfl
  | some p =>
    rw [retireSlot_some hn]
    rfl

theorem owned_kept (o : Bool × Option Nat × WssStore) : Kept t fun q : Queue α => q.owned = o where
  retire q slot h := (retireSlot_owned q slot).trans h
  bump _ h := h
  reduce _ h := h
  touch _ _ _ h := h

theorem rodMoveWindow_owned (q : Queue α) (n : Nat) : (rodMoveWindow t q n).owned = q.owned :=
  (owned_kept q.owned).rodMoveWindow n rfl

theorem flush_owned (q : Queue α) : (mtlkFlushRodQueue t q).owned = q.owned :=
  (owned_kept q.owned).flush rfl

theorem retireLoop_owned (fuel loc : Nat) (q : Queue α) :
    (retireLoop t fuel loc q).owned = q.owned := by
  induction fuel generalizing loc q with
  | zero => rfl
  | succ fuel ih =>
    simp only [retireLoop]
    split
    · rfl
    · exact (ih _ _).trans (retireSlot_owned (q.touch loc) loc)

theorem retireRodQueue_owned (q : Queue α) : (retireRodQueue t q).owned = q.owned :=
  retireLoop_owned _ _ q

theorem storePacket_owned (q : Queue α) (p : Packet α) : (storePacket t q p).owned = q.owned := by
  cases hn : q.nbuf (p.seq % q.windowSize) with
  | none =>
    rw [storePacket_free hn]
    exact retireRodQueue_owned _
  | some holder =>
    rw [storePacket_taken hn]
    rfl

theorem reorderPacket_owned (q : Queue α) (p : Packet α) :
    (mtlkReorderPacket t q p).1.owned = q.owned := by
  simp only [mtlkReorderPacket]
  split
  · split
    · rfl
    · split
      · exact (storePacket_owned _ p).trans (rodMoveWindow_owned _ _)
      · exact storePacket_owned q p
  · rfl

theorem processBar_owned (q : Queue α) (ssn : Nat) :
    (mtlkRodProcessBar t q ssn).1.owned = q.owned := by
  simp only [mtlkRodProcessBar]
  split
  · split
    · rfl
    · exact (retireRodQueue_owned _).trans (rodMoveWindow_owned q _)
  · rfl

theorem timer_owned (timeout : Nat) (q : Queue α) :
    (mtlkHandleRodQueueTimer t timeout q).owned = q.owned := by
  simp only [mtlkHandleRodQueueTimer]
  split
  · exact flush_owned q
  · rfl

/-! ## Clearing and creating -/

theorem Owns.clear (h : Owns q) : Owns (mtlkClearRodQueue t q) := by
  cases hu : q.used with
  | false =>
    rw [mtlkClearRodQueue, if_neg (by simp [hu])]
    exact h
  | true =>
    obtain ⟨id, wss, live, opened⟩ := h.used hu
    have same := flush_owned (t := t) q
    simp only [mtlkClearRodQueue, hu, if_true, wss_of_owned same, wssStore_of_owned same, wss]
    constructor
    case used => rintro ⟨⟩
    case unused =>
      intro _
      simp only [Option.elim_some, live, opened, List.erase_cons_head, and_self]

theorem Numbered.clear (h : Numbered q) : Numbered (mtlkClearRodQueue t q) := by
  simp only [mtlkClearRodQueue]
  split
  · have same := flush_owned (t := t) q
    simp only [Numbered, wssStore_of_owned same]
    intro id mem
    cases hw : (mtlkFlushRodQueue t q).wss with
    | none =>
      rw [hw] at mem
      exact h id mem
    | some w =>
      rw [hw] at mem
      exact h id (List.mem_of_mem_erase mem)
  · exact h

/-- What is flushed before it is created anew keeps its object. -/
theorem emptied_owned (q : Queue α) :
    (if q.used then mtlkFlushRodQueue t q else q).owned = q.owned := by
  split
  · exact flush_owned q
  · rfl

theorem Numbered.create (h : Numbered q) (res : WssResult) (winSize ssn : Nat) :
    Numbered (mtlkCreateRodQueue t res q winSize ssn) := by
  have numbered := h.congr (emptied_owned (t := t) q)
  simp only [mtlkCreateRodQueue]
  generalize (if q.used then mtlkFlushRodQueue t q else q) = r at numbered ⊢
  have added : ∀ id ∈ r.wssStore.created :: r.wssStore.live, id < r.wssStore.created + 1 := by
    intro id mem
    rcases List.mem_cons.1 mem with rfl | old
    · exact Nat.lt_succ_self _
    · exact Nat.lt_succ_of_lt (numbered id old)
  split
  · split
    · exact added
    · exact fun id mem => added id (List.mem_of_mem_erase mem)
  · exact numbered

/-- Also a creation that fails leaves an unused queue without an object. -/
theorem Owns.create (h : Owns q) (unused : q.used = false) (res : WssResult) (winSize ssn : Nat) :
    Owns (mtlkCreateRodQueue t res q winSize ssn) := by
  obtain ⟨live, opened⟩ := h.unused unused
  simp only [mtlkCreateRodQueue, unused, Bool.false_eq_true, if_false, live, opened]
  split
  · split
    · constructor
      case used => exact fun _ => ⟨_, rfl, rfl, rfl⟩
      case unused => rintro ⟨⟩
    · constructor
      case used => rintro ⟨⟩
      case unused => exact fun _ => ⟨List.erase_cons_head _ _, rfl⟩
  · constructor
    case used => rintro ⟨⟩
    case unused => exact fun _ => ⟨live, opened⟩

/-- However it goes, the creation of a queue in use takes its object from it. -/
theorem Owns.not_create (h : Owns q) (numbered : Numbered q) (used : q.used = true)
    (res : WssResult) (winSize ssn : Nat) :
    ¬ Owns (mtlkCreateRodQueue t res q winSize ssn) := by
  intro after
  obtain ⟨id, -, live, -⟩ := h.used used
  have older : id < q.wssStore.created := numbered id (live ▸ List.mem_singleton_self id)
  have same := flush_owned (t := t) q
  have stays : (mtlkFlushRodQueue t q).used = true := (used_of_owned same).trans used
  obtain ⟨created, opened⟩ := res
  cases created with
  | true =>
    cases opened with
    | true =>
      obtain ⟨other, -, single, -⟩ := after.used rfl
      simp [mtlkCreateRodQueue, used, wssStore_of_owned same, live] at single
    | false =>
      obtain ⟨other, wss, single, -⟩ := after.used (by simp [mtlkCreateRodQueue, used, stays])
      simp [mtlkCreateRodQueue, used, wssStore_of_owned same, live] at wss single
      omega
  | false =>
    obtain ⟨other, wss, -, -⟩ := after.used (by simp [mtlkCreateRodQueue, used, stays])
    simp [mtlkCreateRodQueue, used] at wss

/-! ## Runs -/

theorem Numbered.call (h : Numbered q) (c : Call α) : Numbered (call q c) := by
  cases c with
  | create t res winSize ssn => exact h.create res winSize ssn
  | between op =>
    cases op with
    | packet t p => exact h.congr (reorderPacket_owned q p)
    | bar t ssn => exact h.congr (processBar_owned q ssn)
    | timer t timeout => exact h.congr (timer_owned timeout q)
    | clear t => exact h.clear

theorem owns_call_iff (h : Owns q) (numbered : Numbered q) (c : Call α) :
    Owns (call q c) ↔ Unoccupied q c := by
  cases c with
  | create t res winSize ssn =>
    constructor
    · intro after
      by_contra occupied
      exact h.not_create numbered (Bool.not_eq_false _ ▸ occupied) res winSize ssn after
    · exact fun unused => h.create unused res winSize ssn
  | between op =>
    refine iff_of_true ?_ trivial
    cases op with
    | packet t p => exact h.congr (reorderPacket_owned q p)
    | bar t ssn => exact h.congr (processBar_owned q ssn)
    | timer t timeout => exact h.congr (timer_owned timeout q)
    | clear t => exact h.clear

/-- Of any sequence of calls, each leaves the queue with an object of its own exactly when it is in
use, and no other object, if and only if none of them creates the queue while it is in use. -/
theorem calls_own_iff (calls : List (Call α)) :
    Allowed call (fun q c => Owns (call q c)) (.zeroed α) calls ↔
      Allowed call Unoccupied (.zeroed α) calls := by
  apply allowed_iff Tended.zeroed
  · exact fun q c h => owns_call_iff h.owns h.numbered c
  · exact fun q c h after => ⟨after, h.numbered.call c⟩

/-- The second creation of a queue leaves two live objects. When the counters of the second object
cannot be opened, the queue is in use with an object that is deleted, and when there is no second
object, it is in use without any. -/
theorem created_again_leaks :
    let again (res : WssResult) : List (Call Nat) :=
      [.create 0 ⟨true, true⟩ 64 0, .create 0 res 64 0]
    let after (res : WssResult) : Queue Nat := (again res).foldl call (.zeroed Nat)
    ¬ Allowed call (fun q c => Owns (call q c)) (.zeroed Nat) (again ⟨true, true⟩) ∧
      (after ⟨true, true⟩).wssStore.live = [1, 0] ∧
      ((after ⟨true, false⟩).used, (after ⟨true, false⟩).wss) = (true, some 1) ∧
      (after ⟨true, false⟩).wssStore.live = [0] ∧
      ((after ⟨false, false⟩).used, (after ⟨false, false⟩).wss) = (true, none) ∧
      (after ⟨false, false⟩).wssStore.live = [0] := by
  refine ⟨?_, by decide, by decide, by decide, by decide, by decide⟩
  rintro ⟨-, second, -⟩
  obtain ⟨id, -, live, -⟩ := second.used rfl
  cases live

end Wave300.Rod
