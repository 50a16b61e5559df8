import Mathlib.Algebra.Order.Group.Multiset
import Mathlib.Order.Interval.Finset.Nat
import Wave300.Lib.Slots
import Wave300.Rod.Queue

/-!
# What the loops of the reordering queue keep

`rod_move_window`, `mtlk_flush_rod_queue` and `retire_rod_queue` are made of the same few
moves: retire a slot, advance the head, reduce it, look at a slot. `Kept` says that the
moves keep a property, and then the loops do. The properties here do not depend on how
the window lies in the sequence space.
-/

namespace Wave300.Rod

open Wave300.Lib

variable {α : Type} {t : Nat}

/-- The packets in the slots of the window. -/
def Queue.held (q : Queue α) : Multiset (Packet α) := contents q.nbuf q.windowSize

/-- Every packet that came in, wherever it went. -/
def Queue.account (q : Queue α) : Multiset (Packet α) :=
  (q.sentUp.map Delivery.packet : Multiset (Packet α)) +
    (q.drops.map Drop.packet : Multiset (Packet α)) + q.held

structure Bookkept (q : Queue α) : Prop where
  window : 0 < q.windowSize
  count : q.count = q.held.card
  beyond : ∀ i, q.windowSize ≤ i → q.nbuf i = none
  slot : ∀ i p, q.nbuf i = some p → p.seq % q.windowSize = i

@[simp] theorem bump_windowSize (q : Queue α) : q.bump.windowSize = q.windowSize := rfl

@[simp] theorem touch_windowSize (q : Queue α) (i : Nat) :
    (q.touch i).windowSize = q.windowSize := rfl

@[simp] theorem touch_nbuf (q : Queue α) (i : Nat) : (q.touch i).nbuf = q.nbuf := rfl

@[simp] theorem tally_windowSize (q : Queue α) (f : Stats → Stats) :
    (q.tally f).windowSize = q.windowSize := rfl

theorem retireSlot_some {q : Queue α} {slot : Nat} {p : Packet α}
    (h : q.nbuf (slot % q.windowSize) = some p) :
    retireSlot t q slot =
      { q with
        touched := slot % q.windowSize :: q.touched
        sentUp := q.sentUp ++ [⟨some q.pos, p⟩]
        nbuf := Function.update q.nbuf (slot % q.windowSize) none
        lastSent := t
        count := q.count - 1 } := by
  simp only [retireSlot, Queue.touch, h]

theorem retireSlot_none {q : Queue α} {slot : Nat} (h : q.nbuf (slot % q.windowSize) = none) :
    retireSlot t q slot =
      (q.touch (slot % q.windowSize)).tally fun s => { s with lost := s.lost + 1 } := by
  simp only [retireSlot, Queue.touch, h]

/-- The slot is free afterwards, whether or not it held a packet. -/
theorem retireSlot_nbuf (q : Queue α) (slot : Nat) :
    (retireSlot t q slot).nbuf = Function.update q.nbuf (slot % q.windowSize) none := by
  cases h : q.nbuf (slot % q.windowSize) with
  | none =>
    rw [retireSlot_none h]
    exact (Function.update_eq_self_iff.mpr h.symm).symm
  | some p => rw [retireSlot_some h]

@[simp] theorem retireSlot_windowSize (q : Queue α) (slot : Nat) :
    (retireSlot t q slot).windowSize = q.windowSize := by
  cases h : q.nbuf (slot % q.windowSize) with
  | none => rw [retireSlot_none h]; rfl
  | some p => rw [retireSlot_some h]

/-- The moves the loops are made of keep `P`. -/
structure Kept (t : Nat) (P : Queue α → Prop) : Prop where
  retire : ∀ q slot, P q → P (retireSlot t q slot)
  bump : ∀ q, P q → P q.bump
  reduce : ∀ q, P q → P q.reduce
  touch : ∀ q loc, loc < q.windowSize → P q → P (q.touch loc)

section
variable {P : Queue α → Prop} (hk : Kept t P)
include hk

theorem Kept.moveLoop (n : Nat) {q : Queue α} (h : P q) : P (moveLoop t n q) := by
  induction n generalizing q with
  | zero => exact h
  | succ n ih => exact ih (hk.bump _ (hk.retire q q.head h))

theorem Kept.rodMoveWindow (n : Nat) {q : Queue α} (h : P q) : P (rodMoveWindow t q n) :=
  hk.reduce _ (hk.moveLoop n h)

theorem Kept.flushLoop (fuel : Nat) {q : Queue α} (h : P q) : P (flushLoop t fuel q) := by
  induction fuel generalizing q with
  | zero => exact h
  | succ fuel ih =>
    simp only [Rod.flushLoop]
    split
    · exact h
    · exact ih (hk.rodMoveWindow 1 h)

theorem Kept.flush {q : Queue α} (h : P q) : P (mtlkFlushRodQueue t q) :=
  hk.flushLoop _ h

theorem Kept.retireLoop (fuel : Nat) {loc : Nat} {q : Queue α} (hl : loc < q.windowSize)
    (h : P q) : P (retireLoop t fuel loc q) := by
  induction fuel generalizing loc q with
  | zero => exact h
  | succ fuel ih =>
    simp only [Rod.retireLoop, touch_nbuf]
    have ht := hk.touch q loc hl h
    cases q.nbuf loc with
    | none => exact ht
    | some p =>
      refine ih ?_ (hk.bump _ (hk.retire _ loc ht))
      simp only [bump_windowSize, retireSlot_windowSize, touch_windowSize]
      split <;> omega

theorem Kept.retireRodQueue {q : Queue α} (hw : 0 < q.windowSize) (h : P q) :
    P (retireRodQueue t q) :=
  hk.reduce _ (hk.retireLoop _ (Nat.mod_lt _ hw) h)

end

/-- What a queue has in common with the one a loop started from. -/
structure Steady (q₀ q : Queue α) : Prop where
  used : q.used = q₀.used
  windowSize : q.windowSize = q₀.windowSize
  drops : q.drops = q₀.drops
  account : q.account = q₀.account
  bookkept : Bookkept q

theorem Steady.refl {q : Queue α} (h : Bookkept q) : Steady q q := ⟨rfl, rfl, rfl, rfl, h⟩

theorem Bookkept.tally {q : Queue α} (h : Bookkept q) (f : Stats → Stats) :
    Bookkept (q.tally f) :=
  ⟨h.window, h.count, h.beyond, h.slot⟩

theorem tally_steady {q : Queue α} (h : Bookkept q) (f : Stats → Stats) :
    Steady q (q.tally f) :=
  ⟨rfl, rfl, rfl, rfl, h.tally f⟩

theorem Bookkept.retireSlot {q : Queue α} (h : Bookkept q) (slot : Nat) :
    Bookkept (retireSlot t q slot) := by
  have hs := Nat.mod_lt slot h.window
  cases hn : q.nbuf (slot % q.windowSize) with
  | none =>
    rw [retireSlot_none hn]
    exact ⟨h.window, h.count, h.beyond, h.slot⟩
  | some p =>
    rw [retireSlot_some hn]
    have clear := contents_clear hs hn
    constructor
    case window => exact h.window
    case count =>
      have hc := h.count
      rw [Queue.held, clear, Multiset.card_cons] at hc
      simp only [Queue.held]
      omega
    case beyond =>
      intro i hi
      have ne : i ≠ slot % q.windowSize := by
        intro e
        simp only at hi
        omega
      exact (Function.update_of_ne ne _ _).trans (h.beyond i hi)
    case slot =>
      intro i r hr
      simp only [Function.update_apply] at hr
      split at hr
      · cases hr
      · exact h.slot i r hr

theorem retireSlot_account {q : Queue α} (h : Bookkept q) (slot : Nat) :
    (retireSlot t q slot).account = q.account := by
  have hs := Nat.mod_lt slot h.window
  cases hn : q.nbuf (slot % q.windowSize) with
  | none => rw [retireSlot_none hn]; rfl
  | some p =>
    rw [retireSlot_some hn]
    simp only [Queue.account, Queue.held, contents_clear hs hn, List.map_append, List.map_cons,
      List.map_nil, ← Multiset.coe_add, ← Multiset.singleton_add, Multiset.coe_singleton]
    simp only [add_assoc, add_comm, add_left_comm]

theorem retireSlot_used (q : Queue α) (slot : Nat) : (retireSlot t q slot).used = q.used := by
  cases h : q.nbuf (slot % q.windowSize) with
  | none => rw [retireSlot_none h]; rfl
  | some p => rw [retireSlot_some h]

theorem retireSlot_drops (q : Queue α) (slot : Nat) :
    (retireSlot t q slot).drops = q.drops := by
  cases h : q.nbuf (slot % q.windowSize) with
  | none => rw [retireSlot_none h]; rfl
  | some p => rw [retireSlot_some h]

theorem steady_kept (q₀ : Queue α) : Kept t (Steady q₀) where
  retire q slot h :=
    { used := (retireSlot_used q slot).trans h.used
      windowSize := (retireSlot_windowSize q slot).trans h.windowSize
      drops := (retireSlot_drops q slot).trans h.drops
      account := (retireSlot_account h.bookkept slot).trans h.account
      bookkept := h.bookkept.retireSlot slot }
  bump _ h :=
    ⟨h.used, h.windowSize, h.drops, h.account,
      ⟨h.bookkept.window, h.bookkept.count, h.bookkept.beyond, h.bookkept.slot⟩⟩
  reduce _ h :=
    ⟨h.used, h.windowSize, h.drops, h.account,
      ⟨h.bookkept.window, h.bookkept.count, h.bookkept.beyond, h.bookkept.slot⟩⟩
  touch _ _ _ h :=
    ⟨h.used, h.windowSize, h.drops, h.account,
      ⟨h.bookkept.window, h.bookkept.count, h.bookkept.beyond, h.bookkept.slot⟩⟩

theorem rodMoveWindow_steady {q : Queue α} (h : Bookkept q) (n : Nat) :
    Steady q (rodMoveWindow t q n) :=
  (steady_kept q).rodMoveWindow n (.refl h)

theorem flush_steady {q : Queue α} (h : Bookkept q) : Steady q (mtlkFlushRodQueue t q) :=
  (steady_kept q).flush (.refl h)

theorem retireRodQueue_steady {q : Queue α} (h : Bookkept q) :
    Steady q (retireRodQueue t q) :=
  (steady_kept q).retireRodQueue h.window (.refl h)

/-- The packets a call hands in. -/
def Op.offered : Op α → List (Packet α)
  | packet _ p => [p]
  | _ => []

/-- What a call has to do with the queue it is made on. -/
structure Stepped (offered : List (Packet α)) (q₀ q : Queue α) : Prop where
  windowSize : q.windowSize = q₀.windowSize
  account : q.account = q₀.account + offered
  bookkept : Bookkept q

theorem Steady.stepped {q₀ q : Queue α} (h : Steady q₀ q) : Stepped [] q₀ q :=
  ⟨h.windowSize, by simp [h.account], h.bookkept⟩

theorem Stepped.after {l : List (Packet α)} {q₀ q₁ q : Queue α} (h₁ : Steady q₀ q₁)
    (h : Stepped l q₁ q) : Stepped l q₀ q where
  windowSize := h.windowSize.trans h₁.windowSize
  account := by rw [h.account, h₁.account]
  bookkept := h.bookkept

/-- The queue right after a packet went into its empty slot. -/
theorem stored_stepped {q : Queue α} (h : Bookkept q) {p : Packet α}
    (hn : q.nbuf (p.seq % q.windowSize) = none) :
    Stepped [p] q
      { q.touch (p.seq % q.windowSize) with
        nbuf := Function.update q.nbuf (p.seq % q.windowSize) (some p)
        count := q.count + 1 } := by
  have hs := Nat.mod_lt p.seq h.window
  have fill := contents_fill p hs hn
  refine ⟨rfl, ?_, ⟨h.window, ?_, ?_, ?_⟩⟩
  · simp only [Queue.account, Queue.held, Queue.touch, fill, ← Multiset.singleton_add,
      Multiset.coe_singleton]
    simp only [add_assoc, add_comm]
  · simp only [Queue.held, Queue.touch, fill, Multiset.card_cons]
    rw [h.count, Queue.held]
  · intro i hi
    have ne : i ≠ p.seq % q.windowSize := by
      intro e
      simp only [touch_windowSize] at hi
      omega
    exact (Function.update_of_ne ne _ _).trans (h.beyond i hi)
  · intro i r hr
    simp only [Function.update_apply] at hr
    split at hr
    · rename_i e
      cases hr
      exact e.symm
    · exact h.slot i r hr

theorem dropped_stepped {q : Queue α} (h : Bookkept q) (d : Drop α) :
    Stepped [d.packet] q { q with drops := q.drops ++ [d] } := by
  refine ⟨rfl, ?_, ⟨h.window, h.count, h.beyond, h.slot⟩⟩
  simp only [Queue.account, Queue.held, List.map_append, List.map_cons, List.map_nil,
    ← Multiset.coe_add]
  simp only [add_assoc, add_comm, add_left_comm]

theorem Stepped.thenSteady {l : List (Packet α)} {q₀ q₁ q : Queue α} (h₁ : Stepped l q₀ q₁)
    (h : Steady q₁ q) : Stepped l q₀ q where
  windowSize := h.windowSize.trans h₁.windowSize
  account := by rw [h.account, h₁.account]
  bookkept := h.bookkept

/-! ## One call -/

theorem storePacket_free {q : Queue α} {p : Packet α}
    (h : q.nbuf (p.seq % q.windowSize) = none) :
    storePacket t q p = retireRodQueue t
      (Queue.tally { q.touch (p.seq % q.windowSize) with
        nbuf := Function.update q.nbuf (p.seq % q.windowSize) (some p)
        count := q.count + 1 } fun s => { s with queued := s.queued + 1 }) := by
  simp only [storePacket, touch_nbuf, h]
  rfl

theorem storePacket_taken {q : Queue α} {p holder : Packet α}
    (h : q.nbuf (p.seq % q.windowSize) = some holder) :
    storePacket t q p =
      Queue.tally { q.touch (p.seq % q.windowSize) with
        drops := q.drops ++ [Drop.duplicate p holder] } fun s =>
          { s with duplicate := s.duplicate + 1 } := by
  simp only [storePacket, touch_nbuf, h]
  rfl

theorem reorderPacket_unused {q : Queue α} (h : q.used = false) (p : Packet α) :
    (mtlkReorderPacket t q p).1 = { q with sentUp := q.sentUp ++ [⟨none, p⟩] } := by
  simp [mtlkReorderPacket, h]

theorem reorderPacket_tooOld {q : Queue α} (h : q.used = true) {p : Packet α}
    (hd : sequenceNumberLimit / 2 < seqDistance q.head p.seq) :
    (mtlkReorderPacket t q p).1 =
      Queue.tally { q with drops := q.drops ++ [.tooOld p] } fun s =>
        { s with tooOld := s.tooOld + 1 } := by
  simp [mtlkReorderPacket, h, hd]

theorem reorderPacket_ahead {q : Queue α} (h : q.used = true) {p : Packet α}
    (hd : ¬ sequenceNumberLimit / 2 < seqDistance q.head p.seq)
    (hw : q.windowSize ≤ seqDistance q.head p.seq) :
    (mtlkReorderPacket t q p).1 =
      storePacket t (rodMoveWindow t (q.tally fun s => { s with overflows := s.overflows + 1 })
        (seqDistance q.head p.seq - q.windowSize + 1)) p := by
  simp only [mtlkReorderPacket, h, hd, hw, ↓reduceIte, tally_windowSize]

theorem reorderPacket_inside {q : Queue α} (h : q.used = true) {p : Packet α}
    (hd : ¬ sequenceNumberLimit / 2 < seqDistance q.head p.seq)
    (hw : ¬ q.windowSize ≤ seqDistance q.head p.seq) :
    (mtlkReorderPacket t q p).1 = storePacket t q p := by
  simp only [mtlkReorderPacket, h, hd, hw, ↓reduceIte]

theorem storePacket_stepped {q : Queue α} (h : Bookkept q) (p : Packet α) :
    Stepped [p] q (storePacket t q p) := by
  cases hn : q.nbuf (p.seq % q.windowSize) with
  | none =>
    have stored := stored_stepped h hn
    rw [storePacket_free hn]
    exact (stored.thenSteady (tally_steady stored.bookkept _)).thenSteady
      (retireRodQueue_steady (stored.bookkept.tally _))
  | some holder =>
    have touched := (steady_kept (t := t) q).touch q (p.seq % q.windowSize)
      (Nat.mod_lt _ h.window) (.refl h)
    have dropped := dropped_stepped touched.bookkept (.duplicate p holder)
    rw [storePacket_taken hn]
    exact (dropped.thenSteady (tally_steady dropped.bookkept _)).after touched

theorem reorderPacket_stepped {q : Queue α} (h : Bookkept q) (p : Packet α) :
    Stepped [p] q (mtlkReorderPacket t q p).1 := by
  cases hu : q.used with
  | false =>
    rw [reorderPacket_unused hu]
    refine ⟨rfl, ?_, ⟨h.window, h.count, h.beyond, h.slot⟩⟩
    simp only [Queue.account, Queue.held, List.map_append, List.map_cons, List.map_nil,
      ← Multiset.coe_add]
    simp only [add_comm, add_left_comm]
  | true =>
    by_cases old : sequenceNumberLimit / 2 < seqDistance q.head p.seq
    · have dropped := dropped_stepped h (.tooOld p)
      rw [reorderPacket_tooOld hu old]
      exact dropped.thenSteady (tally_steady dropped.bookkept _)
    · by_cases ahead : q.windowSize ≤ seqDistance q.head p.seq
      · have moved := rodMoveWindow_steady (t := t)
          (h.tally fun s => { s with overflows := s.overflows + 1 })
          (seqDistance q.head p.seq - q.windowSize + 1)
        rw [reorderPacket_ahead hu old ahead]
        exact ((storePacket_stepped moved.bookkept p).after moved).after (tally_steady h _)
      · rw [reorderPacket_inside hu old ahead]
        exact storePacket_stepped h p

/-- One call keeps the books: nothing is lost and nothing is counted twice. -/
theorem step_stepped {q : Queue α} (h : Bookkept q) (op : Op α) :
    Stepped op.offered q (step q op) := by
  cases op with
  | packet t p => exact reorderPacket_stepped h p
  | bar t ssn =>
    simp only [step, mtlkRodProcessBar]
    split
    · split
      · exact (Steady.refl h).stepped
      · have moved := rodMoveWindow_steady (t := t) h (seqDistance q.head ssn)
        exact (retireRodQueue_steady moved.bookkept).stepped.after moved
    · exact (Steady.refl h).stepped
  | timer t timeout =>
    simp only [step, mtlkHandleRodQueueTimer]
    split
    · exact (flush_steady h).stepped
    · exact (Steady.refl h).stepped
  | clear t =>
    simp only [step, mtlkClearRodQueue]
    split
    · have flushed := (flush_steady (t := t) h).stepped
      have hb := flushed.bookkept
      exact ⟨flushed.windowSize, flushed.account,
        ⟨hb.window, hb.count, hb.beyond, hb.slot⟩⟩
    · exact (Steady.refl h).stepped

/-- Any number of calls keep the books. -/
theorem run_stepped {q : Queue α} (h : Bookkept q) (ops : List (Op α)) :
    Stepped (ops.flatMap Op.offered) q (run q ops) := by
  induction ops generalizing q with
  | nil => exact (Steady.refl h).stepped
  | cons op ops ih =>
    have one := step_stepped h op
    have rest := ih one.bookkept
    refine ⟨rest.windowSize.trans one.windowSize, ?_, rest.bookkept⟩
    simp only [run, List.foldl_cons, List.flatMap_cons, ← Multiset.coe_add] at rest ⊢
    rw [rest.account, one.account, add_assoc]

theorem fresh_bookkept {w : Nat} (hw : 0 < w) (ssn : Nat) : Bookkept (fresh α t w ssn) := by
  refine ⟨hw, ?_, fun _ _ => rfl, fun i p h => by cases h⟩
  have empty : contents (fun _ => none : Nat → Option (Packet α)) w = 0 :=
    contents_eq_zero.mpr (fun _ _ => rfl)
  exact (congrArg Multiset.card empty).symm

/-! ## The loops end within the rounds they are given -/

theorem Bookkept.count_le {q : Queue α} (h : Bookkept q) : q.count ≤ q.windowSize := by
  rw [h.count]
  exact card_contents_le q.nbuf q.windowSize

theorem Bookkept.count_pos {q : Queue α} (h : Bookkept q) {slot : Nat} {p : Packet α}
    (inside : slot < q.windowSize) (hp : q.nbuf slot = some p) : 0 < q.count := by
  rw [h.count, Queue.held, contents_clear inside hp, Multiset.card_cons]
  exact Nat.succ_pos _

/-- `retire_rod_queue` retires a packet in every round but the last, so rounds beyond the
number of packets change nothing. -/
theorem retireLoop_ends {q : Queue α} (h : Bookkept q) {fuel loc : Nat} (enough : q.count < fuel)
    (inside : loc < q.windowSize) (more : Nat) :
    retireLoop t (fuel + more) loc q = retireLoop t fuel loc q := by
  induction fuel generalizing q loc with
  | zero => exact absurd enough (Nat.not_lt_zero _)
  | succ fuel ih =>
    rw [Nat.add_right_comm]
    simp only [retireLoop, touch_nbuf]
    cases hn : q.nbuf loc with
    | none => rfl
    | some p =>
      have pos := h.count_pos inside hn
      have here : (q.touch loc).nbuf (loc % (q.touch loc).windowSize) = some p := by
        rw [touch_windowSize, Nat.mod_eq_of_lt inside]
        exact hn
      have touched : Bookkept (q.touch loc) := ⟨h.window, h.count, h.beyond, h.slot⟩
      have retired := touched.retireSlot (t := t) loc
      have bumped : Bookkept (retireSlot t (q.touch loc) loc).bump :=
        ⟨retired.window, retired.count, retired.beyond, retired.slot⟩
      simp only
      apply ih bumped
      · rw [retireSlot_some here]
        change q.count - 1 < fuel
        omega
      · simp only [bump_windowSize, retireSlot_windowSize, touch_windowSize]
        split <;> omega

theorem retireRodQueue_ends {q : Queue α} (h : Bookkept q) (more : Nat) :
    (retireLoop t (q.windowSize + 1 + more) (q.head % q.windowSize) q).reduce =
      retireRodQueue t q := by
  rw [retireLoop_ends h (Nat.lt_succ_of_le h.count_le) (Nat.mod_lt _ h.window)]
  rfl

theorem exists_in_window {w : Nat} (a : Nat) {i : Nat} (hi : i < w) :
    ∃ n, (a ≤ n ∧ n < a + w) ∧ n % w = i := by
  have mem : i ∈ (Finset.Ico a (a + w)).image (· % w) := by
    rw [Nat.image_Ico_mod]
    exact Finset.mem_range.mpr hi
  obtain ⟨n, hn, he⟩ := Finset.mem_image.mp mem
  exact ⟨n, Finset.mem_Ico.mp hn, he⟩

/-- The slots that are still to come by in `fuel` rounds of the flush. -/
def Ahead (q : Queue α) (fuel slot : Nat) : Prop :=
  ∃ i, i < fuel ∧ (q.head + i) % sequenceNumberLimit % q.windowSize = slot

theorem moveOne_head (q : Queue α) :
    (rodMoveWindow t q 1).head = (q.head + 1) % sequenceNumberLimit := by
  cases h : q.nbuf (q.head % q.windowSize) with
  | none => simp only [rodMoveWindow, moveLoop, Queue.reduce, Queue.bump, retireSlot_none h]; rfl
  | some p => simp only [rodMoveWindow, moveLoop, Queue.reduce, Queue.bump, retireSlot_some h]

theorem moveOne_nbuf (q : Queue α) : (rodMoveWindow t q 1).nbuf =
    Function.update q.nbuf (q.head % q.windowSize) none := retireSlot_nbuf q q.head

/-- A round retires the slot at the head, and the others have one round less to come by. -/
theorem Ahead.moveOne {q : Queue α} (head : q.head < sequenceNumberLimit) {fuel slot : Nat}
    (h : Ahead q (fuel + 1) slot) (other : slot ≠ q.head % q.windowSize)
    (same : (rodMoveWindow t q 1).windowSize = q.windowSize) :
    Ahead (rodMoveWindow t q 1) fuel slot := by
  obtain ⟨i, lt, rfl⟩ := h
  cases i with
  | zero =>
    rw [Nat.add_zero, Nat.mod_eq_of_lt head] at other
    exact absurd rfl other
  | succ i =>
    refine ⟨i, Nat.lt_of_succ_lt_succ lt, ?_⟩
    rw [moveOne_head, same, Nat.mod_add_mod, Nat.add_right_comm, Nat.add_assoc]

/-- The flush ends with an empty queue once every packet is ahead. -/
theorem flushLoop_count {q : Queue α} (h : Bookkept q) (head : q.head < sequenceNumberLimit)
    {fuel : Nat} (ahead : ∀ slot, q.nbuf slot ≠ none → Ahead q fuel slot) :
    (flushLoop t fuel q).count = 0 := by
  induction fuel generalizing q with
  | zero =>
    have empty : q.held = 0 := by
      apply contents_eq_zero.mpr
      intro slot _
      by_contra held
      obtain ⟨i, lt, _⟩ := ahead slot held
      exact Nat.not_lt_zero i lt
    rw [flushLoop, h.count, empty, Multiset.card_zero]
  | succ fuel ih =>
    rw [flushLoop]
    split
    · assumption
    · have moved := rodMoveWindow_steady (t := t) h 1
      apply ih moved.bookkept
      · rw [moveOne_head]
        exact Nat.mod_lt _ (by decide)
      · intro slot held
        rw [moveOne_nbuf] at held
        have other : slot ≠ q.head % q.windowSize := by
          rintro rfl
          exact held (Function.update_self ..)
        rw [Function.update_of_ne other] at held
        exact (ahead slot held).moveOne head other moved.windowSize

/-- `mtlk_flush_rod_queue` ends with an empty queue, whatever the window: a slot comes by
before the head wraps, or within a window after it. -/
theorem flush_count {q : Queue α} (h : Bookkept q) (head : q.head < sequenceNumberLimit)
    (window : q.windowSize ≤ sequenceNumberLimit) : (mtlkFlushRodQueue t q).count = 0 := by
  apply flushLoop_count h head
  intro slot held
  have inside : slot < q.windowSize := by
    by_contra beyond
    exact held (h.beyond slot (Nat.le_of_not_lt beyond))
  by_cases wraps : q.head + q.windowSize ≤ sequenceNumberLimit
  · obtain ⟨n, near, at_slot⟩ := exists_in_window q.head inside
    refine ⟨n - q.head, by omega, ?_⟩
    have below : n < sequenceNumberLimit := by omega
    rw [show q.head + (n - q.head) = n by omega, Nat.mod_eq_of_lt below, at_slot]
  · refine ⟨sequenceNumberLimit - q.head + slot, by omega, ?_⟩
    rw [show q.head + (sequenceNumberLimit - q.head + slot) = slot + sequenceNumberLimit by omega,
      Nat.add_mod_right, Nat.mod_eq_of_lt (Nat.lt_of_lt_of_le inside window),
      Nat.mod_eq_of_lt inside]

/-! The head is reduced between the calls, so every flush of a run ends. -/

theorem retireRodQueue_head_lt (q : Queue α) :
    (retireRodQueue t q).head < sequenceNumberLimit :=
  Nat.mod_lt _ (by decide)

theorem flushLoop_head_lt {q : Queue α} (head : q.head < sequenceNumberLimit) (fuel : Nat) :
    (flushLoop t fuel q).head < sequenceNumberLimit := by
  induction fuel generalizing q with
  | zero => exact head
  | succ fuel ih =>
    rw [flushLoop]
    split
    · exact head
    · apply ih
      rw [moveOne_head]
      exact Nat.mod_lt _ (by decide)

theorem storePacket_head_lt {q : Queue α} (head : q.head < sequenceNumberLimit) (p : Packet α) :
    (storePacket t q p).head < sequenceNumberLimit := by
  cases hn : q.nbuf (p.seq % q.windowSize) with
  | none =>
    rw [storePacket_free hn]
    exact retireRodQueue_head_lt _
  | some holder =>
    rw [storePacket_taken hn]
    exact head

theorem step_head_lt {q : Queue α} (head : q.head < sequenceNumberLimit) (op : Op α) :
    (step q op).head < sequenceNumberLimit := by
  cases op with
  | packet t p =>
    simp only [step]
    cases hu : q.used with
    | false =>
      rw [reorderPacket_unused hu]
      exact head
    | true =>
      by_cases old : sequenceNumberLimit / 2 < seqDistance q.head p.seq
      · rw [reorderPacket_tooOld hu old]
        exact head
      · by_cases ahead : q.windowSize ≤ seqDistance q.head p.seq
        · rw [reorderPacket_ahead hu old ahead]
          exact storePacket_head_lt (Nat.mod_lt _ (by decide)) p
        · rw [reorderPacket_inside hu old ahead]
          exact storePacket_head_lt head p
  | bar t ssn =>
    simp only [step, mtlkRodProcessBar]
    split
    · split
      · exact head
      · exact retireRodQueue_head_lt _
    · exact head
  | timer t timeout =>
    simp only [step, mtlkHandleRodQueueTimer]
    split
    · exact flushLoop_head_lt head _
    · exact head
  | clear t =>
    simp only [step, mtlkClearRodQueue]
    split
    · exact flushLoop_head_lt head _
    · exact head

/-- Wherever a run stands, for whatever window, flushing the queue empties it. -/
theorem run_flush_count {w ssn : Nat} (hw : 0 < w) (window : w ≤ sequenceNumberLimit)
    (hs : ssn < sequenceNumberLimit) (ops : List (Op α)) :
    (mtlkFlushRodQueue t (run (fresh α t w ssn) ops)).count = 0 := by
  have stepped := run_stepped (fresh_bookkept (α := α) (t := t) hw ssn) ops
  apply flush_count stepped.bookkept
  · exact List.foldlRecOn (motive := fun q => q.head < sequenceNumberLimit) ops step
      (b := fresh α t w ssn) hs fun _ head op _ => step_head_lt head op
  · rw [stepped.windowSize]
    exact window

/-! ## Which slots are touched -/

/-- The window is `w` and only slots of it were touched, beside those of `T`. -/
structure Within (T : List Nat) (w : Nat) (q : Queue α) : Prop where
  windowSize : q.windowSize = w
  touched : ∀ i ∈ q.touched, i ∈ T ∨ i < w

section
variable {T : List Nat} {w : Nat} {q : Queue α}

theorem Within.touch (h : Within T w q) {loc : Nat} (hl : loc < w) : Within T w (q.touch loc) where
  windowSize := h.windowSize
  touched := by
    intro i hi
    rcases List.mem_cons.mp hi with rfl | hi
    · exact Or.inr hl
    · exact h.touched i hi

theorem Within.tally (h : Within T w q) (f : Stats → Stats) : Within T w (q.tally f) :=
  ⟨h.windowSize, h.touched⟩

theorem within_kept (hw : 0 < w) : Kept t (Within (α := α) T w) where
  retire q slot h := by
    have hs : slot % q.windowSize < w := h.windowSize ▸ Nat.mod_lt slot (h.windowSize ▸ hw)
    have touched := h.touch hs
    cases hn : q.nbuf (slot % q.windowSize) with
    | none =>
      rw [retireSlot_none hn]
      exact touched.tally _
    | some p =>
      rw [retireSlot_some hn]
      exact ⟨touched.windowSize, touched.touched⟩
  bump _ h := ⟨h.windowSize, h.touched⟩
  reduce _ h := ⟨h.windowSize, h.touched⟩
  touch q loc hl h := h.touch (h.windowSize ▸ hl)

theorem storePacket_within (hw : 0 < w) (h : Within T w q) (p : Packet α) :
    Within T w (storePacket t q p) := by
  have hs : p.seq % q.windowSize < w := h.windowSize ▸ Nat.mod_lt _ (h.windowSize ▸ hw)
  have touched := h.touch hs
  cases hn : q.nbuf (p.seq % q.windowSize) with
  | none =>
    rw [storePacket_free hn]
    apply (within_kept hw).retireRodQueue
    · rw [tally_windowSize]
      exact h.windowSize ▸ hw
    · exact ⟨touched.windowSize, touched.touched⟩
  | some holder =>
    rw [storePacket_taken hn]
    exact ⟨touched.windowSize, touched.touched⟩

/-- Whatever the queue holds, a call touches slots of the window only. -/
theorem step_within (hw : 0 < w) (h : Within T w q) (op : Op α) : Within T w (step q op) := by
  cases op with
  | packet t p =>
    simp only [step]
    cases hu : q.used with
    | false =>
      rw [reorderPacket_unused hu]
      exact ⟨h.windowSize, h.touched⟩
    | true =>
      by_cases old : sequenceNumberLimit / 2 < seqDistance q.head p.seq
      · rw [reorderPacket_tooOld hu old]
        exact ⟨h.windowSize, h.touched⟩
      · by_cases ahead : q.windowSize ≤ seqDistance q.head p.seq
        · rw [reorderPacket_ahead hu old ahead]
          exact storePacket_within hw ((within_kept hw).rodMoveWindow _ (h.tally _)) p
        · rw [reorderPacket_inside hu old ahead]
          exact storePacket_within hw h p
  | bar t ssn =>
    simp only [step, mtlkRodProcessBar]
    split
    · split
      · exact h
      · have moved := (within_kept (t := t) hw).rodMoveWindow (seqDistance q.head ssn) h
        exact (within_kept hw).retireRodQueue (moved.windowSize ▸ hw) moved
    · exact h
  | timer t timeout =>
    simp only [step, mtlkHandleRodQueueTimer]
    split
    · exact (within_kept hw).flush h
    · exact h
  | clear t =>
    simp only [step, mtlkClearRodQueue]
    split
    · have flushed := (within_kept (t := t) hw).flush h
      exact ⟨flushed.windowSize, flushed.touched⟩
    · exact h

theorem run_within (hw : 0 < w) (h : Within T w q) (ops : List (Op α)) : Within T w (run q ops) :=
  List.foldlRecOn ops step h fun _ hq op _ => step_within hw hq op

end

end Wave300.Rod
