import Wave300.Rod.Refinement

/-!
# In which order packets are sent up

For the windows that divide the sequence space the queue delivers what the ideal buffer
delivers. For the others the slots shift when the head wraps, and two sequence numbers of
one window can meet in a slot.
-/

namespace Wave300.Rod

open Wave300.Lib

variable {α : Type} {w t : Nat}

/-- Each of the packets was sent up by the head passing over its number. -/
structure InOrder (q : Queue α) (ds : List (Delivery α)) : Prop where
  numbered : ∀ d ∈ ds, ∃ n < q.pos, d.head = some n ∧ d.packet.seq = n % sequenceNumberLimit
  increasing : (ds.filterMap Delivery.head).Pairwise (· < ·)

/-- A packet was freed as a duplicate only when its sequence number was held. -/
def DuplicatesHeld (q : Queue α) : Prop :=
  ∀ p holder, Drop.duplicate p holder ∈ q.drops → holder.seq = p.seq

/-- Each held packet is in its slot, and no other sequence number of the window has it. -/
def SlotsUnique (q : Queue α) : Prop :=
  ∀ slot p, q.nbuf slot = some p →
    p.seq % q.windowSize = slot ∧ seqDistance q.head p.seq < q.windowSize ∧
      ∀ seq < sequenceNumberLimit, seqDistance q.head seq < q.windowSize →
        seq % q.windowSize = slot → seq = p.seq

theorem Matches.slotsUnique {i : Ideal w α} {q : Queue α} (hd : w ∣ sequenceNumberLimit)
    (h : Matches i q) : SlotsUnique q := by
  intro slot p hp
  have le : w ≤ sequenceNumberLimit := Nat.le_of_dvd (by decide) hd
  have hslot := h.bookkept.slot slot p hp
  have hlt : slot < w := by
    rw [← hslot, h.window]
    exact Nat.mod_lt _ (h.window ▸ h.bookkept.window)
  obtain ⟨n, hn, rfl⟩ := exists_in_window i.buffer.next hlt
  have hseq := h.seq n p ((h.nbuf n hn).symm.trans hp)
  refine ⟨hslot, ?_, ?_⟩
  · rw [seqDistance_congr h.head, hseq, seqDistance_of_number (by omega), h.window]
    omega
  · intro seq hs near same
    rw [seqDistance_congr h.head, h.window] at near
    have number := add_seqDistance i.buffer.next hs
    rw [h.window, ← number, Nat.mod_mod_of_dvd _ hd] at same
    rw [← number, window_inj (a := i.buffer.next) (by omega) hn same, hseq]

theorem Matches.delivered {i : Ideal w α} {q : Queue α} (h : Matches i q) :
    q.sentUp.map Delivery.packet = i.sentUp := by
  simp only [h.sentUp, Ideal.sentUp, List.map_append, List.map_map]
  congr 1
  exact List.map_id i.legacy

theorem Matches.used_deliveries {i : Ideal w α} {q : Queue α} (h : Matches i q) :
    q.sentUp.filter (fun d => d.head.isSome) =
      i.buffer.out.map (fun e => ⟨some e.1, e.2⟩) := by
  rw [h.sentUp, List.filter_append, List.filter_map, List.filter_map]
  simp [Function.comp_def]

theorem Matches.inOrder {i : Ideal w α} {q : Queue α} (h : Matches i q) :
    InOrder q (i.buffer.out.map (fun e => ⟨some e.1, e.2⟩)) where
  numbered := by
    intro d hd
    obtain ⟨e, he, rfl⟩ := List.mem_map.mp hd
    exact ⟨e.1, h.pos ▸ i.buffer.past e he, rfl, h.outSeq e he⟩
  increasing := by
    rw [List.filterMap_map]
    have numbers : i.buffer.out.filterMap (Delivery.head ∘ fun e => ⟨some e.1, e.2⟩) =
        i.buffer.out.map Prod.fst := by
      simp [List.filterMap_eq_map']
    rw [numbers]
    exact i.buffer.ordered

/-- The queue of a window that divides the sequence space delivers what the ideal buffer
delivers: nothing is lost or delivered twice, the deliveries made while the queue is in use
come in the order of their numbers, and a duplicate is one. -/
theorem run_refines_ideal (hd : w ∣ sequenceNumberLimit) (_ : w ≤ maxReordWindow) {ssn : Nat}
    (_ : ssn < sequenceNumberLimit) {ops : List (Op α)} (hv : ∀ op ∈ ops, op.Valid) :
    let q := run (fresh α t w ssn) ops
    let i := (Ideal.start α t w ssn).run ops
    q.sentUp.map Delivery.packet = i.sentUp ∧
      q.head % sequenceNumberLimit = i.buffer.next % sequenceNumberLimit ∧
      SlotsUnique q ∧
      q.account = (ops.flatMap Op.offered : Multiset (Packet α)) ∧
      InOrder q (q.sentUp.filter fun d => d.head.isSome) ∧
      DuplicatesHeld q := by
  have hw : 0 < w := Nat.pos_of_dvd_of_pos hd (by decide)
  have h := run_matches (t := t) hd ssn hv
  have books := (run_stepped (fresh_bookkept (α := α) (t := t) hw ssn) ops).account
  refine ⟨h.delivered, h.head, h.slotsUnique hd, ?_, ?_, h.duplicate⟩
  · rw [books]
    have none : (fresh α t w ssn).account = 0 := by
      have empty := (fresh_bookkept (α := α) (t := t) hw ssn).count
      simpa [Queue.account, fresh, mtlkCreateRodQueue, Queue.zeroed] using
        Multiset.card_eq_zero.mp empty.symm
    rw [none, zero_add]
  · rw [h.used_deliveries]
    exact h.inOrder

theorem run_refines_ideal_wrapping :
    let ops : List (Op Nat) :=
      [.packet 0 ⟨4095, 1⟩, .packet 0 ⟨1, 2⟩, .packet 0 ⟨0, 3⟩, .bar 0 5, .packet 0 ⟨2, 4⟩]
    (run (fresh Nat 0 4 4095) ops).sentUp.map Delivery.packet =
        ((Ideal.start Nat 0 4 4095).run ops).sentUp ∧
      (run (fresh Nat 0 4 4095) ops).sentUp.map Delivery.packet =
        [⟨4095, 1⟩, ⟨0, 3⟩, ⟨1, 2⟩] :=
  ⟨(run_refines_ideal (w := 4) (t := 0) (by decide) (by decide)
    (show 4095 < sequenceNumberLimit by decide) (by simp [Op.Valid, sequenceNumberLimit])).1,
    by decide⟩

/-- Once it is cleared, the queue sends packets up as they come, also behind one another. -/
theorem cleared_queue_sends_up_as_received :
    let ops : List (Op Nat) := [.clear 0, .packet 0 ⟨5, 1⟩, .packet 0 ⟨3, 2⟩]
    let q := run (fresh Nat 0 4 0) ops
    (4 ∣ sequenceNumberLimit ∧ ∀ op ∈ ops, op.Valid) ∧
      q.sentUp.map (fun d => d.packet.seq) = [5, 3] ∧ q.head = 0 ∧
      seqDistance q.head 3 < seqDistance q.head 5 ∧ ¬ InOrder q q.sentUp := by
  refine ⟨⟨by decide, by simp [Op.Valid, sequenceNumberLimit]⟩, by decide, by decide, by decide, ?_⟩
  intro h
  obtain ⟨n, _, hn, _⟩ := h.numbered ⟨none, ⟨5, 1⟩⟩ (by decide)
  cases hn

/-! ## Windows that do not divide the sequence space -/

/-- Nothing is held and the head stands at `n`. -/
structure Idle (w n : Nat) (q : Queue α) : Prop where
  used : q.used = true
  windowSize : q.windowSize = w
  head : q.head % sequenceNumberLimit = n % sequenceNumberLimit
  pos : q.pos % sequenceNumberLimit = n % sequenceNumberLimit
  nbuf : ∀ slot, q.nbuf slot = none

theorem Idle.moveLoop {q : Queue α} {n : Nat} (h : Idle w n q) (k : Nat) :
    Idle w (n + k) (moveLoop t k q) := by
  induction k generalizing q n with
  | zero => exact h
  | succ k ih =>
    rw [Rod.moveLoop, retireSlot_none (h.nbuf _), show n + (k + 1) = n + 1 + k by omega]
    refine ih ⟨h.used, h.windowSize, bumped_head h.head, ?_, h.nbuf⟩
    have hp := h.pos
    simp only [Queue.bump, Queue.tally, Queue.touch, sequenceNumberLimit] at hp ⊢
    omega

theorem Idle.retireRodQueue {q : Queue α} {n : Nat} (h : Idle w n q) :
    Idle w n (retireRodQueue t q) := by
  have stop : Rod.retireRodQueue t q = (q.touch (q.head % q.windowSize)).reduce := by
    simp only [Rod.retireRodQueue, retireLoop, touch_nbuf, h.nbuf]
  rw [stop]
  exact ⟨h.used, h.windowSize, (Nat.mod_mod q.head sequenceNumberLimit).trans h.head, h.pos, h.nbuf⟩

/-- With nothing held a BAR only moves the head. -/
theorem Idle.bar {q : Queue α} {n ssn : Nat} (h : Idle w n q) (hs : ssn < sequenceNumberLimit)
    (hd : seqDistance n ssn ≤ sequenceNumberLimit / 2) :
    Idle w ssn (mtlkRodProcessBar t q ssn).1 ∧ (mtlkRodProcessBar t q ssn).1.head = ssn := by
  have moved := h.moveLoop (t := t) (seqDistance n ssn)
  have number : (n + seqDistance n ssn) % sequenceNumberLimit = ssn % sequenceNumberLimit := by
    rw [add_seqDistance n hs, Nat.mod_eq_of_lt hs]
  simp only [mtlkRodProcessBar, h.used, ↓reduceIte, seqDistance_congr h.head ssn,
    Nat.not_lt.mpr hd]
  have idle : Idle w ssn (rodMoveWindow t q (seqDistance n ssn)) :=
    ⟨moved.used, moved.windowSize, (Nat.mod_mod _ _).trans (moved.head.trans number),
      moved.pos.trans number, moved.nbuf⟩
  have reduced := idle.retireRodQueue (t := t).head
  rw [Nat.mod_eq_of_lt (retireRodQueue_head_lt _), Nat.mod_eq_of_lt hs] at reduced
  exact ⟨idle.retireRodQueue, reduced⟩

theorem seqDistance_add {n k ssn : Nat} (hk : k ≤ seqDistance n ssn) :
    seqDistance (n + k) ssn = seqDistance n ssn - k := by
  simp only [seqDistance, sequenceNumberLimit] at *
  omega

/-- Two BARs take the head anywhere. -/
theorem Idle.bars {q : Queue α} {n ssn : Nat} (h : Idle w n q) (hs : ssn < sequenceNumberLimit) :
    ∃ ssn' < sequenceNumberLimit, Idle w ssn (run q [.bar t ssn', .bar t ssn]) ∧
      (run q [.bar t ssn', .bar t ssn]).head = ssn := by
  have lt := seqDistance_lt n ssn
  refine ⟨(n + seqDistance n ssn / 2) % sequenceNumberLimit, Nat.mod_lt _ (by decide), ?_⟩
  have half := h.bar (t := t)
    (show (n + seqDistance n ssn / 2) % sequenceNumberLimit < sequenceNumberLimit from
      Nat.mod_lt _ (by decide))
    (by rw [seqDistance_of_number] <;> simp only [sequenceNumberLimit] at * <;> omega)
  apply half.1.bar hs
  rw [seqDistance_congr (b := n + seqDistance n ssn / 2) (Nat.mod_mod _ _),
    seqDistance_add (Nat.div_le_self _ 2)]
  simp only [sequenceNumberLimit] at *
  omega

theorem sentUp_kept (d : Delivery α) : Kept t (fun q : Queue α => d ∈ q.sentUp) where
  retire q slot h := by
    cases hn : q.nbuf (slot % q.windowSize) with
    | none => rw [retireSlot_none hn]; exact h
    | some p => rw [retireSlot_some hn]; exact List.mem_append_left _ h
  bump _ h := h
  reduce _ h := h
  touch _ _ _ h := h

/-- A packet that finds itself in the slot of the head is sent up at once, whether or not
the head stands at its number. -/
theorem Idle.packet_at_head {q : Queue α} {n : Nat} (hw : 0 < w) (h : Idle w n q)
    {p : Packet α} (inside : seqDistance n p.seq < w)
    (old : seqDistance n p.seq ≤ sequenceNumberLimit / 2)
    (same : p.seq % w = q.head % w) :
    ⟨some q.pos, p⟩ ∈ (mtlkReorderPacket t q p).1.sentUp := by
  have distance := seqDistance_congr h.head p.seq
  have loc : p.seq % q.windowSize = q.head % q.windowSize := by rw [h.windowSize, same]
  rw [reorderPacket_inside h.used (by rw [distance]; omega)
    (by rw [distance, h.windowSize]; omega), storePacket_free (h.nbuf _)]
  apply (sentUp_kept (t := t) ⟨some q.pos, p⟩).reduce
  simp only [retireLoop, Queue.tally, Queue.touch, loc, Function.update_self]
  apply (sentUp_kept (t := t) ⟨some q.pos, p⟩).retireLoop _
  · simp only [bump_windowSize, retireSlot_windowSize]
    have := Nat.mod_lt q.head (h.windowSize ▸ hw)
    split <;> omega
  · simp only [Queue.bump]
    rw [retireSlot_some (p := p) (by simp only [Nat.mod_mod, Function.update_self])]
    exact List.mem_append_right _ (List.mem_singleton.mpr rfl)

/-- What is expected of a queue that was only given packets and BARs. -/
structure Orderly (q : Queue α) : Prop where
  duplicates : DuplicatesHeld q
  deliveries : InOrder q q.sentUp

/-- The calls that neither flush nor clear. -/
def Op.IsData : Op α → Prop
  | packet _ _ => True
  | bar _ _ => True
  | _ => False

theorem Ideal.step_open {i : Ideal w α} {op : Op α} (hi : i.isOpen = true) (ho : op.IsData) :
    (i.step op).isOpen = true := by
  cases op with
  | packet t p =>
    simp only [Ideal.step, Ideal.packet, hi, ↓reduceIte]
    split
    · exact hi
    · split <;> exact hi
  | bar t ssn =>
    simp only [Ideal.step, Ideal.bar, hi, ↓reduceIte]
    split <;> exact hi
  | timer t timeout => exact ho.elim
  | clear t => exact ho.elim

theorem Ideal.run_open {i : Ideal w α} (hi : i.isOpen = true) {ops : List (Op α)}
    (ho : ∀ op ∈ ops, op.IsData) : (i.run ops).isOpen = true := by
  induction ops generalizing i with
  | nil => exact hi
  | cons op ops ih =>
    exact ih (step_open hi (ho op (List.mem_cons_self ..)))
      (fun x hx => ho x (List.mem_cons_of_mem _ hx))

theorem fresh_idle (w ssn : Nat) : Idle w ssn (fresh α t w ssn) :=
  ⟨rfl, rfl, rfl, rfl, fun _ => rfl⟩

/-- With the head `4096 % w` before the wrap, the packet of number 0 falls into the slot of
the head and is sent up in the place of another. -/
theorem exists_disorderly [Inhabited α] (hw : 0 < w) (hm : w ≤ maxReordWindow)
    (hd : ¬ w ∣ sequenceNumberLimit) (ssn : Nat) :
    ∃ ops : List (Op α), (∀ op ∈ ops, op.Valid ∧ op.IsData) ∧
      ¬ Orderly (run (fresh α t w ssn) ops) := by
  have rest : 0 < sequenceNumberLimit % w :=
    Nat.pos_of_ne_zero fun h => hd (Nat.dvd_of_mod_eq_zero h)
  have small : sequenceNumberLimit % w < w := Nat.mod_lt _ hw
  simp only [maxReordWindow] at hm
  have lt : sequenceNumberLimit - sequenceNumberLimit % w < sequenceNumberLimit := by
    simp only [sequenceNumberLimit] at *
    omega
  have distance : seqDistance (sequenceNumberLimit - sequenceNumberLimit % w) 0 =
      sequenceNumberLimit % w := by
    simp only [seqDistance, sequenceNumberLimit] at *
    omega
  have slot : (sequenceNumberLimit - sequenceNumberLimit % w) % w = 0 :=
    Nat.mod_eq_zero_of_dvd (Nat.dvd_sub_mod sequenceNumberLimit)
  obtain ⟨ssn', hs, idle, head⟩ := (fresh_idle (α := α) (t := t) w ssn).bars (t := t) lt
  refine ⟨[.bar t ssn', .bar t (sequenceNumberLimit - sequenceNumberLimit % w),
    .packet t ⟨0, default⟩], ?_, ?_⟩
  · simp only [List.mem_cons, List.not_mem_nil, or_false, forall_eq_or_imp, forall_eq]
    exact ⟨⟨hs, trivial⟩, ⟨lt, trivial⟩, ⟨by simp only [Op.Valid]; decide, trivial⟩⟩
  · intro h
    have early := idle.packet_at_head (t := t) hw (p := ⟨0, default⟩)
      (by rw [distance]; exact small)
      (by simp only [distance, sequenceNumberLimit] at *; omega)
      (by rw [head, slot, Nat.zero_mod])
    obtain ⟨n, _, hn, number⟩ := h.deliveries.numbered _ early
    cases hn
    rw [idle.pos, Nat.mod_eq_of_lt lt] at number
    simp only [sequenceNumberLimit] at *
    omega

/-- A queue keeps the numbers of its window apart, and sends them up in order, exactly when
the window divides the sequence space. -/
theorem run_orderly_iff [Inhabited α] (hw : 0 < w) (hm : w ≤ maxReordWindow) {ssn : Nat}
    (_ : ssn < sequenceNumberLimit) :
    (∀ ops : List (Op α), (∀ op ∈ ops, op.Valid ∧ op.IsData) →
      Orderly (run (fresh α t w ssn) ops)) ↔ w ∣ sequenceNumberLimit := by
  constructor
  · intro h
    by_contra hd
    obtain ⟨ops, data, disorderly⟩ := exists_disorderly (α := α) (t := t) hw hm hd ssn
    exact disorderly (h ops data)
  · intro hd ops data
    have h := run_matches (t := t) hd ssn (fun op ho => (data op ho).1)
    have isOpen := Ideal.run_open (i := Ideal.start α t w ssn) rfl (fun op ho => (data op ho).2)
    have inOrder := h.inOrder
    rw [← List.append_nil (List.map _ _), ← List.map_nil (f := fun p => ⟨none, p⟩),
      ← h.legacy isOpen, ← h.sentUp] at inOrder
    exact ⟨h.duplicate, inOrder⟩

theorem run_orderly_iff_at_eight :
    (∀ ops : List (Op Nat), (∀ op ∈ ops, op.Valid ∧ op.IsData) →
      Orderly (run (fresh Nat 0 8 4090) ops)) ∧ 8 ∣ sequenceNumberLimit :=
  ⟨(run_orderly_iff (by decide) (by decide) (by decide)).mpr (by decide), by decide⟩

/-- In a window of three across the wrap, 4095 is freed as a duplicate of 0. -/
theorem duplicate_across_wrap :
    let ops : List (Op Nat) := [.packet 0 ⟨0, 1⟩, .packet 0 ⟨4095, 2⟩]
    let q := run (fresh Nat 0 3 4094) ops
    (∀ op ∈ ops, op.Valid ∧ op.IsData) ∧ seqDistance 4094 0 < 3 ∧ seqDistance 4094 4095 < 3 ∧
      q.drops = [.duplicate ⟨4095, 2⟩ ⟨0, 1⟩] ∧ ¬ Orderly q := by
  refine ⟨by simp [Op.Valid, Op.IsData, sequenceNumberLimit], by decide, by decide, by decide, ?_⟩
  intro h
  have := h.duplicates ⟨4095, 2⟩ ⟨0, 1⟩ (by decide)
  cases this

end Wave300.Rod
