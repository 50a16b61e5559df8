import Wave300.Lib.Trace
import Wave300.Mmb.RxSlots

/-!
# The slots for received data are conserved

What each operation on the RX slots does to the numbers of the queues, the list of pending slots
and the buffers. Between `_mtlk_mmb_empty_pending_rx_buffers` and the next
`_mtlk_mmb_prealloc_rx_buffers` there are no slots, and all queues count as full.
-/

namespace Wave300.Mmb.Card

open Lib

namespace RxData

variable {r r' : RxData} {i q : Nat}

theorem bdIndex_congr (same : ∀ p, (r'.queue p).maxQueSize = (r.queue p).maxQueSize) :
    r'.bdIndex = r.bdIndex := by
  funext q
  induction q with
  | zero => rfl
  | succ q ih =>
    change r'.bdIndex q + _ = r.bdIndex q + _
    rw [ih, same]

theorem slotsOf_congr (same : ∀ p, (r'.queue p).maxQueSize = (r.queue p).maxQueSize) :
    r'.slotsOf = r.slotsOf := by
  funext q
  rw [slotsOf, slotsOf, bdIndex_congr same]

theorem bdIndex_mono (r : RxData) {p q : Nat} (le : p ≤ q) : r.bdIndex p ≤ r.bdIndex q := by
  induction le with
  | refl => exact Nat.le_refl _
  | step _ ih => exact Nat.le_trans ih (Nat.le_add_right _ _)

theorem mem_slotsOf : i ∈ r.slotsOf q ↔ r.bdIndex q ≤ i ∧ i < r.bdIndex (q + 1) := Finset.mem_Ico

theorem card_slotsOf (r : RxData) (q : Nat) : (r.slotsOf q).card = (r.queue q).maxQueSize := by
  rw [slotsOf, Nat.card_Ico, bdIndex, bdIndex, queueStart, Nat.add_sub_cancel_left]

/-- A slot belongs to one queue. -/
theorem slotsOf_unique {p : Nat} (mem : i ∈ r.slotsOf q) (mem' : i ∈ r.slotsOf p) : p = q := by
  rw [mem_slotsOf] at mem mem'
  by_contra ne
  obtain lt | gt := Nat.lt_or_gt_of_ne ne
  · have : r.bdIndex (p + 1) ≤ r.bdIndex q := r.bdIndex_mono lt
    omega
  · have : r.bdIndex (q + 1) ≤ r.bdIndex p := r.bdIndex_mono gt
    omega

/-- Every slot below the end of a queue belongs to that queue or one before it. -/
theorem exists_slotsOf {n : Nat} (lt : i < r.bdIndex n) : ∃ q < n, i ∈ r.slotsOf q := by
  induction n with
  | zero => exact absurd lt (Nat.not_lt_zero i)
  | succ n ih =>
    by_cases before : i < r.bdIndex n
    · obtain ⟨q, below, mem⟩ := ih before
      exact ⟨q, by omega, mem⟩
    · exact ⟨n, by omega, mem_slotsOf.2 ⟨by omega, lt⟩⟩

theorem Sound.lt_of_mem (h : Sound r) (below : q < r.nofInUse) (mem : i ∈ r.slotsOf q) :
    i < r.nofBds := by
  have bound : r.bdIndex (q + 1) ≤ r.bdIndex r.nofInUse := r.bdIndex_mono below
  have := (mem_slotsOf.1 mem).2
  rw [← h.total]
  omega

theorem Sound.exists_queue (h : Sound r) (lt : i < r.nofBds) :
    ∃ q < r.nofInUse, i ∈ r.slotsOf q := exists_slotsOf (h.total ▸ lt)

theorem maxQueSize_update (r : RxData) (q n p : Nat) :
    (Function.update r.queue q ((r.queue q).setSize n) p).maxQueSize = (r.queue p).maxQueSize := by
  by_cases e : p = q
  · subst e
    rw [Function.update_self, RxQueue.setSize]
  · rw [Function.update_of_ne e]

theorem queSize_update (r : RxData) (q n p : Nat) :
    (Function.update r.queue q ((r.queue q).setSize n) p).queSize =
      if p = q then n else (r.queue p).queSize := by
  by_cases e : p = q
  · subst e
    rw [Function.update_self, if_pos rfl, RxQueue.setSize]
  · rw [Function.update_of_ne e, if_neg e]

/-- The buffer of slot `i`, and those of the others. -/
theorem carried_perm (prepared : r.buffers) (lt : i < r.nofBds) : r.carried.Perm
    ((r.mirror i).nbuf.toList ++ ((List.range r.nofBds).erase i).filterMap
      fun j => (r.mirror j).nbuf) := by
  rw [carried, if_pos prepared]
  exact filterMap_perm_erase (List.mem_range.2 lt) _

/-- The slots of a queue are those that say so. -/
theorem Sound.slotsOf_eq (h : Sound r) (prepared : r.buffers) (below : q < r.nofInUse) :
    r.slotsOf q = {i ∈ Finset.range r.nofBds | (r.mirror i).queIdx = q} := by
  ext i
  rw [Finset.mem_filter, Finset.mem_range]
  constructor
  · intro mem
    exact ⟨h.lt_of_mem below mem, h.slots prepared q below i mem⟩
  · rintro ⟨lt, queIdx⟩
    obtain ⟨p, below', mem⟩ := h.exists_queue lt
    obtain rfl : p = q := (h.slots prepared p below' i mem).symm.trans queIdx
    exact mem

/-- One slot changes, with the number of its queue. -/
theorem Sound.change (d : DataInd) (l up : List Nat) (n allocated : Nat) (h : Sound r)
    (prepared : r.buffers) (below : q < r.nofInUse) (mem : i ∈ r.slotsOf q)
    (queIdx : d.queIdx = (r.mirror i).queIdx) (nodup : l.Nodup)
    (others : ∀ j, j ≠ i → (j ∈ l ↔ j ∈ r.lbufs)) (pending : i ∈ l → d.nbuf = none)
    (carrying : i ∉ l → d.nbuf.isSome ∧ d.mapped) (size : n = {j ∈ r.slotsOf q | j ∉ l}.card)
    (bufs : Accounted allocated (d.nbuf.toList ++ ((List.range r.nofBds).erase i).filterMap
      fun j => (r.mirror j).nbuf) (up ++ r.freed)) :
    Sound { r with
      mirror := Function.update r.mirror i d
      queue := Function.update r.queue q ((r.queue q).setSize n)
      lbufs := l
      allocated
      up } := by
  have same := maxQueSize_update r q n
  have lt := h.lt_of_mem below mem
  constructor
  case total => exact (congrFun (bdIndex_congr same) _).trans h.total
  case nodup => exact nodup
  case lt =>
    intro j there
    by_cases e : j = i
    · exact e ▸ lt
    · exact h.lt j ((others j e).1 there)
  case sizes =>
    intro p below'
    rw [slotsOf_congr same]
    dsimp only
    rw [queSize_update]
    split
    case isTrue e => rw [e, size]
    case isFalse ne =>
      rw [h.sizes p below']
      congr 1
      apply Finset.filter_congr
      intro j there
      have apart : j ≠ i := fun e => ne (slotsOf_unique mem (e ▸ there))
      rw [others j apart]
  case slots =>
    intro _ p below' j there
    rw [slotsOf_congr same] at there
    have was := h.slots prepared p below' j there
    dsimp only
    by_cases e : j = i
    · subst e
      rw [Function.update_self, queIdx, was]
    · rw [Function.update_of_ne e, was]
  case pending =>
    intro _ j there
    dsimp only
    by_cases e : j = i
    · subst e
      rw [Function.update_self]
      exact pending there
    · rw [Function.update_of_ne e]
      exact h.pending prepared j ((others j e).1 there)
  case carrying =>
    intro _ j lt' absent
    dsimp only
    by_cases e : j = i
    · subst e
      rw [Function.update_self]
      exact carrying absent
    · rw [Function.update_of_ne e]
      exact h.carrying prepared j lt' (fun there => absent ((others j e).2 there))
  case asserted => exact h.asserted
  case bufs =>
    apply bufs.held_perm
    unfold carried
    rw [if_pos prepared]
    apply (filterMap_perm_erase (List.mem_range.2 lt) _).trans
    have rest : ((List.range r.nofBds).erase i).filterMap
        (fun j => (Function.update r.mirror i d j).nbuf) =
        ((List.range r.nofBds).erase i).filterMap fun j => (r.mirror j).nbuf := by
      apply filterMap_erase_congr List.nodup_range
      intro j ne
      rw [Function.update_of_ne ne]
    dsimp only
    rw [rest, Function.update_self]

/-- The buffer of a slot with its queue. -/
theorem Sound.loaded (h : Sound r) (prepared : r.buffers) (lt : i < r.nofBds)
    (absent : i ∉ r.lbufs) : ∃ b, (r.mirror i).nbuf = some b :=
  Option.isSome_iff_exists.1 (h.carrying prepared i lt absent).1

/-- A pending slot is counted once it is not pending any more. -/
theorem card_not_pending {rest : List Nat} (mem : i ∈ r.slotsOf q) (fresh : i ∉ rest) :
    {j ∈ r.slotsOf q | j ∉ rest}.card = {j ∈ r.slotsOf q | j ∉ i :: rest}.card + 1 := by
  apply card_filter_eq_add_one mem
  · simp
  · intro j
    by_cases e : j = i
    · simp [e, fresh]
    · simp [e]

theorem Sound.handleDatInd (h : Sound r) (prepared : r.buffers) (lt : i < r.nofBds)
    (absent : i ∉ r.lbufs) (ok : Bool) : Sound (r.handleDatInd i ok) := by
  obtain ⟨q, below, mem⟩ := h.exists_queue lt
  have queIdx := h.slots prepared q below i mem
  obtain ⟨b, nbuf⟩ := h.loaded prepared lt absent
  have counted := card_not_pending mem absent
  have size := h.sizes q below
  have taken : Accounted r.allocated
      (((List.range r.nofBds).erase i).filterMap fun j => (r.mirror j).nbuf)
      ((r.up ++ [b]) ++ r.freed) := by
    apply h.bufs.release [b]
    · simpa [nbuf] using carried_perm prepared lt
    · simp
  cases ok with
  | true =>
    have changed := h.change { r.mirror i with nbuf := some r.allocated, mapped := true }
      r.lbufs (r.up ++ [b]) ((r.queue q).queSize - 1 + 1) (r.allocated + 1) prepared below mem rfl
      h.nodup (fun _ _ => Iff.rfl)
      (absurd · absent) (fun _ => ⟨rfl, rfl⟩) (by omega) taken.acquire
    simpa [RxData.handleDatInd, allocAndSetRxBuffer, setSlot, incQueSize, decQueSize, queIdx, nbuf,
      RxQueue.setSize] using changed
  | false =>
    have changed := h.change { r.mirror i with nbuf := none, mapped := false }
      (i :: r.lbufs) (r.up ++ [b]) ((r.queue q).queSize - 1) r.allocated prepared below mem rfl
      (List.nodup_cons.2 ⟨absent, h.nodup⟩)
      (fun j ne => by simp [ne]) (fun _ => rfl) (by simp) (by omega) taken
    simpa [RxData.handleDatInd, allocAndSetRxBuffer, setSlot, pushPending, decQueSize, queIdx, nbuf,
      RxQueue.setSize] using changed

theorem handleDatInd_buffers (r : RxData) (i : Nat) (ok : Bool) :
    (r.handleDatInd i ok).buffers = r.buffers := by
  cases ok <;> rfl

theorem recoverRxBuffers_buffers (alloc : Nat → Bool) (left : Nat) (r : RxData) :
    (RxData.recoverRxBuffers alloc left r).buffers = r.buffers := by
  induction left generalizing r with
  | zero => rfl
  | succ left ih =>
    unfold RxData.recoverRxBuffers
    split
    · rfl
    · dsimp only
      split
      · rw [ih]
        rfl
      · rfl

/-- A slot gets a buffer, and is not pending any more. -/
theorem Sound.fill {rest : List Nat} (h : Sound r) (prepared : r.buffers)
    (lbufs : r.lbufs = i :: rest) :
    Sound ((({ r with lbufs := rest } : RxData).allocAndSetRxBuffer i true).incQueSize
      (r.mirror i).queIdx) := by
  have pending : i ∈ r.lbufs := by simp [lbufs]
  have lt := h.lt i pending
  obtain ⟨q, below, mem⟩ := h.exists_queue lt
  have queIdx := h.slots prepared q below i mem
  have nbuf := h.pending prepared i pending
  have nodup := h.nodup
  rw [lbufs] at nodup
  obtain ⟨fresh, nodup⟩ := List.nodup_cons.1 nodup
  have counted := card_not_pending mem fresh
  have size := h.sizes q below
  rw [lbufs] at size
  have bufs := h.bufs.held_perm (carried_perm prepared lt).symm
  rw [nbuf, Option.toList_none, List.nil_append] at bufs
  have changed := h.change { r.mirror i with nbuf := some r.allocated, mapped := true }
    rest r.up ((r.queue q).queSize + 1) (r.allocated + 1) prepared below mem rfl nodup
    (fun j ne => by simp [lbufs, ne]) (absurd · fresh) (fun _ => ⟨rfl, rfl⟩) (by omega)
    bufs.acquire
  simpa [allocAndSetRxBuffer, setSlot, incQueSize, queIdx] using changed

theorem Sound.recoverRxBuffers (alloc : Nat → Bool) (left : Nat) (h : Sound r)
    (prepared : r.buffers) : Sound (recoverRxBuffers alloc left r) := by
  induction left generalizing r with
  | zero => exact h
  | succ left ih =>
    unfold RxData.recoverRxBuffers
    match lbufs : r.lbufs with
    | [] => exact h
    | i :: rest =>
      dsimp only
      split
      case isTrue => exact ih (h.fill prepared lbufs) prepared
      case isFalse =>
        -- the slot had no buffer before either
        have nbuf := h.pending prepared i (by simp [lbufs])
        have same : pushPending (allocAndSetRxBuffer { r with lbufs := rest } i false) i = r := by
          have slot : { r.mirror i with nbuf := none } = r.mirror i := by rw [← nbuf]
          simp only [allocAndSetRxBuffer, setSlot, pushPending, Bool.false_eq_true, if_false, slot,
            Function.update_eq_self, ← lbufs]
        rw [same]
        exact h

theorem card_not_mem_nil (r : RxData) (q : Nat) :
    {i ∈ r.slotsOf q | i ∉ ([] : List Nat)}.card = (r.queue q).maxQueSize := by
  simp [card_slotsOf]

/-- What the first loop of `_mtlk_mmb_empty_pending_rx_buffers` leaves. -/
theorem emptyPending_spec {l : List Nat} (nodup : l.Nodup)
    (queues : ∀ i ∈ l, (r.mirror i).queIdx < r.nofInUse ∧ i ∈ r.slotsOf (r.mirror i).queIdx)
    (sizes : ∀ q < r.nofInUse, (r.queue q).queSize = {i ∈ r.slotsOf q | i ∉ l}.card) :
    ∃ queue, emptyPending l r = { r with lbufs := [], queue } ∧
      (∀ p, (queue p).maxQueSize = (r.queue p).maxQueSize) ∧
      ∀ q < r.nofInUse, (queue q).queSize = (queue q).maxQueSize := by
  induction l generalizing r with
  | nil =>
    apply Exists.intro r.queue
    apply And.intro rfl
    apply And.intro fun _ => rfl
    intro q below
    rw [sizes q below, card_not_mem_nil]
  | cons i l ih =>
    obtain ⟨fresh, nodup⟩ := List.nodup_cons.1 nodup
    obtain ⟨inUse, mem⟩ := queues i List.mem_cons_self
    have same := maxQueSize_update r (r.mirror i).queIdx ((r.queue (r.mirror i).queIdx).queSize + 1)
    have slotsOf : (r.incQueSize (r.mirror i).queIdx).slotsOf = r.slotsOf := slotsOf_congr same
    obtain ⟨queue, e, shape, full⟩ := @ih (r.incQueSize (r.mirror i).queIdx) nodup (by
      intro j there
      rw [slotsOf]
      exact queues j (List.mem_cons_of_mem i there)) (by
      intro q below
      rw [slotsOf]
      have before := sizes q below
      change (Function.update r.queue _ _ q).queSize = _
      rw [queSize_update]
      split
      case isTrue e =>
        have counted := card_not_pending mem fresh
        rw [← e] at counted
        rw [← e, before, counted]
      case isFalse ne =>
        rw [before]
        congr 1
        apply Finset.filter_congr
        intro j there
        have apart : j ≠ i := fun e => ne (slotsOf_unique mem (e ▸ there))
        simp [apart])
    exact ⟨queue, e, fun p => (shape p).trans (same p), full⟩

/-- There are no slots, and all queues count as full. -/
structure Torn (r : RxData) : Prop where
  buffers : r.buffers = false
  lbufs : r.lbufs = []

/-- Without slots there is little to say about a state. -/
theorem Sound.unprepared {queue : Nat → RxQueue} {freed : List Nat} (h : Sound r)
    (mirror : Nat → DataInd) (shape : ∀ p, (queue p).maxQueSize = (r.queue p).maxQueSize)
    (full : ∀ q < r.nofInUse, (queue q).queSize = (queue q).maxQueSize)
    (bufs : Accounted r.allocated [] (r.up ++ freed)) :
    Sound { r with lbufs := [], queue, mirror, freed, buffers := false } where
  total := (congrFun (bdIndex_congr shape) _).trans h.total
  nodup := List.nodup_nil
  lt := nofun
  sizes := by
    intro q below
    rw [slotsOf_congr (r := r) shape, card_not_mem_nil, ← shape q]
    exact full q below
  slots := nofun
  pending := nofun
  carrying := nofun
  asserted := h.asserted
  bufs := bufs

/-- The tear-down of the slots. The assertion of `_mtlk_mmb_empty_pending_rx_buffers` holds. -/
theorem Sound.tearDown (h : Sound r) (slots : r.buffers ∨ r.Torn) :
    Sound r.emptyPendingRxBuffers.freePreallocatedRxBuffers ∧
      r.emptyPendingRxBuffers.freePreallocatedRxBuffers.Torn := by
  have queues : ∀ i ∈ r.lbufs,
      (r.mirror i).queIdx < r.nofInUse ∧ i ∈ r.slotsOf (r.mirror i).queIdx := by
    intro i pending
    obtain prepared | torn := slots
    · obtain ⟨q, below, mem⟩ := h.exists_queue (h.lt i pending)
      rw [h.slots prepared q below i mem]
      exact ⟨below, mem⟩
    · rw [torn.lbufs] at pending
      cases pending
  obtain ⟨queue, e, shape, full⟩ := emptyPending_spec h.nodup queues h.sizes
  have emptied : r.emptyPendingRxBuffers = { r with lbufs := [], queue } := by
    simpa [emptyPendingRxBuffers, e, h.asserted] using full
  have freed : Accounted r.allocated [] (r.up ++ (r.freed ++ r.carried)) := by
    apply h.bufs.release r.carried (by simp)
    rw [← List.append_assoc]
    exact List.perm_append_comm
  rw [emptied]
  unfold freePreallocatedRxBuffers
  unfold carried at freed
  split
  case isTrue prepared =>
    rw [if_pos prepared] at freed
    exact ⟨h.unprepared _ shape full freed, rfl, rfl⟩
  case isFalse unprepared =>
    have gone : r.buffers = false := by simpa using unprepared
    rw [gone, if_neg Bool.false_ne_true, List.append_nil] at freed
    have sound := h.unprepared r.mirror shape full freed
    rw [← gone] at sound
    exact ⟨sound, gone, rfl⟩

/-- The tear-down of the slots when the card is stopped, which leaves the pending list alone. -/
theorem Sound.freePreallocatedRxBuffers (h : Sound r) : Sound r.freePreallocatedRxBuffers := by
  have freed : Accounted r.allocated [] (r.up ++ (r.freed ++ r.carried)) := by
    apply h.bufs.release r.carried (by simp)
    rw [← List.append_assoc]
    exact List.perm_append_comm
  unfold RxData.freePreallocatedRxBuffers
  split
  case isFalse => exact h
  case isTrue prepared =>
    rw [carried, if_pos prepared] at freed
    constructor
    case total => exact h.total
    case nodup => exact h.nodup
    case lt => exact h.lt
    case sizes => exact h.sizes
    case slots => exact nofun
    case pending => exact nofun
    case carrying => exact nofun
    case asserted => exact h.asserted
    case bufs => exact freed

/-- The slots below `k` have been set up. -/
structure Filled (r : RxData) (k : Nat) : Prop where
  nodup : r.lbufs.Nodup
  lt : ∀ i ∈ r.lbufs, i < k
  sizes : ∀ q < r.nofInUse,
    (r.queue q).queSize = {i ∈ r.slotsOf q | i < k ∧ i ∉ r.lbufs}.card
  slots : ∀ q < r.nofInUse, ∀ i ∈ r.slotsOf q, i < k → (r.mirror i).queIdx = q
  pending : ∀ i ∈ r.lbufs, (r.mirror i).nbuf = none
  carrying : ∀ i < k, i ∉ r.lbufs → (r.mirror i).nbuf.isSome ∧ (r.mirror i).mapped
  rest : ∀ i, k ≤ i → (r.mirror i).nbuf = none
  bufs : Accounted r.allocated ((List.range k).filterMap fun i => (r.mirror i).nbuf)
    (r.up ++ r.freed)

/-- What setting up slots leaves alone. -/
structure SameShape (r r' : RxData) : Prop where
  nofBds : r'.nofBds = r.nofBds
  nofInUse : r'.nofInUse = r.nofInUse
  maxQueSize : ∀ p, (r'.queue p).maxQueSize = (r.queue p).maxQueSize
  asserts : r'.asserts = r.asserts

theorem SameShape.refl (r : RxData) : SameShape r r := ⟨rfl, rfl, fun _ => rfl, rfl⟩

theorem SameShape.trans {r'' : RxData} (h : SameShape r r') (h' : SameShape r' r'') :
    SameShape r r'' where
  nofBds := h'.nofBds.trans h.nofBds
  nofInUse := h'.nofInUse.trans h.nofInUse
  maxQueSize := fun p => (h'.maxQueSize p).trans (h.maxQueSize p)
  asserts := h'.asserts.trans h.asserts

/-- Slot `k` is set up, with a buffer or as a pending one. -/
theorem Filled.next {k allocated : Nat} {d : DataInd} {l : List Nat} {n : Nat} (h : Filled r k)
    (mem : k ∈ r.slotsOf q) (queIdx : d.queIdx = q) (nodup : l.Nodup)
    (others : ∀ j, j ≠ k → (j ∈ l ↔ j ∈ r.lbufs)) (pending : k ∈ l → d.nbuf = none)
    (carrying : k ∉ l → d.nbuf.isSome ∧ d.mapped)
    (size : n = {j ∈ r.slotsOf q | j < k + 1 ∧ j ∉ l}.card)
    (bufs : Accounted allocated (((List.range k).filterMap fun i => (r.mirror i).nbuf) ++
      d.nbuf.toList) (r.up ++ r.freed)) :
    Filled { r with
      mirror := Function.update r.mirror k d
      queue := Function.update r.queue q ((r.queue q).setSize n)
      lbufs := l
      allocated } (k + 1) := by
  have same := maxQueSize_update r q n
  constructor
  case nodup => exact nodup
  case lt =>
    intro j there
    by_cases e : j = k
    · omega
    · have := h.lt j ((others j e).1 there)
      omega
  case sizes =>
    intro p below'
    rw [slotsOf_congr same]
    dsimp only
    rw [queSize_update]
    split
    case isTrue e => rw [e, size]
    case isFalse ne =>
      rw [h.sizes p below']
      congr 1
      apply Finset.filter_congr
      intro j there
      have apart : j ≠ k := fun e => ne (slotsOf_unique mem (e ▸ there))
      rw [others j apart]
      constructor <;> rintro ⟨lt, absent⟩ <;> exact ⟨by omega, absent⟩
  case slots =>
    intro p below' j there lt
    rw [slotsOf_congr same] at there
    dsimp only
    by_cases e : j = k
    · subst e
      rw [Function.update_self, queIdx]
      exact slotsOf_unique there mem
    · rw [Function.update_of_ne e]
      exact h.slots p below' j there (by omega)
  case pending =>
    intro j there
    dsimp only
    by_cases e : j = k
    · subst e
      rw [Function.update_self]
      exact pending there
    · rw [Function.update_of_ne e]
      exact h.pending j ((others j e).1 there)
  case carrying =>
    intro j lt absent
    dsimp only
    by_cases e : j = k
    · subst e
      rw [Function.update_self]
      exact carrying absent
    · rw [Function.update_of_ne e]
      exact h.carrying j (by omega) (fun there => absent ((others j e).2 there))
  case rest =>
    intro j le
    dsimp only
    rw [Function.update_of_ne (by omega)]
    exact h.rest j (by omega)
  case bufs =>
    have before : (List.range k).filterMap (fun i => (Function.update r.mirror k d i).nbuf) =
        (List.range k).filterMap fun i => (r.mirror i).nbuf := by
      apply List.filterMap_congr
      intro j there
      have := List.mem_range.1 there
      rw [Function.update_of_ne (by omega)]
    dsimp only
    rw [List.range_succ, List.filterMap_append, before]
    match nbuf : d.nbuf with
    | none => simpa [nbuf] using bufs
    | some b => simpa [nbuf] using bufs

/-- Slot `k` is set up with a buffer. -/
theorem Filled.filled {k : Nat} {d : DataInd} (h : Filled r k) (below : q < r.nofInUse)
    (mem : k ∈ r.slotsOf q) (queIdx : d.queIdx = q) (nbuf : d.nbuf = some r.allocated)
    (mapped : d.mapped) :
    Filled { r with
      mirror := Function.update r.mirror k d
      queue := Function.update r.queue q ((r.queue q).setSize ((r.queue q).queSize + 1))
      allocated := r.allocated + 1 } (k + 1) := by
  have fresh : k ∉ r.lbufs := fun there => Nat.lt_irrefl k (h.lt k there)
  apply h.next mem queIdx h.nodup (fun _ _ => Iff.rfl) (absurd · fresh)
  case carrying => exact fun _ => ⟨by rw [nbuf]; rfl, mapped⟩
  case size =>
    rw [h.sizes q below]
    symm
    apply card_filter_eq_add_one mem
    · omega
    · intro j
      by_cases e : j = k
      · simp [e, fresh]
      · simp only [e, or_false]
        constructor <;> rintro ⟨lt, absent⟩ <;> exact ⟨by omega, absent⟩
  case bufs =>
    rw [nbuf]
    exact h.bufs.acquire.held_perm (List.perm_append_singleton _ _)

/-- Slot `k` is set up as a pending one. -/
theorem Filled.pended {k : Nat} {d : DataInd} (h : Filled r k) (below : q < r.nofInUse)
    (mem : k ∈ r.slotsOf q) (queIdx : d.queIdx = q) (nbuf : d.nbuf = none) :
    Filled { r with mirror := Function.update r.mirror k d, lbufs := k :: r.lbufs } (k + 1) := by
  have fresh : k ∉ r.lbufs := fun there => Nat.lt_irrefl k (h.lt k there)
  have next : Filled { r with
      mirror := Function.update r.mirror k d
      queue := Function.update r.queue q ((r.queue q).setSize (r.queue q).queSize)
      lbufs := k :: r.lbufs
      allocated := r.allocated } (k + 1) := by
    apply h.next mem queIdx (List.nodup_cons.2 ⟨fresh, h.nodup⟩)
      (fun j ne => by simp [ne]) (fun _ => nbuf) (by simp)
    case size =>
      rw [h.sizes q below]
      congr 1
      apply Finset.filter_congr
      intro j _
      by_cases e : j = k
      · simp [e]
      · simp only [List.mem_cons, e, false_or]
        constructor <;> rintro ⟨lt, absent⟩ <;> exact ⟨by omega, absent⟩
    case bufs =>
      rw [nbuf]
      simpa using h.bufs
  have same : (r.queue q).setSize (r.queue q).queSize = r.queue q := rfl
  rwa [same, Function.update_eq_self] at next

/-- The loop of `_mtlk_mmb_prealloc_rx_buffers` over one queue. -/
theorem Filled.preallocQueue (alloc : Nat → Bool) {count k : Nat} {ares : Bool} (h : Filled r k)
    (below : q < r.nofInUse) (start : r.bdIndex q ≤ k) (stop : k + count = r.bdIndex (q + 1)) :
    Filled (preallocQueue alloc q count k ares r) (k + count) ∧
      SameShape r (preallocQueue alloc q count k ares r) := by
  induction count generalizing k ares r with
  | zero => exact ⟨h, .refl r⟩
  | succ count ih =>
    have mem : k ∈ r.slotsOf q := mem_slotsOf.2 ⟨start, by omega⟩
    have again : ∀ {r' : RxData} {ares : Bool}, Filled r' (k + 1) → SameShape r r' →
        Filled (preallocQueue alloc q count (k + 1) ares r') (k + (count + 1)) ∧
          SameShape r (preallocQueue alloc q count (k + 1) ares r') := by
      intro r' ares filled shape
      have bdIndex := bdIndex_congr shape.maxQueSize
      obtain ⟨all, same⟩ : Filled (RxData.preallocQueue alloc q count (k + 1) ares r')
          (k + 1 + count) ∧ SameShape r' (RxData.preallocQueue alloc q count (k + 1) ares r') :=
        ih filled (shape.nofInUse ▸ below) (by rw [bdIndex]; omega) (by rw [bdIndex]; omega)
      rw [show k + 1 + count = k + (count + 1) by omega] at all
      exact ⟨all, shape.trans same⟩
    have none_yet : (r.mirror k).nbuf = none := h.rest k (Nat.le_refl k)
    unfold RxData.preallocQueue
    dsimp only
    split
    case isTrue =>
      split
      case isTrue =>
        apply again
        · have filled := h.filled below mem (d := ⟨some r.allocated, true, (r.queue q).bufSize, q⟩)
            rfl rfl rfl
          simpa [allocAndSetRxBuffer, setSlot, incQueSize] using filled
        · exact ⟨rfl, rfl, maxQueSize_update r q _, rfl⟩
      case isFalse =>
        apply again
        · have pended := h.pended below mem
            (d := ⟨none, (r.mirror k).mapped, (r.queue q).bufSize, q⟩) rfl rfl
          simpa [allocAndSetRxBuffer, setSlot, pushPending] using pended
        · exact ⟨rfl, rfl, fun _ => rfl, rfl⟩
    case isFalse =>
      apply again
      · exact h.pended below mem rfl none_yet
      · exact ⟨rfl, rfl, fun _ => rfl, rfl⟩

/-- The loop of `_mtlk_mmb_prealloc_rx_buffers` over the queues from `q` on. -/
theorem Filled.preallocQueues (alloc : Nat → Bool) {left : Nat} (h : Filled r (r.bdIndex q))
    (all : q + left = r.nofInUse) :
    Filled (preallocQueues alloc left q (r.bdIndex q) r) (r.bdIndex r.nofInUse) ∧
      SameShape r (preallocQueues alloc left q (r.bdIndex q) r) := by
  induction left generalizing q r with
  | zero =>
    obtain rfl : q = r.nofInUse := by omega
    exact ⟨h, .refl r⟩
  | succ left ih =>
    have below : q < r.nofInUse := by omega
    -- the queue was empty before its number is set to zero
    have empty : (r.queue q).queSize = 0 := by
      rw [h.sizes q below, Finset.card_eq_zero, Finset.filter_eq_empty_iff]
      rintro i mem ⟨lt, -⟩
      have := (mem_slotsOf.1 mem).1
      omega
    have reset : Function.update r.queue q ((r.queue q).setSize 0) = r.queue := by
      have same : (r.queue q).setSize 0 = r.queue q := by rw [← empty]; rfl
      rw [same, Function.update_eq_self]
    unfold RxData.preallocQueues
    dsimp only
    rw [reset]
    obtain ⟨filled, shape⟩ :
        Filled (RxData.preallocQueue alloc q (r.queue q).maxQueSize (r.bdIndex q) true r)
          (r.bdIndex (q + 1)) ∧
        SameShape r (RxData.preallocQueue alloc q (r.queue q).maxQueSize (r.bdIndex q) true r) :=
      h.preallocQueue alloc below (Nat.le_refl _) rfl
    have bdIndex := bdIndex_congr shape.maxQueSize
    have next := @ih (RxData.preallocQueue alloc q (r.queue q).maxQueSize (r.bdIndex q) true r)
      (q + 1) (by rw [bdIndex]; exact filled) (by rw [shape.nofInUse]; omega)
    rw [bdIndex, shape.nofInUse] at next
    exact ⟨next.1, shape.trans next.2⟩

theorem Filled.sound (h : Filled r r.nofBds) (total : r.bdIndex r.nofInUse = r.nofBds)
    (asserted : r.asserts = true) : Sound { r with buffers := true } := by
  have lt_of_mem : ∀ q < r.nofInUse, ∀ i ∈ r.slotsOf q, i < r.nofBds := by
    intro q below i mem
    have le : r.bdIndex (q + 1) ≤ r.bdIndex r.nofInUse := r.bdIndex_mono below
    have := (mem_slotsOf.1 mem).2
    omega
  constructor
  case total => exact total
  case nodup => exact h.nodup
  case lt => exact h.lt
  case sizes =>
    intro q below
    apply (h.sizes q below).trans
    congr 1
    apply Finset.filter_congr
    intro i mem
    simp [lt_of_mem q below i mem]
  case slots =>
    intro _ q below i mem
    exact h.slots q below i mem (lt_of_mem q below i mem)
  case pending => exact fun _ => h.pending
  case carrying => exact fun _ => h.carrying
  case asserted => exact asserted
  case bufs => exact h.bufs

/-- `_mtlk_mmb_rxque_set_default_cfg` does not fail: the last queue takes what the others leave. -/
theorem rxqueSetDefaultCfg_ok (r : RxData) : r.rxqueSetDefaultCfg.2 = true := by
  simp [rxqueSetDefaultCfg, setQueues, defaultRxQueuesCfg]
  omega

theorem rxqueSetDefaultCfg_total (r : RxData) :
    r.rxqueSetDefaultCfg.1.bdIndex r.rxqueSetDefaultCfg.1.nofInUse = r.nofBds := by
  simp [rxqueSetDefaultCfg, setQueues, defaultRxQueuesCfg, bdIndex, queueStart]
  omega

theorem setQueues_queSize {nofBds : Nat} {cfg : List RxQueueCfg} {i percentage bds : Nat}
    {queue : Nat → RxQueue} (zero : ∀ p, (queue p).queSize = 0) (p : Nat) :
    ((setQueues nofBds cfg i percentage bds queue).1 p).queSize = 0 := by
  induction cfg generalizing i percentage bds queue with
  | nil => exact zero p
  | cons _ cfg ih =>
    apply ih
    intro p
    by_cases e : p = i
    · rw [e, Function.update_self]
    · rw [Function.update_of_ne e]
      exact zero p

theorem rxqueSetDefaultCfg_queSize (r : RxData) (q : Nat) :
    (r.rxqueSetDefaultCfg.1.queue q).queSize = 0 := by
  change ((setQueues r.nofBds defaultRxQueuesCfg 0 0 0 fun _ => .zero).1 q).queSize = 0
  exact setQueues_queSize (fun _ => rfl) q

/-- `_mtlk_mmb_prealloc_rx_buffers`, on a mirror that was just allocated -/
theorem preallocRxBuffers_sound (alloc : Nat → Bool) (lbufs : r.lbufs = [])
    (mirror : ∀ i, r.mirror i = .zero) (zero : ∀ q, (r.queue q).queSize = 0)
    (total : r.bdIndex r.nofInUse = r.nofBds) (asserted : r.asserts = true)
    (bufs : Accounted r.allocated [] (r.up ++ r.freed)) : Sound (r.preallocRxBuffers alloc) := by
  have nothing : Filled r 0 := by
    constructor
    case nodup => simp [lbufs]
    case lt => simp [lbufs]
    case sizes => simpa using fun q _ => zero q
    case slots => exact fun _ _ i _ lt => absurd lt (Nat.not_lt_zero i)
    case pending => simp [lbufs]
    case carrying => exact fun i lt => absurd lt (Nat.not_lt_zero i)
    case rest => simp [mirror, DataInd.zero]
    case bufs => exact bufs
  obtain ⟨filled, shape⟩ := nothing.preallocQueues alloc (q := 0) (Nat.zero_add _)
  rw [total, ← shape.nofBds] at filled
  apply filled.sound
  · rw [bdIndex_congr shape.maxQueSize, shape.nofInUse, shape.nofBds, total]
  · rw [shape.asserts, asserted]

/-- The slots are there again. -/
theorem Sound.rebuild (h : Sound r) (torn : r.Torn) (alloc : Nat → Bool) (nofBds : Nat) :
    Sound ((r.prepareDataIndBdr nofBds true).rxqueSetDefaultCfg.1.preallocRxBuffers alloc) := by
  have bufs := h.bufs
  rw [carried, torn.buffers, if_neg Bool.false_ne_true] at bufs
  apply preallocRxBuffers_sound
  case lbufs => exact torn.lbufs
  case mirror => exact fun _ => rfl
  case zero => exact rxqueSetDefaultCfg_queSize _
  case total => exact rxqueSetDefaultCfg_total _
  case asserted => exact h.asserted
  case bufs => exact bufs

end RxData

end Wave300.Mmb.Card
