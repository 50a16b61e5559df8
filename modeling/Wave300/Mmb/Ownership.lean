import Wave300.Lib.Trace
import Wave300.Mmb.Slots

/-!
# Every slot has one owner

The REQ ring is written without a look at whether there is room. That it never runs over follows
from the ownership of the slots: each is with the driver, in one of its places, or with the
firmware, and each path to `_mtlk_mmb_send_msg` gives away a slot that the driver had in hand.
-/

namespace Wave300.Mmb.Slots

open Lib Txmm

variable {n k : Nat} {μ κ ν : Type} {c : Config} {s t : Hw n k μ κ ν} {x : Slot}

namespace Hw

theorem count_driver (s : Hw n k μ κ ν) (x : Slot) : s.driver.count x =
    (s.txmm.pool.map (Slot.mk .manReq)).count x + (s.txdm.pool.map (Slot.mk .dbgReq)).count x +
      (s.freeList.map (Slot.mk .datReq)).count x + (s.callers.map (Slot.mk .datReq)).count x +
      (s.lbufs.map (Slot.mk .datInd)).count x + s.tasklet.hand.count x +
      s.recovery.hand.count x + s.outbox.count x + s.ind.count x := by
  simp only [driver, List.count_append]

theorem leaveTxmm_driver {l : List Nat} {base : Base n μ Nat κ ν}
    (h : HandsOver l s.txmm base) :
    (s.leaveTxmm base).driver.Perm (l.map (Slot.mk .manReq) ++ s.driver) := by
  rw [List.perm_iff_count]
  intro x
  have slots := (h.map (Slot.mk .manReq)).count_eq x
  simp only [List.map_append, List.count_append] at slots
  simp only [count_driver, leaveTxmm, List.count_append]
  omega

theorem leaveTxdm_driver {l : List Nat} {base : Base k μ Nat κ ν}
    (h : HandsOver l s.txdm base) :
    (s.leaveTxdm base).driver.Perm (l.map (Slot.mk .dbgReq) ++ s.driver) := by
  rw [List.perm_iff_count]
  intro x
  have slots := (h.map (Slot.mk .dbgReq)).count_eq x
  simp only [List.map_append, List.count_append] at slots
  simp only [count_driver, leaveTxdm, List.count_append]
  omega

/-- The tasklet takes one thing in hand for another. -/
theorem tasklet_driver {was : Tasklet} (at_first : s.tasklet = was) (now : Tasklet) :
    (was.hand ++ { s with tasklet := now }.driver).Perm (now.hand ++ s.driver) := by
  rw [List.perm_iff_count]
  intro x
  simp only [count_driver, at_first, List.count_append]
  omega

/-- The timer takes one thing in hand for another. -/
theorem recovery_driver {was : Recovery} (at_first : s.recovery = was) (now : Recovery) :
    (was.hand ++ { s with recovery := now }.driver).Perm (now.hand ++ s.driver) := by
  rw [List.perm_iff_count]
  intro x
  simp only [count_driver, at_first, List.count_append]
  omega

theorem lbufs_driver {u : Hw n k μ κ ν} {i : Nat} {rest : List Nat} (pushed : u.lbufs = i :: rest) :
    u.driver.Perm (⟨.datInd, i⟩ :: { u with lbufs := rest }.driver) := by
  rw [List.perm_iff_count]
  intro x
  simp only [count_driver, pushed, List.map_cons, List.count_cons]
  omega

theorem freeSentMsgToDataPool_driver (s : Hw n k μ κ ν) (i : Nat) :
    (s.freeSentMsgToDataPool i).driver.Perm (⟨.datReq, i⟩ :: s.driver) := by
  rw [List.perm_iff_count]
  intro x
  simp only [freeSentMsgToDataPool, count_driver, List.map_append, List.map_cons, List.map_nil,
    List.count_append, List.count_cons, List.count_nil]
  omega

theorem callers_driver {i : Nat} (mem : i ∈ s.callers) :
    (⟨.datReq, i⟩ :: { s with callers := s.callers.erase i }.driver).Perm s.driver := by
  rw [List.perm_iff_count]
  intro x
  have taken := ((List.perm_cons_erase mem).map (Slot.mk .datReq)).count_eq x
  simp only [List.map_cons, List.count_cons] at taken
  simp only [List.count_cons, count_driver]
  omega

theorem outbox_driver (mem : x ∈ s.outbox) :
    (x :: { s with outbox := s.outbox.erase x }.driver).Perm s.driver := by
  rw [List.perm_iff_count]
  intro y
  have taken := (List.perm_cons_erase mem).count_eq y
  simp only [List.count_cons] at taken
  simp only [List.count_cons, count_driver]
  omega

end Hw

/-- The driver and the firmware hand slots over as an exchange does. -/
abbrev Hands (c : Config) (s t : Hw n k μ κ ν) : Prop :=
  Exchange.Does c.reqSize s.driver s.req t.driver t.req

/-- What was taken out of the places of the driver is sent. -/
theorem sendMsg_hands {u : Hw n k μ κ ν} (less : (x :: u.driver).Perm s.driver)
    (req : u.req = s.req) : Hands c s (u.sendMsg c x) := by
  have sent : (u.sendMsg c x).req = s.req.pass c.reqSize x := congrArg (·.pass c.reqSize x) req
  rw [Hands, sent]
  exact .passes x less

theorem getMsgFromDataPool_hands (s : Hw n k μ κ ν) : Hands c s s.getMsgFromDataPool := by
  unfold Hw.getMsgFromDataPool
  split
  · exact .keeps (.refl _)
  · rename_i i rest pool
    apply Exchange.Does.keeps
    rw [List.perm_iff_count]
    intro x
    simp only [Hw.count_driver, pool, List.map_cons, List.count_cons]
    omega

theorem recoveryStep_hands (s : Hw n k μ κ ν) (allocated : Bool) :
    Hands c s (s.recoveryStep c allocated) := by
  have ends (i : Nat) (loop : s.recovery = .loop i) :
      { s with recovery := .idle }.driver.Perm s.driver :=
    Hw.recovery_driver loop .idle
  unfold Hw.recoveryStep
  split
  · rename_i idle
    exact .keeps (Hw.recovery_driver idle (.loop 0))
  · rename_i i loop
    split
    · split
      · exact .keeps (ends i loop)
      · rename_i index rest more
        have taken := Hw.recovery_driver (s := { s with lbufs := rest }) loop (.popped i index)
        exact .keeps (taken.trans (Hw.lbufs_driver more).symm)
    · exact .keeps (ends i loop)
  · rename_i i index popped
    split
    · exact sendMsg_hands (Hw.recovery_driver popped (.loop (i + 1))) rfl
    · exact .keeps ((Hw.lbufs_driver rfl).trans (Hw.recovery_driver popped .idle))

/-- The tasklet has let go of `x`, and handles it. -/
theorem handleReceivedMsg_hands (idle : s.tasklet = .idle) (allocated : Bool) (x : Slot) :
    Exchange.Does c.reqSize (x :: s.driver) s.req (s.handleReceivedMsg c allocated x).driver
      (s.handleReceivedMsg c allocated x).req := by
  have confirmed (u : Hw n k μ κ ν) (isMan : Bool) (i : Nat) (idle : u.tasklet = .idle)
      (same : u.driver.Perm s.driver) :
      ({ u with tasklet := .confirmed isMan i }.driver).Perm (⟨cmReq isMan, i⟩ :: s.driver) := by
    exact (Hw.tasklet_driver idle (.confirmed isMan i)).trans (same.cons _)
  obtain ⟨type, i⟩ := x
  cases type with
  | datInd =>
    simp only [Hw.handleReceivedMsg, Hw.handleDatInd]
    split
    · exact .passes _ (.refl _)
    · exact .keeps (Hw.lbufs_driver rfl)
  | datReq => exact .keeps (s.freeSentMsgToDataPool_driver i)
  | manInd | dbgInd | datLoggerInd => exact .passes _ (.refl _)
  | manReq =>
    exact .keeps (confirmed _ true i idle (Hw.leaveTxmm_driver (Leaves.onCfm s.txmm i).handsOver))
  | dbgReq =>
    exact .keeps (confirmed _ false i idle (Hw.leaveTxdm_driver (Leaves.onCfm s.txdm i).handsOver))

theorem taskletStep_hands (s : Hw n k μ κ ν) (allocated : Bool) :
    Hands c s (s.taskletStep c allocated) := by
  unfold Hw.taskletStep
  split
  · rename_i idle
    split
    · exact .keeps (.refl _)
    · rename_i x rest unread
      apply Exchange.Does.keeps
      rw [List.perm_iff_count]
      intro y
      simp only [Hw.count_driver, idle, unread, Tasklet.hand, List.count_cons, List.count_nil]
      omega
  · rename_i x received
    exact (handleReceivedMsg_hands rfl allocated x).of_perm
      (Hw.tasklet_driver received .idle).symm
  · rename_i i confirmed
    have pumped := Hw.leaveTxmm_driver (HandsOver.pump_some s.txmm i)
    have let_go := Hw.tasklet_driver (s := s.leaveTxmm (s.txmm.pump (some i))) confirmed .idle
    exact .keeps (let_go.trans pumped).cons_inv
  · rename_i i confirmed
    have pumped := Hw.leaveTxdm_driver (HandsOver.pump_some s.txdm i)
    have let_go := Hw.tasklet_driver (s := s.leaveTxdm (s.txdm.pump (some i))) confirmed .idle
    exact .keeps (let_go.trans pumped).cons_inv

/-- What a step can do, for the ownership of the slots. -/
theorem step_hands [DecidableEq μ] {a : Label n k μ κ ν} (enabled : Enabled c s a) :
    Hands c s (step c s a) := by
  cases a with
  | txmm op => exact .keeps (Hw.leaveTxmm_driver (enabled.handsOver s.txmm))
  | txdm op => exact .keeps (Hw.leaveTxdm_driver (enabled.handsOver s.txdm))
  | txmSend x => exact sendMsg_hands (Hw.outbox_driver enabled) rfl
  | getMsgToSend => exact getMsgFromDataPool_hands s
  | sendData i => exact sendMsg_hands (Hw.callers_driver enabled) rfl
  | releaseMsgToSend i =>
    have freed := Hw.freeSentMsgToDataPool_driver { s with callers := s.callers.erase i } i
    exact .keeps (freed.trans (Hw.callers_driver enabled))
  | tasklet allocated => exact taskletStep_hands s allocated
  | recovery allocated => exact recoveryStep_hands s allocated
  | fwCollects => exact .collects (.refl _)
  | fwReturns x =>
    apply Exchange.Does.givesBack x enabled
    rw [List.perm_iff_count]
    intro y
    simp only [step, Hw.count_driver, List.count_append, List.count_cons, List.count_nil]
    omega

/-- A list of different numbers below `m`. -/
structure Below (l : List Nat) (m : Nat) : Prop where
  nodup : l.Nodup
  lt : ∀ i ∈ l, i < m

theorem preallocQueue_below (alloc : Nat → Bool) {count i : Nat} {ares : Bool} {l : List Nat}
    (h : Below l i) : Below (preallocQueue alloc count i ares l) (i + count) := by
  induction count generalizing i ares l with
  | zero => exact h
  | succ count ih =>
    have next : Below l (i + 1) := ⟨h.nodup, fun j mem => Nat.lt_succ_of_lt (h.lt j mem)⟩
    have pushed : Below (i :: l) (i + 1) := by
      refine ⟨List.nodup_cons.2 ⟨fun mem => Nat.lt_irrefl i (h.lt i mem), h.nodup⟩, ?_⟩
      intro j mem
      obtain rfl | mem := List.mem_cons.1 mem
      · exact Nat.lt_succ_self j
      · exact next.lt j mem
    rw [preallocQueue, show i + (count + 1) = i + 1 + count by omega]
    split
    · exact ih next
    · exact ih pushed

theorem preallocRxBuffers_below (alloc : Nat → Bool) {queues : List Nat} {bdIndex : Nat}
    {l : List Nat} (h : Below l bdIndex) :
    Below (preallocRxBuffers alloc queues bdIndex l) (bdIndex + queues.sum) := by
  induction queues generalizing bdIndex l with
  | nil => exact h
  | cons size queues ih =>
    rw [preallocRxBuffers, List.sum_cons, ← Nat.add_assoc]
    exact ih (preallocQueue_below alloc h)

theorem Config.unallocated_below (c : Config) (alloc : Nat → Bool) :
    Below (c.unallocated alloc) (c.nof .datInd) := by
  have below : Below (c.unallocated alloc) (0 + c.rxQueues.sum) :=
    preallocRxBuffers_below alloc ⟨List.nodup_nil, fun i mem => absurd mem List.not_mem_nil⟩
  rwa [Nat.zero_add, c.rxTotal] at below

theorem Below.perm {l : List Nat} {m : Nat} (h : Below l m) :
    (l ++ (List.range m).filter fun i => decide (i ∉ l)).Perm (List.range m) := by
  rw [List.perm_ext_iff_of_nodup]
  · intro i
    by_cases mem : i ∈ l
    · simp [mem, h.lt i mem]
    · simp [mem]
  · apply List.Nodup.append h.nodup (List.nodup_range.filter _)
    intro i mem out
    exact of_decide_eq_true (List.mem_filter.1 out).2 mem
  · exact List.nodup_range

theorem Config.slots_nodup (c : Config) : c.slots.Nodup := by
  have apart : ArrayId.all.Nodup := by decide
  rw [Config.slots, List.nodup_flatMap]
  constructor
  · intro t _
    exact List.nodup_range.map fun i j same => (Slot.mk.inj same).2
  · apply apart.imp
    intro t u ne x mem mem'
    obtain ⟨i, -, rfl⟩ := List.mem_map.1 mem
    obtain ⟨j, -, same⟩ := List.mem_map.1 mem'
    exact ne (Slot.mk.inj same).1.symm

theorem Config.slots_length (c : Config) : c.slots.length = (ArrayId.all.map c.nof).sum := by
  simp only [Config.slots, Config.slotsOf, List.length_flatMap, List.length_map, List.length_range]

theorem init_dealt [NeZero n] [NeZero k] (c : Config) (alloc : Nat → Bool) :
    Exchange.Dealt c.slots c.reqSize (Hw.init n k c alloc : Hw n k μ κ ν).driver
      (Hw.init n k c alloc : Hw n k μ κ ν).req := by
  apply Exchange.Dealt.start
  rw [List.perm_iff_count]
  intro x
  have data := ((c.unallocated_below alloc).perm.map (Slot.mk .datInd)).count_eq x
  simp only [List.map_append, List.count_append] at data
  simp only [Hw.count_driver, Hw.init, Base.init, Config.indications, Config.slots, Config.slotsOf,
    ArrayId.all, Tasklet.hand, Recovery.hand, List.map_nil, List.flatMap_cons, List.flatMap_nil,
    List.count_append, List.count_nil]
  omega

variable [DecidableEq μ]

/-- What the run keeps: the slots are dealt, and in a ring with room for all of them nothing is
overwritten. -/
structure Inv (c : Config) (s : Hw n k μ κ ν) : Prop where
  dealt : Exchange.Dealt c.slots c.reqSize s.driver s.req
  fits : 0 < c.reqSize → c.slots.length ≤ c.reqSize → Exchange.Fits c.reqSize s.req

theorem Inv.step {a : Label n k μ κ ν} (h : Inv c s) (enabled : Enabled c s a) :
    Inv c (step c s a) where
  dealt := h.dealt.step c.slots_nodup (step_hands enabled)
  fits := fun pos enough => (h.fits pos enough).step h.dealt enough pos (step_hands enabled)

theorem run_inv [NeZero n] [NeZero k] {alloc : Nat → Bool}
    (run : Runs (step c) (Enabled c) (Hw.init n k c alloc) s) : Inv c s :=
  run.invariant ⟨init_dealt c alloc, fun _ _ => .start ..⟩ fun _ _ inv enabled => inv.step enabled

/-- The two lists of the data pool, and the counter that flow control reads. -/
structure DataPool (c : Config) (s : Hw n k μ κ ν) : Prop where
  lists : (s.usedList ++ s.freeList).Perm (List.range (c.nof .datReq))
  counter : s.nofFreeBds = s.freeList.length

section
omit [DecidableEq μ]

theorem DataPool.same (h : DataPool c s) (used : t.usedList = s.usedList)
    (free : t.freeList = s.freeList) (nof : t.nofFreeBds = s.nofFreeBds) : DataPool c t :=
  ⟨used ▸ free ▸ h.lists, nof ▸ free ▸ h.counter⟩

/-- A message that is in hand is on the list of used ones. -/
theorem DataPool.used (h : DataPool c s) (inv : Inv c s) {i : Nat}
    (hand : 0 < (s.callers.map (Slot.mk .datReq)).count ⟨.datReq, i⟩ +
      s.tasklet.hand.count ⟨.datReq, i⟩) : i ∈ s.usedList := by
  have nodup : s.driver.Nodup := (inv.dealt.all.nodup_iff.2 c.slots_nodup).of_append_left
  have places := s.count_driver ⟨.datReq, i⟩
  have once := List.nodup_iff_count_le_one.1 nodup ⟨.datReq, i⟩
  have valid : ⟨.datReq, i⟩ ∈ c.slots := by
    apply inv.dealt.all.subset
    exact List.mem_append_left _ (List.count_pos_iff.1 (by omega))
  have notFree : i ∉ s.freeList := by
    intro mem
    have pos := List.count_pos_iff.2 (List.mem_map_of_mem (f := Slot.mk .datReq) mem)
    omega
  have lt : i < c.nof .datReq := by
    obtain ⟨t, -, mem⟩ := List.mem_flatMap.1 valid
    obtain ⟨j, range, same⟩ := List.mem_map.1 mem
    cases same
    exact List.mem_range.1 range
  have mem := h.lists.symm.subset (List.mem_range.2 lt)
  exact (List.mem_append.1 mem).resolve_right notFree

theorem DataPool.get (h : DataPool c s) : DataPool c s.getMsgFromDataPool := by
  unfold Hw.getMsgFromDataPool
  split
  · exact h
  · rename_i i rest pool
    have lists := h.lists
    have counter := h.counter
    rw [pool] at lists counter
    constructor
    case lists =>
      rw [List.append_assoc]
      exact lists
    case counter => simp only [counter, List.length_cons, Nat.add_sub_cancel]

theorem DataPool.free (h : DataPool c s) {i : Nat} (mem : i ∈ s.usedList) :
    DataPool c (s.freeSentMsgToDataPool i) where
  lists := by
    rw [List.perm_iff_count]
    intro j
    have lists := h.lists.count_eq j
    have taken := (List.perm_cons_erase mem).count_eq j
    simp only [List.count_append, List.count_cons] at lists taken
    simp only [Hw.freeSentMsgToDataPool, List.count_append, List.count_cons, List.count_nil]
    omega
  counter := by
    simp only [Hw.freeSentMsgToDataPool, h.counter, List.length_append, List.length_singleton]

theorem DataPool.taskletStep (h : DataPool c s) (inv : Inv c s) (allocated : Bool) :
    DataPool c (s.taskletStep c allocated) := by
  unfold Hw.taskletStep
  split
  · split <;> exact h.same rfl rfl rfl
  · rename_i x received
    obtain ⟨type, i⟩ := x
    cases type with
    | datReq =>
      have mem : i ∈ s.usedList := by
        apply h.used inv
        simp only [received, Tasklet.hand, List.count_singleton_self]
        omega
      have kept : DataPool c { s with tasklet := .idle } := h.same rfl rfl rfl
      exact kept.free mem
    | datInd =>
      simp only [Hw.handleReceivedMsg, Hw.handleDatInd]
      split <;> exact h.same rfl rfl rfl
    | manInd | manReq | dbgInd | dbgReq | datLoggerInd => exact h.same rfl rfl rfl
  · exact h.same rfl rfl rfl
  · exact h.same rfl rfl rfl

theorem DataPool.recoveryStep (h : DataPool c s) (allocated : Bool) :
    DataPool c (s.recoveryStep c allocated) := by
  unfold Hw.recoveryStep
  split
  · exact h.same rfl rfl rfl
  · split
    · split <;> exact h.same rfl rfl rfl
    · exact h.same rfl rfl rfl
  · split <;> exact h.same rfl rfl rfl

end

theorem DataPool.step {a : Label n k μ κ ν} (h : DataPool c s) (inv : Inv c s)
    (enabled : Enabled c s a) : DataPool c (step c s a) := by
  cases a with
  | txmm | txdm | txmSend | sendData | fwCollects | fwReturns => exact h.same rfl rfl rfl
  | getMsgToSend => exact h.get
  | releaseMsgToSend i =>
    have mem : i ∈ s.usedList := by
      apply h.used inv
      have pos := List.count_pos_iff.2 (List.mem_map_of_mem (f := Slot.mk .datReq) enabled)
      omega
    have kept : DataPool c { s with callers := s.callers.erase i } := h.same rfl rfl rfl
    exact kept.free mem
  | tasklet allocated => exact h.taskletStep inv allocated
  | recovery allocated => exact h.recoveryStep allocated

/-- Throughout, each data message is on one of the two lists and `tx_data_nof_free_bds` counts the
free ones, so that a message is never taken off a list it is not on. -/
theorem data_pool_exact [NeZero n] [NeZero k] {alloc : Nat → Bool}
    (run : Runs (step c) (Enabled c) (Hw.init n k c alloc) s) : DataPool c s := by
  have both : Inv c s ∧ DataPool c s := by
    apply run.invariant
    · exact ⟨⟨init_dealt c alloc, fun _ _ => .start ..⟩, ⟨.refl _, List.length_range.symm⟩⟩
    · intro s a ⟨inv, pool⟩ enabled
      exact ⟨inv.step enabled, pool.step inv enabled⟩
  exact both.2

/-- Each slot has one owner, and is in one place if that is the driver; `_mtlk_mmb_send_msg` gives
away what the driver owns; no slot is in the REQ ring twice; and with as many elements as all the
arrays together it has room for each element that is written. -/
structure OneOwner (c : Config) (s : Hw n k μ κ ν) : Prop where
  owner : ∀ x ∈ c.slots, x ∈ s.driver ∧ x ∉ s.firmware ∨ x ∉ s.driver ∧ x ∈ s.firmware
  place : s.driver.Nodup
  writes : ∀ a, Enabled c s a → (step c s a).req.passed = s.req.passed ∨
    ∃ x, (step c s a).req.passed = s.req.passed ++ [x] ∧ x ∈ s.driver ∧ x ∉ s.firmware
  once : ∀ i < c.reqSize, ∀ j < c.reqSize, ∀ x,
    s.req.ring i = some x → s.req.ring j = some x → i = j
  room : (ArrayId.all.map c.nof).sum ≤ c.reqSize → ∀ a, Enabled c s a →
    (step c s a).req.passed ≠ s.req.passed → s.req.ring s.req.idx = none

theorem slots_have_one_owner [NeZero n] [NeZero k] {alloc : Nat → Bool}
    (run : Runs (step c) (Enabled c) (Hw.init n k c alloc) s) : OneOwner c s := by
  have inv := run_inv run
  have nodup := inv.dealt.all.nodup_iff.2 c.slots_nodup
  constructor
  case owner =>
    intro x mem
    obtain mine | theirs := List.mem_append.1 (inv.dealt.all.mem_iff.2 mem)
    · exact .inl ⟨mine, inv.dealt.not_away c.slots_nodup mine⟩
    · exact .inr ⟨fun mine => inv.dealt.not_away c.slots_nodup mine theirs, theirs⟩
  case place => exact nodup.of_append_left
  case writes =>
    intro a enabled
    obtain unchanged | ⟨x, wrote, mine⟩ := (step_hands enabled).passed
    · exact .inl unchanged
    · exact .inr ⟨x, wrote, mine, inv.dealt.not_away c.slots_nodup mine⟩
  case once => exact inv.dealt.once
  case room =>
    intro enough a enabled wrote
    rw [← c.slots_length] at enough
    obtain unchanged | ⟨x, -, mine⟩ := (step_hands enabled).passed
    · exact absurd unchanged wrote
    · have valid : x ∈ c.slots := inv.dealt.all.subset (List.mem_append_left _ mine)
      have pos : 0 < c.reqSize := Nat.lt_of_lt_of_le (List.length_pos_of_mem valid) enough
      exact inv.dealt.room (inv.fits pos enough) enough mine

/-- Arrays of one slot each, and two RX buffers. -/
def exampleConfig : Config where
  nof t := if t = .datInd then 2 else 1
  rxQueues := [1, 1]
  rxTotal := rfl
  reqSize := 8
  manMsgSize := 0
  dbgMsgSize := 0

/-- The second RX buffer is allocated by the timer. A management message is sent and confirmed,
while a data message is under way and an indication finds no buffer. -/
def exampleLabels : List (Label 1 1 Nat Unit Nat) :=
  [.recovery true, .recovery true, .recovery true, .fwCollects, .txmm .start,
    .txmm (.getEmptyData 5 0), .txmm (.msgSend 5 ⟨1, 0, (), 0⟩ 0), .getMsgToSend,
    .txmSend ⟨.manReq, 0⟩, .sendData 0, .fwReturns ⟨.datInd, 0⟩, .tasklet true, .tasklet false,
    .fwCollects, .fwReturns ⟨.manReq, 0⟩, .tasklet true, .tasklet true]

theorem slots_have_one_owner_of_two_sends :
    OneOwner exampleConfig (exampleLabels.foldl (step exampleConfig)
      (Hw.init 1 1 exampleConfig (· = 0))) ∧
    (exampleLabels.foldl (step exampleConfig) (Hw.init 1 1 exampleConfig (· = 0))).req.ring 2 =
      some ⟨.datReq, 0⟩ :=
  ⟨slots_have_one_owner (Runs.of_allowed (by decide)), by decide⟩

end Wave300.Mmb.Slots
