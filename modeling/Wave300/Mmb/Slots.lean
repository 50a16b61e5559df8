import Mathlib.Algebra.Order.Ring.Int
import Wave300.Lib.Tokens
import Wave300.Txmm.Handover

/-!
# The message slots of the hardware

`hw_mmb.c`: the driver and the firmware share seven arrays of message descriptors. A slot, that is
the type of an array and an index into it, is given to the firmware by `_mtlk_mmb_send_msg`, which
writes it into the REQ ring, and given back through the IND ring. The driver keeps its slots in
the pools of the three arrays of requests and in the list of RX buffers to be allocated again; the
tasklet, the recovery timer and any number of senders each have slots in hand between two accesses.

The contents of the messages are left out. `outbox`, `callers`, `passed` and `away` are not in the
source: they say who has a slot that is in none of the lists.
-/

namespace Wave300.Mmb.Slots

open Lib Txmm

/-- `ARRAY_DAT_IND` to `ARRAY_DAT_LOGGER_IND` -/
inductive ArrayId where
  | datInd
  | datReq
  | manInd
  | manReq
  | dbgInd
  | dbgReq
  | datLoggerInd
  deriving DecidableEq

def ArrayId.all : List ArrayId :=
  [.datInd, .datReq, .manInd, .manReq, .dbgInd, .dbgReq, .datLoggerInd]

/-- `u8Type` and `u8Index` of an element of the rings. -/
structure Slot where
  type : ArrayId
  index : Nat
  deriving DecidableEq

/-- `is_man ? ARRAY_MAN_REQ : ARRAY_DBG_REQ` -/
def cmReq (isMan : Bool) : ArrayId := if isMan then .manReq else .dbgReq

/-- `nof_bds` of the arrays, `max_que_size` of the RX queues and `bds.req.size`. The queues take up
the array of data indications, which `_mtlk_mmb_rxque_set_default_cfg` checks. -/
structure Config where
  nof : ArrayId → Nat
  rxQueues : List Nat
  rxTotal : rxQueues.sum = nof .datInd
  reqSize : Nat
  manMsgSize : UInt16
  dbgMsgSize : UInt16

def Config.slotsOf (c : Config) (t : ArrayId) : List Slot := (List.range (c.nof t)).map (Slot.mk t)

/-- All slots of all arrays. -/
def Config.slots (c : Config) : List Slot := ArrayId.all.flatMap c.slotsOf

/-- `MTLK_MAX_RX_BUFFS_TO_RECOVER` -/
def maxRxBuffsToRecover : Nat := 65535

/-- Where the tasklet is with the message it has read. -/
inductive Tasklet where
  | idle
  | received (x : Slot)
  | confirmed (isMan : Bool) (index : Nat)
  deriving DecidableEq

/-- Where `_mtlk_mmb_recover_rx_buffers` is. -/
inductive Recovery where
  | idle
  | loop (i : Nat)
  | popped (i index : Nat)
  deriving DecidableEq

/-- `mtlk_hw_t`: TXMM and TXDM with the pools they use; the pool of data requests, and the messages
that were got from it and not sent or released yet; the RX buffers to be allocated again; what the
tasklet and the timer are at; the slots TXMM and TXDM have bound and not sent yet; the IND ring
from the element read next on; and the REQ ring. -/
structure Hw (n k : Nat) (μ κ ν : Type) where
  txmm : Base n μ Nat κ ν
  txdm : Base k μ Nat κ ν
  freeList : List Nat
  usedList : List Nat
  nofFreeBds : Nat
  callers : List Nat
  lbufs : List Nat
  tasklet : Tasklet
  recovery : Recovery
  outbox : List Slot
  ind : List Slot
  req : Exchange Slot

/-- The loop of `_mtlk_mmb_prealloc_rx_buffers` over one queue, of whose buffers `count` are left.
After a failed allocation the rest of the queue is to be allocated later. -/
def preallocQueue (alloc : Nat → Bool) : Nat → Nat → Bool → List Nat → List Nat
  | 0, _, _, lbufs => lbufs
  | count + 1, i, ares, lbufs =>
    if ares && alloc i then preallocQueue alloc count (i + 1) true lbufs
    else preallocQueue alloc count (i + 1) false (i :: lbufs)

/-- `_mtlk_mmb_prealloc_rx_buffers`, where the allocation for index `i` succeeds if `alloc i`. -/
def preallocRxBuffers (alloc : Nat → Bool) : List Nat → Nat → List Nat → List Nat
  | [], _, lbufs => lbufs
  | size :: queues, bdIndex, lbufs =>
    preallocRxBuffers alloc queues (bdIndex + size) (preallocQueue alloc size bdIndex true lbufs)

/-- The RX buffers that could not be allocated at first. -/
def Config.unallocated (c : Config) (alloc : Nat → Bool) : List Nat :=
  preallocRxBuffers alloc c.rxQueues 0 []

/-- The slots that the firmware has from the start: all indications that have a buffer. -/
def Config.indications (c : Config) (alloc : Nat → Bool) : List Slot :=
  ((List.range (c.nof .datInd)).filter fun i => decide (i ∉ c.unallocated alloc)).map
      (Slot.mk .datInd) ++
    c.slotsOf .manInd ++ c.slotsOf .dbgInd ++ c.slotsOf .datLoggerInd

variable {n k : Nat} {μ κ ν : Type}

namespace Hw

def init (n k : Nat) [NeZero n] [NeZero k] (c : Config) (alloc : Nat → Bool) : Hw n k μ κ ν where
  txmm := Base.init n c.manMsgSize (List.range (c.nof .manReq))
  txdm := Base.init k c.dbgMsgSize (List.range (c.nof .dbgReq))
  freeList := List.range (c.nof .datReq)
  usedList := []
  nofFreeBds := c.nof .datReq
  callers := []
  lbufs := c.unallocated alloc
  tasklet := .idle
  recovery := .idle
  outbox := []
  ind := []
  req := Exchange.start (c.indications alloc)

/-- `_mtlk_mmb_send_msg` -/
def sendMsg (c : Config) (s : Hw n k μ κ ν) (x : Slot) : Hw n k μ κ ν :=
  { s with req := s.req.pass c.reqSize x }

/-- TXMM has left its lock, and calls `_txmm_send` for what it has bound. -/
def leaveTxmm (s : Hw n k μ κ ν) (base : Base n μ Nat κ ν) : Hw n k μ κ ν :=
  { s with
    txmm := base
    outbox := s.outbox ++ (sends s.txmm base).map (Slot.mk .manReq) }

/-- TXDM has left its lock, and calls `_txdm_send` for what it has bound. -/
def leaveTxdm (s : Hw n k μ κ ν) (base : Base k μ Nat κ ν) : Hw n k μ κ ν :=
  { s with
    txdm := base
    outbox := s.outbox ++ (sends s.txdm base).map (Slot.mk .dbgReq) }

/-- `_mtlk_mmb_get_msg_from_data_pool` -/
def getMsgFromDataPool (s : Hw n k μ κ ν) : Hw n k μ κ ν :=
  match s.freeList with
  | [] => s
  | i :: rest =>
    { s with
      freeList := rest
      nofFreeBds := s.nofFreeBds - 1
      usedList := s.usedList ++ [i]
      callers := i :: s.callers }

/-- `_mtlk_mmb_free_sent_msg_to_data_pool` -/
def freeSentMsgToDataPool (s : Hw n k μ κ ν) (i : Nat) : Hw n k μ κ ν :=
  { s with
    usedList := s.usedList.erase i
    freeList := s.freeList ++ [i]
    nofFreeBds := s.nofFreeBds + 1 }

/-- `_mtlk_mmb_handle_dat_ind`, after the frame went up -/
def handleDatInd (c : Config) (s : Hw n k μ κ ν) (i : Nat) (allocated : Bool) : Hw n k μ κ ν :=
  if allocated then s.sendMsg c ⟨.datInd, i⟩ else { s with lbufs := i :: s.lbufs }

/-- `_mtlk_mmb_handle_received_msg`, while events are not stopped, up to the second section of a
confirmation. The callbacks into the core take slots at most by way of the other labels. -/
def handleReceivedMsg (c : Config) (s : Hw n k μ κ ν) (allocated : Bool) : Slot → Hw n k μ κ ν
  | ⟨.datInd, i⟩ => s.handleDatInd c i allocated
  | ⟨.datReq, i⟩ => s.freeSentMsgToDataPool i
  | ⟨.manInd, i⟩ => s.sendMsg c ⟨.manInd, i⟩
  | ⟨.manReq, i⟩ => { s.leaveTxmm (s.txmm.onCfm i) with tasklet := .confirmed true i }
  | ⟨.dbgInd, i⟩ => s.sendMsg c ⟨.dbgInd, i⟩
  | ⟨.dbgReq, i⟩ => { s.leaveTxdm (s.txdm.onCfm i) with tasklet := .confirmed false i }
  | ⟨.datLoggerInd, i⟩ => s.sendMsg c ⟨.datLoggerInd, i⟩

/-- The tasklet goes on: it reads an element, handles it, and after the confirmation of a
management or debug request pumps its slot. -/
def taskletStep (c : Config) (s : Hw n k μ κ ν) (allocated : Bool) : Hw n k μ κ ν :=
  match s.tasklet with
  | .idle =>
    match s.ind with
    | [] => s
    | x :: rest => { s with ind := rest, tasklet := .received x }
  | .received x => { s with tasklet := .idle }.handleReceivedMsg c allocated x
  | .confirmed true i => { s.leaveTxmm (s.txmm.pump (some i)) with tasklet := .idle }
  | .confirmed false i => { s.leaveTxdm (s.txdm.pump (some i)) with tasklet := .idle }

/-- One access of `_mtlk_mmb_recover_rx_buffers`, which the timer starts. -/
def recoveryStep (c : Config) (s : Hw n k μ κ ν) (allocated : Bool) : Hw n k μ κ ν :=
  match s.recovery with
  | .idle => { s with recovery := .loop 0 }
  | .loop i =>
    if i < maxRxBuffsToRecover then
      match s.lbufs with
      | [] => { s with recovery := .idle }
      | index :: rest => { s with lbufs := rest, recovery := .popped i index }
    else { s with recovery := .idle }
  | .popped i index =>
    if allocated then { s with recovery := .loop (i + 1) }.sendMsg c ⟨.datInd, index⟩
    else { s with lbufs := index :: s.lbufs, recovery := .idle }

end Hw

inductive Label (n k : Nat) (μ κ ν : Type) where
  | txmm (op : Op n μ Nat κ ν)
  | txdm (op : Op k μ Nat κ ν)
  | txmSend (x : Slot)
  | getMsgToSend
  | sendData (i : Nat)
  | releaseMsgToSend (i : Nat)
  | tasklet (allocated : Bool)
  | recovery (allocated : Bool)
  | fwCollects
  | fwReturns (x : Slot)

variable [DecidableEq μ]

def step (c : Config) (s : Hw n k μ κ ν) : Label n k μ κ ν → Hw n k μ κ ν
  | .txmm op => s.leaveTxmm (Txmm.step s.txmm op)
  | .txdm op => s.leaveTxdm (Txmm.step s.txdm op)
  | .txmSend x => { s with outbox := s.outbox.erase x }.sendMsg c x
  | .getMsgToSend => s.getMsgFromDataPool
  | .sendData i => { s with callers := s.callers.erase i }.sendMsg c ⟨.datReq, i⟩
  | .releaseMsgToSend i => { s with callers := s.callers.erase i }.freeSentMsgToDataPool i
  | .tasklet allocated => s.taskletStep c allocated
  | .recovery allocated => s.recoveryStep c allocated
  | .fwCollects => { s with req := s.req.collect c.reqSize }
  | .fwReturns x => { s with req := s.req.giveBack x, ind := s.ind ++ [x] }

/-- The confirmations of TXMM and TXDM come from the tasklet. A message is sent or released by
whoever has got it: `mtlk_xmit` and the sender of null packets send it once, and release it when
they could not. The firmware returns what it has taken from the REQ ring, or had from the start. -/
def Enabled (c : Config) (s : Hw n k μ κ ν) : Label n k μ κ ν → Prop
  | .txmm op => op.ByUser
  | .txdm op => op.ByUser
  | .txmSend x => x ∈ s.outbox
  | .sendData i | .releaseMsgToSend i => i ∈ s.callers
  | .getMsgToSend | .tasklet _ | .recovery _ | .fwCollects => True
  | .fwReturns x => s.req.Held c.reqSize x

instance (c : Config) (s : Hw n k μ κ ν) : DecidablePred (Enabled c s)
  | .txmm op => inferInstanceAs (Decidable op.ByUser)
  | .txdm op => inferInstanceAs (Decidable op.ByUser)
  | .txmSend x => inferInstanceAs (Decidable (x ∈ s.outbox))
  | .sendData i => inferInstanceAs (Decidable (i ∈ s.callers))
  | .releaseMsgToSend i => inferInstanceAs (Decidable (i ∈ s.callers))
  | .getMsgToSend => .isTrue trivial
  | .tasklet _ => .isTrue trivial
  | .recovery _ => .isTrue trivial
  | .fwCollects => .isTrue trivial
  | .fwReturns x => inferInstanceAs (Decidable (s.req.Held c.reqSize x))

/-- What the tasklet has in hand. -/
def Tasklet.hand : Tasklet → List Slot
  | .idle => []
  | .received x => [x]
  | .confirmed isMan i => [⟨cmReq isMan, i⟩]

/-- What the timer has in hand. -/
def Recovery.hand : Recovery → List Slot
  | .popped _ i => [⟨.datInd, i⟩]
  | _ => []

/-- The slots that the driver owns, by the places they are in. -/
def Hw.driver (s : Hw n k μ κ ν) : List Slot :=
  s.txmm.pool.map (Slot.mk .manReq) ++ s.txdm.pool.map (Slot.mk .dbgReq) ++
    s.freeList.map (Slot.mk .datReq) ++ s.callers.map (Slot.mk .datReq) ++
    s.lbufs.map (Slot.mk .datInd) ++ s.tasklet.hand ++ s.recovery.hand ++ s.outbox ++ s.ind

/-- The slots that the firmware owns: they were given to it and not returned. -/
def Hw.firmware (s : Hw n k μ κ ν) : List Slot := s.req.away

end Wave300.Mmb.Slots
