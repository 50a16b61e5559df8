import Mathlib.Algebra.Order.Ring.Int
import Mathlib.Data.Finset.Card
import Mathlib.Order.Interval.Finset.Nat
import Wave300.Lib.Accounts

/-!
# The slots for received data

`hw_mmb.c`: `rx_data` is the ring of data indications with its mirror array, and each slot of it
belongs to one of the RX queues. A slot has a buffer for the firmware to fill, or is in the list of
pending slots, for which a buffer is still to be allocated.

Buffers are numbered in the order of their allocation. `mapped`, `allocated`, `up`, `freed` and
`asserts` are not in the source: they say whether a buffer is mapped, what became of the buffers,
and whether all assertions held.
-/

namespace Wave300.Mmb.Card

open Lib

/-- `mtlk_hw_data_ind_mirror_t` -/
structure DataInd where
  nbuf : Option Nat
  mapped : Bool
  size : Nat
  queIdx : Nat
  deriving DecidableEq

/-- The mirror after `memset`. -/
def DataInd.zero : DataInd := ⟨none, false, 0, 0⟩

/-- `mtlk_hw_rx_queue_t` -/
structure RxQueue where
  maxQueSize : Nat
  queSize : Nat
  bufSize : Nat
  deriving DecidableEq

def RxQueue.zero : RxQueue := ⟨0, 0, 0⟩

def RxQueue.setSize (queue : RxQueue) (queSize : Nat) : RxQueue := { queue with queSize }

/-- The slots of the queues before queue `q`. -/
def queueStart (queue : Nat → RxQueue) : Nat → Nat
  | 0 => 0
  | q + 1 => queueStart queue q + (queue q).maxQueSize

/-- `mtlk_hw_rx_queue_cfg_t`. Nothing reads `min_buffers`. -/
structure RxQueueCfg where
  percentage : Nat
  dataSize : Nat

/-- `default_rx_queues_cfg` -/
def defaultRxQueuesCfg : List RxQueueCfg := [⟨40, 100⟩, ⟨40, 1600⟩, ⟨20, 4082⟩]

/-- `sizeof(MAC_RX_ADDITIONAL_INFO_T) + RX_MAX_MSG_OFFSET` -/
def rxBufOverhead : Nat := 12 + 2

/-- `MTLK_MAX_RX_BUFFS_TO_RECOVER` -/
def maxRxBuffsToRecover : Nat := 65535

/-- `rx_data` with its mirror, `rx_data_queues`, `rx_data_pending` and the flags
`HW_FLAGS_PREPARED_DATA_IND_BDR` and `HW_FLAGS_PREPARED_RX_BUFFERS`. -/
structure RxData where
  ring : Bool
  buffers : Bool
  nofBds : Nat
  mirror : Nat → DataInd
  nofInUse : Nat
  queue : Nat → RxQueue
  lbufs : List Nat
  allocated : Nat
  up : List Nat
  freed : List Nat
  asserts : Bool

namespace RxData

def init : RxData where
  ring := false
  buffers := false
  nofBds := 0
  mirror := fun _ => .zero
  nofInUse := 0
  queue := fun _ => .zero
  lbufs := []
  allocated := 0
  up := []
  freed := []
  asserts := true

/-- The mirror of one slot changes. -/
def setSlot (r : RxData) (i : Nat) (dataInd : DataInd) : RxData :=
  { r with mirror := Function.update r.mirror i dataInd }

/-- `que_size++` -/
def incQueSize (r : RxData) (q : Nat) : RxData :=
  { r with queue := Function.update r.queue q ((r.queue q).setSize ((r.queue q).queSize + 1)) }

/-- `que_size--` -/
def decQueSize (r : RxData) (q : Nat) : RxData :=
  { r with queue := Function.update r.queue q ((r.queue q).setSize ((r.queue q).queSize - 1)) }

/-- `mtlk_lslist_push` -/
def pushPending (r : RxData) (i : Nat) : RxData := { r with lbufs := i :: r.lbufs }

/-- `_mtlk_mmb_nbuf_alloc` and `mtlk_df_nbuf_map_to_phys_addr` for slot `i`, which is what
`_mtlk_mmb_alloc_and_set_rx_buffer` does. -/
def allocAndSetRxBuffer (r : RxData) (i : Nat) (ok : Bool) : RxData :=
  if ok then
    { r with allocated := r.allocated + 1 }.setSlot i
      { r.mirror i with nbuf := some r.allocated, mapped := true }
  else r.setSlot i { r.mirror i with nbuf := none }

/-- The loop of `_mtlk_mmb_rxque_set_default_cfg`: the queues, `total_percentage` and
`total_bds`. -/
def setQueues (nofBds : Nat) : List RxQueueCfg → Nat → Nat → Nat → (Nat → RxQueue) →
    (Nat → RxQueue) × Nat × Nat
  | [], _, totalPercentage, totalBds, queue => (queue, totalPercentage, totalBds)
  | cfg :: rest, i, totalPercentage, totalBds, queue =>
    let maxQueSize := if rest.isEmpty then nofBds - totalBds else nofBds * cfg.percentage / 100
    setQueues nofBds rest (i + 1) (totalPercentage + cfg.percentage) (totalBds + maxQueSize)
      (Function.update queue i ⟨maxQueSize, 0, cfg.dataSize + rxBufOverhead⟩)

/-- `_mtlk_mmb_rxque_set_default_cfg` -/
def rxqueSetDefaultCfg (r : RxData) : RxData × Bool :=
  let (queue, totalPercentage, totalBds) :=
    setQueues r.nofBds defaultRxQueuesCfg 0 0 0 fun _ => .zero
  let nofInUse := defaultRxQueuesCfg.length
  ({ r with queue, nofInUse },
    if totalPercentage > 100 then false
    else if totalBds ≠ r.nofBds then false
    else nofInUse ≠ 0)

/-- The loop of `_mtlk_mmb_prealloc_rx_buffers` over the slots of one queue, of which `count` are
left. After a failed allocation the rest of the queue is pending. -/
def preallocQueue (alloc : Nat → Bool) (nque : Nat) : Nat → Nat → Bool → RxData → RxData
  | 0, _, _, r => r
  | count + 1, i, ares, r =>
    let r := r.setSlot i { r.mirror i with queIdx := nque, size := (r.queue nque).bufSize }
    if ares then
      if alloc i then
        preallocQueue alloc nque count (i + 1) true
          ((r.allocAndSetRxBuffer i true).incQueSize nque)
      else
        preallocQueue alloc nque count (i + 1) false
          ((r.allocAndSetRxBuffer i false).pushPending i)
    else preallocQueue alloc nque count (i + 1) false (r.pushPending i)

/-- The loop of `_mtlk_mmb_prealloc_rx_buffers` over the queues, of which `left` are left. -/
def preallocQueues (alloc : Nat → Bool) : Nat → Nat → Nat → RxData → RxData
  | 0, _, _, r => r
  | left + 1, nque, bdIndex, r =>
    let r := { r with queue := Function.update r.queue nque ((r.queue nque).setSize 0) }
    let size := (r.queue nque).maxQueSize
    preallocQueues alloc left (nque + 1) (bdIndex + size)
      (preallocQueue alloc nque size bdIndex true r)

/-- `_mtlk_mmb_prealloc_rx_buffers`, where the allocation for slot `i` succeeds if `alloc i`. -/
def preallocRxBuffers (r : RxData) (alloc : Nat → Bool) : RxData :=
  { preallocQueues alloc r.nofInUse 0 0 r with buffers := true }

/-- `_mtlk_mmb_handle_dat_ind`, where `ok` says whether a new buffer could be allocated -/
def handleDatInd (r : RxData) (i : Nat) (ok : Bool) : RxData :=
  let q := (r.mirror i).queIdx
  let r := { r with up := r.up ++ (r.mirror i).nbuf.toList }.setSlot i
    { r.mirror i with mapped := false }
  let r := (r.decQueSize q).allocAndSetRxBuffer i ok
  if ok then r.incQueSize q else r.pushPending i

/-- `_mtlk_mmb_recover_rx_buffers` with `left` more rounds to go -/
def recoverRxBuffers (alloc : Nat → Bool) : Nat → RxData → RxData
  | 0, r => r
  | left + 1, r =>
    match r.lbufs with
    | [] => r
    | i :: rest =>
      let r := { r with lbufs := rest }
      if alloc i then
        recoverRxBuffers alloc left
          ((r.allocAndSetRxBuffer i true).incQueSize (r.mirror i).queIdx)
      else (r.allocAndSetRxBuffer i false).pushPending i

/-- The first loop of `_mtlk_mmb_empty_pending_rx_buffers`, over what is left of the list. -/
def emptyPending : List Nat → RxData → RxData
  | [], r => { r with lbufs := [] }
  | i :: rest, r => emptyPending rest (r.incQueSize (r.mirror i).queIdx)

/-- `_mtlk_mmb_empty_pending_rx_buffers` -/
def emptyPendingRxBuffers (r : RxData) : RxData :=
  let r := emptyPending r.lbufs r
  let full := (List.range r.nofInUse).all fun q => (r.queue q).queSize = (r.queue q).maxQueSize
  { r with asserts := r.asserts && full }

/-- `_mtlk_mmb_free_preallocated_rx_buffers` -/
def freePreallocatedRxBuffers (r : RxData) : RxData :=
  if r.buffers then
    { r with
      freed := r.freed ++ (List.range r.nofBds).filterMap fun i => (r.mirror i).nbuf
      mirror := fun i => { r.mirror i with mapped := false }
      buffers := false }
  else r

/-- `_mtlk_mmb_cleanup_data_ind_bdr` -/
def cleanupDataIndBdr (r : RxData) : RxData := { r with ring := false }

/-- `_mtlk_mmb_prepare_data_ind_bdr` -/
def prepareDataIndBdr (r : RxData) (nofBds : Nat) (allocated : Bool) : RxData :=
  if allocated then { r with nofBds := nofBds, mirror := fun _ => .zero, ring := true } else r

/-- Where the slots of queue `q` start. -/
def bdIndex (r : RxData) (q : Nat) : Nat := queueStart r.queue q

/-- The slots of queue `q`. -/
def slotsOf (r : RxData) (q : Nat) : Finset Nat := Finset.Ico (r.bdIndex q) (r.bdIndex (q + 1))

/-- The buffers of the slots, while they are prepared. -/
def carried (r : RxData) : List Nat :=
  if r.buffers then (List.range r.nofBds).filterMap fun i => (r.mirror i).nbuf else []

/-- What the operations keep. -/
structure Sound (r : RxData) : Prop where
  total : r.bdIndex r.nofInUse = r.nofBds
  nodup : r.lbufs.Nodup
  lt : ∀ i ∈ r.lbufs, i < r.nofBds
  sizes : ∀ q < r.nofInUse, (r.queue q).queSize = {i ∈ r.slotsOf q | i ∉ r.lbufs}.card
  slots : r.buffers → ∀ q < r.nofInUse, ∀ i ∈ r.slotsOf q, (r.mirror i).queIdx = q
  pending : r.buffers → ∀ i ∈ r.lbufs, (r.mirror i).nbuf = none
  carrying : r.buffers → ∀ i < r.nofBds, i ∉ r.lbufs →
    (r.mirror i).nbuf.isSome ∧ (r.mirror i).mapped
  asserted : r.asserts = true
  bufs : Accounted r.allocated r.carried (r.up ++ r.freed)

end RxData

end Wave300.Mmb.Card
