import Wave300.Lib.Stages
import Wave300.Lib.Trace
import Wave300.Mmb.RxSlots
import Wave300.Mmb.TxPool

/-!
# Starting, isolating and restoring a card

`hw_mmb.c`: `mtlk_hw_mmb_start_card` makes the mirror arrays of the rings, the RX buffers, the
buffers of the firmware logger and the handler of statistics requests. After a crash of the
firmware `mtlk_hw_mmb_isolate` and `mtlk_hw_mmb_restore` replace them, and any step of the latter
may fail. `mtlk_hw_mmb_stop_card` releases them for good.

Mirror arrays, logger buffers and handlers are numbered in the order in which they are made. A
pointer keeps its number after what it points to was freed, as in the source. `gone` has what was
released, and `stale` the rings whose array was accessed after that, or while there was none. The
firmware image is the same whenever it is loaded, so what it reports in its vector area is a
parameter. TXMM and TXDM, the calibration cache and the reset of the CPUs are left out.
-/

namespace Wave300.Mmb

open Lib

namespace Card

/-- The rings of descriptors, each with a flag `HW_FLAGS_PREPARED_*_BDR`. -/
inductive Ring where
  | manReq
  | manInd
  | dbgReq
  | dbgInd
  | datReq
  | datInd
  | logInd
  deriving DecidableEq

def Ring.all : List Ring := [.manReq, .manInd, .dbgReq, .dbgInd, .datReq, .datInd, .logInd]

/-- `buf_info_ext_data` of the logger: the numbers and sizes of the buffers of the two CPUs. -/
structure LogBufInfo where
  nofBdrLm : Nat
  bufsizeLm : Nat
  nofBdrUm : Nat
  bufsizeUm : Nat

/-- What the firmware reports: the numbers of descriptors, `fw_logger.is_supported`, and the buffer
information if `is_supported_ex`. -/
structure Firmware where
  nofBds : Ring → Nat
  loggerSupported : Bool
  logBufInfo : Option LogBufInfo

/-- The steps of starting and restoring a card that can fail. -/
inductive Step where
  | loadFirmware
  | waitChiMagic
  | manReqBdr
  | manIndBdr
  | dbgReqBdr
  | dbgIndBdr
  | datReqBdr
  | datIndBdr
  | rxQueues
  | rxBuffers
  | calibrationCache
  | fwLogger
  | txmm
  | txdm
  | sendReady
  | hwDepCfg
  | fwLogSeverity
  | fwLogMode
  | rxPendTimer
  | statReqHandler
  deriving DecidableEq

/-- How the steps go: those that depend on the firmware or on one allocation, and the allocations
of the RX buffers, of the mirror of the logger and of its buffers. -/
structure Outcome where
  ok : Step → Bool
  rxAlloc : Nat → Bool
  logRing : Bool
  logAlloc : Nat → Bool

/-- Before the start, in use, between isolation and restoration, or stopped for good. -/
inductive Phase where
  | fresh
  | up
  | isolated
  | down
  deriving DecidableEq

end Card

open Card in
/-- `mtlk_hw_t`: `mac_events_stopped`; the data rings; the flags of the other rings and the mirrors
of all; `virt_addr` of the logger's mirror; `stat_irb_handle`; whether the timer that recovers RX
buffers is set; and the steps of the start that are to be undone. -/
structure Card where
  phase : Phase
  eventsStopped : Bool
  tx : TxData
  rx : RxData
  flags : Ring → Bool
  mirror : Ring → Option Nat
  logBufs : Nat → Option Nat
  statIrbHandle : Option Nat
  timer : Bool
  started : Step → Bool
  made : Nat
  gone : List Nat
  stale : List Ring

namespace Card

/-- After `mtlk_hw_mmb_init_card`. -/
def init : Card where
  phase := .fresh
  eventsStopped := false
  tx := .init
  rx := .init
  flags := fun _ => false
  mirror := fun _ => none
  logBufs := fun _ => none
  statIrbHandle := none
  timer := false
  started := fun _ => false
  made := 0
  gone := []
  stale := []

/-- `hw->flags & HW_FLAGS_PREPARED_*_BDR` -/
def prepared (c : Card) : Ring → Bool
  | .datReq => c.tx.prepared
  | .datInd => c.rx.ring
  | ring => c.flags ring

/-- The mirror of a ring is read or written. -/
def access (c : Card) (ring : Ring) : Card :=
  if (c.mirror ring).all (· ∈ c.gone) then { c with stale := ring :: c.stale } else c

/-- `mtlk_osal_mem_free` -/
def free (c : Card) (p : Option Nat) : Card := { c with gone := p.toList ++ c.gone }

/-- `ALLOC_HST_BDR_MIRROR` of `_mtlk_basic_bdr_init` -/
def allocMirror (c : Card) (ring : Ring) (allocated : Bool) : Card :=
  if allocated then
    { c with mirror := Function.update c.mirror ring (some c.made), made := c.made + 1 }
  else { c with mirror := Function.update c.mirror ring none }

def setFlag (c : Card) (ring : Ring) (b : Bool) : Card :=
  { c with flags := Function.update c.flags ring b }

/-- `_mtlk_mmb_prepare_*_bdr` of a ring for management or debug messages, or of the logger -/
def prepareBdr (c : Card) (ring : Ring) (allocated : Bool) : Card × Bool :=
  if allocated then ((c.allocMirror ring true).setFlag ring true, true)
  else (c.allocMirror ring false, false)

/-- `_mtlk_mmb_cleanup_*_bdr` of a ring for management or debug messages, or of the logger -/
def cleanupBdr (c : Card) (ring : Ring) : Card :=
  if c.flags ring then (c.free (c.mirror ring)).setFlag ring false else c

/-- `_mtlk_mmb_prepare_data_req_bdr` -/
def prepareDataReqBdr (fw : Firmware) (c : Card) (allocated : Bool) : Card × Bool :=
  if allocated then
    ({ c.allocMirror .datReq true with
        tx := c.tx.prepareDataReqBdr (fw.nofBds .datReq) true }, true)
  else (c.allocMirror .datReq false, false)

/-- `_mtlk_mmb_cleanup_data_req_bdr`. The tear-down reads the mirror of each used descriptor. -/
def cleanupDataReqBdr (c : Card) : Card :=
  if c.tx.prepared then
    let c := if c.tx.usedList.isEmpty then c else c.access .datReq
    { c.free (c.mirror .datReq) with tx := c.tx.cleanupDataReqBdr }
  else c

/-- `_mtlk_mmb_prepare_data_ind_bdr` -/
def prepareDataIndBdr (fw : Firmware) (c : Card) (allocated : Bool) : Card × Bool :=
  if allocated then
    ({ c.allocMirror .datInd true with
        rx := c.rx.prepareDataIndBdr (fw.nofBds .datInd) true }, true)
  else (c.allocMirror .datInd false, false)

/-- `_mtlk_mmb_cleanup_data_ind_bdr` -/
def cleanupDataIndBdr (c : Card) : Card :=
  if c.rx.ring then { c.free (c.mirror .datInd) with rx := c.rx.cleanupDataIndBdr } else c

/-- `_mtlk_mmb_empty_pending_rx_buffers`, which reads the mirror of each pending slot -/
def emptyPendingRxBuffers (c : Card) : Card :=
  let c := if c.rx.lbufs.isEmpty then c else c.access .datInd
  { c with rx := c.rx.emptyPendingRxBuffers }

/-- `_mtlk_mmb_free_preallocated_rx_buffers` -/
def freePreallocatedRxBuffers (c : Card) : Card :=
  let c := if c.rx.buffers then c.access .datInd else c
  { c with rx := c.rx.freePreallocatedRxBuffers }

/-- The loop of `_mtlk_mmb_cleanup_fw_logger` over the descriptors, of which `left` are left. -/
def freeLogBufs : Nat → Nat → Card → Card
  | 0, _, c => c
  | left + 1, i, c =>
    let c := c.access .logInd
    match c.logBufs i with
    | none => freeLogBufs left (i + 1) c
    | some p => freeLogBufs left (i + 1)
        { c.free (some p) with logBufs := Function.update c.logBufs i none }

/-- `_mtlk_mmb_cleanup_fw_logger` -/
def cleanupFwLogger (fw : Firmware) (c : Card) : Card :=
  (freeLogBufs (fw.nofBds .logInd) 0 c).cleanupBdr .logInd

/-- `_mtlk_mmb_alloc_fw_logger_buffers`, with `count` buffers to go -/
def allocFwLoggerBuffers (alloc : Nat → Bool) : Nat → Nat → Card → Card × Bool
  | 0, _, c => (c, true)
  | count + 1, i, c =>
    let c := c.access .logInd
    if alloc i then
      allocFwLoggerBuffers alloc count (i + 1)
        { c with logBufs := Function.update c.logBufs i (some c.made), made := c.made + 1 }
    else (c, false)

/-- The buffers of one CPU, if there are any. -/
def allocIfAny (alloc : Nat → Bool) (start count bufsize : Nat) (c : Card) : Card × Bool :=
  if count ≠ 0 ∧ bufsize ≠ 0 then allocFwLoggerBuffers alloc count start c else (c, true)

/-- The allocations of `_mtlk_mmb_init_fw_logger`, once the numbers were found to agree. -/
def allocLogBufs (fw : Firmware) (o : Outcome) (c : Card) : Card × Bool :=
  match fw.logBufInfo with
  | none => allocFwLoggerBuffers o.logAlloc (fw.nofBds .logInd) 0 c
  | some info =>
    let (c, lm) := allocIfAny o.logAlloc 0 info.nofBdrLm info.bufsizeLm c
    let (c, um) := allocIfAny o.logAlloc info.nofBdrLm info.nofBdrUm info.bufsizeUm c
    (c, lm && um)

/-- `nof_bdr != nof_bdr_lm + nof_bdr_um` -/
def Firmware.badLogInfo (fw : Firmware) : Bool :=
  match fw.logBufInfo with
  | none => false
  | some info => fw.nofBds .logInd ≠ info.nofBdrLm + info.nofBdrUm

/-- `_mtlk_mmb_init_fw_logger`. The new mirror has no buffers. -/
def initFwLogger (fw : Firmware) (o : Outcome) (c : Card) : Card × Bool :=
  let (c, ok) := c.prepareBdr .logInd o.logRing
  if !ok then (c, false)
  else
    let c := { c with logBufs := fun _ => none }
    if fw.badLogInfo then (c, false)
    else
      let (c, ok) := c.allocLogBufs fw o
      if ok then (c.access .logInd, true) else (c.cleanupFwLogger fw, false)

/-- `mtlk_wssd_register_request_handler` -/
def registerRequestHandler (c : Card) (ok : Bool) : Card × Bool :=
  if ok then ({ c with statIrbHandle := some c.made, made := c.made + 1 }, true)
  else ({ c with statIrbHandle := none }, false)

/-- `mtlk_wssd_unregister_request_handler`. Without a handle there is no handler to remove. -/
def unregisterRequestHandler (c : Card) : Card := c.free c.statIrbHandle

/-- One step of the start. -/
def perform (fw : Firmware) (o : Outcome) (c : Card) : Step → Card × Bool
  | .manReqBdr => c.prepareBdr .manReq (o.ok .manReqBdr)
  | .manIndBdr => c.prepareBdr .manInd (o.ok .manIndBdr)
  | .dbgReqBdr => c.prepareBdr .dbgReq (o.ok .dbgReqBdr)
  | .dbgIndBdr => c.prepareBdr .dbgInd (o.ok .dbgIndBdr)
  | .datReqBdr => c.prepareDataReqBdr fw (o.ok .datReqBdr)
  | .datIndBdr => c.prepareDataIndBdr fw (o.ok .datIndBdr)
  | .rxQueues => ({ c with rx := c.rx.rxqueSetDefaultCfg.1 }, c.rx.rxqueSetDefaultCfg.2)
  | .rxBuffers =>
    let c := c.access .datInd
    ({ c with rx := c.rx.preallocRxBuffers o.rxAlloc }, true)
  | .fwLogger => if fw.loggerSupported then c.initFwLogger fw o else (c, true)
  | .rxPendTimer => if o.ok .rxPendTimer then ({ c with timer := true }, true) else (c, false)
  | .statReqHandler => c.registerRequestHandler (o.ok .statReqHandler)
  | step => (c, o.ok step)

/-- One step of the restoration. The buffers of the logger are made again. -/
def performRestore (fw : Firmware) (o : Outcome) (c : Card) : Step → Card × Bool
  | .fwLogger =>
    if fw.loggerSupported then (c.cleanupFwLogger fw).initFwLogger fw o else (c, true)
  | step => c.perform fw o step

/-- `MTLK_START_STEP`: what a step has done is to be undone later, if it was not skipped. -/
def performStart (fw : Firmware) (o : Outcome) (c : Card) (step : Step) : Card × Bool :=
  let (c, ok) := c.perform fw o step
  let undo := step ≠ .fwLogger || fw.loggerSupported
  if ok then ({ c with started := Function.update c.started step undo }, true) else (c, false)

/-- The steps of `mtlk_hw_mmb_start_card`. -/
def startOrder : List Step :=
  [.loadFirmware, .waitChiMagic, .manReqBdr, .manIndBdr, .dbgReqBdr, .dbgIndBdr, .datReqBdr,
    .datIndBdr, .rxQueues, .rxBuffers, .calibrationCache, .fwLogger, .txmm, .txdm, .sendReady,
    .hwDepCfg, .fwLogSeverity, .fwLogMode, .rxPendTimer, .statReqHandler]

/-- `MTLK_STOP_STEP` -/
def stopStep (c : Card) (step : Step) (undo : Card → Card) : Card :=
  if c.started step then { undo c with started := Function.update c.started step false } else c

/-- `mtlk_hw_mmb_stop_card` -/
def stopCard (fw : Firmware) (c : Card) : Card :=
  let c := c.stopStep .statReqHandler unregisterRequestHandler
  let c := c.stopStep .rxPendTimer fun c => { c with timer := false }
  let c := { c with eventsStopped := true }
  let c := c.stopStep .fwLogger (cleanupFwLogger fw)
  let c := c.stopStep .rxBuffers freePreallocatedRxBuffers
  let c := c.stopStep .datIndBdr cleanupDataIndBdr
  let c := c.stopStep .datReqBdr cleanupDataReqBdr
  let c := c.stopStep .dbgIndBdr (cleanupBdr · .dbgInd)
  let c := c.stopStep .dbgReqBdr (cleanupBdr · .dbgReq)
  let c := c.stopStep .manIndBdr (cleanupBdr · .manInd)
  let c := c.stopStep .manReqBdr (cleanupBdr · .manReq)
  { c with phase := .down }

/-- `mtlk_hw_mmb_start_card`. What a failed start has done is undone. -/
def startCard (fw : Firmware) (o : Outcome) (c : Card) : Card × Bool :=
  let (c, ok) := stages (performStart fw o) startOrder c
  if ok then ({ c with phase := .up }, true) else (c.stopCard fw, false)

/-- `mtlk_hw_mmb_isolate` -/
def isolate (c : Card) : Card :=
  { c.unregisterRequestHandler with
    phase := .isolated
    eventsStopped := true
    statIrbHandle := none
    timer := false }

/-- What `mtlk_hw_mmb_restore` releases before it makes anything again. -/
def tearDown (c : Card) : Card :=
  let c := c.emptyPendingRxBuffers.freePreallocatedRxBuffers
  let c := ((c.cleanupBdr .manReq).cleanupBdr .manInd).cleanupBdr .dbgReq
  ((c.cleanupBdr .dbgInd).cleanupDataReqBdr).cleanupDataIndBdr

/-- The steps of `mtlk_hw_mmb_restore` after the tear-down. -/
def restoreOrder : List Step :=
  [.manReqBdr, .manIndBdr, .dbgReqBdr, .dbgIndBdr, .datReqBdr, .datIndBdr, .rxQueues, .rxBuffers,
    .fwLogger, .txmm, .txdm, .sendReady, .hwDepCfg, .fwLogSeverity, .fwLogMode, .rxPendTimer,
    .statReqHandler]

/-- The firmware starts again, and the tear-down is reached. -/
def Outcome.boots (o : Outcome) : Bool := o.ok .loadFirmware && o.ok .waitChiMagic

/-- `mtlk_hw_mmb_restore` -/
def restore (fw : Firmware) (o : Outcome) (c : Card) : Card × Bool :=
  let c := { c with phase := .up, eventsStopped := false }
  if o.boots then stages (performRestore fw o) restoreOrder c.tearDown else (c, false)

/-- What happens to a card: it is started, isolated, restored and stopped, and its events are
stopped beforehand (`mtlk_hw_mmb_stop_mac_events`); the core gets, sends and releases messages; the
firmware confirms a message, or indicates data; and the timer recovers RX buffers. -/
inductive Label where
  | start (o : Outcome)
  | isolate
  | restore (o : Outcome)
  | stopMacEvents
  | stop
  | getMsgToSend (vapHandle : Nat)
  | sendData (i : Nat) (data : SendData)
  | releaseMsgToSend (i : Nat)
  | datCfm (i status nofRetries : Nat)
  | datInd (i : Nat) (allocated : Bool)
  | recoverRx (alloc : Nat → Bool)

/-- `_mtlk_mmb_handle_received_msg` for a confirmation. While events are stopped it is dropped. -/
def receiveDatCfm (c : Card) (i status nofRetries : Nat) : Card :=
  if c.eventsStopped then c
  else { c.access .datReq with tx := c.tx.handleDatCfm i status nofRetries }

/-- `_mtlk_mmb_handle_received_msg` for a data indication. While events are stopped the slot is
given back as it is. -/
def receiveDatInd (c : Card) (i : Nat) (allocated : Bool) : Card :=
  if c.eventsStopped then c.access .datInd
  else { c.access .datInd with rx := c.rx.handleDatInd i allocated }

def step (fw : Firmware) (c : Card) : Label → Card
  | .start o => (c.startCard fw o).1
  | .isolate => c.isolate
  | .restore o => (c.restore fw o).1
  | .stopMacEvents => { c with eventsStopped := true }
  | .stop => c.stopCard fw
  | .getMsgToSend vapHandle =>
    let c := if c.tx.freeList.isEmpty then c else c.access .datReq
    { c with tx := (c.tx.getMsgToSend vapHandle).1 }
  | .sendData i data => { c.access .datReq with tx := c.tx.sendData i data }
  | .releaseMsgToSend i => { c.access .datReq with tx := c.tx.releaseMsgToSend i }
  | .datCfm i status nofRetries => c.receiveDatCfm i status nofRetries
  | .datInd i allocated => c.receiveDatInd i allocated
  | .recoverRx alloc =>
    let c := if c.rx.lbufs.isEmpty then c else c.access .datInd
    { c with rx := c.rx.recoverRxBuffers alloc maxRxBuffsToRecover }

/-- A card is started once, restored after it was isolated, and stopped once. A message is sent or
released by who got it. The firmware confirms what was sent to it, and indicates data in a slot
that has a buffer. No message is held when the pool is torn down. -/
def Enabled (c : Card) : Label → Prop
  | .start _ => c.phase = .fresh
  | .isolate | .stopMacEvents => c.phase = .up ∨ c.phase = .isolated
  | .restore o => c.phase = .isolated ∧ (o.boots → c.tx.held = [])
  | .stop => (c.phase = .up ∨ c.phase = .isolated) ∧ c.tx.held = []
  | .getMsgToSend _ => True
  | .sendData i _ | .releaseMsgToSend i => i ∈ c.tx.held
  | .datCfm i _ _ => i ∈ c.tx.sent
  | .datInd i _ => c.rx.buffers ∧ i < c.rx.nofBds ∧ i ∉ c.rx.lbufs
  | .recoverRx _ => c.timer

instance (c : Card) : DecidablePred c.Enabled
  | .start _ => inferInstanceAs (Decidable (_ = _))
  | .isolate | .stopMacEvents => inferInstanceAs (Decidable (_ ∨ _))
  | .restore _ => inferInstanceAs (Decidable (_ ∧ _))
  | .stop => inferInstanceAs (Decidable (_ ∧ _))
  | .getMsgToSend _ => .isTrue trivial
  | .sendData i _ | .releaseMsgToSend i => inferInstanceAs (Decidable (i ∈ c.tx.held))
  | .datCfm i _ _ => inferInstanceAs (Decidable (i ∈ c.tx.sent))
  | .datInd _ _ => inferInstanceAs (Decidable (_ ∧ _))
  | .recoverRx _ => inferInstanceAs (Decidable (c.timer = true))

/-- The states a card with this firmware reaches. -/
def Reachable (fw : Firmware) : Card → Prop := Runs (step fw) Enabled init

end Card

end Wave300.Mmb
