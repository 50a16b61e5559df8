import Mathlib.Data.Fintype.Defs
import Wave300.Lib.Rings

/-!
# The TX message manager

The critical sections of `txmm.c`. A block is one of the `n = max_msgs` blocks of the
storage; its `que` and `idx` are the records of `rings`, and `que = MTLK_TXMMB_NONE` is
`none` there. Payload bytes, the history and the usage statistics are left out.

`pending`, `log` and `fault` are not in the source. `pending` keeps the calls that have
unlinked a block and have still to run its callback, with the message the block had when it
was unlinked; `log` keeps what was done, in order; `fault` is set where an assertion fails
or a null pointer is followed.
-/

namespace Wave300.Txmm

open Wave300.Lib

/-- `mtlk_txmm_block_e`, of which `MTLK_TXMMB_NONE` is no queue. -/
inductive Que where
  | free
  | queued
  | sent
  | timedOut
  deriving DecidableEq, Repr

instance : Fintype Que := ⟨{.free, .queued, .sent, .timedOut}, fun q => by cases q <;> decide⟩

/-- `mtlk_txmm_clb_reason_e` -/
inductive ClbReason where
  | confirmed
  | timeoutUnsent
  | timeoutSent
  | rcvryDiscard
  deriving DecidableEq, Repr

/-- `mtlk_txmm_clb_action_e` -/
inductive ClbAction where
  | free
  | send
  | keep
  deriving DecidableEq, Repr

/-- `mtlk_txmm_block_t`. A callback and its user data are one value of `κ`. -/
structure Block (μ σ κ ν : Type) where
  id : UInt16 := 0
  payloadSize : UInt16 := 0
  slot : Option σ := none
  clb : Option κ := none
  sendTime : UInt32 := 0
  timeout : UInt32 := 0
  msg : Option μ := none
  vapHandle : Option ν := none

/-- `mtlk_txmm_msg_t`. The object a message is attached to is known by its VAP. -/
structure Msg (n : Nat) (ν : Type) where
  data : Option (Fin n) := none
  obj : Option ν := none

structure PendingClb (n : Nat) (μ : Type) where
  block : Fin n
  msg : Option μ
  reason : ClbReason
  deriving DecidableEq

inductive Event (n : Nat) (μ σ ν : Type) where
  | attached (m : μ) (b : Fin n)
  | bound (b : Fin n) (pmsg : σ) (id size : UInt16)
  | msgSend (pmsg : σ) (vap : Option ν)
  | unlinked (b : Fin n) (m : Option μ)
  | msgTimedOut (id : UInt16)
  | called (b : Fin n) (m : μ) (reason : ClbReason)
  | cancelled (m : μ)
  deriving DecidableEq

/-- `mtlk_txmm_base_t`, with the messages that refer to it and the hardware message pool. -/
structure Base (n : Nat) (μ σ κ ν : Type) where
  maxPayloadSize : UInt16
  active : Bool
  rings : Rings Que (Fin n)
  blocks : Fin n → Block μ σ κ ν
  msgs : μ → Msg n ν
  pool : List σ
  pending : List (PendingClb n μ)
  log : List (Event n μ σ ν)
  fault : Bool

/-- What the user passes to `mtlk_txmm_msg_send`, and has written to the block before. -/
structure Request (κ : Type) where
  id : UInt16
  payloadSize : UInt16
  clb : κ
  timeoutMs : UInt32

variable {n : Nat} {μ σ κ ν : Type} [DecidableEq μ] [DecidableEq σ]

namespace Base

/-- `mtlk_txmm_init` -/
def init (n : Nat) [NeZero n] (maxPayloadSize : UInt16) (pool : List σ) : Base n μ σ κ ν where
  maxPayloadSize := maxPayloadSize
  active := false
  rings :=
    { ring := fun q => ⟨Fin.ofNat n, 0, 0, if q = .free then n else 0⟩
      home := fun _ => some .free
      idx := Fin.val }
  blocks := fun _ => {}
  msgs := fun _ => {}
  pool := pool
  pending := []
  log := []
  fault := false

def emit (s : Base n μ σ κ ν) (e : Event n μ σ ν) : Base n μ σ κ ν :=
  { s with log := s.log ++ [e] }

/-- `MTLK_ASSERT` of what does not hold, or a call or an access through `NULL` -/
def crash (s : Base n μ σ κ ν) : Base n μ σ κ ν :=
  { s with fault := true }

def setBlock (s : Base n μ σ κ ν) (b : Fin n) (v : Block μ σ κ ν) : Base n μ σ κ ν :=
  { s with blocks := Function.update s.blocks b v }

def setMsg (s : Base n μ σ κ ν) (m : μ) (v : Msg n ν) : Base n μ σ κ ν :=
  { s with msgs := Function.update s.msgs m v }

/-- `_mtlk_txmm_get_buf` -/
def getBuf (s : Base n μ σ κ ν) (q : Que) : Option (Fin n) × Base n μ σ κ ν :=
  if (s.rings.ring q).total ≠ 0 then
    (some ((s.rings.ring q).ptr (s.rings.ring q).fromIdx), { s with rings := s.rings.take n q })
  else (none, s)

/-- `_mtlk_txmm_put_buf` -/
def putBuf (s : Base n μ σ κ ν) (q : Que) (b : Fin n) : Base n μ σ κ ν :=
  { s with rings := s.rings.put n q b }

/-- `_mtlk_txmm_del_buf_from_que` -/
def delBufFromQue (s : Base n μ σ κ ν) (q : Option Que) (b : Fin n) (preserveOrder : Bool) :
    Base n μ σ κ ν :=
  match q with
  | none => s
  | some q => { s with rings := s.rings.unlink n q b preserveOrder }

/-- `_mtlk_txmm_zero_block`. The `que` and `idx` it clears are set by the `put_buf` that
follows every call of it. -/
def zeroBlock (s : Base n μ σ κ ν) (b : Fin n) : Base n μ σ κ ν :=
  s.setBlock b {}

/-- `_mtlk_txmm_free_buf` -/
def freeBuf (s : Base n μ σ κ ν) (b : Fin n) (delFromCurrentQueue preserveOrder : Bool) :
    Base n μ σ κ ν :=
  if s.rings.home b ≠ some .free then
    let s := if delFromCurrentQueue then s.delBufFromQue (s.rings.home b) b preserveOrder else s
    (s.zeroBlock b).putBuf .free b
  else s

/-- `_txm_msg_get_from_pool` -/
def msgGetFromPool (s : Base n μ σ κ ν) : Option σ × Base n μ σ κ ν :=
  (s.pool.head?, { s with pool := s.pool.tail })

/-- `_txm_msg_free_to_pool` -/
def msgFreeToPool (s : Base n μ σ κ ν) (pmsg : σ) : Base n μ σ κ ν :=
  { s with pool := s.pool ++ [pmsg] }

/-- `_mtlk_txmm_send_block_prepare` -/
def sendBlockPrepare (s : Base n μ σ κ ν) (b : Fin n) (pmsg : σ) : Base n μ σ κ ν :=
  let block := s.blocks b
  let size :=
    if block.payloadSize = 0 ∨ block.payloadSize > s.maxPayloadSize then s.maxPayloadSize
    else block.payloadSize
  let s := s.setBlock b { block with payloadSize := size, slot := some pmsg }
  (s.emit (.bound b pmsg block.id size)).putBuf .sent b

/-- The part of `_mtlk_txmm_pump` that reuses a slot for the first block queued, with the
`msg_send` that the callers make when it reports a message. -/
def sendFirst (s : Base n μ σ κ ν) (pmsg : σ) : Base n μ σ κ ν :=
  match s.getBuf .queued with
  | (some b, s) => (s.sendBlockPrepare b pmsg).emit (.msgSend pmsg (s.blocks b).vapHandle)
  | (none, s) => s

/-- `_mtlk_txmm_pump` -/
def pump (s : Base n μ σ κ ν) (pmsg : Option σ) : Base n μ σ κ ν :=
  if (s.rings.ring .queued).total ≠ 0 then
    match pmsg with
    | some p => s.sendFirst p
    | none =>
      match s.msgGetFromPool with
      | (some p, s) => s.sendFirst p
      | (none, s) => s
  else
    match pmsg with
    | some p => s.msgFreeToPool p
    | none => s

/-- The `switch` on what the callback of `b`, which belongs to `m`, has answered. -/
def clbAction (s : Base n μ σ κ ν) (b : Fin n) (m : μ) (action : ClbAction) (now : UInt32) :
    Base n μ σ κ ν :=
  match action with
  | .free => (s.freeBuf b false false).setMsg m {}
  | .send =>
    let block := s.blocks b
    let sendTime := if block.timeout ≠ 0 then now else block.sendTime
    (s.setBlock b { block with sendTime := sendTime }).putBuf .queued b
  | .keep => s

/-- The section of `_mtlk_txmm_call_usr_clb_locked`, where the callback answers `action`
at the time `now`. -/
def callUsrClbLocked (s : Base n μ σ κ ν) (b : Fin n) (reason : ClbReason)
    (action : ClbAction) (now : UInt32) : Base n μ σ κ ν :=
  match (s.blocks b).msg with
  | none => s.crash
  | some m =>
    match (s.msgs m).data with
    | none => s   -- the message has been cancelled
    | some _ =>
      match (s.blocks b).clb with
      | none => s.crash
      | some _ => (s.emit (.called b m reason)).clbAction b m action now

/-- The test of the timeout scan. `mtlk_osal_ms_time_diff` wraps. -/
def Expired (now : UInt32) (block : Block μ σ κ ν) : Prop :=
  block.timeout ≠ 0 ∧ block.clb.isSome ∧ block.timeout ≤ now - block.sendTime

instance (now : UInt32) (block : Block μ σ κ ν) : Decidable (Expired now block) :=
  inferInstanceAs (Decidable (_ ∧ _ ∧ _))

/-- The `while` of the timeout scan. It goes round the ring at most once. -/
def scanLoop (now : UInt32) (q : Que) (preserveOrder : Bool) :
    Nat → Nat → Base n μ σ κ ν → Base n μ σ κ ν
  | 0, _, s => s
  | fuel + 1, i, s =>
    if i = (s.rings.ring q).toIdx then s
    else
      let b := (s.rings.ring q).ptr i
      let s :=
        if Expired now (s.blocks b) then
          (s.delBufFromQue (some q) b preserveOrder).putBuf .timedOut b
        else s
      scanLoop now q preserveOrder fuel (incWrap n i) s

/-- The first section of `_mtlk_txmm_on_timer_que`. -/
def scan (s : Base n μ σ κ ν) (now : UInt32) (q : Que) (preserveOrder : Bool) :
    Base n μ σ κ ν :=
  scanLoop now q preserveOrder n (s.rings.ring q).fromIdx s

/-- A call leaves the lock with a block it has unlinked and whose callback it has to run. -/
def defer (s : Base n μ σ κ ν) (b : Fin n) (reason : ClbReason) : Base n μ σ κ ν :=
  { s.emit (.unlinked b (s.blocks b).msg) with
    pending := s.pending ++ [⟨b, (s.blocks b).msg, reason⟩] }

/-- The call that has `p` to run gets hold of the lock. -/
def settle (s : Base n μ σ κ ν) (p : PendingClb n μ) : Base n μ σ κ ν :=
  { s with pending := s.pending.erase p }

/-- The second section of `_mtlk_txmm_on_timer_que`, for one block, and the
`msg_timed_out` that follows it. -/
def drain (s : Base n μ σ κ ν) (reason : ClbReason) : Base n μ σ κ ν :=
  let que := s.rings.ring .timedOut
  if que.total ≠ 0 then
    let b := que.ptr que.fromIdx
    ((s.delBufFromQue (some .timedOut) b false).emit (.msgTimedOut (s.blocks b).id)).defer b
      reason
  else s

/-- The `do while` of `_mtlk_txmm_on_cfm`. -/
def findSent (s : Base n μ σ κ ν) (pmsg : σ) : Nat → Nat → Option (Fin n)
  | 0, _ => none
  | fuel + 1, i =>
    let que := s.rings.ring .sent
    if (s.blocks (que.ptr i)).slot = some pmsg then some (que.ptr i)
    else if incWrap n i = que.toIdx then none
    else findSent s pmsg fuel (incWrap n i)

/-- The first section of `_mtlk_txmm_on_cfm`. -/
def onCfm (s : Base n μ σ κ ν) (pmsg : σ) : Base n μ σ κ ν :=
  if (s.rings.ring .sent).total ≠ 0 then
    match s.findSent pmsg n (s.rings.ring .sent).fromIdx with
    | some b => (s.delBufFromQue (some .sent) b false).defer b .confirmed
    | none => s
  else s

/-- `_mtlk_txmm_attach_data` -/
def attachData (s : Base n μ σ κ ν) (m : μ) (obj : ν) : Base n μ σ κ ν :=
  if s.active then
    match s.getBuf .free with
    | (some b, s) =>
      let s := s.setBlock b { s.blocks b with msg := some m }
      let s := { s with rings := s.rings.setOut b }
      (s.setMsg m ⟨some b, some obj⟩).emit (.attached m b)
    | (none, s) => s.setMsg m {}
  else s

/-- `mtlk_txmm_msg_get_empty_data` -/
def getEmptyData (s : Base n μ σ κ ν) (m : μ) (obj : ν) : Base n μ σ κ ν :=
  match (s.msgs m).obj with
  | none => s.attachData m obj
  | some _ => s

/-- `_mtlk_txmm_send_ex` -/
def sendEx (s : Base n μ σ κ ν) (obj : ν) (b : Fin n) (req : Request κ) (now : UInt32) :
    Base n μ σ κ ν :=
  let block := s.blocks b
  let s := s.setBlock b
    { block with
      id := req.id
      payloadSize := req.payloadSize
      slot := none
      clb := some req.clb
      timeout := req.timeoutMs
      vapHandle := some obj
      sendTime := if req.timeoutMs ≠ 0 then now else block.sendTime }
  let (pmsg, s) := s.msgGetFromPool
  match (s.rings.ring .queued).total, pmsg with
  | 0, some p => (s.sendBlockPrepare b p).emit (.msgSend p (some obj))
  | _, some p => (s.putBuf .queued b).pump (some p)
  | _, none => s.putBuf .queued b

/-- `mtlk_txmm_msg_send` -/
def msgSend (s : Base n μ σ κ ν) (m : μ) (req : Request κ) (now : UInt32) : Base n μ σ κ ν :=
  match (s.msgs m).data, (s.msgs m).obj with
  | some b, some obj => s.sendEx obj b req now
  | _, _ => s.crash

/-- `_mtlk_txmm_free` -/
def free (s : Base n μ σ κ ν) (b : Fin n) : Base n μ σ κ ν :=
  match s.rings.home b with
  | some .free => s
  | some .queued => s.freeBuf b true true
  | some .sent => s.freeBuf b true false
  | _ => s.freeBuf b false false

/-- `mtlk_txmm_msg_cancel` -/
def msgCancel (s : Base n μ σ κ ν) (m : μ) : Base n μ σ κ ν :=
  match (s.msgs m).obj, (s.msgs m).data with
  | some _, some b => ((s.free b).setMsg m {}).emit (.cancelled m)
  | _, _ => s.emit (.cancelled m)

/-- The test of `mtlk_txmm_restore` for the blocks whose callback it runs. -/
def Busy (s : Base n μ σ κ ν) (b : Fin n) : Prop :=
  s.rings.home b = some .sent ∨ s.rings.home b = some .queued

instance (s : Base n μ σ κ ν) (b : Fin n) : Decidable (s.Busy b) :=
  inferInstanceAs (Decidable (_ ∨ _))

/-- The loop body of `mtlk_txmm_restore`. -/
def restoreBlock (s : Base n μ σ κ ν) (b : Fin n) (action : ClbAction) (now : UInt32) :
    Base n μ σ κ ν :=
  let s := if s.Busy b then s.callUsrClbLocked b .rcvryDiscard action now else s
  s.freeBuf b true false

/-- `mtlk_txmm_restore`, up to its assertions, where the callback of `b` answers
`answer b`. -/
def restore (s : Base n μ σ κ ν) (answer : Fin n → ClbAction) (now : UInt32) :
    Base n μ σ κ ν :=
  (List.finRange n).foldl (fun s b => s.restoreBlock b (answer b) now) s

end Base

/-- The critical sections, in the order in which the calls of any number of threads get
hold of the lock. -/
inductive Op (n : Nat) (μ σ κ ν : Type) where
  | start
  | halt
  | getEmptyData (m : μ) (obj : ν)
  | msgSend (m : μ) (req : Request κ) (now : UInt32)
  | pump (pmsg : Option σ)
  | onCfm (pmsg : σ)
  | scanSent (now : UInt32)
  | scanQueued (now : UInt32)
  | drain (reason : ClbReason)
  | callUsrClb (p : PendingClb n μ) (action : ClbAction) (now : UInt32)
  | msgCancel (m : μ)

/-- One section. A callback is run by the call that has it pending. -/
def step (s : Base n μ σ κ ν) : Op n μ σ κ ν → Base n μ σ κ ν
  | .start => { s with active := true }
  | .halt => { s with active := false }
  | .getEmptyData m obj => s.getEmptyData m obj
  | .msgSend m req now => s.msgSend m req now
  | .pump pmsg => s.pump pmsg
  | .onCfm pmsg => s.onCfm pmsg
  | .scanSent now => s.scan now .sent false
  | .scanQueued now => s.scan now .queued true
  | .drain reason => s.drain reason
  | .callUsrClb p action now =>
    if p ∈ s.pending then
      (s.settle p).callUsrClbLocked p.block p.reason action now
    else s
  | .msgCancel m => s.msgCancel m

end Wave300.Txmm
