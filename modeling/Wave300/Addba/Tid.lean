import Mathlib.Algebra.Order.Ring.Int
import Mathlib.Logic.Function.Basic

/-!
# Block ack negotiation of one TID: the data

The records of `addba.h` and the two limiters of `mtlk_reflim.h`. The counters of the WSS
objects and the addresses are left out, and a message is the request it carries; the TID
in a request is the one the message belongs to.

`Out` is not in the source: it records, in order, what a handler does to the outside (the
wrap API, the messages handed to TXMM), the references it takes and returns and the resets
of the RX state.
-/

namespace Wave300.Addba

/-- `MTLK_ADDBA_NOF_TIDs` -/
def nofTids : Nat := 8

instance : NeZero nofTids := ⟨by decide⟩

/-- `MTLK_DOT11_ADDBA_RESPONSE_TIMEOUT_MS` -/
def responseTimeoutMs : Nat := 3000

/-- `MTLK_ADDBA_RSP_MAX_RETRANSMISSIONS` -/
def rspMaxRetransmissions : Nat := 4

/-- `MTLK_DELBA_REQ_MAX_RETRANSMISSIONS` -/
def delbaReqMaxRetransmissions : Nat := 4

/-- `MTLK_DELBA_REQ_ON_RX_INTERVAL_MS` -/
def delbaReqOnRxIntervalMs : Nat := 100

/-- `MTLK_ADDBA_MAX_REJECTS` -/
def maxRejects : Nat := 5

/-- `MTLK_ADDBA_MIN_REORD_WIN_SIZE` -/
def minReordWinSize : Nat := 1

/-- `MTLK_ADDBA_MAX_REORD_WIN_SIZE` -/
def maxReordWinSize : Nat := 64

/-- `ADDBA_REJECT_INTERVAL_MIN` -/
def rejectIntervalMin : Nat := 10000

/-- `ADDBA_REJECT_INTERVAL_MAX` -/
def rejectIntervalMax : Nat := 160000

/-- `INVALID_TAG_ID` -/
def invalidTagId : Nat := 0xFF

/-- `MTLK_TS_ID_INVALID` -/
def tsIdInvalid : Nat := 0xFF

/-- `MTLK_ADDBA_RES_CODE_SUCCESS` -/
def resCodeSuccess : Nat := 0

/-- `MTLK_ADDBA_RES_CODE_FAILURE` -/
def resCodeFailure : Nat := 1

/-- `MTLK_ADDBA_RATE_ADAPTIVE` -/
def rateAdaptive : Nat := 0xFFFF

/-- `UMI_OK` -/
def umiOk : Nat := 0

/-- `mtlk_osal_ms_time_diff`, on 32-bit times. -/
def msTimeDiff (tm1 tm2 : Nat) : Nat := (((tm1 : Int) - tm2) % 2 ^ 32).toNat

/-! ## Limiters -/

/-- `mtlk_reflim_t` -/
structure Reflim where
  max : Nat
  cur : Int
  deriving DecidableEq, Repr

/-- `atomic_t` is an int and is compared as a `uint32`. -/
def asUInt32 (x : Int) : Int := if x < 0 then x + 2 ^ 32 else x

/-- `mtlk_reflim_try_ref`: the increment is undone when it went past the limit. -/
def Reflim.tryRef (r : Reflim) : Option Reflim :=
  if asUInt32 (r.cur + 1) ≤ r.max then some { r with cur := r.cur + 1 } else none

/-- `mtlk_reflim_unref` -/
def Reflim.unref (r : Reflim) : Reflim := { r with cur := r.cur - 1 }

/-! ## Messages -/

/-- `UMI_ADDBA_RES_SEND` -/
structure AddbaRes where
  dialogToken : Nat
  resultCode : Nat
  baTimeout : Nat
  winSize : Nat
  deriving DecidableEq, Repr

/-- The requests sent with the message of the TX side. -/
inductive TxRequest where
  | addbaReq (dialogToken winSize baTimeout : Nat)
  | openAggr (maxNumOfPackets maxNumOfBytes timeoutInterval minSizeOfPacketInAggr
      windowSize : Nat)
  | closeAggr (tsId : Nat)
  deriving DecidableEq, Repr

/-- The requests sent with the message of the RX side. -/
inductive RxRequest where
  | delbaReq (initiator : Bool)
  | addbaRes (res : AddbaRes)
  deriving DecidableEq, Repr

/-- A `mtlk_txmm_msg_t` of the module: not attached to a block, attached but not sent, or
owned by TXMM until its callback has run. -/
inductive ManMsg (ρ : Type) where
  | detached
  | attached
  | sent (req : ρ)
  deriving DecidableEq, Repr

/-- What TXMM answers: whether a block is free, and whether sending works. -/
structure Io where
  alloc : Bool
  send : Bool
  deriving DecidableEq, Repr

/-- `mtlk_txmm_msg_get_empty_data`. A message in use gets no second block. -/
def ManMsg.getEmptyData {ρ : Type} (io : Io) : ManMsg ρ → Option (ManMsg ρ)
  | detached => if io.alloc then some attached else none
  | _ => none

/-- `mtlk_txmm_msg_send`, which cancels a message it could not send. -/
def ManMsg.send {ρ : Type} (io : Io) (req : ρ) : Option (ManMsg ρ) :=
  if io.send then some (.sent req) else none

/-- What a confirmation brings: its reason (confirmed or cancelled), and the status and the
TS id the firmware wrote into the message. -/
structure Cfm where
  confirmed : Bool
  status : Nat
  tsId : Nat
  now : Nat
  deriving DecidableEq, Repr

/-! ## TIDs -/

/-- `mtlk_addba_peer_tx_state_e` -/
inductive TxState where
  | none
  | addbaReqSent
  | addbaReqCfmd
  | addAggrReqSent
  | aggrOpened
  | delAggrReqSent
  | staPowerSave
  deriving DecidableEq, Repr

/-- `mtlk_addba_peer_rx_state_e` -/
inductive RxState where
  | none
  | addbaNegativeResSent
  | addbaPositiveResSent
  | reordInProcess
  | delbaReqSent
  | delbaReqSentWithoutReordering
  deriving DecidableEq, Repr

/-- `mtlk_addba_peer_tx_t` -/
structure Tx where
  state : TxState
  addbaReqCfmdTime : Nat
  addbaReqDlgt : Nat
  addbaResRejects : Nat
  manMsg : ManMsg TxRequest
  delbaReqAttempt : Nat
  winSizeReq : Nat
  tsId : Nat
  addbaReqRejectState : Bool
  addbaReqRejectTime : Nat
  addbaReqRejectInterval : Nat
  deriving DecidableEq, Repr

/-- `mtlk_addba_peer_rx_t` -/
structure Rx where
  state : RxState
  delbaTimeout : Nat
  reqTstamp : Nat
  manMsg : ManMsg RxRequest
  reorderIsActive : Bool
  delbaReqAttempt : Nat
  addbaResAttempt : Nat
  delbaOnRxTime : Nat
  addbaRes : AddbaRes
  deriving DecidableEq, Repr

/-- `mtlk_addba_peer_tid_t` -/
structure Tid where
  tx : Tx
  rx : Rx
  deriving DecidableEq, Repr

/-- A TID of a peer that `mtlk_addba_peer_init` has set up in zeroed memory. -/
def Tid.init : Tid where
  tx := ⟨.none, 0, 0, 0, .detached, 0, 0, tsIdInvalid, false, 0, 0⟩
  rx := ⟨.none, 0, 0, .detached, false, 0, 0, 0, ⟨0, 0, 0, 0⟩⟩

/-- `mtlk_addba_tid_cfg_t` -/
structure TidCfg where
  useAggr : Bool
  acceptAggr : Bool
  maxNofPackets : Nat
  maxNofBytes : Nat
  timeoutInterval : Nat
  minPacketSizeInAggr : Nat
  addbaTimeout : Nat
  aggrWinSize : Nat
  deriving DecidableEq, Repr

inductive Out where
  | startAggregation
  | stopAggregation
  | startReordering (ssn winSize : Nat)
  | stopReordering
  | baReqRejected
  | baReqUnconfirmed
  | sendTx (req : TxRequest)
  | sendRx (req : RxRequest)
  | aggrRef
  | aggrUnref
  | resetRx
  deriving DecidableEq, Repr

/-- What a handler works on when it serves one TID of a peer: the limiters shared by all
peers, the dialog token shared by those of a VAP, the configuration and the TID itself. -/
structure Ctx where
  aggrReflim : Reflim
  reordReflim : Reflim
  nextDlgToken : Nat
  cfg : TidCfg
  tid : Tid
  out : List Out

def Ctx.emit (c : Ctx) (o : Out) : Ctx := { c with out := c.out ++ [o] }

def Ctx.setTx (c : Ctx) (f : Tx → Tx) : Ctx := { c with tid := { c.tid with tx := f c.tid.tx } }

def Ctx.setRx (c : Ctx) (f : Rx → Rx) : Ctx := { c with tid := { c.tid with rx := f c.tid.rx } }

def Ctx.unrefAggr (c : Ctx) : Ctx :=
  { c with aggrReflim := c.aggrReflim.unref }.emit .aggrUnref

end Wave300.Addba
