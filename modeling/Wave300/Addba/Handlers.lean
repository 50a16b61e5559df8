import Wave300.Addba.Tid

/-!
# Block ack negotiation of one TID: the handlers

`addba.c`, function by function. A handler runs under the lock of the module, so a call is
one step. Clock readings and the answers of TXMM are arguments.
-/

namespace Wave300.Addba

/-! ## State changes shared by the handlers -/

def isAllowedRate (rate : Nat) : Bool :=
  decide (rate = rateAdaptive) || (decide (15 ≤ rate % 256) && decide (rate % 256 ≤ 31))

def correctResWinSize (winSize : Nat) : Nat := if winSize = 0 then maxReordWinSize else winSize

def isAggrOn (state : TxState) : Bool := decide (state = .aggrOpened ∨ state = .delAggrReqSent)

/-- `_mtlk_addba_peer_reordering_start`; `none` is `MTLK_ERR_NO_RESOURCES`. -/
def reorderingStart (ssn winSize : Nat) (c : Ctx) : Option Ctx :=
  match c.reordReflim.tryRef with
  | none => none
  | some r =>
    let c := { c with reordReflim := r }
    if c.tid.rx.reorderIsActive then some c
    else
      some ((c.emit (.startReordering ssn winSize)).setRx fun rx =>
        { rx with reorderIsActive := true })

def resetRxState (c : Ctx) : Ctx :=
  (c.setRx fun rx => { rx with state := .none, delbaReqAttempt := 0, addbaResAttempt := 0 }).emit
    .resetRx

def reorderingStop (c : Ctx) : Ctx :=
  let c := resetRxState c
  if c.tid.rx.reorderIsActive then
    let c := (c.setRx fun rx => { rx with reorderIsActive := false }).emit .stopReordering
    { c with reordReflim := c.reordReflim.unref }
  else c

/-- `_mtlk_addba_peer_reset_tx_state`. It returns whether an aggregation was on. -/
def resetTxState (c : Ctx) : Ctx × Bool :=
  let state := c.tid.tx.state
  if state = .none then (c, false)
  else
    let c := if state = .staPowerSave then c else c.unrefAggr
    (c.setTx fun tx =>
      { tx with state := .none, addbaReqDlgt := invalidTagId, tsId := tsIdInvalid },
      isAggrOn state)

/-! ## Requests -/

def fillAddbaReq (c : Ctx) : Nat :=
  let win := c.cfg.aggrWinSize
  if win = 0 then win
  else if maxReordWinSize < win then maxReordWinSize
  else if win < minReordWinSize then minReordWinSize
  else win

/-- The dialog token after `token`; the invalid tag is skipped. -/
def advanceDlgToken (token : Nat) : Nat :=
  let next := (token + 1) % 256
  if next = invalidTagId then (next + 1) % 256 else next

def onAddbaReqSent (c : Ctx) : Ctx :=
  let c := c.setTx fun tx => { tx with state := .addbaReqSent, addbaReqDlgt := c.nextDlgToken }
  { c with nextDlgToken := advanceDlgToken c.nextDlgToken }

/-- The part of `_mtlk_addba_peer_tx_addba_req` that formats and sends the request. -/
def sendAddbaReq (io : Io) (c : Ctx) : Ctx × Bool :=
  match c.tid.tx.manMsg.getEmptyData io with
  | none => (c, false)
  | some _ =>
    let win := fillAddbaReq c
    let req := TxRequest.addbaReq c.nextDlgToken win c.cfg.addbaTimeout
    let c := c.setTx fun tx => { tx with winSizeReq := win }
    match ManMsg.send io req with
    | none => (c.setTx fun tx => { tx with manMsg := .detached }, false)
    | some m =>
      (onAddbaReqSent ((c.setTx fun tx => { tx with manMsg := m }).emit (.sendTx req)), true)

def txAddbaReq (io : Io) (psMode : Bool) (c : Ctx) : Ctx :=
  if c.tid.tx.state ≠ .none then c
  else if psMode then c.setTx fun tx => { tx with state := .staPowerSave }
  else
    match c.aggrReflim.tryRef with
    | none => c
    | some r =>
      let (c, sent) := sendAddbaReq io ({ c with aggrReflim := r }.emit .aggrRef)
      if sent then c else c.unrefAggr

def closeAggrReq (io : Io) (c : Ctx) : Ctx :=
  if c.tid.tx.state ≠ .addAggrReqSent ∧ c.tid.tx.state ≠ .aggrOpened then c
  else if c.tid.tx.tsId = tsIdInvalid then c
  else
    match c.tid.tx.manMsg.getEmptyData io with
    | none => c
    | some _ =>
      let req := TxRequest.closeAggr c.tid.tx.tsId
      match ManMsg.send io req with
      | none => c.setTx fun tx => { tx with manMsg := .detached }
      | some m =>
        (c.setTx fun tx => { tx with manMsg := m, state := .delAggrReqSent }).emit (.sendTx req)

/-- `_mtlk_addba_peer_send_delba_req`. Both directions use the message of the RX side; the
state is touched for the recipient only. -/
def sendDelbaReq (io : Io) (originator : Bool) (c : Ctx) : Ctx :=
  match c.tid.rx.manMsg.getEmptyData io with
  | none => c
  | some _ =>
    let req := RxRequest.delbaReq originator
    match ManMsg.send io req with
    | none => c.setRx fun rx => { rx with manMsg := .detached }
    | some m =>
      let c := (c.setRx fun rx => { rx with manMsg := m }).emit (.sendRx req)
      if originator then c
      else if c.tid.rx.reorderIsActive then c.setRx fun rx => { rx with state := .delbaReqSent }
      else c.setRx fun rx => { rx with state := .delbaReqSentWithoutReordering }

/-- The end of `_mtlk_addba_peer_send_rx_addba_res`, after a response was sent. -/
def onAddbaResSent (now : Nat) (c : Ctx) : Ctx :=
  if c.tid.rx.addbaRes.resultCode = resCodeSuccess then
    c.setRx fun rx => { rx with state := .addbaPositiveResSent, reqTstamp := now }
  else c.setRx fun rx => { rx with state := .addbaNegativeResSent }

/-- `_mtlk_addba_peer_send_rx_addba_res`: the cached response is sent. -/
def sendRxAddbaRes (io : Io) (now : Nat) (c : Ctx) : Ctx × Bool :=
  match c.tid.rx.manMsg.getEmptyData io with
  | none => (c, false)
  | some _ =>
    let req := RxRequest.addbaRes c.tid.rx.addbaRes
    match ManMsg.send io req with
    | none => (c.setRx fun rx => { rx with manMsg := .detached }, false)
    | some m =>
      (onAddbaResSent now ((c.setRx fun rx => { rx with manMsg := m }).emit (.sendRx req)), true)

/-! ## Confirmations -/

def onAddbaReqTxCfm (cfm : Cfm) (c : Ctx) : Ctx :=
  c.setTx fun tx => { tx with state := .addbaReqCfmd, addbaReqCfmdTime := cfm.now }

def onOpenAggrCfm (cfm : Cfm) (c : Ctx) : Ctx :=
  let ok := cfm.confirmed ∧ cfm.status = umiOk
  let c := if ok then c.setTx fun tx => { tx with tsId := cfm.tsId } else c
  (c.setTx fun tx => { tx with state := .aggrOpened }).emit .startAggregation

def onCloseAggrCfm (c : Ctx) : Ctx :=
  let (c, stop) := resetTxState c
  if stop then c.emit .stopAggregation else c

/-- The first confirmation activates the retransmission counter. -/
def onDelbaReqTxCfm (originator : Bool) (c : Ctx) : Ctx :=
  if originator then
    if c.tid.tx.delbaReqAttempt = 0 then c.setTx fun tx => { tx with delbaReqAttempt := 1 } else c
  else
    if c.tid.rx.delbaReqAttempt = 0 then c.setRx fun rx => { rx with delbaReqAttempt := 1 } else c

def onAddbaResTxCfm (c : Ctx) : Ctx :=
  if c.tid.rx.addbaResAttempt = 0 then c.setRx fun rx => { rx with addbaResAttempt := 1 } else c

/-- The callback a request is sent with. It always lets TXMM free the message. -/
def onTxCfm (cfm : Cfm) : TxRequest → Ctx → Ctx
  | .addbaReq .., c => onAddbaReqTxCfm cfm c
  | .openAggr .., c => onOpenAggrCfm cfm c
  | .closeAggr _, c => onCloseAggrCfm c

@[inherit_doc onTxCfm]
def onRxCfm : RxRequest → Ctx → Ctx
  | .delbaReq originator, c => onDelbaReqTxCfm originator c
  | .addbaRes _, c => onAddbaResTxCfm c

/-- The confirmation of the message of the TX side, if it is out. -/
def onTxMsgCfm (cfm : Cfm) (c : Ctx) : Ctx :=
  match c.tid.tx.manMsg with
  | .sent req => (onTxCfm cfm req c).setTx fun tx => { tx with manMsg := .detached }
  | _ => c

/-- The confirmation of the message of the RX side, if it is out. -/
def onRxMsgCfm (c : Ctx) : Ctx :=
  match c.tid.rx.manMsg with
  | .sent req => (onRxCfm req c).setRx fun rx => { rx with manMsg := .detached }
  | _ => c

/-! ## Timeouts -/

def checkAddbaResRxTimeout (now : Nat) (c : Ctx) : Ctx :=
  if c.tid.tx.state = .addbaReqCfmd then
    if responseTimeoutMs ≤ msTimeDiff now c.tid.tx.addbaReqCfmdTime then
      (resetTxState c).1.emit .baReqUnconfirmed
    else c
  else if c.tid.tx.state = .none ∧ c.tid.tx.addbaReqRejectState then
    if c.tid.tx.addbaReqRejectInterval ≤ msTimeDiff now c.tid.tx.addbaReqRejectTime then
      let interval := c.tid.tx.addbaReqRejectInterval * 2 % 2 ^ 32
      (c.setTx fun tx =>
        { tx with
          addbaReqRejectState := false
          addbaReqRejectInterval :=
            if rejectIntervalMax < interval then rejectIntervalMax else interval }).emit
        .baReqUnconfirmed
    else c
  else c

def checkDelbaTimeout (io : Io) (now lastRx : Nat) (c : Ctx) : Ctx :=
  if c.tid.rx.state = .reordInProcess ∧ c.tid.rx.delbaTimeout ≠ 0 ∧
      c.tid.rx.delbaTimeout ≤ msTimeDiff now lastRx then
    sendDelbaReq io false c
  else c

/-! ## Frames of the peer -/

def onDelbaReqRx (io : Io) (initiator : Bool) (c : Ctx) : Ctx :=
  if initiator then reorderingStop c else closeAggrReq io c

/-- The window asked for in `OPEN_AGGR`, before it is checked against the limits. -/
def aggrWinSize (winSizeReq winSizeRsp : Nat) : Nat :=
  if winSizeReq = 0 then winSizeRsp else min winSizeReq winSizeRsp

/-- The positive branch of `mtlk_addba_peer_on_addba_res_rx`. A window that is too small
leaves the message attached. -/
def onAddbaResPositive (io : Io) (winSizeRsp : Nat) (c : Ctx) : Ctx :=
  let c := c.setTx fun tx =>
    { tx with addbaResRejects := 0, addbaReqRejectInterval := rejectIntervalMin }
  match c.tid.tx.manMsg.getEmptyData io with
  | none => c
  | some m =>
    let win := aggrWinSize c.tid.tx.winSizeReq winSizeRsp
    if win < minReordWinSize then c.setTx fun tx => { tx with manMsg := m }
    else
      let win := if maxReordWinSize < win then maxReordWinSize else win
      let req := TxRequest.openAggr c.cfg.maxNofPackets c.cfg.maxNofBytes c.cfg.timeoutInterval
        c.cfg.minPacketSizeInAggr win
      match ManMsg.send io req with
      | none => c.setTx fun tx => { tx with manMsg := .detached }
      | some m =>
        (c.setTx fun tx => { tx with manMsg := m, state := .addAggrReqSent }).emit (.sendTx req)

/-- The negative branch of `mtlk_addba_peer_on_addba_res_rx`. -/
def onAddbaResNegative (now : Nat) (c : Ctx) : Ctx :=
  let c := (resetTxState c).1
  let rejects := c.tid.tx.addbaResRejects + 1
  if rejects < maxRejects then
    (c.setTx fun tx => { tx with addbaResRejects := rejects }).emit .baReqRejected
  else
    c.setTx fun tx =>
      { tx with addbaResRejects := 0, addbaReqRejectState := true, addbaReqRejectTime := now }

/-- `mtlk_addba_peer_on_addba_res_rx` -/
def onAddbaResRx (io : Io) (now resCode winSizeRsp dlgt : Nat) (c : Ctx) : Ctx :=
  if c.tid.tx.addbaReqDlgt ≠ dlgt then c
  else if c.tid.tx.state ≠ .addbaReqSent ∧ c.tid.tx.state ≠ .addbaReqCfmd then c
  else if resCode = resCodeSuccess then onAddbaResPositive io winSizeRsp c
  else onAddbaResNegative now c

/-- The arguments of `mtlk_addba_peer_on_addba_req_rx`. -/
structure AddbaReq where
  ssn : Nat
  winSize : Nat
  dlgt : Nat
  tmout : Nat
  ackPolicy : Nat
  rate : Nat
  deriving DecidableEq, Repr

/-- A request is dropped while one with its token, or one whose response is not confirmed
yet, is in progress. -/
def dropsAddbaReq (dlgt : Nat) (rx : Rx) : Bool :=
  decide (rx.state ≠ .none) &&
    (decide (dlgt = rx.addbaRes.dialogToken) ||
      decide (rx.state = .addbaPositiveResSent ∨ rx.state = .addbaNegativeResSent))

/-- The decision on a request, with the cached response set up. -/
def answerAddbaReq (req : AddbaReq) (c : Ctx) : Ctx :=
  let winSize := correctResWinSize req.winSize
  let failed (c : Ctx) : Ctx := c.setRx fun rx =>
    { rx with
      addbaRes := { rx.addbaRes with dialogToken := req.dlgt, resultCode := resCodeFailure } }
  if !isAllowedRate req.rate then failed c
  else if !c.cfg.acceptAggr then failed c
  else if req.ackPolicy = 0 then failed c
  else
    match reorderingStart req.ssn winSize c with
    | none => failed c
    | some c =>
      c.setRx fun rx => { rx with addbaRes := ⟨req.dlgt, resCodeSuccess, req.tmout, winSize⟩ }

/-- `mtlk_addba_peer_on_addba_req_rx` -/
def onAddbaReqRx (io : Io) (now : Nat) (req : AddbaReq) (c : Ctx) : Ctx :=
  if dropsAddbaReq req.dlgt c.tid.rx then c
  else
    let c := answerAddbaReq req (reorderingStop c)
    let (c, sent) := sendRxAddbaRes io now c
    if !sent then reorderingStop c
    else if c.tid.rx.reorderIsActive then
      c.setRx fun rx => { rx with delbaTimeout := req.tmout * 1024 / 1000 }
    else c

/-! ## Transmission statuses -/

def onRxDelbaReqTxStatus (io : Io) (status : Nat) (c : Ctx) : Ctx :=
  if status = umiOk then
    if c.tid.rx.state = .delbaReqSent then reorderingStop c
    else if c.tid.rx.state = .delbaReqSentWithoutReordering then resetRxState c
    else c
  else if c.tid.rx.state = .delbaReqSentWithoutReordering then resetRxState c
  else if c.tid.rx.state ≠ .delbaReqSent then c.setRx fun rx => { rx with delbaReqAttempt := 0 }
  else if delbaReqMaxRetransmissions ≤ c.tid.rx.delbaReqAttempt then
    reorderingStop (c.setRx fun rx => { rx with delbaReqAttempt := 0 })
  else
    sendDelbaReq io false (c.setRx fun rx => { rx with delbaReqAttempt := rx.delbaReqAttempt + 1 })

def onTxDelbaReqTxStatus (io : Io) (status : Nat) (c : Ctx) : Ctx :=
  if status = umiOk then c
  else if c.tid.tx.state ≠ .none ∧ c.tid.tx.state ≠ .delAggrReqSent then
    c.setTx fun tx => { tx with delbaReqAttempt := 0 }
  else if delbaReqMaxRetransmissions ≤ c.tid.tx.delbaReqAttempt then
    c.setTx fun tx => { tx with delbaReqAttempt := 0 }
  else
    sendDelbaReq io true (c.setTx fun tx => { tx with delbaReqAttempt := tx.delbaReqAttempt + 1 })

def onAddbaResTxStatus (io : Io) (now status : Nat) (c : Ctx) : Ctx :=
  let stopped (c : Ctx) : Ctx := c.setRx fun rx => { rx with addbaResAttempt := 0 }
  if status = umiOk then
    if c.tid.rx.state = .addbaPositiveResSent then
      stopped (c.setRx fun rx => { rx with state := .reordInProcess })
    else if c.tid.rx.state = .addbaNegativeResSent then stopped (resetRxState c)
    else stopped c
  else if c.tid.rx.state ≠ .addbaPositiveResSent ∧ c.tid.rx.state ≠ .addbaNegativeResSent then
    stopped c
  else if rspMaxRetransmissions ≤ c.tid.rx.addbaResAttempt then
    reorderingStop ((stopped c).setRx fun rx => { rx with state := .none })
  else
    (sendRxAddbaRes io now
      (c.setRx fun rx => { rx with addbaResAttempt := rx.addbaResAttempt + 1 })).1

/-- The messages `UMI_BA_TX_STATUS` reports on. -/
inductive BaTxMsg where
  | delbaReq
  | addbaResTxReq
  | other
  deriving DecidableEq, Repr

/-- `mtlk_addba_peer_on_ba_tx_status` -/
def onBaTxStatus (io : Io) (now : Nat) (msg : BaTxMsg) (initiator : Bool) (status : Nat)
    (c : Ctx) : Ctx :=
  match msg with
  | .delbaReq =>
    if initiator then onTxDelbaReqTxStatus io status c else onRxDelbaReqTxStatus io status c
  | .addbaResTxReq => onAddbaResTxStatus io now status c
  | .other => c

/-! ## Other events -/

/-- `mtlk_addba_delba_req`, also called for an ACK on a BAR. -/
def delbaReq (closeIo delbaIo : Io) (c : Ctx) : Ctx :=
  if c.tid.tx.state ≠ .addAggrReqSent ∧ c.tid.tx.state ≠ .aggrOpened then c
  else sendDelbaReq delbaIo true (closeAggrReq closeIo c)

/-- `mtlk_addba_peer_on_bar` -/
def onBar (io : Io) (c : Ctx) : Ctx :=
  if c.tid.rx.state = .none ∨ c.tid.rx.state = .addbaNegativeResSent then sendDelbaReq io false c
  else c

/-- `mtlk_addba_on_qos_without_reord` -/
def onQosWithoutReord (io : Io) (now : Nat) (c : Ctx) : Ctx :=
  if delbaReqOnRxIntervalMs ≤ msTimeDiff now c.tid.rx.delbaOnRxTime then
    onBar io (c.setRx fun rx => { rx with delbaOnRxTime := now })
  else c

/-- `mtlk_addba_peer_start_aggr_negotiation` -/
def startAggrNegotiation (io : Io) (psMode : Bool) (c : Ctx) : Ctx :=
  if c.cfg.useAggr then txAddbaReq io psMode c else c

/-- `mtlk_addba_peer_reset_power_save` -/
def resetPowerSave (c : Ctx) : Ctx :=
  if c.tid.tx.state = .staPowerSave then c.setTx fun tx => { tx with state := .none } else c

/-- One round of the loop of `_mtlk_addba_peer_stop`. What is cleared of the records ends
at the messages. -/
def stopTid (now : Nat) (c : Ctx) : Ctx :=
  let (c, stop) := resetTxState c
  let c := c.setTx fun tx => { tx with manMsg := .detached }
  let c := if stop then c.emit .stopAggregation else c
  let c := resetRxState c
  let c := c.setRx fun rx => { rx with manMsg := .detached }
  let c := reorderingStop c
  let c := c.setTx fun tx =>
    { tx with state := .none, addbaReqCfmdTime := 0, addbaReqDlgt := 0, addbaResRejects := 0 }
  c.setRx fun rx =>
    { rx with state := .none, delbaTimeout := 0, reqTstamp := 0, delbaOnRxTime := now }

end Wave300.Addba
