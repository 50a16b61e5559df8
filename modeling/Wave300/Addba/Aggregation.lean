import Wave300.Addba.System

/-!
# The limit on aggregations

A TID holds a reference of the aggregation limiter from the ADDBA request on until its TX
state is reset. `TxSound` is what the handlers keep of this for the TID they serve: `n` is
what the other TIDs hold, `pre` what was logged for this one before.
-/

namespace Wave300.Addba

open Wave300.Lib

/-- The states in which a TID holds a reference. -/
def TxState.occupied : TxState → Bool
  | none => false
  | staPowerSave => false
  | _ => true

theorem TxState.occupied_of_ne {s : TxState} (hn : s ≠ .none) (hp : s ≠ .staPowerSave) :
    s.occupied = true := by
  cases s with
  | none => exact absurd rfl hn
  | staPowerSave => exact absurd rfl hp
  | _ => rfl

def Out.isAggrRef : Out → Bool
  | aggrRef => true
  | _ => false

def Out.isAggrUnref : Out → Bool
  | aggrUnref => true
  | _ => false

/-- The limiter counts what the others hold and what this TID holds, and this TID took and
returned its references in turn. -/
structure AggrBooks (n cur : Int) (log : List Out) (held : Bool) : Prop where
  cur : cur = n + held.toInt
  log : toggles Out.isAggrRef Out.isAggrUnref log = some held

/-- A request that is out is the one the state waits for. -/
def Linked (tx : Tx) : Prop :=
  match tx.manMsg with
  | .sent (.addbaReq ..) => tx.state = .addbaReqSent
  | .sent (.openAggr ..) => tx.state = .addAggrReqSent
  | .sent (.closeAggr _) => tx.state = .delAggrReqSent
  | _ => True

structure TxSound (n : Int) (pre : List Out) (c : Ctx) : Prop where
  books : AggrBooks n c.aggrReflim.cur (pre ++ c.out) c.tid.tx.state.occupied
  linked : Linked c.tid.tx

variable {n cur : Int} {pre log : List Out} {c : Ctx} {held : Bool}

theorem AggrBooks.concat (h : AggrBooks n cur log held) {o : Out} (hr : o.isAggrRef = false)
    (hu : o.isAggrUnref = false) : AggrBooks n cur (log ++ [o]) held where
  cur := h.cur
  log := by simp [toggles_concat, h.log, toggle, hr, hu]

theorem AggrBooks.emit (h : AggrBooks n cur (pre ++ c.out) held) {o : Out}
    (hr : o.isAggrRef = false) (hu : o.isAggrUnref = false) :
    AggrBooks n cur (pre ++ (c.emit o).out) held := by
  rw [Ctx.emit, ← List.append_assoc]
  exact h.concat hr hu

theorem AggrBooks.ref (h : AggrBooks n c.aggrReflim.cur (pre ++ c.out) false) {r : Reflim}
    (hr : c.aggrReflim.tryRef = some r) :
    AggrBooks n r.cur (pre ++ (c.emit .aggrRef).out) true := by
  unfold Reflim.tryRef at hr
  split at hr
  · cases hr
    refine ⟨by simp [h.cur], ?_⟩
    simp [Ctx.emit, ← List.append_assoc, toggles_concat, h.log, toggle, Out.isAggrRef]
  · cases hr

theorem AggrBooks.unref (h : AggrBooks n c.aggrReflim.cur (pre ++ c.out) true) :
    AggrBooks n c.unrefAggr.aggrReflim.cur (pre ++ c.unrefAggr.out) false where
  cur := by simp [Ctx.unrefAggr, Ctx.emit, Reflim.unref, h.cur]
  log := by
    simp [Ctx.unrefAggr, Ctx.emit, ← List.append_assoc, toggles_concat, h.log, toggle,
      Out.isAggrRef, Out.isAggrUnref]

/-! ## Handlers of the TX side -/

@[simp] theorem resetTxState_state (c : Ctx) : (resetTxState c).1.tid.tx.state = .none := by
  unfold resetTxState
  by_cases h : c.tid.tx.state = .none
  · simp [h]
  · simp [h, Ctx.setTx]

@[simp] theorem resetTxState_manMsg (c : Ctx) :
    (resetTxState c).1.tid.tx.manMsg = c.tid.tx.manMsg := by
  unfold resetTxState
  by_cases h : c.tid.tx.state = .none
  · simp [h]
  · by_cases hp : c.tid.tx.state = .staPowerSave <;>
      simp [h, hp, Ctx.setTx, Ctx.unrefAggr, Ctx.emit]

/-- A reset returns the reference there is, and only that. -/
theorem resetTxState_books
    (h : AggrBooks n c.aggrReflim.cur (pre ++ c.out) c.tid.tx.state.occupied) :
    AggrBooks n (resetTxState c).1.aggrReflim.cur (pre ++ (resetTxState c).1.out) false := by
  unfold resetTxState
  by_cases hn : c.tid.tx.state = .none
  · rw [hn] at h
    simp only [hn, ↓reduceIte]
    exact h
  · by_cases hp : c.tid.tx.state = .staPowerSave
    · rw [hp] at h
      simp only [hp, reduceCtorEq, ↓reduceIte]
      exact h
    · rw [TxState.occupied_of_ne hn hp] at h
      simp only [hn, hp, ↓reduceIte]
      exact h.unref

theorem linked_of_detached {tx : Tx} (h : tx.manMsg = .detached) : Linked tx := by
  simp [Linked, h]

theorem getEmptyData_some {ρ : Type} {io : Io} {m m' : ManMsg ρ} (h : m.getEmptyData io = some m') :
    m = .detached ∧ m' = .attached := by
  cases m with
  | detached =>
    simp only [ManMsg.getEmptyData] at h
    split at h
    · cases h; exact ⟨rfl, rfl⟩
    · cases h
  | attached => cases h
  | sent req => cases h

theorem getEmptyData_alloc {ρ : Type} {io : Io} {m m' : ManMsg ρ}
    (h : m.getEmptyData io = some m') : io.alloc := by
  cases m with
  | detached =>
    simp only [ManMsg.getEmptyData] at h
    split at h
    · assumption
    · cases h
  | attached => cases h
  | sent req => cases h

theorem send_some {ρ : Type} {io : Io} {req : ρ} {m : ManMsg ρ} (h : ManMsg.send io req = some m) :
    m = .sent req := by
  unfold ManMsg.send at h
  split at h
  · cases h; rfl
  · cases h

theorem send_taken {ρ : Type} {io : Io} {req : ρ} {m : ManMsg ρ} (h : ManMsg.send io req = some m) :
    io.send := by
  unfold ManMsg.send at h
  split at h
  · assumption
  · cases h

/-- Either nothing is out afterwards and the state is as it was, or the request is out. -/
theorem sendAddbaReq_sound (io : Io) (hs : c.tid.tx.state = .none)
    (h : AggrBooks n c.aggrReflim.cur (pre ++ c.out) true) (hl : Linked c.tid.tx) :
    let (c', sent) := sendAddbaReq io c
    AggrBooks n c'.aggrReflim.cur (pre ++ c'.out) true ∧ Linked c'.tid.tx ∧
      c'.tid.tx.state = if sent then .addbaReqSent else .none := by
  unfold sendAddbaReq
  cases c.tid.tx.manMsg.getEmptyData io with
  | none => exact ⟨h, hl, hs⟩
  | some _ =>
    simp only
    cases hm : ManMsg.send io (TxRequest.addbaReq c.nextDlgToken (fillAddbaReq c)
      c.cfg.addbaTimeout) with
    | none => exact ⟨h, linked_of_detached rfl, hs⟩
    | some m =>
      refine ⟨h.emit (o := .sendTx _) rfl rfl, ?_, rfl⟩
      rw [send_some hm]
      rfl

theorem txAddbaReq_sound (io : Io) (psMode : Bool) (h : TxSound n pre c) :
    TxSound n pre (txAddbaReq io psMode c) := by
  unfold txAddbaReq
  split
  · exact h
  · rename_i none
    simp only [ne_eq, not_not] at none
    have free := h.books
    rw [none] at free
    split
    · exact ⟨free, by simpa [Linked, Ctx.setTx, none] using h.linked⟩
    · split
      · exact h
      · rename_i r hr
        have sound := sendAddbaReq_sound (c := { c with aggrReflim := r }.emit .aggrRef) io none
          (free.ref hr) h.linked
        revert sound
        generalize sendAddbaReq io _ = res
        rintro ⟨books, linked, state⟩
        cases hsent : res.2 with
        | true =>
          simp only [hsent, ↓reduceIte] at state ⊢
          exact ⟨by rw [state]; exact books, linked⟩
        | false =>
          simp only [hsent, Bool.false_eq_true, ↓reduceIte] at state ⊢
          exact ⟨by
            rw [show res.1.unrefAggr.tid.tx.state = .none from state]
            exact books.unref, linked⟩

theorem closeAggrReq_sound (io : Io) (h : TxSound n pre c) :
    TxSound n pre (closeAggrReq io c) := by
  unfold closeAggrReq
  split
  · exact h
  · rename_i opened
    have occupied : c.tid.tx.state.occupied = true := by
      apply TxState.occupied_of_ne
      · intro e
        simp [e] at opened
      · intro e
        simp [e] at opened
    have books := h.books
    rw [occupied] at books
    split
    · exact h
    · cases c.tid.tx.manMsg.getEmptyData io with
      | none => exact h
      | some _ =>
        simp only
        cases hm : ManMsg.send io (TxRequest.closeAggr c.tid.tx.tsId) with
        | none => exact ⟨h.books, linked_of_detached rfl⟩
        | some m =>
          refine ⟨books.emit (o := .sendTx _) rfl rfl, ?_⟩
          rw [send_some hm]
          rfl

/-- A confirmation finds the TID in the state that waits for it. -/
theorem onTxMsgCfm_sound (cfm : Cfm) (h : TxSound n pre c) :
    TxSound n pre (onTxMsgCfm cfm c) := by
  have linked := h.linked
  have books := h.books
  unfold onTxMsgCfm
  cases hm : c.tid.tx.manMsg with
  | detached => exact h
  | attached => exact h
  | sent req =>
    refine ⟨?_, linked_of_detached rfl⟩
    cases req with
    | addbaReq dialogToken winSize baTimeout =>
      simp only [Linked, hm] at linked
      rw [linked] at books
      exact books
    | openAggr maxNumOfPackets maxNumOfBytes timeoutInterval minSizeOfPacketInAggr windowSize =>
      simp only [Linked, hm] at linked
      rw [linked] at books
      simp only [onTxCfm, onOpenAggrCfm]
      split <;> exact books.emit (o := .startAggregation) rfl rfl
    | closeAggr tsId =>
      have reset := resetTxState_books books
      simp only [onTxCfm, onCloseAggrCfm]
      split
      · have stopped := reset.emit (o := .stopAggregation) rfl rfl
        simpa [Ctx.setTx, Ctx.emit, TxState.occupied] using stopped
      · simpa [Ctx.setTx, TxState.occupied] using reset

theorem resetTxState_sound (h : TxSound n pre c) (idle : ∀ req, c.tid.tx.manMsg ≠ .sent req) :
    TxSound n pre (resetTxState c).1 where
  books := by
    rw [resetTxState_state]
    exact resetTxState_books h.books
  linked := by
    cases hm : c.tid.tx.manMsg with
    | detached => simp [Linked, hm]
    | attached => simp [Linked, hm]
    | sent req => exact absurd hm (idle req)

/-- While the state waits for the answer of the peer, no message is out. -/
theorem Linked.idle {tx : Tx} (h : Linked tx) (hs : tx.state = .addbaReqCfmd) (req : TxRequest) :
    tx.manMsg ≠ .sent req := by
  intro hm
  cases req <;> simp [Linked, hm, hs] at h

theorem TxSound.emit (h : TxSound n pre c) {o : Out} (hr : o.isAggrRef = false)
    (hu : o.isAggrUnref = false) : TxSound n pre (c.emit o) :=
  ⟨h.books.emit hr hu, h.linked⟩

theorem TxSound.setRx (h : TxSound n pre c) (f : Rx → Rx) : TxSound n pre (c.setRx f) :=
  ⟨h.books, h.linked⟩

/-- The fields beside the state and the message do not matter. -/
theorem TxSound.setTx (h : TxSound n pre c) {f : Tx → Tx}
    (hs : (f c.tid.tx).state = c.tid.tx.state)
    (hm : (f c.tid.tx).manMsg = c.tid.tx.manMsg) : TxSound n pre (c.setTx f) where
  books := by
    simp only [Ctx.setTx, hs]
    exact h.books
  linked := by
    simp only [Linked, Ctx.setTx, hs, hm]
    exact h.linked

theorem checkAddbaResRxTimeout_sound (now : Nat) (h : TxSound n pre c) :
    TxSound n pre (checkAddbaResRxTimeout now c) := by
  unfold checkAddbaResRxTimeout
  split
  · rename_i cfmd
    split
    · exact (resetTxState_sound h (h.linked.idle cfmd)).emit rfl rfl
    · exact h
  · split
    · split
      · exact (h.setTx rfl rfl).emit rfl rfl
      · exact h
    · exact h

theorem onAddbaResPositive_sound (io : Io) (winSizeRsp : Nat) (h : TxSound n pre c)
    (hs : c.tid.tx.state = .addbaReqSent ∨ c.tid.tx.state = .addbaReqCfmd) :
    TxSound n pre (onAddbaResPositive io winSizeRsp c) := by
  have occupied : c.tid.tx.state.occupied = true := by
    rcases hs with hs | hs <;> rw [hs] <;> rfl
  have books := h.books
  rw [occupied] at books
  unfold onAddbaResPositive
  have first : TxSound n pre (c.setTx fun tx =>
      { tx with addbaResRejects := 0, addbaReqRejectInterval := rejectIntervalMin }) :=
    h.setTx rfl rfl
  simp only
  split
  · exact first
  · rename_i m hm
    split
    · refine ⟨first.books, ?_⟩
      simp [Linked, Ctx.setTx, (getEmptyData_some hm).2]
    · split
      · exact ⟨first.books, linked_of_detached rfl⟩
      · rename_i m hm
        refine ⟨books.emit (o := .sendTx _) rfl rfl, ?_⟩
        rw [send_some hm]
        rfl

theorem onAddbaResNegative_sound (now : Nat) (h : TxSound n pre c)
    (hs : c.tid.tx.state = .addbaReqCfmd) : TxSound n pre (onAddbaResNegative now c) := by
  have reset := resetTxState_sound h (h.linked.idle hs)
  unfold onAddbaResNegative
  simp only
  split
  · exact (reset.setTx rfl rfl).emit rfl rfl
  · exact reset.setTx rfl rfl

/-- A peer that turns the request down before the request is confirmed. -/
def EarlyReject (resCode dlgt : Nat) (tx : Tx) : Prop :=
  resCode ≠ resCodeSuccess ∧ tx.addbaReqDlgt = dlgt ∧ tx.state = .addbaReqSent

theorem onAddbaResRx_sound (io : Io) (now resCode winSizeRsp dlgt : Nat) (h : TxSound n pre c)
    (timely : ¬ EarlyReject resCode dlgt c.tid.tx) :
    TxSound n pre (onAddbaResRx io now resCode winSizeRsp dlgt c) := by
  unfold onAddbaResRx
  split
  · exact h
  · rename_i token
    split
    · exact h
    · rename_i state
      simp only [ne_eq, not_not, not_and_or] at token state
      split
      · exact onAddbaResPositive_sound io winSizeRsp h state
      · rename_i code
        refine onAddbaResNegative_sound now h (state.resolve_left fun hs => ?_)
        exact timely ⟨code, token, hs⟩

theorem resetPowerSave_sound (h : TxSound n pre c) : TxSound n pre (resetPowerSave c) := by
  unfold resetPowerSave
  split
  · rename_i hs
    have books := h.books
    rw [hs] at books
    refine ⟨books, ?_⟩
    have linked := h.linked
    cases hm : c.tid.tx.manMsg with
    | detached => simp [Linked, Ctx.setTx, hm]
    | attached => simp [Linked, Ctx.setTx, hm]
    | sent req => cases req <;> simp [Linked, hm, hs] at linked
  · exact h

/-! ## Handlers of the RX side -/

theorem resetRxState_txSound (h : TxSound n pre c) : TxSound n pre (resetRxState c) :=
  (h.setRx _).emit rfl rfl

theorem reorderingStop_txSound (h : TxSound n pre c) : TxSound n pre (reorderingStop c) := by
  unfold reorderingStop
  have reset := resetRxState_txSound h
  simp only
  split
  · exact ⟨((reset.setRx _).emit (o := .stopReordering) rfl rfl).books, reset.linked⟩
  · exact reset

theorem reorderingStart_txSound {ssn winSize : Nat} {c' : Ctx} (h : TxSound n pre c)
    (hc : reorderingStart ssn winSize c = some c') : TxSound n pre c' := by
  unfold reorderingStart at hc
  split at hc
  · cases hc
  · simp only at hc
    split at hc
    · cases hc
      exact ⟨h.books, h.linked⟩
    · cases hc
      exact ⟨h.books.emit (o := .startReordering _ _) rfl rfl, h.linked⟩

theorem sendDelbaReq_txSound (io : Io) (originator : Bool) (h : TxSound n pre c) :
    TxSound n pre (sendDelbaReq io originator c) := by
  unfold sendDelbaReq
  simp only
  split
  · exact h
  · split
    · exact h.setRx _
    · split
      · exact (h.setRx _).emit rfl rfl
      · split <;> exact ((h.setRx _).emit (o := .sendRx _) rfl rfl).setRx _

theorem sendRxAddbaRes_txSound (io : Io) (now : Nat) (h : TxSound n pre c) :
    TxSound n pre (sendRxAddbaRes io now c).1 := by
  unfold sendRxAddbaRes
  simp only
  split
  · exact h
  · split
    · exact h.setRx fun rx => { rx with manMsg := .detached }
    · have sent := h.emit (o := .sendRx (.addbaRes c.tid.rx.addbaRes)) rfl rfl
      unfold onAddbaResSent
      simp only
      split <;> exact ⟨sent.books, sent.linked⟩

theorem answerAddbaReq_txSound (req : AddbaReq) (h : TxSound n pre c) :
    TxSound n pre (answerAddbaReq req c) := by
  unfold answerAddbaReq
  simp only
  split
  · exact h.setRx _
  · split
    · exact h.setRx _
    · split
      · exact h.setRx _
      · split
        · exact h.setRx _
        · rename_i hc
          exact (reorderingStart_txSound h hc).setRx _

theorem onAddbaReqRx_txSound (io : Io) (now : Nat) (req : AddbaReq) (h : TxSound n pre c) :
    TxSound n pre (onAddbaReqRx io now req c) := by
  unfold onAddbaReqRx
  split
  · exact h
  · have sent := sendRxAddbaRes_txSound io now
      (answerAddbaReq_txSound req (reorderingStop_txSound h))
    simp only
    split
    · exact reorderingStop_txSound sent
    · split
      · exact sent.setRx _
      · exact sent

theorem onBaTxStatus_txSound (io : Io) (now : Nat) (msg : BaTxMsg) (initiator : Bool)
    (status : Nat) (h : TxSound n pre c) :
    TxSound n pre (onBaTxStatus io now msg initiator status c) := by
  cases msg with
  | delbaReq =>
    simp only [onBaTxStatus]
    split
    · unfold onTxDelbaReqTxStatus
      split
      · exact h
      · split
        · exact h.setTx rfl rfl
        · split
          · exact h.setTx rfl rfl
          · exact sendDelbaReq_txSound io true (h.setTx rfl rfl)
    · unfold onRxDelbaReqTxStatus
      split
      · split
        · exact reorderingStop_txSound h
        · split
          · exact resetRxState_txSound h
          · exact h
      · split
        · exact resetRxState_txSound h
        · split
          · exact h.setRx _
          · split
            · exact reorderingStop_txSound (h.setRx _)
            · exact sendDelbaReq_txSound io false (h.setRx _)
  | addbaResTxReq =>
    simp only [onBaTxStatus, onAddbaResTxStatus]
    split
    · split
      · exact (h.setRx _).setRx _
      · split
        · exact (resetRxState_txSound h).setRx _
        · exact h.setRx _
    · split
      · exact h.setRx _
      · split
        · exact reorderingStop_txSound ((h.setRx _).setRx _)
        · exact sendRxAddbaRes_txSound io now (h.setRx _)
  | other => exact h

theorem onRxMsgCfm_txSound (h : TxSound n pre c) : TxSound n pre (onRxMsgCfm c) := by
  unfold onRxMsgCfm
  split
  · rename_i req hm
    refine TxSound.setRx ?_ _
    cases req with
    | delbaReq originator =>
      simp only [onRxCfm, onDelbaReqTxCfm]
      split
      · split
        · exact h.setTx rfl rfl
        · exact h
      · split
        · exact h.setRx _
        · exact h
    | addbaRes res =>
      simp only [onRxCfm, onAddbaResTxCfm]
      split
      · exact h.setRx _
      · exact h
  · exact h

theorem onBar_txSound (io : Io) (h : TxSound n pre c) : TxSound n pre (onBar io c) := by
  unfold onBar
  split
  · exact sendDelbaReq_txSound io false h
  · exact h

theorem onQosWithoutReord_txSound (io : Io) (now : Nat) (h : TxSound n pre c) :
    TxSound n pre (onQosWithoutReord io now c) := by
  unfold onQosWithoutReord
  split
  · exact onBar_txSound io (h.setRx _)
  · exact h

theorem checkDelbaTimeout_txSound (io : Io) (now lastRx : Nat) (h : TxSound n pre c) :
    TxSound n pre (checkDelbaTimeout io now lastRx c) := by
  unfold checkDelbaTimeout
  split
  · exact sendDelbaReq_txSound io false h
  · exact h

theorem delbaReq_txSound (closeIo delbaIo : Io) (h : TxSound n pre c) :
    TxSound n pre (delbaReq closeIo delbaIo c) := by
  unfold delbaReq
  split
  · exact h
  · exact sendDelbaReq_txSound delbaIo true (closeAggrReq_sound closeIo h)

theorem onDelbaReqRx_txSound (io : Io) (initiator : Bool) (h : TxSound n pre c) :
    TxSound n pre (onDelbaReqRx io initiator c) := by
  unfold onDelbaReqRx
  split
  · exact reorderingStop_txSound h
  · exact closeAggrReq_sound io h

theorem startAggrNegotiation_txSound (io : Io) (psMode : Bool) (h : TxSound n pre c) :
    TxSound n pre (startAggrNegotiation io psMode c) := by
  unfold startAggrNegotiation
  split
  · exact txAddbaReq_sound io psMode h
  · exact h

@[simp] theorem reorderingStop_tx (c : Ctx) : (reorderingStop c).tid.tx = c.tid.tx := by
  unfold reorderingStop
  simp only
  split <;> rfl

/-- Stopping a peer takes back whatever the TID holds, with no message left out. -/
theorem stopTid_txSound (now : Nat) (h : TxSound n pre c) : TxSound n pre (stopTid now c) := by
  have reset : TxSound n pre
      ((resetTxState c).1.setTx fun tx => { tx with manMsg := .detached }) := by
    refine ⟨?_, linked_of_detached rfl⟩
    simp only [Ctx.setTx, resetTxState_state]
    exact resetTxState_books h.books
  unfold stopTid
  simp only
  apply TxSound.setRx
  apply TxSound.setTx
  · apply reorderingStop_txSound
    apply TxSound.setRx
    apply resetRxState_txSound
    split
    · exact reset.emit rfl rfl
    · exact reset
  · simp only [reorderingStop_tx]
    split <;> simp [Ctx.setRx, Ctx.setTx, Ctx.emit, resetRxState]
  · rfl

theorem txSound_kept : HandlersKeep (TxSound n pre) where
  stopTid now _ := stopTid_txSound now
  startAggrNegotiation io psMode _ := startAggrNegotiation_txSound io psMode
  resetPowerSave _ := resetPowerSave_sound
  onAddbaReqRx io now req _ := onAddbaReqRx_txSound io now req
  onDelbaReqRx io initiator _ := onDelbaReqRx_txSound io initiator
  delbaReq closeIo delbaIo _ := delbaReq_txSound closeIo delbaIo
  onBar io _ := onBar_txSound io
  onQosWithoutReord io now _ := onQosWithoutReord_txSound io now
  onBaTxStatus io now msg initiator status _ := onBaTxStatus_txSound io now msg initiator status
  checkDelbaTimeout io now lastRx _ := checkDelbaTimeout_txSound io now lastRx
  checkAddbaResRxTimeout now _ := checkAddbaResRxTimeout_sound now
  onTxMsgCfm cfm _ := onTxMsgCfm_sound cfm
  onRxMsgCfm _ := onRxMsgCfm_txSound

/-! ## All the peers -/

section
variable {π ν : Type} [DecidableEq π] [DecidableEq ν] [Fintype π] {s : System π ν}

/-- What one TID holds of the aggregation limiter. -/
def Tid.aggrHeld (t : Tid) : Int := t.tx.state.occupied.toInt

/-- The limiter counts the TIDs under negotiation or in aggregation, and each of them took
and returned its references in turn. -/
structure AggrAccounted (s : System π ν) : Prop where
  cur : s.aggrReflim.cur = total Tid.aggrHeld s.tid
  log : ∀ k, toggles Out.isAggrRef Out.isAggrUnref (s.log k) =
    some (s.tid k).tx.state.occupied
  linked : ∀ k, Linked (s.tid k).tx

theorem aggrAccounted_local : Local (π := π) (ν := ν) AggrAccounted fun s k =>
    TxSound (total Tid.aggrHeld s.tid - (s.tid k).aggrHeld) (s.log k) where
  enter s k h := by
    refine ⟨⟨?_, by simpa [System.ctx] using h.log k⟩, h.linked k⟩
    simp only [System.ctx, h.cur, Tid.aggrHeld]
    omega
  leave s k c h hc := by
    refine ⟨?_, fun j => ?_, fun j => ?_⟩
    · rw [System.put, total_update, hc.books.cur]
      rfl
    · by_cases e : j = k
      · subst e
        simpa [System.put] using hc.books.log
      · simpa [System.put, e] using h.log j
    · by_cases e : j = k
      · subst e
        simpa [System.put] using hc.linked
      · simpa [System.put, e] using h.linked j
  other _ _ _ h := ⟨h.cur, h.log, h.linked⟩

/-- A response that turns a request down is not handled before the request is confirmed. -/
def TimelyReject (s : System π ν) : Op π ν → Prop
  | .addbaResRx p tid resCode _ dlgt _ _ =>
    s.isActive p → ∀ t : Fin nofTids, tid = t → ¬ EarlyReject resCode dlgt (s.tid (p, t)).tx
  | _ => True

/-- One step keeps the account of the aggregation limiter. -/
theorem AggrAccounted.step (h : AggrAccounted s) {op : Op π ν} (hop : TimelyReject s op) :
    AggrAccounted (step s op) := by
  refine aggrAccounted_local.step (fun _ _ => txSound_kept) ?_ h
  rintro p tid resCode winSizeRsp dlgt now io rfl active t ht hc
  exact onAddbaResRx_sound io now resCode winSizeRsp dlgt hc (hop active t ht)

omit [DecidableEq π] [DecidableEq ν] in
theorem init_aggrAccounted (home : π → ν) (cfg : ν → Fin nofTids → TidCfg)
    (maxAggr maxReord : Nat) : AggrAccounted (System.init home cfg maxAggr maxReord) where
  cur := by simp [System.init, total, Tid.aggrHeld, Tid.init, TxState.occupied]
  log := fun _ => rfl
  linked := fun _ => trivial

/-- The pairs of a peer and a TID that are neither idle nor in power save. -/
def System.negotiating (s : System π ν) : Finset (π × Fin nofTids) :=
  Finset.univ.filter fun k => (s.tid k).tx.state ≠ .none ∧ (s.tid k).tx.state ≠ .staPowerSave

omit [DecidableEq π] [DecidableEq ν] in
theorem card_negotiating (s : System π ν) :
    (s.negotiating.card : Int) = total Tid.aggrHeld s.tid := by
  rw [System.negotiating, Finset.card_filter, total, Nat.cast_sum]
  apply Finset.sum_congr rfl
  intro k _
  cases h : (s.tid k).tx.state <;> simp [Tid.aggrHeld, h, TxState.occupied]

/-- In every run in which no request is turned down before it is confirmed, the limiter
counts the pairs under negotiation or in aggregation, so it does not underflow, and no pair
returns a reference it has not taken. -/
theorem aggr_reflim_counts_negotiating {home : π → ν} {cfg : ν → Fin nofTids → TidCfg}
    {maxAggr maxReord : Nat}
    (h : Runs Addba.step TimelyReject (System.init home cfg maxAggr maxReord) s) :
    s.aggrReflim.cur = s.negotiating.card ∧ 0 ≤ s.aggrReflim.cur ∧
      ∀ k, toggles Out.isAggrRef Out.isAggrUnref (s.log k) = some (decide (k ∈ s.negotiating)) := by
  have account : AggrAccounted s := h.invariant (init_aggrAccounted home cfg maxAggr maxReord)
    fun _ _ hs hop => hs.step hop
  refine ⟨by rw [account.cur, card_negotiating], ?_, fun k => ?_⟩
  · rw [account.cur, ← card_negotiating]
    exact Int.natCast_nonneg _
  · rw [account.log k]
    cases hs : (s.tid k).tx.state <;> simp [System.negotiating, hs, TxState.occupied]

end

/-- The peer turns the request down after it was confirmed. -/
theorem aggr_reflim_counts_negotiating_after_reject :
    let s := Addba.step (Addba.step (Addba.step (Addba.step onePeer
      (.peerStart () 0 true)) (.startAggrNegotiation () 0 false ⟨true, true⟩))
      (.txMsgCfm () 0 ⟨true, 0, 0, 5⟩)) (.addbaResRx () 0 37 0 0 6 ⟨true, true⟩)
    Out.aggrUnref ∈ s.log ((), 0) ∧ s.aggrReflim.cur = s.negotiating.card := by
  have run₀ : Runs Addba.step TimelyReject onePeer onePeer := .start
  have run₁ := run₀.step (.peerStart () 0 true) (by trivial)
  have run₂ := run₁.step (.startAggrNegotiation () 0 false ⟨true, true⟩) (by trivial)
  have run₃ := run₂.step (.txMsgCfm () 0 ⟨true, 0, 0, 5⟩) (by trivial)
  have run₄ := run₃.step (.addbaResRx () 0 37 0 0 6 ⟨true, true⟩) (by
    intro _ t ht early
    obtain rfl : t = 0 := Fin.ext ht.symm
    exact absurd early.2.2 (by decide))
  exact ⟨by decide, (aggr_reflim_counts_negotiating run₄).1⟩

/-- The peer turns the request down first: the late confirmation puts the TID back into
negotiation without a reference, and the timeout returns one that was never taken. -/
theorem early_reject_underflows :
    let ops : List (Op Unit Unit) :=
      [.peerStart () 0 true, .startAggrNegotiation () 0 false ⟨true, true⟩,
        .addbaResRx () 0 37 0 0 5 ⟨true, true⟩, .txMsgCfm () 0 ⟨true, 0, 0, 6⟩]
    let s₁ := ops.foldl Addba.step onePeer
    let s₂ := Addba.step s₁ (.iterate () 3006 (fun _ => 0) fun _ => ⟨true, true⟩)
    s₁.aggrReflim.cur = 0 ∧ s₁.negotiating.card = 1 ∧
      s₂.aggrReflim.cur = -1 ∧ s₂.negotiating.card = 0 := by
  decide

end Wave300.Addba
