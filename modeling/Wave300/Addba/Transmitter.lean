import Wave300.Addba.Aggregation
import Wave300.Addba.Steps

/-!
# The transitions of the TX side

Everything a handler can do to the state of the TX side of a TID, to its message and to its
TS id, with what it tells the owner and the requests it sends on the way.
-/

namespace Wave300.Addba

/-- What the negotiation of an aggregation depends on. -/
structure TxView where
  state : TxState
  tsId : Nat
  manMsg : ManMsg TxRequest
  rejectState : Bool
  deriving DecidableEq

def Tx.view (tx : Tx) : TxView := ⟨tx.state, tx.tsId, tx.manMsg, tx.addbaReqRejectState⟩

/-- What is told to the owner of the peer about its aggregations, and the requests sent. -/
def Out.ofTx : Out → Bool
  | startAggregation | stopAggregation | baReqRejected | baReqUnconfirmed | sendTx _ => true
  | _ => false

def told (out : List Out) : List Out := out.filter Out.ofTx

/-- What a transition is on. -/
inductive Occasion where
  | stop
  | wake
  | confirm (cfm : Cfm)
  | other

/-- One transition. -/
inductive TxMove (occ : Occasion) : TxView → TxView → List Out → Prop where
  | keep (v) : TxMove occ v v []
  | powerSave {v} (free : v.state = .none) : TxMove occ v { v with state := .staPowerSave } []
  | wake {v} (woken : occ = .wake) (asleep : v.state = .staPowerSave) :
      TxMove occ v { v with state := .none } []
  | request {v} (token win timeout) (free : v.state = .none) (msg : v.manMsg = .detached) :
      TxMove occ v
        { v with state := .addbaReqSent, manMsg := .sent (.addbaReq token win timeout) }
        [.sendTx (.addbaReq token win timeout)]
  | attach {v} (waits : v.state = .addbaReqSent ∨ v.state = .addbaReqCfmd)
      (msg : v.manMsg = .detached) : TxMove occ v { v with manMsg := .attached } []
  | open {v} (packets bytes timeout size win)
      (waits : v.state = .addbaReqSent ∨ v.state = .addbaReqCfmd) (msg : v.manMsg = .detached) :
      TxMove occ v
        { v with
          state := .addAggrReqSent
          manMsg := .sent (.openAggr packets bytes timeout size win) }
        [.sendTx (.openAggr packets bytes timeout size win)]
  | close {v} (opened : v.state = .addAggrReqSent ∨ v.state = .aggrOpened)
      (known : v.tsId ≠ tsIdInvalid) (msg : v.manMsg = .detached) :
      TxMove occ v
        { v with state := .delAggrReqSent, manMsg := .sent (.closeAggr v.tsId) }
        [.sendTx (.closeAggr v.tsId)]
  | rejected {v} (waits : v.state = .addbaReqSent ∨ v.state = .addbaReqCfmd) :
      TxMove occ v { v with state := .none, tsId := tsIdInvalid } [.baReqRejected]
  | givenUp {v} (waits : v.state = .addbaReqSent ∨ v.state = .addbaReqCfmd) :
      TxMove occ v { v with state := .none, tsId := tsIdInvalid, rejectState := true } []
  | unanswered {v} (waits : v.state = .addbaReqCfmd) :
      TxMove occ v { v with state := .none, tsId := tsIdInvalid } [.baReqUnconfirmed]
  | relented {v} (free : v.state = .none) (rejects : v.rejectState = true) :
      TxMove occ v { v with rejectState := false } [.baReqUnconfirmed]
  | stop {v} (stopped : occ = .stop) (tsId)
      (reset : tsId = tsIdInvalid ∨ v.state = .none ∧ tsId = v.tsId) :
      TxMove occ v { v with state := .none, tsId := tsId, manMsg := .detached }
        (if isAggrOn v.state then [Out.stopAggregation] else [])
  | requested {v} (cfm token win timeout) (confirmed : occ = .confirm cfm)
      (msg : v.manMsg = .sent (.addbaReq token win timeout)) :
      TxMove occ v { v with state := .addbaReqCfmd, manMsg := .detached } []
  | opened {v} (cfm packets bytes timeout size win) (confirmed : occ = .confirm cfm)
      (msg : v.manMsg = .sent (.openAggr packets bytes timeout size win)) :
      TxMove occ v
        { v with
          state := .aggrOpened
          manMsg := .detached
          tsId := if cfm.confirmed ∧ cfm.status = umiOk then cfm.tsId else v.tsId }
        [.startAggregation]
  | closed {v} (cfm tsId) (confirmed : occ = .confirm cfm) (tsId')
      (msg : v.manMsg = .sent (.closeAggr tsId))
      (reset : tsId' = tsIdInvalid ∨ v.state = .none ∧ tsId' = v.tsId) :
      TxMove occ v { v with state := .none, tsId := tsId', manMsg := .detached }
        (if isAggrOn v.state then [Out.stopAggregation] else [])

/-- A handler that has nothing to do with the aggregation. -/
structure TxAside (c c' : Ctx) : Prop where
  view : c'.tid.tx.view = c.tid.tx.view
  told : told c'.out = told c.out

namespace TxAside
variable {c c' c'' : Ctx}

theorem refl (c : Ctx) : TxAside c c := ⟨rfl, rfl⟩

theorem trans (h : TxAside c c') (h' : TxAside c' c'') : TxAside c c'' :=
  ⟨h'.view.trans h.view, h'.told.trans h.told⟩

theorem setRx (f : Rx → Rx) : TxAside c (c.setRx f) := ⟨rfl, rfl⟩

theorem emit {o : Out} (aside : o.ofTx = false) : TxAside c (c.emit o) := by
  refine ⟨rfl, ?_⟩
  simp only [Addba.told, Ctx.emit, List.filter_append, List.filter_cons, aside, List.filter_nil,
    Bool.false_eq_true, if_false, List.append_nil]

theorem report {o : Out} (f : Rx → Rx) (aside : o.ofTx = false) :
    TxAside c ((c.setRx f).emit o) := (setRx f).trans (emit aside)

theorem move (h : TxAside c c') (fresh : c.out = []) (occ : Occasion) :
    TxMove occ c.tid.tx.view c'.tid.tx.view (Addba.told c'.out) := by
  rw [h.view, h.told, fresh]
  exact .keep _

end TxAside

section
variable {c : Ctx}

theorem resetRxState_aside (c : Ctx) : TxAside c (resetRxState c) := .report _ rfl

theorem reorderingStop_aside (c : Ctx) : TxAside c (reorderingStop c) := by
  unfold reorderingStop
  simp only
  split
  · have stopped : TxAside (resetRxState c) (((resetRxState c).setRx fun rx =>
        { rx with reorderIsActive := false }).emit .stopReordering) := .report _ rfl
    exact (resetRxState_aside c).trans ⟨stopped.view, stopped.told⟩
  · exact resetRxState_aside c

theorem sendDelbaReq_aside (io : Io) (originator : Bool) (c : Ctx) :
    TxAside c (sendDelbaReq io originator c) := by
  unfold sendDelbaReq
  split
  · exact .refl c
  · simp only
    split
    · exact .setRx _
    · rename_i m _
      have sent : TxAside c ((c.setRx fun rx => { rx with manMsg := m }).emit
        (.sendRx (.delbaReq originator))) := .report _ rfl
      split
      · exact sent
      · split <;> exact sent.trans (.setRx _)

theorem sendRxAddbaRes_aside (io : Io) (now : Nat) (c : Ctx) :
    TxAside c (sendRxAddbaRes io now c).1 := by
  unfold sendRxAddbaRes
  split
  · exact .refl c
  · simp only
    split
    · exact ⟨rfl, rfl⟩
    · rename_i m _
      have sent : TxAside c ((c.setRx fun rx => { rx with manMsg := m }).emit
        (.sendRx (.addbaRes c.tid.rx.addbaRes))) := .report _ rfl
      refine sent.trans ?_
      unfold onAddbaResSent
      split <;> exact ⟨rfl, rfl⟩

theorem answerAddbaReq_aside (req : AddbaReq) (c : Ctx) : TxAside c (answerAddbaReq req c) := by
  unfold answerAddbaReq
  simp only
  split
  · exact .setRx _
  · split
    · exact .setRx _
    · split
      · exact .setRx _
      · split
        · exact .setRx _
        · rename_i c' started
          have first : TxAside c c' := by
            unfold reorderingStart at started
            split at started
            · cases started
            · simp only at started
              split at started <;> cases started
              · exact ⟨rfl, rfl⟩
              · have told := (TxAside.emit (c := c) (o := .startReordering req.ssn
                  (correctResWinSize req.winSize)) rfl).told
                exact ⟨rfl, told⟩
          exact first.trans (.setRx _)

theorem onAddbaReqRx_aside (io : Io) (now : Nat) (req : AddbaReq) (c : Ctx) :
    TxAside c (onAddbaReqRx io now req c) := by
  unfold onAddbaReqRx
  split
  · exact .refl c
  · have sent := ((reorderingStop_aside c).trans (answerAddbaReq_aside req _)).trans
      (sendRxAddbaRes_aside io now _)
    simp only
    split
    · exact sent.trans (reorderingStop_aside _)
    · split
      · exact sent.trans (.setRx _)
      · exact sent

theorem onBar_aside (io : Io) (c : Ctx) : TxAside c (onBar io c) := by
  unfold onBar
  split
  · exact sendDelbaReq_aside io false c
  · exact .refl c

theorem onQosWithoutReord_aside (io : Io) (now : Nat) (c : Ctx) :
    TxAside c (onQosWithoutReord io now c) := by
  unfold onQosWithoutReord
  split
  · exact (TxAside.setRx _).trans (onBar_aside io _)
  · exact .refl c

theorem checkDelbaTimeout_aside (io : Io) (now lastRx : Nat) (c : Ctx) :
    TxAside c (checkDelbaTimeout io now lastRx c) := by
  unfold checkDelbaTimeout
  split
  · exact sendDelbaReq_aside io false c
  · exact .refl c

theorem onRxMsgCfm_aside (c : Ctx) : TxAside c (onRxMsgCfm c) := by
  unfold onRxMsgCfm
  split
  · rename_i req _
    refine TxAside.trans ?_ (.setRx _)
    cases req with
    | delbaReq originator =>
      simp only [onRxCfm, onDelbaReqTxCfm]
      split
      · split
        · exact ⟨rfl, rfl⟩
        · exact .refl c
      · split
        · exact .setRx _
        · exact .refl c
    | addbaRes res =>
      simp only [onRxCfm, onAddbaResTxCfm]
      split
      · exact .setRx _
      · exact .refl c
  · exact .refl c

theorem onBaTxStatus_aside (io : Io) (now : Nat) (msg : BaTxMsg) (initiator : Bool)
    (status : Nat) (c : Ctx) : TxAside c (onBaTxStatus io now msg initiator status c) := by
  have counted (f : Nat → Nat) :
      TxAside c (c.setTx fun tx => { tx with delbaReqAttempt := f tx.delbaReqAttempt }) :=
    ⟨rfl, rfl⟩
  cases msg with
  | delbaReq =>
    cases initiator with
    | true =>
      simp only [onBaTxStatus, if_true, onTxDelbaReqTxStatus]
      split
      · exact .refl c
      · split
        · exact counted fun _ => 0
        · split
          · exact counted fun _ => 0
          · exact (counted fun n => n + 1).trans (sendDelbaReq_aside io true _)
    | false =>
      simp only [onBaTxStatus, Bool.false_eq_true, if_false, onRxDelbaReqTxStatus]
      repeat' split
      · exact reorderingStop_aside c
      · exact resetRxState_aside c
      · exact .refl c
      · exact resetRxState_aside c
      · exact .setRx _
      · exact (TxAside.setRx _).trans (reorderingStop_aside _)
      · exact (TxAside.setRx _).trans (sendDelbaReq_aside io false _)
  | addbaResTxReq =>
    simp only [onBaTxStatus, onAddbaResTxStatus]
    repeat' split
    · exact ⟨rfl, rfl⟩
    · exact (resetRxState_aside c).trans (.setRx _)
    · exact .setRx _
    · exact .setRx _
    · exact (TxAside.setRx _).trans ((TxAside.setRx _).trans (reorderingStop_aside _))
    · exact (TxAside.setRx _).trans (sendRxAddbaRes_aside io now _)
  | other => exact .refl c

/-! ## The handlers of the TX side -/

theorem told_append (out out' : List Out) : told (out ++ out') = told out ++ told out' :=
  List.filter_append ..

theorem told_emit (c : Ctx) (o : Out) : told (c.emit o).out =
    told c.out ++ if o.ofTx then [o] else [] := by
  rw [Ctx.emit, told_append]
  congr 1
  simp only [told, List.filter_cons, List.filter_nil]

/-- The request is sent, or nothing has changed. -/
theorem sendAddbaReq_cases (io : Io) (c : Ctx) :
    ((sendAddbaReq io c).2 = false ∧ TxAside c (sendAddbaReq io c).1) ∨
    ((sendAddbaReq io c).2 = true ∧ c.tid.tx.manMsg = .detached ∧ ∃ token win timeout,
      (sendAddbaReq io c).1.tid.tx.view = { c.tid.tx.view with
        state := .addbaReqSent, manMsg := .sent (.addbaReq token win timeout) } ∧
      told (sendAddbaReq io c).1.out =
        told c.out ++ [Out.sendTx (.addbaReq token win timeout)]) := by
  unfold sendAddbaReq
  split
  · exact .inl ⟨rfl, .refl c⟩
  · rename_i msg
    have detached := (getEmptyData_some msg).1
    simp only
    split
    · refine .inl ⟨rfl, ?_, rfl⟩
      change TxView.mk _ _ .detached _ = _
      rw [← detached]
      rfl
    · rename_i m sent
      rw [send_some sent]
      exact .inr ⟨rfl, detached, _, _, _, rfl, told_emit ..⟩

theorem unrefAggr_aside (c : Ctx) : TxAside c c.unrefAggr := by
  refine ⟨rfl, ?_⟩
  rw [Ctx.unrefAggr, told_emit]
  exact List.append_nil _

theorem txAddbaReq_move (io : Io) (psMode : Bool) (fresh : c.out = []) (occ : Occasion) :
    TxMove occ c.tid.tx.view (txAddbaReq io psMode c).tid.tx.view
      (told (txAddbaReq io psMode c).out) := by
  have kept := (TxAside.refl c).move fresh occ
  have silent : told c.out = [] := by rw [fresh]; rfl
  unfold txAddbaReq
  split
  · exact kept
  · rename_i free
    simp only [ne_eq, not_not] at free
    split
    · change TxMove occ _ _ (told c.out)
      rw [silent]
      exact .powerSave free
    · split
      · exact kept
      · rename_i r _
        have referred : TxAside c ({ c with aggrReflim := r }.emit .aggrRef) :=
          ⟨rfl, (TxAside.emit (c := c) (o := .aggrRef) rfl).told⟩
        simp only
        obtain ⟨failed, aside⟩ | ⟨sent, msg, token, win, timeout, view, outs⟩ :=
          sendAddbaReq_cases io ({ c with aggrReflim := r }.emit .aggrRef)
        · rw [failed, if_neg Bool.false_ne_true]
          exact ((referred.trans aside).trans (unrefAggr_aside _)).move fresh occ
        · rw [sent, if_pos rfl, view, outs, referred.told, silent]
          exact .request token win timeout free msg

theorem closeAggrReq_cases (io : Io) (c : Ctx) :
    TxAside c (closeAggrReq io c) ∨
    ((c.tid.tx.state = .addAggrReqSent ∨ c.tid.tx.state = .aggrOpened) ∧
      c.tid.tx.tsId ≠ tsIdInvalid ∧ c.tid.tx.manMsg = .detached ∧
      (closeAggrReq io c).tid.tx.view = { c.tid.tx.view with
        state := .delAggrReqSent, manMsg := .sent (.closeAggr c.tid.tx.tsId) } ∧
      told (closeAggrReq io c).out = told c.out ++ [Out.sendTx (.closeAggr c.tid.tx.tsId)]) := by
  unfold closeAggrReq
  split
  · exact .inl (.refl c)
  · rename_i opened
    split
    · exact .inl (.refl c)
    · rename_i known
      split
      · exact .inl (.refl c)
      · rename_i msg
        have detached := (getEmptyData_some msg).1
        simp only
        split
        · refine .inl ⟨?_, rfl⟩
          change TxView.mk _ _ .detached _ = _
          rw [← detached]
          rfl
        · rename_i m sent
          rw [send_some sent]
          refine .inr ⟨?_, known, detached, rfl, told_emit ..⟩
          by_contra neither
          exact opened (not_or.1 neither)

/-- What closes an aggregation, and what follows it on the RX side. -/
theorem closeAggrReq_move (io : Io) {c' : Ctx} (fresh : c.out = []) (occ : Occasion)
    (aside : TxAside (closeAggrReq io c) c') :
    TxMove occ c.tid.tx.view c'.tid.tx.view (told c'.out) := by
  obtain kept | ⟨opened, known, msg, view, outs⟩ := closeAggrReq_cases io c
  · exact (kept.trans aside).move fresh occ
  · rw [aside.view, aside.told, view, outs, fresh]
    exact .close opened known msg

theorem resetTxState_cases (c : Ctx) :
    (c.tid.tx.state = .none ∧ resetTxState c = (c, false)) ∨
    ((resetTxState c).1.tid.tx.view = { c.tid.tx.view with
        state := .none, tsId := tsIdInvalid } ∧
      told (resetTxState c).1.out = told c.out ∧
      (resetTxState c).2 = isAggrOn c.tid.tx.state) := by
  unfold resetTxState
  by_cases none : c.tid.tx.state = .none
  · exact .inl ⟨none, if_pos none⟩
  · rw [if_neg none]
    refine .inr ⟨?_, ?_, rfl⟩
    · split <;> rfl
    · split
      · rfl
      · exact (unrefAggr_aside c).told

theorem onAddbaResRx_move (io : Io) (now resCode winSizeRsp dlgt : Nat) (fresh : c.out = [])
    (occ : Occasion) :
    TxMove occ c.tid.tx.view (onAddbaResRx io now resCode winSizeRsp dlgt c).tid.tx.view
      (told (onAddbaResRx io now resCode winSizeRsp dlgt c).out) := by
  have kept := (TxAside.refl c).move fresh occ
  have silent : told c.out = [] := by rw [fresh]; rfl
  unfold onAddbaResRx
  split
  · exact kept
  · split
    · exact kept
    · rename_i state
      have waits : c.tid.tx.state = .addbaReqSent ∨ c.tid.tx.state = .addbaReqCfmd := by
        by_contra neither
        exact state (not_or.1 neither)
      split
      · unfold onAddbaResPositive
        simp only
        split
        · exact TxAside.move ⟨rfl, rfl⟩ fresh occ
        · rename_i m msg
          obtain ⟨detached, rfl⟩ := getEmptyData_some msg
          split
          · change TxMove occ _ _ (told c.out)
            rw [silent]
            exact .attach waits detached
          · split
            · refine (?_ : TxAside c _).move fresh occ
              refine ⟨?_, rfl⟩
              change TxView.mk _ _ .detached _ = TxView.mk _ _ c.tid.tx.manMsg _
              rw [show c.tid.tx.manMsg = .detached from detached]
              rfl
            · rename_i m' sent
              rw [send_some sent, told_emit]
              change TxMove occ _ _ (told c.out ++ _)
              rw [silent]
              exact .open _ _ _ _ _ waits detached
      · unfold onAddbaResNegative
        obtain ⟨none, -⟩ | ⟨view, outs, -⟩ := resetTxState_cases c
        · rw [none] at waits
          obtain waits | waits := waits <;> cases waits
        · simp only
          split
          · rw [told_emit]
            change TxMove occ _ (resetTxState c).1.tid.tx.view (told (resetTxState c).1.out ++ _)
            rw [view, outs, silent]
            exact .rejected waits
          · change TxMove occ _ { (resetTxState c).1.tid.tx.view with rejectState := true }
              (told (resetTxState c).1.out)
            rw [view, outs, silent]
            exact .givenUp waits

theorem checkAddbaResRxTimeout_move (now : Nat) (fresh : c.out = []) (occ : Occasion) :
    TxMove occ c.tid.tx.view (checkAddbaResRxTimeout now c).tid.tx.view
      (told (checkAddbaResRxTimeout now c).out) := by
  have kept := (TxAside.refl c).move fresh occ
  have silent : told c.out = [] := by rw [fresh]; rfl
  unfold checkAddbaResRxTimeout
  split
  · rename_i waits
    split
    · rw [told_emit]
      obtain ⟨none, -⟩ | ⟨view, outs, -⟩ := resetTxState_cases c
      · rw [none] at waits
        cases waits
      · change TxMove occ _ (resetTxState c).1.tid.tx.view _
        rw [view, outs, silent]
        exact .unanswered waits
    · exact kept
  · split
    · rename_i rejecting
      split
      · rw [told_emit]
        change TxMove occ _ _ (told c.out ++ _)
        rw [silent]
        exact .relented rejecting.1 rejecting.2
      · exact kept
    · exact kept

theorem resetPowerSave_move (fresh : c.out = []) :
    TxMove .wake c.tid.tx.view (resetPowerSave c).tid.tx.view (told (resetPowerSave c).out) := by
  unfold resetPowerSave
  split
  · rename_i asleep
    change TxMove .wake _ _ (told c.out)
    rw [fresh]
    exact .wake rfl asleep
  · exact (TxAside.refl c).move fresh .wake

theorem told_if_stop (c : Ctx) (stop : Bool) :
    told (if stop then c.emit .stopAggregation else c).out =
      told c.out ++ if stop then [Out.stopAggregation] else [] := by
  cases stop with
  | true => exact told_emit c .stopAggregation
  | false => exact (List.append_nil _).symm

theorem view_if_stop (c : Ctx) (stop : Bool) :
    (if stop then c.emit .stopAggregation else c).tid.tx.view = c.tid.tx.view := by
  cases stop <;> rfl

/-- A reset, with the message let go and the owner told. -/
theorem resetTxState_reset (c : Ctx) (fresh : c.out = []) :
    ∃ tsId, (tsId = tsIdInvalid ∨ c.tid.tx.state = .none ∧ tsId = c.tid.tx.tsId) ∧
      (resetTxState c).1.tid.tx.view = { c.tid.tx.view with state := .none, tsId := tsId } ∧
      told (resetTxState c).1.out = [] ∧ (resetTxState c).2 = isAggrOn c.tid.tx.state := by
  obtain ⟨none, same⟩ | ⟨view, outs, stop⟩ := resetTxState_cases c
  · refine ⟨c.tid.tx.tsId, .inr ⟨none, rfl⟩, ?_, ?_, ?_⟩
    · rw [same, ← none]
      rfl
    · rw [same, fresh]
      rfl
    · rw [same, none]
      rfl
  · exact ⟨tsIdInvalid, .inl rfl, view, by rw [outs, fresh]; rfl, stop⟩

theorem stopTid_move (now : Nat) (fresh : c.out = []) :
    TxMove .stop c.tid.tx.view (stopTid now c).tid.tx.view (told (stopTid now c).out) := by
  obtain ⟨tsId, reset, view, outs, stop⟩ := resetTxState_reset c fresh
  have rxSide (c' : Ctx) : TxAside c' (reorderingStop ((resetRxState c').setRx fun rx =>
      { rx with manMsg := .detached })) :=
    ((resetRxState_aside c').trans (.setRx _)).trans (reorderingStop_aside _)
  unfold stopTid
  simp only [stop]
  have cleared := rxSide (if isAggrOn c.tid.tx.state then
    ((resetTxState c).1.setTx fun tx => { tx with manMsg := .detached }).emit .stopAggregation
    else (resetTxState c).1.setTx fun tx => { tx with manMsg := .detached })
  generalize reorderingStop _ = c' at cleared ⊢
  have view' := cleared.view.trans (view_if_stop ..)
  have outs' := cleared.told.trans (told_if_stop ..)
  change TxMove .stop _ { c'.tid.tx.view with state := .none } (told c'.out)
  rw [view', outs']
  change TxMove .stop _ { (resetTxState c).1.tid.tx.view with
    state := .none, manMsg := .detached } (told (resetTxState c).1.out ++ _)
  rw [view, outs]
  exact .stop rfl tsId reset

theorem onTxMsgCfm_move (cfm : Cfm) (fresh : c.out = []) :
    TxMove (.confirm cfm) c.tid.tx.view (onTxMsgCfm cfm c).tid.tx.view
      (told (onTxMsgCfm cfm c).out) := by
  have silent : told c.out = [] := by rw [fresh]; rfl
  unfold onTxMsgCfm
  split
  · rename_i req msg
    cases req with
    | addbaReq token win timeout =>
      change TxMove _ _ _ (told c.out)
      rw [silent]
      exact .requested cfm token win timeout rfl msg
    | openAggr packets bytes timeout size win =>
      have moved : TxMove (.confirm cfm) c.tid.tx.view _ _ :=
        .opened cfm packets bytes timeout size win rfl msg
      simp only [onTxCfm, onOpenAggrCfm]
      change TxMove _ _ _ (told (Ctx.emit _ .startAggregation).out)
      rw [told_emit]
      split
      · rename_i ok
        rw [if_pos ok] at moved
        change TxMove _ _ _ (told c.out ++ _)
        rw [silent]
        exact moved
      · rename_i failed
        rw [if_neg failed] at moved
        change TxMove _ _ _ (told c.out ++ _)
        rw [silent]
        exact moved
    | closeAggr tsId =>
      obtain ⟨tsId', reset, view, outs, stop⟩ := resetTxState_reset c fresh
      simp only [onTxCfm, onCloseAggrCfm, stop]
      change TxMove _ _ { Tx.view (Ctx.tid _).tx with manMsg := .detached }
        (told (Ctx.out (if isAggrOn c.tid.tx.state then _ else _)))
      rw [view_if_stop, told_if_stop, view, outs]
      exact .closed cfm tsId rfl tsId' msg reset
  · exact (TxAside.refl c).move fresh _

theorem startAggrNegotiation_move (io : Io) (psMode : Bool) (fresh : c.out = [])
    (occ : Occasion) : TxMove occ c.tid.tx.view (startAggrNegotiation io psMode c).tid.tx.view
      (told (startAggrNegotiation io psMode c).out) := by
  unfold startAggrNegotiation
  split
  · exact txAddbaReq_move io psMode fresh occ
  · exact (TxAside.refl c).move fresh occ

theorem onDelbaReqRx_move (io : Io) (initiator : Bool) (fresh : c.out = []) (occ : Occasion) :
    TxMove occ c.tid.tx.view (onDelbaReqRx io initiator c).tid.tx.view
      (told (onDelbaReqRx io initiator c).out) := by
  unfold onDelbaReqRx
  split
  · exact (reorderingStop_aside c).move fresh occ
  · exact closeAggrReq_move io fresh occ (.refl _)

theorem delbaReq_move (closeIo delbaIo : Io) (fresh : c.out = []) (occ : Occasion) :
    TxMove occ c.tid.tx.view (delbaReq closeIo delbaIo c).tid.tx.view
      (told (delbaReq closeIo delbaIo c).out) := by
  unfold delbaReq
  split
  · exact (TxAside.refl c).move fresh occ
  · exact closeAggrReq_move closeIo fresh occ (sendDelbaReq_aside delbaIo true _)

end

/-! ## Histories -/

section
variable {ε : Type} {trace : List (ε ⊕ Out)} {out : List Out}

/-- What is not told to the owner nor sent for the aggregation keeps `J`, so all of it does. -/
theorem append_aside {J : List (ε ⊕ Out) → Prop}
    (skip : ∀ trace (o : Out), o.ofTx = false → J trace → J (trace ++ [Sum.inr o]))
    (silent : told out = []) (start : J trace) : J (trace ++ out.map .inr) := by
  induction out generalizing trace with
  | nil => rwa [List.map_nil, List.append_nil]
  | cons o out ih =>
    rw [told, List.filter_eq_nil_iff] at silent
    rw [List.map_cons, List.append_cons]
    apply ih
    · rw [told, List.filter_eq_nil_iff]
      intro x mem
      exact silent x (List.mem_cons_of_mem o mem)
    · exact skip trace o (by simpa using silent o List.mem_cons_self) start

theorem TxMove.told_le {occ : Occasion} {v v' : TxView} (move : TxMove occ v v' out) :
    out = [] ∨ ∃ o, out = [o] := by
  cases move with
  | stop tsId reset =>
    split
    · exact .inr ⟨_, rfl⟩
    · exact .inl rfl
  | closed cfm tsId confirmed tsId' msg reset =>
    split
    · exact .inr ⟨_, rfl⟩
    · exact .inl rfl
  | keep | powerSave | wake | attach | givenUp | requested => exact .inl rfl
  | _ => exact .inr ⟨_, rfl⟩

/-- A transition within a history. It leads from `K` to `K'` whatever else is put out. -/
theorem TxMove.append {occ : Occasion} {v v' : TxView} {K K' : List (ε ⊕ Out) → Prop}
    (move : TxMove occ v v' (told out))
    (skip : ∀ trace (o : Out), o.ofTx = false → K trace → K (trace ++ [Sum.inr o]))
    (skip' : ∀ trace (o : Out), o.ofTx = false → K' trace → K' (trace ++ [Sum.inr o]))
    (step : ∀ trace, K trace → K' (trace ++ (told out).map .inr)) (start : K trace) :
    K' (trace ++ out.map .inr) := by
  obtain silent | ⟨o, single⟩ := move.told_le
  · apply append_aside skip' silent
    simpa only [silent, List.map_nil, List.append_nil] using step trace start
  · rw [single] at step
    obtain ⟨pre, post, rfl, before, -, after⟩ := List.filter_eq_cons_iff.1 single
    rw [List.map_append, ← List.append_assoc, List.map_cons, List.append_cons]
    apply append_aside skip' after
    apply step
    apply append_aside skip _ start
    rw [told, List.filter_eq_nil_iff]
    exact before

end

/-! ## Steps -/

section
variable {π ν : Type} [DecidableEq π] [DecidableEq ν]

/-- What the TX side of TID `k` is served on. -/
def Op.occasion (k : π × Fin nofTids) : Op π ν → Occasion
  | .peerStart .. | .peerStop .. => .stop
  | .resetPowerSave .. => .wake
  | .txMsgCfm p t cfm => if k = (p, t) then .confirm cfm else .other
  | _ => .other

omit [DecidableEq ν] in
theorem Op.txMove {s : System π ν} {op : Op π ν} {k : π × Fin nofTids} {h : Ctx → Ctx} {c : Ctx}
    (mem : h ∈ op.handlers s k) (fresh : c.out = []) :
    TxMove (op.occasion k) c.tid.tx.view (h c).tid.tx.view (told (h c).out) := by
  have only {P : Prop} [Decidable P] {f : Ctx → Ctx} (mem : h ∈ if P then [f] else []) :
      P ∧ h = f := by
    split at mem
    · rename_i holds
      exact ⟨holds, List.mem_singleton.1 mem⟩
    · cases mem
  cases op with
  | peerStart p now dot11nMode => exact (only mem).2 ▸ stopTid_move now fresh
  | peerStop p now dot11nMode => exact (only mem).2 ▸ stopTid_move now fresh
  | startAggrNegotiation p t psMode io =>
    exact (only mem).2 ▸ startAggrNegotiation_move io psMode fresh _
  | resetPowerSave p t => exact (only mem).2 ▸ resetPowerSave_move fresh
  | addbaReqRx p tid req now io =>
    exact (only mem).2 ▸ (onAddbaReqRx_aside io now req c).move fresh _
  | addbaResRx p tid resCode winSizeRsp dlgt now io =>
    exact (only mem).2 ▸ onAddbaResRx_move io now resCode winSizeRsp dlgt fresh _
  | delbaReqRx p tid initiator io => exact (only mem).2 ▸ onDelbaReqRx_move io initiator fresh _
  | delbaReq p t closeIo delbaIo => exact (only mem).2 ▸ delbaReq_move closeIo delbaIo fresh _
  | delbaReqAll p closeIo delbaIo => exact (only mem).2 ▸ delbaReq_move _ _ fresh _
  | ackOnBar p tid closeIo delbaIo => exact (only mem).2 ▸ delbaReq_move closeIo delbaIo fresh _
  | bar p tid io => exact (only mem).2 ▸ (onBar_aside io c).move fresh _
  | qosWithoutReord p tid now io =>
    exact (only mem).2 ▸ (onQosWithoutReord_aside io now c).move fresh _
  | baTxStatus p tid msg initiator status now io =>
    exact (only mem).2 ▸ (onBaTxStatus_aside io now msg initiator status c).move fresh _
  | iterate p now lastRx io =>
    simp only [Op.handlers] at mem
    split at mem
    · obtain rfl | mem := List.mem_cons.1 mem
      · exact (checkDelbaTimeout_aside (io k.2) now (lastRx k.2) c).move fresh _
      · rw [List.mem_singleton.1 mem]
        exact checkAddbaResRxTimeout_move now fresh _
    · cases mem
  | txMsgCfm p t cfm =>
    obtain ⟨here, rfl⟩ := only mem
    rw [Op.occasion, if_pos here]
    exact onTxMsgCfm_move cfm fresh
  | rxMsgCfm p t => exact (only mem).2 ▸ (onRxMsgCfm_aside c).move fresh _
  | reconfigure v cfg => cases mem

omit [DecidableEq ν] in
/-- A TID is served twice in a step only by the timer. -/
theorem Op.handlers_le (s : System π ν) (op : Op π ν) (k : π × Fin nofTids) :
    (op.handlers s k).length ≤ 1 ∨ op.occasion k = .other := by
  have one {P : Prop} [Decidable P] {f : Ctx → Ctx} : (if P then [f] else []).length ≤ 1 := by
    split
    · exact Nat.le_refl 1
    · exact Nat.zero_le 1
  cases op with
  | iterate => exact .inr rfl
  | reconfigure => exact .inr rfl
  | _ => exact .inl one

omit [DecidableEq ν] in
/-- What the transitions of the TX side keep is kept by a step. `J` is `K` once what the step
is on has come in. -/
theorem Serves.txKeep {ε : Type} (trace : List (ε ⊕ Out)) {J : Occasion → TxView →
    List (ε ⊕ Out) → Prop} {K : TxView → List (ε ⊕ Out) → Prop} {s : System π ν} {op : Op π ν}
    {k : π × Fin nofTids} {cfg : TidCfg} {t t' : Tid} {out : List Out}
    (serves : Serves cfg t (op.handlers s k) t' out)
    (each : ∀ {v v' out trace}, TxMove (op.occasion k) v v' (told out) →
      J (op.occasion k) v trace → K v' (trace ++ out.map .inr))
    (ready : ∀ {v trace}, K v trace → J .other v trace)
    (start : J (op.occasion k) t.tx.view trace) : K t'.tx.view (trace ++ out.map .inr) := by
  have kept : K t.tx.view (trace ++ [].map .inr) := each (.keep _) start
  have moved : ∀ h ∈ op.handlers s k, ∀ c : Ctx, c.out = [] →
      TxMove (op.occasion k) c.tid.tx.view (h c).tid.tx.view (told (h c).out) :=
    fun h mem c fresh => Op.txMove mem fresh
  obtain short | other := op.handlers_le s k
  · generalize op.handlers s k = hs at serves moved short
    cases hs with
    | nil =>
      obtain ⟨rfl, rfl⟩ := serves
      exact kept
    | cons h hs =>
      obtain rfl : hs = [] := by
        rw [List.length_cons] at short
        exact List.eq_nil_of_length_eq_zero (by omega)
      obtain ⟨c, rfl, fresh, -, rfl, rfl⟩ := serves.one
      exact each (moved h List.mem_cons_self c fresh) start
  · refine serves.keep (K := fun t out => K t.tx.view (trace ++ out.map .inr)) ?_ [] kept
    intro h mem c pre fresh _ before
    rw [List.map_append, ← List.append_assoc]
    apply each (moved h mem c fresh)
    rw [other]
    exact ready before

end

end Wave300.Addba
