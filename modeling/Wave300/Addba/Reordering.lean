import Wave300.Addba.System

/-!
# The limit on reorderings

A TID holds a reference of the reordering limiter while its queue reorders, which is from a
positive response on until its RX state is reset. `RxSound` is what the handlers keep of
this for the TID they serve: `n` is what the other TIDs hold, `m` the limit and `pre` what
was logged for this TID before.
-/

namespace Wave300.Addba

open Wave300.Lib

/-- The states in which the queue of a TID reorders. -/
def RxState.reorders : RxState → Bool
  | addbaPositiveResSent => true
  | reordInProcess => true
  | delbaReqSent => true
  | _ => false

def Out.isStartReordering : Out → Bool
  | startReordering .. => true
  | _ => false

def Out.isStopReordering : Out → Bool
  | stopReordering => true
  | _ => false

/-- The states that say which response was sent. -/
def RxState.responded : RxState → Bool
  | addbaPositiveResSent => true
  | addbaNegativeResSent => true
  | _ => false

/-- What is logged for the RX side of a TID, less the requests to delete the agreement. -/
def Out.concernsRx : Out → Bool
  | startReordering .. => true
  | stopReordering => true
  | resetRx => true
  | sendRx (.addbaRes _) => true
  | _ => false

/-- Whether there was a positive response since the RX state was last reset. -/
def accepted (log : List Out) : Bool :=
  log.foldl (fun b o =>
    match o with
    | .sendRx (.addbaRes res) => b || decide (res.resultCode = resCodeSuccess)
    | .resetRx => false
    | _ => b) false

/-- The limiter counts what the others hold and what this TID holds, within the limit, and
this TID was started and stopped in turn. -/
structure ReordBooks (n : Int) (m : Nat) (r : Reflim) (log : List Out) (held : Bool) : Prop where
  others : 0 ≤ n
  cur : r.cur = n + held.toInt
  limit : r.cur ≤ m
  max : r.max = m
  log : toggles Out.isStartReordering Out.isStopReordering log = some held

/-- The cached response is the one the state says was sent. -/
structure Cached (rx : Rx) : Prop where
  positive : rx.state = .addbaPositiveResSent → rx.addbaRes.resultCode = resCodeSuccess
  negative : rx.state = .addbaNegativeResSent → rx.addbaRes.resultCode ≠ resCodeSuccess

structure RxSound (n : Int) (m : Nat) (pre : List Out) (c : Ctx) : Prop where
  books : ReordBooks n m c.reordReflim (pre ++ c.out) c.tid.rx.reorderIsActive
  active : c.tid.rx.reorderIsActive = c.tid.rx.state.reorders
  accepted : accepted (pre ++ c.out) = c.tid.rx.state.reorders
  cached : Cached c.tid.rx

theorem Cached.of_not_responded {rx : Rx} (h : rx.state.responded = false) : Cached rx where
  positive e := by simp [e, RxState.responded] at h
  negative e := by simp [e, RxState.responded] at h

variable {n : Int} {m : Nat} {r : Reflim} {pre log : List Out} {c : Ctx} {held : Bool}

theorem accepted_concat (l : List Out) (o : Out) :
    accepted (l ++ [o]) =
      match o with
      | .sendRx (.addbaRes res) => accepted l || decide (res.resultCode = resCodeSuccess)
      | .resetRx => false
      | _ => accepted l := by
  rw [accepted, List.foldl_append]
  rfl

/-- What does not concern the RX side leaves every reading of the log as it was. -/
theorem Out.aside {o : Out} (h : o.concernsRx = false) :
    o.isStartReordering = false ∧ o.isStopReordering = false ∧
      ∀ l, accepted (l ++ [o]) = accepted l := by
  cases o with
  | startReordering ssn winSize => cases h
  | stopReordering => cases h
  | resetRx => cases h
  | sendRx req =>
    cases req with
    | addbaRes res => cases h
    | delbaReq originator => exact ⟨rfl, rfl, fun l => accepted_concat l _⟩
  | _ => exact ⟨rfl, rfl, fun l => accepted_concat l _⟩

/-! ## What the limiter counts -/

theorem ReordBooks.emit (h : ReordBooks n m r (pre ++ c.out) held) {o : Out}
    (hs : o.isStartReordering = false) (ht : o.isStopReordering = false) :
    ReordBooks n m r (pre ++ (c.emit o).out) held where
  others := h.others
  cur := h.cur
  limit := h.limit
  max := h.max
  log := by simp [Ctx.emit, ← List.append_assoc, toggles_concat, h.log, toggle, hs, ht]

theorem ReordBooks.start (h : ReordBooks n m c.reordReflim (pre ++ c.out) false)
    (hr : c.reordReflim.tryRef = some r) (ssn winSize : Nat) :
    ReordBooks n m r (pre ++ (c.emit (.startReordering ssn winSize)).out) true := by
  have room : c.reordReflim.cur = n := by simp [h.cur]
  unfold Reflim.tryRef at hr
  split at hr
  · rename_i le
    cases hr
    have nonneg := h.others
    rw [asUInt32, if_neg (by omega), h.max] at le
    refine ⟨h.others, by simp [room], le, h.max, ?_⟩
    simp [Ctx.emit, ← List.append_assoc, toggles_concat, h.log, toggle, Out.isStartReordering]
  · cases hr

theorem ReordBooks.stop (h : ReordBooks n m c.reordReflim (pre ++ c.out) true) :
    ReordBooks n m c.reordReflim.unref (pre ++ (c.emit .stopReordering).out) false where
  others := h.others
  cur := by simp [Reflim.unref, h.cur]
  limit := by
    have := h.limit
    simp only [Reflim.unref]
    omega
  max := h.max
  log := by
    simp [Ctx.emit, ← List.append_assoc, toggles_concat, h.log, toggle, Out.isStartReordering,
      Out.isStopReordering]

/-! ## Handlers of the RX side -/

theorem RxSound.setTx (h : RxSound n m pre c) (f : Tx → Tx) : RxSound n m pre (c.setTx f) :=
  ⟨h.books, h.active, h.accepted, h.cached⟩

/-- The fields beside the state, the flag and the cached response do not matter. -/
theorem RxSound.setRx (h : RxSound n m pre c) {f : Rx → Rx}
    (hs : (f c.tid.rx).state = c.tid.rx.state)
    (ha : (f c.tid.rx).reorderIsActive = c.tid.rx.reorderIsActive)
    (hc : (f c.tid.rx).addbaRes = c.tid.rx.addbaRes) : RxSound n m pre (c.setRx f) where
  books := by
    simp only [Ctx.setRx, ha]
    exact h.books
  active := by
    simp only [Ctx.setRx, ha, hs]
    exact h.active
  accepted := by
    simp only [Ctx.setRx, hs]
    exact h.accepted
  cached := by
    simp only [Ctx.setRx]
    exact ⟨by rw [hs, hc]; exact h.cached.positive, by rw [hs, hc]; exact h.cached.negative⟩

/-- A change of state among those that reorder, or among those that do not. -/
theorem RxSound.setState (h : RxSound n m pre c) {f : Rx → Rx}
    (hs : (f c.tid.rx).state.reorders = c.tid.rx.state.reorders)
    (hc : Cached (f c.tid.rx))
    (ha : (f c.tid.rx).reorderIsActive = c.tid.rx.reorderIsActive) :
    RxSound n m pre (c.setRx f) where
  books := by
    simp only [Ctx.setRx, ha]
    exact h.books
  active := by
    simp only [Ctx.setRx, ha, hs]
    exact h.active
  accepted := by
    simp only [Ctx.setRx, hs]
    exact h.accepted
  cached := hc

theorem RxSound.emit (h : RxSound n m pre c) {o : Out} (ho : o.concernsRx = false) :
    RxSound n m pre (c.emit o) where
  books := h.books.emit (Out.aside ho).1 (Out.aside ho).2.1
  active := h.active
  accepted := by
    simp only [Ctx.emit, ← List.append_assoc, (Out.aside ho).2.2]
    exact h.accepted
  cached := h.cached

theorem resetRxState_accepted (pre : List Out) (c : Ctx) :
    accepted (pre ++ (resetRxState c).out) = false := by
  rw [resetRxState, Ctx.emit, ← List.append_assoc, accepted_concat]

theorem resetRxState_reordBooks
    (h : ReordBooks n m c.reordReflim (pre ++ c.out) c.tid.rx.reorderIsActive) :
    ReordBooks n m (resetRxState c).reordReflim (pre ++ (resetRxState c).out)
      (resetRxState c).tid.rx.reorderIsActive :=
  h.emit (o := .resetRx) rfl rfl

theorem resetRxState_rxSound (h : RxSound n m pre c) (hs : c.tid.rx.state.reorders = false) :
    RxSound n m pre (resetRxState c) where
  books := resetRxState_reordBooks h.books
  active := h.active.trans hs
  accepted := resetRxState_accepted pre c
  cached := .of_not_responded rfl

/-- Stopping needs no more than that the limiter was counted right. -/
theorem reorderingStop_rxSound
    (h : ReordBooks n m c.reordReflim (pre ++ c.out) c.tid.rx.reorderIsActive) :
    RxSound n m pre (reorderingStop c) := by
  have reset := resetRxState_reordBooks h
  have none := resetRxState_accepted pre c
  unfold reorderingStop
  simp only
  cases ha : (resetRxState c).tid.rx.reorderIsActive with
  | true =>
    rw [ha] at reset
    refine ⟨ReordBooks.stop (c := (resetRxState c).setRx _) reset, rfl, ?_,
      .of_not_responded rfl⟩
    simp only [↓reduceIte, Ctx.emit, ← List.append_assoc, accepted_concat]
    exact none
  | false =>
    simp only [Bool.false_eq_true, ↓reduceIte]
    exact ⟨reset, ha, none, .of_not_responded rfl⟩

@[simp] theorem reorderingStop_state (c : Ctx) : (reorderingStop c).tid.rx.state = .none := by
  unfold reorderingStop
  simp only
  split <;> rfl

theorem sendDelbaReq_rxSound (io : Io) (originator : Bool) (h : RxSound n m pre c) :
    RxSound n m pre (sendDelbaReq io originator c) := by
  unfold sendDelbaReq
  simp only
  split
  · exact h
  · split
    · exact h.setRx rfl rfl rfl
    · rename_i msg _
      have sent : RxSound n m pre ((c.setRx fun rx => { rx with manMsg := msg }).emit
          (.sendRx (.delbaReq originator))) := (h.setRx rfl rfl rfl).emit rfl
      have same := h.active
      split
      · exact sent
      · split
        · rename_i active
          exact sent.setState (same.symm.trans active).symm (.of_not_responded rfl) rfl
        · rename_i idle
          exact sent.setState (same.symm.trans (eq_false_of_ne_true idle)).symm
            (.of_not_responded rfl) rfl

/-- What the queue does and what the cached response says, before the response is sent. -/
structure Answered (n : Int) (m : Nat) (pre : List Out) (c : Ctx) : Prop where
  books : ReordBooks n m c.reordReflim (pre ++ c.out) c.tid.rx.reorderIsActive
  active : c.tid.rx.reorderIsActive = decide (c.tid.rx.addbaRes.resultCode = resCodeSuccess)
  accepted : accepted (pre ++ c.out) = true → c.tid.rx.addbaRes.resultCode = resCodeSuccess

theorem Answered.sent (h : Answered n m pre c) (now : Nat) (msg : ManMsg RxRequest) :
    RxSound n m pre (onAddbaResSent now ((c.setRx fun rx => { rx with manMsg := msg }).emit
      (.sendRx (.addbaRes c.tid.rx.addbaRes)))) := by
  have books := h.books.emit (o := .sendRx (.addbaRes c.tid.rx.addbaRes)) rfl rfl
  have active := h.active
  have accepted : Addba.accepted (pre ++ (c.emit (.sendRx (.addbaRes c.tid.rx.addbaRes))).out) =
      decide (c.tid.rx.addbaRes.resultCode = resCodeSuccess) := by
    rw [Ctx.emit, ← List.append_assoc, accepted_concat]
    simp only [Bool.or_eq_right_iff_imp, decide_eq_true_eq]
    exact h.accepted
  unfold onAddbaResSent
  by_cases code : c.tid.rx.addbaRes.resultCode = resCodeSuccess
  · rw [decide_eq_true code] at active accepted
    rw [if_pos (by exact code)]
    exact ⟨books, active, accepted, fun _ => code, nofun⟩
  · rw [decide_eq_false code] at active accepted
    rw [if_neg (by exact code)]
    exact ⟨books, active, accepted, nofun, fun _ => code⟩

/-- The response is sent, or all is as before but for the message. -/
theorem sendRxAddbaRes_cases (io : Io) (now : Nat) (h : Answered n m pre c) :
    let (c', sent) := sendRxAddbaRes io now c
    (sent = true ∧ RxSound n m pre c') ∨
      (sent = false ∧ ∃ msg, c' = c.setRx fun rx => { rx with manMsg := msg }) := by
  unfold sendRxAddbaRes
  cases c.tid.rx.manMsg.getEmptyData io with
  | none => exact Or.inr ⟨rfl, c.tid.rx.manMsg, rfl⟩
  | some _ =>
    simp only
    cases ManMsg.send io (RxRequest.addbaRes c.tid.rx.addbaRes) with
    | none => exact Or.inr ⟨rfl, .detached, rfl⟩
    | some msg => exact Or.inl ⟨rfl, h.sent now msg⟩

/-- After the decision the queue reorders exactly when the response is positive. -/
theorem answerAddbaReq_answered (req : AddbaReq) (h : RxSound n m pre c)
    (hs : c.tid.rx.state = .none) : Answered n m pre (answerAddbaReq req c) := by
  have idle : c.tid.rx.reorderIsActive = false := by rw [h.active, hs]; rfl
  have fresh : accepted (pre ++ c.out) = false := by rw [h.accepted, hs]; rfl
  have books := h.books
  have failed : Answered n m pre (c.setRx fun rx =>
      { rx with
        addbaRes := { rx.addbaRes with dialogToken := req.dlgt, resultCode := resCodeFailure } }) :=
    ⟨books, idle, fun e => absurd (fresh.symm.trans e) (by decide)⟩
  unfold answerAddbaReq
  simp only
  split
  · exact failed
  · split
    · exact failed
    · split
      · exact failed
      · rw [idle] at books
        unfold reorderingStart
        cases hr : c.reordReflim.tryRef with
        | none => exact failed
        | some r =>
          simp only [idle, Bool.false_eq_true, ↓reduceIte]
          exact ⟨books.start hr _ _, rfl, fun _ => rfl⟩

theorem onAddbaReqRx_rxSound (io : Io) (now : Nat) (req : AddbaReq) (h : RxSound n m pre c) :
    RxSound n m pre (onAddbaReqRx io now req c) := by
  unfold onAddbaReqRx
  split
  · exact h
  · have answered := answerAddbaReq_answered req (reorderingStop_rxSound h.books)
      (reorderingStop_state c)
    have cases := sendRxAddbaRes_cases io now answered
    simp only at cases ⊢
    rcases cases with ⟨sent, sound⟩ | ⟨sent, msg, e⟩
    · rw [sent, Bool.not_true, if_neg (by decide)]
      split
      · exact sound.setRx rfl rfl rfl
      · exact sound
    · rw [sent, e, Bool.not_false, if_pos rfl]
      exact reorderingStop_rxSound answered.books

theorem onAddbaResTxStatus_rxSound (io : Io) (now status : Nat) (h : RxSound n m pre c) :
    RxSound n m pre (onAddbaResTxStatus io now status c) := by
  unfold onAddbaResTxStatus
  simp only
  split
  · split
    · rename_i positive
      refine RxSound.setRx (h.setState ?_ (.of_not_responded rfl) rfl) rfl rfl rfl
      rw [positive]
      rfl
    · split
      · rename_i negative
        exact (resetRxState_rxSound h (by rw [negative]; rfl)).setRx rfl rfl rfl
      · exact h.setRx rfl rfl rfl
  · split
    · exact h.setRx rfl rfl rfl
    · rename_i waiting
      split
      · exact reorderingStop_rxSound h.books
      · -- the state still says which response is in the cache
        have code : c.tid.rx.reorderIsActive =
            decide (c.tid.rx.addbaRes.resultCode = resCodeSuccess) := by
          rw [h.active]
          cases hs : c.tid.rx.state with
          | addbaPositiveResSent => simp [RxState.reorders, h.cached.positive hs]
          | addbaNegativeResSent => simp [RxState.reorders, h.cached.negative hs]
          | _ => simp [hs] at waiting
        have again : RxSound n m pre
            (c.setRx fun rx => { rx with addbaResAttempt := rx.addbaResAttempt + 1 }) :=
          h.setRx rfl rfl rfl
        have cases := sendRxAddbaRes_cases io now ⟨again.books, code, fun e => by
          have := (h.active.trans h.accepted.symm).trans e
          rw [code] at this
          exact of_decide_eq_true this⟩
        simp only at cases
        rcases cases with ⟨-, sound⟩ | ⟨-, msg, e⟩
        · exact sound
        · rw [e]
          exact again.setRx rfl rfl rfl

theorem onRxDelbaReqTxStatus_rxSound (io : Io) (status : Nat) (h : RxSound n m pre c) :
    RxSound n m pre (onRxDelbaReqTxStatus io status c) := by
  unfold onRxDelbaReqTxStatus
  split
  · split
    · exact reorderingStop_rxSound h.books
    · split
      · rename_i hs
        exact resetRxState_rxSound h (by rw [hs]; rfl)
      · exact h
  · split
    · rename_i hs
      exact resetRxState_rxSound h (by rw [hs]; rfl)
    · split
      · exact h.setRx rfl rfl rfl
      · split
        · exact reorderingStop_rxSound h.books
        · exact sendDelbaReq_rxSound io false (h.setRx rfl rfl rfl)

theorem onRxMsgCfm_rxSound (h : RxSound n m pre c) : RxSound n m pre (onRxMsgCfm c) := by
  unfold onRxMsgCfm
  split
  · rename_i req _
    refine RxSound.setRx ?_ rfl rfl rfl
    cases req with
    | delbaReq originator =>
      simp only [onRxCfm, onDelbaReqTxCfm]
      split
      · split
        · exact h.setTx _
        · exact h
      · split
        · exact h.setRx rfl rfl rfl
        · exact h
    | addbaRes res =>
      simp only [onRxCfm, onAddbaResTxCfm]
      split
      · exact h.setRx rfl rfl rfl
      · exact h
  · exact h

theorem onBar_rxSound (io : Io) (h : RxSound n m pre c) : RxSound n m pre (onBar io c) := by
  unfold onBar
  split
  · exact sendDelbaReq_rxSound io false h
  · exact h

theorem onQosWithoutReord_rxSound (io : Io) (now : Nat) (h : RxSound n m pre c) :
    RxSound n m pre (onQosWithoutReord io now c) := by
  unfold onQosWithoutReord
  split
  · exact onBar_rxSound io (h.setRx rfl rfl rfl)
  · exact h

theorem checkDelbaTimeout_rxSound (io : Io) (now lastRx : Nat) (h : RxSound n m pre c) :
    RxSound n m pre (checkDelbaTimeout io now lastRx c) := by
  unfold checkDelbaTimeout
  split
  · exact sendDelbaReq_rxSound io false h
  · exact h

/-! ## Handlers of the TX side -/

theorem RxSound.setAggr (h : RxSound n m pre c) (r : Reflim) :
    RxSound n m pre { c with aggrReflim := r } :=
  ⟨h.books, h.active, h.accepted, h.cached⟩

theorem unrefAggr_rxSound (h : RxSound n m pre c) : RxSound n m pre c.unrefAggr :=
  (h.setAggr _).emit rfl

theorem resetTxState_rxSound (h : RxSound n m pre c) : RxSound n m pre (resetTxState c).1 := by
  unfold resetTxState
  simp only
  split
  · exact h
  · split
    · exact ⟨h.books, h.active, h.accepted, h.cached⟩
    · have returned := unrefAggr_rxSound h
      exact ⟨returned.books, returned.active, returned.accepted, returned.cached⟩

theorem sendAddbaReq_rxSound (io : Io) (h : RxSound n m pre c) :
    RxSound n m pre (sendAddbaReq io c).1 := by
  unfold sendAddbaReq
  simp only
  split
  · exact h
  · split
    · exact (h.setTx _).setTx fun tx => { tx with manMsg := .detached }
    · have sent := h.emit (o := .sendTx (.addbaReq c.nextDlgToken (fillAddbaReq c)
        c.cfg.addbaTimeout)) rfl
      exact ⟨sent.books, sent.active, sent.accepted, sent.cached⟩

theorem startAggrNegotiation_rxSound (io : Io) (psMode : Bool) (h : RxSound n m pre c) :
    RxSound n m pre (startAggrNegotiation io psMode c) := by
  unfold startAggrNegotiation txAddbaReq
  split
  · split
    · exact h
    · split
      · exact h.setTx _
      · split
        · exact h
        · rename_i r _
          have sent := sendAddbaReq_rxSound io ((h.setAggr r).emit (o := .aggrRef) rfl)
          simp only
          split
          · exact sent
          · exact unrefAggr_rxSound sent
  · exact h

theorem closeAggrReq_rxSound (io : Io) (h : RxSound n m pre c) :
    RxSound n m pre (closeAggrReq io c) := by
  unfold closeAggrReq
  simp only
  split
  · exact h
  · split
    · exact h
    · split
      · exact h
      · split
        · exact h.setTx _
        · exact (h.setTx _).emit rfl

theorem onTxMsgCfm_rxSound (cfm : Cfm) (h : RxSound n m pre c) :
    RxSound n m pre (onTxMsgCfm cfm c) := by
  unfold onTxMsgCfm
  split
  · rename_i req _
    apply RxSound.setTx
    cases req with
    | addbaReq dialogToken winSize baTimeout =>
      simp only [onTxCfm, onAddbaReqTxCfm]
      exact h.setTx _
    | openAggr maxNumOfPackets maxNumOfBytes timeoutInterval minSizeOfPacketInAggr windowSize =>
      simp only [onTxCfm, onOpenAggrCfm]
      split
      · exact ((h.setTx _).setTx _).emit rfl
      · exact (h.setTx _).emit rfl
    | closeAggr tsId =>
      simp only [onTxCfm, onCloseAggrCfm]
      split
      · exact (resetTxState_rxSound h).emit rfl
      · exact resetTxState_rxSound h
  · exact h

theorem checkAddbaResRxTimeout_rxSound (now : Nat) (h : RxSound n m pre c) :
    RxSound n m pre (checkAddbaResRxTimeout now c) := by
  unfold checkAddbaResRxTimeout
  simp only
  split
  · split
    · exact (resetTxState_rxSound h).emit rfl
    · exact h
  · split
    · split
      · exact (h.setTx _).emit rfl
      · exact h
    · exact h

theorem onAddbaResRx_rxSound (io : Io) (now resCode winSizeRsp dlgt : Nat)
    (h : RxSound n m pre c) :
    RxSound n m pre (onAddbaResRx io now resCode winSizeRsp dlgt c) := by
  unfold onAddbaResRx
  split
  · exact h
  · split
    · exact h
    · split
      · unfold onAddbaResPositive
        simp only
        split
        · exact h.setTx _
        · split
          · exact (h.setTx _).setTx _
          · split
            · exact (h.setTx _).setTx _
            · exact ((h.setTx _).setTx _).emit rfl
      · unfold onAddbaResNegative
        simp only
        split
        · exact ((resetTxState_rxSound h).setTx _).emit rfl
        · exact (resetTxState_rxSound h).setTx _

theorem resetPowerSave_rxSound (h : RxSound n m pre c) : RxSound n m pre (resetPowerSave c) := by
  unfold resetPowerSave
  split
  · exact h.setTx _
  · exact h

theorem delbaReq_rxSound (closeIo delbaIo : Io) (h : RxSound n m pre c) :
    RxSound n m pre (delbaReq closeIo delbaIo c) := by
  unfold delbaReq
  split
  · exact h
  · exact sendDelbaReq_rxSound delbaIo true (closeAggrReq_rxSound closeIo h)

theorem onDelbaReqRx_rxSound (io : Io) (initiator : Bool) (h : RxSound n m pre c) :
    RxSound n m pre (onDelbaReqRx io initiator c) := by
  unfold onDelbaReqRx
  split
  · exact reorderingStop_rxSound h.books
  · exact closeAggrReq_rxSound io h

theorem onBaTxStatus_rxSound (io : Io) (now : Nat) (msg : BaTxMsg) (initiator : Bool)
    (status : Nat) (h : RxSound n m pre c) :
    RxSound n m pre (onBaTxStatus io now msg initiator status c) := by
  cases msg with
  | delbaReq =>
    simp only [onBaTxStatus]
    split
    · unfold onTxDelbaReqTxStatus
      split
      · exact h
      · split
        · exact h.setTx _
        · split
          · exact h.setTx _
          · exact sendDelbaReq_rxSound io true (h.setTx _)
    · exact onRxDelbaReqTxStatus_rxSound io status h
  | addbaResTxReq => exact onAddbaResTxStatus_rxSound io now status h
  | other => exact h

/-- The state is reset before the queue is stopped, but the limiter is counted right. -/
theorem stopTid_rxSound (now : Nat) (h : RxSound n m pre c) : RxSound n m pre (stopTid now c) := by
  have taken := (resetTxState_rxSound h).setTx fun tx => { tx with manMsg := .detached }
  have stopped : RxSound n m pre (if (resetTxState c).2 then
      ((resetTxState c).1.setTx fun tx => { tx with manMsg := .detached }).emit .stopAggregation
      else (resetTxState c).1.setTx fun tx => { tx with manMsg := .detached }) := by
    split
    · exact taken.emit rfl
    · exact taken
  unfold stopTid
  simp only
  revert stopped
  generalize (if (resetTxState c).2 = true then _ else _) = d
  intro stopped
  refine RxSound.setRx ?_ ?_ rfl rfl
  · apply RxSound.setTx
    apply reorderingStop_rxSound
    exact resetRxState_reordBooks stopped.books
  · exact (reorderingStop_state _).symm

theorem rxSound_kept : HandlersKeep (RxSound n m pre) where
  stopTid now _ := stopTid_rxSound now
  startAggrNegotiation io psMode _ := startAggrNegotiation_rxSound io psMode
  resetPowerSave _ := resetPowerSave_rxSound
  onAddbaReqRx io now req _ := onAddbaReqRx_rxSound io now req
  onDelbaReqRx io initiator _ := onDelbaReqRx_rxSound io initiator
  delbaReq closeIo delbaIo _ := delbaReq_rxSound closeIo delbaIo
  onBar io _ := onBar_rxSound io
  onQosWithoutReord io now _ := onQosWithoutReord_rxSound io now
  onBaTxStatus io now msg initiator status _ := onBaTxStatus_rxSound io now msg initiator status
  checkDelbaTimeout io now lastRx _ := checkDelbaTimeout_rxSound io now lastRx
  checkAddbaResRxTimeout now _ := checkAddbaResRxTimeout_rxSound now
  onTxMsgCfm cfm _ := onTxMsgCfm_rxSound cfm
  onRxMsgCfm _ := onRxMsgCfm_rxSound

/-! ## All the peers -/

section
variable {π ν : Type} [Fintype π] {s : System π ν}

/-- What one TID holds of the reordering limiter. -/
def Tid.reordHeld (t : Tid) : Int := t.rx.reorderIsActive.toInt

structure ReordAccounted (m : Nat) (s : System π ν) : Prop where
  cur : s.reordReflim.cur = total Tid.reordHeld s.tid
  limit : s.reordReflim.cur ≤ m
  max : s.reordReflim.max = m
  log : ∀ k, toggles Out.isStartReordering Out.isStopReordering (s.log k) =
    some (s.tid k).rx.reorderIsActive
  active : ∀ k, (s.tid k).rx.reorderIsActive = (s.tid k).rx.state.reorders
  accepted : ∀ k, accepted (s.log k) = (s.tid k).rx.state.reorders
  cached : ∀ k, Cached (s.tid k).rx

theorem reordHeld_le_total (s : System π ν) (k : π × Fin nofTids) :
    (s.tid k).reordHeld ≤ total Tid.reordHeld s.tid := by
  refine le_total (fun t => ?_) s.tid k
  cases h : t.rx.reorderIsActive <;> simp [Tid.reordHeld, h]

theorem ReordAccounted.enter {m : Nat} (h : ReordAccounted m s) (k : π × Fin nofTids) :
    RxSound (total Tid.reordHeld s.tid - (s.tid k).reordHeld) m (s.log k) (s.ctx k) where
  books := by
    have le := reordHeld_le_total s k
    refine ⟨by omega, ?_, h.limit, h.max, by simpa [System.ctx] using h.log k⟩
    simp only [System.ctx, h.cur, Tid.reordHeld]
    omega
  active := h.active k
  accepted := by simpa [System.ctx] using h.accepted k
  cached := h.cached k

variable [DecidableEq π] [DecidableEq ν]

theorem reordAccounted_local (m : Nat) : Local (π := π) (ν := ν) (ReordAccounted m) fun s k =>
    RxSound (total Tid.reordHeld s.tid - (s.tid k).reordHeld) m (s.log k) where
  enter _ k h := h.enter k
  leave s k c h hc := by
    have here (P : Tid → List Out → Prop) (hk : P c.tid (s.log k ++ c.out))
        (others : ∀ j, P (s.tid j) (s.log j)) (j : π × Fin nofTids) :
        P ((s.put k c).tid j) ((s.put k c).log j) := by
      by_cases e : j = k
      · subst e
        simpa [System.put] using hk
      · simpa [System.put, e] using others j
    constructor
    case cur =>
      rw [System.put, total_update, hc.books.cur]
      rfl
    case limit => exact hc.books.limit
    case max => exact hc.books.max
    case log =>
      exact here (fun t l => toggles _ _ l = some t.rx.reorderIsActive) hc.books.log h.log
    case active =>
      exact here (fun t _ => t.rx.reorderIsActive = t.rx.state.reorders) hc.active h.active
    case accepted =>
      exact here (fun t l => accepted l = t.rx.state.reorders) hc.accepted h.accepted
    case cached => exact here (fun t _ => Cached t.rx) hc.cached h.cached
  other _ _ _ h := ⟨h.cur, h.limit, h.max, h.log, h.active, h.accepted, h.cached⟩

/-- One step keeps the account of the reordering limiter, whatever the event. -/
theorem ReordAccounted.step {m : Nat} (h : ReordAccounted m s) (op : Op π ν) :
    ReordAccounted m (step s op) := by
  refine (reordAccounted_local m).step (fun _ _ => rxSound_kept) ?_ h
  rintro p tid resCode winSizeRsp dlgt now io - - t - hc
  exact onAddbaResRx_rxSound io now resCode winSizeRsp dlgt hc

omit [DecidableEq π] [DecidableEq ν] in
theorem init_reordAccounted (home : π → ν) (cfg : ν → Fin nofTids → TidCfg)
    (maxAggr maxReord : Nat) :
    ReordAccounted maxReord (System.init home cfg maxAggr maxReord) where
  cur := by simp [System.init, total, Tid.reordHeld, Tid.init]
  limit := Int.natCast_nonneg _
  max := rfl
  log := fun _ => rfl
  active := fun _ => rfl
  accepted := fun _ => rfl
  cached := fun _ => .of_not_responded rfl

/-- The pairs of a peer and a TID with an active reordering queue. -/
def System.reordering (s : System π ν) : Finset (π × Fin nofTids) :=
  Finset.univ.filter fun k => (s.tid k).rx.reorderIsActive

omit [DecidableEq π] [DecidableEq ν] in
theorem card_reordering (s : System π ν) :
    (s.reordering.card : Int) = total Tid.reordHeld s.tid := by
  rw [System.reordering, Finset.card_filter, total, Nat.cast_sum]
  apply Finset.sum_congr rfl
  intro k _
  cases h : (s.tid k).rx.reorderIsActive <;> simp [Tid.reordHeld, h]

/-- After any events in any order the limiter counts the active queues, within its limit. A
queue is active in exactly the states between a positive response and the next reset, and it
is started and stopped in turn. -/
theorem reord_reflim_counts_reordering (home : π → ν) (cfg : ν → Fin nofTids → TidCfg)
    (maxAggr maxReord : Nat) (ops : List (Op π ν)) :
    let s := ops.foldl Addba.step (System.init home cfg maxAggr maxReord)
    s.reordReflim.cur = s.reordering.card ∧ 0 ≤ s.reordReflim.cur ∧
      s.reordReflim.cur ≤ s.reordReflim.max ∧ s.reordReflim.max = maxReord ∧
      ∀ k, (s.tid k).rx.reorderIsActive = (s.tid k).rx.state.reorders ∧
        (s.tid k).rx.reorderIsActive = accepted (s.log k) ∧
        toggles Out.isStartReordering Out.isStopReordering (s.log k) =
          some (s.tid k).rx.reorderIsActive := by
  intro s
  have account : ReordAccounted maxReord s :=
    List.foldlRecOn ops _ (init_reordAccounted home cfg maxAggr maxReord)
      fun _ h op _ => h.step op
  have cur : s.reordReflim.cur = s.reordering.card := by rw [account.cur, card_reordering]
  refine ⟨cur, by omega, account.max ▸ account.limit, account.max, fun k => ?_⟩
  exact ⟨account.active k, (account.active k).trans (account.accepted k).symm, account.log k⟩

end

end Wave300.Addba
