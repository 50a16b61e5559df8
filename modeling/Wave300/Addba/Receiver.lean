import Wave300.Addba.Aggregation
import Wave300.Addba.Steps

/-!
# The transitions of the RX side

Everything a handler can do to the state of the RX side of a TID, to its message and to the
counters of its retransmissions, with the messages it sends on the way. The DELBA of the
originator goes through the same message.
-/

namespace Wave300.Addba

/-- What the exchange of responses and DELBAs depends on. -/
structure RxView where
  state : RxState
  manMsg : ManMsg RxRequest
  res : AddbaRes
  resAttempt : Nat
  delbaAttempt : Nat
  txDelbaAttempt : Nat

def Tid.rxView (t : Tid) : RxView where
  state := t.rx.state
  manMsg := t.rx.manMsg
  res := t.rx.addbaRes
  resAttempt := t.rx.addbaResAttempt
  delbaAttempt := t.rx.delbaReqAttempt
  txDelbaAttempt := t.tx.delbaReqAttempt

def RxView.reset (v : RxView) : RxView :=
  { v with state := .none, resAttempt := 0, delbaAttempt := 0 }

/-- The messages that are sent, in order. -/
def mail (out : List Out) : List RxRequest :=
  out.filterMap fun
    | .sendRx req => some req
    | _ => none

theorem mail_append (out out' : List Out) : mail (out ++ out') = mail out ++ mail out' :=
  List.filterMap_append

/-- The state in which a response that was sent is waited for. -/
def resState (res : AddbaRes) : RxState :=
  if res.resultCode = resCodeSuccess then .addbaPositiveResSent else .addbaNegativeResSent

/-- One transition while the peer is up that no report causes. `answers` says whether an ADDBA
request is answered. -/
inductive RxMove (answers : Bool) : RxView → RxView → List RxRequest → Prop where
  | keep (v) : RxMove answers v v []
  | reset (v) : RxMove answers v v.reset []
  | unanswered (v res) (asked : answers = true) : RxMove answers v { v.reset with res := res } []
  | respond {v} (res) (asked : answers = true) (msg : v.manMsg = .detached) :
      RxMove answers v
        { v.reset with state := resState res, res := res, manMsg := .sent (.addbaRes res) }
        [.addbaRes res]
  | delbaTx {v} (msg : v.manMsg = .detached) :
      RxMove answers v { v with manMsg := .sent (.delbaReq true) } [.delbaReq true]
  | delbaRx {v} (state) (waits : state = .delbaReqSent ∨ state = .delbaReqSentWithoutReordering)
      (msg : v.manMsg = .detached) :
      RxMove answers v { v with state := state, manMsg := .sent (.delbaReq false) }
        [.delbaReq false]

/-- A handler that has nothing to do with responses and DELBAs. -/
structure RxAside (c c' : Ctx) : Prop where
  view : c'.tid.rxView = c.tid.rxView
  mail : mail c'.out = mail c.out

/-- Whether a message of the RX side is sent. -/
def Out.ofRx : Out → Bool
  | sendRx _ => true
  | _ => false

theorem mail_emit (c : Ctx) (o : Out) : mail (c.emit o).out = mail c.out ++ mail [o] :=
  mail_append ..

namespace RxAside
variable {c c' c'' : Ctx}

theorem refl (c : Ctx) : RxAside c c := ⟨rfl, rfl⟩

theorem trans (h : RxAside c c') (h' : RxAside c' c'') : RxAside c c'' :=
  ⟨h'.view.trans h.view, h'.mail.trans h.mail⟩

theorem put {o : Out} (view : c'.tid.rxView = c.tid.rxView) (outs : c'.out = c.out ++ [o])
    (aside : o.ofRx = false) : RxAside c c' := by
  refine ⟨view, ?_⟩
  rw [outs, mail_append]
  cases o with
  | sendRx req => cases aside
  | _ => exact List.append_nil _

theorem emit {o : Out} (h : RxAside c c') (aside : o.ofRx = false) : RxAside c (c'.emit o) :=
  h.trans (.put rfl rfl aside)

theorem move (h : RxAside c c') (fresh : c.out = []) (answers : Bool) :
    RxMove answers c.tid.rxView c'.tid.rxView (Addba.mail c'.out) := by
  rw [h.view, h.mail, fresh]
  exact .keep _

end RxAside

/-! ## What the handlers share -/

/-- A message can be sent: it is not in use, and TXMM has a block and takes it. -/
def ManMsg.Ready {ρ : Type} (m : ManMsg ρ) (io : Io) : Prop :=
  m = .detached ∧ io.alloc ∧ io.send

instance {ρ : Type} [DecidableEq ρ] (m : ManMsg ρ) (io : Io) : Decidable (m.Ready io) :=
  inferInstanceAs (Decidable (_ ∧ _))

theorem not_ready_of_getEmptyData {ρ : Type} {m : ManMsg ρ} {io : Io}
    (none : m.getEmptyData io = none) : ¬m.Ready io := by
  rintro ⟨rfl, alloc, -⟩
  rw [ManMsg.getEmptyData, if_pos alloc] at none
  cases none

theorem not_ready_of_send {ρ : Type} {m : ManMsg ρ} {req : ρ} {io : Io}
    (none : ManMsg.send io req = none) : ¬m.Ready io := by
  rintro ⟨-, -, send⟩
  rw [ManMsg.send, if_pos send] at none
  cases none

section
variable {c : Ctx}

theorem resetRxState_resets (c : Ctx) : (resetRxState c).tid.rxView = c.tid.rxView.reset ∧
    mail (resetRxState c).out = mail c.out := by
  refine ⟨rfl, ?_⟩
  rw [resetRxState, mail_emit]
  exact List.append_nil _

theorem reorderingStop_resets (c : Ctx) : (reorderingStop c).tid.rxView = c.tid.rxView.reset ∧
    mail (reorderingStop c).out = mail c.out := by
  obtain ⟨view, outs⟩ := resetRxState_resets c
  unfold reorderingStop
  simp only
  split
  · refine ⟨rfl, ?_⟩
    change mail (Ctx.emit _ _).out = _
    rw [mail_emit]
    exact (List.append_nil _).trans outs
  · exact ⟨view, outs⟩

/-- The DELBA is sent, or nothing has changed. -/
theorem sendDelbaReq_cases (io : Io) (originator : Bool) (c : Ctx) :
    (¬c.tid.rx.manMsg.Ready io ∧
      RxAside c (sendDelbaReq io originator c)) ∨
    (c.tid.rx.manMsg.Ready io ∧
      mail (sendDelbaReq io originator c).out = mail c.out ++ [RxRequest.delbaReq originator] ∧
      ((originator = true ∧ (sendDelbaReq io originator c).tid.rxView =
        { c.tid.rxView with manMsg := .sent (.delbaReq originator) }) ∨
      (originator = false ∧ ∃ state,
        (state = .delbaReqSent ∨ state = .delbaReqSentWithoutReordering) ∧
        (sendDelbaReq io originator c).tid.rxView =
          { c.tid.rxView with state := state, manMsg := .sent (.delbaReq originator) }))) := by
  unfold sendDelbaReq
  split
  · rename_i none
    exact .inl ⟨not_ready_of_getEmptyData none, .refl c⟩
  · rename_i msg
    have detached := (getEmptyData_some msg).1
    simp only
    split
    · rename_i unsent
      refine .inl ⟨not_ready_of_send unsent, ?_, rfl⟩
      change RxView.mk _ .detached _ _ _ _ = _
      rw [← detached]
      rfl
    · rename_i m sent
      rw [send_some sent]
      right
      refine ⟨⟨detached, getEmptyData_alloc msg, send_taken sent⟩, ?_⟩
      have posted := mail_emit
        (c.setRx fun rx => { rx with manMsg := .sent (.delbaReq originator) })
        (.sendRx (.delbaReq originator))
      cases originator with
      | true => exact ⟨posted, .inl ⟨rfl, rfl⟩⟩
      | false =>
        rw [if_neg Bool.false_ne_true]
        split
        · exact ⟨posted, .inr ⟨rfl, _, .inl rfl, rfl⟩⟩
        · exact ⟨posted, .inr ⟨rfl, _, .inr rfl, rfl⟩⟩

theorem onAddbaResSent_waits (now : Nat) (c : Ctx) :
    (onAddbaResSent now c).tid.rxView =
      { c.tid.rxView with state := resState c.tid.rx.addbaRes } ∧
    (onAddbaResSent now c).out = c.out := by
  unfold onAddbaResSent
  by_cases success : c.tid.rx.addbaRes.resultCode = resCodeSuccess
  · rw [resState, if_pos success, if_pos success]
    exact ⟨rfl, rfl⟩
  · rw [resState, if_neg success, if_neg success]
    exact ⟨rfl, rfl⟩

/-- The response is sent, or nothing has changed. -/
theorem sendRxAddbaRes_sends (io : Io) (now : Nat) (c : Ctx) :
    ((sendRxAddbaRes io now c).2 = false ∧
      ¬c.tid.rx.manMsg.Ready io ∧
      RxAside c (sendRxAddbaRes io now c).1) ∨
    ((sendRxAddbaRes io now c).2 = true ∧ c.tid.rx.manMsg = .detached ∧
      mail (sendRxAddbaRes io now c).1.out = mail c.out ++ [RxRequest.addbaRes c.tid.rx.addbaRes] ∧
      (sendRxAddbaRes io now c).1.tid.rxView = { c.tid.rxView with
        state := resState c.tid.rx.addbaRes, manMsg := .sent (.addbaRes c.tid.rx.addbaRes) }) := by
  unfold sendRxAddbaRes
  split
  · rename_i none
    exact .inl ⟨rfl, not_ready_of_getEmptyData none, .refl c⟩
  · rename_i msg
    have detached := (getEmptyData_some msg).1
    simp only
    split
    · rename_i unsent
      refine .inl ⟨rfl, not_ready_of_send unsent, ?_, rfl⟩
      change RxView.mk _ .detached _ _ _ _ = _
      rw [← detached]
      rfl
    · rename_i m sent
      rw [send_some sent]
      have posted := mail_emit (c.setRx fun rx =>
        { rx with manMsg := .sent (.addbaRes c.tid.rx.addbaRes) })
        (.sendRx (.addbaRes c.tid.rx.addbaRes))
      obtain ⟨view, outs⟩ := onAddbaResSent_waits now ((c.setRx fun rx =>
        { rx with manMsg := .sent (.addbaRes c.tid.rx.addbaRes) }).emit
          (.sendRx (.addbaRes c.tid.rx.addbaRes)))
      exact .inr ⟨rfl, detached, (congrArg mail outs).trans posted, view⟩

theorem answerAddbaReq_caches (req : AddbaReq) (c : Ctx) :
    ∃ res, (answerAddbaReq req c).tid.rxView = { c.tid.rxView with res := res } ∧
      mail (answerAddbaReq req c).out = mail c.out := by
  unfold answerAddbaReq
  simp only
  split
  · exact ⟨_, rfl, rfl⟩
  · split
    · exact ⟨_, rfl, rfl⟩
    · split
      · exact ⟨_, rfl, rfl⟩
      · split
        · exact ⟨_, rfl, rfl⟩
        · rename_i c' started
          unfold reorderingStart at started
          split at started
          · cases started
          · simp only at started
            split at started <;> cases started
            · exact ⟨_, rfl, rfl⟩
            · refine ⟨_, rfl, ?_⟩
              exact (mail_emit c (.startReordering ..)).trans (List.append_nil _)

/-! ## Handlers -/

theorem onAddbaReqRx_move (io : Io) (now : Nat) (req : AddbaReq) (fresh : c.out = []) :
    RxMove (!dropsAddbaReq req.dlgt c.tid.rx) c.tid.rxView
      (onAddbaReqRx io now req c).tid.rxView (mail (onAddbaReqRx io now req c).out) := by
  unfold onAddbaReqRx
  split
  · exact (RxAside.refl c).move fresh _
  · rename_i accepted
    have asked : (!dropsAddbaReq req.dlgt c.tid.rx) = true := by simpa using accepted
    rw [asked]
    obtain ⟨view, outs⟩ := reorderingStop_resets c
    obtain ⟨res, view', outs'⟩ := answerAddbaReq_caches req (reorderingStop c)
    generalize answered : answerAddbaReq req (reorderingStop c) = c' at view' outs'
    rw [view] at view'
    rw [outs, fresh] at outs'
    have cached : c'.tid.rx.addbaRes = res := congrArg RxView.res view'
    simp only
    obtain ⟨failed, -, aside⟩ | ⟨sent, msg, posted, waits⟩ := sendRxAddbaRes_sends io now c'
    · rw [failed]
      obtain ⟨stopped, silent⟩ := reorderingStop_resets (sendRxAddbaRes io now c').1
      simp only [Bool.not_false, if_true]
      rw [stopped, silent, aside.view, aside.mail, view', outs']
      exact .unanswered _ res rfl
    · rw [sent]
      have detached : c.tid.rxView.manMsg = .detached :=
        (congrArg RxView.manMsg view').symm.trans msg
      have moved : RxMove true c.tid.rxView _ _ := .respond res rfl detached
      rw [cached, view'] at waits
      rw [cached, outs'] at posted
      simp only [Bool.not_true, Bool.false_eq_true, if_false]
      split
      · change RxMove true _ (sendRxAddbaRes io now c').1.tid.rxView
          (mail (sendRxAddbaRes io now c').1.out)
        rw [waits, posted]
        exact moved
      · rw [waits, posted]
        exact moved

theorem sendDelbaReq_move (io : Io) (originator : Bool) {c' : Ctx} (aside : RxAside c c')
    (fresh : c.out = []) (answers : Bool) :
    RxMove answers c.tid.rxView (sendDelbaReq io originator c').tid.rxView
      (mail (sendDelbaReq io originator c').out) := by
  obtain ⟨-, kept⟩ | ⟨⟨msg, -⟩, posted, ⟨rfl, view⟩ | ⟨rfl, state, waits, view⟩⟩ :=
    sendDelbaReq_cases io originator c'
  · exact (aside.trans kept).move fresh answers
  · have detached : c.tid.rxView.manMsg = .detached :=
      (congrArg RxView.manMsg aside.view).symm.trans msg
    rw [posted, view, aside.view, aside.mail, fresh]
    exact .delbaTx detached
  · have detached : c.tid.rxView.manMsg = .detached :=
      (congrArg RxView.manMsg aside.view).symm.trans msg
    rw [posted, view, aside.view, aside.mail, fresh]
    exact .delbaRx state waits detached

theorem onBar_move (io : Io) {c' : Ctx} (aside : RxAside c c') (fresh : c.out = [])
    (answers : Bool) : RxMove answers c.tid.rxView (onBar io c').tid.rxView
      (mail (onBar io c').out) := by
  unfold onBar
  split
  · exact sendDelbaReq_move io false aside fresh answers
  · exact aside.move fresh answers

theorem checkDelbaTimeout_rxMove (io : Io) (now lastRx : Nat) (fresh : c.out = [])
    (answers : Bool) : RxMove answers c.tid.rxView (checkDelbaTimeout io now lastRx c).tid.rxView
      (mail (checkDelbaTimeout io now lastRx c).out) := by
  unfold checkDelbaTimeout
  split
  · exact sendDelbaReq_move io false (.refl c) fresh answers
  · exact (RxAside.refl c).move fresh answers

theorem unrefAggr_rxAside (c : Ctx) : RxAside c c.unrefAggr := by
  exact .put rfl rfl rfl

theorem resetTxState_rxAside (c : Ctx) : RxAside c (resetTxState c).1 := by
  unfold resetTxState
  simp only
  split
  · exact .refl c
  · split
    · exact ⟨rfl, rfl⟩
    · exact (unrefAggr_rxAside c).trans ⟨rfl, rfl⟩

theorem sendAddbaReq_rxAside (io : Io) (c : Ctx) : RxAside c (sendAddbaReq io c).1 := by
  unfold sendAddbaReq
  split
  · exact .refl c
  · simp only
    split
    · exact ⟨rfl, rfl⟩
    · rename_i m _
      have sent : RxAside c ((Ctx.setTx (c.setTx fun tx => { tx with winSizeReq := fillAddbaReq c })
        fun tx => { tx with manMsg := m }).emit (.sendTx (.addbaReq c.nextDlgToken (fillAddbaReq c)
          c.cfg.addbaTimeout))) := .put rfl rfl rfl
      exact sent.trans ⟨rfl, rfl⟩

theorem txAddbaReq_rxAside (io : Io) (psMode : Bool) (c : Ctx) :
    RxAside c (txAddbaReq io psMode c) := by
  unfold txAddbaReq
  split
  · exact .refl c
  · split
    · exact ⟨rfl, rfl⟩
    · split
      · exact .refl c
      · rename_i r _
        have referred : RxAside c ({ c with aggrReflim := r }.emit .aggrRef) :=
          .put rfl rfl rfl
        have sent := referred.trans (sendAddbaReq_rxAside io _)
        simp only
        split
        · exact sent
        · exact sent.trans (unrefAggr_rxAside _)

theorem startAggrNegotiation_rxAside (io : Io) (psMode : Bool) (c : Ctx) :
    RxAside c (startAggrNegotiation io psMode c) := by
  unfold startAggrNegotiation
  split
  · exact txAddbaReq_rxAside io psMode c
  · exact .refl c

theorem resetPowerSave_rxAside (c : Ctx) : RxAside c (resetPowerSave c) := by
  unfold resetPowerSave
  split <;> exact ⟨rfl, rfl⟩

theorem closeAggrReq_rxAside (io : Io) (c : Ctx) : RxAside c (closeAggrReq io c) := by
  unfold closeAggrReq
  split
  · exact .refl c
  · split
    · exact .refl c
    · split
      · exact .refl c
      · simp only
        split
        · exact ⟨rfl, rfl⟩
        · exact .put rfl rfl rfl

theorem delbaReq_rxMove (closeIo delbaIo : Io) (fresh : c.out = []) (answers : Bool) :
    RxMove answers c.tid.rxView (delbaReq closeIo delbaIo c).tid.rxView
      (mail (delbaReq closeIo delbaIo c).out) := by
  unfold delbaReq
  split
  · exact (RxAside.refl c).move fresh answers
  · exact sendDelbaReq_move delbaIo true (closeAggrReq_rxAside closeIo c) fresh answers

theorem onAddbaResRx_rxAside (io : Io) (now resCode winSizeRsp dlgt : Nat) (c : Ctx) :
    RxAside c (onAddbaResRx io now resCode winSizeRsp dlgt c) := by
  unfold onAddbaResRx
  split
  · exact .refl c
  · split
    · exact .refl c
    · split
      · unfold onAddbaResPositive
        simp only
        split
        · exact ⟨rfl, rfl⟩
        · split
          · exact ⟨rfl, rfl⟩
          · split
            · exact ⟨rfl, rfl⟩
            · exact .put rfl rfl rfl
      · unfold onAddbaResNegative
        simp only
        split
        · exact (resetTxState_rxAside c).trans (.put rfl rfl rfl)
        · exact (resetTxState_rxAside c).trans ⟨rfl, rfl⟩

theorem checkAddbaResRxTimeout_rxAside (now : Nat) (c : Ctx) :
    RxAside c (checkAddbaResRxTimeout now c) := by
  unfold checkAddbaResRxTimeout
  split
  · split
    · exact (resetTxState_rxAside c).emit rfl
    · exact .refl c
  · split
    · split
      · exact .put rfl rfl rfl
      · exact .refl c
    · exact .refl c

theorem onTxMsgCfm_rxAside (cfm : Cfm) (c : Ctx) : RxAside c (onTxMsgCfm cfm c) := by
  unfold onTxMsgCfm
  split
  · rename_i req _
    have first : RxAside c (onTxCfm cfm req c) := by
      cases req with
      | addbaReq token win timeout => exact ⟨rfl, rfl⟩
      | openAggr packets bytes timeout size win =>
        simp only [onTxCfm, onOpenAggrCfm]
        split <;> exact .put rfl rfl rfl
      | closeAggr tsId =>
        simp only [onTxCfm, onCloseAggrCfm]
        split
        · exact (resetTxState_rxAside c).emit rfl
        · exact resetTxState_rxAside c
    exact first.trans ⟨rfl, rfl⟩
  · exact .refl c

theorem stopTid_stops (now : Nat) (c : Ctx) :
    (stopTid now c).tid.rxView = { c.tid.rxView.reset with manMsg := .detached } ∧
      mail (stopTid now c).out = mail c.out := by
  have txSide : RxAside c (if (resetTxState c).2 then
      ((resetTxState c).1.setTx fun tx => { tx with manMsg := .detached }).emit .stopAggregation
      else (resetTxState c).1.setTx fun tx => { tx with manMsg := .detached }) := by
    split
    · exact (resetTxState_rxAside c).trans (.put rfl rfl rfl)
    · exact (resetTxState_rxAside c).trans ⟨rfl, rfl⟩
  unfold stopTid
  simp only
  generalize (if (resetTxState c).2 then _ else _) = c' at txSide ⊢
  obtain ⟨view, outs⟩ := resetRxState_resets c'
  obtain ⟨view', outs'⟩ := reorderingStop_resets
    ((resetRxState c').setRx fun rx => { rx with manMsg := .detached })
  constructor
  · change { (reorderingStop _).tid.rxView with state := .none } = _
    rw [view', ← txSide.view]
    rfl
  · exact outs'.trans (outs.trans txSide.mail)

/-! ## Confirmations and statuses -/

/-- What the confirmation of the message does: it counts the first attempt. -/
def RxView.confirm (v : RxView) : RxRequest → RxView
  | .addbaRes _ =>
    { v with manMsg := .detached, resAttempt := if v.resAttempt = 0 then 1 else v.resAttempt }
  | .delbaReq true =>
    { v with
      manMsg := .detached
      txDelbaAttempt := if v.txDelbaAttempt = 0 then 1 else v.txDelbaAttempt }
  | .delbaReq false =>
    { v with
      manMsg := .detached
      delbaAttempt := if v.delbaAttempt = 0 then 1 else v.delbaAttempt }

/-- The confirmation of the message, if it is out. -/
def RxView.onCfm (v : RxView) : RxView :=
  match v.manMsg with
  | .sent req => v.confirm req
  | _ => v

@[simp] theorem RxView.onCfm_state (v : RxView) : v.onCfm.state = v.state := by
  unfold RxView.onCfm RxView.confirm
  split
  · split <;> rfl
  · rfl

@[simp] theorem RxView.onCfm_res (v : RxView) : v.onCfm.res = v.res := by
  unfold RxView.onCfm RxView.confirm
  split
  · split <;> rfl
  · rfl

theorem onRxMsgCfm_confirms (c : Ctx) :
    (onRxMsgCfm c).out = c.out ∧ (onRxMsgCfm c).tid.rxView = c.tid.rxView.onCfm := by
  unfold onRxMsgCfm RxView.onCfm
  change _ ∧ _ = match c.tid.rx.manMsg with
    | .sent req => c.tid.rxView.confirm req
    | _ => c.tid.rxView
  cases c.tid.rx.manMsg with
  | sent req =>
    cases req with
    | addbaRes res =>
      simp only [onRxCfm, onAddbaResTxCfm]
      have counts (n : Nat) (h : (if c.tid.rxView.resAttempt = 0 then 1
          else c.tid.rxView.resAttempt) = n) : c.tid.rxView.confirm (.addbaRes res) =
            { c.tid.rxView with manMsg := .detached, resAttempt := n } := h ▸ rfl
      split
      · rename_i zero
        exact ⟨rfl, (counts 1 (if_pos zero)).symm⟩
      · rename_i active
        exact ⟨rfl, (counts _ (if_neg active)).symm⟩
    | delbaReq originator =>
      simp only [onRxCfm, onDelbaReqTxCfm]
      cases originator with
      | true =>
        have counts (n : Nat) (h : (if c.tid.rxView.txDelbaAttempt = 0 then 1
            else c.tid.rxView.txDelbaAttempt) = n) : c.tid.rxView.confirm (.delbaReq true) =
              { c.tid.rxView with manMsg := .detached, txDelbaAttempt := n } := h ▸ rfl
        rw [if_pos rfl]
        split
        · rename_i zero
          exact ⟨rfl, (counts 1 (if_pos zero)).symm⟩
        · rename_i active
          exact ⟨rfl, (counts _ (if_neg active)).symm⟩
      | false =>
        have counts (n : Nat) (h : (if c.tid.rxView.delbaAttempt = 0 then 1
            else c.tid.rxView.delbaAttempt) = n) : c.tid.rxView.confirm (.delbaReq false) =
              { c.tid.rxView with manMsg := .detached, delbaAttempt := n } := h ▸ rfl
        rw [if_neg Bool.false_ne_true]
        split
        · rename_i zero
          exact ⟨rfl, (counts 1 (if_pos zero)).symm⟩
        · rename_i active
          exact ⟨rfl, (counts _ (if_neg active)).symm⟩
  | _ => exact ⟨rfl, rfl⟩

/-- The message a `BA_TX_STATUS` reports on, as it is named there. -/
def RxRequest.umi : RxRequest → BaTxMsg × Bool
  | .addbaRes _ => (.addbaResTxReq, false)
  | .delbaReq initiator => (.delbaReq, initiator)

/-- What the report on a message does, `ok` or not. `io` is what TXMM answers to a
retransmission. -/
inductive RxReport (io : Io) : RxRequest → Bool → RxView → RxView → List RxRequest → Prop where
  | accepted {v} (res) (waits : v.state = .addbaPositiveResSent) :
      RxReport io (.addbaRes res) true v { v with state := .reordInProcess, resAttempt := 0 } []
  | refused {v} (res) (waits : v.state = .addbaNegativeResSent) :
      RxReport io (.addbaRes res) true v v.reset []
  | resLate {v} (res ok)
      (ended : ¬v.state = .addbaPositiveResSent ∧ ¬v.state = .addbaNegativeResSent) :
      RxReport io (.addbaRes res) ok v { v with resAttempt := 0 } []
  | resLost {v} (res) (waits : v.state = .addbaPositiveResSent ∨ v.state = .addbaNegativeResSent)
      (last : rspMaxRetransmissions ≤ v.resAttempt) : RxReport io (.addbaRes res) false v v.reset []
  | resKept {v} (res) (waits : v.state = .addbaPositiveResSent ∨ v.state = .addbaNegativeResSent)
      (again : v.resAttempt < rspMaxRetransmissions) (busy : ¬v.manMsg.Ready io) :
      RxReport io (.addbaRes res) false v { v with resAttempt := v.resAttempt + 1 } []
  | resAgain {v} (res) (waits : v.state = .addbaPositiveResSent ∨ v.state = .addbaNegativeResSent)
      (again : v.resAttempt < rspMaxRetransmissions) (msg : v.manMsg = .detached) :
      RxReport io (.addbaRes res) false v
        { v with
          state := resState v.res
          manMsg := .sent (.addbaRes v.res)
          resAttempt := v.resAttempt + 1 }
        [.addbaRes v.res]
  | closed {v} (waits : v.state = .delbaReqSent ∨ v.state = .delbaReqSentWithoutReordering) :
      RxReport io (.delbaReq false) true v v.reset []
  | delbaLate {v} (ok)
      (ended : ¬v.state = .delbaReqSent ∧ ¬v.state = .delbaReqSentWithoutReordering) :
      RxReport io (.delbaReq false) ok v
        { v with delbaAttempt := if ok then v.delbaAttempt else 0 } []
  | delbaLost {v} (waits : v.state = .delbaReqSentWithoutReordering ∨
      v.state = .delbaReqSent ∧ delbaReqMaxRetransmissions ≤ v.delbaAttempt) :
      RxReport io (.delbaReq false) false v v.reset []
  | delbaKept {v} (waits : v.state = .delbaReqSent)
      (again : v.delbaAttempt < delbaReqMaxRetransmissions) (busy : ¬v.manMsg.Ready io) :
      RxReport io (.delbaReq false) false v { v with delbaAttempt := v.delbaAttempt + 1 } []
  | delbaAgain {v} (state) (waits : v.state = .delbaReqSent)
      (waits' : state = .delbaReqSent ∨ state = .delbaReqSentWithoutReordering)
      (again : v.delbaAttempt < delbaReqMaxRetransmissions) (msg : v.manMsg = .detached) :
      RxReport io (.delbaReq false) false v
        { v with
          state := state
          manMsg := .sent (.delbaReq false)
          delbaAttempt := v.delbaAttempt + 1 }
        [.delbaReq false]
  | txClosed (v) : RxReport io (.delbaReq true) true v v []
  | txLost (v) : RxReport io (.delbaReq true) false v { v with txDelbaAttempt := 0 } []
  | txKept (v) : RxReport io (.delbaReq true) false v
      { v with txDelbaAttempt := v.txDelbaAttempt + 1 } []
  | txAgain {v} (msg : v.manMsg = .detached) :
      RxReport io (.delbaReq true) false v
        { v with
          manMsg := .sent (.delbaReq true)
          txDelbaAttempt := v.txDelbaAttempt + 1 }
        [.delbaReq true]

theorem onAddbaResTxStatus_report (io : Io) (now status : Nat) (res : AddbaRes)
    (fresh : c.out = []) :
    RxReport io (.addbaRes res) (status = umiOk) c.tid.rxView
      (onAddbaResTxStatus io now status c).tid.rxView
      (mail (onAddbaResTxStatus io now status c).out) := by
  unfold onAddbaResTxStatus
  simp only
  have silent : mail c.out = [] := by rw [fresh]; rfl
  split
  · rename_i ok
    rw [decide_eq_true ok]
    split
    · rename_i waits
      change RxReport _ _ _ _ _ (mail c.out)
      rw [silent]
      exact .accepted res waits
    · rename_i positive
      split
      · rename_i waits
        obtain ⟨view, outs⟩ := resetRxState_resets c
        change RxReport _ _ _ _ { (resetRxState c).tid.rxView with resAttempt := 0 }
          (mail (resetRxState c).out)
        rw [view, outs, silent]
        exact .refused res waits
      · rename_i negative
        change RxReport _ _ _ _ _ (mail c.out)
        rw [silent]
        exact .resLate res true ⟨positive, negative⟩
  · rename_i failed
    rw [decide_eq_false failed]
    split
    · rename_i ended
      change RxReport _ _ _ _ _ (mail c.out)
      rw [silent]
      exact .resLate res false ended
    · rename_i waits
      have waits : c.tid.rxView.state = .addbaPositiveResSent ∨
          c.tid.rxView.state = .addbaNegativeResSent := by
        by_contra neither
        exact waits (not_or.1 neither)
      split
      · rename_i last
        obtain ⟨view, outs⟩ := reorderingStop_resets
          (Ctx.setRx (c.setRx fun rx => { rx with addbaResAttempt := 0 }) fun rx =>
            { rx with state := .none })
        rw [view, outs]
        change RxReport _ _ _ _ _ (mail c.out)
        rw [silent]
        exact .resLost res waits last
      · rename_i again
        have again := Nat.lt_of_not_le again
        obtain ⟨-, busy, aside⟩ | ⟨-, msg, posted, view⟩ := sendRxAddbaRes_sends io now
          (c.setRx fun rx => { rx with addbaResAttempt := rx.addbaResAttempt + 1 })
        · rw [aside.view, aside.mail]
          change RxReport _ _ _ _ _ (mail c.out)
          rw [silent]
          exact .resKept res waits again busy
        · rw [view, posted]
          change RxReport _ _ _ _ _ (mail c.out ++ _)
          rw [silent]
          exact .resAgain res waits again msg

theorem onRxDelbaReqTxStatus_report (io : Io) (status : Nat) (fresh : c.out = []) :
    RxReport io (.delbaReq false) (status = umiOk) c.tid.rxView
      (onRxDelbaReqTxStatus io status c).tid.rxView
      (mail (onRxDelbaReqTxStatus io status c).out) := by
  unfold onRxDelbaReqTxStatus
  have silent : mail c.out = [] := by rw [fresh]; rfl
  split
  · rename_i ok
    rw [decide_eq_true ok]
    split
    · rename_i waits
      obtain ⟨view, outs⟩ := reorderingStop_resets c
      rw [view, outs, silent]
      exact .closed (.inl waits)
    · rename_i reordering
      split
      · rename_i waits
        obtain ⟨view, outs⟩ := resetRxState_resets c
        rw [view, outs, silent]
        exact .closed (.inr waits)
      · rename_i without
        rw [silent]
        exact .delbaLate true ⟨reordering, without⟩
  · rename_i failed
    rw [decide_eq_false failed]
    split
    · rename_i waits
      obtain ⟨view, outs⟩ := resetRxState_resets c
      rw [view, outs, silent]
      exact .delbaLost (.inl waits)
    · rename_i without
      split
      · rename_i reordering
        change RxReport _ _ _ _ _ (mail c.out)
        rw [silent]
        exact .delbaLate false ⟨reordering, without⟩
      · rename_i waits
        have waits : c.tid.rxView.state = .delbaReqSent := not_not.1 waits
        split
        · rename_i last
          obtain ⟨view, outs⟩ := reorderingStop_resets
            (c.setRx fun rx => { rx with delbaReqAttempt := 0 })
          rw [view, outs]
          change RxReport _ _ _ _ _ (mail c.out)
          rw [silent]
          exact .delbaLost (.inr ⟨waits, last⟩)
        · rename_i again
          have again := Nat.lt_of_not_le again
          obtain ⟨busy, aside⟩ | ⟨⟨msg, -⟩, posted, ⟨⟨⟩, -⟩ | ⟨-, state, waits', view⟩⟩ :=
            sendDelbaReq_cases io false
              (c.setRx fun rx => { rx with delbaReqAttempt := rx.delbaReqAttempt + 1 })
          · rw [aside.view, aside.mail]
            change RxReport _ _ _ _ _ (mail c.out)
            rw [silent]
            exact .delbaKept waits again busy
          · rw [view, posted]
            change RxReport _ _ _ _ _ (mail c.out ++ _)
            rw [silent]
            exact .delbaAgain state waits waits' again msg

theorem onTxDelbaReqTxStatus_report (io : Io) (status : Nat) (fresh : c.out = []) :
    RxReport io (.delbaReq true) (status = umiOk) c.tid.rxView
      (onTxDelbaReqTxStatus io status c).tid.rxView
      (mail (onTxDelbaReqTxStatus io status c).out) := by
  unfold onTxDelbaReqTxStatus
  have silent : mail c.out = [] := by rw [fresh]; rfl
  split
  · rename_i ok
    rw [decide_eq_true ok, silent]
    exact .txClosed _
  · rename_i failed
    rw [decide_eq_false failed]
    split
    · change RxReport _ _ _ _ _ (mail c.out)
      rw [silent]
      exact .txLost _
    · split
      · change RxReport _ _ _ _ _ (mail c.out)
        rw [silent]
        exact .txLost _
      · obtain ⟨-, aside⟩ | ⟨⟨msg, -⟩, posted, ⟨-, view⟩ | ⟨⟨⟩, -⟩⟩ := sendDelbaReq_cases io true
          (c.setTx fun tx => { tx with delbaReqAttempt := tx.delbaReqAttempt + 1 })
        · rw [aside.view, aside.mail]
          change RxReport _ _ _ _ _ (mail c.out)
          rw [silent]
          exact .txKept _
        · rw [view, posted]
          change RxReport _ _ _ _ _ (mail c.out ++ _)
          rw [silent]
          exact .txAgain msg

theorem onBaTxStatus_report (io : Io) (now status : Nat) (req : RxRequest) (fresh : c.out = []) :
    RxReport io req (status = umiOk) c.tid.rxView
      (onBaTxStatus io now req.umi.1 req.umi.2 status c).tid.rxView
      (mail (onBaTxStatus io now req.umi.1 req.umi.2 status c).out) := by
  cases req with
  | addbaRes res => exact onAddbaResTxStatus_report io now status res fresh
  | delbaReq initiator =>
    cases initiator with
    | true => exact onTxDelbaReqTxStatus_report io status fresh
    | false => exact onRxDelbaReqTxStatus_report io status fresh

end

/-! ## Steps -/

section
variable {π ν : Type} [DecidableEq π] [DecidableEq ν]

/-- A step brings an ADDBA request for TID `k` that is not dropped. -/
def Op.answers (s : System π ν) (k : π × Fin nofTids) : Op π ν → Bool
  | .addbaReqRx p tid req _ _ =>
    decide (s.isActive p ∧ k.1 = p ∧ tid = k.2) && !dropsAddbaReq req.dlgt (s.tid k).rx
  | _ => false

/-- A step stops all the TIDs of the peer of TID `k`. -/
def Op.stops (k : π × Fin nofTids) : Op π ν → Bool
  | .peerStart p _ dot11nMode | .peerStop p _ dot11nMode => dot11nMode && decide (k.1 = p)
  | _ => false

/-- A step other than a report on a message of the RX side or its confirmation. -/
def Op.Call : Op π ν → Prop
  | .baTxStatus .. | .rxMsgCfm .. => False
  | _ => True

instance : (op : Op π ν) → Decidable op.Call
  | .baTxStatus .. | .rxMsgCfm .. => .isFalse id
  | .peerStart .. | .peerStop .. | .startAggrNegotiation .. | .resetPowerSave .. |
    .addbaReqRx .. | .addbaResRx .. | .delbaReqRx .. | .delbaReq .. | .delbaReqAll .. |
    .ackOnBar .. | .bar .. | .qosWithoutReord .. | .iterate .. | .txMsgCfm .. |
    .reconfigure .. => .isTrue trivial

omit [DecidableEq ν] in
/-- A step takes the RX side of a TID one transition further. -/
theorem Serves.rxMove {s : System π ν} {op : Op π ν} {k : π × Fin nofTids} {cfg : TidCfg}
    {t : Tid} {out : List Out} (serves : Serves cfg (s.tid k) (op.handlers s k) t out)
    (call : op.Call) (up : op.stops k = false) :
    RxMove (op.answers s k) (s.tid k).rxView t.rxView (mail out) := by
  have only {P : Prop} [Decidable P] {answers : Bool} {h : Ctx → Ctx}
      (served : Serves cfg (s.tid k) (if P then [h] else []) t out)
      (move : P → ∀ c : Ctx, c.out = [] → c.tid = s.tid k →
        RxMove answers c.tid.rxView (h c).tid.rxView (mail (h c).out)) :
      RxMove answers (s.tid k).rxView t.rxView (mail out) := by
    obtain ⟨rfl, rfl⟩ | ⟨holds, c, tid, fresh, -, rfl, rfl⟩ := served.guarded
    · exact .keep _
    · rw [← tid]
      exact move holds c fresh tid
  have aside {P : Prop} [Decidable P] {answers : Bool} {h : Ctx → Ctx}
      (served : Serves cfg (s.tid k) (if P then [h] else []) t out) (h : ∀ c, RxAside c (h c)) :
      RxMove answers (s.tid k).rxView t.rxView (mail out) :=
    only served fun _ c fresh _ => (h c).move fresh _
  cases op with
  | peerStart p now dot11nMode =>
    refine only serves ?_
    rintro ⟨rfl, rfl⟩
    simp [Op.stops] at up
  | peerStop p now dot11nMode =>
    refine only serves ?_
    rintro ⟨rfl, rfl⟩
    simp [Op.stops] at up
  | startAggrNegotiation p t₀ psMode io =>
    exact aside serves (startAggrNegotiation_rxAside io psMode)
  | resetPowerSave p t₀ => exact aside serves resetPowerSave_rxAside
  | addbaReqRx p tid req now io =>
    refine only serves ?_
    intro here c fresh same
    rw [Op.answers, decide_eq_true here, Bool.true_and, ← same]
    exact onAddbaReqRx_move io now req fresh
  | addbaResRx p tid resCode winSizeRsp dlgt now io =>
    exact aside serves (onAddbaResRx_rxAside io now resCode winSizeRsp dlgt)
  | delbaReqRx p tid initiator io =>
    refine only serves ?_
    intro _ c fresh _
    unfold onDelbaReqRx
    split
    · obtain ⟨view, outs⟩ := reorderingStop_resets c
      rw [view, outs, fresh]
      exact .reset _
    · exact (closeAggrReq_rxAside io c).move fresh _
  | delbaReq p t₀ closeIo delbaIo =>
    refine only serves ?_
    intro _ c fresh _
    exact delbaReq_rxMove closeIo delbaIo fresh _
  | delbaReqAll p closeIo delbaIo =>
    refine only serves ?_
    intro _ c fresh _
    exact delbaReq_rxMove _ _ fresh _
  | ackOnBar p tid closeIo delbaIo =>
    refine only serves ?_
    intro _ c fresh _
    exact delbaReq_rxMove closeIo delbaIo fresh _
  | bar p tid io =>
    refine only serves ?_
    intro _ c fresh _
    exact onBar_move io (.refl c) fresh _
  | qosWithoutReord p tid now io =>
    refine only serves ?_
    intro _ c fresh _
    unfold onQosWithoutReord
    split
    · have stamped : RxAside c (c.setRx fun rx => { rx with delbaOnRxTime := now }) := ⟨rfl, rfl⟩
      exact onBar_move io stamped fresh _
    · exact (RxAside.refl c).move fresh _
  | iterate p now lastRx io =>
    simp only [Op.handlers] at serves
    split at serves
    · obtain ⟨c, tid, fresh, -, rest, serves, rfl⟩ := serves
      obtain ⟨c', tid', fresh', -, rfl, rfl⟩ := serves.one
      have kept := checkAddbaResRxTimeout_rxAside now c'
      rw [mail_append, kept.mail, kept.view, fresh', tid', ← tid]
      exact (List.append_nil _).symm ▸ checkDelbaTimeout_rxMove _ now _ fresh _
    · obtain ⟨rfl, rfl⟩ := serves
      exact .keep _
  | txMsgCfm p t₀ cfm => exact aside serves (onTxMsgCfm_rxAside cfm)
  | reconfigure v cfg =>
    obtain ⟨rfl, rfl⟩ := serves
    exact .keep _
  | baTxStatus => exact call.elim
  | rxMsgCfm => exact call.elim

omit [DecidableEq ν] in
theorem Serves.rxStop {s : System π ν} {op : Op π ν} {k : π × Fin nofTids} {cfg : TidCfg}
    {t : Tid} {out : List Out} (serves : Serves cfg (s.tid k) (op.handlers s k) t out)
    (stops : op.stops k = true) :
    t.rxView = { (s.tid k).rxView.reset with manMsg := .detached } ∧ mail out = [] ∧
      op.answers s k = false := by
  have stopped {now : Nat} (served : Serves cfg (s.tid k) [stopTid now] t out) :
      t.rxView = { (s.tid k).rxView.reset with manMsg := .detached } ∧ mail out = [] := by
    obtain ⟨c, tid, fresh, -, rfl, rfl⟩ := served.one
    obtain ⟨view, outs⟩ := stopTid_stops now c
    rw [← tid, view, outs, fresh]
    exact ⟨rfl, rfl⟩
  cases op with
  | peerStart p now dot11nMode =>
    simp only [Op.stops, Bool.and_eq_true, decide_eq_true_eq] at stops
    rw [Op.handlers, if_pos stops] at serves
    obtain ⟨view, outs⟩ := stopped serves
    exact ⟨view, outs, rfl⟩
  | peerStop p now dot11nMode =>
    simp only [Op.stops, Bool.and_eq_true, decide_eq_true_eq] at stops
    rw [Op.handlers, if_pos stops] at serves
    obtain ⟨view, outs⟩ := stopped serves
    exact ⟨view, outs, rfl⟩
  | _ => cases stops

end

end Wave300.Addba
