import Mathlib.Data.List.Chain
import Wave300.Addba.Receiver
import Wave300.Addba.Transmitter

/-!
# Backing off from a peer that rejects

After so many negative responses in a row the owner of a TID is not called, so that it does
not ask again, until the timer finds that the interval of the TID has passed.
-/

namespace Wave300.Addba

open Wave300.Lib

variable {π ν : Type} [DecidableEq π] [DecidableEq ν]

/-- `on_ba_req_rejected` and `on_ba_req_unconfirmed` -/
def Out.calls (o : Out) : Bool := decide (o = .baReqRejected ∨ o = .baReqUnconfirmed)

/-- The response that a step brings to the request of TID `k`: whether it is positive, and
when it comes. -/
def Op.response (s : System π ν) (k : π × Fin nofTids) : Op π ν → Option (Bool × Nat)
  | .addbaResRx p tid resCode _ dlgt now _ =>
    if (s.isActive p ∧ k.1 = p ∧ tid = k.2) ∧ (s.tid k).tx.addbaReqDlgt = dlgt ∧
        ((s.tid k).tx.state = .addbaReqSent ∨ (s.tid k).tx.state = .addbaReqCfmd) then
      some (decide (resCode = resCodeSuccess), now)
    else none
  | _ => none

/-- When a step is taken, if it reads the clock for the TX side. -/
def Op.time : Op π ν → Option Nat
  | .addbaResRx _ _ _ _ _ now _ | .iterate _ now _ _ => some now
  | _ => none

/-- A step is a tick of the timer that checks TID `k`. -/
def Op.ticks (s : System π ν) (k : π × Fin nofTids) : Op π ν → Bool
  | .iterate p .. => decide (s.isActive p ∧ k.1 = p)
  | _ => false

/-- What is known of the responses for a TID from outside: the negative ones in a row, when
the last one allowed came if its owner has not been called since, whether a positive one ever
came, and the intervals of the back-offs that have ended since the last positive one. -/
structure Backoff where
  negatives : Nat
  since : Option Nat
  accepted : Bool
  intervals : List Nat
  deriving DecidableEq, Repr

def Backoff.respond (b : Backoff) (positive : Bool) (now : Nat) : Backoff :=
  if positive then { b with negatives := 0, accepted := true, intervals := [] }
  else if b.negatives + 1 < maxRejects then { b with negatives := b.negatives + 1 }
  else { b with negatives := 0, since := some now }

/-- The peers, with what is known of the responses for each TID. -/
structure Rejecting (π ν : Type) where
  sys : System π ν
  backoff : π × Fin nofTids → Backoff

/-- The owner of TID `k` is called in a step. -/
def System.Calls (s : System π ν) (op : Op π ν) (k : π × Fin nofTids) : Prop :=
  (s.newOut (Addba.step s op) k).any Out.calls

instance (s : System π ν) (op : Op π ν) (k : π × Fin nofTids) : Decidable (s.Calls op k) :=
  inferInstanceAs (Decidable (_ = true))

/-- A back-off of TID `k` ends in a step. -/
def System.Relents (s : System π ν) (op : Op π ν) (k : π × Fin nofTids) : Prop :=
  (s.tid k).tx.addbaReqRejectState ∧ ¬((Addba.step s op).tid k).tx.addbaReqRejectState

instance (s : System π ν) (op : Op π ν) (k : π × Fin nofTids) : Decidable (s.Relents op k) :=
  inferInstanceAs (Decidable (_ ∧ _))

def Rejecting.step (w : Rejecting π ν) (op : Op π ν) : Rejecting π ν where
  sys := Addba.step w.sys op
  backoff := fun k =>
    let b := w.backoff k
    let b := if op.stops k then { b with negatives := 0 } else b
    let b := if w.sys.Calls op k then { b with since := none } else b
    let b := if w.sys.Relents op k then
      { b with intervals := b.intervals ++ [(w.sys.tid k).tx.addbaReqRejectInterval] } else b
    match op.response w.sys k with
    | some (positive, now) => b.respond positive now
    | none => b

def Rejecting.init (home : π → ν) (cfg : ν → Fin nofTids → TidCfg) (maxAggr maxReord : Nat) :
    Rejecting π ν where
  sys := .init home cfg maxAggr maxReord
  backoff := fun _ => ⟨0, none, false, []⟩

/-- The owner of TID `k` is not called for `rejectIntervalMin` after time `t`, whatever comes
next. The clock does not run backwards. -/
def System.HeldBack (s : System π ν) (k : π × Fin nofTids) (t : Nat) : Prop :=
  ∀ op, s.Calls op k → ∃ now, op.time = some now ∧ (t ≤ now → t + rejectIntervalMin ≤ now)

/-! ## Handlers -/

/-- What the back-off of a TID depends on. -/
structure RejectView where
  rejects : Nat
  rejecting : Bool
  time : Nat
  interval : Nat

def Tx.rejectView (tx : Tx) : RejectView :=
  ⟨tx.addbaResRejects, tx.addbaReqRejectState, tx.addbaReqRejectTime, tx.addbaReqRejectInterval⟩

/-- A handler that has nothing to do with the back-off. -/
structure RejectAside (c c' : Ctx) : Prop where
  view : c'.tid.tx.rejectView = c.tid.tx.rejectView
  calls : c'.out.any Out.calls = c.out.any Out.calls

namespace RejectAside
variable {c c' c'' : Ctx}

theorem refl (c : Ctx) : RejectAside c c := ⟨rfl, rfl⟩

theorem trans (h : RejectAside c c') (h' : RejectAside c' c'') : RejectAside c c'' :=
  ⟨h'.view.trans h.view, h'.calls.trans h.calls⟩

theorem setRx (f : Rx → Rx) : RejectAside c (c.setRx f) := ⟨rfl, rfl⟩

theorem emit {o : Out} (quiet : o.calls = false) : RejectAside c (c.emit o) := by
  refine ⟨rfl, ?_⟩
  rw [Ctx.emit, List.any_append, List.any_cons, quiet, List.any_nil, Bool.or_false, Bool.or_false]

theorem then_emit {o : Out} (h : RejectAside c c') (quiet : o.calls = false) :
    RejectAside c (c'.emit o) := h.trans (emit quiet)

theorem then_setRx (f : Rx → Rx) (h : RejectAside c c') : RejectAside c (c'.setRx f) :=
  h.trans (setRx f)

end RejectAside

section
variable {c : Ctx}

theorem resetTxState_rejects (c : Ctx) : RejectAside c (resetTxState c).1 := by
  unfold resetTxState
  simp only
  split
  · exact .refl c
  · split
    · exact ⟨rfl, rfl⟩
    · have unref : RejectAside c { c with aggrReflim := c.aggrReflim.unref } := ⟨rfl, rfl⟩
      have returned : RejectAside c c.unrefAggr := unref.then_emit rfl
      exact returned.trans ⟨rfl, rfl⟩

theorem reorderingStop_rejects (c : Ctx) : RejectAside c (reorderingStop c) := by
  have reset : RejectAside c (resetRxState c) := (RejectAside.setRx _).then_emit rfl
  unfold reorderingStop
  simp only
  split
  · exact ((reset.then_setRx _).then_emit rfl).trans ⟨rfl, rfl⟩
  · exact reset

theorem sendDelbaReq_rejects (io : Io) (originator : Bool) (c : Ctx) :
    RejectAside c (sendDelbaReq io originator c) := by
  unfold sendDelbaReq
  split
  · exact .refl c
  · simp only
    split
    · exact .setRx _
    · rename_i m _
      have sent : RejectAside c ((c.setRx fun rx => { rx with manMsg := m }).emit
        (.sendRx (.delbaReq originator))) := (RejectAside.setRx _).then_emit rfl
      split
      · exact sent
      · split <;> exact sent.then_setRx _

theorem sendRxAddbaRes_rejects (io : Io) (now : Nat) (c : Ctx) :
    RejectAside c (sendRxAddbaRes io now c).1 := by
  unfold sendRxAddbaRes
  split
  · exact .refl c
  · simp only
    split
    · exact ⟨rfl, rfl⟩
    · rename_i m _
      have sent : RejectAside c ((c.setRx fun rx => { rx with manMsg := m }).emit
        (.sendRx (.addbaRes c.tid.rx.addbaRes))) := (RejectAside.setRx _).then_emit rfl
      unfold onAddbaResSent
      split <;> exact sent.trans ⟨rfl, rfl⟩

theorem answerAddbaReq_rejects (req : AddbaReq) (c : Ctx) :
    RejectAside c (answerAddbaReq req c) := by
  unfold answerAddbaReq
  simp only
  split
  · exact .setRx _
  · split
    · exact .setRx _
    · split
      · exact .setRx _
      · split
        · exact .setRx _
        · rename_i c' started
          have first : RejectAside c c' := by
            unfold reorderingStart at started
            split at started
            · cases started
            · simp only at started
              split at started <;> cases started
              · exact ⟨rfl, rfl⟩
              · rename_i r _ _
                have limited : RejectAside c { c with reordReflim := r } := ⟨rfl, rfl⟩
                exact (limited.then_emit rfl).then_setRx _
          exact first.then_setRx _

theorem onAddbaReqRx_rejects (io : Io) (now : Nat) (req : AddbaReq) (c : Ctx) :
    RejectAside c (onAddbaReqRx io now req c) := by
  unfold onAddbaReqRx
  split
  · exact .refl c
  · have sent := ((reorderingStop_rejects c).trans (answerAddbaReq_rejects req _)).trans
      (sendRxAddbaRes_rejects io now _)
    simp only
    split
    · exact sent.trans (reorderingStop_rejects _)
    · split
      · exact sent.then_setRx _
      · exact sent

theorem onBar_rejects (io : Io) (c : Ctx) : RejectAside c (onBar io c) := by
  unfold onBar
  split
  · exact sendDelbaReq_rejects io false c
  · exact .refl c

theorem onQosWithoutReord_rejects (io : Io) (now : Nat) (c : Ctx) :
    RejectAside c (onQosWithoutReord io now c) := by
  unfold onQosWithoutReord
  split
  · exact (RejectAside.setRx _).trans (onBar_rejects io _)
  · exact .refl c

theorem checkDelbaTimeout_rejects (io : Io) (now lastRx : Nat) (c : Ctx) :
    RejectAside c (checkDelbaTimeout io now lastRx c) := by
  unfold checkDelbaTimeout
  split
  · exact sendDelbaReq_rejects io false c
  · exact .refl c

theorem onRxMsgCfm_rejects (c : Ctx) : RejectAside c (onRxMsgCfm c) := by
  unfold onRxMsgCfm
  split
  · rename_i req _
    refine RejectAside.then_setRx _ ?_
    cases req with
    | delbaReq originator =>
      simp only [onRxCfm, onDelbaReqTxCfm]
      split <;> split
      · exact ⟨rfl, rfl⟩
      · exact .refl c
      · exact .setRx _
      · exact .refl c
    | addbaRes res =>
      simp only [onRxCfm, onAddbaResTxCfm]
      split
      · exact .setRx _
      · exact .refl c
  · exact .refl c

theorem onBaTxStatus_rejects (io : Io) (now : Nat) (msg : BaTxMsg) (initiator : Bool)
    (status : Nat) (c : Ctx) : RejectAside c (onBaTxStatus io now msg initiator status c) := by
  have counted (f : Nat → Nat) :
      RejectAside c (c.setTx fun tx => { tx with delbaReqAttempt := f tx.delbaReqAttempt }) :=
    ⟨rfl, rfl⟩
  cases msg with
  | delbaReq =>
    cases initiator with
    | true =>
      simp only [onBaTxStatus, if_true, onTxDelbaReqTxStatus]
      split
      · exact .refl c
      · split
        · exact counted fun _ => 0
        · split
          · exact counted fun _ => 0
          · exact (counted fun n => n + 1).trans (sendDelbaReq_rejects io true _)
    | false =>
      simp only [onBaTxStatus, Bool.false_eq_true, if_false, onRxDelbaReqTxStatus]
      have reset : RejectAside c (resetRxState c) := (RejectAside.setRx _).then_emit rfl
      split
      · split
        · exact reorderingStop_rejects c
        · split
          · exact reset
          · exact .refl c
      · split
        · exact reset
        · split
          · exact .setRx _
          · split
            · exact (RejectAside.setRx _).trans (reorderingStop_rejects _)
            · exact (RejectAside.setRx _).trans (sendDelbaReq_rejects io false _)
  | addbaResTxReq =>
    simp only [onBaTxStatus, onAddbaResTxStatus]
    have reset : RejectAside c (resetRxState c) := (RejectAside.setRx _).then_emit rfl
    split
    · split
      · exact (RejectAside.setRx _).then_setRx _
      · split
        · exact reset.then_setRx _
        · exact .setRx _
    · split
      · exact .setRx _
      · split
        · exact ((RejectAside.setRx _).then_setRx _).trans (reorderingStop_rejects _)
        · exact (RejectAside.setRx _).trans (sendRxAddbaRes_rejects io now _)
  | other => exact .refl c

theorem closeAggrReq_rejects (io : Io) (c : Ctx) : RejectAside c (closeAggrReq io c) := by
  unfold closeAggrReq
  split
  · exact .refl c
  · split
    · exact .refl c
    · split
      · exact .refl c
      · simp only
        split
        · exact ⟨rfl, rfl⟩
        · rename_i m _
          have set : RejectAside c (c.setTx fun tx =>
            { tx with manMsg := m, state := .delAggrReqSent }) := ⟨rfl, rfl⟩
          exact set.then_emit rfl

theorem delbaReq_rejects (closeIo delbaIo : Io) (c : Ctx) :
    RejectAside c (delbaReq closeIo delbaIo c) := by
  unfold delbaReq
  split
  · exact .refl c
  · exact (closeAggrReq_rejects closeIo c).trans (sendDelbaReq_rejects delbaIo true _)

theorem onDelbaReqRx_rejects (io : Io) (initiator : Bool) (c : Ctx) :
    RejectAside c (onDelbaReqRx io initiator c) := by
  unfold onDelbaReqRx
  split
  · exact reorderingStop_rejects c
  · exact closeAggrReq_rejects io c

theorem resetPowerSave_rejects (c : Ctx) : RejectAside c (resetPowerSave c) := by
  unfold resetPowerSave
  split
  · exact ⟨rfl, rfl⟩
  · exact .refl c

theorem onAddbaReqSent_rejects (c : Ctx) : RejectAside c (onAddbaReqSent c) := ⟨rfl, rfl⟩

theorem sendAddbaReq_rejects (io : Io) (c : Ctx) : RejectAside c (sendAddbaReq io c).1 := by
  unfold sendAddbaReq
  split
  · exact .refl c
  · simp only
    split
    · exact ⟨rfl, rfl⟩
    · rename_i m _
      have set : RejectAside c ((c.setTx fun tx => { tx with winSizeReq := fillAddbaReq c }).setTx
        fun tx => { tx with manMsg := m }) := ⟨rfl, rfl⟩
      exact (set.then_emit rfl).trans (onAddbaReqSent_rejects _)

theorem startAggrNegotiation_rejects (io : Io) (psMode : Bool) (c : Ctx) :
    RejectAside c (startAggrNegotiation io psMode c) := by
  unfold startAggrNegotiation txAddbaReq
  split
  · split
    · exact .refl c
    · split
      · exact ⟨rfl, rfl⟩
      · split
        · exact .refl c
        · rename_i r _
          have limited : RejectAside c { c with aggrReflim := r } := ⟨rfl, rfl⟩
          have referred : RejectAside c ({ c with aggrReflim := r }.emit .aggrRef) :=
            limited.then_emit rfl
          have sent := referred.trans (sendAddbaReq_rejects io _)
          simp only
          split
          · exact sent
          · have unref (c : Ctx) : RejectAside c { c with aggrReflim := c.aggrReflim.unref } :=
              ⟨rfl, rfl⟩
            exact (sent.trans (unref _)).then_emit rfl
  · exact .refl c

theorem onTxMsgCfm_rejects (cfm : Cfm) (c : Ctx) : RejectAside c (onTxMsgCfm cfm c) := by
  unfold onTxMsgCfm
  split
  · rename_i req _
    have first : RejectAside c (onTxCfm cfm req c) := by
      cases req with
      | addbaReq token win timeout => exact ⟨rfl, rfl⟩
      | openAggr packets bytes timeout size win =>
        have granted : RejectAside c (if cfm.confirmed ∧ cfm.status = umiOk then
            c.setTx fun tx => { tx with tsId := cfm.tsId } else c) := by
          split
          · exact ⟨rfl, rfl⟩
          · exact .refl c
        exact RejectAside.then_emit (o := .startAggregation) (granted.trans ⟨rfl, rfl⟩) rfl
      | closeAggr tsId =>
        simp only [onTxCfm, onCloseAggrCfm]
        split
        · exact (resetTxState_rejects c).then_emit rfl
        · exact resetTxState_rejects c
    exact first.trans ⟨rfl, rfl⟩
  · exact .refl c

/-- A TID that is stopped starts to count anew. -/
theorem stopTid_rejects (now : Nat) (c : Ctx) :
    (stopTid now c).tid.tx.rejectView = { c.tid.tx.rejectView with rejects := 0 } ∧
      (stopTid now c).out.any Out.calls = c.out.any Out.calls := by
  have txSide : RejectAside c (if (resetTxState c).2 then
      ((resetTxState c).1.setTx fun tx => { tx with manMsg := .detached }).emit .stopAggregation
      else (resetTxState c).1.setTx fun tx => { tx with manMsg := .detached }) := by
    have detached : RejectAside c ((resetTxState c).1.setTx fun tx =>
      { tx with manMsg := .detached }) := (resetTxState_rejects c).trans ⟨rfl, rfl⟩
    split
    · exact detached.then_emit rfl
    · exact detached
  have rxSide (c' : Ctx) : RejectAside c' (reorderingStop ((resetRxState c').setRx fun rx =>
      { rx with manMsg := .detached })) := by
    have reset : RejectAside c' (resetRxState c') := (RejectAside.setRx _).then_emit rfl
    exact (reset.then_setRx _).trans (reorderingStop_rejects _)
  have both := txSide.trans (rxSide _)
  constructor
  · exact congrArg (fun v : RejectView => { v with rejects := 0 }) both.view
  · exact both.calls

/-- The back-off after a tick of the timer, and whether the owner is called. -/
inductive RejectTick (now : Nat) (state : TxState) (v : RejectView) : RejectView → Bool → Prop where
  | keep (held : state = .none → v.rejecting = true → msTimeDiff now v.time < v.interval) :
      RejectTick now state v v false
  | unanswered (waits : state = .addbaReqCfmd) : RejectTick now state v v true
  | relented (free : state = .none) (rejecting : v.rejecting = true)
      (passed : v.interval ≤ msTimeDiff now v.time) :
      RejectTick now state v
        { v with
          rejecting := false
          interval := min (v.interval * 2 % 2 ^ 32) rejectIntervalMax }
        true

theorem any_calls_emit (c : Ctx) (o : Out) :
    (c.emit o).out.any Out.calls = (c.out.any Out.calls || o.calls) := by
  rw [Ctx.emit, List.any_append, List.any_cons, List.any_nil, Bool.or_false]

theorem checkAddbaResRxTimeout_rejects (now : Nat) (fresh : c.out = []) :
    RejectTick now c.tid.tx.state c.tid.tx.rejectView
      (checkAddbaResRxTimeout now c).tid.tx.rejectView
      ((checkAddbaResRxTimeout now c).out.any Out.calls) := by
  have silent : c.out.any Out.calls = false := by rw [fresh]; rfl
  have capped (n : Nat) :
      (if rejectIntervalMax < n then rejectIntervalMax else n) = min n rejectIntervalMax := by
    split <;> omega
  unfold checkAddbaResRxTimeout
  split
  · rename_i waits
    have held (free : c.tid.tx.state = .none) : False := nomatch waits.symm.trans free
    split
    · have reset := resetTxState_rejects c
      rw [any_calls_emit, reset.calls, silent]
      change RejectTick now _ _ (resetTxState c).1.tid.tx.rejectView true
      rw [reset.view]
      exact .unanswered waits
    · rw [silent]
      exact .keep fun free => (held free).elim
  · rename_i answered
    split
    · rename_i rejecting
      split
      · rename_i passed
        have relented : RejectTick now c.tid.tx.state c.tid.tx.rejectView _ true :=
          .relented rejecting.1 rejecting.2 passed
        rw [any_calls_emit]
        simp only [Ctx.emit, Ctx.setTx, silent, Tx.rejectView] at relented ⊢
        rw [capped]
        exact relented
      · rename_i early
        rw [silent]
        exact .keep fun _ _ => Nat.lt_of_not_le early
    · rename_i calm
      rw [silent]
      exact .keep fun free rejecting => absurd ⟨free, rejecting⟩ calm

/-- The back-off after a response, and whether the owner is called. -/
inductive RejectAnswer (now : Nat) (v : RejectView) : Bool → RejectView → Bool → Prop where
  | positive : RejectAnswer now v true { v with rejects := 0, interval := rejectIntervalMin } false
  | negative (few : v.rejects + 1 < maxRejects) :
      RejectAnswer now v false { v with rejects := v.rejects + 1 } true
  | givenUp (many : ¬v.rejects + 1 < maxRejects) :
      RejectAnswer now v false { v with rejects := 0, rejecting := true, time := now } false

theorem onAddbaResPositive_rejects (io : Io) (winSizeRsp now : Nat) (fresh : c.out = []) :
    RejectAnswer now c.tid.tx.rejectView true (onAddbaResPositive io winSizeRsp c).tid.tx.rejectView
      ((onAddbaResPositive io winSizeRsp c).out.any Out.calls) := by
  have silent : c.out.any Out.calls = false := by rw [fresh]; rfl
  have answered : RejectAnswer now c.tid.tx.rejectView true _ false := .positive
  unfold onAddbaResPositive
  simp only
  split
  · change RejectAnswer _ _ _ _ (c.out.any Out.calls)
    rw [silent]
    exact answered
  · split
    · change RejectAnswer _ _ _ _ (c.out.any Out.calls)
      rw [silent]
      exact answered
    · split
      · change RejectAnswer _ _ _ _ (c.out.any Out.calls)
        rw [silent]
        exact answered
      · rw [any_calls_emit]
        change RejectAnswer _ _ _ _ (c.out.any Out.calls || false)
        rw [silent]
        exact answered

theorem onAddbaResNegative_rejects (now : Nat) (fresh : c.out = []) :
    RejectAnswer now c.tid.tx.rejectView false (onAddbaResNegative now c).tid.tx.rejectView
      ((onAddbaResNegative now c).out.any Out.calls) := by
  have silent : c.out.any Out.calls = false := by rw [fresh]; rfl
  have reset := resetTxState_rejects c
  have rejects : (resetTxState c).1.tid.tx.addbaResRejects = c.tid.tx.addbaResRejects :=
    congrArg RejectView.rejects reset.view
  unfold onAddbaResNegative
  simp only
  split
  · rename_i few
    rw [rejects] at few
    have answered : RejectAnswer now c.tid.tx.rejectView false _ true := .negative few
    rw [any_calls_emit]
    rw [← reset.view] at answered
    change RejectAnswer now _ false _ ((resetTxState c).1.out.any Out.calls || true)
    rw [Bool.or_true]
    rw [← reset.view]
    exact answered
  · rename_i many
    rw [rejects] at many
    have answered : RejectAnswer now c.tid.tx.rejectView false _ false := .givenUp many
    change RejectAnswer now _ false _ ((resetTxState c).1.out.any Out.calls)
    rw [reset.calls, silent]
    rw [← reset.view] at answered ⊢
    exact answered

/-- A response to the request that is out. -/
theorem onAddbaResRx_rejects (io : Io) (now resCode winSizeRsp dlgt : Nat) (fresh : c.out = [])
    (token : c.tid.tx.addbaReqDlgt = dlgt)
    (waits : c.tid.tx.state = .addbaReqSent ∨ c.tid.tx.state = .addbaReqCfmd) :
    RejectAnswer now c.tid.tx.rejectView (decide (resCode = resCodeSuccess))
      (onAddbaResRx io now resCode winSizeRsp dlgt c).tid.tx.rejectView
      ((onAddbaResRx io now resCode winSizeRsp dlgt c).out.any Out.calls) := by
  have waiting : ¬(c.tid.tx.state ≠ .addbaReqSent ∧ c.tid.tx.state ≠ .addbaReqCfmd) := by
    rintro ⟨unsent, uncfmd⟩
    exact waits.elim unsent uncfmd
  unfold onAddbaResRx
  rw [if_neg (not_not.2 token), if_neg waiting]
  by_cases success : resCode = resCodeSuccess
  · rw [if_pos success, decide_eq_true success]
    exact onAddbaResPositive_rejects io winSizeRsp now fresh
  · rw [if_neg success, decide_eq_false success]
    exact onAddbaResNegative_rejects now fresh

theorem onAddbaResRx_ignores (io : Io) (now resCode winSizeRsp dlgt : Nat)
    (stray : ¬(c.tid.tx.addbaReqDlgt = dlgt ∧
      (c.tid.tx.state = .addbaReqSent ∨ c.tid.tx.state = .addbaReqCfmd))) :
    onAddbaResRx io now resCode winSizeRsp dlgt c = c := by
  unfold onAddbaResRx
  split
  · rfl
  · rename_i token
    split
    · rfl
    · rename_i waiting
      refine absurd ⟨not_not.1 token, ?_⟩ stray
      by_contra neither
      exact waiting (not_or.1 neither)

end

/-! ## Steps -/

section
variable {s : System π ν} {op : Op π ν} {k : π × Fin nofTids}

/-- What a step does to the back-off of a TID, and whether its owner is called. -/
inductive RejectStep (s : System π ν) (op : Op π ν) (k : π × Fin nofTids) :
    RejectView → Bool → Prop where
  | aside (unheard : op.response s k = none) (up : op.stops k = false)
      (idle : op.ticks s k = false) :
      RejectStep s op k (s.tid k).tx.rejectView false
  | stop (unheard : op.response s k = none) (stops : op.stops k = true) :
      RejectStep s op k { (s.tid k).tx.rejectView with rejects := 0 } false
  | answer {positive now v' called} (heard : op.response s k = some (positive, now))
      (up : op.stops k = false) (time : op.time = some now)
      (waits : (s.tid k).tx.state = .addbaReqSent ∨ (s.tid k).tx.state = .addbaReqCfmd)
      (answered : RejectAnswer now (s.tid k).tx.rejectView positive v' called) :
      RejectStep s op k v' called
  | tick {now v' called} (unheard : op.response s k = none) (up : op.stops k = false)
      (time : op.time = some now)
      (ticked : RejectTick now (s.tid k).tx.state (s.tid k).tx.rejectView v' called) :
      RejectStep s op k v' called

omit [DecidableEq ν] in
theorem Serves.rejects {cfg : TidCfg} {t : Tid} {out : List Out}
    (serves : Serves cfg (s.tid k) (op.handlers s k) t out) :
    RejectStep s op k t.tx.rejectView (out.any Out.calls) := by
  have only {P : Prop} [Decidable P] {h : Ctx → Ctx} (unheard : op.response s k = none)
      (up : op.stops k = false) (idle : op.ticks s k = false)
      (served : Serves cfg (s.tid k) (if P then [h] else []) t out)
      (aside : ∀ c, RejectAside c (h c)) :
      RejectStep s op k t.tx.rejectView (out.any Out.calls) := by
    obtain ⟨rfl, rfl⟩ | ⟨-, c, tid, fresh, -, rfl, rfl⟩ := served.guarded
    · exact .aside unheard up idle
    · rw [(aside c).view, (aside c).calls, fresh, tid]
      exact .aside unheard up idle
  have stopped {dot11nMode : Bool} {p : π} {now : Nat} (unheard : op.response s k = none)
      (idle : op.ticks s k = false)
      (stops : op.stops k = (dot11nMode && decide (k.1 = p)))
      (served : Serves cfg (s.tid k) (if dot11nMode ∧ k.1 = p then [stopTid now] else []) t out) :
      RejectStep s op k t.tx.rejectView (out.any Out.calls) := by
    by_cases here : dot11nMode ∧ k.1 = p
    · rw [if_pos here] at served
      obtain ⟨c, tid, fresh, -, rfl, rfl⟩ := served.one
      obtain ⟨view, calls⟩ := stopTid_rejects now c
      rw [view, calls, fresh, tid]
      apply RejectStep.stop unheard
      rw [stops, here.1, decide_eq_true here.2]
      rfl
    · rw [if_neg here] at served
      obtain ⟨rfl, rfl⟩ := served
      refine .aside unheard ?_ idle
      rw [stops]
      simpa using here
  cases op with
  | peerStart p now dot11nMode => exact stopped rfl rfl rfl serves
  | peerStop p now dot11nMode => exact stopped rfl rfl rfl serves
  | startAggrNegotiation p t psMode io =>
    exact only rfl rfl rfl serves (startAggrNegotiation_rejects io psMode)
  | resetPowerSave p t => exact only rfl rfl rfl serves resetPowerSave_rejects
  | addbaReqRx p tid req now io => exact only rfl rfl rfl serves (onAddbaReqRx_rejects io now req)
  | addbaResRx p tid resCode winSizeRsp dlgt now io =>
    simp only [Op.handlers, Op.handlers.indicated] at serves
    by_cases heard : (s.isActive p ∧ k.1 = p ∧ tid = k.2) ∧ (s.tid k).tx.addbaReqDlgt = dlgt ∧
        ((s.tid k).tx.state = .addbaReqSent ∨ (s.tid k).tx.state = .addbaReqCfmd)
    · obtain ⟨here, token, waits⟩ := heard
      rw [if_pos here] at serves
      obtain ⟨c, same, fresh, -, rfl, rfl⟩ := serves.one
      have answered := onAddbaResRx_rejects io now resCode winSizeRsp dlgt fresh (by rwa [same])
        (by rwa [same])
      rw [same] at answered
      exact .answer (if_pos ⟨here, token, waits⟩) rfl rfl waits answered
    · have unheard : (Op.addbaResRx p tid resCode winSizeRsp dlgt now io).response s k = none :=
        if_neg heard
      obtain ⟨rfl, rfl⟩ | ⟨here, c, same, fresh, -, rfl, rfl⟩ := serves.guarded
      · exact .aside unheard rfl rfl
      · have ignored : onAddbaResRx io now resCode winSizeRsp dlgt c = c := by
          apply onAddbaResRx_ignores
          rw [same]
          exact fun answers => heard ⟨here, answers⟩
        rw [ignored, fresh, same]
        exact .aside unheard rfl rfl
  | delbaReqRx p tid initiator io =>
    exact only rfl rfl rfl serves (onDelbaReqRx_rejects io initiator)
  | delbaReq p t closeIo delbaIo => exact only rfl rfl rfl serves (delbaReq_rejects closeIo delbaIo)
  | delbaReqAll p closeIo delbaIo => exact only rfl rfl rfl serves (delbaReq_rejects _ _)
  | ackOnBar p tid closeIo delbaIo =>
    exact only rfl rfl rfl serves (delbaReq_rejects closeIo delbaIo)
  | bar p tid io => exact only rfl rfl rfl serves (onBar_rejects io)
  | qosWithoutReord p tid now io => exact only rfl rfl rfl serves (onQosWithoutReord_rejects io now)
  | baTxStatus p tid msg initiator status now io =>
    exact only rfl rfl rfl serves (onBaTxStatus_rejects io now msg initiator status)
  | iterate p now lastRx io =>
    simp only [Op.handlers] at serves
    split at serves
    · obtain ⟨c, tid, fresh, -, rest, serves, rfl⟩ := serves
      obtain ⟨c', tid', fresh', -, rfl, rfl⟩ := serves.one
      have first := checkDelbaTimeout_rejects (io k.2) now (lastRx k.2) c
      have state : (checkDelbaTimeout (io k.2) now (lastRx k.2) c).tid.tx.state = c.tid.tx.state :=
        congrArg TxView.state (checkDelbaTimeout_aside (io k.2) now (lastRx k.2) c).view
      have ticked := checkAddbaResRxTimeout_rejects now fresh'
      rw [tid', first.view, state, tid] at ticked
      rw [List.any_append, first.calls, fresh]
      exact .tick rfl rfl rfl ticked
    · rename_i elsewhere
      obtain ⟨rfl, rfl⟩ := serves
      exact .aside rfl rfl (decide_eq_false elsewhere)
  | txMsgCfm p t cfm => exact only rfl rfl rfl serves (onTxMsgCfm_rejects cfm)
  | rxMsgCfm p t => exact only rfl rfl rfl serves onRxMsgCfm_rejects
  | reconfigure v cfg =>
    obtain ⟨rfl, rfl⟩ := serves
    exact .aside rfl rfl rfl

theorem step_rejects (s : System π ν) (op : Op π ν) (k : π × Fin nofTids) :
    RejectStep s op k ((Addba.step s op).tid k).tx.rejectView (decide (s.Calls op k)) := by
  obtain ⟨out, serves, logged⟩ := step_at s op k
  have calls : decide (s.Calls op k) = out.any Out.calls := by
    simp only [System.Calls, System.newOut, logged, List.drop_left, Bool.decide_eq_true]
  rw [calls]
  exact serves.rejects

end

/-! ## Runs -/

/-- The interval `y` comes after `x`. -/
def Doubled (x y : Nat) : Prop := x ≤ y ∧ y = min (2 * x) rejectIntervalMax

/-- What is known of the responses is what the TID counts. -/
structure Tracks (b : Backoff) (v : RejectView) : Prop where
  count : b.negatives = v.rejects
  held : ∀ t, b.since = some t → b.negatives = 0 ∧ v.rejecting = true ∧ v.time = t
  least : if b.accepted then rejectIntervalMin ≤ v.interval else v.interval = 0
  most : ∀ x ∈ b.intervals ++ [v.interval], x ≤ rejectIntervalMax
  doubled : (b.intervals ++ [v.interval]).IsChain Doubled

section
variable {b : Backoff} {v v' : RejectView}

theorem Tracks.stop (h : Tracks b v) :
    Tracks { b with negatives := 0 } { v with rejects := 0 } where
  count := rfl
  held := fun t since => ⟨rfl, (h.held t since).2⟩
  least := h.least
  most := h.most
  doubled := h.doubled

theorem Tracks.called (h : Tracks b v) : Tracks { b with since := none } v :=
  ⟨h.count, nofun, h.least, h.most, h.doubled⟩

theorem Tracks.relent (h : Tracks b v) :
    Tracks { b with since := none, intervals := b.intervals ++ [v.interval] }
      { v with
        rejecting := false
        interval := min (v.interval * 2 % 2 ^ 32) rejectIntervalMax } := by
  have most := h.most v.interval (List.mem_append_right _ (List.mem_singleton_self _))
  have next : v.interval * 2 % 2 ^ 32 = 2 * v.interval := by
    unfold rejectIntervalMax at most
    omega
  rw [next]
  constructor
  case count => exact h.count
  case held => exact nofun
  case least =>
    have least := h.least
    by_cases accepted : b.accepted
    · rw [if_pos accepted] at least ⊢
      unfold rejectIntervalMin at least ⊢
      change 10000 ≤ min (2 * v.interval) 160000
      omega
    · rw [if_neg accepted] at least ⊢
      rw [least]
      rfl
  case most =>
    intro x mem
    obtain mem | mem := List.mem_append.1 mem
    · exact h.most x mem
    · rw [List.mem_singleton.1 mem]
      exact Nat.min_le_right _ _
  case doubled =>
    apply h.doubled.append (List.isChain_singleton _)
    intro x last y first
    rw [List.getLast?_concat, Option.mem_some_iff] at last
    rw [List.head?_cons, Option.mem_some_iff] at first
    subst last first
    refine ⟨?_, rfl⟩
    change v.interval ≤ min (2 * v.interval) rejectIntervalMax
    omega

theorem Tracks.respond {now : Nat} {positive called : Bool} (h : Tracks b v)
    (answered : RejectAnswer now v positive v' called) :
    Tracks (Backoff.respond (if called then { b with since := none } else b) positive now) v' := by
  cases answered with
  | positive =>
    constructor
    case count => rfl
    case held => exact fun t since => ⟨rfl, (h.held t since).2⟩
    case least => exact Nat.le_refl _
    case most =>
      intro x mem
      rw [List.mem_singleton.1 mem]
      change rejectIntervalMin ≤ rejectIntervalMax
      decide
    case doubled => exact List.isChain_singleton _
  | negative few =>
    rw [← h.count] at few
    unfold Backoff.respond
    rw [if_pos rfl, if_neg Bool.false_ne_true, if_pos few]
    exact ⟨congrArg (· + 1) h.count, nofun, h.least, h.most, h.doubled⟩
  | givenUp many =>
    rw [← h.count] at many
    unfold Backoff.respond
    rw [if_neg Bool.false_ne_true, if_neg Bool.false_ne_true, if_neg many]
    constructor
    case count => rfl
    case held =>
      intro t since
      exact ⟨rfl, rfl, Option.some.inj since⟩
    case least => exact h.least
    case most => exact h.most
    case doubled => exact h.doubled

end

theorem Rejecting.step_tracks {w : Rejecting π ν} (op : Op π ν) {k : π × Fin nofTids}
    (h : Tracks (w.backoff k) (w.sys.tid k).tx.rejectView) :
    Tracks ((w.step op).backoff k) ((w.step op).sys.tid k).tx.rejectView := by
  have step := step_rejects w.sys op k
  -- a step that does not end a back-off
  have quiet (kept : (w.sys.tid k).tx.addbaReqRejectState = true →
      ((Addba.step w.sys op).tid k).tx.addbaReqRejectState = true) : ¬w.sys.Relents op k :=
    fun relents => relents.2 (kept relents.1)
  change Tracks _ ((Addba.step w.sys op).tid k).tx.rejectView
  generalize after : ((Addba.step w.sys op).tid k).tx.rejectView = v' at step ⊢
  have rejecting : ((Addba.step w.sys op).tid k).tx.addbaReqRejectState = v'.rejecting :=
    congrArg RejectView.rejecting after
  rw [rejecting] at quiet
  generalize called : decide (w.sys.Calls op k) = told at step
  simp only [Rejecting.step]
  cases step with
  | aside unheard up =>
    simp only [up, unheard, of_decide_eq_false called, quiet id, Bool.false_eq_true, if_false]
    exact h
  | stop unheard stops =>
    simp only [stops, unheard, of_decide_eq_false called, quiet id, if_true, if_false]
    exact h.stop
  | @answer positive now _ _ heard up time waits answered =>
    have kept : (w.sys.tid k).tx.addbaReqRejectState = true → v'.rejecting = true := by
      cases answered with
      | positive | negative => exact id
      | givenUp => exact fun _ => rfl
    simp only [up, heard, quiet kept, Bool.false_eq_true, if_false]
    have responded := h.respond answered
    rw [← called] at responded
    simpa only [decide_eq_true_eq] using responded
  | @tick now _ _ unheard up time ticked =>
    cases ticked with
    | keep =>
      simp only [up, unheard, of_decide_eq_false called, quiet id, Bool.false_eq_true, if_false]
      exact h
    | unanswered waits =>
      simp only [up, unheard, of_decide_eq_true called, quiet id, Bool.false_eq_true, if_false,
        if_true]
      exact h.called
    | relented free rejects passed =>
      have relents : w.sys.Relents op k := by
        refine ⟨rejects, ?_⟩
        rw [rejecting]
        exact Bool.false_ne_true
      simp only [up, unheard, of_decide_eq_true called, relents, Bool.false_eq_true, if_false,
        if_true]
      exact h.relent

/-- A request is out, or waits for its response. -/
def Tx.Asking (tx : Tx) : Prop := tx.state = .addbaReqSent ∨ tx.state = .addbaReqCfmd

instance (tx : Tx) : Decidable tx.Asking := inferInstanceAs (Decidable (_ ∨ _))

theorem msTimeDiff_le {now t : Nat} (le : t ≤ now) : msTimeDiff now t ≤ now - t := by
  unfold msTimeDiff
  omega

section
variable {s : System π ν} {k : π × Fin nofTids} {t : Nat}

/-- The first response after a back-off has begun is told to the owner if it is negative. -/
theorem calls_on_negative (up : s.isActive k.1 = true) (asking : (s.tid k).tx.Asking)
    (rejects : (s.tid k).tx.addbaResRejects = 0) :
    s.Calls (.addbaResRx k.1 k.2 resCodeFailure 0 (s.tid k).tx.addbaReqDlgt t ⟨true, true⟩) k := by
  generalize negative : Op.addbaResRx k.1 k.2 resCodeFailure 0 (s.tid k).tx.addbaReqDlgt t
    ⟨true, true⟩ = op
  have heard : op.response s k = some (false, t) := by
    rw [← negative]
    exact if_pos ⟨⟨up, rfl, rfl⟩, rfl, asking⟩
  have step := step_rejects s op k
  generalize ((Addba.step s op).tid k).tx.rejectView = v' at step
  generalize told : decide (s.Calls op k) = called at step
  cases step with
  | aside unheard | stop unheard | tick unheard => cases unheard.symm.trans heard
  | answer heard' up' time waits answered =>
    obtain ⟨rfl, rfl⟩ := Prod.mk.inj (Option.some.inj (heard'.symm.trans heard))
    cases answered with
    | negative => exact of_decide_eq_true told
    | givenUp many =>
      have first : (s.tid k).tx.rejectView.rejects = 0 := rejects
      rw [first] at many
      exact absurd (by decide) many

/-- A tick of the timer ends the back-off as soon as the interval has passed. -/
theorem calls_on_tick (up : s.isActive k.1 = true) (free : (s.tid k).tx.state = .none)
    (rejecting : (s.tid k).tx.addbaReqRejectState = true)
    (time : (s.tid k).tx.addbaReqRejectTime = t)
    (short : (s.tid k).tx.addbaReqRejectInterval < 2 ^ 32) :
    s.Calls (.iterate k.1 (t + (s.tid k).tx.addbaReqRejectInterval) (fun _ => 0)
      fun _ => ⟨true, true⟩) k := by
  generalize tick : Op.iterate k.1 (t + (s.tid k).tx.addbaReqRejectInterval) (fun _ => 0)
    (fun _ => ⟨true, true⟩) = op
  have ticks : op.ticks s k = true := by
    rw [← tick]
    exact decide_eq_true ⟨up, rfl⟩
  have unheard : op.response s k = none := by rw [← tick]; rfl
  have running : op.stops k = false := by rw [← tick]; rfl
  have now : op.time = some (t + (s.tid k).tx.addbaReqRejectInterval) := by rw [← tick]; rfl
  have step := step_rejects s op k
  generalize ((Addba.step s op).tid k).tx.rejectView = v' at step
  generalize told : decide (s.Calls op k) = called at step
  cases step with
  | aside _ _ idle => cases idle.symm.trans ticks
  | stop _ stops => cases stops.symm.trans running
  | answer heard => cases unheard.symm.trans heard
  | tick _ _ now' ticked =>
    obtain rfl := Option.some.inj (now'.symm.trans now)
    cases ticked with
    | keep held =>
      have early := held free rejecting
      change msTimeDiff _ (s.tid k).tx.addbaReqRejectTime <
        (s.tid k).tx.addbaReqRejectInterval at early
      rw [time] at early
      unfold msTimeDiff at early
      omega
    | unanswered waits => cases waits.symm.trans free
    | relented => exact of_decide_eq_true told

/-- While the owner of a TID is held back, no step calls it too early if and only if the TID has
no request out, and has a proper interval when nothing of it is open. -/
theorem heldBack_iff (up : s.isActive k.1 = true) (rejects : (s.tid k).tx.addbaResRejects = 0)
    (rejecting : (s.tid k).tx.addbaReqRejectState = true)
    (time : (s.tid k).tx.addbaReqRejectTime = t) :
    s.HeldBack k t ↔ ¬(s.tid k).tx.Asking ∧
      ((s.tid k).tx.state = .none → rejectIntervalMin ≤ (s.tid k).tx.addbaReqRejectInterval) := by
  constructor
  · intro held
    constructor
    · intro asking
      obtain ⟨now, at_t, late⟩ := held _ (calls_on_negative (t := t) up asking rejects)
      obtain rfl := Option.some.inj at_t
      have late := late (Nat.le_refl _)
      unfold rejectIntervalMin at late
      omega
    · intro free
      by_contra long
      have short : (s.tid k).tx.addbaReqRejectInterval < 2 ^ 32 := by
        unfold rejectIntervalMin at long
        omega
      obtain ⟨now, at_t, late⟩ := held _ (calls_on_tick up free rejecting time short)
      obtain rfl := Option.some.inj at_t
      have late := late (Nat.le_add_right _ _)
      omega
  · rintro ⟨silent, long⟩ op calls
    have step := step_rejects s op k
    generalize ((Addba.step s op).tid k).tx.rejectView = v' at step
    rw [decide_eq_true calls] at step
    generalize told : true = called at step
    cases step with
    | aside | stop => cases told
    | answer heard running now waits answered => exact absurd waits silent
    | tick unheard running now ticked =>
      refine ⟨_, now, ?_⟩
      intro le
      cases ticked with
      | keep => cases told
      | unanswered waits => exact absurd (.inr waits) silent
      | relented free rejecting passed =>
        have least := long free
        change (s.tid k).tx.addbaReqRejectInterval ≤ msTimeDiff _ (s.tid k).tx.addbaReqRejectTime
          at passed
        rw [time] at passed
        have elapsed := msTimeDiff_le le
        omega

end

/-- The intervals of the back-offs of a TID double from one to the next until a positive
response comes, and are bounded. While its owner is held back, no step calls it within the
least interval if and only if no request of the TID is out, and a positive response had come
before, if nothing of it is open. -/
theorem rejects_backed_off_iff (home : π → ν) (cfg : ν → Fin nofTids → TidCfg)
    (maxAggr maxReord : Nat) {w : Rejecting π ν}
    (run : Runs Rejecting.step (fun _ _ => True) (.init home cfg maxAggr maxReord) w)
    (k : π × Fin nofTids) :
    let intervals := (w.backoff k).intervals ++ [(w.sys.tid k).tx.addbaReqRejectInterval]
    intervals.IsChain Doubled ∧ (∀ x ∈ intervals, x ≤ rejectIntervalMax) ∧
    ∀ t, (w.backoff k).since = some t → w.sys.isActive k.1 = true →
      (w.sys.HeldBack k t ↔ ¬(w.sys.tid k).tx.Asking ∧
        ((w.sys.tid k).tx.state = .none → (w.backoff k).accepted = true)) := by
  have tracks : ∀ k, Tracks (w.backoff k) (w.sys.tid k).tx.rejectView := by
    apply run.invariant (P := fun w => ∀ k, Tracks (w.backoff k) (w.sys.tid k).tx.rejectView)
    · intro k
      refine ⟨rfl, nofun, rfl, ?_, List.isChain_singleton _⟩
      intro x mem
      rw [List.mem_singleton.1 mem]
      exact Nat.zero_le _
    · exact fun w op before _ k => Rejecting.step_tracks op (before k)
  intro intervals
  refine ⟨(tracks k).doubled, (tracks k).most, ?_⟩
  intro t since up
  obtain ⟨none, rejecting, time⟩ := (tracks k).held t since
  have rejects : (w.sys.tid k).tx.addbaResRejects = 0 := (tracks k).count.symm.trans none
  rw [heldBack_iff up rejects rejecting time]
  have least : (w.backoff k).accepted = true ↔
      rejectIntervalMin ≤ (w.sys.tid k).tx.addbaReqRejectInterval := by
    have known := (tracks k).least
    change if _ then _ ≤ (w.sys.tid k).tx.addbaReqRejectInterval else
      (w.sys.tid k).tx.addbaReqRejectInterval = 0 at known
    split at known
    · rename_i accepted
      exact iff_of_true accepted known
    · rename_i never
      rw [known]
      exact iff_of_false never (by decide)
  rw [least]

/-- A request that is answered with `resCode`. -/
def asks (resCode token now : Nat) : List (Op Unit Unit) :=
  [.startAggrNegotiation () 0 false ⟨true, true⟩, .txMsgCfm () 0 ⟨true, 0, 0, now⟩,
    .addbaResRx () 0 resCode 64 token now ⟨true, true⟩]

/-- A peer that rejects as many requests as it may, from dialog token `token` on. -/
def rejectsFrom (token : Nat) : List (Op Unit Unit) :=
  (List.range maxRejects).flatMap fun i => asks resCodeFailure (token + i) (10 + i)

/-- A peer that accepts one request and lets the aggregation be closed before it rejects. -/
def acceptsOnce : List (Op Unit Unit) :=
  .peerStart () 0 true :: asks resCodeSuccess 0 5 ++
    [Op.txMsgCfm () 0 ⟨true, 0, 7, 6⟩, .delbaReqRx () 0 false ⟨true, true⟩,
      .txMsgCfm () 0 ⟨true, 0, 0, 7⟩] ++ rejectsFrom 1

/-- A peer that never accepts. -/
def alwaysRejects : List (Op Unit Unit) := .peerStart () 0 true :: rejectsFrom 0

def Rejecting.onePeer : Rejecting Unit Unit :=
  .init id (fun _ _ => ⟨true, true, 10, 16000, 3, 10, 0, 64⟩) 16 16

theorem rejects_backed_off_iff_acceptsOnce :
    let w := acceptsOnce.foldl Rejecting.step .onePeer
    (w.backoff ((), 0)).since = some 14 ∧ w.sys.HeldBack ((), 0) 14 := by
  intro w
  have since : (w.backoff ((), 0)).since = some 14 := by decide +kernel
  have run : Runs Rejecting.step (fun _ _ => True) .onePeer w := .of_allowed (by decide +kernel)
  refine ⟨since, ?_⟩
  apply ((rejects_backed_off_iff id _ 16 16 run ((), 0)).2.2 14 since (by decide +kernel)).2
  exact ⟨by decide +kernel, fun _ => by decide +kernel⟩

/-- The owner is called by the first tick after the last rejection, and the interval does not
grow. -/
theorem rejects_not_backed_off :
    let w := alwaysRejects.foldl Rejecting.step .onePeer
    let tick : Op Unit Unit := .iterate () 114 (fun _ => 0) fun _ => ⟨true, true⟩
    Runs Rejecting.step (fun _ _ => True) .onePeer w ∧
      (w.backoff ((), 0)).since = some 14 ∧ w.sys.Calls tick ((), 0) ∧
      ¬14 + rejectIntervalMin ≤ 114 ∧
      ((w.step tick).sys.tid ((), 0)).tx.addbaReqRejectInterval = 0 := by
  refine ⟨.of_allowed (by decide), ?_⟩
  decide

end Wave300.Addba
