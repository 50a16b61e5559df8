import Wave300.Addba.Receiver
import Wave300.Addba.Transmitter

/-!
# Messages are sent or let go

A message that is attached to a block is sent before its handler returns, or gives the block
back.
-/

namespace Wave300.Addba

open Wave300.Lib

variable {π ν : Type} [DecidableEq π] [DecidableEq ν]

/-- No message of a TID holds a block that is not sent. -/
structure Settled (t : Tid) : Prop where
  tx : t.tx.manMsg ≠ .attached
  rx : t.rx.manMsg ≠ .attached

/-! ## The RX side -/

theorem RxMove.settled {answers : Bool} {v v' : RxView} {sent : List RxRequest}
    (move : RxMove answers v v' sent) (h : v.manMsg ≠ .attached) : v'.manMsg ≠ .attached := by
  cases move with
  | keep => exact h
  | reset => exact h
  | unanswered => exact h
  | respond => exact nofun
  | delbaTx => exact nofun
  | delbaRx => exact nofun

theorem RxReport.settled {io : Io} {req : RxRequest} {ok : Bool} {v v' : RxView}
    {sent : List RxRequest} (report : RxReport io req ok v v' sent) (h : v.manMsg ≠ .attached) :
    v'.manMsg ≠ .attached := by
  cases report with
  | resAgain => exact nofun
  | delbaAgain => exact nofun
  | txAgain => exact nofun
  | _ => exact h

theorem RxView.confirm_settled (v : RxView) (req : RxRequest) :
    (v.confirm req).manMsg ≠ .attached := by
  unfold RxView.confirm
  split <;> exact nofun

theorem onBaTxStatus_settled (io : Io) (now : Nat) (msg : BaTxMsg) (initiator : Bool)
    (status : Nat) {c : Ctx} (fresh : c.out = []) (h : c.tid.rxView.manMsg ≠ .attached) :
    (onBaTxStatus io now msg initiator status c).tid.rxView.manMsg ≠ .attached := by
  cases msg with
  | delbaReq => exact (onBaTxStatus_report io now status (.delbaReq initiator) fresh).settled h
  | addbaResTxReq =>
    exact (onAddbaResTxStatus_report io now status c.tid.rx.addbaRes fresh).settled h
  | other => exact h

omit [DecidableEq ν] in
theorem Serves.rxSettled {s : System π ν} {op : Op π ν} {k : π × Fin nofTids} {cfg : TidCfg}
    {t : Tid} {out : List Out} (serves : Serves cfg (s.tid k) (op.handlers s k) t out)
    (h : (s.tid k).rxView.manMsg ≠ .attached) : t.rxView.manMsg ≠ .attached := by
  have only {P : Prop} [Decidable P] {h : Ctx → Ctx}
      (served : Serves cfg (s.tid k) (if P then [h] else []) t out)
      (keep : ∀ c : Ctx, c.out = [] → c.tid.rxView.manMsg ≠ .attached →
        (h c).tid.rxView.manMsg ≠ .attached) : t.rxView.manMsg ≠ .attached := by
    obtain ⟨rfl, -⟩ | ⟨-, c, tid, fresh, -, rfl, -⟩ := served.guarded
    · assumption
    · apply keep c fresh
      rwa [tid]
  have stopped (now : Nat) (c : Ctx) : (stopTid now c).tid.rxView.manMsg ≠ .attached := by
    rw [(stopTid_stops now c).1]
    exact nofun
  have moved (call : op.Call) (up : op.stops k = false) : t.rxView.manMsg ≠ .attached :=
    (serves.rxMove call up).settled h
  cases op with
  | peerStart p now dot11nMode => exact only serves fun c _ _ => stopped now c
  | peerStop p now dot11nMode => exact only serves fun c _ _ => stopped now c
  | baTxStatus p tid msg initiator status now io =>
    exact only serves fun c fresh => onBaTxStatus_settled io now msg initiator status fresh
  | rxMsgCfm p t₀ =>
    refine only serves ?_
    intro c fresh before
    rw [(onRxMsgCfm_confirms c).2, RxView.onCfm]
    split
    · exact RxView.confirm_settled _ _
    · exact before
  | _ => exact moved trivial rfl

/-! ## The TX side -/

theorem sendAddbaReq_settled (io : Io) (c : Ctx) (h : c.tid.tx.manMsg ≠ .attached) :
    (sendAddbaReq io c).1.tid.tx.manMsg ≠ .attached := by
  obtain ⟨-, aside⟩ | ⟨-, -, token, win, timeout, view, -⟩ := sendAddbaReq_cases io c
  · exact fun attached => h ((congrArg TxView.manMsg aside.view).symm.trans attached)
  · exact fun attached => nomatch (congrArg TxView.manMsg view).symm.trans attached

theorem startAggrNegotiation_settled (io : Io) (psMode : Bool) (c : Ctx)
    (h : c.tid.tx.manMsg ≠ .attached) :
    (startAggrNegotiation io psMode c).tid.tx.manMsg ≠ .attached := by
  unfold startAggrNegotiation txAddbaReq
  split
  · split
    · exact h
    · split
      · exact h
      · split
        · exact h
        · rename_i r _
          have sent := sendAddbaReq_settled io ({ c with aggrReflim := r }.emit .aggrRef) h
          simp only
          split <;> exact sent
  · exact h

theorem closeAggrReq_settled (io : Io) (c : Ctx) (h : c.tid.tx.manMsg ≠ .attached) :
    (closeAggrReq io c).tid.tx.manMsg ≠ .attached := by
  obtain aside | ⟨-, -, -, view, -⟩ := closeAggrReq_cases io c
  · exact fun attached => h ((congrArg TxView.manMsg aside.view).symm.trans attached)
  · exact fun attached => nomatch (congrArg TxView.manMsg view).symm.trans attached

theorem stopTid_manMsg (now : Nat) (c : Ctx) : (stopTid now c).tid.tx.manMsg = .detached := by
  unfold stopTid
  simp only
  change (reorderingStop _).tid.tx.manMsg = _
  rw [reorderingStop_tx]
  change Tx.manMsg (Ctx.tid (if _ then _ else _)).tx = _
  split <;> rfl

theorem checkAddbaResRxTimeout_manMsg (now : Nat) (c : Ctx) :
    (checkAddbaResRxTimeout now c).tid.tx.manMsg = c.tid.tx.manMsg := by
  unfold checkAddbaResRxTimeout
  split
  · split
    · exact resetTxState_manMsg c
    · rfl
  · split
    · split <;> rfl
    · rfl

/-- A positive answer to the request that is out, for which a block is free. -/
def Tx.Opens (tx : Tx) (io : Io) (resCode dlgt : Nat) : Prop :=
  tx.addbaReqDlgt = dlgt ∧ (tx.state = .addbaReqSent ∨ tx.state = .addbaReqCfmd) ∧
    resCode = resCodeSuccess ∧ tx.manMsg = .detached ∧ io.alloc

theorem aggrWinSize_fits {winSizeReq winSizeRsp : Nat} (fits : winSizeRsp ≠ 0) :
    ¬aggrWinSize winSizeReq winSizeRsp < minReordWinSize := by
  unfold aggrWinSize minReordWinSize
  split <;> omega

theorem onAddbaResRx_settled (io : Io) (now resCode winSizeRsp dlgt : Nat) (c : Ctx)
    (fits : c.tid.tx.Opens io resCode dlgt → winSizeRsp ≠ 0) (h : c.tid.tx.manMsg ≠ .attached) :
    (onAddbaResRx io now resCode winSizeRsp dlgt c).tid.tx.manMsg ≠ .attached := by
  unfold onAddbaResRx
  split
  · exact h
  · rename_i token
    split
    · exact h
    · rename_i waits
      split
      · rename_i success
        unfold onAddbaResPositive
        simp only
        split
        · exact h
        · rename_i m msg
          have opens : c.tid.tx.Opens io resCode dlgt := by
            refine ⟨not_not.1 token, ?_, success, (getEmptyData_some msg).1, ?_⟩
            · by_contra neither
              exact waits (not_or.1 neither)
            · exact getEmptyData_alloc msg
          rw [if_neg (aggrWinSize_fits (fits opens))]
          split
          · exact nofun
          · rename_i m' sent
            rw [send_some sent]
            exact nofun
      · unfold onAddbaResNegative
        simp only
        split
        · exact fun attached => h ((resetTxState_manMsg c).symm.trans attached)
        · exact fun attached => h ((resetTxState_manMsg c).symm.trans attached)

/-- No positive answer for which a block is free offers a window of size 0. -/
def FitWindow (s : System π ν) : Op π ν → Prop
  | .addbaResRx p tid resCode winSizeRsp dlgt _ io => s.isActive p → ∀ t : Fin nofTids, tid = t →
      (s.tid (p, t)).tx.Opens io resCode dlgt → winSizeRsp ≠ 0
  | _ => True

omit [DecidableEq ν] in
theorem Serves.txSettled {s : System π ν} {op : Op π ν} {k : π × Fin nofTids} {cfg : TidCfg}
    {t : Tid} {out : List Out} (serves : Serves cfg (s.tid k) (op.handlers s k) t out)
    (fits : FitWindow s op) (h : (s.tid k).tx.manMsg ≠ .attached) : t.tx.manMsg ≠ .attached := by
  have only {P : Prop} [Decidable P] {h : Ctx → Ctx}
      (served : Serves cfg (s.tid k) (if P then [h] else []) t out)
      (keep : P → ∀ c : Ctx, c.tid = s.tid k → c.tid.tx.manMsg ≠ .attached →
        (h c).tid.tx.manMsg ≠ .attached) : t.tx.manMsg ≠ .attached := by
    obtain ⟨rfl, -⟩ | ⟨holds, c, tid, -, -, rfl, -⟩ := served.guarded
    · assumption
    · apply keep holds c tid
      rwa [tid]
  have aside {c c' : Ctx} (aside : TxAside c c') (h : c.tid.tx.manMsg ≠ .attached) :
      c'.tid.tx.manMsg ≠ .attached :=
    fun attached => h ((congrArg TxView.manMsg aside.view).symm.trans attached)
  have stopped (now : Nat) (c : Ctx) : (stopTid now c).tid.tx.manMsg ≠ .attached := by
    rw [stopTid_manMsg]
    rintro ⟨⟩
  have closed (closeIo delbaIo : Io) (c : Ctx) (h : c.tid.tx.manMsg ≠ .attached) :
      (Addba.delbaReq closeIo delbaIo c).tid.tx.manMsg ≠ .attached := by
    unfold Addba.delbaReq
    split
    · exact h
    · exact aside (sendDelbaReq_aside delbaIo true _) (closeAggrReq_settled closeIo c h)
  cases op with
  | peerStart p now dot11nMode => exact only serves fun _ c _ _ => stopped now c
  | peerStop p now dot11nMode => exact only serves fun _ c _ _ => stopped now c
  | startAggrNegotiation p t₀ psMode io =>
    exact only serves fun _ c _ => startAggrNegotiation_settled io psMode c
  | resetPowerSave p t₀ =>
    refine only serves ?_
    intro _ c _ before
    unfold Addba.resetPowerSave
    split <;> exact before
  | addbaReqRx p tid req now io =>
    exact only serves fun _ c _ => aside (onAddbaReqRx_aside io now req c)
  | addbaResRx p tid resCode winSizeRsp dlgt now io =>
    refine only serves ?_
    rintro ⟨active, rfl, here⟩ c same
    apply onAddbaResRx_settled
    rw [same]
    exact fits active k.2 here
  | delbaReqRx p tid initiator io =>
    refine only serves ?_
    intro _ c _ before
    unfold onDelbaReqRx
    split
    · exact aside (reorderingStop_aside c) before
    · exact closeAggrReq_settled io c before
  | delbaReq p t₀ closeIo delbaIo => exact only serves fun _ c _ => closed closeIo delbaIo c
  | delbaReqAll p closeIo delbaIo => exact only serves fun _ c _ => closed _ _ c
  | ackOnBar p tid closeIo delbaIo => exact only serves fun _ c _ => closed closeIo delbaIo c
  | bar p tid io => exact only serves fun _ c _ => aside (onBar_aside io c)
  | qosWithoutReord p tid now io =>
    exact only serves fun _ c _ => aside (onQosWithoutReord_aside io now c)
  | baTxStatus p tid msg initiator status now io =>
    exact only serves fun _ c _ => aside (onBaTxStatus_aside io now msg initiator status c)
  | iterate p now lastRx io =>
    simp only [Op.handlers] at serves
    split at serves
    · obtain ⟨c, tid, -, -, rest, serves, rfl⟩ := serves
      obtain ⟨c', tid', -, -, rfl, rfl⟩ := serves.one
      rw [checkAddbaResRxTimeout_manMsg, tid']
      apply aside (checkDelbaTimeout_aside (io k.2) now (lastRx k.2) c)
      rwa [tid]
    · obtain ⟨rfl, rfl⟩ := serves
      exact h
  | txMsgCfm p t₀ cfm =>
    refine only serves ?_
    intro _ c _ before
    unfold onTxMsgCfm
    split
    · rintro ⟨⟩
    · exact before
  | rxMsgCfm p t₀ => exact only serves fun _ c _ => aside (onRxMsgCfm_aside c)
  | reconfigure v cfg =>
    obtain ⟨rfl, rfl⟩ := serves
    exact h

/-! ## Runs -/

theorem step_settled {s : System π ν} {op : Op π ν} (fits : FitWindow s op)
    (h : ∀ k, Settled (s.tid k)) (k : π × Fin nofTids) : Settled ((step s op).tid k) := by
  obtain ⟨out, serves, -⟩ := step_at s op k
  exact ⟨serves.txSettled fits (h k).tx, serves.rxSettled (h k).rx⟩

/-- A message that is not out can be attached whenever a block is free. -/
theorem getEmptyData_of_settled {ρ : Type} {m : ManMsg ρ} (settled : m ≠ .attached)
    (ended : ∀ req, m ≠ .sent req) {io : Io} (free : io.alloc) : (m.getEmptyData io).isSome := by
  cases m with
  | detached =>
    rw [ManMsg.getEmptyData, if_pos free]
    rfl
  | attached => exact absurd rfl settled
  | sent req => exact absurd rfl (ended req)

/-- While no accepted response offers a window of size 0, a message is detached or owned by
TXMM whenever no handler runs. So a TID whose last message is confirmed gets a block again
as soon as one is free. -/
theorem messages_detached_or_sent (home : π → ν) (cfg : ν → Fin nofTids → TidCfg)
    (maxAggr maxReord : Nat) {s : System π ν}
    (run : Runs step FitWindow (.init home cfg maxAggr maxReord) s) (k : π × Fin nofTids) :
    ((s.tid k).tx.manMsg = .detached ∨ ∃ req, (s.tid k).tx.manMsg = .sent req) ∧
    ((s.tid k).rx.manMsg = .detached ∨ ∃ req, (s.tid k).rx.manMsg = .sent req) ∧
    ∀ io : Io, io.alloc →
      ((∀ req, (s.tid k).tx.manMsg ≠ .sent req) → ((s.tid k).tx.manMsg.getEmptyData io).isSome) ∧
      ((∀ req, (s.tid k).rx.manMsg ≠ .sent req) →
        ((s.tid k).rx.manMsg.getEmptyData io).isSome) := by
  have settled : ∀ k, Settled (s.tid k) := by
    apply run.invariant (P := fun s => ∀ k, Settled (s.tid k))
    · exact fun k => ⟨nofun, nofun⟩
    · exact fun s op before fits => step_settled fits before
  have either {ρ : Type} {m : ManMsg ρ} (settled : m ≠ .attached) :
      m = .detached ∨ ∃ req, m = .sent req := by
    cases m with
    | detached => exact .inl rfl
    | attached => exact absurd rfl settled
    | sent req => exact .inr ⟨req, rfl⟩
  refine ⟨either (settled k).tx, either (settled k).rx, ?_⟩
  intro io free
  exact ⟨fun ended => getEmptyData_of_settled (settled k).tx ended free,
    fun ended => getEmptyData_of_settled (settled k).rx ended free⟩

/-- A peer that answers a request with a window of `winSizeRsp`. -/
def answeredWith (winSizeRsp : Nat) : List (Op Unit Unit) :=
  [.peerStart () 0 true, .startAggrNegotiation () 0 false ⟨true, true⟩,
    .txMsgCfm () 0 ⟨true, 0, 0, 5⟩, .addbaResRx () 0 0 winSizeRsp 0 6 ⟨true, true⟩]

theorem messages_detached_or_sent_of_answer :
    let s := (answeredWith 64).foldl step onePeer
    (s.tid ((), 0)).tx.manMsg = .sent (.openAggr 10 16000 3 10 64) ∧
      ((s.tid ((), 1)).tx.manMsg.getEmptyData ⟨true, true⟩).isSome := by
  have run : Runs step FitWindow onePeer ((answeredWith 64).foldl step onePeer) := by
    apply Runs.of_allowed
    refine ⟨trivial, trivial, trivial, ?_, trivial⟩
    intro _ _ _ _
    decide
  refine ⟨by decide, ?_⟩
  apply ((messages_detached_or_sent id _ 16 0xFFFFFFFF run ((), 1)).2.2 ⟨true, true⟩ rfl).1
  have detached : (((answeredWith 64).foldl step onePeer).tid ((), 1)).tx.manMsg = .detached := by
    decide
  exact fun req sent => nomatch detached.symm.trans sent

/-- A window of size 0: the block stays attached when the negotiation has timed out, and the
next one gets no message. -/
theorem zero_window_keeps_block :
    let s := step ((answeredWith 0).foldl step onePeer)
      (.iterate () 3006 (fun _ => 0) fun _ => ⟨true, true⟩)
    let s' := step s (.startAggrNegotiation () 0 false ⟨true, true⟩)
    (s.tid ((), 0)).tx.state = .none ∧ (s.tid ((), 0)).tx.manMsg = .attached ∧
      s'.tid ((), 0) = s.tid ((), 0) := by
  decide

end Wave300.Addba
