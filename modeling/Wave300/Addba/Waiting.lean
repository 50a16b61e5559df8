import Wave300.Addba.Letters

/-!
# A TID that waits is reported to

In four of its states the RX side waits for the report on a response or on a DELBA. Nothing
else gets it out of there, so a message of that kind has to be outstanding.
-/

namespace Wave300.Addba

open Wave300.Lib

def RxState.waits : RxState → Bool
  | addbaPositiveResSent | addbaNegativeResSent => true
  | delbaReqSent | delbaReqSentWithoutReordering => true
  | _ => false

/-- The report on which message the state is left by. -/
def RxState.awaits : RxState → RxRequest → Bool
  | addbaPositiveResSent, .addbaRes _ | addbaNegativeResSent, .addbaRes _ => true
  | delbaReqSent, .delbaReq false | delbaReqSentWithoutReordering, .delbaReq false => true
  | _, _ => false

theorem resState_awaits (res res' : AddbaRes) : (resState res).awaits (.addbaRes res') = true := by
  unfold resState
  split <;> rfl

theorem delba_awaits {st : RxState}
    (waits : st = .delbaReqSent ∨ st = .delbaReqSentWithoutReordering) :
    st.awaits (.delbaReq false) = true := by
  obtain rfl | rfl := waits <;> rfl

/-- A message that the state waits for is outstanding. -/
def Awaited (st : RxState) (ls : List Letter) : Prop :=
  ∃ l ∈ ls, l.Outstanding ∧ st.awaits l.req = true

def Desk.Live (d : Desk) : Prop := d.view.state.waits = true → Awaited d.view.state d.letters

section
variable {st : RxState} {ls new : List Letter} {i : Nat}

theorem Awaited.append (h : Awaited st ls) : Awaited st (ls ++ new) := by
  obtain ⟨l, mem, awaited⟩ := h
  exact ⟨l, List.mem_append_left new mem, awaited⟩

theorem awaited_post {req : RxRequest} {exchange : Nat} (h : st.awaits req = true) :
    Awaited st (ls ++ [Letter.post exchange req]) :=
  ⟨.post exchange req, List.mem_append_right ls List.mem_cons_self, ⟨.inl rfl, rfl⟩, h⟩

/-- A message that is awaited besides message `i`. -/
def AwaitedBesides (st : RxState) (ls : List Letter) (i : Nat) : Prop :=
  ∃ j l, j ≠ i ∧ ls[j]? = some l ∧ l.Outstanding ∧ st.awaits l.req = true

theorem AwaitedBesides.report (h : AwaitedBesides st ls i) : Awaited st (ls.modify i .report) := by
  obtain ⟨j, l, ne, at_j, awaited⟩ := h
  refine ⟨l, ?_, awaited⟩
  apply List.mem_of_getElem? (i := j)
  rw [List.getElem?_modify_ne _ _ ne.symm, at_j]

/-- A report on what the state does not wait for. -/
theorem Awaited.besides {l : Letter} (h : Awaited st ls) (on : ls[i]? = some l)
    (other : st.awaits l.req = false) : AwaitedBesides st ls i := by
  obtain ⟨l', mem, outstanding, awaits⟩ := h
  obtain ⟨j, at_j⟩ := List.mem_iff_getElem?.1 mem
  refine ⟨j, l', ?_, at_j, outstanding, awaits⟩
  rintro rfl
  obtain rfl : l = l' := Option.some.inj (on.symm.trans at_j)
  cases other.symm.trans awaits

theorem Awaited.settle_accepted (h : Awaited st ls) :
    Awaited st (ls.map (.settle .accepted)) := by
  obtain ⟨l, mem, ⟨fate, fresh⟩, awaits⟩ := h
  refine ⟨l.settle .accepted, List.mem_map_of_mem mem, ?_, ?_⟩
  · unfold Letter.settle
    obtain pending | accepted := fate
    · rw [if_pos pending]
      exact ⟨.inr rfl, fresh⟩
    · rw [if_neg (by rw [accepted]; exact nofun)]
      exact ⟨.inr accepted, fresh⟩
  · unfold Letter.settle
    split <;> exact awaits

end

/-! ## One event -/

/-- A failed report asks for a retransmission. -/
def RxView.Retransmits (v : RxView) : RxRequest → Prop
  | .addbaRes _ => (v.state = .addbaPositiveResSent ∨ v.state = .addbaNegativeResSent) ∧
      v.resAttempt < rspMaxRetransmissions
  | .delbaReq false => v.state = .delbaReqSent ∧ v.delbaAttempt < delbaReqMaxRetransmissions
  | .delbaReq true => False

/-- The awaited message is not lost: if its confirmation refuses it, another one has been
accepted, and if it has to be sent again, it can be, or another one is outstanding. -/
def Desk.Keeps (d : Desk) (active : Bool) : Event π ν → Prop
  | .call _ => True
  | .confirm _ _ accepted => accepted = false → d.view.state.waits = true →
      ∃ l ∈ d.letters, l.fate = .accepted ∧ l.reported = false ∧ d.view.state.awaits l.req = true
  | .report _ _ i status _ io => active = true → status ≠ umiOk → ∀ l, d.letters[i]? = some l →
      d.view.Retransmits l.req → d.view.manMsg.Ready io ∨ AwaitedBesides d.view.state d.letters i

variable {π ν : Type} {active : Bool} {k : π × Fin nofTids} {e : Event π ν} {d d' : Desk}

theorem RxMove.live {answers : Bool} {v v' : RxView} {sent : List RxRequest} {exchange : Nat}
    {ls : List Letter} (move : RxMove answers v v' sent)
    (h : v.state.waits = true → Awaited v.state ls) (waits : v'.state.waits = true) :
    Awaited v'.state (ls ++ sent.map (.post exchange)) := by
  cases move with
  | keep => exact (h waits).append
  | reset => cases waits
  | unanswered => cases waits
  | respond res asked msg => exact awaited_post (resState_awaits res res)
  | delbaTx msg => exact (h waits).append
  | delbaRx state sent msg => exact awaited_post (delba_awaits sent)

theorem awaits_res_of_over {st : RxState} (res : AddbaRes)
    (ended : ¬st = .addbaPositiveResSent ∧ ¬st = .addbaNegativeResSent) :
    st.awaits (.addbaRes res) = false := by
  cases st with
  | addbaPositiveResSent => exact absurd rfl ended.1
  | addbaNegativeResSent => exact absurd rfl ended.2
  | _ => rfl

theorem awaits_delba_of_over {st : RxState}
    (ended : ¬st = .delbaReqSent ∧ ¬st = .delbaReqSentWithoutReordering) :
    st.awaits (.delbaReq false) = false := by
  cases st with
  | delbaReqSent => exact absurd rfl ended.1
  | delbaReqSentWithoutReordering => exact absurd rfl ended.2
  | _ => rfl

theorem awaits_txDelba (st : RxState) : st.awaits (.delbaReq true) = false := by
  cases st <;> rfl

theorem RxReport.live {io : Io} {l : Letter} {ok : Bool} {v v' : RxView} {sent : List RxRequest}
    {exchange i : Nat} {ls : List Letter} (report : RxReport io l.req ok v v' sent)
    (on : ls[i]? = some l) (keeps : ok = false → v.Retransmits l.req →
      v.manMsg.Ready io ∨ AwaitedBesides v.state ls i)
    (h : v.state.waits = true → Awaited v.state ls) (waits : v'.state.waits = true) :
    Awaited v'.state (ls.modify i .report ++ sent.map (.post exchange)) := by
  generalize same : l.req = req at report keeps
  have aside (other : v.state.awaits req = false) (waits : v.state.waits = true) :
      Awaited v.state (ls.modify i .report) := by
    apply AwaitedBesides.report
    apply (h waits).besides on
    rw [same, other]
  cases report with
  | accepted => cases waits
  | refused => cases waits
  | resLate res ok ended => exact (aside (awaits_res_of_over res ended) waits).append
  | resLost => cases waits
  | resKept res sent again busy =>
    obtain ready | besides := keeps rfl ⟨sent, again⟩
    · exact absurd ready busy
    · exact besides.report.append
  | resAgain res sent again msg => exact awaited_post (resState_awaits v.res v.res)
  | closed => cases waits
  | delbaLate ok ended => exact (aside (awaits_delba_of_over ended) waits).append
  | delbaLost => cases waits
  | delbaKept sent again busy =>
    obtain ready | besides := keeps rfl ⟨sent, again⟩
    · exact absurd ready busy
    · exact besides.report.append
  | delbaAgain state sent sent' again msg => exact awaited_post (delba_awaits sent')
  | txClosed => exact (aside (awaits_txDelba _) waits).append
  | txLost => exact (aside (awaits_txDelba _) waits).append
  | txKept => exact (aside (awaits_txDelba _) waits).append
  | txAgain msg => exact (aside (awaits_txDelba _) waits).append

/-- Whatever happens, a TID that waits has something to wait for. -/
theorem DeskStep.live (step : DeskStep active k e d d') (keeps : e.about k → d.Keeps active e)
    (idle : active = false → d.view.state = .none) (h : d.Live) : d'.Live := by
  cases step with
  | move answers aside moved => exact moved.live h
  | stop => exact nofun
  | confirm accepted =>
    change d.view.onCfm.state.waits = true → Awaited d.view.onCfm.state _
    rw [RxView.onCfm_state]
    intro waits
    cases accepted with
    | true => exact (h waits).settle_accepted
    | false =>
      obtain ⟨l, mem, fate, fresh, awaits⟩ := keeps rfl rfl waits
      refine ⟨l, ?_, ⟨.inr fate, fresh⟩, awaits⟩
      have settled : l.settle .refused = l := if_neg (by rw [fate]; exact nofun)
      exact List.mem_map.2 ⟨l, mem, settled⟩
  | report i status now io l up on first known handled =>
    refine handled.live on ?_ h
    intro failed
    exact keeps rfl up (of_decide_eq_false failed) l on
  | unheard i status now io down =>
    change d.view.state.waits = true → _
    rw [idle down]
    exact nofun

/-! ## Runs -/

section
variable [DecidableEq π] [DecidableEq ν]

theorem isActive_of_up {s : System π ν} {op : Op π ν} (up : op.stops k = false) :
    (step s op).isActive k.1 = s.isActive k.1 := by
  have swept (p : π) (h : Fin nofTids → Ctx → Ctx) (s : System π ν) :
      (s.serveAll p h).isActive = s.isActive := by
    unfold System.serveAll
    generalize List.finRange nofTids = ts
    induction ts generalizing s with
    | nil => rfl
    | cons t ts ih => exact ih _
  have indicated (p : π) (tid : Nat) (h : Ctx → Ctx) :
      (s.indicate p tid h).isActive = s.isActive := by
    unfold System.indicate
    split
    · split <;> rfl
    · rfl
  have other {p : π} {dot11nMode : Bool} (up : (dot11nMode && decide (k.1 = p)) = false)
      (on : dot11nMode = true) : k.1 ≠ p := by
    rw [on, Bool.true_and] at up
    exact of_decide_eq_false up
  cases op with
  | peerStart p now dot11nMode =>
    simp only [step]
    split
    · rename_i on
      exact Function.update_of_ne (other up on) ..
    · rfl
  | peerStop p now dot11nMode =>
    simp only [step]
    split
    · rename_i on
      rw [swept]
      exact Function.update_of_ne (other up on) ..
    · rfl
  | delbaReqAll p closeIo delbaIo =>
    simp only [step]
    split
    · rw [swept]
    · rfl
  | iterate p now lastRx io =>
    simp only [step]
    split
    · rw [swept, swept]
    · rfl
  | startAggrNegotiation | resetPowerSave | txMsgCfm | rxMsgCfm | reconfigure => rfl
  | _ => exact congrFun (indicated ..) k.1

omit [DecidableEq ν] in
/-- Nothing is done for the RX side of a peer that is not active. -/
theorem state_of_inactive {s : System π ν} {op : Op π ν} {cfg : TidCfg} {t : Tid} {out : List Out}
    (serves : Serves cfg (s.tid k) (op.handlers s k) t out) (up : op.stops k = false)
    (inactive : s.isActive k.1 = false) : t.rxView.state = (s.tid k).rxView.state := by
  have only {P : Prop} [Decidable P] {h : Ctx → Ctx}
      (served : Serves cfg (s.tid k) (if P then [h] else []) t out)
      (keep : P → ∀ c, (h c).tid.rxView.state = c.tid.rxView.state) :
      t.rxView.state = (s.tid k).rxView.state := by
    obtain ⟨rfl, -⟩ | ⟨holds, c, tid, -, -, rfl, -⟩ := served.guarded
    · rfl
    · rw [keep holds c, tid]
  have absent {p : π} {P : Prop} (at_p : s.isActive p ∧ k.1 = p ∧ P) : False := by
    obtain ⟨active, rfl, -⟩ := at_p
    cases inactive.symm.trans active
  have aside {c c' : Ctx} (aside : RxAside c c') : c'.tid.rxView.state = c.tid.rxView.state :=
    congrArg RxView.state aside.view
  cases op with
  | peerStart p now dot11nMode =>
    refine only serves ?_
    rintro ⟨rfl, rfl⟩
    simp [Op.stops] at up
  | peerStop p now dot11nMode =>
    refine only serves ?_
    rintro ⟨rfl, rfl⟩
    simp [Op.stops] at up
  | startAggrNegotiation p t₀ psMode io =>
    exact only serves fun _ c => aside (startAggrNegotiation_rxAside io psMode c)
  | resetPowerSave p t₀ => exact only serves fun _ c => aside (resetPowerSave_rxAside c)
  | txMsgCfm p t₀ cfm => exact only serves fun _ c => aside (onTxMsgCfm_rxAside cfm c)
  | rxMsgCfm p t₀ =>
    refine only serves ?_
    intro _ c
    rw [(onRxMsgCfm_confirms c).2, RxView.onCfm_state]
  | delbaReqAll p closeIo delbaIo =>
    exact only serves fun here _ => (absent ⟨here.1, here.2, trivial⟩).elim
  | iterate p now lastRx io =>
    simp only [Op.handlers] at serves
    rw [if_neg fun here => absent ⟨here.1, here.2, trivial⟩] at serves
    obtain ⟨rfl, -⟩ := serves
    rfl
  | reconfigure v cfg =>
    obtain ⟨rfl, -⟩ := serves
    rfl
  | _ => exact only serves fun here _ => (absent here).elim

/-- A peer that is not active waits for nothing. -/
theorem step_idle {s : System π ν} {op : Op π ν}
    (h : s.isActive k.1 = false → (s.tid k).rxView.state = .none)
    (inactive : (step s op).isActive k.1 = false) :
    ((step s op).tid k).rxView.state = .none := by
  obtain ⟨out, serves, -⟩ := step_at s op k
  cases up : op.stops k with
  | true =>
    rw [(serves.rxStop up).1]
    rfl
  | false =>
    rw [isActive_of_up up] at inactive
    rw [state_of_inactive serves up inactive]
    exact h inactive

/-- An event does not lose the message that a TID waits for. -/
def Event.Keeps (w : Post π ν) (e : Event π ν) : Prop :=
  ∀ k, e.about k → (w.desk k).Keeps (w.sys.isActive k.1) e

/-- While no awaited message is lost, a TID that waits has one that is still to be reported
on. -/
theorem waiting_tid_has_outstanding (home : π → ν) (cfg : ν → Fin nofTids → TidCfg)
    (maxAggr maxReord : Nat) {w : Post π ν}
    (run : Runs Post.step (fun w e => e.Fair w ∧ e.Keeps w) (.init home cfg maxAggr maxReord) w)
    (k : π × Fin nofTids) (waits : (w.sys.tid k).rx.state.waits = true) :
    ∃ l ∈ w.letters k, l.Outstanding ∧ (w.sys.tid k).rx.state.awaits l.req = true := by
  have live : ∀ k, (w.sys.isActive k.1 = false → (w.sys.tid k).rxView.state = .none) ∧
      (w.desk k).Live := by
    apply run.invariant (P := fun w => ∀ k, (w.sys.isActive k.1 = false →
      (w.sys.tid k).rxView.state = .none) ∧ (w.desk k).Live)
    · exact fun k => ⟨fun _ => rfl, nofun⟩
    · rintro w e before ⟨fair, keeps⟩ k
      obtain ⟨idle, live⟩ := before k
      exact ⟨step_idle idle, (w.step_desk fair k).live (keeps k) idle live⟩
  exact (live k).2 waits

/-- A request that is answered, and whose answer is lost on the air with `io` for the
retransmission. -/
def answerLost (io : Io) : List (Event Unit Unit) :=
  [.call (.peerStart () 0 true),
    .call (.addbaReqRx () 0 ⟨100, 64, 1, 0, 1, rateAdaptive⟩ 5 ⟨true, true⟩),
    .confirm () 0 true, .report () 0 0 1 6 io]

def Post.onePeer : Post Unit Unit :=
  .init id (fun _ _ => ⟨true, true, 10, 16000, 3, 10, 0, 64⟩) 16 16

theorem answerLost_fair (io : Io) :
    Allowed Post.step (fun w e => e.Fair w) .onePeer (answerLost io) := by
  refine ⟨trivial, trivial, trivial, ?_, trivial⟩
  exact ⟨⟨.addbaRes ⟨1, 0, 0, 64⟩, 1, .accepted, false⟩, by decide, rfl, nofun⟩

theorem waiting_tid_has_outstanding_again :
    let w := (answerLost ⟨true, true⟩).foldl Post.step .onePeer
    (w.sys.tid ((), 0)).rx.state = .addbaPositiveResSent ∧
      ∃ l ∈ w.letters ((), 0), l.Outstanding ∧
        (w.sys.tid ((), 0)).rx.state.awaits l.req = true := by
  have run : Runs Post.step (fun w e => e.Fair w ∧ e.Keeps w) .onePeer
      ((answerLost ⟨true, true⟩).foldl Post.step .onePeer) := by
    obtain ⟨start, request, confirm, report, -⟩ := answerLost_fair ⟨true, true⟩
    apply Runs.of_allowed
    refine
      ⟨⟨start, fun _ => nofun⟩, ⟨request, fun _ => nofun⟩, ⟨confirm, ?_⟩, ⟨report, ?_⟩, trivial⟩
    · exact fun _ _ refused => nomatch refused
    · rintro _ rfl _ _ l _ _
      exact .inl (by decide)
  exact ⟨by decide, waiting_tid_has_outstanding id _ 16 16 run ((), 0) (by decide)⟩

/-- No block is free for the retransmission: the TID waits, and nothing is outstanding. -/
theorem failed_retransmission_waits :
    Allowed Post.step (fun w e => e.Fair w) .onePeer (answerLost ⟨false, false⟩) ∧
    let w := (answerLost ⟨false, false⟩).foldl Post.step .onePeer
    (w.sys.tid ((), 0)).rx.state = .addbaPositiveResSent ∧
      ∀ l ∈ w.letters ((), 0), ¬l.Outstanding := by
  exact ⟨answerLost_fair _, by decide⟩

end

end Wave300.Addba
