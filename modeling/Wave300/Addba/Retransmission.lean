import Mathlib.Data.List.Forall2
import Wave300.Addba.Letters

/-!
# Retransmissions

A failed report has a message sent again. The counter that bounds this is shared by all the
messages of a kind, so a report is handled well only if it is about the newest of them.
-/

namespace Wave300.Addba

open Wave300.Lib

variable {π ν : Type} {active : Bool} {k : π × Fin nofTids} {e : Event π ν} {d d' : Desk}

/-! ## What an event leaves of the messages -/

/-- The messages `ls'` are the messages `ls`, about which more is known. -/
def Revised (R : Letter → Letter → Prop) (ls ls' : List Letter) : Prop :=
  List.Forall₂ (fun l l' => l'.req = l.req ∧ l'.exchange = l.exchange ∧ R l l') ls ls'

/-- The fate of the pending messages is settled. -/
def SettledTo (fate : Fate) (l l' : Letter) : Prop :=
  l'.reported = l.reported ∧ (l.fate = .pending ∧ l'.fate = fate ∨ l.fate ≠ .pending ∧ l' = l)

/-- The message is reported on, or nothing happened to it. -/
def Reported (l l' : Letter) : Prop := l'.fate = l.fate ∧ (l' = l ∨ l'.reported = true)

theorem revised_settle (fate : Fate) (ls : List Letter) :
    Revised (SettledTo fate) ls (ls.map (.settle fate)) := by
  unfold Revised
  rw [List.forall₂_map_right_iff, List.forall₂_same]
  intro l _
  unfold Letter.settle
  split
  · rename_i pending
    exact ⟨rfl, rfl, rfl, .inl ⟨pending, rfl⟩⟩
  · rename_i settled
    exact ⟨rfl, rfl, rfl, .inr ⟨settled, rfl⟩⟩

theorem revised_report (i : Nat) (ls : List Letter) :
    Revised Reported ls (ls.modify i .report) := by
  have same (l : Letter) : l.req = l.req ∧ l.exchange = l.exchange ∧ Reported l l :=
    ⟨rfl, rfl, rfl, .inl rfl⟩
  induction ls generalizing i with
  | nil =>
    rw [List.modify_nil]
    exact .nil
  | cons l ls ih =>
    cases i with
    | zero =>
      rw [List.modify_zero_cons]
      refine .cons ⟨rfl, rfl, rfl, .inr rfl⟩ ?_
      rw [List.forall₂_same]
      exact fun x _ => same x
    | succ i =>
      rw [List.modify_succ_cons]
      exact .cons (same l) (ih i)

section
variable {R : Letter → Letter → Prop} {ls ls' : List Letter}

theorem Revised.flip (h : Revised R ls ls') : Revised (fun l' l => R l l') ls' ls := by
  apply List.Forall₂.imp _ (List.Forall₂.flip h)
  rintro l' l ⟨req, exchange, rel⟩
  exact ⟨req.symm, exchange.symm, rel⟩

theorem Revised.mem (h : Revised R ls ls') {l' : Letter} (mem : l' ∈ ls') :
    ∃ l ∈ ls, l'.req = l.req ∧ l'.exchange = l.exchange ∧ R l l' := by
  induction h with
  | nil => cases mem
  | cons head _ ih =>
    obtain rfl | mem := List.mem_cons.1 mem
    · exact ⟨_, List.mem_cons_self, head⟩
    · obtain ⟨l, mem, rel⟩ := ih mem
      exact ⟨l, List.mem_cons_of_mem _ mem, rel⟩

/-- The newest of the messages that are named `u` in a report. -/
def newest (u : BaTxMsg × Bool) (ls : List Letter) : Option Letter :=
  ls.reverse.find? fun l => l.req.umi = u

theorem newest_concat (u : BaTxMsg × Bool) (ls : List Letter) (l : Letter) :
    newest u (ls ++ [l]) = if l.req.umi = u then some l else newest u ls := by
  unfold newest
  rw [List.reverse_append, List.reverse_singleton, List.singleton_append, List.find?_cons]
  by_cases same : l.req.umi = u
  · rw [if_pos same, decide_eq_true same]
  · rw [if_neg same, decide_eq_false same]

theorem Revised.newest (h : Revised R ls ls') {u : BaTxMsg × Bool} {l' : Letter}
    (last : newest u ls' = some l') : ∃ l, newest u ls = some l ∧ l'.req = l.req ∧ R l l' := by
  unfold Addba.newest at last ⊢
  have backwards := List.forall₂_reverse_iff.2 h
  generalize ls.reverse = back, ls'.reverse = back' at last backwards
  induction backwards with
  | nil => cases last
  | @cons l x back back' head _ ih =>
    obtain ⟨req, -, rel⟩ := head
    rw [List.find?_cons] at last ⊢
    rw [← req]
    cases same : decide (x.req.umi = u) with
    | true =>
      rw [same] at last
      obtain rfl := Option.some.inj last
      exact ⟨l, rfl, req, rel⟩
    | false =>
      rw [same] at last
      exact ih last

/-- A message after which none of its kind was sent. -/
theorem newest_of_last {i : Nat} {l : Letter} (on : ls[i]? = some l)
    (last : ∀ x ∈ ls.drop (i + 1), x.req.umi ≠ l.req.umi) : newest l.req.umi ls = some l := by
  obtain ⟨lt, at_i⟩ := List.getElem?_eq_some_iff.1 on
  have parts : ls = ls.take i ++ l :: ls.drop (i + 1) := by
    rw [← at_i, ← List.drop_eq_getElem_cons lt, List.take_append_drop]
  have older : (ls.drop (i + 1)).reverse.find? (fun x => x.req.umi = l.req.umi) = none := by
    apply List.find?_eq_none.2
    intro x mem
    simpa using last x (List.mem_reverse.1 mem)
  unfold newest
  rw [parts, List.reverse_append, List.reverse_cons, List.append_assoc, List.find?_append, older,
    Option.none_or, List.singleton_append, List.find?_cons, decide_eq_true rfl]

/-- How often the response to request number `exchange` was sent. -/
def transmissions (ls : List Letter) (exchange : Nat) : Nat :=
  ls.countP fun l => l.exchange = exchange ∧ l.req.umi = (.addbaResTxReq, false)

theorem Revised.transmissions (h : Revised R ls ls') (exchange : Nat) :
    transmissions ls' exchange = transmissions ls exchange := by
  unfold Addba.transmissions
  induction h with
  | nil => rfl
  | cons head _ ih => rw [List.countP_cons, List.countP_cons, ih, head.1, head.2.1]

theorem transmissions_concat (ls : List Letter) (l : Letter) (exchange : Nat) :
    transmissions (ls ++ [l]) exchange = transmissions ls exchange +
      if l.exchange = exchange ∧ l.req.umi = (.addbaResTxReq, false) then 1 else 0 := by
  unfold transmissions
  rw [List.countP_append, List.countP_singleton]
  simp only [decide_eq_true_eq]

theorem transmissions_post {n : Nat} {req : RxRequest} (other : req.umi ≠ (.addbaResTxReq, false))
    (exchange : Nat) :
    transmissions (ls ++ [Letter.post n req]) exchange = transmissions ls exchange := by
  rw [transmissions_concat, if_neg fun same => other same.2, Nat.add_zero]

theorem transmissions_future {n : Nat} (past : ∀ l ∈ ls, l.exchange < n) :
    transmissions ls n = 0 := by
  apply List.countP_eq_zero.2
  intro l mem
  have lt := past l mem
  simp only [decide_eq_true_eq, not_and]
  omega

end

/-! ## The number of transmissions -/

/-- The TID waits for the report on its response. -/
def RxView.Answering (v : RxView) : Prop :=
  v.state = .addbaPositiveResSent ∨ v.state = .addbaNegativeResSent

/-- The counter keeps up with the transmissions. -/
structure Paced (d : Desk) : Prop where
  past : ∀ l ∈ d.letters, l.exchange ≤ d.exchange
  few : ∀ exchange, transmissions d.letters exchange ≤ rspMaxRetransmissions
  pace : d.view.Answering → transmissions d.letters d.exchange ≤ max 1 d.view.resAttempt ∧
    d.view.resAttempt ≤ rspMaxRetransmissions ∧
    (d.view.resAttempt = 0 → ∃ res, d.view.manMsg = .sent (.addbaRes res))

theorem Paced.revise {R : Letter → Letter → Prop} {ls : List Letter} (h : Paced d)
    (revised : Revised R d.letters ls) : Paced ⟨d.view, d.exchange, ls⟩ where
  past := by
    intro l mem
    obtain ⟨l₀, mem, -, exchange, -⟩ := revised.mem mem
    rw [exchange]
    exact h.past l₀ mem
  few := by
    intro exchange
    rw [revised.transmissions]
    exact h.few exchange
  pace := by
    rw [revised.transmissions]
    exact h.pace

/-- A change of the view alone. -/
theorem Paced.view {v : RxView} (h : Paced d)
    (pace : v.Answering → d.view.Answering ∧
      max 1 d.view.resAttempt ≤ max 1 v.resAttempt ∧ v.resAttempt ≤ rspMaxRetransmissions ∧
      (v.resAttempt = 0 → ∃ res, v.manMsg = .sent (.addbaRes res))) :
    Paced ⟨v, d.exchange, d.letters⟩ where
  past := h.past
  few := h.few
  pace := by
    intro answering
    obtain ⟨before, le, rest⟩ := pace answering
    exact ⟨(h.pace before).1.trans le, rest⟩

/-- The counter is active by the time the message is free again. -/
theorem Paced.counting (h : Paced d) (answering : d.view.Answering)
    (msg : d.view.manMsg = .detached) : d.view.resAttempt ≠ 0 := by
  intro zero
  obtain ⟨res, sent⟩ := (h.pace answering).2.2 zero
  cases msg.symm.trans sent

theorem Paced.next (h : Paced d) (answers : Bool) :
    Paced ⟨d.view, d.exchange + answers.toNat, d.letters⟩ := by
  cases answers with
  | false => exact h
  | true =>
    have past : ∀ l ∈ d.letters, l.exchange < d.exchange + 1 :=
      fun l mem => Nat.lt_succ_of_le (h.past l mem)
    constructor
    case past => exact fun l mem => (past l mem).le
    case few => exact h.few
    case pace =>
      intro answering
      refine ⟨?_, (h.pace answering).2⟩
      change transmissions d.letters (d.exchange + 1) ≤ _
      rw [transmissions_future past]
      exact Nat.zero_le _

theorem Paced.delba (h : Paced d) (originator : Bool) :
    Paced ⟨d.view, d.exchange, d.letters ++ [Letter.post d.exchange (.delbaReq originator)]⟩ := by
  have same : ∀ exchange,
      transmissions (d.letters ++ [Letter.post d.exchange (.delbaReq originator)]) exchange =
        transmissions d.letters exchange := transmissions_post nofun
  constructor
  case past =>
    intro l mem
    obtain mem | mem := List.mem_append.1 mem
    · exact h.past l mem
    · rw [List.mem_singleton.1 mem]
      exact Nat.le_refl _
  case few =>
    intro exchange
    rw [same]
    exact h.few exchange
  case pace =>
    rw [same]
    exact h.pace

/-- A response is sent, which makes `sent` transmissions of it. -/
theorem Paced.respond {v : RxView} {res : AddbaRes} (h : Paced d)
    (room : transmissions d.letters d.exchange < rspMaxRetransmissions)
    (pace : v.Answering → transmissions d.letters d.exchange < max 1 v.resAttempt ∧
      v.resAttempt ≤ rspMaxRetransmissions ∧
      (v.resAttempt = 0 → ∃ res, v.manMsg = .sent (.addbaRes res))) :
    Paced ⟨v, d.exchange, d.letters ++ [Letter.post d.exchange (.addbaRes res)]⟩ := by
  have more (exchange : Nat) : transmissions (d.letters ++ [Letter.post d.exchange (.addbaRes res)])
      exchange = transmissions d.letters exchange + if d.exchange = exchange then 1 else 0 := by
    rw [transmissions_concat]
    congr 1
    simp only [Letter.post, RxRequest.umi, and_true]
  constructor
  case past =>
    intro l mem
    obtain mem | mem := List.mem_append.1 mem
    · exact h.past l mem
    · rw [List.mem_singleton.1 mem]
      exact Nat.le_refl _
  case few =>
    intro exchange
    rw [more]
    have before := h.few exchange
    split
    · rename_i same
      rw [← same]
      exact room
    · exact before
  case pace =>
    intro answering
    obtain ⟨lt, rest⟩ := pace answering
    refine ⟨?_, rest⟩
    change transmissions (d.letters ++ _) d.exchange ≤ _
    rw [more, if_pos rfl]
    exact lt

theorem resState_answering {v : RxView} {res : AddbaRes} (h : v.state = resState res) :
    v.Answering := by
  unfold RxView.Answering
  rw [h]
  unfold resState
  split
  · exact .inl rfl
  · exact .inr rfl

theorem RxMove.paced {answers : Bool} {v' : RxView} {sent : List RxRequest}
    (move : RxMove answers d.view v' sent) (h : Paced d) :
    Paced ⟨v', d.exchange + answers.toNat,
      d.letters ++ sent.map (.post (d.exchange + answers.toNat))⟩ := by
  have next := h.next answers
  cases move with
  | keep =>
    rw [List.map_nil, List.append_nil]
    exact next
  | reset =>
    rw [List.map_nil, List.append_nil]
    exact next.view nofun
  | unanswered res asked =>
    rw [List.map_nil, List.append_nil]
    exact next.view nofun
  | respond res asked msg =>
    subst asked
    have none : transmissions d.letters (d.exchange + 1) = 0 :=
      transmissions_future fun l mem => Nat.lt_succ_of_le (h.past l mem)
    apply next.respond
    · exact none.trans_lt (by decide)
    · intro _
      exact ⟨none.trans_lt (lt_max_of_lt_left Nat.one_pos), Nat.zero_le _, fun _ => ⟨res, rfl⟩⟩
  | delbaTx msg =>
    apply (next.view _).delba true
    intro answering
    refine ⟨answering, le_rfl, (h.pace answering).2.1, ?_⟩
    intro zero
    exact absurd zero (h.counting answering msg)
  | delbaRx state waits msg =>
    apply (next.view _).delba false
    intro answering
    obtain rfl | rfl := waits <;> obtain ⟨⟨⟩⟩ | ⟨⟨⟩⟩ := answering

theorem RxReport.paced {io : Io} {req : RxRequest} {ok : Bool} {v' : RxView}
    {sent : List RxRequest} (report : RxReport io req ok d.view v' sent) (h : Paced d) :
    Paced ⟨v', d.exchange, d.letters ++ sent.map (.post d.exchange)⟩ := by
  cases report with
  | resAgain res waits again msg =>
    have active := h.counting waits msg
    obtain ⟨few, -, -⟩ := h.pace waits
    have count : transmissions d.letters d.exchange ≤ d.view.resAttempt := by omega
    apply h.respond
    · omega
    · intro _
      refine ⟨?_, again, ?_⟩
      · change _ < max 1 (d.view.resAttempt + 1)
        omega
      · exact nofun
  | delbaAgain state waits waits' again msg =>
    apply (h.view _).delba false
    intro answering
    obtain rfl | rfl := waits' <;> obtain ⟨⟨⟩⟩ | ⟨⟨⟩⟩ := answering
  | txAgain msg =>
    apply (h.view _).delba true
    intro answering
    refine ⟨answering, le_rfl, (h.pace answering).2.1, ?_⟩
    intro zero
    exact absurd zero (h.counting answering msg)
  | resKept res waits again busy =>
    rw [List.map_nil, List.append_nil]
    apply h.view
    intro _
    refine ⟨waits, ?_, again, nofun⟩
    change max 1 d.view.resAttempt ≤ max 1 (d.view.resAttempt + 1)
    omega
  | resLate res ok ended =>
    rw [List.map_nil, List.append_nil]
    exact h.view fun answering => (not_or.2 ended answering).elim
  | accepted res waits =>
    rw [List.map_nil, List.append_nil]
    apply h.view
    rintro (⟨⟨⟩⟩ | ⟨⟨⟩⟩)
  | refused | resLost | closed | delbaLost =>
    rw [List.map_nil, List.append_nil]
    exact h.view nofun
  | delbaLate | delbaKept | txClosed | txLost | txKept =>
    rw [List.map_nil, List.append_nil]
    exact h.view fun answering => ⟨answering, le_rfl, (h.pace answering).2⟩

theorem Paced.onCfm (h : Paced d) : Paced ⟨d.view.onCfm, d.exchange, d.letters⟩ := by
  apply h.view
  unfold RxView.onCfm
  split
  · rename_i req msg
    cases req with
    | addbaRes res =>
      intro answering
      refine ⟨answering, ?_⟩
      have most := (h.pace answering).2.1
      change max 1 d.view.resAttempt ≤ max 1 (if d.view.resAttempt = 0 then 1 else _) ∧
        (if d.view.resAttempt = 0 then 1 else _) ≤ _ ∧
        ((if d.view.resAttempt = 0 then 1 else _) = 0 → _)
      split
      · rename_i zero
        rw [zero]
        exact ⟨le_rfl, by decide, nofun⟩
      · rename_i active
        exact ⟨le_rfl, most, fun zero => absurd zero active⟩
    | delbaReq originator =>
      -- the message is not the response, so that has been confirmed before
      have other : d.view.Answering → d.view.Answering ∧ max 1 d.view.resAttempt ≤
          max 1 d.view.resAttempt ∧ d.view.resAttempt ≤ rspMaxRetransmissions ∧
          (d.view.resAttempt = 0 → ∃ res, ManMsg.detached = .sent (RxRequest.addbaRes res)) := by
        intro answering
        refine ⟨answering, le_rfl, (h.pace answering).2.1, ?_⟩
        intro zero
        obtain ⟨res, sent⟩ := (h.pace answering).2.2 zero
        cases msg.symm.trans sent
      cases originator <;> exact other
  · exact fun answering => ⟨answering, le_rfl, (h.pace answering).2⟩

/-- However the reports come, a response is not sent more often than it may be. -/
theorem DeskStep.paced (step : DeskStep active k e d d') (h : Paced d) : Paced d' := by
  cases step with
  | move answers aside moved => exact moved.paced h
  | stop => exact (h.revise (revised_settle _ _)).view nofun
  | confirm accepted => exact (h.revise (revised_settle _ _)).onCfm
  | report i status now io l up on first known handled =>
    exact handled.paced (d := ⟨d.view, d.exchange, d.letters.modify i .report⟩)
      (h.revise (revised_report _ _))
  | unheard i status now io down => exact h.revise (revised_report _ _)

/-! ## The counters and the messages they count for -/

/-- The counters are those of the newest messages. -/
structure Tuned (d : Desk) : Prop where
  link : ∀ l ∈ d.letters, l.fate = .pending → d.view.manMsg = .sent l.req
  res : d.view.Answering → ∃ l, newest (.addbaResTxReq, false) d.letters = some l ∧
    l.req = .addbaRes d.view.res ∧ (l.fate ≠ .pending → d.view.resAttempt ≠ 0)
  delba : d.view.state = .delbaReqSent → ∀ l, newest (.delbaReq, false) d.letters = some l →
    l.fate ≠ .pending → d.view.delbaAttempt ≠ 0
  txDelba : ∀ l, newest (.delbaReq, true) d.letters = some l → l.fate = .accepted →
    l.reported = false → d.view.txDelbaAttempt ≠ 0

theorem newest_post_ne {u : BaTxMsg × Bool} {ls : List Letter} {n : Nat} {req : RxRequest}
    (other : req.umi ≠ u) : newest u (ls ++ [Letter.post n req]) = newest u ls := by
  rw [newest_concat]
  exact if_neg other

theorem newest_post_eq {ls : List Letter} (n : Nat) (req : RxRequest) :
    newest req.umi (ls ++ [Letter.post n req]) = some (.post n req) := by
  rw [newest_concat]
  exact if_pos rfl

section
variable {v : RxView} {n : Nat}

/-- A message is sent while none is pending. -/
theorem Tuned.link_post {req : RxRequest} (h : Tuned d) (free : d.view.manMsg = .detached)
    (msg : v.manMsg = .sent req) :
    ∀ l ∈ d.letters ++ [Letter.post n req], l.fate = .pending → v.manMsg = .sent l.req := by
  intro l mem pending
  obtain mem | mem := List.mem_append.1 mem
  · cases free.symm.trans (h.link l mem pending)
  · rw [List.mem_singleton.1 mem, msg]
    rfl

theorem Tuned.postRes (h : Tuned d) (free : d.view.manMsg = .detached)
    (msg : v.manMsg = .sent (.addbaRes v.res)) (state : v.Answering)
    (tx : v.txDelbaAttempt = d.view.txDelbaAttempt) :
    Tuned ⟨v, n, d.letters ++ [Letter.post n (.addbaRes v.res)]⟩ where
  link := h.link_post free msg
  res := fun _ => ⟨.post n (.addbaRes v.res), newest_post_eq n (.addbaRes v.res), rfl,
    fun settled => absurd rfl settled⟩
  delba := by
    intro delba
    obtain state | state := state <;> cases state.symm.trans delba
  txDelba := by
    have other : (RxRequest.addbaRes v.res).umi ≠ (.delbaReq, true) := by
      simp only [RxRequest.umi, ne_eq, Prod.mk.injEq, reduceCtorEq, false_and, not_false_eq_true]
    rw [newest_post_ne other, tx]
    exact h.txDelba

theorem Tuned.postDelba (h : Tuned d) (free : d.view.manMsg = .detached)
    (msg : v.manMsg = .sent (.delbaReq false)) (state : ¬v.Answering)
    (tx : v.txDelbaAttempt = d.view.txDelbaAttempt) :
    Tuned ⟨v, n, d.letters ++ [Letter.post n (.delbaReq false)]⟩ where
  link := h.link_post free msg
  res := fun answering => absurd answering state
  delba := by
    intro _ l last settled
    obtain rfl := Option.some.inj ((newest_post_eq n (.delbaReq false)).symm.trans last)
    exact absurd rfl settled
  txDelba := by
    rw [newest_post_ne (by decide), tx]
    exact h.txDelba

theorem Tuned.postTxDelba (h : Tuned d) (free : d.view.manMsg = .detached)
    (msg : v.manMsg = .sent (.delbaReq true)) (state : v.state = d.view.state)
    (res : v.res = d.view.res) (attempt : v.resAttempt = d.view.resAttempt)
    (delba : v.delbaAttempt = d.view.delbaAttempt) :
    Tuned ⟨v, n, d.letters ++ [Letter.post n (.delbaReq true)]⟩ where
  link := h.link_post free msg
  res := by
    unfold RxView.Answering
    rw [newest_post_ne (by decide), state, res, attempt]
    exact h.res
  delba := by
    rw [newest_post_ne (by decide), state, delba]
    exact h.delba
  txDelba := by
    intro l last accepted
    obtain rfl := Option.some.inj ((newest_post_eq n (.delbaReq true)).symm.trans last)
    cases accepted

/-- A change of the view that keeps the message. -/
theorem Tuned.view (h : Tuned d) (msg : v.manMsg = d.view.manMsg)
    (res : v.Answering → d.view.Answering ∧ v.res = d.view.res ∧
      (d.view.resAttempt ≠ 0 → v.resAttempt ≠ 0))
    (delba : v.state = .delbaReqSent → d.view.state = .delbaReqSent ∧
      (d.view.delbaAttempt ≠ 0 → v.delbaAttempt ≠ 0))
    (tx : d.view.txDelbaAttempt ≠ 0 → v.txDelbaAttempt ≠ 0) :
    Tuned ⟨v, n, d.letters⟩ where
  link := by
    rw [msg]
    exact h.link
  res := by
    intro answering
    obtain ⟨before, cached, active⟩ := res answering
    obtain ⟨l, last, content, counts⟩ := h.res before
    refine ⟨l, last, ?_, fun settled => active (counts settled)⟩
    rw [content, ← cached]
  delba := by
    intro state l last settled
    obtain ⟨before, active⟩ := delba state
    exact active (h.delba before l last settled)
  txDelba := fun l last accepted fresh => tx (h.txDelba l last accepted fresh)

end

theorem delba_not_answering {v : RxView}
    (waits : v.state = .delbaReqSent ∨ v.state = .delbaReqSentWithoutReordering) :
    ¬v.Answering := by
  rintro (pos | neg)
  · obtain waits | waits := waits <;> cases waits.symm.trans pos
  · obtain waits | waits := waits <;> cases waits.symm.trans neg

theorem RxMove.tuned {answers : Bool} {v' : RxView} {sent : List RxRequest} {n : Nat}
    (move : RxMove answers d.view v' sent) (h : Tuned d) :
    Tuned ⟨v', n, d.letters ++ sent.map (.post n)⟩ := by
  cases move with
  | keep =>
    rw [List.map_nil, List.append_nil]
    exact ⟨h.link, h.res, h.delba, h.txDelba⟩
  | reset =>
    rw [List.map_nil, List.append_nil]
    exact h.view rfl nofun nofun id
  | unanswered res asked =>
    rw [List.map_nil, List.append_nil]
    exact h.view rfl nofun nofun id
  | respond res asked msg =>
    exact h.postRes msg rfl (resState_answering rfl) rfl
  | delbaTx msg => exact h.postTxDelba msg rfl rfl rfl rfl rfl
  | delbaRx state waits msg => exact h.postDelba msg rfl (delba_not_answering waits) rfl

/-- The counter of the messages like `req`. -/
def RxView.attempt (v : RxView) : RxRequest → Nat
  | .addbaRes _ => v.resAttempt
  | .delbaReq false => v.delbaAttempt
  | .delbaReq true => v.txDelbaAttempt

/-- A confirmation activates the counter of the message that was out. -/
theorem RxView.onCfm_attempt {v : RxView} {req : RxRequest}
    (h : v.attempt req ≠ 0 ∨ v.manMsg = .sent req) : v.onCfm.attempt req ≠ 0 := by
  have active (n : Nat) : (if n = 0 then 1 else n) ≠ 0 := by
    split
    · exact Nat.one_ne_zero
    · assumption
  unfold RxView.onCfm
  cases msg : v.manMsg with
  | sent out =>
    rw [msg] at h
    simp only
    cases out with
    | addbaRes res =>
      cases req with
      | addbaRes res' => exact active _
      | delbaReq originator =>
        obtain counted | other := h
        · cases originator <;> exact counted
        · cases other
    | delbaReq originator =>
      obtain counted | same := h
      · cases originator with
        | true =>
          cases req with
          | addbaRes res => exact counted
          | delbaReq originator' =>
            cases originator' with
            | true => exact active _
            | false => exact counted
        | false =>
          cases req with
          | addbaRes res => exact counted
          | delbaReq originator' =>
            cases originator' with
            | true => exact counted
            | false => exact active _
      · obtain rfl := ManMsg.sent.inj same
        cases originator <;> exact active _
  | _ =>
    rw [msg] at h
    obtain counted | other := h
    · exact counted
    · cases other

/-- A message that is no longer pending has its counter active, once what was pending is
settled. -/
theorem Tuned.attempt_onCfm {l : Letter} (h : Tuned d) (mem : l ∈ d.letters)
    (counts : l.fate ≠ .pending → d.view.attempt l.req ≠ 0) :
    d.view.onCfm.attempt l.req ≠ 0 := by
  apply RxView.onCfm_attempt
  by_cases pending : l.fate = .pending
  · exact .inr (h.link l mem pending)
  · exact .inl (counts pending)

theorem newest_mem {u : BaTxMsg × Bool} {ls : List Letter} {l : Letter}
    (last : newest u ls = some l) : l ∈ ls ∧ l.req.umi = u := by
  have found := List.find?_some last
  exact ⟨List.mem_reverse.1 (List.mem_of_find?_eq_some last), of_decide_eq_true found⟩

theorem eq_delbaReq {req : RxRequest} {originator : Bool}
    (kind : req.umi = (.delbaReq, originator)) : req = .delbaReq originator := by
  cases req with
  | addbaRes res => simp [RxRequest.umi] at kind
  | delbaReq originator' => rw [(Prod.mk.inj kind).2]

/-- What is pending is settled: the counter of the message that was out is active by then. -/
theorem Tuned.confirm {fate : Fate} (h : Tuned d) (settles : fate ≠ .pending) (n : Nat) :
    Tuned ⟨d.view.onCfm, n, d.letters.map (.settle fate)⟩ := by
  have revised := revised_settle fate d.letters
  have state : d.view.onCfm.state = d.view.state := RxView.onCfm_state _
  constructor
  case link =>
    intro l' mem pending
    obtain ⟨l, mem, -, -, -, ⟨-, settled⟩ | ⟨other, rfl⟩⟩ := revised.mem mem
    · exact absurd (settled.symm.trans pending) settles
    · exact absurd pending other
  case res =>
    intro answering
    unfold RxView.Answering at answering
    rw [state] at answering
    obtain ⟨l, last, content, counts⟩ := h.res answering
    obtain ⟨l', last', req, -⟩ := revised.flip.newest last
    refine ⟨l', last', ?_, ?_⟩
    · rw [← req, content, RxView.onCfm_res]
    · intro _
      have active := h.attempt_onCfm (newest_mem last).1 (by rw [content]; exact counts)
      rw [content] at active
      exact active
  case delba =>
    intro reordering l' last _
    rw [state] at reordering
    obtain ⟨l, last, -⟩ := revised.newest last
    obtain ⟨mem, kind⟩ := newest_mem last
    have delba := eq_delbaReq kind
    have active := h.attempt_onCfm mem (by rw [delba]; exact h.delba reordering l last)
    rw [delba] at active
    exact active
  case txDelba =>
    intro l' last accepted fresh
    obtain ⟨l, last, -, reported, settled⟩ := revised.newest last
    obtain ⟨mem, kind⟩ := newest_mem last
    have delba := eq_delbaReq kind
    have active := h.attempt_onCfm mem (by
      intro before
      obtain ⟨pending, -⟩ | ⟨-, rfl⟩ := settled
      · exact absurd pending before
      · rw [delba]
        exact h.txDelba l' last accepted fresh)
    rw [delba] at active
    exact active

theorem Tuned.report (h : Tuned d) (i n : Nat) :
    Tuned ⟨d.view, n, d.letters.modify i .report⟩ := by
  have revised := revised_report i d.letters
  constructor
  case link =>
    intro l' mem pending
    obtain ⟨l, mem, req, -, fate, -⟩ := revised.mem mem
    rw [req]
    exact h.link l mem (fate.symm.trans pending)
  case res =>
    intro answering
    obtain ⟨l, last, content, counts⟩ := h.res answering
    obtain ⟨l', last, req, fate, -⟩ := revised.flip.newest last
    refine ⟨l', last, req.symm.trans content, ?_⟩
    rw [fate]
    exact counts
  case delba =>
    intro state l' last settled
    obtain ⟨l, last, -, fate, -⟩ := revised.newest last
    rw [fate] at settled
    exact h.delba state l last settled
  case txDelba =>
    intro l' last accepted fresh
    obtain ⟨l, last, -, -, rfl | reported⟩ := revised.newest last
    · exact h.txDelba l' last accepted fresh
    · cases fresh.symm.trans reported

theorem Tuned.stop (h : Tuned d) (n : Nat) :
    Tuned ⟨{ d.view.reset with manMsg := .detached }, n, d.letters.map (.settle .cancelled)⟩ := by
  have revised := revised_settle .cancelled d.letters
  constructor
  case link =>
    intro l' mem pending
    obtain ⟨l, mem, -, -, -, ⟨-, settled⟩ | ⟨other, rfl⟩⟩ := revised.mem mem
    · cases settled.symm.trans pending
    · exact absurd pending other
  case res => exact nofun
  case delba => exact nofun
  case txDelba =>
    intro l' last accepted fresh
    obtain ⟨l, last, -, -, ⟨-, settled⟩ | ⟨-, rfl⟩⟩ := revised.newest last
    · cases settled.symm.trans accepted
    · exact h.txDelba l' last accepted fresh

/-- A report on message `l`, the counters being tuned. A failed report on a DELBA of the
originator has to be about the newest one. -/
theorem RxReport.tuned {io : Io} {req : RxRequest} {ok : Bool} {v' : RxView}
    {sent : List RxRequest} {n : Nat} (report : RxReport io req ok d.view v' sent) (h : Tuned d)
    (ended : ok = false → req = .delbaReq true →
      ∀ l, newest (.delbaReq, true) d.letters = some l → l.reported = true) :
    Tuned ⟨v', n, d.letters ++ sent.map (.post n)⟩ := by
  cases report with
  | resAgain res waits again msg => exact h.postRes msg rfl (resState_answering rfl) rfl
  | delbaAgain state waits waits' again msg =>
    exact h.postDelba msg rfl (delba_not_answering waits') rfl
  | txAgain msg => exact h.postTxDelba msg rfl rfl rfl rfl rfl
  | txLost =>
    rw [List.map_nil, List.append_nil]
    refine ⟨h.link, h.res, h.delba, ?_⟩
    intro l last _ fresh
    cases (ended rfl rfl l last).symm.trans fresh
  | accepted res waits =>
    rw [List.map_nil, List.append_nil]
    exact h.view rfl (by rintro (⟨⟨⟩⟩ | ⟨⟨⟩⟩)) nofun id
  | resLate res ok ended =>
    rw [List.map_nil, List.append_nil]
    exact h.view rfl (fun answering => (not_or.2 ended answering).elim)
      (fun state => ⟨state, id⟩) id
  | delbaLate ok ended =>
    rw [List.map_nil, List.append_nil]
    exact h.view rfl (fun answering => ⟨answering, rfl, id⟩) (fun state => absurd state ended.1) id
  | resKept res waits again busy =>
    rw [List.map_nil, List.append_nil]
    exact h.view rfl (fun answering => ⟨answering, rfl, fun _ => Nat.succ_ne_zero _⟩)
      (fun state => ⟨state, id⟩) id
  | delbaKept waits again busy =>
    rw [List.map_nil, List.append_nil]
    exact h.view rfl (fun answering => ⟨answering, rfl, id⟩)
      (fun state => ⟨state, fun _ => Nat.succ_ne_zero _⟩) id
  | txKept =>
    rw [List.map_nil, List.append_nil]
    exact h.view rfl (fun answering => ⟨answering, rfl, id⟩) (fun state => ⟨state, id⟩)
      (fun _ => Nat.succ_ne_zero _)
  | txClosed =>
    rw [List.map_nil, List.append_nil]
    exact ⟨h.link, h.res, h.delba, h.txDelba⟩
  | refused | resLost | closed | delbaLost =>
    rw [List.map_nil, List.append_nil]
    exact h.view rfl nofun nofun id

/-! ## Reports in time -/

/-- A failed report on a message like `req` is answered by sending one again. -/
def RxView.Repeats (v : RxView) : RxRequest → Prop
  | .addbaRes _ => v.Answering
  | .delbaReq false => v.state = .delbaReqSent
  | .delbaReq true => True

/-- A failed report that may have a message sent again is about the newest one, and for a
DELBA of the originator its confirmation has reached the module. -/
def Desk.Timely (d : Desk) (active : Bool) : Event π ν → Prop
  | .report _ _ i status _ _ => active = true → status ≠ umiOk → ∀ l, d.letters[i]? = some l →
      d.view.Repeats l.req → (∀ x ∈ d.letters.drop (i + 1), x.req.umi ≠ l.req.umi) ∧
        (l.req = .delbaReq true → l.fate = .accepted)
  | _ => True

theorem DeskStep.tuned (step : DeskStep active k e d d') (timely : e.about k → d.Timely active e)
    (h : Tuned d) : Tuned d' := by
  cases step with
  | move answers aside moved => exact moved.tuned h
  | stop => exact h.stop _
  | confirm accepted =>
    apply h.confirm
    cases accepted <;> exact nofun
  | report i status now io l up on first known handled =>
    refine handled.tuned (d := ⟨d.view, d.exchange, d.letters.modify i .report⟩) (h.report i _) ?_
    intro failed originator l' last
    obtain ⟨newer, -⟩ :=
      timely rfl up (of_decide_eq_false failed) l on (by rw [originator]; trivial)
    have on' : (d.letters.modify i .report)[i]? = some l.report := by
      rw [List.getElem?_modify_eq, on]
      rfl
    have last' := newest_of_last on' (by
      rw [List.drop_modify_of_lt _ _ _ _ (Nat.lt_succ_self i)]
      exact newer)
    rw [show l.report.req.umi = (.delbaReq, true) by rw [Letter.report, originator]; rfl] at last'
    obtain rfl := Option.some.inj (last'.symm.trans last)
    rfl
  | unheard i status now io down => exact h.report i _

/-- The assertion of the handler of a failed report, where it is reached. -/
def Tid.Asserts (t : Tid) : RxRequest → Prop
  | .addbaRes _ => t.rx.state = .addbaPositiveResSent ∨ t.rx.state = .addbaNegativeResSent →
      t.rx.addbaResAttempt ≠ 0
  | .delbaReq false => t.rx.state = .delbaReqSent → t.rx.delbaReqAttempt ≠ 0
  | .delbaReq true => t.tx.state = .none ∨ t.tx.state = .delAggrReqSent →
      t.tx.delbaReqAttempt ≠ 0

instance (t : Tid) : (req : RxRequest) → Decidable (t.Asserts req)
  | .addbaRes _ => inferInstanceAs (Decidable (_ → _))
  | .delbaReq false => inferInstanceAs (Decidable (_ → _))
  | .delbaReq true => inferInstanceAs (Decidable (_ → _))

theorem Tuned.asserts {t : Tid} {n i : Nat} {ls : List Letter} {l : Letter}
    (h : Tuned ⟨t.rxView, n, ls⟩) (on : ls[i]? = some l) (fresh : l.reported = false)
    (confirmed : l.fate ≠ .pending) (timely : t.rxView.Repeats l.req →
      (∀ x ∈ ls.drop (i + 1), x.req.umi ≠ l.req.umi) ∧ (l.req = .delbaReq true →
        l.fate = .accepted)) : t.Asserts l.req := by
  have last (repeats : t.rxView.Repeats l.req) := newest_of_last on (timely repeats).1
  cases same : l.req with
  | addbaRes res =>
    rw [same] at last timely
    intro answering
    obtain ⟨l', last', -, counts⟩ := h.res answering
    obtain rfl := Option.some.inj (last'.symm.trans (last answering))
    exact counts confirmed
  | delbaReq originator =>
    rw [same] at last timely
    cases originator with
    | true =>
      intro _
      exact h.txDelba l (last trivial) ((timely trivial).2 rfl) fresh
    | false =>
      intro reordering
      exact h.delba reordering l (last reordering) confirmed

/-- What is sent on a failed report is the message that the report is about. -/
theorem RxReport.repeats {io : Io} {l : Letter} {ok : Bool} {v' : RxView}
    {sent : List RxRequest} {i : Nat} (report : RxReport io l.req ok d.view v' sent) (h : Tuned d)
    (on : d.letters[i]? = some l) (timely : ok = false → d.view.Repeats l.req →
      ∀ x ∈ d.letters.drop (i + 1), x.req.umi ≠ l.req.umi) :
    ∀ req ∈ sent, req = l.req ∧ newest l.req.umi d.letters = some l := by
  have last (failed : ok = false) (repeats : d.view.Repeats l.req) :=
    newest_of_last on (timely failed repeats)
  generalize same : l.req = req at report last
  intro x mem
  cases report with
  | resAgain res waits again msg =>
    obtain ⟨l', last', content, -⟩ := h.res waits
    have newest := last rfl waits
    obtain rfl := Option.some.inj (last'.symm.trans newest)
    rw [List.mem_singleton.1 mem]
    exact ⟨content.symm.trans same, newest⟩
  | delbaAgain state waits waits' again msg =>
    rw [List.mem_singleton.1 mem]
    exact ⟨rfl, last rfl waits⟩
  | txAgain msg =>
    rw [List.mem_singleton.1 mem]
    exact ⟨rfl, last rfl trivial⟩
  | _ => cases mem

/-! ## Runs -/

section
variable [DecidableEq π] [DecidableEq ν]

/-- A message is confirmed before it is reported on. -/
def Event.Ordered (w : Post π ν) : Event π ν → Prop
  | .report p t i _ _ _ => ∀ l, (w.letters (p, t))[i]? = some l → l.fate ≠ .pending
  | _ => True

@[inherit_doc Desk.Timely]
def Event.Timely (w : Post π ν) (e : Event π ν) : Prop :=
  ∀ k, e.about k → (w.desk k).Timely (w.sys.isActive k.1) e

/-- A response is sent at most as often as it may be. While every failed report is in time,
the counters are active when a handler asserts it, and what is sent again is the message
reported on. -/
theorem retransmissions_bounded_and_matched (home : π → ν) (cfg : ν → Fin nofTids → TidCfg)
    (maxAggr maxReord : Nat) :
    (∀ w : Post π ν, Runs Post.step (fun w e => e.Fair w ∧ e.Ordered w)
        (.init home cfg maxAggr maxReord) w →
      ∀ k exchange, transmissions (w.letters k) exchange ≤ rspMaxRetransmissions) ∧
    ∀ w : Post π ν, Runs Post.step (fun w e => (e.Fair w ∧ e.Ordered w) ∧ e.Timely w)
        (.init home cfg maxAggr maxReord) w →
      ∀ p t i status now io l, (w.letters (p, t))[i]? = some l → w.sys.isActive p = true →
        status ≠ umiOk → (Event.report p t i status now io).Fair w →
        (Event.report p t i status now io).Ordered w →
        (Event.report p t i status now io).Timely w →
        (w.sys.tid (p, t)).Asserts l.req ∧
        ∃ sent, (w.step (.report p t i status now io)).letters (p, t) =
            (w.letters (p, t)).modify i .report ++ sent ∧
          ∀ x ∈ sent, x.req = l.req ∧ newest l.req.umi (w.letters (p, t)) = some l := by
  constructor
  · intro w run k exchange
    have paced : ∀ k, Paced (w.desk k) := by
      apply run.invariant (P := fun w => ∀ k, Paced (w.desk k))
      · exact fun k => ⟨nofun, fun _ => Nat.zero_le _, nofun⟩
      · exact fun w e before ok k => (w.step_desk ok.1 k).paced (before k)
    exact (paced k).few exchange
  · intro w run p t i status now io l on active failed fair ordered timely
    have tuned : ∀ k, Tuned (w.desk k) := by
      apply run.invariant (P := fun w => ∀ k, Tuned (w.desk k))
      · exact fun k => ⟨nofun, nofun, nofun, nofun⟩
      · exact fun w e before ok k => (w.step_desk ok.1.1 k).tuned (ok.2 k) (before k)
    have inTime := timely (p, t) rfl active failed l on
    have step := w.step_desk fair (p, t)
    obtain ⟨l', on', fresh, -⟩ := fair
    obtain rfl := Option.some.inj (on.symm.trans on')
    refine ⟨(tuned (p, t)).asserts on fresh (ordered l on) inTime, ?_⟩
    generalize w.step (.report p t i status now io) = w' at step ⊢
    generalize after : w'.desk (p, t) = d' at step
    rw [show w'.letters (p, t) = d'.letters by rw [← after]; rfl]
    rw [active] at step
    cases step with
    | move answers aside moved => exact absurd rfl aside
    | stop aside => exact absurd rfl aside
    | unheard i status now io down => cases down
    | @report _ v' sent i status now io l' up on' first known handled =>
      obtain rfl := Option.some.inj (on.symm.trans on')
      refine ⟨_, rfl, ?_⟩
      intro x mem
      obtain ⟨req, again, rfl⟩ := List.mem_map.1 mem
      exact handled.repeats (tuned (p, t)) on (fun _ repeats => (inTime repeats).1) req again

end

/-- Two exchanges with one peer: the second request comes after a DELBA. The response to it
is confirmed or not when the report on the first response is due. -/
def twoExchanges (confirmed : Bool) : List (Event Unit Unit) :=
  [Event.call (.peerStart () 0 true),
    .call (.addbaReqRx () 0 ⟨100, 64, 1, 0, 1, rateAdaptive⟩ 5 ⟨true, true⟩),
    .confirm () 0 true, .call (.delbaReqRx () 0 true ⟨true, true⟩),
    .call (.addbaReqRx () 0 ⟨200, 64, 2, 0, 1, rateAdaptive⟩ 6 ⟨true, true⟩)] ++
  if confirmed then [Event.confirm () 0 true] else []

def Post.twoExchanges (confirmed : Bool) : Post Unit Unit :=
  (Addba.twoExchanges confirmed).foldl step
    (.init id (fun _ _ => ⟨true, true, 10, 16000, 3, 10, 0, 64⟩) 16 16)

theorem twoExchanges_run (confirmed : Bool) :
    Runs Post.step (fun w e => (e.Fair w ∧ e.Ordered w) ∧ e.Timely w)
      (.init id (fun _ _ => ⟨true, true, 10, 16000, 3, 10, 0, 64⟩) 16 16)
      (.twoExchanges confirmed) := by
  have called {op : Op Unit Unit} (w : Post Unit Unit) (call : op.Call) :
      ((Event.call op).Fair w ∧ (Event.call op).Ordered w) ∧ (Event.call op).Timely w :=
    ⟨⟨call, trivial⟩, fun _ => nofun⟩
  have confirms (w : Post Unit Unit) : ((Event.confirm () 0 true).Fair w ∧
      (Event.confirm () 0 true).Ordered w) ∧ (Event.confirm () 0 true).Timely w :=
    ⟨⟨trivial, trivial⟩, fun _ _ => trivial⟩
  apply Runs.of_allowed
  cases confirmed with
  | true =>
    exact ⟨called _ trivial, called _ trivial, confirms _, called _ trivial, called _ trivial,
      confirms _, trivial⟩
  | false =>
    exact ⟨called _ trivial, called _ trivial, confirms _, called _ trivial, called _ trivial,
      trivial⟩

/-- The report on the second response, in time. -/
theorem retransmissions_bounded_and_matched_twice :
    let w := Post.twoExchanges true
    (w.sys.tid ((), 0)).Asserts (.addbaRes ⟨2, 0, 0, 64⟩) ∧
      (w.sys.tid ((), 0)).rx.state = .addbaPositiveResSent ∧
      transmissions (w.letters ((), 0)) 2 ≤ rspMaxRetransmissions := by
  have bounded := retransmissions_bounded_and_matched (π := Unit) (ν := Unit) id
    (fun _ _ => ⟨true, true, 10, 16000, 3, 10, 0, 64⟩) 16 16
  have run := twoExchanges_run true
  have on : ((Post.twoExchanges true).letters ((), 0))[1]? =
    some ⟨.addbaRes ⟨2, 0, 0, 64⟩, 2, .accepted, false⟩ := by decide
  have timely : (Event.report () 0 1 1 7 ⟨true, true⟩).Timely (Post.twoExchanges true) := by
    rintro _ rfl _ _ l on' _
    obtain rfl := Option.some.inj (on.symm.trans on')
    exact ⟨by decide, nofun⟩
  refine ⟨?_, by decide, ?_⟩
  · refine (bounded.2 _ run () 0 1 1 7 ⟨true, true⟩ _ on (by decide) (by decide) ?_ ?_ timely).1
    · exact ⟨_, on, rfl, nofun⟩
    · intro l on'
      obtain rfl := Option.some.inj (on.symm.trans on')
      exact nofun
  · exact bounded.1 _ (run.mono fun _ _ ok => ok.1) ((), 0) 2

/-- The report on the first response comes late. The handler asserts a counter that is not
active, or sends the second response again. -/
theorem late_report_repeats_other :
    let report : Event Unit Unit := .report () 0 0 1 7 ⟨true, true⟩
    let w := Post.twoExchanges false
    let w' := Post.twoExchanges true
    report.Fair w ∧ report.Ordered w ∧ ¬(w.sys.tid ((), 0)).Asserts (.addbaRes ⟨1, 0, 0, 64⟩) ∧
    report.Fair w' ∧ report.Ordered w' ∧ ((w'.step report).letters ((), 0))[2]? =
      some ⟨.addbaRes ⟨2, 0, 0, 64⟩, 2, .pending, false⟩ := by
  intro report w w'
  have first (confirmed : Bool) : ((Post.twoExchanges confirmed).letters ((), 0))[0]? =
      some ⟨.addbaRes ⟨1, 0, 0, 64⟩, 1, .accepted, false⟩ := by
    cases confirmed <;> decide
  have fair (confirmed : Bool) : report.Fair (Post.twoExchanges confirmed) :=
    ⟨_, first confirmed, rfl, nofun⟩
  have ordered (confirmed : Bool) : report.Ordered (Post.twoExchanges confirmed) := by
    intro l on
    obtain rfl := Option.some.inj ((first confirmed).symm.trans on)
    exact nofun
  exact ⟨fair false, ordered false, by decide, fair true, ordered true, by decide⟩

end Wave300.Addba
