import Wave300.Addba.Retransmission

/-!
# The transmissions of a DELBA

A DELBA of the originator is sent again while its transmissions fail and the TID stays
closed. The counter of the attempts belongs to the TID and outlives the DELBA.
-/

namespace Wave300.Addba

open Wave300.Lib

variable {π ν : Type}

/-- Nothing of the TID is open or being opened. -/
def Tx.Closed (tx : Tx) : Prop := tx.state = .none ∨ tx.state = .delAggrReqSent

instance (tx : Tx) : Decidable tx.Closed := inferInstanceAs (Decidable (_ ∨ _))

/-- How many DELBAs of the originator were sent. -/
def originated (ls : List Letter) : Nat := ls.countP fun l => l.req = .delbaReq true

/-- The DELBA of the originator that is out and not delivered: how many were sent before it,
the counter when it was first sent, and what has happened to it since. -/
structure Delba where
  earlier : Nat
  start : Nat
  /-- A transmission failed with attempts left, and no other could be made. -/
  unsent : Bool
  /-- A failed report came on an earlier one. -/
  disturbed : Bool
  /-- The last transmission failed, and no other was made. -/
  lost : Bool
  deriving DecidableEq, Repr

/-- A transmission has failed. `room` says whether another can be made, and `again` whether
it was. -/
def Delba.onFailure (d : Delba) (attempt : Nat) (room again : Bool) : Delba :=
  { d with
    unsent := d.unsent || decide (attempt < delbaReqMaxRetransmissions) && !room
    lost := !again }

/-- No DELBA of the originator comes after message `i`. -/
def IsLast (ls : List Letter) (i : Nat) : Prop := ∀ l ∈ ls.drop (i + 1), l.req ≠ .delbaReq true

instance (ls : List Letter) (i : Nat) : Decidable (IsLast ls i) :=
  inferInstanceAs (Decidable (∀ l ∈ _, _))

/-- The messages, with the DELBA that is out for each TID. -/
structure Closing (π ν : Type) where
  post : Post π ν
  delba : π × Fin nofTids → Option Delba

section
variable [DecidableEq π] [DecidableEq ν]

/-- A report on message `i` of TID `k`, a DELBA of the originator. -/
def Closing.onReport (w : Closing π ν) (k : π × Fin nofTids) (i status : Nat) (io : Io)
    (again : Bool) (d : Delba) : Option Delba :=
  let t := w.post.sys.tid k
  if status = umiOk then if IsLast (w.post.letters k) i then none else some d
  else
    some { d.onFailure t.tx.delbaReqAttempt (t.rx.manMsg.Ready io) again with
      disturbed := d.disturbed || !decide (IsLast (w.post.letters k) i) }

/-- What an event makes of the DELBA that is out. -/
def Closing.after (w : Closing π ν) (k : π × Fin nofTids) (e : Event π ν) : Option Delba :=
  let more := decide (originated (w.post.letters k) < originated ((w.post.step e).letters k))
  match e with
  | .call op =>
    if op.stops k then none
    else if more then
      some ⟨originated (w.post.letters k), (w.post.sys.tid k).tx.delbaReqAttempt, false, false,
        false⟩
    else w.delba k
  | .confirm p t accepted =>
    if k = (p, t) ∧ accepted = false ∧
        (w.post.sys.tid k).rx.manMsg = .sent (.delbaReq true) then
      (w.delba k).map fun d => if d.lost then d else
        d.onFailure (w.post.sys.tid k).tx.delbaReqAttempt false false
    else w.delba k
  | .report p t i status _ io =>
    if k = (p, t) ∧ w.post.sys.isActive p ∧
        (w.post.letters k)[i]?.map Letter.req = some (.delbaReq true) then
      (w.delba k).bind (w.onReport k i status io more)
    else w.delba k

/-- A TID that is not closed has given its DELBA up. -/
def Closing.step (w : Closing π ν) (e : Event π ν) : Closing π ν where
  post := w.post.step e
  delba := fun k => if ((w.post.step e).sys.tid k).tx.Closed then w.after k e else none

end

def Closing.init (home : π → ν) (cfg : ν → Fin nofTids → TidCfg) (maxAggr maxReord : Nat) :
    Closing π ν where
  post := .init home cfg maxAggr maxReord
  delba := fun _ => none

/-! ## Transitions that leave the counter alone -/

/-- The message that is out stays so, or a free one is sent. -/
structure Sends (v v' : RxView) (sent : List RxRequest) : Prop where
  attempt : v'.txDelbaAttempt = v.txDelbaAttempt
  message : v'.manMsg = v.manMsg ∧ sent = [] ∨
    v.manMsg = .detached ∧ ∃ req, v'.manMsg = .sent req ∧ sent = [req]

theorem RxMove.sends {answers : Bool} {v v' : RxView} {sent : List RxRequest}
    (moved : RxMove answers v v' sent) : Sends v v' sent := by
  cases moved with
  | keep | reset | unanswered => exact ⟨rfl, .inl ⟨rfl, rfl⟩⟩
  | respond res asked msg => exact ⟨rfl, .inr ⟨msg, _, rfl, rfl⟩⟩
  | delbaTx msg => exact ⟨rfl, .inr ⟨msg, _, rfl, rfl⟩⟩
  | delbaRx state waits msg => exact ⟨rfl, .inr ⟨msg, _, rfl, rfl⟩⟩

theorem RxReport.sends {io : Io} {req : RxRequest} {ok : Bool} {v v' : RxView}
    {sent : List RxRequest} (handled : RxReport io req ok v v' sent)
    (other : req ≠ .delbaReq true) : Sends v v' sent ∧ .delbaReq true ∉ sent := by
  cases handled with
  | resAgain res waits again msg => exact ⟨⟨rfl, .inr ⟨msg, _, rfl, rfl⟩⟩, by simp⟩
  | delbaAgain state waits waits' again msg => exact ⟨⟨rfl, .inr ⟨msg, _, rfl, rfl⟩⟩, by simp⟩
  | txClosed | txLost | txKept | txAgain => exact absurd rfl other
  | _ => exact ⟨⟨rfl, .inl ⟨rfl, rfl⟩⟩, List.not_mem_nil⟩

/-! ## What the messages tell -/

section
variable {R : Letter → Letter → Prop} {ls ls' : List Letter}

theorem Revised.originated (h : Revised R ls ls') : originated ls' = originated ls := by
  unfold Addba.originated
  induction h with
  | nil => rfl
  | cons head _ ih => rw [List.countP_cons, List.countP_cons, ih, head.1]

theorem originated_post (ls : List Letter) (sent : List RxRequest) (n : Nat) :
    originated (ls ++ sent.map (.post n)) = originated ls + sent.count (.delbaReq true) := by
  unfold originated List.count
  rw [List.countP_append, List.countP_map]
  rfl

end

/-- The message that is out is the newest one, and the counter is bounded. -/
structure Counted (v : RxView) (ls : List Letter) : Prop where
  few : v.txDelbaAttempt ≤ delbaReqMaxRetransmissions
  out : v.manMsg = .sent (.delbaReq true) → ∀ l, newest (.delbaReq, true) ls = some l →
    l.fate = .pending

/-- Nothing more will be heard of a message. -/
def Letter.Ended (l : Letter) : Prop := l.reported = true ∨ l.fate = .refused

/-- While a DELBA is sent again, the counter keeps up with its transmissions from where it
was; what has become of the DELBA in the end depends on that and on the messages. -/
structure Budgeted (v : RxView) (ls : List Letter) (d : Delba) : Prop where
  pace : d.lost = false → d.unsent = false ∧
    max 1 v.txDelbaAttempt + d.earlier + 1 = max 1 d.start + originated ls
  counting : d.lost = false → v.txDelbaAttempt = 0 → v.manMsg = .sent (.delbaReq true)
  ended : d.lost = true → ∀ l, newest (.delbaReq, true) ls = some l → l.Ended
  total : d.lost = true → (originated ls = d.earlier + delbaReqMaxRetransmissions ↔
    d.start ≤ 1 ∧ d.unsent = false)

section
variable {v v' : RxView} {ls : List Letter} {d : Delba} {sent : List RxRequest} {n : Nat}

theorem newest_posts (other : .delbaReq true ∉ sent) :
    newest (.delbaReq, true) (ls ++ sent.map (.post n)) = newest (.delbaReq, true) ls := by
  induction sent generalizing ls with
  | nil => rw [List.map_nil, List.append_nil]
  | cons req sent ih =>
    have apart : req.umi ≠ (.delbaReq, true) := by
      intro same
      exact other (eq_delbaReq same ▸ List.mem_cons_self)
    have rest : .delbaReq true ∉ sent := fun mem => other (List.mem_cons_of_mem _ mem)
    rw [List.map_cons, List.append_cons, ih rest, newest_post_ne apart]

theorem Counted.sends (h : Counted v ls) (sends : Sends v v' sent) :
    Counted v' (ls ++ sent.map (.post n)) := by
  constructor
  case few =>
    rw [sends.attempt]
    exact h.few
  case out =>
    intro out
    obtain ⟨same, rfl⟩ | ⟨-, req, same, rfl⟩ := sends.message
    · rw [List.map_nil, List.append_nil]
      exact h.out (same.symm.trans out)
    · obtain rfl := ManMsg.sent.inj (same.symm.trans out)
      intro l last
      obtain rfl := Option.some.inj ((newest_post_eq n (.delbaReq true)).symm.trans last)
      rfl

theorem Budgeted.sends (h : Budgeted v ls d) (sends : Sends v v' sent)
    (other : .delbaReq true ∉ sent) : Budgeted v' (ls ++ sent.map (.post n)) d := by
  have count : originated (ls ++ sent.map (.post n)) = originated ls := by
    rw [originated_post, List.count_eq_zero_of_not_mem other, Nat.add_zero]
  constructor
  case pace =>
    rw [sends.attempt, count]
    exact h.pace
  case counting =>
    intro going zero
    have out := h.counting going (sends.attempt.symm.trans zero)
    obtain ⟨same, -⟩ | ⟨free, -⟩ := sends.message
    · rw [same, out]
    · cases free.symm.trans out
  case ended =>
    rw [newest_posts other]
    exact h.ended
  case total =>
    rw [count]
    exact h.total

/-- A DELBA is sent for the first time. -/
theorem Sends.budgeted (sends : Sends v v' sent) (first : .delbaReq true ∈ sent) :
    Budgeted v' (ls ++ sent.map (.post n))
      ⟨originated ls, v.txDelbaAttempt, false, false, false⟩ := by
  obtain ⟨-, rfl⟩ | ⟨-, req, same, rfl⟩ := sends.message
  · cases first
  · obtain rfl := List.mem_singleton.1 first
    constructor
    case pace =>
      intro _
      refine ⟨rfl, ?_⟩
      rw [originated_post, sends.attempt, List.count_singleton_self, Nat.add_assoc]
    case counting => exact fun _ _ => same
    case ended => exact nofun
    case total => exact nofun

/-! ## More is known of the messages -/

theorem Counted.report (h : Counted v ls) (i : Nat) : Counted v (ls.modify i .report) := by
  refine ⟨h.few, ?_⟩
  intro out l' last
  obtain ⟨l, last, -, fate, -⟩ := (revised_report i ls).newest last
  rw [fate]
  exact h.out out l last

theorem Budgeted.report (h : Budgeted v ls d) (i : Nat) : Budgeted v (ls.modify i .report) d := by
  have revised := revised_report i ls
  constructor
  case pace =>
    rw [revised.originated]
    exact h.pace
  case counting => exact h.counting
  case ended =>
    intro lost l' last
    obtain ⟨l, last, -, fate, rfl | reported⟩ := revised.newest last
    · exact h.ended lost l' last
    · exact .inl reported
  case total =>
    rw [revised.originated]
    exact h.total

/-- The message is not out once it is confirmed. -/
theorem RxView.onCfm_free (v : RxView) (req : RxRequest) : v.onCfm.manMsg ≠ .sent req := by
  unfold RxView.onCfm
  cases msg : v.manMsg with
  | sent out =>
    simp only [RxView.confirm]
    split <;> exact nofun
  | _ =>
    simp only [msg]
    exact nofun

/-- A confirmation makes no difference to an active counter. -/
theorem RxView.onCfm_txDelbaAttempt (v : RxView) :
    v.onCfm.txDelbaAttempt = v.txDelbaAttempt ∨
      v.txDelbaAttempt = 0 ∧ v.onCfm.txDelbaAttempt = 1 := by
  unfold RxView.onCfm
  split
  · unfold RxView.confirm
    split
    · exact .inl rfl
    · by_cases zero : v.txDelbaAttempt = 0
      · exact .inr ⟨zero, if_pos zero⟩
      · exact .inl (if_neg zero)
    · exact .inl rfl
  · exact .inl rfl

theorem Counted.confirm (h : Counted v ls) (fate : Fate) :
    Counted v.onCfm (ls.map (.settle fate)) := by
  refine ⟨?_, fun out => absurd out (v.onCfm_free _)⟩
  have few := h.few
  unfold delbaReqMaxRetransmissions at few ⊢
  obtain same | ⟨-, one⟩ := v.onCfm_txDelbaAttempt <;> omega

theorem Budgeted.confirm (h : Budgeted v ls d) (fate : Fate) :
    Budgeted v.onCfm (ls.map (.settle fate)) d := by
  have revised := revised_settle fate ls
  constructor
  case pace =>
    intro going
    obtain ⟨sent, pace⟩ := h.pace going
    refine ⟨sent, ?_⟩
    rw [revised.originated, ← pace]
    obtain same | ⟨zero, one⟩ := v.onCfm_txDelbaAttempt
    · rw [same]
    · rw [zero, one]
      rfl
  case counting =>
    intro going zero
    have active : v.onCfm.attempt (.delbaReq true) ≠ 0 := by
      apply RxView.onCfm_attempt
      by_cases none : v.txDelbaAttempt = 0
      · exact .inr (h.counting going none)
      · exact .inl none
    exact absurd zero active
  case ended =>
    intro lost l' last
    obtain ⟨l, last, -, reported, ⟨pending, -⟩ | ⟨-, rfl⟩⟩ := revised.newest last
    · obtain heard | refused := h.ended lost l last
      · exact .inl (reported.trans heard)
      · cases pending.symm.trans refused
    · exact h.ended lost l' last
  case total =>
    rw [revised.originated]
    exact h.total

/-- The firmware does not take the DELBA that is out. -/
theorem Budgeted.refuse (h : Budgeted v ls d) (counted : Counted v ls) (going : d.lost = false)
    (out : v.manMsg = .sent (.delbaReq true)) :
    Budgeted v.onCfm (ls.map (.settle .refused)) (d.onFailure v.txDelbaAttempt false false) := by
  have revised := revised_settle .refused ls
  obtain ⟨sent, pace⟩ := h.pace going
  have few := counted.few
  constructor
  case pace => exact nofun
  case counting => exact nofun
  case ended =>
    intro _ l' last
    obtain ⟨l, last, -, -, ⟨-, refused⟩ | ⟨settled, -⟩⟩ := revised.newest last
    · exact .inr refused
    · exact absurd (counted.out out l last) settled
  case total =>
    intro _
    rw [revised.originated]
    simp only [Delba.onFailure, sent, Bool.false_or, Bool.not_false, Bool.and_true,
      decide_eq_false_iff_not]
    unfold delbaReqMaxRetransmissions at few ⊢
    omega

end

/-! ## A failed report -/

/-- What a failed report on a DELBA does while the TID is closed: the attempts are used up, or
the DELBA is sent again if its message can be. -/
inductive DelbaFails (io : Io) (v : RxView) : RxView → List RxRequest → Prop where
  | spent (used : delbaReqMaxRetransmissions ≤ v.txDelbaAttempt) :
      DelbaFails io v { v with txDelbaAttempt := 0 } []
  | kept (left : v.txDelbaAttempt < delbaReqMaxRetransmissions) (busy : ¬v.manMsg.Ready io) :
      DelbaFails io v { v with txDelbaAttempt := v.txDelbaAttempt + 1 } []
  | again (left : v.txDelbaAttempt < delbaReqMaxRetransmissions) (ready : v.manMsg.Ready io) :
      DelbaFails io v
        { v with
          txDelbaAttempt := v.txDelbaAttempt + 1
          manMsg := .sent (.delbaReq true) }
        [.delbaReq true]

theorem onTxDelbaReqTxStatus_fails (io : Io) {status : Nat} {c : Ctx} (fresh : c.out = [])
    (failed : status ≠ umiOk) (closed : c.tid.tx.Closed) :
    DelbaFails io c.tid.rxView (onTxDelbaReqTxStatus io status c).tid.rxView
      (mail (onTxDelbaReqTxStatus io status c).out) := by
  have silent : mail c.out = [] := by rw [fresh]; rfl
  have quiet : ¬(c.tid.tx.state ≠ .none ∧ c.tid.tx.state ≠ .delAggrReqSent) := by
    rintro ⟨opened, kept⟩
    exact closed.elim opened kept
  unfold onTxDelbaReqTxStatus
  rw [if_neg failed, if_neg quiet]
  split
  · rename_i used
    change DelbaFails _ _ _ (mail c.out)
    rw [silent]
    exact .spent used
  · rename_i left
    have left : c.tid.rxView.txDelbaAttempt < delbaReqMaxRetransmissions := Nat.lt_of_not_le left
    obtain ⟨busy, aside⟩ | ⟨ready, posted, ⟨-, view⟩ | ⟨⟨⟩, -⟩⟩ := sendDelbaReq_cases io true
      (c.setTx fun tx => { tx with delbaReqAttempt := tx.delbaReqAttempt + 1 })
    · rw [aside.view, aside.mail]
      change DelbaFails _ _ _ (mail c.out)
      rw [silent]
      exact .kept left busy
    · rw [view, posted]
      change DelbaFails _ _ _ (mail c.out ++ _)
      rw [silent]
      exact .again left ready

section
variable {io : Io} {v v' : RxView} {ls : List Letter} {d : Delba} {sent : List RxRequest}
  {n : Nat}

theorem DelbaFails.counted (fails : DelbaFails io v v' sent) (h : Counted v ls) :
    Counted v' (ls ++ sent.map (.post n)) := by
  cases fails with
  | spent used =>
    rw [List.map_nil, List.append_nil]
    exact ⟨Nat.zero_le _, h.out⟩
  | kept left busy =>
    rw [List.map_nil, List.append_nil]
    exact ⟨left, h.out⟩
  | again left ready =>
    refine ⟨left, ?_⟩
    intro _ l last
    obtain rfl := Option.some.inj ((newest_post_eq n (.delbaReq true)).symm.trans last)
    rfl

/-- The report is on message `i`, the newest DELBA. -/
theorem DelbaFails.budgeted {i : Nat} {l : Letter} (fails : DelbaFails io v v' sent)
    (h : Budgeted v ls d) (counted : Counted v ls) (on : ls[i]? = some l)
    (originator : l.req = .delbaReq true) (last : IsLast ls i) (first : ¬l.Ended) :
    Budgeted v' (ls.modify i .report ++ sent.map (.post n))
      (d.onFailure v.txDelbaAttempt (v.manMsg.Ready io) (0 < sent.count (.delbaReq true))) := by
  have newest : newest (.delbaReq, true) ls = some l := by
    have here := newest_of_last on (by
      intro x mem same
      rw [originator] at same
      exact last x mem (eq_delbaReq same))
    rwa [originator] at here
  have going : d.lost = false := by
    cases lost : d.lost with
    | false => rfl
    | true => exact absurd (h.ended lost l newest) first
  have told : ∀ l', Addba.newest (.delbaReq, true) (ls.modify i .report) = some l' →
      l'.Ended := by
    intro l' last'
    have on' : (ls.modify i .report)[i]? = some l.report := by
      rw [List.getElem?_modify_eq, on]
      rfl
    have here := newest_of_last on' (by
      rw [List.drop_modify_of_lt _ _ _ _ (Nat.lt_succ_self i)]
      intro x mem same
      rw [Letter.report, originator] at same
      exact last x mem (eq_delbaReq same))
    rw [show l.report.req.umi = (.delbaReq, true) by rw [Letter.report, originator]; rfl] at here
    obtain rfl := Option.some.inj (here.symm.trans last')
    exact .inl rfl
  have count : originated (ls.modify i .report) = originated ls :=
    (revised_report i ls).originated
  obtain ⟨sent, pace⟩ := h.pace going
  have few := counted.few
  cases fails with
  | spent used =>
    rw [List.map_nil, List.append_nil]
    constructor
    case pace => rintro ⟨⟩
    case counting => rintro ⟨⟩
    case ended => exact fun _ => told
    case total =>
      intro _
      rw [count]
      simp only [Delba.onFailure, sent, Nat.not_lt.2 used, decide_false, Bool.false_and,
        Bool.false_or, and_true]
      unfold delbaReqMaxRetransmissions at used few ⊢
      omega
  | kept left busy =>
    rw [List.map_nil, List.append_nil]
    constructor
    case pace => rintro ⟨⟩
    case counting => rintro ⟨⟩
    case ended => exact fun _ => told
    case total =>
      intro _
      rw [count]
      simp only [Delba.onFailure, left, busy, decide_true, decide_false, Bool.not_false,
        Bool.and_true, Bool.or_true, Bool.true_eq_false, and_false, iff_false]
      unfold delbaReqMaxRetransmissions at left ⊢
      omega
  | again left ready =>
    have active : v.txDelbaAttempt ≠ 0 := by
      intro zero
      cases ready.1.symm.trans (h.counting going zero)
    constructor
    case pace =>
      intro _
      simp only [Delba.onFailure, sent, ready, decide_true, Bool.not_true, Bool.and_false,
        Bool.or_false, true_and]
      rw [originated_post, List.count_singleton_self, count]
      omega
    case counting => exact fun _ zero => absurd zero (Nat.succ_ne_zero _)
    case ended => rintro ⟨⟩
    case total => rintro ⟨⟩

end

theorem onTxDelbaReqTxStatus_counted (io : Io) (status : Nat) {c : Ctx} (fresh : c.out = [])
    {ls : List Letter} (n : Nat) (h : Counted c.tid.rxView ls) :
    Counted (onTxDelbaReqTxStatus io status c).tid.rxView
      (ls ++ (mail (onTxDelbaReqTxStatus io status c).out).map (.post n)) := by
  have silent : ls ++ (mail c.out).map (.post n) = ls := by
    rw [fresh]
    exact List.append_nil _
  by_cases ok : status = umiOk
  · rw [show onTxDelbaReqTxStatus io status c = c from if_pos ok, silent]
    exact h
  · by_cases closed : c.tid.tx.Closed
    · exact (onTxDelbaReqTxStatus_fails io fresh ok closed).counted h
    · have opened := not_or.1 closed
      unfold onTxDelbaReqTxStatus
      rw [if_neg ok, if_pos opened]
      change Counted { c.tid.rxView with txDelbaAttempt := 0 } (ls ++ (mail c.out).map (.post n))
      rw [silent]
      exact ⟨Nat.zero_le _, h.out⟩

/-! ## Runs -/

/-- A DELBA is out for a closed TID, and is within its budget unless it was disturbed. -/
structure Closing.Sound (w : Closing π ν) (k : π × Fin nofTids) : Prop where
  counted : Counted (w.post.sys.tid k).rxView (w.post.letters k)
  closed : ∀ d, w.delba k = some d → (w.post.sys.tid k).tx.Closed
  budgeted : ∀ d, w.delba k = some d → d.disturbed = false →
    Budgeted (w.post.sys.tid k).rxView (w.post.letters k) d

section
variable [DecidableEq π] [DecidableEq ν] {w : Closing π ν} {k : π × Fin nofTids}
  {e : Event π ν}

theorem Closing.sound_of_after (counted : Counted ((w.post.step e).sys.tid k).rxView
      ((w.post.step e).letters k))
    (budgeted : ∀ d, w.after k e = some d → d.disturbed = false →
      Budgeted ((w.post.step e).sys.tid k).rxView ((w.post.step e).letters k) d) :
    (w.step e).Sound k := by
  have known {d : Delba} (out : (w.step e).delba k = some d) :
      ((w.post.step e).sys.tid k).tx.Closed ∧ w.after k e = some d := by
    simp only [Closing.step] at out
    split at out
    · rename_i closed
      exact ⟨closed, out⟩
    · cases out
  exact ⟨counted, fun d out => (known out).1, fun d out => budgeted d (known out).2⟩

theorem Closing.Sound.call (h : w.Sound k) {op : Op π ν} (call : op.Call) :
    (w.step (.call op)).Sound k := by
  cases up : op.stops k with
  | true =>
    obtain ⟨view, letters, -⟩ := w.post.stopped_at up
    apply Closing.sound_of_after
    · rw [view, letters]
      exact ⟨h.counted.few, nofun⟩
    · intro d out
      rw [Closing.after, if_pos up] at out
      cases out
  | false =>
    obtain ⟨sent, moved, letters⟩ := Post.moved_at (w := w.post) call up
    have sends := moved.sends
    apply Closing.sound_of_after
    · rw [letters]
      exact h.counted.sends sends
    · intro d out undisturbed
      have count : originated ((w.post.step (.call op)).letters k) =
          originated (w.post.letters k) + sent.count (.delbaReq true) := by
        rw [letters, originated_post]
      simp only [Closing.after, up, Bool.false_eq_true, if_false, count, decide_eq_true_eq,
        Nat.lt_add_right_iff_pos, List.count_pos_iff] at out
      rw [letters]
      split at out
      · rename_i first
        obtain rfl := Option.some.inj out
        exact sends.budgeted first
      · rename_i other
        exact (h.budgeted d out undisturbed).sends sends other

theorem Closing.Sound.confirm (h : w.Sound k) (p : π) (t : Fin nofTids) (accepted : Bool) :
    (w.step (.confirm p t accepted)).Sound k := by
  by_cases here : k = (p, t)
  · subst here
    obtain ⟨view, letters⟩ := w.post.confirmed_at p t accepted
    apply Closing.sound_of_after
    · rw [view, letters]
      exact h.counted.confirm _
    · intro d out undisturbed
      rw [view, letters]
      simp only [Closing.after] at out
      split at out
      · rename_i refused
        obtain ⟨-, rfl, sent⟩ := refused
        obtain ⟨d₀, before, rfl⟩ := Option.map_eq_some_iff.1 out
        by_cases lost : d₀.lost = true
        · rw [if_pos lost] at undisturbed ⊢
          exact (h.budgeted d₀ before undisturbed).confirm _
        · rw [if_neg lost] at undisturbed ⊢
          have going := Bool.eq_false_iff.2 lost
          exact (h.budgeted d₀ before undisturbed).refuse h.counted going sent
      · exact (h.budgeted d out undisturbed).confirm _
  · obtain ⟨same, letters, -⟩ := Post.aside_at (e := .confirm p t accepted) (w := w.post) (k := k)
      trivial (fun _ => nofun) here
    apply Closing.sound_of_after
    · rw [same, letters]
      exact h.counted
    · intro d out
      rw [Closing.after, if_neg fun both => here both.1] at out
      rw [same, letters]
      exact h.budgeted d out

/-- A report on a DELBA of the originator. -/
theorem Closing.Sound.onDelba (h : w.Sound k) {i : Nat} {l : Letter} {status now : Nat} {io : Io}
    (on : (w.post.letters k)[i]? = some l) (first : ¬l.Ended) (originator : l.req = .delbaReq true)
    (up : w.post.sys.isActive k.1 = true) :
    (w.step (.report k.1 k.2 i status now io)).Sound k := by
  obtain ⟨c, tid, fresh, same, letters⟩ := Post.reported_at status now io on up
  have same : (w.post.step (.report k.1 k.2 i status now io)).sys.tid k =
      (onTxDelbaReqTxStatus io status c).tid := by
    rw [originator] at same
    exact same
  have letters : (w.post.step (.report k.1 k.2 i status now io)).letters k =
      (w.post.letters k).modify i .report ++ (mail (onTxDelbaReqTxStatus io status c).out).map
        (.post (w.post.exchange k)) := by
    rw [originator] at letters
    exact letters
  have counted := h.counted.report i
  rw [← tid] at counted
  apply Closing.sound_of_after
  · rw [same, letters]
    exact onTxDelbaReqTxStatus_counted io status fresh _ counted
  · intro d out undisturbed
    rw [Closing.after] at out
    rw [if_pos] at out
    swap
    · refine ⟨rfl, up, ?_⟩
      rw [on, Option.map_some, originator]
    obtain ⟨d₀, before, out⟩ := Option.bind_eq_some_iff.1 out
    have budgeted := h.budgeted d₀ before
    have closed := h.closed d₀ before
    unfold Closing.onReport at out
    by_cases ok : status = umiOk
    · have kept : onTxDelbaReqTxStatus io status c = c := if_pos ok
      rw [kept, tid] at same
      rw [kept, fresh] at letters
      rw [if_pos ok] at out
      split at out
      · cases out
      · obtain rfl := Option.some.inj out
        rw [same, letters]
        exact (List.append_nil (List.modify _ i _)).symm ▸ (budgeted undisturbed).report i
    · rw [← tid] at closed
      have fails := onTxDelbaReqTxStatus_fails io fresh ok closed
      rw [if_neg ok] at out
      obtain rfl := Option.some.inj out
      obtain ⟨before, last⟩ := Bool.or_eq_false_iff.1 undisturbed
      have again : decide (originated (w.post.letters k) <
          originated ((w.post.step (.report k.1 k.2 i status now io)).letters k)) =
            decide (0 < (mail (onTxDelbaReqTxStatus io status c).out).count (.delbaReq true)) := by
        rw [letters, originated_post, (revised_report i _).originated]
        simp only [Nat.lt_add_right_iff_pos]
      have last : IsLast (w.post.letters k) i := by simpa using last
      rw [tid] at fails
      have done := fails.budgeted (n := w.post.exchange k) (budgeted before) h.counted on
        originator last first
      rw [again, same, letters]
      exact ⟨done.pace, done.counting, done.ended, done.total⟩

theorem Closing.Sound.report (h : w.Sound k) {p : π} {t : Fin nofTids} {i status now : Nat}
    {io : Io} (fair : (Event.report p t i status now io).Fair w.post) :
    (w.step (.report p t i status now io)).Sound k := by
  by_cases here : k = (p, t)
  · subst here
    obtain ⟨l, on, first, known⟩ := fair
    cases active : w.post.sys.isActive p with
    | false =>
      obtain ⟨same, letters⟩ := Post.unheard_at status now io on active
      apply Closing.sound_of_after
      · rw [same, letters]
        exact h.counted.report i
      · intro d out undisturbed
        simp only [Closing.after, active, Bool.false_eq_true, false_and, and_false, if_false]
          at out
        rw [same, letters]
        exact (h.budgeted d out undisturbed).report i
    | true =>
      by_cases originator : l.req = .delbaReq true
      · refine h.onDelba on ?_ originator active
        rintro (heard | refused)
        · cases first.symm.trans heard
        · exact known refused
      · obtain ⟨c, tid, fresh, same, letters⟩ := Post.reported_at status now io on active
        have handled := onBaTxStatus_report io now status l.req fresh
        obtain ⟨sends, other⟩ := handled.sends originator
        rw [tid, ← same] at sends
        apply Closing.sound_of_after
        · rw [letters]
          exact (h.counted.report i).sends sends
        · intro d out undisturbed
          simp only [Closing.after, on, Option.map_some, Option.some.injEq, originator, and_false,
            if_false] at out
          rw [letters]
          exact ((h.budgeted d out undisturbed).report i).sends sends other
  · obtain ⟨same, letters, -⟩ := Post.aside_at (k := k) fair (fun _ => nofun) here
    apply Closing.sound_of_after
    · rw [same, letters]
      exact h.counted
    · intro d out
      rw [Closing.after, if_neg fun both => here both.1] at out
      rw [same, letters]
      exact h.budgeted d out

theorem Closing.Sound.step (h : w.Sound k) (fair : e.Fair w.post) : (w.step e).Sound k := by
  cases e with
  | call op => exact h.call fair
  | confirm p t accepted => exact h.confirm p t accepted
  | report p t i status now io => exact h.report fair

/-- A DELBA of the originator that is lost while its TID stays closed was transmitted as often
as it may be if and only if the counter was not past its first attempt when the DELBA was
sent, and the message could be sent on each failure before the last. No failed report on an
earlier DELBA must have come meanwhile. -/
theorem delba_transmissions_iff (home : π → ν) (cfg : ν → Fin nofTids → TidCfg)
    (maxAggr maxReord : Nat)
    (run : Runs Closing.step (fun w e => e.Fair w.post) (.init home cfg maxAggr maxReord) w)
    {d : Delba} (out : w.delba k = some d) (lost : d.lost = true)
    (undisturbed : d.disturbed = false) :
    originated (w.post.letters k) = d.earlier + delbaReqMaxRetransmissions ↔
      d.start ≤ 1 ∧ d.unsent = false := by
  have sound : ∀ k, w.Sound k := by
    apply run.invariant (P := fun w => ∀ k, w.Sound k)
    · exact fun k => ⟨⟨Nat.zero_le _, nofun⟩, nofun, nofun⟩
    · exact fun w e before fair k => (before k).step fair
  exact ((sound k).budgeted d out undisturbed).total lost

end

/-- An aggregation with the peer is opened and closed again, which sends a DELBA. -/
def aggregates (token : Nat) : List (Event Unit Unit) :=
  [.call (.startAggrNegotiation () 0 false ⟨true, true⟩),
    .call (.txMsgCfm () 0 ⟨true, 0, 0, 5⟩),
    .call (.addbaResRx () 0 0 64 token 5 ⟨true, true⟩),
    .call (.txMsgCfm () 0 ⟨true, 0, 5, 5⟩),
    .call (.delbaReq () 0 ⟨true, true⟩ ⟨true, true⟩),
    .call (.txMsgCfm () 0 ⟨true, 0, 0, 5⟩)]

/-- The reports on the DELBAs numbered `is`, each confirmed before. -/
def reports (status : Nat) (is : List Nat) : List (Event Unit Unit) :=
  is.flatMap fun i => [.confirm () 0 true, .report () 0 i status 7 ⟨true, true⟩]

/-- No report on the DELBA of the first aggregation is a success. -/
def neverHeard : List (Event Unit Unit) :=
  .call (.peerStart () 0 true) :: aggregates 0 ++ reports 1 [0, 1, 2, 3]

/-- The DELBA of the first aggregation is delivered when it is sent again. No report on that
of the second is a success. -/
def heardOnce : List (Event Unit Unit) :=
  .call (.peerStart () 0 true) :: aggregates 0 ++ reports 1 [0] ++ reports 0 [1] ++
    aggregates 1 ++ reports 1 [2, 3, 4]

def Closing.onePeer : Closing Unit Unit :=
  .init id (fun _ _ => ⟨true, true, 10, 16000, 3, 10, 0, 64⟩) 16 16

theorem delba_transmissions_iff_neverHeard :
    let w := neverHeard.foldl Closing.step .onePeer
    ∃ d, w.delba ((), 0) = some d ∧ d.lost = true ∧
      (originated (w.post.letters ((), 0)) = d.earlier + delbaReqMaxRetransmissions ↔
        d.start ≤ 1 ∧ d.unsent = false) := by
  have run : Runs Closing.step (fun w e => e.Fair w.post) .onePeer
      (neverHeard.foldl Closing.step .onePeer) := .of_allowed (by decide)
  have out : (neverHeard.foldl Closing.step .onePeer).delba ((), 0) =
    some ⟨0, 0, false, false, true⟩ := by decide
  exact ⟨_, out, rfl, delba_transmissions_iff id _ 16 16 run out rfl rfl⟩

/-- The second DELBA has its message free whenever it fails and is given up after three
transmissions. -/
theorem delba_lost_early :
    let w := heardOnce.foldl Closing.step .onePeer
    Runs Closing.step (fun w e => e.Fair w.post) .onePeer w ∧
      ∃ d, w.delba ((), 0) = some d ∧ d.lost = true ∧ d.disturbed = false ∧ d.unsent = false ∧
        originated (w.post.letters ((), 0)) = d.earlier + 3 ∧
        3 < delbaReqMaxRetransmissions := by
  refine ⟨.of_allowed (by decide), ⟨2, 2, false, false, true⟩, ?_⟩
  decide

end Wave300.Addba
