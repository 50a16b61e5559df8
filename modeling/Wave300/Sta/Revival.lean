import Wave300.Addba.Receiver
import Wave300.Addba.Transmitter
import Wave300.Sta.Entry

/-!
# No TID is lost for aggregation

A TID that has its negotiation initiated counts no packets. It has to be told when the
negotiation is over, or it will never be aggregated again: the flag is in the station entry
and the state of the negotiation in the ADDBA peer.
-/

namespace Wave300.Sta

open Wave300.Addba Wave300.Lib

variable {π ν : Type} [DecidableEq π] [DecidableEq ν]

/-- The TID of a connected 802.11n station waits for its negotiation to end. -/
def Entry.Initiated (e : Entry) (t : Fin nofTids) : Prop :=
  e.connected ∧ e.dot11nMode ∧ e.aggrInited t

@[inherit_doc Entry.Initiated]
def Db.Initiated (db : Db π ν) (k : π × Fin nofTids) : Prop := (db.sta k.1).Initiated k.2

instance (db : Db π ν) (k : π × Fin nofTids) : Decidable (db.Initiated k) :=
  inferInstanceAs (Decidable (_ ∧ _))

/-- The negotiation of a TID is under way, or will be taken up. -/
def Db.Revivable (db : Db π ν) (k : π × Fin nofTids) : Prop :=
  0 < db.tasks k ∨ (db.sys.tid k).tx.state ≠ .none ∨ (db.sys.tid k).tx.addbaReqRejectState

instance (db : Db π ν) (k : π × Fin nofTids) : Decidable (db.Revivable k) :=
  inferInstanceAs (Decidable (_ ∨ _))

/-- A negotiation that is started gets somewhere: the TID may be aggregated, and either the
station sleeps or the limiter and TXMM let the request be sent. -/
def Negotiable (s : System π ν) (k : π × Fin nofTids) (psMode : Bool) (io : Io) : Prop :=
  (s.cfg (s.home k.1) k.2).useAggr ∧
    (psMode ∨ s.aggrReflim.tryRef.isSome ∧ (s.tid k).tx.manMsg.Ready io)

instance (s : System π ν) (k : π × Fin nofTids) (psMode : Bool) (io : Io) :
    Decidable (Negotiable s k psMode io) := inferInstanceAs (Decidable (_ ∧ _))

/-! ## One transition -/

/-- A `CLOSE_AGGR` is outstanding only in the state that waits for it. -/
def Closes (v : TxView) : Prop :=
  ∀ tsId, v.manMsg = .sent (.closeAggr tsId) → v.state = .delAggrReqSent

theorem closes_move {occ : Occasion} {v v' : TxView} {out : List Out}
    (move : TxMove occ v v' out) (h : Closes v) : Closes v' := by
  have resting {state : TxState} (rests : v.state = state) (ne : state ≠ .delAggrReqSent)
      (tsId : Nat) (msg : v.manMsg = .sent (.closeAggr tsId)) : False :=
    ne (rests.symm.trans (h tsId msg))
  have waiting (waits : v.state = .addbaReqSent ∨ v.state = .addbaReqCfmd) (tsId : Nat)
      (msg : v.manMsg = .sent (.closeAggr tsId)) : False := by
    obtain waits | waits := waits
    · exact resting waits nofun tsId msg
    · exact resting waits nofun tsId msg
  cases move with
  | keep => exact h
  | powerSave free => exact fun tsId msg => (resting free nofun tsId msg).elim
  | wake woken asleep => exact fun tsId msg => (resting asleep nofun tsId msg).elim
  | close opened known msg => exact fun _ _ => rfl
  | rejected waits => exact fun tsId msg => (waiting waits tsId msg).elim
  | givenUp waits => exact fun tsId msg => (waiting waits tsId msg).elim
  | unanswered waits => exact fun tsId msg => (resting waits nofun tsId msg).elim
  | relented free rejects => exact h
  | _ => exact nofun

/-- Where a TID that waits for its negotiation has got to by the end of a step: its counter is
restarted, or it is to be tried again, or its negotiation goes on. -/
structure Pursued (rejects pending : Prop) (v : TxView) (trace : List (Empty ⊕ Out)) : Prop where
  closes : Closes v
  goes : .inr .stopAggregation ∈ trace ∨ .inr .baReqUnconfirmed ∈ trace ∨
    (rejects → v.rejectState) ∧
      (pending ∨ v.state ≠ .none ∨ v.rejectState ∨ .inr .baReqRejected ∈ trace)

theorem pursued_move {occ : Occasion} {v v' : TxView} {out : List Out}
    {trace : List (Empty ⊕ Out)} {rejects pending : Prop} (move : TxMove occ v v' (told out))
    (running : occ ≠ .stop) (awake : occ ≠ .wake) (h : Pursued rejects pending v trace) :
    Pursued rejects pending v' (trace ++ out.map .inr) := by
  refine ⟨closes_move move h.closes, ?_⟩
  have later {o : Out} (mem : .inr o ∈ trace) : .inr o ∈ trace ++ out.map (Sum.inr (α := Empty)) :=
    List.mem_append_left _ mem
  have said {o : Out} (mem : o ∈ told out) : .inr o ∈ trace ++ out.map (Sum.inr (α := Empty)) :=
    List.mem_append_right _ (List.mem_map_of_mem (List.mem_of_mem_filter mem))
  obtain stopped | unconfirmed | ⟨keeps, goes⟩ := h.goes
  · exact .inl (later stopped)
  · exact .inr (.inl (later unconfirmed))
  -- a move that leaves the flag of the rejects alone and ends in a state other than none
  have busy (flag : v'.rejectState = v.rejectState) (state : v'.state ≠ .none) :
      .inr .stopAggregation ∈ trace ++ out.map (Sum.inr (α := Empty)) ∨
      .inr .baReqUnconfirmed ∈ trace ++ out.map (Sum.inr (α := Empty)) ∨
      (rejects → v'.rejectState) ∧ (pending ∨ v'.state ≠ .none ∨ v'.rejectState ∨
        .inr .baReqRejected ∈ trace ++ out.map (Sum.inr (α := Empty))) := by
    rw [flag]
    exact .inr (.inr ⟨keeps, .inr (.inl state)⟩)
  generalize heard : told out = said at move
  cases move with
  | keep =>
    refine .inr (.inr ⟨keeps, ?_⟩)
    obtain pending | state | flag | rejected := goes
    · exact .inl pending
    · exact .inr (.inl state)
    · exact .inr (.inr (.inl flag))
    · exact .inr (.inr (.inr (later rejected)))
  | powerSave free => exact busy rfl nofun
  | wake woken asleep => exact absurd woken awake
  | request token win timeout free msg => exact busy rfl nofun
  | attach waits msg =>
    apply busy rfl
    obtain waits | waits := waits <;> exact fun none => nomatch waits.symm.trans none
  | «open» packets bytes timeout size win waits msg => exact busy rfl nofun
  | close opened known msg => exact busy rfl nofun
  | rejected waits =>
    refine .inr (.inr ⟨keeps, .inr (.inr (.inr (said ?_)))⟩)
    rw [heard]
    exact List.mem_singleton_self _
  | givenUp waits => exact .inr (.inr ⟨fun _ => rfl, .inr (.inr (.inl rfl))⟩)
  | unanswered waits =>
    refine .inr (.inl (said ?_))
    rw [heard]
    exact List.mem_singleton_self _
  | relented free rejects =>
    refine .inr (.inl (said ?_))
    rw [heard]
    exact List.mem_singleton_self _
  | stop stopped tsId reset => exact absurd stopped running
  | requested cfm token win timeout confirmed msg => exact busy rfl nofun
  | opened cfm packets bytes timeout size win confirmed msg => exact busy rfl nofun
  | closed cfm tsId confirmed tsId' msg reset =>
    -- the aggregation was on, so its end is told
    refine .inl (said ?_)
    rw [heard, h.closes tsId msg]
    exact List.mem_singleton_self _

/-! ## The calls of the station database -/

theorem sendAddbaReq_ready {c : Ctx} {io : Io} (ready : c.tid.tx.manMsg.Ready io) :
    (sendAddbaReq io c).2 = true := by
  unfold sendAddbaReq
  split
  · rename_i none
    exact absurd ready (not_ready_of_getEmptyData none)
  · simp only
    split
    · rename_i none
      exact absurd ready (not_ready_of_send none)
    · rfl

theorem startAggrNegotiation_goes (c : Ctx) (io : Io) (psMode : Bool) :
    (startAggrNegotiation io psMode c).tid.tx.addbaReqRejectState =
        c.tid.tx.addbaReqRejectState ∧
      (c.tid.tx.state ≠ .none ∨ c.cfg.useAggr ∧
        (psMode ∨ c.aggrReflim.tryRef.isSome ∧ c.tid.tx.manMsg.Ready io) →
        (startAggrNegotiation io psMode c).tid.tx.state ≠ .none) := by
  unfold startAggrNegotiation txAddbaReq
  split
  · split
    · rename_i busy
      exact ⟨rfl, fun _ => busy⟩
    · rename_i free
      simp only [free, false_or]
      split
      · exact ⟨rfl, fun _ => nofun⟩
      · rename_i awake
        split
        · rename_i full
          refine ⟨rfl, ?_⟩
          rintro ⟨-, asleep | ⟨room, -⟩⟩
          · exact absurd asleep awake
          · rw [full] at room
            cases room
        · rename_i r room
          obtain ⟨failed, aside⟩ | ⟨sent, -, token, win, timeout, view, -⟩ :=
            sendAddbaReq_cases io ({ c with aggrReflim := r }.emit .aggrRef)
          · rw [failed, if_neg Bool.false_ne_true]
            have same := aside.view
            refine ⟨congrArg TxView.rejectState same, ?_⟩
            rintro ⟨-, asleep | ⟨-, ready⟩⟩
            · exact absurd asleep awake
            · exact absurd (failed.symm.trans (sendAddbaReq_ready ready)) Bool.false_ne_true
          · rw [sent, if_pos rfl]
            refine ⟨congrArg TxView.rejectState view, ?_⟩
            intro _ none
            exact nomatch (congrArg TxView.state view).symm.trans none
  · rename_i unused
    refine ⟨rfl, ?_⟩
    rintro (busy | ⟨used, -⟩)
    · exact busy
    · exact absurd used unused

/-- What the ADDBA module is called with from elsewhere: the frames, reports and timers. -/
def fromOutside : Op π ν → Bool
  | .peerStart .. | .peerStop .. | .startAggrNegotiation .. | .resetPowerSave .. => false
  | _ => true

omit [DecidableEq ν] in
theorem occasion_outside {op : Op π ν} (outside : fromOutside op) (k : π × Fin nofTids) :
    op.occasion k ≠ .stop ∧ op.occasion k ≠ .wake := by
  cases op with
  | peerStart | peerStop | startAggrNegotiation | resetPowerSave => cases outside
  | txMsgCfm p t cfm =>
    by_cases here : k = (p, t)
    · rw [Op.occasion, if_pos here]
      exact ⟨by rintro ⟨⟩, by rintro ⟨⟩⟩
    · rw [Op.occasion, if_neg here]
      exact ⟨by rintro ⟨⟩, by rintro ⟨⟩⟩
  | _ => exact ⟨by rintro ⟨⟩, by rintro ⟨⟩⟩

theorem step_closes {s : System π ν} {k : π × Fin nofTids} (h : Closes (s.tid k).tx.view)
    (op : Op π ν) : Closes ((step s op).tid k).tx.view := by
  obtain ⟨out, serves, -⟩ := step_at s op k
  exact serves.txKeep (ε := Empty) [] (J := fun _ v _ => Closes v)
    (K := fun v _ => Closes v) (fun move before => closes_move move before) id h

theorem step_aside (s : System π ν) (op : Op π ν) {k : π × Fin nofTids}
    (aside : op.handlers s k = []) :
    (step s op).tid k = s.tid k ∧ s.newOut (step s op) k = [] := by
  obtain ⟨out, serves, log⟩ := step_at s op k
  rw [aside] at serves
  obtain ⟨tid, rfl⟩ := serves
  refine ⟨tid, ?_⟩
  rw [System.newOut, log, List.drop_left]

theorem step_pursued {s : System π ν} (op : Op π ν) {k : π × Fin nofTids}
    {rejects pending : Prop} (outside : fromOutside op)
    (h : Pursued rejects pending (s.tid k).tx.view []) :
    Pursued rejects pending ((step s op).tid k).tx.view ((s.newOut (step s op) k).map .inr) := by
  obtain ⟨out, serves, log⟩ := step_at s op k
  obtain ⟨running, awake⟩ := occasion_outside outside k
  rw [System.newOut, log, List.drop_left]
  exact serves.txKeep _ (J := fun _ => Pursued rejects pending)
    (fun move before => pursued_move move running awake before) id h

/-! ## One event -/

/-- Nothing is lost in an event: a task that is asked for is scheduled, and a task that is run
for a TID with nothing under way starts a negotiation, unless the TID has more to come. -/
def Kept (db : Db π ν) : Event π ν → Prop
  | .updateTx p t scheduled => scheduled ∨ db.Revivable (p, t)
  | .reviveAggregation k io => db.Initiated k →
      (db.sys.tid k).tx.state ≠ .none ∨ (db.sys.tid k).tx.addbaReqRejectState ∨
        1 < db.tasks k ∨ Negotiable db.sys k (db.sta k.1).psModeEnabled io
  | .addba op scheduled => fromOutside op ∧
      ∀ k, scheduled k ∨ 0 < db.tasks k ∨ (db.sys.tid k).tx.addbaReqRejectState
  | _ => True

instance [Fintype π] (db : Db π ν) : ∀ e, Decidable (Kept db e)
  | .updateTx .. => inferInstanceAs (Decidable (_ ∨ _))
  | .reviveAggregation .. => inferInstanceAs (Decidable (_ → _))
  | .addba .. => inferInstanceAs (Decidable (_ ∧ _))
  | .setPmEnabled .. | .setPacketsFilter .. | .setAggrOpenThreshold .. | .addSta .. |
    .removeSta .. => .isTrue trivial

structure Sound (db : Db π ν) : Prop where
  closes : ∀ k, Closes (db.sys.tid k).tx.view
  revivable : ∀ k, db.Initiated k → db.Revivable k

section
variable {db : Db π ν}

omit [DecidableEq π] [DecidableEq ν] in
/-- The TIDs that wait are those that waited, and they have lost nothing. -/
theorem Sound.of_le {db' : Db π ν} (h : Sound db) (closes : ∀ k, Closes (db'.sys.tid k).tx.view)
    (le : ∀ k, db'.Initiated k → db'.Revivable k ∨
      db.Initiated k ∧ (db.Revivable k → db'.Revivable k)) : Sound db' where
  closes := closes
  revivable := by
    intro k initiated
    obtain revivable | ⟨before, kept⟩ := le k initiated
    · exact revivable
    · exact kept (h.revivable k before)

omit [DecidableEq ν] in
theorem initiated_update {sta : π → Entry} {p : π} {e : Entry} {k : π × Fin nofTids}
    (initiated : (Function.update sta p e k.1).Initiated k.2) :
    k.1 = p ∧ e.Initiated k.2 ∨ k.1 ≠ p ∧ (sta k.1).Initiated k.2 := by
  by_cases peer : k.1 = p
  · rw [peer, Function.update_self] at initiated
    exact .inl ⟨peer, initiated⟩
  · rw [Function.update_of_ne peer] at initiated
    exact .inr ⟨peer, initiated⟩

omit [DecidableEq ν] in
/-- A change of one entry that initiates nothing. -/
theorem Sound.setEntry (h : Sound db) {p : π} {e : Entry}
    (le : ∀ t, e.Initiated t → (db.sta p).Initiated t) :
    Sound { db with sta := Function.update db.sta p e } := by
  refine ⟨h.closes, ?_⟩
  intro k initiated
  apply h.revivable k
  obtain ⟨peer, initiated⟩ | ⟨-, initiated⟩ := initiated_update initiated
  · rw [Db.Initiated, peer]
    exact le k.2 initiated
  · exact initiated

omit [DecidableEq ν] in
theorem scheduleRevival_revivable {k k' : π × Fin nofTids} {scheduled : Bool}
    (h : scheduled = true ∧ k' = k ∨ db.Revivable k') :
    (db.scheduleRevival scheduled k).Revivable k' := by
  unfold Db.scheduleRevival
  split
  · by_cases here : k' = k
    · refine .inl ?_
      change 0 < Function.update db.tasks k (db.tasks k + 1) k'
      rw [here, Function.update_self]
      exact Nat.succ_pos _
    · obtain ⟨-, same⟩ | task | goes := h
      · exact absurd same here
      · refine .inl ?_
        change 0 < Function.update db.tasks k (db.tasks k + 1) k'
        rwa [Function.update_of_ne here]
      · exact .inr goes
  · rename_i failed
    obtain ⟨scheduled, -⟩ | kept := h
    · exact absurd scheduled failed
    · exact kept

omit [DecidableEq ν] in
theorem Sound.updateTx (h : Sound db) {p : π} {t : Fin nofTids} {scheduled : Bool}
    (kept : Kept db (.updateTx p t scheduled)) : Sound (db.updateTx p t scheduled) := by
  unfold Db.updateTx
  simp only
  split
  · split
    · apply h.of_le
      · unfold Db.scheduleRevival
        split <;> exact h.closes
      · intro k now
        by_cases here : k = (p, t)
        · refine .inl (scheduleRevival_revivable ?_)
          rw [here]
          exact kept.imp_left fun scheduled => ⟨scheduled, rfl⟩
        · refine .inr ⟨?_, fun revivable => scheduleRevival_revivable (.inr revivable)⟩
          have entry : (Function.update db.sta p { db.sta p with
              txPackets := Function.update (db.sta p).txPackets t 0
              aggrInited := Function.update (db.sta p).aggrInited t true } k.1).Initiated k.2 := by
            unfold Db.scheduleRevival at now
            split at now <;> exact now
          obtain ⟨peer, connected, dot11nMode, inited⟩ | ⟨-, initiated⟩ := initiated_update entry
          · have other : k.2 ≠ t := fun same => here (Prod.ext peer same)
            rw [Db.Initiated, peer]
            exact ⟨connected, dot11nMode, (Function.update_of_ne other ..).symm.trans inited⟩
          · exact initiated
    · exact h.setEntry fun _ => id
  · exact h

omit [DecidableEq ν] in
/-- A task less, for a TID that has another or needs none. -/
theorem Sound.endTask (h : Sound db) {k : π × Fin nofTids}
    (ended : db.Initiated k → (db.sys.tid k).tx.state ≠ .none ∨
      (db.sys.tid k).tx.addbaReqRejectState ∨ 1 < db.tasks k) :
    Sound { db with tasks := Function.update db.tasks k (db.tasks k - 1) } := by
  refine ⟨h.closes, ?_⟩
  intro k' initiated
  by_cases here : k' = k
  · rw [here] at initiated ⊢
    obtain state | flag | task := ended initiated
    · exact .inr (.inl state)
    · exact .inr (.inr flag)
    · refine .inl ?_
      change 0 < Function.update db.tasks k (db.tasks k - 1) k
      rw [Function.update_self]
      exact Nat.sub_pos_of_lt task
  · obtain task | goes := h.revivable k' initiated
    · refine .inl ?_
      change 0 < Function.update db.tasks k (db.tasks k - 1) k'
      rwa [Function.update_of_ne here]
    · exact .inr goes

theorem Sound.reviveAggregation (h : Sound db) {k : π × Fin nofTids} {io : Io}
    (kept : Kept db (.reviveAggregation k io)) : Sound (db.reviveAggregation k io) := by
  unfold Db.reviveAggregation
  split
  · exact h
  simp only
  split
  · have started := startAggrNegotiation_goes (db.sys.ctx k) io (db.sta k.1).psModeEnabled
    have negotiated (k' : π × Fin nofTids) : (step db.sys
        (.startAggrNegotiation k.1 k.2 (db.sta k.1).psModeEnabled io)).tid k' =
        Function.update db.sys.tid k (Addba.startAggrNegotiation io (db.sta k.1).psModeEnabled
          (db.sys.ctx k)).tid k' := rfl
    constructor
    case closes =>
      intro k'
      exact step_closes (h.closes k') (.startAggrNegotiation ..)
    case revivable =>
      intro k' initiated
      unfold Db.Revivable
      simp only [negotiated]
      by_cases here : k' = k
      · rw [here] at initiated ⊢
        rw [Function.update_self, Function.update_self, started.1]
        obtain state | flag | task | negotiable := kept initiated
        · exact .inr (.inl (started.2 (.inl state)))
        · exact .inr (.inr flag)
        · exact .inl (Nat.sub_pos_of_lt task)
        · exact .inr (.inl (started.2 (.inr negotiable)))
      · rw [Function.update_of_ne here, Function.update_of_ne here]
        exact h.revivable k' initiated
  · rename_i gone
    exact h.endTask fun initiated => absurd initiated.1 gone

theorem Sound.addba (h : Sound db) {op : Op π ν} {scheduled : π × Fin nofTids → Bool}
    (kept : Kept db (.addba op scheduled)) : Sound (db.called scheduled (step db.sys op)) := by
  constructor
  case closes => exact fun k => step_closes (h.closes k) op
  case revivable =>
    rintro k ⟨connected, dot11nMode, inited⟩
    obtain ⟨outside, served⟩ := kept
    change (if restarts (db.sys.newOut (step db.sys op) k) then false
      else (db.sta k.1).aggrInited k.2) = true at inited
    split at inited
    · cases inited
    rename_i counts
    have silent {o : Out} (restart : o = .stopAggregation ∨ o = .baReqUnconfirmed) :
        Sum.inr (α := Empty) o ∉ (db.sys.newOut (step db.sys op) k).map Sum.inr := by
      intro mem
      obtain ⟨o', mem, same⟩ := List.mem_map.1 mem
      cases same
      exact counts (List.any_eq_true.2 ⟨o, mem, decide_eq_true restart⟩)
    have before : Pursued ((db.sys.tid k).tx.addbaReqRejectState) (0 < db.tasks k)
        (db.sys.tid k).tx.view [] := by
      refine ⟨h.closes k, .inr (.inr ⟨id, ?_⟩)⟩
      obtain task | state | flag := h.revivable k ⟨connected, dot11nMode, inited⟩
      · exact .inl task
      · exact .inr (.inl state)
      · exact .inr (.inr (.inl flag))
    obtain stopped | unconfirmed | ⟨keeps, goes⟩ := (step_pursued op outside before).goes
    · exact absurd stopped (silent (.inl rfl))
    · exact absurd unconfirmed (silent (.inr rfl))
    have later (task : 0 < db.tasks k) :
        (db.called scheduled (step db.sys op)).Revivable k := .inl (Nat.add_pos_left task _)
    obtain task | state | flag | rejected := goes
    · exact later task
    · exact .inr (.inl state)
    · exact .inr (.inr flag)
    · obtain ⟨o, rejected, same⟩ := List.mem_map.1 rejected
      cases same
      obtain scheduled' | task | flag := served k
      · refine .inl (Nat.add_pos_right _ ?_)
        rw [if_pos scheduled']
        exact List.count_pos_iff.2 rejected
      · exact later task
      · exact .inr (.inr (keeps flag))

/-- What `_mtlk_sta_addba_exit_ps` does to the TIDs: it wakes those whose counters it
restarts. -/
theorem exitPs_at (db : Db π ν) (p : π) (k : π × Fin nofTids) :
    Closes (db.sys.tid k).tx.view → Closes ((db.exitPs p).sys.tid k).tx.view ∧
    ((db.exitPs p).sys.tid k = db.sys.tid k ∨
      k.1 = p ∧ (db.sta p).aggrInited k.2 ∧ (db.sys.tid k).tx.state = .staPowerSave) := by
  intro closes
  unfold Db.exitPs
  simp only
  generalize List.finRange nofTids = ts
  induction ts using List.reverseRecOn with
  | nil => exact ⟨closes, .inl rfl⟩
  | append_singleton ts t ih =>
    rw [List.foldl_append, List.foldl_cons, List.foldl_nil]
    generalize ts.foldl _ db.sys = s at ih ⊢
    split
    · rename_i inited
      refine ⟨step_closes ih.1 (.resetPowerSave p t), ?_⟩
      obtain same | woken := ih.2
      · by_cases here : k = (p, t)
        · by_cases asleep : (db.sys.tid k).tx.state = .staPowerSave
          · rw [here] at asleep ⊢
            exact .inr ⟨rfl, inited, asleep⟩
          · refine .inl ?_
            change Function.update s.tid (p, t) (Addba.resetPowerSave (s.ctx (p, t))).tid k = _
            rw [here, Function.update_self, resetPowerSave]
            rw [here] at same asleep
            have awake : ¬(s.ctx (p, t)).tid.tx.state = .staPowerSave := by
              rw [System.ctx, same]
              exact asleep
            rw [if_neg awake]
            exact same
        · refine .inl ?_
          change Function.update s.tid (p, t) _ k = _
          rw [Function.update_of_ne here]
          exact same
      · exact .inr woken
    · exact ih

theorem Sound.exitPs (h : Sound db) (p : π) : Sound (db.exitPs p) := by
  constructor
  case closes => exact fun k => (exitPs_at db p k (h.closes k)).1
  case revivable =>
    intro k initiated
    have kept : db.Initiated k ∧ (db.exitPs p).sys.tid k = db.sys.tid k := by
      obtain same | ⟨peer, inited, asleep⟩ := (exitPs_at db p k (h.closes k)).2
      · refine ⟨?_, same⟩
        obtain ⟨peer, connected, dot11nMode, inited⟩ | ⟨-, initiated⟩ := initiated_update initiated
        · rw [Db.Initiated, peer]
          refine ⟨connected, dot11nMode, ?_⟩
          change (if _ then false else (db.sta p).aggrInited k.2) = true at inited
          split at inited
          · cases inited
          · exact inited
        · exact initiated
      · -- the flag of a TID that is woken is lowered
        change (Function.update db.sta p _ k.1).Initiated k.2 at initiated
        rw [peer, Function.update_self] at initiated
        have lowered : (db.sta p).aggrInited k.2 &&
            decide ((db.sys.tid (p, k.2)).tx.state = .staPowerSave) := by
          rw [inited, ← peer, Bool.true_and]
          exact decide_eq_true asleep
        exact nomatch (if_pos lowered).symm.trans initiated.2.2
    unfold Db.Revivable
    rw [kept.2]
    exact h.revivable k kept.1

theorem Sound.setPmEnabled (h : Sound db) (p : π) (enabled : Bool) :
    Sound (db.setPmEnabled p enabled) := by
  have set := h.setEntry (p := p) (e := { db.sta p with psModeEnabled := enabled }) fun _ => id
  unfold Db.setPmEnabled
  simp only
  split
  · exact set
  · exact set.exitPs p

omit [DecidableEq ν] in
theorem Sound.setPacketsFilter (h : Sound db) (p : π) (filter : PcktFilter) :
    Sound (db.setPacketsFilter p filter) := by
  unfold Db.setPacketsFilter
  split
  · exact h.setEntry fun _ => id
  · exact h

theorem Sound.addSta (h : Sound db) (p : π) (now : Nat) (dot11nMode : Bool) :
    Sound (db.addSta p now dot11nMode) := by
  unfold Db.addSta
  split
  · exact h
  simp only
  constructor
  case closes =>
    intro k
    refine step_closes ?_ (.peerStart p now dot11nMode)
    change Closes (Tx.view (Tid.tx (if k.1 = p then .init else db.sys.tid k)))
    split
    · exact nofun
    · exact h.closes k
  case revivable =>
    intro k initiated
    change (Function.update db.sta p _ k.1).Initiated k.2 at initiated
    by_cases peer : k.1 = p
    · rw [peer, Function.update_self] at initiated
      exact nomatch initiated.2.2
    · rw [Function.update_of_ne peer] at initiated
      have same := (step_aside { db.sys with
        isActive := Function.update db.sys.isActive p false
        tid := fun k => if k.1 = p then .init else db.sys.tid k }
        (.peerStart p now dot11nMode) (if_neg fun both => peer both.2)).1.trans (if_neg peer)
      unfold Db.Revivable
      rw [same]
      exact h.revivable k initiated

theorem Sound.removeSta (h : Sound db) (p : π) (now : Nat) : Sound (db.removeSta p now) := by
  constructor
  case closes => exact fun k => step_closes (h.closes k) (.peerStop p now (db.sta p).dot11nMode)
  case revivable =>
    intro k initiated
    obtain ⟨-, gone⟩ | ⟨other, connected, dot11nMode, inited⟩ := initiated_update initiated
    · exact nomatch gone.1
    · obtain ⟨same, silent⟩ := step_aside db.sys (.peerStop p now (db.sta p).dot11nMode)
        (k := k) (if_neg fun both => other both.2)
      change (if restarts (db.sys.newOut _ k) then false else (db.sta k.1).aggrInited k.2) = true
        at inited
      rw [silent] at inited
      unfold Db.Revivable
      change 0 < db.tasks k + 0 ∨ ((step db.sys _).tid k).tx.state ≠ _ ∨
        ((step db.sys _).tid k).tx.addbaReqRejectState
      rw [same]
      exact h.revivable k ⟨connected, dot11nMode, inited⟩

theorem Sound.step (h : Sound db) {e : Event π ν} (kept : Kept db e) : Sound (db.step e) := by
  cases e with
  | updateTx p t scheduled => exact h.updateTx kept
  | reviveAggregation k io => exact h.reviveAggregation kept
  | addba op scheduled => exact h.addba kept
  | setPmEnabled p enabled => exact h.setPmEnabled p enabled
  | setPacketsFilter p filter => exact h.setPacketsFilter p filter
  | setAggrOpenThreshold v threshold => exact ⟨h.closes, h.revivable⟩
  | addSta p now dot11nMode => exact h.addSta p now dot11nMode
  | removeSta p now => exact h.removeSta p now

end

/-- A TID that waits for its negotiation has it under way, or will have it taken up. -/
theorem initiated_tid_revivable (home : π → ν) (cfg : ν → Fin nofTids → TidCfg)
    (maxAggr maxReord : Nat) (aggrOpenThreshold : ν → Nat) :
    ∀ db, Runs Db.step Kept (.init home cfg maxAggr maxReord aggrOpenThreshold) db →
      ∀ k, db.Initiated k → db.Revivable k := by
  intro db run
  have sound : Sound db := by
    apply run.invariant
    · exact ⟨fun k => nofun, fun k initiated => nomatch initiated.1⟩
    · exact fun db e before kept => before.step kept
  exact sound.revivable

/-- One station on one VAP, which starts to aggregate with its first packet. -/
def Db.oneStation (maxAggr : Nat) : Db Unit Unit :=
  .init id (fun _ _ => ⟨true, true, 10, 16000, 3, 10, 0, 64⟩) maxAggr 16 fun _ => 1

/-- The station is added, and a packet is sent to it on each of `tids`. The tasks that the
packets have scheduled are run. -/
def firstPackets (tids : List (Fin nofTids)) : List (Event Unit Unit) :=
  [Event.addSta () 0 true, .setPacketsFilter () .allowAll] ++
    tids.flatMap fun t => [Event.updateTx () t true, .reviveAggregation ((), t) ⟨true, true⟩]

theorem initiated_tid_revivable_once :
    let db := (firstPackets [0]).foldl Db.step (.oneStation 1)
    db.Initiated ((), 0) ∧ db.Revivable ((), 0) := by
  intro db
  have run : Runs Db.step Kept (.oneStation 1) db := by
    apply Runs.of_allowed
    decide
  have initiated : db.Initiated ((), 0) := by decide
  exact ⟨initiated, initiated_tid_revivable id _ 1 16 _ db run ((), 0) initiated⟩

/-- With no aggregation left in the limiter, the task starts nothing and the TID is lost. -/
theorem limited_tid_lost :
    let db := (firstPackets [0, 1]).foldl Db.step (.oneStation 1)
    db.Initiated ((), 1) ∧ ¬db.Revivable ((), 1) := by
  decide

end Wave300.Sta
