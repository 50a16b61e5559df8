import Wave300.Addba.Transmitter

/-!
# Aggregations and their TS ids

An aggregation is told to the owner when its `OPEN_AGGR` is confirmed, and is closed by the TS
id that the firmware wrote into the confirmation. The history of a TID is marked with the
confirmations of its `OPEN_AGGR` requests.
-/

namespace Wave300.Addba

open Wave300.Lib

variable {v v' : TxView} {trace : List (Cfm ⊕ Out)} {out : List Out}

/-- The firmware has carried out what it confirms. -/
def Cfm.Ok (cfm : Cfm) : Prop := cfm.confirmed ∧ cfm.status = umiOk

instance (cfm : Cfm) : Decidable cfm.Ok := inferInstanceAs (Decidable (_ ∧ _))

/-- The TS id granted by the confirmation of the last `OPEN_AGGR`, if that was successful. -/
def grant (granted : Option Nat) : Cfm ⊕ Out → Option Nat
  | .inl cfm => if cfm.Ok then some cfm.tsId else none
  | .inr (.sendTx (.openAggr ..)) => none
  | .inr _ => granted

def lastGrant (trace : List (Cfm ⊕ Out)) : Option Nat := trace.foldl grant none

theorem lastGrant_concat (trace : List (Cfm ⊕ Out)) (x : Cfm ⊕ Out) :
    lastGrant (trace ++ [x]) = grant (lastGrant trace) x := by
  rw [lastGrant, List.foldl_append]
  rfl

/-- An aggregation is started when it is granted, and closed by the TS id it was granted. -/
def Warranted (pre : List (Cfm ⊕ Out)) : Cfm ⊕ Out → Prop
  | .inr .startAggregation => (lastGrant pre).isSome
  | _ => True

@[inherit_doc Warranted]
def ClosedById (pre : List (Cfm ⊕ Out)) : Cfm ⊕ Out → Prop
  | .inr (.sendTx (.closeAggr tsId)) => lastGrant pre = some tsId ∧ tsId ≠ tsIdInvalid
  | _ => True

/-- What is not told to the owner nor sent for the aggregation changes nothing. -/
theorem grant_aside {o : Out} (aside : o.ofTx = false) (granted : Option Nat) :
    grant granted (.inr o) = granted := by
  cases o with
  | sendTx req => cases aside
  | _ => rfl

/-! ## One transition -/

/-- The confirmation of an `OPEN_AGGR`, when that is what the confirmed message carries. -/
def openCfm : ManMsg TxRequest → Occasion → List Cfm
  | .sent (.openAggr ..), .confirm cfm => [cfm]
  | _, _ => []

theorem openCfm_other (msg : ManMsg TxRequest) : openCfm msg .other = [] := by
  unfold openCfm
  split
  · contradiction
  · rfl

/-- The TS id of a TID is known from its history. -/
structure Granted (v : TxView) (trace : List (Cfm ⊕ Out)) : Prop where
  idle : isAggrOn v.state = false → v.tsId = tsIdInvalid
  granted : v.tsId ≠ tsIdInvalid → lastGrant trace = some v.tsId
  requests : ∀ token win timeout, v.manMsg = .sent (.addbaReq token win timeout) →
    isAggrOn v.state = false
  opens : ∀ packets bytes timeout size win,
    v.manMsg = .sent (.openAggr packets bytes timeout size win) → isAggrOn v.state = false
  closed : Each ClosedById trace

theorem Granted.skip {v : TxView} {o : Out} (aside : o.ofTx = false) (h : Granted v trace) :
    Granted v (trace ++ [Sum.inr o]) where
  idle := h.idle
  granted := by
    rw [lastGrant_concat, grant_aside aside]
    exact h.granted
  requests := h.requests
  opens := h.opens
  closed := by
    apply h.closed.concat
    cases o with
    | sendTx req => cases aside
    | _ => exact trivial

theorem Granted.of_off {v : TxView} (off : isAggrOn v.state = false) (id : v.tsId = tsIdInvalid)
    (closed : Each ClosedById trace) : Granted v trace where
  idle := fun _ => id
  granted := fun known => absurd id known
  requests := fun _ _ _ _ => off
  opens := fun _ _ _ _ _ _ => off
  closed := closed

/-- The history up to a transition, with the confirmation that the transition handles. -/
structure Marked (occ : Occasion) (v : TxView) (trace : List (Cfm ⊕ Out)) : Prop where
  sound : Granted v trace
  last : ∀ cfm ∈ openCfm v.manMsg occ,
    lastGrant trace = if cfm.Ok then some cfm.tsId else none

theorem Granted.mark (h : Granted v trace) (occ : Occasion) :
    Marked occ v (trace ++ (openCfm v.manMsg occ).map .inl) := by
  unfold openCfm
  split
  · rename_i packets bytes timeout size win cfm msg
    have off : isAggrOn v.state = false := h.opens _ _ _ _ _ msg
    constructor
    case sound => exact .of_off off (h.idle off) (h.closed.concat trivial)
    case last =>
      intro cfm' mem
      rw [msg] at mem
      rw [List.mem_singleton.1 mem, List.map_cons, List.map_nil, lastGrant_concat]
      rfl
  · rename_i other
    rw [List.map_nil, List.append_nil]
    constructor
    case sound => exact h
    case last =>
      intro cfm mem
      unfold openCfm at mem
      split at mem
      · rename_i msg
        exact (other _ _ _ _ _ _ msg rfl).elim
      · cases mem

/-- A TID keeps its TS id in step with its history. -/
theorem TxMove.granted {occ : Occasion} (move : TxMove occ v v' out)
    (h : Marked occ v trace) : Granted v' (trace ++ out.map .inr) := by
  have idle := h.sound.idle
  have waiting (waits : v.state = .addbaReqSent ∨ v.state = .addbaReqCfmd) :
      isAggrOn v.state = false := by
    obtain waits | waits := waits <;> rw [waits] <;> rfl
  have resting {state : TxState} (rests : v.state = state) (off : isAggrOn state = false) :
      v.tsId = tsIdInvalid := idle (by rw [rests, off])
  have kept : Each ClosedById (trace ++ [].map Sum.inr) := by
    rw [List.map_nil, List.append_nil]
    exact h.sound.closed
  have stopped {b : Bool} :
      Each ClosedById (trace ++ (if b then [Out.stopAggregation] else []).map .inr) := by
    cases b with
    | true => exact h.sound.closed.concat trivial
    | false => exact kept
  have reset {tsId : Nat} (reset : tsId = tsIdInvalid ∨ v.state = .none ∧ tsId = v.tsId) :
      tsId = tsIdInvalid := by
    obtain reset | ⟨none, rfl⟩ := reset
    · exact reset
    · exact resting none rfl
  cases move with
  | keep =>
    rw [List.map_nil, List.append_nil]
    exact h.sound
  | powerSave free => exact .of_off rfl (resting free rfl) kept
  | wake woken asleep => exact .of_off rfl (resting asleep rfl) kept
  | request token win timeout free msg =>
    exact .of_off rfl (resting free rfl) (h.sound.closed.concat trivial)
  | attach waits msg => exact .of_off (waiting waits) (idle (waiting waits)) kept
  | «open» packets bytes timeout size win waits msg =>
    exact .of_off rfl (idle (waiting waits)) (h.sound.closed.concat trivial)
  | close opened known msg =>
    have id := h.sound.granted known
    constructor
    case idle => exact nofun
    case granted =>
      intro _
      rw [List.map_cons, List.map_nil, lastGrant_concat]
      exact id
    case requests => exact nofun
    case opens => exact nofun
    case closed => exact h.sound.closed.concat ⟨id, known⟩
  | rejected waits => exact .of_off rfl rfl (h.sound.closed.concat trivial)
  | givenUp waits => exact .of_off rfl rfl kept
  | unanswered waits => exact .of_off rfl rfl (h.sound.closed.concat trivial)
  | relented free rejects =>
    have off : isAggrOn v.state = false := by rw [free]; rfl
    exact .of_off off (idle off) (h.sound.closed.concat trivial)
  | stop on tsId gone => exact .of_off rfl (reset gone) stopped
  | requested cfm token win timeout confirmed msg =>
    exact .of_off rfl (idle (h.sound.requests _ _ _ msg)) kept
  | opened cfm packets bytes timeout size win confirmed msg =>
    have last := h.last cfm (by rw [confirmed, msg]; exact List.mem_singleton_self cfm)
    constructor
    case idle => exact nofun
    case granted =>
      intro known
      rw [List.map_cons, List.map_nil, lastGrant_concat]
      change lastGrant trace = _
      rw [last]
      by_cases ok : cfm.Ok
      · rw [if_pos ok]
        exact congrArg some (if_pos ok).symm
      · -- a refused request leaves the invalid TS id in place
        have unchanged : (if cfm.confirmed ∧ cfm.status = umiOk then cfm.tsId else v.tsId) =
          v.tsId := if_neg ok
        exact absurd (unchanged.trans (idle (h.sound.opens _ _ _ _ _ msg))) known
    case requests => exact nofun
    case opens => exact nofun
    case closed => exact h.sound.closed.concat trivial
  | closed cfm tsId confirmed tsId' msg gone => exact .of_off rfl (reset gone) stopped

/-- An aggregation that is open was granted. -/
structure Backed (v : TxView) (trace : List (Cfm ⊕ Out)) : Prop where
  opened : v.state = .aggrOpened → (lastGrant trace).isSome
  started : Each Warranted trace

theorem Backed.skip {o : Out} (aside : o.ofTx = false) (h : Backed v trace) :
    Backed v (trace ++ [Sum.inr o]) where
  opened := by
    rw [lastGrant_concat, grant_aside aside]
    exact h.opened
  started := by
    apply h.started.concat
    cases o with
    | startAggregation => cases aside
    | _ => exact trivial

theorem Backed.mark {occ : Occasion} (h : Backed v trace)
    (ok : ∀ cfm ∈ openCfm v.manMsg occ, cfm.Ok) :
    Backed v (trace ++ (openCfm v.manMsg occ).map .inl) ∧
      ∀ cfm ∈ openCfm v.manMsg occ,
        (lastGrant (trace ++ (openCfm v.manMsg occ).map .inl)).isSome := by
  have short : openCfm v.manMsg occ = [] ∨ ∃ cfm, openCfm v.manMsg occ = [cfm] := by
    unfold openCfm
    split
    · exact .inr ⟨_, rfl⟩
    · exact .inl rfl
  obtain none | ⟨cfm, one⟩ := short
  · rw [none, List.map_nil, List.append_nil]
    exact ⟨h, nofun⟩
  · rw [one] at ok ⊢
    have last : (lastGrant (trace ++ [Sum.inl cfm])).isSome := by
      rw [lastGrant_concat, grant, if_pos (ok cfm (List.mem_singleton_self cfm))]
      rfl
    exact ⟨⟨fun _ => last, h.started.concat trivial⟩, fun _ _ => last⟩

/-- An aggregation is opened by nothing but a confirmation. -/
theorem TxMove.backed {occ : Occasion} (move : TxMove occ v v' out)
    (h : Backed v trace) (last : ∀ cfm ∈ openCfm v.manMsg occ, (lastGrant trace).isSome) :
    Backed v' (trace ++ out.map .inr) := by
  have kept : Each Warranted (trace ++ [].map Sum.inr) := by
    rw [List.map_nil, List.append_nil]
    exact h.started
  have stopped {b : Bool} :
      Each Warranted (trace ++ (if b then [Out.stopAggregation] else []).map .inr) := by
    cases b with
    | true => exact h.started.concat trivial
    | false => exact kept
  cases move with
  | keep =>
    rw [List.map_nil, List.append_nil]
    exact h
  | powerSave free => exact ⟨nofun, kept⟩
  | wake woken asleep => exact ⟨nofun, kept⟩
  | request token win timeout free msg =>
    exact ⟨nofun, h.started.concat trivial⟩
  | attach waits msg =>
    refine ⟨?_, kept⟩
    intro opened
    obtain waits | waits := waits <;> cases waits.symm.trans opened
  | «open» packets bytes timeout size win waits msg =>
    exact ⟨nofun, h.started.concat trivial⟩
  | close opened known msg => exact ⟨nofun, h.started.concat trivial⟩
  | rejected waits => exact ⟨nofun, h.started.concat trivial⟩
  | givenUp waits => exact ⟨nofun, kept⟩
  | unanswered waits => exact ⟨nofun, h.started.concat trivial⟩
  | relented free rejects =>
    refine ⟨?_, h.started.concat trivial⟩
    intro opened
    cases free.symm.trans opened
  | stop on tsId gone => exact ⟨nofun, stopped⟩
  | requested cfm token win timeout confirmed msg => exact ⟨nofun, kept⟩
  | opened cfm packets bytes timeout size win confirmed msg =>
    have some := last cfm (by rw [confirmed, msg]; exact List.mem_singleton_self cfm)
    refine ⟨?_, h.started.concat some⟩
    intro _
    rw [List.map_cons, List.map_nil, lastGrant_concat]
    exact some
  | closed cfm tsId confirmed tsId' msg gone => exact ⟨nofun, stopped⟩

/-! ## Runs -/

section
variable {π ν : Type} [DecidableEq π] [DecidableEq ν]

/-- The confirmation of an `OPEN_AGGR` of TID `k` that a step brings. -/
def openCfms (s : System π ν) (op : Op π ν) (k : π × Fin nofTids) : List Cfm :=
  openCfm (s.tid k).tx.manMsg (op.occasion k)

def grantStep (w : Watched Cfm π ν) (op : Op π ν) : Watched Cfm π ν :=
  w.step op (openCfms w.sys op)

/-- The peers as they are set up, with empty histories. -/
def Watched.init {ε : Type} (home : π → ν) (cfg : ν → Fin nofTids → TidCfg)
    (maxAggr maxReord : Nat) : Watched ε π ν where
  sys := .init home cfg maxAggr maxReord
  trace := fun _ => []

theorem grantStep_granted (w : Watched Cfm π ν) (op : Op π ν) (k : π × Fin nofTids)
    (h : Granted (w.sys.tid k).tx.view (w.trace k)) :
    Granted ((grantStep w op).sys.tid k).tx.view ((grantStep w op).trace k) := by
  obtain ⟨out, serves, trace⟩ := w.step_at op (openCfms w.sys op) k
  rw [grantStep, trace]
  apply serves.txKeep _ (J := Marked) (K := Granted)
  · intro v v' out trace move marked
    refine move.append ?_ (fun _ _ => Granted.skip) (fun _ => move.granted) marked
    intro trace o aside marked
    refine ⟨marked.sound.skip aside, ?_⟩
    rw [lastGrant_concat, grant_aside aside]
    exact marked.last
  · intro v trace sound
    refine ⟨sound, ?_⟩
    rw [openCfm_other]
    exact nofun
  · exact h.mark (op.occasion k)

theorem grantStep_backed (w : Watched Cfm π ν) (op : Op π ν) (k : π × Fin nofTids)
    (ok : ∀ cfm ∈ openCfms w.sys op k, cfm.Ok) (h : Backed (w.sys.tid k).tx.view (w.trace k)) :
    Backed ((grantStep w op).sys.tid k).tx.view ((grantStep w op).trace k) := by
  obtain ⟨out, serves, trace⟩ := w.step_at op (openCfms w.sys op) k
  rw [grantStep, trace]
  apply serves.txKeep _ (K := Backed) (J := fun occ v trace => Backed v trace ∧
    ∀ cfm ∈ openCfm v.manMsg occ, (lastGrant trace).isSome)
  · intro v v' out trace move marked
    refine move.append (K := fun trace => Backed v trace ∧
      ∀ cfm ∈ openCfm v.manMsg (op.occasion k), (lastGrant trace).isSome) ?_
      (fun _ _ => Backed.skip) ?_ marked
    · rintro trace o aside ⟨backed, last⟩
      refine ⟨backed.skip aside, ?_⟩
      rw [lastGrant_concat, grant_aside aside]
      exact last
    · rintro trace ⟨backed, last⟩
      exact move.backed backed last
  · intro v trace h
    refine ⟨h, ?_⟩
    rw [openCfm_other]
    exact nofun
  · exact h.mark ok

/-- Every `OPEN_AGGR` confirmation that a step brings is a successful one. -/
def OpensGranted (w : Watched Cfm π ν) (op : Op π ν) : Prop :=
  ∀ k, ∀ cfm ∈ openCfms w.sys op k, cfm.Ok

instance [Fintype π] (w : Watched Cfm π ν) (op : Op π ν) : Decidable (OpensGranted w op) :=
  inferInstanceAs (Decidable (∀ _, _))

/-- A `CLOSE_AGGR` carries the TS id that was granted to the aggregation it closes. While no
`OPEN_AGGR` fails, an aggregation is open, and started, only when it has been granted. -/
theorem aggregation_opened_when_granted (home : π → ν) (cfg : ν → Fin nofTids → TidCfg)
    (maxAggr maxReord : Nat) :
    (∀ w, Runs grantStep (fun _ _ => True) (.init home cfg maxAggr maxReord) w →
      ∀ k, Each ClosedById (w.trace k)) ∧
    ∀ w, Runs grantStep OpensGranted (.init home cfg maxAggr maxReord) w →
      ∀ k, ((w.sys.tid k).tx.state = .aggrOpened → (lastGrant (w.trace k)).isSome) ∧
        Each Warranted (w.trace k) := by
  constructor
  · intro w run k
    have granted : ∀ k, Granted (w.sys.tid k).tx.view (w.trace k) := by
      apply run.invariant (P := fun w => ∀ k, Granted (w.sys.tid k).tx.view (w.trace k))
      · exact fun k => .of_off rfl rfl .nil
      · exact fun w op before _ k => grantStep_granted w op k (before k)
    exact (granted k).closed
  · intro w run k
    have backed : ∀ k, Backed (w.sys.tid k).tx.view (w.trace k) := by
      apply run.invariant (P := fun w => ∀ k, Backed (w.sys.tid k).tx.view (w.trace k))
      · exact fun k => ⟨nofun, .nil⟩
      · exact fun w op before ok k => grantStep_backed w op k (ok k) (before k)
    exact ⟨(backed k).opened, (backed k).started⟩

end

/-- One peer on one VAP, with every TID allowed to aggregate. -/
def Watched.onePeer {ε : Type} : Watched ε Unit Unit :=
  .init id (fun _ _ => ⟨true, true, 10, 16000, 3, 10, 0, 64⟩) 16 16

/-- The peer accepts, and `cfm` confirms the `OPEN_AGGR`. -/
def openedWith (cfm : Cfm) : List (Op Unit Unit) :=
  [.peerStart () 0 true, .startAggrNegotiation () 0 false ⟨true, true⟩,
    .txMsgCfm () 0 ⟨true, 0, 0, 5⟩, .addbaResRx () 0 0 64 0 6 ⟨true, true⟩, .txMsgCfm () 0 cfm]

theorem aggregation_opened_when_granted_once :
    let w := (openedWith ⟨true, 0, 7, 8⟩).foldl grantStep .onePeer
    (w.sys.tid ((), 0)).tx.state = .aggrOpened ∧ lastGrant (w.trace ((), 0)) = some 7 ∧
      Each Warranted (w.trace ((), 0)) := by
  intro w
  have run : Runs grantStep OpensGranted .onePeer w := by
    apply Runs.of_allowed
    decide
  exact ⟨by decide, by decide, ((aggregation_opened_when_granted id _ 16 16).2 w run ((), 0)).2⟩

/-- The firmware refuses to open the aggregation, and it is opened all the same. -/
theorem refused_aggregation_opened :
    let w := (openedWith ⟨true, 1, 7, 8⟩).foldl grantStep .onePeer
    (w.sys.tid ((), 0)).tx.state = .aggrOpened ∧ lastGrant (w.trace ((), 0)) = none ∧
      .startAggregation ∈ w.sys.log ((), 0) := by
  decide

end Wave300.Addba
