import Mathlib.Data.Finset.Lattice.Fold
import Mathlib.Order.Lattice.Nat
import Wave300.Lib.FixedPoint
import Wave300.Ta.Intervals

/-!
# What the CoC criterion measures

The list of stations of `ta.c`, their counters, and the value that the CoC criterion hands to its
callback.

Three fields of a `Meter` are not in `_traf_analyzer_t`: `bytes` is what the stations have received
and sent so far, of which their counters keep 32 bits, `connected` which of them are connected, and
`mark` the previous call of the criterion since it was started, with the stations that have been
connected ever since. A station that there was no memory for is not counted as connected.
-/

namespace Wave300.Ta

open Lib

/-- `_ta_wss_cntr_t` -/
structure WssCntr where
  prev : Nat
  delta : Nat
  deriving DecidableEq, Repr

/-- `_ta_wss_cntr_update` -/
def taWssCntrUpdate (cntr : WssCntr) (wssCurr : Nat) : WssCntr × Nat :=
  let wssDelta := u32 (wssCurr + 2 ^ 32 - cntr.prev)
  (⟨wssCurr, wssDelta⟩, wssDelta)

/-- `_sta_wss_entry_t`, without the counters of the PCoC criterion. -/
structure StaWss where
  sta : Nat
  cocRxBytes : WssCntr
  cocTxBytes : WssCntr
  cocWssValid : Bool
  deriving DecidableEq, Repr

structure Bytes where
  received : Nat
  sent : Nat
  deriving DecidableEq, Repr

/-- `MTLK_STAI_CNT_BYTES_RECEIVED` and `MTLK_STAI_CNT_BYTES_SENT` of a station. -/
def mtlkStaGetCnt (bytes : Nat → Bytes) (sta : Nat) : Nat × Nat :=
  (u32 (bytes sta).received, u32 (bytes sta).sent)

/-- What both functions of the criterion do to an entry. -/
def StaWss.sample (bytes : Nat → Bytes) (e : StaWss) : StaWss :=
  { e with
    cocRxBytes := (taWssCntrUpdate e.cocRxBytes (mtlkStaGetCnt bytes e.sta).1).1
    cocTxBytes := (taWssCntrUpdate e.cocTxBytes (mtlkStaGetCnt bytes e.sta).2).1
    cocWssValid := true }

/-- The loop of `_ta_crit_coc`, with `max_tp_bytes`. -/
def critCocLoop (bytes : Nat → Bytes) : List StaWss → Nat → List StaWss × Nat
  | [], maxTpBytes => ([], maxTpBytes)
  | e :: rest, maxTpBytes =>
    let valRx := (taWssCntrUpdate e.cocRxBytes (mtlkStaGetCnt bytes e.sta).1).2
    let valTx := (taWssCntrUpdate e.cocTxBytes (mtlkStaGetCnt bytes e.sta).2).2
    let maxTpBytes :=
      if e.cocWssValid then
        let maxTpBytes := if maxTpBytes < valRx then valRx else maxTpBytes
        if maxTpBytes < valTx then valTx else maxTpBytes
      else maxTpBytes
    let r := critCocLoop bytes rest maxTpBytes
    (e.sample bytes :: r.1, r.2)

/-- `_coc_convert_result`. The product fits 64 bits. -/
def cocConvertResult (tpBytesInterval coeff : Nat) : Nat :=
  u32 ((tpBytesInterval * coeff) >>> taQShift)

/-- A call of the criterion, and the stations that have been connected ever since. -/
structure Mark where
  bytes : Nat → Bytes
  present : Finset Nat

/-- What a station has received since the call, and what it has sent. -/
def Mark.since (k : Mark) (now : Nat → Bytes) (sta : Nat) : Bytes :=
  ⟨(now sta).received - (k.bytes sta).received, (now sta).sent - (k.bytes sta).sent⟩

/-- The most that any of the stations has received or sent. -/
def Mark.most (k : Mark) (now : Nat → Bytes) : Nat :=
  k.present.sup fun sta => max (k.since now sta).received (k.since now sta).sent

structure Meter where
  ta : TrafAnalyzer
  staWssList : List StaWss
  values : List Nat
  bytes : Nat → Bytes
  connected : Finset Nat
  mark : Option Mark

def Meter.init : Meter := ⟨Ta.init, [], [], fun _ => ⟨0, 0⟩, ∅, none⟩

/-- A tick reaches the period of the criterion, and its function is called. -/
def Crit.due (crit : Crit) : Bool :=
  crit.fcn.isSome && crit.clb && decide (u32 (crit.tmrCnt + 1) = crit.tmrPeriod)

/-- `ta_timer`. The CoC criterion samples the counters with `_ta_crit_coc_init`, or samples them and
reports with `_ta_crit_coc`. -/
def Meter.tick (s : Meter) : Meter :=
  let crit := s.ta.crit .coc
  let ticked := { s with ta := taTimer s.ta }
  if crit.due then
    let called := { ticked with mark := some ⟨s.bytes, s.connected⟩ }
    if crit.fcn = some .crit then
      let r := critCocLoop s.bytes s.staWssList 0
      { called with
        staWssList := r.1
        values := s.values ++ [cocConvertResult r.2 s.ta.cocCfg.coeff] }
    else { called with staWssList := s.staWssList.map (StaWss.sample s.bytes) }
  else ticked

/-- Whether the CoC criterion is started, stopped or configured anew. -/
def restarts (ta : TrafAnalyzer) : Op → Bool
  | .cocCfg interval => (mtlkTaCocCfg interval ta).2
  | .setResolution ticks => (mtlkTaSetTimerResolutionTicks ticks ta).2
  | .start .coc => !ta.started .coc
  | .stop .coc | .unregister .coc => true
  | _ => false

/-- `mtlk_ta_on_connect` -/
def mtlkTaOnConnect (s : Meter) (sta : Nat) (allocated : Bool) : Meter :=
  if allocated then
    { s with
      staWssList := ⟨sta, ⟨0, 0⟩, ⟨0, 0⟩, false⟩ :: s.staWssList
      connected := insert sta s.connected }
  else s

/-- `mtlk_ta_on_disconnect`, with the loop of `_exclude_wss_sta`. -/
def mtlkTaOnDisconnect (s : Meter) (sta : Nat) : Meter :=
  { s with
    staWssList := s.staWssList.eraseP fun e => e.sta = sta
    connected := s.connected.erase sta
    mark := s.mark.map fun k => { k with present := k.present.erase sta } }

inductive MeterOp where
  | analyzer (op : Op)
  | connect (sta : Nat) (allocated : Bool)
  | disconnect (sta : Nat)
  | transfer (sta received sent : Nat)
  deriving DecidableEq, Repr

def Meter.step (s : Meter) : MeterOp → Meter
  | .analyzer .tick => s.tick
  | .analyzer op =>
    { s with ta := Ta.step s.ta op, mark := if restarts s.ta op then none else s.mark }
  | .connect sta allocated => mtlkTaOnConnect s sta allocated
  | .disconnect sta => mtlkTaOnDisconnect s sta
  | .transfer sta received sent =>
    let b := s.bytes sta
    { s with bytes := Function.update s.bytes sta ⟨b.received + received, b.sent + sent⟩ }

/-- A station connects when it is not connected and disconnects when it is, and a criterion is
configured before it is started. -/
def Permitted (s : Meter) : MeterOp → Prop
  | .analyzer (.start c) => (s.ta.crit c).tmrPeriod ≠ 0
  | .connect sta _ => sta ∉ s.connected
  | .disconnect sta => sta ∈ s.connected
  | _ => True

instance (s : Meter) : ∀ op : MeterOp, Decidable (Permitted s op)
  | .analyzer (.start _) => inferInstanceAs (Decidable (_ ≠ _))
  | .connect _ _ => inferInstanceAs (Decidable (_ ∉ _))
  | .disconnect _ => inferInstanceAs (Decidable (_ ∈ _))
  | .analyzer (.cocCfg _) | .analyzer (.pcocCfg _) | .analyzer (.setResolution _)
  | .analyzer (.stop _) | .analyzer (.register _) | .analyzer (.unregister _) | .analyzer .tick
  | .transfer _ _ _ => .isTrue trivial

variable {ta ta' : TrafAnalyzer} {op : Op} {s : Meter} {k : Mark} {bytes : Nat → Bytes}
  {l : List StaWss} {e : StaWss} {sta : Nat}

/-! ## The criterion -/

/-- A criterion that is started has a coefficient for its interval. -/
structure Configured (ta : TrafAnalyzer) : Prop where
  resolution : 0 < ta.timerResMs
  coeff : (ta.crit .coc).tmrPeriod ≠ 0 → 0 < u32 (ta.cocCfg.interval * tickMsec) ∧
    ta.cocCfg.coeff = (1000 <<< taQShift) / u32 (ta.cocCfg.interval * tickMsec)
  on : (ta.crit .coc).fcn.isSome = true → (ta.crit .coc).tmrPeriod ≠ 0

theorem Configured.init : Configured Ta.init where
  resolution := by decide
  coeff := fun period => absurd rfl period
  on := by rintro ⟨⟩

theorem Configured.same (h : Configured ta) (same : SameSchedule ta ta')
    (on : (ta'.crit .coc).fcn.isSome = true →
      (ta.crit .coc).fcn.isSome = true ∨ (ta.crit .coc).tmrPeriod ≠ 0) : Configured ta' := by
  constructor
  case resolution => exact same.timerResMs ▸ h.resolution
  case coeff =>
    rw [same.period, same.cocCfg]
    exact h.coeff
  case on =>
    intro some
    rw [same.period]
    exact (on some).elim h.on id

theorem Configured.cocCfg (h : Configured ta) (interval : Nat) :
    Configured (mtlkTaCocCfg interval ta).1 := by
  unfold mtlkTaCocCfg
  split
  · exact h
  next long =>
    have pos := h.resolution
    have long := Nat.le_of_not_lt long
    have period : u32 (tickMsec * interval) / ta.timerResMs ≠ 0 := by
      rw [Nat.mul_comm]
      exact (Nat.div_pos long pos).ne'
    constructor
    case resolution => exact pos
    case coeff => exact fun _ => ⟨Nat.lt_of_lt_of_le pos long, rfl⟩
    case on =>
      intro _
      simp only [TrafAnalyzer.setCrit, Function.update_self, configure_period]
      exact period

theorem start_crit (c : CritId) : (mtlkTaCritStart c ta).crit =
    if (ta.crit c).fcn.isSome then ta.crit
    else Function.update ta.crit c
      { ta.crit c with fcn := c.initFcn (ta.crit c).fcn, tmrCnt := (ta.crit c).tmrPeriod - 1 } := by
  have armed : (if ta.activeCritNum = 0 then { ta with timer := true } else ta).crit = ta.crit := by
    split <;> rfl
  simp only [mtlkTaCritStart]
  generalize (if ta.activeCritNum = 0 then { ta with timer := true } else ta) = ta' at armed
  rw [← armed]
  split <;> rfl

theorem stop_crit (c : CritId) : (mtlkTaCritStop c ta).crit =
    if (ta.crit c).fcn.isSome then Function.update ta.crit c { ta.crit c with fcn := none }
    else ta.crit := by
  simp only [mtlkTaCritStop]
  by_cases on : (ta.crit c).fcn.isSome = true
  · rw [if_pos on, if_pos on]
    split <;> rfl
  · rw [if_neg on, if_neg on]
    split <;> rfl

theorem start_fcn (c : CritId) : ((mtlkTaCritStart c ta).crit .coc).fcn =
    if c = .coc ∧ (ta.crit .coc).fcn = none then some .critInit else (ta.crit .coc).fcn := by
  rw [start_crit]
  by_cases coc : c = .coc
  · subst coc
    cases on : (ta.crit .coc).fcn with
    | none => simp [CritId.initFcn]
    | some fcn => simp [on]
  · rw [if_neg (c := c = .coc ∧ _) fun both => coc both.1]
    split
    · rfl
    · rw [Function.update_of_ne (Ne.symm coc)]

theorem stop_fcn (c : CritId) : ((mtlkTaCritStop c ta).crit .coc).fcn =
    if c = .coc then none else (ta.crit .coc).fcn := by
  rw [stop_crit]
  by_cases coc : c = .coc
  · subst coc
    cases on : (ta.crit .coc).fcn with
    | none => simp [on]
    | some fcn => simp
  · rw [if_neg coc]
    split
    · rw [Function.update_of_ne (Ne.symm coc)]
    · rfl

theorem register_fcn (c : CritId) :
    ((mtlkTaCritRegister c ta).1.crit .coc).fcn = (ta.crit .coc).fcn := by
  simp only [mtlkTaCritRegister]
  split
  · rfl
  · by_cases coc : c = .coc
    · subst coc
      simp [TrafAnalyzer.setCrit]
    · simp [TrafAnalyzer.setCrit, Function.update_of_ne (Ne.symm coc)]

theorem unregister_fcn (c : CritId) : ((mtlkTaCritUnregister c ta).crit .coc).fcn =
    if c = .coc then none else (ta.crit .coc).fcn := by
  have stopped : ((mtlkTaCritStop c ta).crit .coc).fcn =
      if c = .coc then none else (ta.crit .coc).fcn := stop_fcn c
  by_cases coc : c = .coc
  · subst coc
    simpa [mtlkTaCritUnregister, TrafAnalyzer.setCrit] using stopped
  · simpa [mtlkTaCritUnregister, TrafAnalyzer.setCrit, coc, Ne.symm coc] using stopped

theorem cocCfg_fcn (interval : Nat) (ta : TrafAnalyzer) :
    ((mtlkTaCocCfg interval ta).2 = true →
      ((mtlkTaCocCfg interval ta).1.crit .coc).fcn ≠ some .crit) ∧
    ((mtlkTaCocCfg interval ta).2 = false → (mtlkTaCocCfg interval ta).1 = ta) := by
  unfold mtlkTaCocCfg
  split
  · exact ⟨by rintro ⟨⟩, fun _ => rfl⟩
  · refine ⟨?_, by rintro ⟨⟩⟩
    intro _
    simp only [TrafAnalyzer.setCrit, Function.update_self, Crit.configure]
    cases (ta.crit .coc).fcn <;> simp

/-- The function of the criterion after an operation other than a tick. -/
theorem restarts_fcn (other : op ≠ .tick) :
    (restarts ta op = true → ((step ta op).crit .coc).fcn ≠ some .crit) ∧
    (restarts ta op = false → ((step ta op).crit .coc).fcn = (ta.crit .coc).fcn) := by
  cases op with
  | tick => exact absurd rfl other
  | cocCfg interval =>
    obtain ⟨accepted, rejected⟩ := cocCfg_fcn interval ta
    exact ⟨accepted, fun no => by rw [step, rejected no]⟩
  | pcocCfg interval =>
    refine ⟨by rintro ⟨⟩, fun _ => ?_⟩
    simp only [step, mtlkTaPcocCfg]
    split <;> rfl
  | setResolution ticks =>
    simp only [restarts, step, mtlkTaSetTimerResolutionTicks]
    split
    next accepted =>
      refine ⟨fun _ => (cocCfg_fcn _ _).1 ?_, by rintro ⟨⟩⟩
      rw [mtlkTaCocCfg, if_neg (Nat.not_lt.2 accepted.2)]
    · exact ⟨by rintro ⟨⟩, fun _ => rfl⟩
  | start c =>
    rw [step, start_fcn]
    cases c with
    | coc =>
      cases on : (ta.crit .coc).fcn <;> simp [restarts, TrafAnalyzer.started, on]
    | pcoc | aocs | dagg => exact ⟨by rintro ⟨⟩, fun _ => rfl⟩
  | stop c =>
    rw [step, stop_fcn]
    cases c with
    | coc => exact ⟨fun _ => by simp, by rintro ⟨⟩⟩
    | pcoc | aocs | dagg => exact ⟨by rintro ⟨⟩, fun _ => rfl⟩
  | register c => exact ⟨by rintro ⟨⟩, fun _ => register_fcn c⟩
  | unregister c =>
    rw [step, unregister_fcn]
    cases c with
    | coc => exact ⟨fun _ => by simp, by rintro ⟨⟩⟩
    | pcoc | aocs | dagg => exact ⟨by rintro ⟨⟩, fun _ => rfl⟩

theorem Configured.step (h : Configured ta)
    (period : ∀ c, op = .start c → (ta.crit c).tmrPeriod ≠ 0) : Configured (step ta op) := by
  cases op with
  | cocCfg interval => exact h.cocCfg interval
  | pcocCfg interval =>
    simp only [Ta.step, mtlkTaPcocCfg]
    split
    · exact h
    · exact ⟨h.resolution, h.coeff, h.on⟩
  | setResolution ticks =>
    simp only [Ta.step, mtlkTaSetTimerResolutionTicks]
    split
    next accepted =>
      have pos : 0 < u32 (ticks * taTimerMsPerTick) := by
        rw [u32_ticks accepted.1.2]
        exact Nat.mul_pos accepted.1.1 (by decide)
      have moved : Configured { ta with timerResMs := u32 (ticks * taTimerMsPerTick) } :=
        ⟨pos, h.coeff, h.on⟩
      exact moved.cocCfg _
    · exact h
  | start c =>
    refine h.same same_start ?_
    rw [Ta.step, start_fcn]
    split
    next coc =>
      obtain ⟨rfl, -⟩ := coc
      exact fun _ => .inr (period .coc rfl)
    · exact .inl
  | stop c =>
    refine h.same same_stop ?_
    rw [Ta.step, stop_fcn]
    split
    · rintro ⟨⟩
    · exact .inl
  | register c =>
    refine h.same (same_schedule (by simp)) ?_
    rw [Ta.step, register_fcn]
    exact .inl
  | unregister c =>
    refine h.same (same_schedule (by simp)) ?_
    rw [Ta.step, unregister_fcn]
    split
    · rintro ⟨⟩
    · exact .inl
  | tick =>
    refine h.same (same_schedule (by simp)) ?_
    have kept : ((taTimer ta).crit .coc).fcn.isSome = (ta.crit .coc).fcn.isSome :=
      (tick_kept (ta.crit .coc)).1
    rw [Ta.step, kept]
    exact .inl

/-! ## The list of stations -/

theorem critCocLoop_list (l : List StaWss) (m : Nat) :
    (critCocLoop bytes l m).1 = l.map (StaWss.sample bytes) := by
  induction l generalizing m with
  | nil => rfl
  | cons e l ih => exact congrArg _ (ih _)

/-- The result is the least bound of what the valid entries have counted. -/
theorem critCocLoop_le_iff {m b : Nat} : (critCocLoop bytes l m).2 ≤ b ↔
    m ≤ b ∧ ∀ e ∈ l, e.cocWssValid = true →
      (taWssCntrUpdate e.cocRxBytes (mtlkStaGetCnt bytes e.sta).1).2 ≤ b ∧
      (taWssCntrUpdate e.cocTxBytes (mtlkStaGetCnt bytes e.sta).2).2 ≤ b := by
  induction l generalizing m with
  | nil => simp [critCocLoop]
  | cons e l ih =>
    simp only [critCocLoop, ih, List.forall_mem_cons, ← and_assoc]
    refine and_congr_left fun _ => ?_
    generalize (taWssCntrUpdate e.cocRxBytes _).2 = rx
    generalize (taWssCntrUpdate e.cocTxBytes _).2 = tx
    cases e.cocWssValid with
    | false => simp
    | true =>
      simp only [if_true, forall_const]
      split_ifs <;> omega

/-- A counter of 32 bits shows what was added to it. -/
theorem u32_sub {before now : Nat} (grown : before ≤ now) (small : now - before < 2 ^ 32) :
    u32 (u32 now + 2 ^ 32 - u32 before) = now - before := by
  unfold u32
  omega

/-- The entries that are valid are those of the stations that have been connected since the call,
and show what their counters were then. -/
structure Sampled (k : Mark) (bytes : Nat → Bytes) (l : List StaWss) : Prop where
  valid : ∀ e ∈ l, e.cocWssValid = true ↔ e.sta ∈ k.present
  prev : ∀ e ∈ l, e.cocWssValid = true → e.cocRxBytes.prev = u32 (k.bytes e.sta).received ∧
    e.cocTxBytes.prev = u32 (k.bytes e.sta).sent
  listed : ∀ sta ∈ k.present, ∃ e ∈ l, e.sta = sta
  grown : ∀ sta, (k.bytes sta).received ≤ (bytes sta).received ∧
    (k.bytes sta).sent ≤ (bytes sta).sent

/-- None of the stations has received or sent `2 ^ 32` bytes since the call. -/
def Mark.Small (k : Mark) (now : Nat → Bytes) : Prop :=
  ∀ sta ∈ k.present, (k.since now sta).received < 2 ^ 32 ∧ (k.since now sta).sent < 2 ^ 32

theorem Mark.most_lt (small : k.Small bytes) : k.most bytes < 2 ^ 32 := by
  refine (Finset.sup_lt_iff (by decide)).2 ?_
  intro sta mem
  exact max_lt (small sta mem).1 (small sta mem).2

theorem Sampled.most (h : Sampled k bytes l) (small : k.Small bytes) :
    (critCocLoop bytes l 0).2 = k.most bytes := by
  have counted : ∀ e ∈ l, e.cocWssValid = true →
      (taWssCntrUpdate e.cocRxBytes (mtlkStaGetCnt bytes e.sta).1).2 =
        (k.since bytes e.sta).received ∧
      (taWssCntrUpdate e.cocTxBytes (mtlkStaGetCnt bytes e.sta).2).2 =
        (k.since bytes e.sta).sent := by
    intro e mem valid
    obtain ⟨rx, tx⟩ := h.prev e mem valid
    obtain ⟨received, sent⟩ := h.grown e.sta
    have bound := small e.sta ((h.valid e mem).1 valid)
    simp only [taWssCntrUpdate, mtlkStaGetCnt, rx, tx]
    exact ⟨u32_sub received bound.1, u32_sub sent bound.2⟩
  refine eq_of_forall_ge_iff fun b => ?_
  rw [critCocLoop_le_iff, Mark.most, Finset.sup_le_iff]
  constructor
  · rintro ⟨-, entries⟩ sta mem
    obtain ⟨e, listed, rfl⟩ := h.listed sta mem
    have valid := (h.valid e listed).2 mem
    obtain ⟨rx, tx⟩ := counted e listed valid
    have le := entries e listed valid
    rw [rx, tx] at le
    exact max_le le.1 le.2
  · intro stations
    refine ⟨Nat.zero_le b, ?_⟩
    intro e listed valid
    obtain ⟨rx, tx⟩ := counted e listed valid
    rw [rx, tx]
    exact max_le_iff.1 (stations e.sta ((h.valid e listed).1 valid))

/-! ## Runs -/

structure Measured (s : Meter) : Prop where
  configured : Configured s.ta
  once : (s.staWssList.map StaWss.sta).Nodup
  connected : ∀ sta, sta ∈ s.connected ↔ ∃ e ∈ s.staWssList, e.sta = sta
  marked : (s.ta.crit .coc).fcn = some .crit → s.mark.isSome
  sampled : ∀ k, s.mark = some k → Sampled k s.bytes s.staWssList

theorem Measured.init : Measured Meter.init where
  configured := .init
  once := List.nodup_nil
  connected := by simp [Meter.init]
  marked := by rintro ⟨⟩
  sampled := by rintro k ⟨⟩

theorem map_sample_sta (bytes : Nat → Bytes) (l : List StaWss) :
    (l.map (StaWss.sample bytes)).map StaWss.sta = l.map StaWss.sta := by
  rw [List.map_map]
  rfl

theorem exists_sample : (∃ e ∈ l.map (StaWss.sample bytes), e.sta = sta) ↔
    ∃ e ∈ l, e.sta = sta := by
  simp only [List.mem_map]
  constructor
  · rintro ⟨_, ⟨e, mem, rfl⟩, is⟩
    exact ⟨e, mem, is⟩
  · rintro ⟨e, mem, is⟩
    exact ⟨_, ⟨e, mem, rfl⟩, is⟩

/-- After a call of the criterion. -/
theorem sampled_now {connected : Finset Nat}
    (all : ∀ sta, sta ∈ connected ↔ ∃ e ∈ l, e.sta = sta) :
    Sampled ⟨bytes, connected⟩ bytes (l.map (StaWss.sample bytes)) where
  valid := by
    simp only [List.mem_map]
    rintro _ ⟨e, mem, rfl⟩
    exact iff_of_true rfl ((all _).2 ⟨e, mem, rfl⟩)
  prev := by
    simp only [List.mem_map]
    rintro _ ⟨e, -, rfl⟩ -
    exact ⟨rfl, rfl⟩
  listed sta mem := exists_sample.2 ((all sta).1 mem)
  grown _ := ⟨Nat.le_refl _, Nat.le_refl _⟩

theorem tick_fcn (crit : Crit) (reports : crit.tick.1.fcn = some .crit) (early : crit.due = false) :
    crit.fcn = some .crit := by
  simp only [Crit.tick] at reports
  split at reports
  next => exact reports
  next fcn on =>
    split at reports
    · exact reports
    · split at reports
      next clb last => simp [Crit.due, on, by simpa using clb, last] at early
      · exact reports

theorem Measured.tick (h : Measured s) : Measured s.tick := by
  have configured : Configured (Ta.step s.ta .tick) := h.configured.step (by simp)
  have now : Sampled ⟨s.bytes, s.connected⟩ s.bytes (s.staWssList.map (StaWss.sample s.bytes)) :=
    sampled_now h.connected
  have once := map_sample_sta s.bytes s.staWssList ▸ h.once
  have connected (sta : Nat) : sta ∈ s.connected ↔
      ∃ e ∈ s.staWssList.map (StaWss.sample s.bytes), e.sta = sta :=
    (h.connected sta).trans exists_sample.symm
  simp only [Meter.tick]
  split
  · split
    · simp only [critCocLoop_list]
      refine ⟨configured, once, connected, fun _ => rfl, ?_⟩
      rintro k ⟨⟩
      exact now
    · refine ⟨configured, once, connected, fun _ => rfl, ?_⟩
      rintro k ⟨⟩
      exact now
  next early =>
    refine ⟨configured, h.once, h.connected, ?_, h.sampled⟩
    exact fun reports => h.marked (tick_fcn _ reports (by simpa using early))

theorem Measured.analyzer (h : Measured s) (other : op ≠ .tick)
    (period : ∀ c, op = .start c → (s.ta.crit c).tmrPeriod ≠ 0) :
    Measured
      { s with ta := Ta.step s.ta op, mark := if restarts s.ta op then none else s.mark } := by
  obtain ⟨stops, goesOn⟩ : (restarts s.ta op = true → _) ∧ _ := restarts_fcn other
  refine ⟨h.configured.step period, h.once, h.connected, ?_, ?_⟩
  · intro reports
    cases again : restarts s.ta op with
    | true => exact absurd reports (stops again)
    | false => exact h.marked ((goesOn again).symm.trans reports)
  · intro k marked
    cases again : restarts s.ta op with
    | true => simp [again] at marked
    | false =>
      refine h.sampled k ?_
      simpa [again] using marked

theorem Measured.connect (h : Measured s) (sta : Nat) (allocated : Bool) (new : sta ∉ s.connected) :
    Measured (mtlkTaOnConnect s sta allocated) := by
  rw [mtlkTaOnConnect]
  split
  · have fresh : sta ∉ s.staWssList.map StaWss.sta := by
      rw [List.mem_map]
      exact fun there => new ((h.connected sta).2 there)
    constructor
    case configured => exact h.configured
    case once => exact List.nodup_cons.2 ⟨fresh, h.once⟩
    case connected =>
      intro other
      simp only [Finset.mem_insert, List.exists_mem_cons_iff, h.connected, eq_comm]
    case marked => exact h.marked
    case sampled =>
      intro k marked
      have sampled := h.sampled k marked
      have absent : sta ∉ k.present := fun mem =>
        new ((h.connected sta).2 (sampled.listed sta mem))
      constructor
      case valid =>
        rw [List.forall_mem_cons]
        exact ⟨iff_of_false Bool.false_ne_true absent, sampled.valid⟩
      case prev =>
        rw [List.forall_mem_cons]
        exact ⟨by rintro ⟨⟩, sampled.prev⟩
      case listed =>
        intro other mem
        obtain ⟨e, there, is⟩ := sampled.listed other mem
        exact ⟨e, List.mem_cons_of_mem _ there, is⟩
      case grown => exact sampled.grown
  · exact h

/-- A station is in the list once. -/
theorem mem_excluded (once : (l.map StaWss.sta).Nodup) :
    e ∈ l.eraseP (fun e => e.sta = sta) ↔ e ∈ l ∧ e.sta ≠ sta := by
  induction l with
  | nil => simp
  | cons first l ih =>
    rw [List.map_cons, List.nodup_cons, List.mem_map] at once
    by_cases found : first.sta = sta
    · rw [List.eraseP_cons_of_pos (by simpa using found), List.mem_cons]
      constructor
      · intro mem
        refine ⟨.inr mem, ?_⟩
        intro again
        exact once.1 ⟨e, mem, again.trans found.symm⟩
      · rintro ⟨rfl | mem, other⟩
        · exact absurd found other
        · exact mem
    · rw [List.eraseP_cons_of_neg (by simpa using found), List.mem_cons, List.mem_cons, ih once.2]
      constructor
      · rintro (rfl | ⟨mem, other⟩)
        · exact ⟨.inl rfl, found⟩
        · exact ⟨.inr mem, other⟩
      · rintro ⟨rfl | mem, other⟩
        · exact .inl rfl
        · exact .inr ⟨mem, other⟩

theorem exists_excluded (once : (l.map StaWss.sta).Nodup) {other : Nat} :
    (∃ e ∈ l.eraseP (fun e => e.sta = sta), e.sta = other) ↔
      other ≠ sta ∧ ∃ e ∈ l, e.sta = other := by
  simp only [mem_excluded once]
  constructor
  · rintro ⟨e, ⟨mem, ne⟩, rfl⟩
    exact ⟨ne, e, mem, rfl⟩
  · rintro ⟨ne, e, mem, rfl⟩
    exact ⟨e, ⟨mem, ne⟩, rfl⟩

theorem Sampled.disconnect (h : Sampled k bytes l) (once : (l.map StaWss.sta).Nodup) (sta : Nat) :
    Sampled { k with present := k.present.erase sta } bytes
      (l.eraseP fun e => e.sta = sta) where
  valid e mem := by
    obtain ⟨there, ne⟩ := (mem_excluded once).1 mem
    rw [h.valid e there, Finset.mem_erase]
    exact ⟨fun present => ⟨ne, present⟩, And.right⟩
  prev e mem valid := h.prev e ((mem_excluded once).1 mem).1 valid
  listed other mem := by
    rw [Finset.mem_erase] at mem
    exact (exists_excluded once).2 ⟨mem.1, h.listed other mem.2⟩
  grown := h.grown

theorem Measured.disconnect (h : Measured s) (sta : Nat) : Measured (mtlkTaOnDisconnect s sta) where
  configured := h.configured
  once := h.once.sublist (List.eraseP_sublist.map _)
  connected other := by
    rw [mtlkTaOnDisconnect, Finset.mem_erase, h.connected]
    exact (exists_excluded h.once).symm
  marked reports := by
    rw [mtlkTaOnDisconnect, Option.isSome_map]
    exact h.marked reports
  sampled := by
    intro k marked
    obtain ⟨k₀, before, rfl⟩ := Option.map_eq_some_iff.1 marked
    exact (h.sampled k₀ before).disconnect h.once sta

theorem Measured.transfer (h : Measured s) (sta received sent : Nat) :
    Measured (s.step (.transfer sta received sent)) := by
  refine ⟨h.configured, h.once, h.connected, h.marked, ?_⟩
  intro k marked
  have sampled := h.sampled k marked
  refine ⟨sampled.valid, sampled.prev, sampled.listed, ?_⟩
  intro other
  have grown := sampled.grown other
  by_cases is : other = sta
  · subst is
    simp only [Meter.step, Function.update_self]
    exact ⟨Nat.le_add_right_of_le grown.1, Nat.le_add_right_of_le grown.2⟩
  · simp only [Meter.step, Function.update_of_ne is]
    exact grown

theorem Measured.step (h : Measured s) {op : MeterOp} (permitted : Permitted s op) :
    Measured (s.step op) := by
  cases op with
  | analyzer op =>
    cases op with
    | tick => exact h.tick
    | start c =>
      refine h.analyzer (by simp) ?_
      rintro d ⟨⟩
      exact permitted
    | cocCfg | pcocCfg | setResolution | stop | register | unregister =>
      exact h.analyzer (by simp) (by rintro c ⟨⟩)
  | connect sta allocated => exact h.connect sta allocated permitted
  | disconnect sta => exact h.disconnect sta
  | transfer sta received sent => exact h.transfer sta received sent

/-! ## The value -/

theorem coc_value_short {m ms coeff : Nat} (short : ms < 2 ^ 32) (pos : 0 < ms) (small : m < 2 ^ 32)
    (is : coeff = (1000 <<< taQShift) / u32 ms) :
    RoundsDown taQShift 1000 m ms (cocConvertResult m coeff) ↔ m * coeff < 2 ^ 50 := by
  have whole : u32 ms = ms := Nat.mod_eq_of_lt short
  have scaled : RoundsDown taQShift 1000 m ms (m * coeff / 2 ^ taQShift) := by
    rw [is, whole, Nat.shiftLeft_eq]
    exact roundsDown_scaled pos
  simp only [cocConvertResult, Nat.shiftRight_eq_div_pow]
  generalize product : m * coeff = p at scaled ⊢
  by_cases fits : p < 2 ^ 50
  · have same : u32 (p / 2 ^ taQShift) = p / 2 ^ taQShift := by
      simp only [u32, taQShift]
      omega
    rw [same]
    exact iff_of_true scaled fits
  · refine iff_of_false (scaled.not_of_add_le (B := 2 ^ 32) ?_ ?_) fits
    · simp only [u32, taQShift]
      omega
    · simp only [taQShift]
      omega

/-- Milliseconds that do not fit 32 bits are so many that the value should be next to nothing. -/
theorem coc_value_long {m ms coeff : Nat} (long : 2 ^ 32 ≤ ms) (fits : m * coeff < 2 ^ 50) :
    RoundsDown taQShift 1000 m ms (cocConvertResult m coeff) ↔ m * coeff < 2 ^ 18 := by
  have same : cocConvertResult m coeff = m * coeff / 2 ^ 18 := by
    simp only [cocConvertResult, Nat.shiftRight_eq_div_pow, u32, taQShift]
    omega
  rw [same, roundsDown_iff (by omega), taQShift]
  constructor
  · rintro ⟨le, -⟩
    by_contra some
    have coeffPos : 0 < coeff := by
      by_contra none
      simp [Nat.eq_zero_of_not_pos none] at some
    have m_le : m ≤ m * coeff := Nat.le_mul_of_pos_right m coeffPos
    have v_le := Nat.mul_le_mul_left (m * coeff / 2 ^ 18) long
    omega
  · intro none
    have zero : m * coeff / 2 ^ 18 = 0 := Nat.div_eq_of_lt none
    have wide := Nat.mul_le_mul_left (2 ^ 18 + m) long
    rw [zero, Nat.zero_add, Nat.one_mul]
    omega

/-- The next tick reports. -/
def Meter.Reports (s : Meter) : Prop :=
  (s.ta.crit .coc).due = true ∧ (s.ta.crit .coc).fcn = some .crit

instance (s : Meter) : Decidable s.Reports := inferInstanceAs (Decidable (_ ∧ _))

def Meter.intervalMs (s : Meter) : Nat := s.ta.cocCfg.interval * tickMsec

/-- The value of the next tick is the most that a station has received or sent since the mark, in
bytes a second. -/
def Meter.Right (s : Meter) (k : Mark) : Prop :=
  ∃ value, (s.step (.analyzer .tick)).values = s.values ++ [value] ∧
    RoundsDown taQShift 1000 (k.most s.bytes) s.intervalMs value

/-- The milliseconds of the interval fit 32 bits, or the value is zero, and the value fits them. -/
def Meter.Fits (s : Meter) (k : Mark) : Prop :=
  (s.intervalMs < 2 ^ 32 ∨ k.most s.bytes * s.ta.cocCfg.coeff < 2 ^ 18) ∧
    k.most s.bytes * s.ta.cocCfg.coeff < 2 ^ 50

instance (s : Meter) (k : Mark) : Decidable (s.Fits k) := inferInstanceAs (Decidable (_ ∧ _))

theorem Measured.right_iff (h : Measured s) (reports : s.Reports) (marked : s.mark = some k)
    (small : k.Small s.bytes) : s.Right k ↔ RoundsDown taQShift 1000 (k.most s.bytes) s.intervalMs
      (cocConvertResult (k.most s.bytes) s.ta.cocCfg.coeff) := by
  have most := (h.sampled k marked).most small
  have values : (s.step (.analyzer .tick)).values =
      s.values ++ [cocConvertResult (k.most s.bytes) s.ta.cocCfg.coeff] := by
    simp only [Meter.step, Meter.tick, reports.1, reports.2, if_true, most]
  rw [Meter.Right, values]
  constructor
  · rintro ⟨value, same, rounds⟩
    rw [List.append_cancel_left_eq, List.cons.injEq] at same
    rwa [same.1]
  · exact fun rounds => ⟨_, rfl, rounds⟩

/-- At any tick that reports there has been a call of the criterion before, since it was started and
configured. If no station has got or sent `2 ^ 32` bytes since that call, the value is right when
the interval and the value fit 32 bits, and wrong when one of them does not. -/
theorem coc_value_iff (run : Runs Meter.step Permitted .init s) (reports : s.Reports)
    (small : ∀ k, s.mark = some k → k.Small s.bytes) : ∃ k, s.mark = some k ∧
      (s.Fits k → s.Right k) ∧ (s.Right k → s.Fits k ∨
        2 ^ 32 ≤ s.intervalMs ∧ 2 ^ 50 ≤ k.most s.bytes * s.ta.cocCfg.coeff) := by
  have measured : Measured s := run.invariant .init fun _ _ before allowed => before.step allowed
  obtain ⟨k, marked⟩ := Option.isSome_iff_exists.1 (measured.marked reports.2)
  have small := small k marked
  have on : (s.ta.crit .coc).fcn.isSome = true := reports.2 ▸ rfl
  obtain ⟨some, coeff⟩ := measured.configured.coeff (measured.configured.on on)
  refine ⟨k, marked, ?_⟩
  rw [measured.right_iff reports marked small]
  by_cases short : s.intervalMs < 2 ^ 32
  · have pos : 0 < s.intervalMs := Nat.pos_of_ne_zero fun zero => by
      rw [Meter.intervalMs] at zero
      simp [zero, u32] at some
    have value := coc_value_short short pos (Mark.most_lt small) coeff
    exact ⟨fun fits => value.2 fits.2, fun right => .inl ⟨.inl short, value.1 right⟩⟩
  · have long := Nat.le_of_not_lt short
    constructor
    · rintro ⟨wraps | none, fits⟩
      · exact absurd wraps short
      · exact (coc_value_long long fits).2 none
    · intro right
      by_cases fits : k.most s.bytes * s.ta.cocCfg.coeff < 2 ^ 50
      · exact .inl ⟨.inr ((coc_value_long long fits).1 right), fits⟩
      · exact .inr ⟨long, Nat.le_of_not_lt fits⟩

/-- An interval of 200 ms at a resolution of 100 ms, in which a station that was connected before
gets 100 bytes and sends 300, and a new one gets 9000. -/
def quietRun : List MeterOp :=
  [.connect 0 true, .analyzer (.cocCfg 2), .analyzer (.register .coc), .analyzer (.start .coc),
    .transfer 0 700 0, .analyzer .tick, .connect 1 true, .analyzer .tick, .transfer 0 100 300,
    .transfer 1 9000 0]

theorem coc_value_quiet : ∃ k, (quietRun.foldl Meter.step .init).mark = some k ∧
    (quietRun.foldl Meter.step .init).Right k := by
  have run : Runs Meter.step Permitted .init (quietRun.foldl Meter.step .init) :=
    .of_allowed (by decide)
  have mark : (quietRun.foldl Meter.step .init).mark =
      some ⟨Function.update (fun _ => ⟨0, 0⟩) 0 ⟨700, 0⟩, insert 0 ∅⟩ := rfl
  obtain ⟨k, marked, right, -⟩ := coc_value_iff run (by decide) (by
    intro k marked
    cases mark.symm.trans marked
    unfold Mark.Small
    decide)
  refine ⟨k, marked, right ?_⟩
  cases mark.symm.trans marked
  decide

/-- An interval of 100 ms in which one station gets all but one of `2 ^ 32` bytes. -/
def busyRun : List MeterOp :=
  [.connect 0 true, .analyzer (.cocCfg 1), .analyzer (.register .coc), .analyzer (.start .coc),
    .analyzer .tick, .transfer 0 (2 ^ 32 - 1) 0]

/-- The value is `2 ^ 32 - 10`, of ten times `2 ^ 32 - 1` bytes a second. -/
theorem coc_value_truncated : Runs Meter.step Permitted .init (busyRun.foldl Meter.step .init) ∧
    (busyRun.foldl Meter.step .init).Reports ∧
    ∃ k, (busyRun.foldl Meter.step .init).mark = some k ∧
      k.Small (busyRun.foldl Meter.step .init).bytes ∧
      ¬ (busyRun.foldl Meter.step .init).Right k := by
  refine ⟨.of_allowed (by decide), by decide, ⟨fun _ => ⟨0, 0⟩, insert 0 ∅⟩, rfl, ?_, ?_⟩
  · unfold Mark.Small
    decide
  · rintro ⟨value, same, rounds⟩
    have values : ((busyRun.foldl Meter.step .init).step (.analyzer .tick)).values =
        [2 ^ 32 - 10] := by decide
    rw [values] at same
    cases same
    exact absurd ((roundsDown_iff (by decide)).1 rounds).2 (by decide)

end Wave300.Ta
