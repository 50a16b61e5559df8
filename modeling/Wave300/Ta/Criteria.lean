import Wave300.Lib.Trace

/-!
# The traffic analyzer

`ta.c` with PMCU support: the timer resolution, the configuration of the criteria and their
counters. What the CoC criterion computes from the counters of the stations comes later, and what
the PCoC criterion computes is left out.
-/

namespace Wave300.Ta

open Lib

/-- `TA_TIMER_MS_PER_TICK` -/
def taTimerMsPerTick : Nat := 50

/-- `TA_TIMER_MAX_VALUE_IN_TICKS` -/
def taTimerMaxValueInTicks : Nat := 5000 / taTimerMsPerTick

/-- `TA_DEF_TMR_TICKS` -/
def taDefTmrTicks : Nat := 2

/-- `TA_COC_TICK_MSEC` and `TA_PCOC_TICK_MSEC` -/
def tickMsec : Nat := 100

/-- `TA_Q_SHIFT` -/
def taQShift : Nat := 18

/-- Arithmetic of `uint32`. -/
def u32 (n : Nat) : Nat := n % 2 ^ 32

/-- `ta_crit_id_t` -/
inductive CritId where
  | coc
  | pcoc
  | aocs
  | dagg
  deriving DecidableEq, Repr

/-- The table of criteria, in the order of its indices. -/
def CritId.all : List CritId := [.coc, .pcoc, .aocs, .dagg]

/-- What `fcn` points at: the function that sets the counters up, or the one that reports. -/
inductive Fcn where
  | critInit
  | crit
  deriving DecidableEq, Repr

/-- `_ta_crit_entry_t`. `fcn` is `none` when the criterion is not started. -/
structure Crit where
  fcn : Option Fcn
  clb : Bool
  tmrCnt : Nat
  tmrPeriod : Nat
  deriving DecidableEq, Repr

/-- `ta_crit_coc_cfg_t` and `ta_crit_pcoc_cfg_t` -/
structure Cfg where
  interval : Nat
  coeff : Nat
  deriving DecidableEq, Repr

/-- `_traf_analyzer_t`. `timer` is whether it is armed, and `reports` the calls of the callbacks. -/
structure TrafAnalyzer where
  timerResMs : Nat
  cocCfg : Cfg
  pcocCfg : Cfg
  crit : CritId → Crit
  activeCritNum : Nat
  timer : Bool
  reports : List CritId

/-- `mtlk_ta_create` -/
def init : TrafAnalyzer where
  timerResMs := taDefTmrTicks * taTimerMsPerTick
  cocCfg := ⟨0, 0⟩
  pcocCfg := ⟨0, 0⟩
  crit := fun _ => ⟨none, false, 0, 0⟩
  activeCritNum := 0
  timer := false
  reports := []

def TrafAnalyzer.setCrit (ta : TrafAnalyzer) (c : CritId) (crit : Crit) : TrafAnalyzer :=
  { ta with crit := Function.update ta.crit c crit }

/-- The end of `mtlk_ta_coc_cfg` and `mtlk_ta_pcoc_cfg`: a criterion that is started starts over at
the next tick. -/
def Crit.configure (crit : Crit) (period : Nat) : Crit :=
  if crit.fcn.isSome then
    { crit with tmrPeriod := period, tmrCnt := period - 1, fcn := some .critInit }
  else { crit with tmrPeriod := period }

/-- `mtlk_ta_coc_cfg`, with whether it returns `MTLK_ERR_OK`. -/
def mtlkTaCocCfg (interval : Nat) (ta : TrafAnalyzer) : TrafAnalyzer × Bool :=
  if u32 (interval * tickMsec) < ta.timerResMs then (ta, false)
  else
    ({ ta with
        cocCfg := ⟨interval, (1000 <<< taQShift) / u32 (interval * tickMsec)⟩ }.setCrit .coc
      ((ta.crit .coc).configure (u32 (tickMsec * interval) / ta.timerResMs)), true)

/-- `mtlk_ta_pcoc_cfg`, with whether it returns `MTLK_ERR_OK`. -/
def mtlkTaPcocCfg (interval : Nat) (ta : TrafAnalyzer) : TrafAnalyzer × Bool :=
  if u32 (interval * tickMsec) < ta.timerResMs then (ta, false)
  else
    ({ ta with
        pcocCfg := ⟨interval, 8 * (1 <<< taQShift) / u32 (interval * tickMsec)⟩ }.setCrit .pcoc
      ((ta.crit .pcoc).configure (u32 (tickMsec * interval) / ta.timerResMs)), true)

/-- `mtlk_ta_set_timer_resolution_ticks` -/
def mtlkTaSetTimerResolutionTicks (timerResolution : Nat) (ta : TrafAnalyzer) :
    TrafAnalyzer × Bool :=
  if (1 ≤ timerResolution ∧ timerResolution ≤ taTimerMaxValueInTicks) ∧
      u32 (timerResolution * taTimerMsPerTick) ≤ u32 (ta.cocCfg.interval * tickMsec) then
    ((mtlkTaCocCfg ta.cocCfg.interval
      { ta with timerResMs := u32 (timerResolution * taTimerMsPerTick) }).1, true)
  else (ta, false)

/-- The `switch` in `mtlk_ta_crit_start`. -/
def CritId.initFcn (c : CritId) (fcn : Option Fcn) : Option Fcn :=
  match c with
  | .coc | .pcoc => some .critInit
  | .aocs | .dagg => fcn

/-- `mtlk_ta_crit_start`. It asserts that the period is not zero. -/
def mtlkTaCritStart (c : CritId) (ta : TrafAnalyzer) : TrafAnalyzer :=
  let ta := if ta.activeCritNum = 0 then { ta with timer := true } else ta
  let crit := ta.crit c
  if crit.fcn.isSome then ta
  else
    { ta with activeCritNum := ta.activeCritNum + 1 }.setCrit c
      { crit with fcn := c.initFcn crit.fcn, tmrCnt := crit.tmrPeriod - 1 }

/-- `mtlk_ta_crit_stop` -/
def mtlkTaCritStop (c : CritId) (ta : TrafAnalyzer) : TrafAnalyzer :=
  let crit := ta.crit c
  let ta := if crit.fcn.isSome then
      { ta with activeCritNum := ta.activeCritNum - 1 }.setCrit c { crit with fcn := none }
    else ta
  if ta.activeCritNum = 0 then { ta with timer := false } else ta

/-- `mtlk_ta_crit_register`, with whether it returns a handle. -/
def mtlkTaCritRegister (c : CritId) (ta : TrafAnalyzer) : TrafAnalyzer × Bool :=
  let crit := ta.crit c
  if crit.fcn.isSome ∨ crit.clb then (ta, false)
  else (ta.setCrit c { crit with clb := true }, true)

/-- `mtlk_ta_crit_unregister` -/
def mtlkTaCritUnregister (c : CritId) (ta : TrafAnalyzer) : TrafAnalyzer :=
  let ta := mtlkTaCritStop c ta
  ta.setCrit c { ta.crit c with clb := false }

/-- One criterion in the loop of `ta_timer`, with whether it reports. -/
def Crit.tick (crit : Crit) : Crit × Bool :=
  match crit.fcn with
  | none => (crit, false)
  | some fcn =>
    if ¬ crit.clb then (crit, false)
    else if u32 (crit.tmrCnt + 1) = crit.tmrPeriod then
      ({ crit with tmrCnt := 0, fcn := some .crit }, fcn = .crit)
    else ({ crit with tmrCnt := u32 (crit.tmrCnt + 1) }, false)

/-- `ta_timer` -/
def taTimer (ta : TrafAnalyzer) : TrafAnalyzer :=
  { ta with
    crit := fun c => (ta.crit c).tick.1
    reports := ta.reports ++ CritId.all.filter fun c => (ta.crit c).tick.2 }

inductive Op where
  | cocCfg (interval : Nat)
  | pcocCfg (interval : Nat)
  | setResolution (ticks : Nat)
  | start (c : CritId)
  | stop (c : CritId)
  | register (c : CritId)
  | unregister (c : CritId)
  | tick
  deriving DecidableEq, Repr

def step (ta : TrafAnalyzer) : Op → TrafAnalyzer
  | .cocCfg interval => (mtlkTaCocCfg interval ta).1
  | .pcocCfg interval => (mtlkTaPcocCfg interval ta).1
  | .setResolution ticks => (mtlkTaSetTimerResolutionTicks ticks ta).1
  | .start c => mtlkTaCritStart c ta
  | .stop c => mtlkTaCritStop c ta
  | .register c => (mtlkTaCritRegister c ta).1
  | .unregister c => mtlkTaCritUnregister c ta
  | .tick => taTimer ta

end Wave300.Ta
