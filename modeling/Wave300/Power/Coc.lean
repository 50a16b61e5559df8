import Wave300.Lib.Trace

/-!
# Code of Conduct power modes

`mtlk_coc.c`: the number of antennas in use, set by hand or, in automatic mode, after the throughput
that the traffic analyzer reports. Everything runs in the serializer of the master's core, so calls
do not overlap although the lock is released around the message to the firmware.

How the steps go that other modules and the firmware take is given with each call. The power limits
in the message are left out, and `COC_POWER_0x0_STATE`, in which the object never is.
-/

namespace Wave300.Power

open Lib

/-- The codes of `mtlkerr.h` that are returned here, or by what is called. -/
inductive Err where
  | ok
  | params
  | unknown
  | timeout
  | noMem
  | hw
  | noResources
  | prohib
  | busy
  deriving DecidableEq, Repr

/-- `mtlk_coc_antenna_cfg_t` -/
structure AntennaCfg where
  numTxAntennas : Nat
  numRxAntennas : Nat
  deriving DecidableEq, Repr

/-- `mtlk_coc_auto_cfg_t` -/
structure AutoCfg where
  interval1x1 : Nat
  interval2x2 : Nat
  interval3x3 : Nat
  highLimit1x1 : Nat
  lowLimit2x2 : Nat
  highLimit2x2 : Nat
  lowLimit3x3 : Nat
  deriving DecidableEq, Repr

/-- `_mtlk_coc_power_state_t` -/
inductive PowerState where
  | power1x1
  | power2x2
  | power3x3
  deriving DecidableEq, Repr

/-- `_mtlk_coc_t`, with what it has set elsewhere: the number of TX antennas in the parameter
database, the interval of the traffic analyzer's criterion and whether that is started, and the
mode-switch messages, each with how it ended. -/
structure Coc where
  hwAntennaCfg : AntennaCfg
  currentAntennaCfg : AntennaCfg
  manualAntennaCfg : AntennaCfg
  autoAntennaCfg : AutoCfg
  isAutoMode : Bool
  autoModeCfg : Bool
  currentState : PowerState
  txAntennas : Nat
  taInterval : Nat
  critStarted : Bool
  messages : List (AntennaCfg × Err)
  deriving DecidableEq

/-- What a call finds, and how the steps of other modules go that it takes. `restoreTxAntennas` is
the second `mtlk_core_set_tx_antennas`, and `status` whether the firmware's status is `UMI_OK`. -/
structure Outcome where
  activeVaps : Nat
  scanIsRunning : Bool
  canSwitchNow : Bool
  setTxAntennas : Err
  msgEntry : Bool
  msgSendBlocked : Err
  status : Bool
  restoreTxAntennas : Err
  taCocCfg : Err
  deriving DecidableEq

/-- A call in which every step goes well. -/
def Outcome.fine : Outcome where
  activeVaps := 1
  scanIsRunning := false
  canSwitchNow := true
  setTxAntennas := .ok
  msgEntry := true
  msgSendBlocked := .ok
  status := true
  restoreTxAntennas := .ok
  taCocCfg := .ok

/-- What `_mtlk_coc_switch_mode` returns. -/
def Outcome.switchMode (o : Outcome) : Err :=
  if !o.msgEntry then .noResources
  else if o.msgSendBlocked ≠ .ok then o.msgSendBlocked
  else if !o.status then .unknown
  else .ok

/-- More antennas than there are. -/
def AntennaCfg.Exceeds (cfg hw : AntennaCfg) : Prop :=
  hw.numTxAntennas < cfg.numTxAntennas ∨ hw.numRxAntennas < cfg.numRxAntennas

instance (cfg hw : AntennaCfg) : Decidable (cfg.Exceeds hw) :=
  inferInstanceAs (Decidable (_ ∨ _))

/-- The thresholds in ascending order, and neither they nor the intervals zero. -/
def AutoCfg.checked (p : AutoCfg) : Bool :=
  if p.interval1x1 = 0 ∨ p.interval2x2 = 0 ∨ p.interval3x3 = 0 then false
  else if p.highLimit1x1 = 0 ∨ p.lowLimit2x2 = 0 ∨ p.highLimit2x2 = 0 ∨ p.lowLimit3x3 = 0 then false
  else p.highLimit1x1 ≤ p.lowLimit2x2 ∧ p.lowLimit2x2 ≤ p.highLimit2x2 ∧
    p.highLimit2x2 ≤ p.lowLimit3x3

/-- What the core configures. -/
def defaultAutoCfg : AutoCfg := ⟨10, 50, 50, 1000, 5000, 5000, 5000⟩

example : defaultAutoCfg.checked := by decide

/-- `_mtlk_coc_get_interval_by_state` -/
def AutoCfg.intervalByState (p : AutoCfg) : PowerState → Nat
  | .power1x1 => p.interval1x1
  | .power2x2 => p.interval2x2
  | .power3x3 => p.interval3x3

/-- The `switch` in `_mtlk_coc_auto_mode_process`. -/
def AutoCfg.nextState (p : AutoCfg) (maxTp : Nat) : PowerState → PowerState
  | .power1x1 =>
    if p.lowLimit3x3 ≤ maxTp then .power3x3
    else if p.lowLimit2x2 ≤ maxTp then .power2x2
    else .power1x1
  | .power2x2 =>
    if maxTp < p.highLimit1x1 then .power1x1
    else if p.lowLimit3x3 ≤ maxTp then .power3x3
    else .power2x2
  | .power3x3 =>
    if maxTp < p.highLimit1x1 then .power1x1
    else if maxTp < p.highLimit2x2 then .power2x2
    else .power3x3

namespace Coc

/-- `_mtlk_coc_init`, after which the object has the default parameters of the core. -/
def init (hw : AntennaCfg) (defaultAutoCfg : AutoCfg) : Coc where
  hwAntennaCfg := hw
  currentAntennaCfg := hw
  manualAntennaCfg := hw
  autoAntennaCfg := defaultAutoCfg
  isAutoMode := false
  autoModeCfg := false
  currentState := .power3x3
  txAntennas := hw.numTxAntennas
  taInterval := defaultAutoCfg.interval3x3
  critStarted := false
  messages := []

/-- `_mtlk_coc_get_antenna_by_state` -/
def antennaByState (c : Coc) : PowerState → AntennaCfg
  | .power1x1 => ⟨1, 1⟩
  | .power2x2 => if AntennaCfg.Exceeds ⟨2, 2⟩ c.hwAntennaCfg then ⟨1, 1⟩ else ⟨2, 2⟩
  | .power3x3 => c.hwAntennaCfg

/-- `_mtlk_coc_set_antennas`. When the message fails the number of TX antennas is put back, and the
result is that of putting it back. -/
def setAntennas (c : Coc) (o : Outcome) (cfg : AntennaCfg) : Coc × Err :=
  if cfg = c.currentAntennaCfg then (c, .ok)
  else if o.scanIsRunning then (c, .prohib)
  else if !o.canSwitchNow then (c, .busy)
  else if cfg.Exceeds c.hwAntennaCfg then (c, .params)
  else if o.setTxAntennas ≠ .ok then (c, o.setTxAntennas)
  else
    let c := { c with
      txAntennas := cfg.numTxAntennas
      messages := c.messages ++ [(cfg, o.switchMode)] }
    if o.switchMode = .ok then ({ c with currentAntennaCfg := cfg }, .ok)
    else if o.restoreTxAntennas = .ok then
      ({ c with txAntennas := c.currentAntennaCfg.numTxAntennas }, .ok)
    else (c, o.restoreTxAntennas)

/-- `_mtlk_coc_set_interval`, with `mtlk_ta_coc_cfg` -/
def setInterval (c : Coc) (o : Outcome) (state : PowerState) : Coc × Err :=
  if o.taCocCfg = .ok then ({ c with taInterval := c.autoAntennaCfg.intervalByState state }, .ok)
  else (c, o.taCocCfg)

/-- `_mtlk_coc_auto_mode_process`, which does not return its result. -/
def autoModeProcess (c : Coc) (o : Outcome) (maxTp : Nat) : Coc × Err :=
  let newState := c.autoAntennaCfg.nextState maxTp c.currentState
  if c.currentState = newState then (c, .ok)
  else
    let (c, res) := c.setAntennas o (c.antennaByState newState)
    if res ≠ .ok then (c, .ok)
    else
      let (c, res) := c.setInterval o newState
      if res ≠ .ok then (c, .ok) else ({ c with currentState := newState }, .ok)

/-- `mtlk_coc_set_power_mode` -/
def setPowerMode (c : Coc) (o : Outcome) (isAutoMode : Bool) : Coc × Err :=
  let c := { c with autoModeCfg := isAutoMode }
  if o.activeVaps = 0 then (c, .ok)
  else if isAutoMode then
    if c.isAutoMode then (c, .ok)
    else
      let (c, res) := c.setAntennas o c.hwAntennaCfg
      if res ≠ .ok then (c, res)
      else
        let (c, res) := c.setInterval o .power3x3
        if res ≠ .ok then (c, res)
        else ({ c with currentState := .power3x3, critStarted := true, isAutoMode := true }, .ok)
  else
    let (c, res) := c.setAntennas o c.manualAntennaCfg
    if res ≠ .ok then (c, res)
    else
      ({ c with
          critStarted := if c.isAutoMode then false else c.critStarted
          isAutoMode := false }, .ok)

/-- `mtlk_coc_set_antenna_params` -/
def setAntennaParams (c : Coc) (params : AntennaCfg) : Coc × Err :=
  if params.Exceeds c.hwAntennaCfg ∨ params.numRxAntennas ≠ params.numTxAntennas then (c, .params)
  else ({ c with manualAntennaCfg := params }, .ok)

/-- `mtlk_coc_set_auto_params`. The parameters are stored before the interval is set. -/
def setAutoParams (c : Coc) (o : Outcome) (params : AutoCfg) : Coc × Err :=
  if !params.checked then (c, .params)
  else
    let c := { c with autoAntennaCfg := params }
    if c.isAutoMode then
      let (c, res) := c.setInterval o c.currentState
      if res ≠ Err.ok then (c, .params) else (c, .ok)
    else (c, .ok)

/-- `_mtlk_coc_auto_power_callback`, which the traffic analyzer calls while the criterion is
started. -/
def autoPowerCallback (c : Coc) (o : Outcome) (maxTp : Nat) : Coc × Err :=
  if c.critStarted then c.autoModeProcess o maxTp else (c, .ok)

end Coc

/-- A call, with how its steps go. -/
inductive Call where
  | setPowerMode (o : Outcome) (isAutoMode : Bool)
  | setAntennaParams (params : AntennaCfg)
  | setAutoParams (o : Outcome) (params : AutoCfg)
  | autoPower (o : Outcome) (maxTp : Nat)
  deriving DecidableEq

/-- A call, with what it returns. -/
def call (c : Coc) : Call → Coc × Err
  | .setPowerMode o isAutoMode => c.setPowerMode o isAutoMode
  | .setAntennaParams params => c.setAntennaParams params
  | .setAutoParams o params => c.setAutoParams o params
  | .autoPower o maxTp => c.autoPowerCallback o maxTp

def step (c : Coc) (x : Call) : Coc := (call c x).1

end Wave300.Power
