import Mathlib.Data.Fintype.Basic
import Wave300.Lib.Trace

/-!
# Bringing access points up and down

`core.c`: `_mtlk_core_activate` and `_mtlk_core_deactivate` for the VAPs of an access point. The
first VAP that is activated has the master's core select a channel, for which AOCS is started. The
VAP manager counts the active VAPs, and each core has its network state and its own `is_stopped`.

How the steps go that other modules and the firmware take is given with each call. The hardware may
fail at any time, and is not ready from then on. What the recovery does after that is left out, as
are the parameters that are only passed on.
-/

namespace Wave300.Core

/-- The codes of `mtlkerr.h` that are returned here, or by what is called. -/
inductive Err where
  | ok
  | unknown
  | params
  | noMem
  | notReady
  | notSupported
  | hw
  | wrongContext
  | scanFailed
  | aocsFailed
  | mac
  | fw
  | timeout
  deriving DecidableEq

/-- `NET_STATE_*` -/
inductive NetState where
  | idle
  | ready
  | activating
  | connected
  | disconnecting
  | halted
  deriving DecidableEq

/-- The moments at which the state of the hardware is looked at. -/
inductive Moment where
  | start
  | activating
  | connected
  | finish
  | deactivate
  | disconnecting
  | cleanup
  | ready
  deriving DecidableEq

/-- The VAPs: `net_state`, `is_stopped` and `is_iface_stopping` of each core, `aocs_started` of the
master's, `activated_vaps_num` of the VAP manager, and whether `mtlk_core_get_hw_state` still says
that the hardware is ready. -/
structure Vaps (V : Type) where
  net : V → NetState
  isStopped : V → Bool
  isIfaceStopping : V → Bool
  aocsStarted : Bool
  activatedVapsNum : Nat
  hwReady : Bool

/-- What an activation finds, and how its steps go. `netModeGroup` and `band` are those of the
configured network mode of each core. -/
structure Activation (V : Type) where
  eepromValid : Bool
  dut : Bool
  scanRunning : Bool
  isStopping : Bool
  bothCyclicPrefixes : Bool
  ratesValid : Bool
  forcedRatesFit : Bool
  wepWithHt : Bool
  netModeGroup : V → Nat
  band : V → Nat
  antennas : Err
  mibs : Err
  paramsValid : Bool
  aocsStart : Err
  initialScan : Err
  progmodel : Bool
  selectChannel : Err
  preactivateReq : Err
  nRateBo : Err
  manMsg : Err
  essid : Err
  essidEmpty : Bool
  activateReq : Err
  activateStatus : Bool
  watchdog : Err
  coexActive : Bool
  coexStart : Err
  hw : Moment → Bool

/-- How the steps of a deactivation go. -/
structure Deactivation where
  scanRunning : Bool
  manMsg : Err
  deactivateReq : Err
  deactivateStatus : Bool
  vapRemoved : Err
  hasConnections : Bool
  hw : Moment → Bool

/-- An activation in which every step goes well, with 20/40 coexistence. -/
def Activation.fine {V : Type} : Activation V where
  eepromValid := true
  dut := false
  scanRunning := false
  isStopping := false
  bothCyclicPrefixes := false
  ratesValid := true
  forcedRatesFit := true
  wepWithHt := false
  netModeGroup := fun _ => 0
  band := fun _ => 0
  antennas := .ok
  mibs := .ok
  paramsValid := true
  aocsStart := .ok
  initialScan := .ok
  progmodel := true
  selectChannel := .ok
  preactivateReq := .ok
  nRateBo := .ok
  manMsg := .ok
  essid := .ok
  essidEmpty := false
  activateReq := .ok
  activateStatus := true
  watchdog := .ok
  coexActive := true
  coexStart := .ok
  hw := fun _ => true

namespace Vaps

variable {V : Type} [DecidableEq V]

/-- After the start of the cores. -/
def init : Vaps V where
  net := fun _ => .ready
  isStopped := fun _ => true
  isIfaceStopping := fun _ => false
  aocsStarted := false
  activatedVapsNum := 0
  hwReady := true

/-- The hardware may have failed meanwhile. -/
def tick (c : Vaps V) (stays : Bool) : Vaps V := { c with hwReady := c.hwReady && stays }

/-- The states from which `mtlk_core_set_net_state` goes to a state. -/
def allowed : NetState → List NetState
  | .idle => [.halted]
  | .ready => [.idle, .activating, .disconnecting]
  | .activating => [.ready]
  | .disconnecting => [.connected]
  | .connected => [.activating]
  | .halted => []

/-- `mtlk_core_set_net_state`. Going to `NET_STATE_HALTED` resets the hardware. -/
def setNetState (c : Vaps V) (v : V) (new : NetState) : Vaps V × Err :=
  if new = .halted then ({ c with net := Function.update c.net v .halted }, .ok)
  else if !c.hwReady && new ≠ .idle then (c, .hw)
  else if c.net v ∈ allowed new then ({ c with net := Function.update c.net v new }, .ok)
  else (c, .wrongContext)

/-- `mtlk_core_get_net_state` -/
def getNetState (c : Vaps V) (v : V) : NetState := if c.hwReady then c.net v else .halted

/-- `_mtlk_mbss_undo_preactivate` for the master's core -/
def undoPreactivate (c : Vaps V) : Vaps V := { c with aocsStarted := false }

/-- The checks of `_mtlk_core_activate` and the steps up to the activation proper. -/
def precheck (c : Vaps V) (master v : V) (o : Activation V) [Fintype V] : Err :=
  if !o.eepromValid then .notReady
  else if o.dut then .notSupported
  else if c.getNetState v ≠ .ready || o.scanRunning || o.isStopping || c.isIfaceStopping v then
    .notReady
  else if o.bothCyclicPrefixes then .notSupported
  else if !o.ratesValid then .notReady
  else if !o.forcedRatesFit then .notSupported
  else if o.wepWithHt then .notSupported
  else if ∃ w, w ≠ v ∧ c.isStopped w = false ∧ o.netModeGroup v ≠ o.netModeGroup w then
    .notSupported
  else if o.band v ≠ o.band master then .notSupported
  else if o.antennas ≠ .ok then o.antennas
  else o.mibs

/-- `_mtlk_mbss_preactivate`. What setting the debug TPC, the LNA gains, the power limit, the RA
protection and the forced NCB returned is overwritten. -/
def mbssPreactivate (c : Vaps V) (o : Activation V) : Vaps V × Err :=
  if !c.aocsStarted && o.aocsStart ≠ .ok then (c, .aocsFailed)
  else
    let c := { c with aocsStarted := true }
    if o.initialScan ≠ .ok then (c, o.initialScan)
    else if !o.progmodel then (c, .unknown)
    else if o.selectChannel ≠ .ok then (c, .aocsFailed)
    else if o.preactivateReq ≠ .ok then (c, o.preactivateReq)
    else (c, o.nRateBo)

/-- `_mtlk_mbss_preactivate_if_needed` -/
def mbssPreactivateIfNeeded (c : Vaps V) (o : Activation V) : Vaps V × Err :=
  if c.activatedVapsNum = 0 then c.mbssPreactivate o else (c, .ok)

/-- `FINISH` of `mtlk_mbss_send_vap_activate` -/
def finishVapActivate (c : Vaps V) (v : V) (o : Activation V) (result : Err) : Vaps V × Err :=
  let c := c.tick (o.hw .finish)
  if result ≠ .ok ∧ c.getNetState v ≠ .ready then ((c.setNetState v .ready).1, result)
  else (c, result)

/-- `mtlk_mbss_send_vap_activate`. That the state is set to connected is not checked. -/
def mbssSendVapActivate (c : Vaps V) (master v : V) (o : Activation V) : Vaps V × Err :=
  if o.manMsg ≠ .ok then (c, o.manMsg)
  else if o.essid ≠ .ok then c.finishVapActivate v o o.essid
  else if o.essidEmpty then c.finishVapActivate v o .notReady
  else
    let (c, res) := (c.tick (o.hw .activating)).setNetState v .activating
    if res ≠ .ok then c.finishVapActivate v o .notReady
    else if o.activateReq ≠ .ok then c.finishVapActivate v o o.activateReq
    else if !o.activateStatus then c.finishVapActivate v o .unknown
    else
      let c := ((c.tick (o.hw .connected)).setNetState v .connected).1
      if v = master ∧ o.watchdog ≠ .ok then ((c.setNetState v .halted).1, o.watchdog)
      else c.finishVapActivate v o .ok

/-- The error exits of `mtlk_mbss_init` after the parameters were checked. -/
def undoMbssInit (c : Vaps V) : Vaps V :=
  if c.activatedVapsNum = 0 then c.undoPreactivate else c

/-- `mtlk_mbss_init` -/
def mbssInit (c : Vaps V) (master v : V) (o : Activation V) : Vaps V × Err :=
  if !o.paramsValid then (c, .params)
  else
    let (c, res) := c.mbssPreactivateIfNeeded o
    if res ≠ .ok then (c.undoMbssInit, res)
    else
      let (c, res) := c.mbssSendVapActivate master v o
      if res ≠ .ok then (c.undoMbssInit, res) else (c, .ok)

/-- The end of `_mtlk_core_activate`: `mtlk_vap_manager_notify_vap_activated` and `is_stopped`. -/
def notifyVapActivated (c : Vaps V) (v : V) : Vaps V :=
  { c with
    activatedVapsNum := c.activatedVapsNum + 1
    isStopped := Function.update c.isStopped v false }

/-- `_mtlk_core_activate` -/
def activate [Fintype V] (master : V) (c : Vaps V) (v : V) (o : Activation V) : Vaps V × Err :=
  let c := c.tick (o.hw .start)
  if c.precheck master v o ≠ .ok then (c, c.precheck master v o)
  else
    let (c, res) := c.mbssInit master v o
    if res ≠ .ok then (c, res)
    else if o.coexActive ∧ c.activatedVapsNum = 0 ∧ o.coexStart ≠ .ok then (c, o.coexStart)
    else (c.notifyVapActivated v, .ok)

/-- `_mtlk_core_send_vap_deactivate_req_blocked` -/
def sendVapDeactivateReqBlocked (c : Vaps V) (v : V) (o : Deactivation) : Vaps V × Err :=
  let c := c.tick (o.hw .deactivate)
  if c.getNetState v = .halted then (c, .ok)
  else
    let (c, res) := (c.tick (o.hw .disconnecting)).setNetState v .disconnecting
    if res ≠ .ok then (c, res)
    else if o.manMsg ≠ .ok then (c, o.manMsg)
    else if o.deactivateReq ≠ .ok then (c, o.deactivateReq)
    else if !o.deactivateStatus then (c, .mac)
    else (c, .ok)

/-- `cleanup_on_disconnect` -/
def cleanupOnDisconnect (c : Vaps V) (v : V) (o : Deactivation) : Vaps V :=
  let c := c.tick (o.hw .cleanup)
  if !o.hasConnections && c.getNetState v = .disconnecting then
    ((c.tick (o.hw .ready)).setNetState v .ready).1
  else c

/-- `_mtlk_mbss_deactivate_vap` -/
def mbssDeactivateVap (c : Vaps V) (v : V) (o : Deactivation) : Vaps V × Err :=
  let (c, res) := c.sendVapDeactivateReqBlocked v o
  if res ≠ .ok ∨ o.vapRemoved ≠ .ok then
    ((c.setNetState v .halted).1.cleanupOnDisconnect v o, .fw)
  else (c.cleanupOnDisconnect v o, .ok)

/-- The end of `_mtlk_core_deactivate`: `is_stopped` and `mtlk_vap_manager_notify_vap_deactivated`.
-/
def notifyVapDeactivated (c : Vaps V) (v : V) : Vaps V :=
  { c with
    isIfaceStopping := Function.update c.isIfaceStopping v false
    isStopped := Function.update c.isStopped v true
    activatedVapsNum := c.activatedVapsNum - 1 }

/-- `_mtlk_core_deactivate`, which is refused while a scan is running -/
def deactivate (c : Vaps V) (v : V) (o : Deactivation) : Vaps V × Err :=
  let c := c.tick (o.hw .start)
  let netState := c.getNetState v
  let c := { c with isIfaceStopping := Function.update c.isIfaceStopping v true }
  if o.scanRunning then (c, .notReady)
  else if netState = .connected ∨ netState = .halted then
    let (c, res) := c.mbssDeactivateVap v o
    let c := if c.activatedVapsNum = 1 then c.undoPreactivate else c
    (c.notifyVapDeactivated v, res)
  else (c.notifyVapDeactivated v, .ok)

/-- What happens: an interface is opened or closed, the core is halted after an exception, or the
hardware fails. -/
inductive Label (V : Type) where
  | activate (v : V) (o : Activation V)
  | deactivate (v : V) (o : Deactivation)
  | halt (v : V)
  | hwFails

def step [Fintype V] (master : V) (c : Vaps V) : Label V → Vaps V
  | .activate v o => (c.activate master v o).1
  | .deactivate v o => (c.deactivate v o).1
  | .halt v => (c.setNetState v .halted).1
  | .hwFails => { c with hwReady := false }

/-- The network stack opens an interface that is down, and closes one that is up. -/
def Enabled (c : Vaps V) : Label V → Prop
  | .activate v _ => c.isStopped v
  | .deactivate v _ => c.isStopped v = false
  | .halt _ | .hwFails => True

instance (c : Vaps V) : DecidablePred c.Enabled
  | .activate v _ => inferInstanceAs (Decidable (c.isStopped v = true))
  | .deactivate v _ => inferInstanceAs (Decidable (c.isStopped v = false))
  | .halt _ | .hwFails => .isTrue trivial

/-- `mtlk_20_40_start` succeeds when an activation calls it. -/
def CoexStarts (c : Vaps V) : Label V → Prop
  | .activate _ o => o.coexActive → c.activatedVapsNum = 0 → o.coexStart = .ok
  | _ => True

instance (c : Vaps V) : DecidablePred c.CoexStarts
  | .activate _ _ => inferInstanceAs (Decidable (_ → _ → _))
  | .deactivate .. | .halt _ | .hwFails => .isTrue trivial

end Vaps

end Wave300.Core
