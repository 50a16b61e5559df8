import Wave300.Security.Requests

/-!
# Stations, resets and recoveries

The other calls that touch what a VAP has for security: a station that connects gets a WEP key, a
disconnection resets all, and after a recovery the firmware is configured again.
-/

namespace Wave300.Security

open L2nat (Mac)
open Lib (Routine)

/-- `_mtlk_sta_set_packets_filter_default` -/
def Sta.new : Sta := ⟨.none, .allow8021x⟩

/-- `mtlk_sta_set_cipher` and a WEP key, whose code nobody looks at. -/
def giveWepKey (addr : Mac) (keyIdx : Nat) : Request Unit := do
  Routine.write (updateSta addr ({ · with cipher := .wep }))
  Routine.ignored (setWepKeyBlocked addr keyIdx)

/-- The filter a station starts with. -/
def connectFilter (c : Core) (peerAp : Bool) : Filter :=
  if c.rsnie ≠ 0 ∧ ¬ peerAp then .allow8021x
  else if ¬ c.isAp ∧ c.wpsInProgress then .allow8021x else .allowAll

/-- The WEP key a station starts with, if it does with one. -/
def connectKey (c : Core) (peerAp : Bool) : Option Nat :=
  if ¬ c.isAp then none
  else if peerAp then if c.peerApsKeyIdx = 0 then none else some (c.peerApsKeyIdx - 1)
  else if c.wepEnabled ≠ 0 ∧ ¬ c.wpsInProgress then some c.defaultKey else none

/-- `_mtlk_core_connect_sta_blocked` -/
def connectSta (addr : Mac) (peerAp : Bool) : Request Unit := do
  Routine.write fun w => { w with stas := Function.update w.stas addr (some .new) }
  let c ← Routine.read (·.core)
  filled (connectKey c peerAp) (giveWepKey addr)
  Routine.write (updateSta addr ({ · with filter := connectFilter c (c.isAp && peerAp) }))

/-- `clear_group_key` -/
def clearGroupKey : Request Unit := fun w =>
  (.ok (), { w.next with fw := { w.fw with
    keys := if (w.answers 0).did then w.fw.keys.filter (·.stationId ≠ broadcast) else w.fw.keys } })

/-- RSN is off in the core, whatever the firmware says. -/
def resetRsn : Request Unit := do
  Routine.ignored (setMibRsn 0)
  setCore ({ · with rsnEnabled := 0 })

/-- WEP is off in the core, whatever the firmware says. -/
def disableWep (st : Situation) : Request Unit := do
  Routine.ignored (setWep st 0)
  setCore ({ · with wepEnabled := 0 })

/-- The default key is set in the core alone. -/
def forgetDefaultKey : Request Unit := Routine.write fun w =>
  { w with
    core := { w.core with defaultKey := 0 }
    stale := Function.update w.stale .wepDefaultKeyid true }

/-- `reset_security_stuff`; its code is not used. -/
def resetSecurityStuff (st : Situation) : Request Unit := do
  setCore ({ · with rsnie := 0 })
  let isAp ← Routine.read (·.core.isAp)
  onlyIf (isAp = true) clearGroupKey
  resetRsn
  let wepEnabled ← Routine.read (·.core.wepEnabled)
  onlyIf (wepEnabled ≠ 0) (disableWep st)
  forgetDefaultKey
  setCore ({ · with wpsInProgress := false, groupCipher := .none })

/-- `mtlk_mib_set_security`, which goes on when the keys are not set. -/
def mibSetSecurity : Request Unit := do
  let c ← Routine.read (·.core)
  setMibValue (.wepDefaultKeyid c.defaultKey)
  Routine.ignored (setMibValue (.wepDefaultKeys c.wepKeys))
  setMibValue (.authenticationPreference c.authentication)
  setMibRsn c.rsnEnabled
  setMibValue (.privacyInvoked c.wepEnabled)

/-- The suite of the group cipher; one that `_core_set_umi_key` does not name leaves it zero. -/
def Core.groupSuite (c : Core) : Suite :=
  if c.groupCipher = .aesCmac then .none else c.groupCipher.suite

/-- `_core_set_umi_key` -/
def coreSetUmiKey (keyIdx : Nat) : Request Unit := do
  let c ← Routine.read (·.core)
  let key := c.wepKeys keyIdx
  sendKey (fun _ => mtlkErrUmi)
    ⟨broadcast, c.groupSuite, keyIdx, 0, copy key.keyLength key.keyData fun _ => 0⟩

/-- `_core_set_umi_key_igtk`; the firmware has an index that is one less. -/
def coreSetUmiKeyIgtk (keyIdx : Nat) : Request Unit := do
  let c ← Routine.read (·.core)
  onlyIf (c.igtkCipher = .aesCmac ∧
      (keyIdx = umiRsnIgtkGmKeyIndex ∨ keyIdx = umiRsnIgtkGnKeyIndex)) do
    let slot := if keyIdx = umiRsnIgtkGmKeyIndex then 0 else 1
    sendKey (fun _ => mtlkErrUmi)
      ⟨broadcast, .igtk, keyIdx - 1, 0, copy c.igtkKeyLen (c.igtkKey slot) fun _ => 0⟩

/-- `core_on_rcvry_configure`, its part that sets MIBs of security and keys, after calls of which
one may have failed with a code. -/
def coreOnRcvryConfigure (earlier : Option Int) : Request Unit := do
  filled earlier Routine.stop
  mibSetSecurity
  coreSetUmiKey 0
  coreSetUmiKey 1
  coreSetUmiKey 2
  coreSetUmiKey 3
  coreSetUmiKeyIgtk umiRsnIgtkGmKeyIndex
  coreSetUmiKeyIgtk umiRsnIgtkGnKeyIndex

/-- What may come next; after a crash the firmware starts with MIBs of its own. -/
inductive Event where
  | setenc (st : Situation) (p : IwEncode)
  | setencext (st : Situation) (p : IwEncodeExt)
  | setauth (st : Situation) (cfg : AuthCfg)
  | setgenie (st : Situation) (cfg : GenieCfg)
  | getenc (st : Situation) (index : Nat)
  | connect (addr : Mac) (peerAp : Bool)
  | disconnect (addr : Mac)
  | peerApKeyIdx (idx : Nat)
  | reset (st : Situation)
  | crash (fw : Firmware)
  | configure (earlier : Option Int)

def World.step (w : World) : Event → World
  | .setenc st p => (ioctlSetenc st p w).2
  | .setencext st p => (ioctlSetencext st p w).2
  | .setauth st cfg => (setAuthCfg st cfg w).2
  | .setgenie st cfg => (setGenieCfg st cfg w).2
  | .getenc st index => (ioctlGetenc st index w).2
  | .connect addr peerAp => (connectSta addr peerAp w).2
  | .disconnect addr => { w with stas := Function.update w.stas addr none }
  | .peerApKeyIdx idx => { w with core := { w.core with peerApsKeyIdx := idx } }
  | .reset st => (resetSecurityStuff st w).2
  | .crash fw => { w with fw, stale := fun _ => true }
  | .configure earlier => (coreOnRcvryConfigure earlier w).2

end Wave300.Security
