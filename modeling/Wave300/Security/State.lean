import Mathlib.Logic.Function.Basic
import Wave300.L2nat.Table
import Wave300.Lib.Routine

/-!
# Keys and MIBs

What the core keeps of the security of a VAP, what the firmware has of it, and the messages that
go from one to the other. A message may fail, and then the core does not know whether the firmware
did what it asks; the item it is about is stale until it is set again.
-/

namespace Wave300.Security

open L2nat (Mac)
open Lib (Routine)

/-- `IW_ENCODE_ALG_…`, those that the driver supports -/
inductive Alg where
  | none
  | wep
  | tkip
  | ccmp
  | aesCmac
  deriving DecidableEq

/-- `UMI_RSN_CIPHER_SUITE_…` -/
inductive Suite where
  | none
  | wep40
  | tkip
  | ccmp
  | igtk
  deriving DecidableEq

def Alg.suite : Alg → Suite
  | none => .none
  | wep => .wep40
  | tkip => .tkip
  | ccmp => .ccmp
  | aesCmac => .igtk

/-- `MIB_WEP_N_DEFAULT_KEYS` -/
def mibWepNDefaultKeys : Nat := 4

/-- `MIB_WEP_KEY_WEP1_LENGTH` -/
def mibWepKeyWep1Length : Nat := 5

/-- `MIB_WEP_KEY_WEP2_LENGTH` -/
def mibWepKeyWep2Length : Nat := 13

/-- `UMI_RSN_IGTK_GN_KEY_INDEX` -/
def umiRsnIgtkGnKeyIndex : Nat := 5

/-- `UMI_RSN_IGTK_GM_KEY_INDEX` -/
def umiRsnIgtkGmKeyIndex : Nat := 6

/-- `UMI_RSN_TK1_LEN + UMI_RSN_TK2_LEN` -/
def umiRsnTkLen : Nat := 32

def mtlkErrParams : Int := -1
def mtlkErrUnknown : Int := -2
def mtlkErrNotSupported : Int := -3
def mtlkErrUmi : Int := -9
def mtlkErrNoResources : Int := -12
def mtlkErrNotReady : Int := -14
def mtlkErrMac : Int := -23

/-- `MIB_WEP_KEY` -/
structure WepKey where
  keyLength : Nat
  keyData : Nat → UInt8

/-- `memcpy` of `n` bytes -/
def copy (n : Nat) (src dst : Nat → UInt8) : Nat → UInt8 := fun i => if i < n then src i else dst i

/-- `struct nic` and `struct nic_slow_ctx`, what they have for security. Of `rsnie` the first byte
is read. -/
structure Core where
  isAp : Bool
  rsnie : UInt8
  defaultKey : Nat
  wepEnabled : Nat
  wepKeys : Nat → WepKey
  peerApsKeyIdx : Nat
  wpsInProgress : Bool
  authentication : Nat
  rsnEnabled : Nat
  groupCipher : Alg
  groupRsc : Nat → Nat → UInt8
  igtkCipher : Alg
  igtkKeyLen : Nat
  igtkKey : Nat → Nat → UInt8

/-- The MIBs of security, with what they are set to; of `MIB_RSN_CONTROL` it is `u8IsRsnEnabled`. -/
inductive MibValue where
  | wepDefaultKeyid (idx : Nat)
  | wepDefaultKeys (keys : Nat → WepKey)
  | authenticationPreference (policy : Nat)
  | rsnControl (enabled : Bool)
  | privacyInvoked (enabled : Nat)

inductive MibId where
  | wepDefaultKeyid
  | wepDefaultKeys
  | authenticationPreference
  | rsnControl
  | privacyInvoked
  deriving DecidableEq

def MibValue.id : MibValue → MibId
  | wepDefaultKeyid _ => .wepDefaultKeyid
  | wepDefaultKeys _ => .wepDefaultKeys
  | authenticationPreference _ => .authenticationPreference
  | rsnControl _ => .rsnControl
  | privacyInvoked _ => .privacyInvoked

/-- `UMI_SET_KEY`; a group key is one for the broadcast address. -/
structure UmiSetKey where
  stationId : Mac
  cipherSuite : Suite
  defaultKeyIndex : Nat
  txSeqNum : UInt8
  tk : Nat → UInt8

/-- What the firmware has, and the keys it was given. -/
structure Firmware where
  wepDefaultKeyid : Nat
  wepDefaultKeys : Nat → WepKey
  authenticationPreference : Nat
  rsnControl : Bool
  privacyInvoked : Nat
  keys : List UmiSetKey

def Firmware.put (fw : Firmware) : MibValue → Firmware
  | .wepDefaultKeyid idx => { fw with wepDefaultKeyid := idx }
  | .wepDefaultKeys keys => { fw with wepDefaultKeys := keys }
  | .authenticationPreference policy => { fw with authenticationPreference := policy }
  | .rsnControl enabled => { fw with rsnControl := enabled }
  | .privacyInvoked enabled => { fw with privacyInvoked := enabled }

/-- `mtlk_pckt_filter_e` -/
inductive Filter where
  | allowAll
  | allow8021x
  | discardAll
  deriving DecidableEq

/-- What a station entry has for security. -/
structure Sta where
  cipher : Alg
  filter : Filter
  deriving DecidableEq

/-- What becomes of a message: there is no entry for it; it is not sent, or not confirmed in time,
while the firmware may have done what it asks; or it is confirmed with a status, `UMI_OK` if it
was done. -/
inductive Answer where
  | noEntry (res : Int)
  | failed (res : Int) (did : Bool)
  | confirmed (status : Nat)
  deriving DecidableEq

def Answer.did : Answer → Bool
  | noEntry _ => false
  | failed _ did => did
  | confirmed status => status = 0

/-- The VAP, its stations and the firmware, and the answers to come. -/
structure World where
  core : Core
  fw : Firmware
  stas : Mac → Option Sta
  answers : Nat → Answer
  stale : MibId → Bool

abbrev Request := Routine Int World

namespace World

def next (w : World) : World := { w with answers := fun n => w.answers (n + 1) }

/-- What a message that sets a MIB does; with `UMI_OK` the MIB is known again. -/
def setMib (v : MibValue) (a : Answer) (w : World) : World :=
  { w.next with
    fw := if a.did then w.fw.put v else w.fw
    stale := Function.update w.stale v.id (decide (a ≠ .confirmed 0)) }

def setKey (m : UmiSetKey) (a : Answer) (w : World) : World :=
  { w.next with fw := { w.fw with keys := if a.did then w.fw.keys ++ [m] else w.fw.keys } }

end World

end Wave300.Security
