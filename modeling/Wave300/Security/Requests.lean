import Wave300.Security.State

/-!
# Requests about keys

The handlers of `core_ext.c` that set what a VAP has for security, and the `ioctl` handlers they are
called from. A handler stops at the first message that fails, with what it set until then.
-/

namespace Wave300.Security

open L2nat (Mac)
open Lib (Routine)

/-- A broadcast address, of `mtlk_osal_eth_is_broadcast` -/
def broadcast : Mac := BitVec.allOnes 48

/-- `MTLK_CFG_CHECK_ITEM_AND_CALL`: an item that is filled is passed on. -/
def filled {α : Type} (item : Option α) (call : α → Request Unit) : Request Unit :=
  match item with
  | some a => call a
  | none => pure ()

def onlyIf (c : Prop) [Decidable c] (call : Request Unit) : Request Unit :=
  if c then call else pure ()

def setCore (f : Core → Core) : Request Unit := Routine.write fun w => { w with core := f w.core }

/-- `access_mib_value` with `UM_MAN_SET_MIB_REQ` -/
def setMibValue (v : MibValue) : Request Unit := fun w =>
  (match w.answers 0 with
    | .noEntry _ => .error mtlkErrNoResources
    | .failed res _ => .error res
    | .confirmed 0 => .ok ()
    | .confirmed (status + 1) => .error (status + 1), w.setMib v (w.answers 0))

/-- `access_mib_value` with `UM_MAN_GET_MIB_REQ` -/
def getMibValue (value : Firmware → Nat) : Request Nat := fun w =>
  (match w.answers 0 with
    | .noEntry _ => .error mtlkErrNoResources
    | .failed res _ => .error res
    | .confirmed 0 => .ok (value w.fw)
    | .confirmed (status + 1) => .error (status + 1), w.next)

/-- `UM_MAN_SET_KEY_REQ`, with the code of the caller for a status. -/
def sendKey (code : Nat → Int) (m : UmiSetKey) : Request Unit := fun w =>
  (match w.answers 0 with
    | .noEntry res => .error res
    | .failed res _ => .error res
    | .confirmed 0 => .ok ()
    | .confirmed (status + 1) => .error (code (status + 1)), w.setKey m (w.answers 0))

/-- `mtlk_set_mib_rsn` -/
def setMibRsn (value : Nat) : Request Unit := setMibValue (.rsnControl (value ≠ 0))

/-- What a request finds: `NET_STATE_READY` or `NET_STATE_CONNECTED`, whether the core is stopping
or scanning, and `is_ht_net_mode` and `is_mixed_net_mode` of the network mode. -/
structure Situation where
  up : Bool
  stopping : Bool
  scanning : Bool
  ht : Bool
  mixed : Bool

/-- The checks a handler begins with. -/
def checkReady (admitted : Bool) : Request Unit :=
  onlyIf (admitted = false) (Routine.stop mtlkErrNotReady)

/-- `_mtlk_core_set_wep_key_blocked` -/
def setWepKeyBlocked (addr : Mac) (keyIdx : Nat) : Request Unit := do
  let key ← Routine.read (·.core.wepKeys keyIdx)
  sendKey (fun _ => mtlkErrMac) ⟨addr, .wep40, keyIdx, 0, copy key.keyLength key.keyData fun _ => 0⟩

/-- WEP does not go with a network mode that has HT stations only, nor for an AP with one that has
any. -/
def wepRefused (st : Situation) (c : Core) (wepEnabled : Nat) : Bool :=
  wepEnabled ≠ 0 && st.ht && (c.isAp || !st.mixed)

/-- `_mtlk_core_set_wep` -/
def setWep (st : Situation) (wepEnabled : Nat) : Request Unit := do
  let c ← Routine.read (·.core)
  if wepEnabled = 0 ↔ c.wepEnabled = 0 then
    pure ()
  else if wepRefused st c wepEnabled then
    Routine.stop mtlkErrNotSupported
  else do
    setMibValue (.privacyInvoked wepEnabled)
    setCore ({ · with wepEnabled })

/-- `mtlk_core_ui_enc_cfg_t`, of which an item that is `MAX_UINT8` is not specified; the key is in
slot 0. -/
structure EncCfg where
  wepEnabled : Option Nat
  authentication : Option Nat
  keyId : Option Nat
  key : WepKey

def setDefaultKey (idx : Nat) : Request Unit := do
  setMibValue (.wepDefaultKeyid idx)
  setCore ({ · with defaultKey := idx })

def setAuthentication (policy : Nat) : Request Unit := do
  setMibValue (.authenticationPreference policy)
  setCore ({ · with authentication := policy })

/-- The keys of the core with one of them set; the copy of the bytes leaves those after them. -/
def withKey (keys : Nat → WepKey) (idx : Nat) (key : WepKey) : Nat → WepKey :=
  Function.update keys idx
    ⟨key.keyLength, copy key.keyLength key.keyData (keys idx).keyData⟩

/-- All keys are sent, and the one that is new is stored. -/
def storeKey (idx : Nat) (key : WepKey) : Request Unit := do
  let keys ← Routine.read (·.core.wepKeys)
  setMibValue (.wepDefaultKeys (withKey keys idx key))
  setCore fun c => { c with wepKeys := Function.update c.wepKeys idx (withKey keys idx key idx) }

/-- The index of the key, which is the one the firmware uses when none is specified. -/
def keyIndex (cfg : EncCfg) : Request Nat :=
  match cfg.keyId with
  | some idx => pure idx
  | none => getMibValue (·.wepDefaultKeyid)

/-- An index that comes without a key is that of the default key. -/
def setKeyOrIndex (cfg : EncCfg) : Request Unit :=
  if cfg.key.keyLength = 0 then filled cfg.keyId setDefaultKey
  else do
    let idx ← keyIndex cfg
    storeKey idx cfg.key

/-- `_mtlk_core_set_wep_enc_cfg` -/
def setWepEncCfg (st : Situation) (cfg : EncCfg) : Request Unit := do
  checkReady (st.up && !st.scanning)
  setKeyOrIndex cfg
  filled cfg.authentication setAuthentication
  filled cfg.wepEnabled (setWep st)
  let defaultKey ← Routine.read (·.core.defaultKey)
  setWepKeyBlocked broadcast defaultKey

/-- What `_mtlk_core_get_wep_enc_cfg` answers with. -/
structure EncCfgRes where
  wepEnabled : Nat
  authentication : Nat
  keyId : Nat
  wepKeys : Nat → WepKey

/-- The access policy is read from the firmware. -/
def getAuthentication (c : Core) : Request Nat :=
  if c.wepEnabled = 0 then pure 0 else getMibValue (·.authenticationPreference)

/-- `_mtlk_core_get_wep_enc_cfg` -/
def getWepEncCfg (st : Situation) : Request EncCfgRes := do
  checkReady (st.up && !st.scanning)
  let c ← Routine.read (·.core)
  let authentication ← getAuthentication c
  pure ⟨c.wepEnabled, authentication, c.defaultKey, c.wepKeys⟩

/-- `mtlk_core_ui_auth_cfg_t`, of which an item that is negative is not specified. -/
structure AuthCfg where
  rsnEnabled : Option Nat
  wepEnabled : Option Nat
  authentication : Option Nat

/-- `_mtlk_core_set_rsn_enabled` -/
def setRsnEnabled (rsnEnabled : Nat) : Request Unit := do
  setMibRsn rsnEnabled
  setCore ({ · with rsnEnabled })

/-- `_mtlk_core_set_auth_cfg` -/
def setAuthCfg (st : Situation) (cfg : AuthCfg) : Request Unit := do
  checkReady (st.up && !st.stopping && !st.scanning)
  filled cfg.rsnEnabled setRsnEnabled
  filled cfg.wepEnabled (setWep st)
  filled cfg.authentication setAuthentication

/-- `mtlk_core_ui_genie_cfg_t`; the code is that with which a general element is not set, if one is
given and is not. -/
structure GenieCfg where
  wpsInProgress : Option Bool
  rsnieReset : Bool
  rsnie : Option UInt8
  genIe : Option Int
  rsnEnabled : Option Nat

/-- `_mtlk_core_set_genie_cfg` -/
def setGenieCfg (st : Situation) (cfg : GenieCfg) : Request Unit := do
  checkReady (st.up && !st.stopping && !st.scanning)
  filled cfg.wpsInProgress fun wpsInProgress => setCore ({ · with wpsInProgress })
  onlyIf (cfg.rsnieReset = true) (setCore ({ · with rsnie := 0 }))
  filled cfg.rsnie fun rsnie => setCore ({ · with rsnie })
  filled cfg.genIe Routine.stop
  filled cfg.rsnEnabled setRsnEnabled

/-- `mtlk_core_ui_encext_cfg_t`; of its items those may be missing that are options. -/
structure EncextCfg where
  wepEnabled : Nat
  algType : Alg
  staAddr : Mac
  defaultKeyIdx : Option Nat
  keyIdx : Nat
  keyLen : Nat
  key : Option (Nat → UInt8)
  rxSeq : Option (Nat → UInt8)

/-- `mtlk_txmm_msg_init_with_empty_data` of the message for the key, which is sent later. -/
def initMessage : Request Unit := fun w =>
  (match w.answers 0 with
    | .noEntry _ => .error mtlkErrNoResources
    | _ => .ok (), w.next)

/-- The WEP keys with the one of the request, of which one byte is cleared before. -/
def encExtKeys (keys : Nat → WepKey) (cfg : EncextCfg) : Nat → WepKey :=
  let old := Function.update (keys cfg.keyIdx).keyData 0 0
  Function.update keys cfg.keyIdx
    ⟨cfg.keyLen, match cfg.key with
      | some key => copy cfg.keyLen key old
      | none => old⟩

def setEncExtKeys (cfg : EncextCfg) : Request Unit := do
  let c ← Routine.read (·.core)
  onlyIf (cfg.algType = .wep ∨
      cfg.algType = .none ∧ c.wepEnabled ≠ 0 ∧ cfg.keyIdx < mibWepNDefaultKeys) do
    setMibValue (.wepDefaultKeys (encExtKeys c.wepKeys cfg))
    setCore ({ · with wepKeys := encExtKeys c.wepKeys cfg })

def resetIgtk (cfg : EncextCfg) : Request Unit :=
  onlyIf (cfg.algType = .none ∧ cfg.keyLen = 0 ∧
      (cfg.keyIdx = umiRsnIgtkGmKeyIndex - 1 ∨ cfg.keyIdx = umiRsnIgtkGnKeyIndex - 1))
    (setCore ({ · with igtkCipher := cfg.algType, igtkKeyLen := cfg.keyLen }))

/-- The bytes of the key, none of them set when there is no key. -/
def EncextCfg.bytes (cfg : EncextCfg) : Nat → UInt8 := cfg.key.getD fun _ => 0

/-- `_mtlk_core_set_rx_seq` -/
def setRxSeq (rxSeq : Nat → UInt8) : Nat → UInt8 := fun i => if i < 6 then rxSeq (5 - i) else 0

/-- What is stored of a group key. -/
def recordGroup (cfg : EncextCfg) (c : Core) : Core :=
  if cfg.algType = .aesCmac then
    let slot := if cfg.keyIdx = umiRsnIgtkGmKeyIndex - 1 then 0 else 1
    { c with
      igtkCipher := cfg.algType
      igtkKeyLen := cfg.keyLen
      igtkKey := Function.update c.igtkKey slot (copy cfg.keyLen cfg.bytes (c.igtkKey slot)) }
  else
    { c with
      groupCipher := cfg.algType
      groupRsc := Function.update c.groupRsc cfg.keyIdx
        (match cfg.rxSeq with
          | some rxSeq => setRxSeq rxSeq
          | none => fun _ => 0) }

def encExtMessage (cfg : EncextCfg) : UmiSetKey where
  stationId := cfg.staAddr
  cipherSuite := cfg.algType.suite
  defaultKeyIndex := cfg.keyIdx
  txSeqNum := if 0 < cfg.keyLen then 1 else 0
  tk := copy cfg.keyLen cfg.bytes fun _ => 0

def updateSta (addr : Mac) (f : Sta → Sta) (w : World) : World :=
  { w with stas := Function.update w.stas addr ((w.stas addr).map f) }

/-- The code for a status of `UM_MAN_SET_KEY_REQ`. -/
def encExtCode (status : Nat) : Int :=
  if status = 22 then mtlkErrNotSupported else mtlkErrUnknown

/-- `mtlk_sq_wait_all_packets_confirmed` -/
def waitAllPacketsConfirmed : Request Unit := fun w =>
  (match w.answers 0 with
    | .confirmed 0 => .ok ()
    | .failed res _ => .error res
    | _ => .error mtlkErrUnknown, w.next)

/-- A key is set while its station gets no packets, if it is the key of a station. -/
def whileDiscarding (sta : Option Mac) (send : Request Unit) : Request Unit :=
  match sta with
  | none => send
  | some addr => do
    let stored ← Routine.read fun w => (w.stas addr).map (·.filter)
    Routine.write (updateSta addr ({ · with filter := .discardAll }))
    Routine.always (do waitAllPacketsConfirmed; send)
      (updateSta addr fun s => { s with filter := stored.getD s.filter })

/-- A round of the loop that sets the key, and the message for the next one: after a WEP key that is
not the default one, the default key is set. -/
def keyRound (cfg : EncextCfg) (sta : Option Mac) (m : UmiSetKey) : Request (Option UmiSetKey) := do
  whileDiscarding sta (sendKey encExtCode m)
  let c ← Routine.read (·.core)
  if cfg.algType = .wep ∧ m.defaultKeyIndex ≠ c.defaultKey then
    let key := c.wepKeys c.defaultKey
    pure (some { m with
      defaultKeyIndex := c.defaultKey, tk := copy key.keyLength key.keyData m.tk })
  else pure none

/-- The loop in a number of rounds, and the message that is left. -/
def keyLoop (cfg : EncextCfg) (sta : Option Mac) : Nat → UmiSetKey → Request (Option UmiSetKey)
  | 0, m => pure (some m)
  | rounds + 1, m => do
    let again ← keyRound cfg sta m
    match again with
    | some m' => keyLoop cfg sta rounds m'
    | none => pure none

/-- What is done to a station before its key is set. -/
def preparePairwise (cfg : EncextCfg) (s : Sta) : Sta :=
  { s with
    cipher := cfg.algType
    filter := if cfg.keyLen = 0 then .allow8021x else s.filter }

def setPairwiseKey (cfg : EncextCfg) : Request Unit := do
  Routine.write (updateSta cfg.staAddr (preparePairwise cfg))
  let _ ← keyLoop cfg (some cfg.staAddr) 2 (encExtMessage cfg)
  onlyIf (cfg.keyLen ≠ 0) (Routine.write (updateSta cfg.staAddr ({ · with filter := .allowAll })))

def setGroupKey (cfg : EncextCfg) : Request Unit := do
  setCore (recordGroup cfg)
  let _ ← keyLoop cfg none 2 (encExtMessage cfg)
  pure ()

/-- `_mtlk_core_set_enc_ext_cfg`; for a station that is not there nothing is sent. -/
def setEncExtCfg (st : Situation) (cfg : EncextCfg) : Request Unit := do
  checkReady (st.up && !st.stopping && !st.scanning)
  initMessage
  filled cfg.defaultKeyIdx setDefaultKey
  setEncExtKeys cfg
  resetIgtk cfg
  setWep st cfg.wepEnabled
  if cfg.staAddr = broadcast then setGroupKey cfg
  else do
    let sta ← Routine.read (·.stas cfg.staAddr)
    onlyIf (sta.isSome = true) (setPairwiseKey cfg)

/-- What the `ioctl` handlers read of a key: the bits of `flags` and its index, and the bytes. -/
structure IwEncode where
  disabled : Bool
  opened : Bool
  restricted : Bool
  index : Nat
  length : Nat
  extra : Nat → UInt8

/-- `mtlk_df_ui_validate_wep_key` -/
def validateWepKey (key : Nat → UInt8) (length : Nat) : Bool :=
  (length = mibWepKeyWep1Length || length = mibWepKeyWep2Length) &&
    (List.range length).any fun i => key i ≠ 0

/-- `MIB_AUTHENTICATION_OPEN_SYSTEM` -/
def mibAuthenticationOpenSystem : Nat := 0

/-- `MIB_AUTHENTICATION_SHARED_KEY` -/
def mibAuthenticationSharedKey : Nat := 1

/-- The configuration that `mtlk_df_ui_linux_ioctl_setenc` makes of the flags. An index is checked
only if there is one, and its key only if it has a length. -/
def IwEncode.encCfg (p : IwEncode) : Except Int EncCfg :=
  if mibWepNDefaultKeys < p.index then .error mtlkErrParams
  else if p.length ≠ 0 ∧ ¬ validateWepKey p.extra p.length then .error mtlkErrParams
  else .ok
    { wepEnabled :=
        if p.disabled then some 0 else if p.opened || p.restricted then some 1 else none
      authentication :=
        if p.disabled || p.opened then some mibAuthenticationOpenSystem
        else if p.restricted then some mibAuthenticationSharedKey else none
      keyId := if p.index = 0 then none else some (p.index - 1)
      key := ⟨p.length, copy p.length p.extra fun _ => 0⟩ }

/-- `mtlk_df_ui_linux_ioctl_setenc` -/
def ioctlSetenc (st : Situation) (p : IwEncode) : Request Unit :=
  match p.encCfg with
  | .error e => Routine.stop e
  | .ok cfg => setWepEncCfg st cfg

/-- `mtlk_df_ui_linux_ioctl_getenc` returns the index, the length of the key and its bytes. -/
def ioctlGetenc (st : Situation) (index : Nat) : Request (Nat × Nat × (Nat → UInt8)) := do
  let cfg ← getWepEncCfg st
  if mibWepNDefaultKeys < index then Routine.stop mtlkErrParams
  else
    let idx := if index = 0 then cfg.keyId else index - 1
    pure (idx + 1, (cfg.wepKeys idx).keyLength, (cfg.wepKeys idx).keyData)

/-- `struct iw_encode_ext`, and the flags beside it. There is no algorithm when it is not one of the
supported, and no address when it is not one of Ethernet. -/
structure IwEncodeExt where
  disabled : Bool
  index : Nat
  alg : Option Alg
  setTxKey : Bool
  groupKey : Bool
  rxSeqValid : Bool
  addr : Option Mac
  keyLen : Nat
  key : Nat → UInt8
  rxSeq : Nat → UInt8

/-- Which indices the algorithm has keys for. -/
def validIndex : Alg → Nat → Bool
  | .aesCmac, index => index = umiRsnIgtkGmKeyIndex || index = umiRsnIgtkGnKeyIndex
  | _, index => index ≤ mibWepNDefaultKeys

/-- The length of the key, which is none when no flag says that there is one; a key that is too long
is cut. -/
def IwEncodeExt.length (p : IwEncodeExt) : Nat :=
  if p.setTxKey || p.groupKey then min p.keyLen umiRsnTkLen else 0

/-- Whether it is a key that WEP has; it may be without a length. -/
def IwEncodeExt.wepKey (p : IwEncodeExt) : Bool :=
  !(p.setTxKey || p.groupKey) || p.keyLen = 0 || validateWepKey p.key p.keyLen

def IwEncodeExt.cfg (p : IwEncodeExt) (alg : Alg) (addr : Mac) : EncextCfg where
  wepEnabled := if alg = .wep then 1 else 0
  algType := alg
  staAddr := addr
  defaultKeyIdx :=
    if p.setTxKey && p.index - 1 < mibWepNDefaultKeys then some (p.index - 1) else none
  keyIdx := p.index - 1
  keyLen := p.length
  key := if p.length = 0 then none else some (copy p.length p.key fun _ => 0)
  rxSeq := if p.rxSeqValid then some p.rxSeq else none

/-- `mtlk_df_ui_linux_ioctl_setencext`. The firmware does not support that keys are reset. -/
def ioctlSetencext (st : Situation) (p : IwEncodeExt) : Request Unit :=
  match if p.disabled then some .none else p.alg with
  | none => Routine.stop mtlkErrNotSupported
  | some .none => pure ()
  | some alg =>
    if ¬ validIndex alg p.index then Routine.stop mtlkErrParams
    else
      match p.addr with
      | none => Routine.stop mtlkErrParams
      | some addr =>
        if alg = .wep ∧ ¬ p.wepKey then Routine.stop mtlkErrParams
        else setEncExtCfg st (p.cfg alg addr)

end Wave300.Security
