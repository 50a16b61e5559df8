import Wave300.Security.Invariant

/-!
# Every request keeps the copy

Handler by handler: what is stored stays a copy of what the firmware has, the indices and lengths in
their ranges, and no station is left without packets. After a crash the firmware is configured with
what is stored.
-/

namespace Wave300.Security

open L2nat (Mac)
open Lib (Routine Runs)
open Lib.Routine (Triple Keeps)

variable {base c c' : Core} {fw : Firmware} {w : World} {m : UmiSetKey} {mib : Option MibId}
  {sta : Option Mac} {addr : Mac} {st : Situation} {P : World → Prop} {idx : Nat}

theorem keeps_pure {α : Type} (a : α) : Keeps P (pure a : Request α) := .pure fun _ h => h

theorem keeps_filled {α : Type} {item : Option α} {call : α → Request Unit}
    (calls : ∀ a, item = some a → Keeps P (call a)) : Keeps P (filled item call) := by
  cases item with
  | none => exact keeps_pure ()
  | some a => exact calls a rfl

theorem keeps_onlyIf {cond : Prop} [Decidable cond] {call : Request Unit}
    (holds : cond → Keeps P call) : Keeps P (onlyIf cond call) :=
  .ite holds fun _ => keeps_pure ()

theorem keeps_checkReady (admitted : Bool) : Keeps P (checkReady admitted) :=
  keeps_onlyIf fun _ => .stop fun _ h => h

theorem Pending.next (h : Pending base mib sta w) : Pending base mib sta w.next :=
  ⟨h.core, h.fw, h.synced, h.served⟩

theorem keeps_initMessage : Keeps (Pending base mib sta) initMessage :=
  fun _ h => ⟨fun _ _ => h.next, fun _ _ => h.next⟩

theorem getMibValue_spec {value : Firmware → Nat} {Q : Nat → Prop}
    (fits : ∀ fw, FirmwareFits fw → Q (value fw)) :
    Triple (Sound base) (getMibValue value) (fun n w => Q n ∧ Sound base w)
      fun _ => Sound base := by
  intro w h
  refine ⟨fun n ok => ⟨?_, h.next⟩, fun _ _ => h.next⟩
  unfold getMibValue at ok
  dsimp only at ok
  split at ok
  case h_3 =>
    cases ok
    exact fits w.fw h.fw
  all_goals cases ok

theorem keeps_setDefaultKey (lt : idx < mibWepNDefaultKeys) :
    Keeps (Sound base) (setDefaultKey idx) := by
  refine keeps_store lt fun c =>
    ⟨fun h => { h with defaultKey := lt }, rfl, fun fw i other => ?_⟩
  cases i <;> first | exact Iff.rfl | exact absurd rfl other

theorem keeps_setAuthentication (policy : Nat) : Keeps (Sound base) (setAuthentication policy) := by
  refine keeps_store trivial fun c => ⟨fun h => { h with }, rfl, fun fw i other => ?_⟩
  cases i <;> first | exact Iff.rfl | exact absurd rfl other

theorem keeps_setRsnEnabled (rsnEnabled : Nat) : Keeps (Sound base) (setRsnEnabled rsnEnabled) := by
  refine keeps_store trivial fun c => ⟨fun h => { h with }, rfl, fun fw i other => ?_⟩
  cases i <;> first | exact Iff.rfl | exact absurd rfl other

theorem keeps_setWep (wepEnabled : Nat) : Keeps (Sound base) (setWep st wepEnabled) := by
  refine .read_bind fun c => .ite (fun _ => .pure fun _ h => h.1) fun _ => .ite
    (fun _ => .stop fun _ h => h.1) fun _ => store_spec trivial
      ⟨fun h => { h with }, rfl, fun fw i other => ?_⟩
  cases i <;> first | exact Iff.rfl | exact absurd rfl other

/-- Keys that differ at one index from those that are stored. -/
theorem stores_keys {keys : Nat → WepKey} (lt : idx < mibWepNDefaultKeys)
    (length : (keys idx).keyLength ≤ mibWepKeyWep2Length)
    (same : ∀ i, i ≠ idx → keys i = c.wepKeys i) :
    Stores base (.wepDefaultKeys keys) c { c with wepKeys := keys } where
  fits h :=
    { h with
      lengths := fun i => by
        by_cases here : i = idx
        · exact (congrArg (fun j => (keys j).keyLength) here).trans_le length
        · exact (congrArg WepKey.keyLength (same i here)).trans_le (h.lengths i)
      wepBehind := fun i behind => by
        have ne : i ≠ idx := by omega
        exact (same i ne).trans (h.wepBehind i behind) }
  stored := rfl
  others fw i other := by
    cases i <;> first | exact Iff.rfl | exact absurd rfl other

theorem keeps_storeKey {key : WepKey} (lt : idx < mibWepNDefaultKeys)
    (length : key.keyLength ≤ mibWepKeyWep2Length) : Keeps (Sound base) (storeKey idx key) := by
  intro w sound
  have stores : Stores base (.wepDefaultKeys (withKey w.core.wepKeys idx key)) w.core
      { w.core with
        wepKeys := Function.update w.core.wepKeys idx (withKey w.core.wepKeys idx key idx) } := by
    have same : Function.update w.core.wepKeys idx (withKey w.core.wepKeys idx key idx) =
        withKey w.core.wepKeys idx key := by
      unfold withKey
      rw [Function.update_self]
    rw [same]
    refine stores_keys lt ?_ fun i ne => Function.update_of_ne ne ..
    unfold withKey
    rw [Function.update_self]
    exact length
  have spec : Triple (fun w' => Sound base w' ∧ w'.core = w.core)
      (do
        setMibValue (.wepDefaultKeys (withKey w.core.wepKeys idx key))
        setCore fun c => { c with
          wepKeys := Function.update c.wepKeys idx (withKey w.core.wepKeys idx key idx) })
      (fun _ => Sound base) fun _ => Sound base := store_spec trivial stores
  exact spec w ⟨sound, rfl⟩

theorem copy_zero {n : Nat} {src : Nat → UInt8} (small : n ≤ umiRsnTkLen) (i : Nat)
    (behind : umiRsnTkLen ≤ i) : copy n src (fun _ => 0) i = 0 := if_neg (by omega)

/-- A WEP key that is stored fits in a message. -/
theorem CoreFits.key (h : CoreFits base c) (suite : Suite) (lt : idx < mibWepNDefaultKeys) :
    UmiSetKey.Fits ⟨addr, suite, idx, 0,
      copy (c.wepKeys idx).keyLength (c.wepKeys idx).keyData fun _ => 0⟩ := by
  have length := h.lengths idx
  exact ⟨.inl lt, copy_zero (length.trans (by decide))⟩

theorem keeps_setWepKeyBlocked (lt : idx < mibWepNDefaultKeys) :
    Keeps (Pending base mib sta) (setWepKeyBlocked addr idx) := by
  intro w h
  exact keeps_sendKey (h.core.key .wep40 lt) w h

theorem keyIndex_spec {cfg : EncCfg}
    (keyId : ∀ idx, cfg.keyId = some idx → idx < mibWepNDefaultKeys) :
    Triple (Sound base) (keyIndex cfg) (fun idx w => idx < mibWepNDefaultKeys ∧ Sound base w)
      fun _ => Sound base := by
  unfold keyIndex
  cases given : cfg.keyId with
  | none => exact getMibValue_spec fun _ fits => fits.keyid
  | some idx => exact .pure fun _ h => ⟨keyId idx given, h⟩

theorem keeps_setKeyOrIndex {cfg : EncCfg}
    (keyId : ∀ idx, cfg.keyId = some idx → idx < mibWepNDefaultKeys)
    (length : cfg.key.keyLength ≤ mibWepKeyWep2Length) :
    Keeps (Sound base) (setKeyOrIndex cfg) := by
  refine .ite (fun _ => keeps_filled fun idx given => keeps_setDefaultKey (keyId idx given))
    fun _ => .bind (keyIndex_spec keyId) fun idx => ?_
  rintro w ⟨lt, sound⟩
  exact keeps_storeKey lt length w sound

theorem keeps_setWepEncCfg {cfg : EncCfg}
    (keyId : ∀ idx, cfg.keyId = some idx → idx < mibWepNDefaultKeys)
    (length : cfg.key.keyLength ≤ mibWepKeyWep2Length) :
    Keeps (Sound base) (setWepEncCfg st cfg) := by
  refine .bind (keeps_checkReady _) fun _ => .bind (keeps_setKeyOrIndex keyId length) fun _ =>
    .bind (keeps_filled fun _ _ => keeps_setAuthentication _) fun _ =>
    .bind (keeps_filled fun _ _ => keeps_setWep _) fun _ => .read_bind fun idx => ?_
  rintro w ⟨sound, rfl⟩
  exact keeps_setWepKeyBlocked sound.core.defaultKey w sound

theorem keeps_setAuthCfg (cfg : AuthCfg) : Keeps (Sound base) (setAuthCfg st cfg) :=
  .bind (keeps_checkReady _) fun _ => .bind (keeps_filled fun _ _ => keeps_setRsnEnabled _) fun _ =>
    .bind (keeps_filled fun _ _ => keeps_setWep _) fun _ =>
    keeps_filled fun _ _ => keeps_setAuthentication _

theorem keeps_setGenieCfg (cfg : GenieCfg) : Keeps (Sound base) (setGenieCfg st cfg) := by
  refine .bind (keeps_checkReady _) fun _ => .bind (keeps_filled fun _ _ => ?wps) fun _ =>
    .bind (keeps_onlyIf fun _ => ?reset) fun _ => .bind (keeps_filled fun _ _ => ?rsnie) fun _ =>
    .bind (keeps_filled fun _ _ => .stop fun _ h => h) fun _ =>
    keeps_filled fun _ _ => keeps_setRsnEnabled _
  all_goals
    refine keeps_setCore fun c => ⟨fun h => { h with }, fun fw i => ?_⟩
    cases i <;> exact Iff.rfl

/-- A request of `mtlk_df_ui_linux_ioctl_setencext` has an index for its algorithm, a WEP key has
one of the lengths of WEP, and any key one that a message has room for. -/
structure EncextCfg.Fits (cfg : EncextCfg) : Prop where
  some : cfg.algType ≠ .none
  index : if cfg.algType = .aesCmac then cfg.keyIdx < umiRsnIgtkGmKeyIndex
    else cfg.keyIdx < mibWepNDefaultKeys
  default : ∀ idx, cfg.defaultKeyIdx = .some idx → idx < mibWepNDefaultKeys
  length : cfg.keyLen ≤ umiRsnTkLen
  wep : cfg.algType = .wep → cfg.keyLen ≤ mibWepKeyWep2Length

theorem EncextCfg.Fits.message {cfg : EncextCfg} (h : cfg.Fits) : (encExtMessage cfg).Fits := by
  refine ⟨?_, copy_zero h.length⟩
  have index := h.index
  split at index
  case isTrue cmac =>
    right
    exact ⟨by simp [encExtMessage, cmac, Alg.suite], index⟩
  case isFalse => exact .inl index

theorem keeps_setEncExtKeys {cfg : EncextCfg} (fits : cfg.Fits) :
    Keeps (Sound base) (setEncExtKeys cfg) := by
  refine .read_bind fun c => .ite (fun wep => ?_) fun _ => .pure fun _ h => h.1
  obtain wep | ⟨none, -⟩ := wep
  · have lt : cfg.keyIdx < mibWepNDefaultKeys := by
      have index := fits.index
      rwa [if_neg (by simp [wep])] at index
    refine store_spec trivial (stores_keys lt ?_ fun i ne => Function.update_of_ne ne ..)
    unfold encExtKeys
    rw [Function.update_self]
    exact fits.wep wep
  · exact absurd none fits.some

theorem keeps_resetIgtk {cfg : EncextCfg} (fits : cfg.Fits) :
    Keeps (Sound base) (resetIgtk cfg) :=
  keeps_onlyIf fun reset => absurd reset.1 fits.some

theorem EncextCfg.Fits.recordGroup {cfg : EncextCfg} (h : cfg.Fits) (c : Core) :
    Beside base c (recordGroup cfg c) := by
  unfold Security.recordGroup
  have index := h.index
  split at index
  case isTrue cmac =>
    rw [if_pos cmac]
    refine ⟨fun fits => { fits with igtk := h.length, igtkBehind := fun i behind => ?_ },
      fun fw i => by cases i <;> exact Iff.rfl⟩
    refine (Function.update_of_ne ?_ ..).trans (fits.igtkBehind i behind)
    split <;> omega
  case isFalse other =>
    rw [if_neg other]
    refine ⟨fun fits => { fits with rscBehind := fun i behind => ?_ },
      fun fw i => by cases i <;> exact Iff.rfl⟩
    refine (Function.update_of_ne ?_ ..).trans (fits.rscBehind i behind)
    omega

theorem updateSta_stas (f : Sta → Sta) :
    (updateSta addr f w).stas = Function.update w.stas addr ((w.stas addr).map f) := rfl

/-- A station apart, all stations are served as they were. -/
theorem Pending.updateSta {f : Sta → Sta} (h : Pending base mib (some addr) w) :
    Pending base mib (some addr) (updateSta addr f w) where
  core := h.core
  fw := h.fw
  synced := h.synced
  served a s found ne := by
    have other : a ≠ addr := fun same => ne (congrArg _ same)
    rw [updateSta_stas, Function.update_of_ne other] at found
    exact h.served a s found ne

/-- The station is served again. -/
theorem Pending.restored {f : Sta → Sta} (h : Pending base mib (some addr) w)
    (serves : ∀ s, w.stas addr = some s → (f s).filter ≠ .discardAll) :
    Pending base mib none (Security.updateSta addr f w) where
  core := h.core
  fw := h.fw
  synced := h.synced
  served a s found _ := by
    by_cases here : a = addr
    · subst here
      rw [updateSta_stas, Function.update_self, Option.map_eq_some_iff] at found
      obtain ⟨old, was, rfl⟩ := found
      exact serves old was
    · rw [updateSta_stas, Function.update_of_ne here] at found
      exact h.served a s found (by simpa using here)

theorem Pending.but (h : Pending base mib none w) (sta : Option Mac) : Pending base mib sta w :=
  ⟨h.core, h.fw, h.synced, fun a s found _ => h.served a s found (by simp)⟩

/-- A message does not change the stations. -/
theorem sendKey_stas {code : Nat → Int} (x : Mac → Option Sta) :
    Keeps (fun w => w.stas = x) (sendKey code m) :=
  fun _ same => ⟨fun _ _ => same, fun _ _ => same⟩

theorem waitAllPacketsConfirmed_spec (x : Mac → Option Sta) :
    Keeps (fun w => Pending base mib sta w ∧ w.stas = x) waitAllPacketsConfirmed :=
  fun _ h => ⟨fun _ _ => ⟨h.1.next, h.2⟩, fun _ _ => ⟨h.1.next, h.2⟩⟩

theorem keeps_whileDiscarding {code : Nat → Int} (fits : m.Fits) :
    Keeps (Sound base) (whileDiscarding sta (sendKey code m)) := by
  cases sta with
  | none => exact keeps_sendKey fits
  | some addr =>
    intro w sound
    let x := Function.update w.stas addr ((w.stas addr).map ({ · with filter := .discardAll }))
    -- the filter that is restored is that of `w`
    have send : Triple (fun w' => Pending base none (some addr) w' ∧ w'.stas = x)
        (do waitAllPacketsConfirmed; sendKey code m)
        (fun _ w' => Pending base none (some addr) w' ∧ w'.stas = x)
        fun _ w' => Pending base none (some addr) w' ∧ w'.stas = x :=
      .bind (waitAllPacketsConfirmed_spec x) fun _ => (keeps_sendKey fits).and (sendKey_stas x)
    have restored (w' : World) (h : Pending base none (some addr) w' ∧ w'.stas = x) :
        Sound base (updateSta addr
          (fun s => { s with filter := ((w.stas addr).map (·.filter)).getD s.filter }) w') := by
      refine h.1.restored fun s found => ?_
      rw [h.2, show x addr = _ from Function.update_self .., Option.map_eq_some_iff] at found
      obtain ⟨old, was, -⟩ := found
      rw [was]
      exact sound.served addr old was (by simp)
    exact Triple.always send (fun _ => restored) (fun _ => restored) _
      ⟨(sound.but (some addr)).updateSta, rfl⟩

theorem keyRound_spec {cfg : EncextCfg} (fits : m.Fits) :
    Triple (Sound base) (keyRound cfg sta m)
      (fun again w => (∀ m', again = some m' → m'.Fits) ∧ Sound base w) fun _ => Sound base := by
  refine .bind (keeps_whileDiscarding fits) fun _ => .read_bind fun c =>
    .ite (fun _ => ?_) fun _ => ?_
  · refine .pure ?_
    rintro w ⟨sound, rfl⟩
    refine ⟨?_, sound⟩
    rintro m' ⟨rfl⟩
    refine ⟨.inl sound.core.defaultKey, fun i behind => ?_⟩
    have length := sound.core.lengths w.core.defaultKey
    have short : ¬ i < (w.core.wepKeys w.core.defaultKey).keyLength := by
      unfold mibWepKeyWep2Length umiRsnTkLen at *
      omega
    exact (if_neg short).trans (fits.2 i behind)
  · exact .pure fun w h => ⟨nofun, h.1⟩

theorem keeps_keyLoop {cfg : EncextCfg} {rounds : Nat} (fits : m.Fits) :
    Keeps (Sound base) (keyLoop cfg sta rounds m) := by
  induction rounds generalizing m with
  | zero => exact keeps_pure _
  | succ rounds ih =>
    refine .bind (keyRound_spec fits) fun again => ?_
    cases again with
    | none => exact .pure fun w h => h.2
    | some m' =>
      rintro w ⟨next, sound⟩
      exact ih (next m' rfl) w sound

/-- A station whose entry changes is served as before, or better. -/
theorem keeps_updateSta {f : Sta → Sta} (serves : ∀ s, s.filter ≠ .discardAll →
    (f s).filter ≠ .discardAll) :
    Keeps (Sound base) (Routine.write (updateSta addr f) : Request Unit) :=
  .write fun _ sound => (sound.but (some addr)).restored fun s found =>
    serves s (sound.served addr s found (by simp))

theorem keeps_setPairwiseKey {cfg : EncextCfg} (fits : cfg.Fits) :
    Keeps (Sound base) (setPairwiseKey cfg) := by
  refine .bind (keeps_updateSta fun s served => ?_) fun _ =>
    .bind (keeps_keyLoop fits.message) fun _ =>
    keeps_onlyIf fun _ => keeps_updateSta fun s _ => by simp
  unfold preparePairwise
  dsimp only
  split
  · simp
  · exact served

theorem keeps_setGroupKey {cfg : EncextCfg} (fits : cfg.Fits) :
    Keeps (Sound base) (setGroupKey cfg) :=
  .bind (keeps_setCore fits.recordGroup) fun _ =>
    .bind (keeps_keyLoop fits.message) fun _ => keeps_pure ()

theorem keeps_setEncExtCfg {cfg : EncextCfg} (fits : cfg.Fits) :
    Keeps (Sound base) (setEncExtCfg st cfg) := by
  refine .bind (keeps_checkReady _) fun _ => .bind keeps_initMessage fun _ =>
    .bind (keeps_filled fun idx given => keeps_setDefaultKey (fits.default idx given)) fun _ =>
    .bind (keeps_setEncExtKeys fits) fun _ => .bind (keeps_resetIgtk fits) fun _ =>
    .bind (keeps_setWep _) fun _ => .ite (fun _ => keeps_setGroupKey fits) fun _ =>
    .read_bind fun sta => .ite (fun _ => ?_) fun _ => .pure fun _ h => h.1
  exact (keeps_setPairwiseKey fits).mono (fun _ h => h.1) (fun _ _ h => h) fun _ _ h => h

theorem validateWepKey_length {key : Nat → UInt8} {length : Nat}
    (valid : validateWepKey key length = true) : length ≤ mibWepKeyWep2Length := by
  unfold validateWepKey mibWepKeyWep1Length mibWepKeyWep2Length at *
  simp only [Bool.and_eq_true, Bool.or_eq_true, decide_eq_true_eq] at valid
  omega

theorem keeps_ioctlSetenc (p : IwEncode) : Keeps (Sound base) (ioctlSetenc st p) := by
  unfold ioctlSetenc IwEncode.encCfg
  by_cases index : mibWepNDefaultKeys < p.index
  · rw [if_pos index]
    exact .stop fun _ h => h
  by_cases bad : p.length ≠ 0 ∧ ¬ validateWepKey p.extra p.length
  · rw [if_neg index, if_pos bad]
    exact .stop fun _ h => h
  rw [if_neg index, if_neg bad]
  refine keeps_setWepEncCfg (fun idx given => ?_) ?_
  · dsimp only at given
    split at given
    · cases given
    · cases given
      unfold mibWepNDefaultKeys at *
      omega
  · by_cases zero : p.length = 0
    · simp [zero]
    · exact validateWepKey_length (by simpa [zero] using bad)

theorem IwEncodeExt.cfg_fits (p : IwEncodeExt) {alg : Alg} (addr : Mac) (some : alg ≠ .none)
    (index : validIndex alg p.index = true) (wep : alg = .wep → p.wepKey = true) :
    (p.cfg alg addr).Fits where
  some := some
  index := by
    show if alg = .aesCmac then p.index - 1 < _ else p.index - 1 < _
    cases alg <;> simp only [validIndex, Bool.or_eq_true, decide_eq_true_eq] at index <;>
      simp [mibWepNDefaultKeys, umiRsnIgtkGmKeyIndex, umiRsnIgtkGnKeyIndex] at index ⊢ <;> omega
  default idx given := by
    simp only [IwEncodeExt.cfg] at given
    split at given
    · cases given
      next h => exact of_decide_eq_true (Bool.and_eq_true _ _ ▸ h).2
    · cases given
  length := by
    show p.length ≤ _
    unfold IwEncodeExt.length
    split <;> simp
  wep := by
    intro here
    show p.length ≤ _
    have key := wep here
    unfold IwEncodeExt.wepKey at key
    unfold IwEncodeExt.length
    split
    case isTrue given =>
      simp only [given, Bool.not_true, Bool.false_or, Bool.or_eq_true, decide_eq_true_eq] at key
      obtain zero | valid := key
      · simp [zero]
      · exact (Nat.min_le_left ..).trans (validateWepKey_length valid)
    case isFalse => exact Nat.zero_le _

theorem keeps_ioctlSetencext (p : IwEncodeExt) : Keeps (Sound base) (ioctlSetencext st p) := by
  unfold ioctlSetencext
  split
  case h_1 => exact .stop fun _ h => h
  case h_2 => exact keeps_pure ()
  case h_3 alg some chosen =>
    refine .ite (fun _ => .stop fun _ h => h) fun index => ?_
    split
    case h_1 => exact .stop fun _ h => h
    case h_2 addr given =>
      refine .ite (fun _ => .stop fun _ h => h) fun wep => ?_
      refine keeps_setEncExtCfg
        (p.cfg_fits addr (fun none => some (none ▸ rfl)) (by simpa using index) ?_)
      intro here
      by_contra no
      exact wep ⟨here, by simpa using no⟩

theorem keeps_getenc (index : Nat) : Keeps (Sound base) (ioctlGetenc st index) := by
  have authentication (c : Core) : Keeps (Sound base) (getAuthentication c) :=
    .ite (fun _ => keeps_pure 0) fun _ =>
      (getMibValue_spec (Q := fun _ => True) fun _ _ => trivial).mono (fun _ h => h)
        (fun _ _ h => h.2) fun _ _ h => h
  refine .bind (.bind (keeps_checkReady _) fun _ => .read_bind fun c =>
    .bind ?_ fun _ => keeps_pure _) fun cfg =>
    .ite (fun _ => .stop fun _ h => h) fun _ => keeps_pure _
  exact (authentication c).mono (fun _ h => h.1) (fun _ _ h => h) fun _ _ h => h

theorem keeps_ignored {α : Type} {call : Request α} (keeps : Keeps P call) :
    Keeps P (Routine.ignored call) := .ignored keeps

theorem keeps_giveWepKey (lt : idx < mibWepNDefaultKeys) :
    Keeps (Sound base) (giveWepKey addr idx) :=
  .bind (keeps_updateSta fun _ served => served) fun _ => keeps_ignored (keeps_setWepKeyBlocked lt)

theorem CoreFits.connectKey (h : CoreFits base c) {peerAp : Bool}
    (given : connectKey c peerAp = some idx) : idx < mibWepNDefaultKeys := by
  have peer := h.peer
  have default := h.defaultKey
  unfold Security.connectKey at given
  split at given
  · cases given
  split at given <;> split at given <;> cases given <;> omega

theorem keeps_connectSta (peerAp : Bool) : Keeps (Sound base) (connectSta addr peerAp) := by
  refine .bind (Q := fun _ => Sound base) (.write fun w sound => ?_) fun _ => .read_bind fun c =>
    .bind (Q := fun _ => Sound base) ?_ fun _ => keeps_updateSta fun s _ => ?_
  · refine ⟨sound.core, sound.fw, sound.synced, fun a s found ne => ?_⟩
    dsimp only at found
    by_cases here : a = addr
    · subst here
      rw [Function.update_self] at found
      cases found
      simp [Sta.new]
    · rw [Function.update_of_ne here] at found
      exact sound.served a s found ne
  · rintro w ⟨sound, rfl⟩
    exact keeps_filled (fun idx given => keeps_giveWepKey (sound.core.connectKey given)) w sound
  · unfold connectFilter
    split
    · simp
    · split <;> simp

/-- The core has a value of its own, and the MIB is stale. -/
theorem Pending.strays {id : MibId} (h : Sound base w) (stale : w.stale id = true)
    (fits : CoreFits base w.core → CoreFits base c')
    (others : ∀ fw i, i ≠ id → (Agrees c' fw i ↔ Agrees w.core fw i)) :
    Sound base { w with core := c' } where
  core := fits h.core
  fw := h.fw
  synced i ne := by
    by_cases same : i = id
    · exact .inl (same ▸ stale)
    · exact (h.synced i ne).imp_right (others w.fw i same).2
  served := h.served

/-- A MIB is set, and is stored whatever the code: it has what is stored, or it is stale. -/
theorem keeps_setAnyway {v : MibValue} {f : Core → Core} (fits : v.Fits)
    (stores : ∀ c, Stores base v c (f c)) :
    Keeps (Sound base) (do Routine.ignored (setMibValue v); setCore f) := by
  refine .bind (Q := fun _ w => Pending base (some v.id) none w ∧ v.In w.fw ∨
    Sound base w ∧ w.stale v.id = true) (.ignored fun w sound => ?_) fun _ => .write ?_
  · obtain ⟨ok, error⟩ := setMibValue_spec fits w ⟨sound, rfl⟩
    exact ⟨fun a e => .inl (ok a e).1, fun a e => .inr (error a e).1⟩
  · rintro w (⟨pending, set⟩ | ⟨sound, stale⟩)
    · exact pending.store set (stores w.core)
    · exact sound.strays stale (stores w.core).fits (stores w.core).others

/-- When WEP is disabled, the core says so or the MIB is stale. -/
theorem setWep_zero :
    Triple (fun w => Sound base w ∧ w.core.wepEnabled ≠ 0) (setWep st 0)
      (fun _ w => Sound base w ∧ w.core.wepEnabled = 0)
      fun _ w => Sound base w ∧ w.stale .privacyInvoked = true := by
  refine .read_bind fun c => .ite (fun same => ?_) fun _ => .ite (fun refused => ?_) fun _ =>
    .bind ((setMibValue_spec (v := .privacyInvoked 0) (c := c) trivial).mono
      (fun w h => ⟨h.1.1, h.2⟩) (fun _ _ h => h) fun _ _ h => h.1) fun _ => .write ?_
  · exact .pure fun w ⟨⟨_, on⟩, core⟩ => absurd (same.1 rfl) (core ▸ on)
  · simp [wepRefused] at refused
  · rintro w ⟨⟨pending, set⟩, -⟩
    refine ⟨pending.store set ⟨fun h => { h with }, rfl, fun fw i other => ?_⟩, rfl⟩
    cases i <;> first | exact Iff.rfl | exact absurd rfl other

theorem stores_privacy (c : Core) :
    Stores base (.privacyInvoked 0) c { c with wepEnabled := 0 } where
  fits h := { h with }
  stored := rfl
  others fw i other := by cases i <;> first | exact Iff.rfl | exact absurd rfl other

theorem keeps_disableWep :
    Triple (fun w => Sound base w ∧ w.core.wepEnabled ≠ 0) (disableWep st)
      (fun _ => Sound base) fun _ => Sound base := by
  refine .bind (Q := fun _ w => Sound base w ∧ (w.core.wepEnabled = 0 ∨
    w.stale .privacyInvoked = true)) (.ignored ?_) fun _ => .write ?_
  · exact setWep_zero.mono (fun _ h => h) (fun _ _ h => ⟨h.1, .inl h.2⟩)
      fun _ _ h => ⟨h.1, .inr h.2⟩
  · rintro w ⟨sound, off | stale⟩
    · refine sound.beside ⟨fun h => { h with }, fun fw i => ?_⟩
      cases i
      case privacyInvoked => simp [Agrees, off]
      all_goals exact Iff.rfl
    · have stores : Stores base _ w.core _ := stores_privacy w.core
      exact sound.strays stale stores.fits stores.others

theorem keeps_clearGroupKey : Keeps (Sound base) clearGroupKey := by
  have cleared {w : World} (sound : Sound base w) : Sound base (clearGroupKey w).2 := by
    refine ⟨sound.core, ⟨sound.fw.keyid, fun m mem => ?_⟩, sound.synced, sound.served⟩
    simp only [clearGroupKey] at mem
    split at mem
    · exact sound.fw.keys m (List.mem_of_mem_filter mem)
    · exact sound.fw.keys m mem
  exact fun w sound => ⟨fun _ _ => cleared sound, fun _ _ => cleared sound⟩

theorem keeps_resetRsn : Keeps (Sound base) resetRsn := by
  refine keeps_setAnyway trivial fun c => ⟨fun h => { h with }, rfl, fun fw i other => ?_⟩
  cases i <;> first | exact Iff.rfl | exact absurd rfl other

theorem keeps_forgetDefaultKey : Keeps (Sound base) forgetDefaultKey := by
  refine .write fun w sound => ?_
  refine ⟨{ sound.core with defaultKey := Nat.zero_lt_succ _ }, sound.fw, fun i ne => ?_,
    sound.served⟩
  by_cases here : i = .wepDefaultKeyid
  · left
    subst here
    show Function.update w.stale .wepDefaultKeyid true .wepDefaultKeyid = true
    exact Function.update_self ..
  · obtain stale | agrees := sound.synced i ne
    · exact .inl ((Function.update_of_ne here ..).trans stale)
    · right
      cases i
      case wepDefaultKeyid => exact absurd rfl here
      all_goals exact agrees

theorem keeps_resetSecurityStuff : Keeps (Sound base) (resetSecurityStuff st) := by
  refine .bind (keeps_setCore fun c => ⟨fun h => { h with }, fun fw i => ?_⟩) fun _ =>
    .bind (Q := fun _ => Sound base) (.read fun _ h => h) fun isAp =>
    .bind (keeps_onlyIf fun _ => keeps_clearGroupKey) fun _ => .bind keeps_resetRsn fun _ =>
    .read_bind fun wepEnabled => .bind (Q := fun _ => Sound base) ?_ fun _ =>
    .bind keeps_forgetDefaultKey fun _ =>
    keeps_setCore fun c => ⟨fun h => { h with }, fun fw i => ?_⟩
  · cases i <;> exact Iff.rfl
  · refine .ite (fun on => ?_) fun _ => .pure fun _ h => h.1
    exact keeps_disableWep.mono (fun w h => ⟨h.1, h.2.symm ▸ on⟩) (fun _ _ h => h) fun _ _ h => h
  · cases i <;> exact Iff.rfl

/-- What is stored is sent again. -/
theorem keeps_resend {v : MibValue} (fits : v.Fits) (stored : v.Of c) :
    Keeps (fun w => Sound base w ∧ w.core = c) (setMibValue v) := by
  refine (setMibValue_spec fits).mono (fun _ h => h) ?_ fun _ _ h => ⟨h.1.1, h.2⟩
  rintro _ w ⟨⟨pending, set⟩, rfl⟩
  exact ⟨pending.settled (.inr (stored.agrees set)), rfl⟩

theorem keeps_mibSetSecurity : Keeps (Sound base) mibSetSecurity := by
  refine .read_bind fun c => ?_
  intro w
  rintro ⟨sound, rfl⟩
  have resent : Keeps (fun w' => Sound base w' ∧ w'.core = w.core) (do
      setMibValue (.wepDefaultKeyid w.core.defaultKey)
      Routine.ignored (setMibValue (.wepDefaultKeys w.core.wepKeys))
      setMibValue (.authenticationPreference w.core.authentication)
      setMibRsn w.core.rsnEnabled
      setMibValue (.privacyInvoked w.core.wepEnabled)) :=
    .bind (keeps_resend sound.core.defaultKey rfl) fun _ =>
      .bind (keeps_ignored (keeps_resend trivial rfl)) fun _ =>
      .bind (keeps_resend trivial rfl) fun _ => .bind (keeps_resend trivial rfl) fun _ =>
      keeps_resend trivial rfl
  exact resent.mono (fun _ h => h) (fun _ _ h => h.1) (fun _ _ h => h.1) w ⟨sound, rfl⟩

theorem keeps_coreSetUmiKey (lt : idx < mibWepNDefaultKeys) :
    Keeps (Sound base) (coreSetUmiKey idx) := by
  intro w sound
  exact keeps_sendKey (sound.core.key w.core.groupSuite lt) w sound

theorem keeps_coreSetUmiKeyIgtk : Keeps (Sound base) (coreSetUmiKeyIgtk idx) := by
  refine .read_bind fun c => .ite (fun given => ?_) fun _ => .pure fun _ h => h.1
  rintro w ⟨sound, rfl⟩
  refine keeps_sendKey ⟨.inr ⟨rfl, ?_⟩, copy_zero sound.core.igtk⟩ w sound
  have given := given.2
  show idx - 1 < umiRsnIgtkGmKeyIndex
  unfold umiRsnIgtkGmKeyIndex umiRsnIgtkGnKeyIndex at *
  omega

theorem keeps_configure (earlier : Option Int) :
    Keeps (Sound base) (coreOnRcvryConfigure earlier) :=
  .bind (keeps_filled fun _ _ => .stop fun _ h => h) fun _ => .bind keeps_mibSetSecurity fun _ =>
    .bind (keeps_coreSetUmiKey (by decide)) fun _ =>
    .bind (keeps_coreSetUmiKey (by decide)) fun _ =>
    .bind (keeps_coreSetUmiKey (by decide)) fun _ =>
    .bind (keeps_coreSetUmiKey (by decide)) fun _ =>
    .bind keeps_coreSetUmiKeyIgtk fun _ => keeps_coreSetUmiKeyIgtk

/-- The firmware starts with a default key that there is, and with no keys. The user gives an index
for peer APs that there is, or none: `_mtlk_df_user_fill_peer_ap_key_idx` takes no other. -/
def Event.Allowed : World → Event → Prop
  | _, .crash fw => fw.wepDefaultKeyid < mibWepNDefaultKeys ∧ fw.keys = []
  | _, .peerApKeyIdx idx => idx ≤ mibWepNDefaultKeys
  | _, _ => True

theorem sound_step (sound : Sound base w) (e : Event) (allowed : e.Allowed w) :
    Sound base (w.step e) := by
  cases e with
  | setenc st p => exact (keeps_ioctlSetenc p).run sound
  | setencext st p => exact (keeps_ioctlSetencext p).run sound
  | setauth st cfg => exact (keeps_setAuthCfg cfg).run sound
  | setgenie st cfg => exact (keeps_setGenieCfg cfg).run sound
  | getenc st index => exact (keeps_getenc index).run sound
  | connect addr peerAp => exact (keeps_connectSta peerAp).run sound
  | disconnect addr =>
    refine ⟨sound.core, sound.fw, sound.synced, fun a s found ne => ?_⟩
    have other : a ≠ addr := by
      rintro rfl
      cases (Function.update_self ..).symm.trans found
    exact sound.served a s ((Function.update_of_ne other ..).symm.trans found) ne
  | peerApKeyIdx idx =>
    refine sound.beside ⟨fun h => { h with peer := allowed }, fun fw i => ?_⟩
    cases i <;> exact Iff.rfl
  | reset st => exact keeps_resetSecurityStuff.run sound
  | crash fw =>
    exact ⟨sound.core, ⟨allowed.1, fun m mem => by cases allowed.2 ▸ mem⟩, fun _ _ => .inl rfl,
      sound.served⟩
  | configure earlier => exact (keeps_configure earlier).run sound

/-- A MIB that was set is not stale, and one answer is used up. -/
theorem setMibValue_known (v : MibValue) (x : MibId → Bool) (a : Nat → Answer) :
    Triple (fun w => w.stale = x ∧ w.answers = a) (setMibValue v)
      (fun _ w => w.stale = Function.update x v.id false ∧ w.answers = fun n => a (n + 1))
      fun _ _ => True := by
  rintro w ⟨rfl, rfl⟩
  refine ⟨fun _ ok => ⟨?_, rfl⟩, fun _ _ => trivial⟩
  have confirmed := (setMibValue_ok v w).1 ok
  show Function.update w.stale v.id (decide (w.answers 0 ≠ .confirmed 0)) = _
  simp [confirmed]

theorem stale_ignored (v : MibValue) (x : MibId → Bool) (a : Nat → Answer) :
    Triple (fun w => w.stale = x ∧ w.answers = a) (Routine.ignored (setMibValue v) : Request Unit)
      (fun _ w => w.stale = Function.update x v.id (decide (a 0 ≠ .confirmed 0)) ∧
        w.answers = fun n => a (n + 1))
      fun _ _ => True := by
  rintro w ⟨rfl, rfl⟩
  exact ⟨fun _ _ => ⟨rfl, rfl⟩, fun _ _ => trivial⟩

/-- Only the MIB of the keys is stale, and only when its message, the second one, failed. -/
def Known (a : Nat → Answer) (stale : MibId → Bool) : Prop :=
  ∀ i, stale i = true ↔ i = .wepDefaultKeys ∧ a 1 ≠ .confirmed 0

theorem mibSetSecurity_known (a : Nat → Answer) :
    Triple (fun w => w.answers = a) mibSetSecurity (fun _ w => Known a w.stale)
      fun _ _ => True := by
  refine .read_bind fun c => ?_
  rintro w ⟨rfl, -⟩
  have sent := Triple.bind (setMibValue_known (.wepDefaultKeyid c.defaultKey) w.stale w.answers)
    fun _ => .bind (stale_ignored (.wepDefaultKeys c.wepKeys) _ _) fun _ =>
    .bind (setMibValue_known (.authenticationPreference c.authentication) _ _) fun _ =>
    .bind (setMibValue_known (.rsnControl (c.rsnEnabled ≠ 0)) _ _) fun _ =>
    setMibValue_known (.privacyInvoked c.wepEnabled) _ _
  obtain ⟨ok, -⟩ := sent w ⟨rfl, rfl⟩
  refine ⟨fun u e i => ?_, fun _ _ => trivial⟩
  refine (iff_of_eq (congrArg (· = true) (congrFun (ok u e).1 i))).trans ?_
  cases i <;> simp [MibValue.id, Function.update]

theorem sendKey_stale {code : Nat → Int} {Q : (MibId → Bool) → Prop} :
    Triple (fun w => Q w.stale) (sendKey code m) (fun _ w => Q w.stale) fun _ _ => True :=
  fun _ h => ⟨fun _ _ => h, fun _ _ => trivial⟩

theorem configure_known (earlier : Option Int) (a : Nat → Answer) :
    Triple (fun w => w.answers = a) (coreOnRcvryConfigure earlier) (fun _ w => Known a w.stale)
      fun _ _ => True := by
  have key (idx : Nat) : Triple (fun w => Known a w.stale) (coreSetUmiKey idx)
      (fun _ w => Known a w.stale) fun _ _ => True :=
    .read_bind fun c => sendKey_stale.mono (fun _ h => h.1) (fun _ _ h => h) fun _ _ h => h
  have igtk (idx : Nat) : Triple (fun w => Known a w.stale) (coreSetUmiKeyIgtk idx)
      (fun _ w => Known a w.stale) fun _ _ => True :=
    .read_bind fun c => .ite
      (fun _ => sendKey_stale.mono (fun _ h => h.1) (fun _ _ h => h) fun _ _ h => h)
      fun _ => .pure fun _ h => h.1
  refine .bind (Q := fun _ w => w.answers = a) ?_ fun _ => .bind (mibSetSecurity_known a) fun _ =>
    .bind (key 0) fun _ => .bind (key 1) fun _ => .bind (key 2) fun _ => .bind (key 3) fun _ =>
    .bind (igtk _) fun _ => igtk _
  cases earlier with
  | none => exact .pure fun _ h => h
  | some e => exact .stop fun _ _ => trivial

/-- A VAP and a firmware that have nothing set yet. -/
def someCore : Core where
  isAp := true
  rsnie := 0
  defaultKey := 0
  wepEnabled := 0
  wepKeys _ := ⟨0, fun _ => 0⟩
  peerApsKeyIdx := 0
  wpsInProgress := false
  authentication := 0
  rsnEnabled := 0
  groupCipher := .none
  groupRsc _ _ := 0
  igtkCipher := .none
  igtkKeyLen := 0
  igtkKey _ _ := 0

/-- The second message fails, though the firmware does what it asks. -/
def someWorld : World where
  core := someCore
  fw := ⟨0, fun _ => ⟨0, fun _ => 0⟩, 0, false, 0, []⟩
  stas _ := none
  answers n := if n = 1 then .failed (-7) true else .confirmed 0
  stale _ := false

theorem sound_someWorld : Sound someCore someWorld where
  core := ⟨by decide, by decide, fun _ => Nat.zero_le _, by decide, fun _ _ => rfl, fun _ _ => rfl,
    fun _ _ => rfl⟩
  fw := ⟨by decide, fun m mem => by cases mem⟩
  synced i _ := by
    right
    cases i
    case wepDefaultKeys => exact fun _ _ => rfl
    all_goals rfl
  served a s found := by cases found

def ready : Situation := ⟨true, false, false, false, true⟩

/-- A key for the first index, and shared authentication. -/
def someKey : IwEncode := ⟨false, false, true, 1, 5, fun _ => 7⟩

/-- A key is set, of which a message fails; the firmware crashes. -/
def crashed : List Event :=
  [.setenc ready someKey, .crash ⟨3, fun _ => ⟨13, fun _ => 1⟩, 1, true, 1, []⟩]

/-- After any requests, failures, crashes and recoveries: a MIB that is not stale has in the
firmware what is stored; the keys sent have indices of the firmware; the arrays of keys were written
where they have entries; and no station is left without packets. A firmware that is configured
without an error has what is stored, but for the keys if their message failed. -/
theorem firmware_has_what_is_stored {w₀ : World} (sound : Sound base w₀)
    (run : Runs World.step Event.Allowed w₀ w) :
    (∀ i, w.stale i = true ∨ Agrees w.core w.fw i) ∧
    (∀ m ∈ w.fw.keys, m.Fits) ∧
    (∀ i, mibWepNDefaultKeys ≤ i →
      w.core.wepKeys i = base.wepKeys i ∧ w.core.groupRsc i = base.groupRsc i) ∧
    (∀ i, 2 ≤ i → w.core.igtkKey i = base.igtkKey i) ∧
    (∀ addr s, w.stas addr = some s → s.filter ≠ .discardAll) ∧
    ∀ earlier, (coreOnRcvryConfigure earlier w).1 = .ok () →
      ∀ i, Agrees (w.step (.configure earlier)).core (w.step (.configure earlier)).fw i ∨
        i = .wepDefaultKeys ∧ w.answers 1 ≠ .confirmed 0 := by
  have kept : Sound base w :=
    run.invariant sound fun _ e sound allowed => sound_step sound e allowed
  refine ⟨fun i => kept.synced i (by simp), kept.fw.keys,
    fun i behind => ⟨kept.core.wepBehind i behind, kept.core.rscBehind i behind⟩,
    kept.core.igtkBehind, fun addr s found => kept.served addr s found (by simp),
    fun earlier ok i => ?_⟩
  have configured : Sound base (w.step (.configure earlier)) := sound_step kept _ trivial
  obtain stale | agrees := configured.synced i (by simp)
  · have known := ((configure_known earlier w.answers w rfl).1 () ok i).1 stale
    exact .inr known
  · exact .inl agrees

/-- After the key is set and the crash, the firmware gets everything again. -/
theorem firmware_has_what_is_stored_crashed :
    let w := crashed.foldl World.step someWorld
    w.core.wepKeys 0 ≠ someCore.wepKeys 0 ∧ w.fw.wepDefaultKeyid ≠ w.core.defaultKey ∧
      ∀ i, Agrees (w.step (.configure none)).core (w.step (.configure none)).fw i := by
  intro w
  have claim := firmware_has_what_is_stored sound_someWorld
    (Runs.of_allowed (l := crashed) ⟨trivial, ⟨by decide, rfl⟩, trivial⟩)
  have changed : (w.core.wepKeys 0).keyLength ≠ (someCore.wepKeys 0).keyLength := by decide
  refine ⟨fun same => changed (congrArg _ same), by decide, fun i => ?_⟩
  obtain agrees | ⟨-, failed⟩ := claim.2.2.2.2.2 none rfl i
  · exact agrees
  · exact absurd rfl failed

end Wave300.Security
