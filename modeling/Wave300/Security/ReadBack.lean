import Wave300.Security.Replica

/-!
# A WEP key is read back

The key that a user sets with an index is what a query with that index returns, whatever comes
between that sets no key with the same index.
-/

namespace Wave300.Security

open L2nat (Mac)
open Lib (Routine Runs)
open Lib.Routine (Triple Keeps)

variable {Q : Core → Prop} {f : Core → Core} {w : World} {st st' : Situation} {m : UmiSetKey}
  {sta : Option Mac} {addr : Mac} {idx : Nat}

/-- What is kept is left by what succeeds. -/
theorem keeps_ok {α : Type} {P : World → Prop} {x : Request α} (keeps : Keeps P x) :
    Triple P x (fun _ => P) fun _ _ => True :=
  keeps.mono (fun _ h => h) (fun _ _ h => h) fun _ _ _ => trivial

section Frame
/-! What is said of the core alone stays true when messages are sent. -/

theorem setMibValue_core (v : MibValue) : Keeps (fun w => Q w.core) (setMibValue v) :=
  fun _ h => ⟨fun _ _ => h, fun _ _ => h⟩

theorem getMibValue_core (value : Firmware → Nat) : Keeps (fun w => Q w.core) (getMibValue value) :=
  fun _ h => ⟨fun _ _ => h, fun _ _ => h⟩

theorem sendKey_core {code : Nat → Int} : Keeps (fun w => Q w.core) (sendKey code m) :=
  fun _ h => ⟨fun _ _ => h, fun _ _ => h⟩

theorem setCore_core (keep : ∀ c, Q c → Q (f c)) : Keeps (fun w => Q w.core) (setCore f) :=
  .write fun w => keep w.core

theorem updateSta_core (g : Sta → Sta) :
    Keeps (fun w => Q w.core) (Routine.write (updateSta addr g) : Request Unit) :=
  .write fun _ h => h

theorem read_core {α β : Type} {value : World → α} {k : α → Request β}
    (rest : ∀ a, Keeps (fun w => Q w.core) (k a)) :
    Keeps (fun w => Q w.core) (Routine.read value >>= k) :=
  .bind (Q := fun _ w => Q w.core) (.read fun _ h => h) rest

theorem setWepKeyBlocked_core : Keeps (fun w => Q w.core) (setWepKeyBlocked addr idx) :=
  read_core fun _ => sendKey_core

theorem whileDiscarding_core {code : Nat → Int} :
    Keeps (fun w => Q w.core) (whileDiscarding sta (sendKey code m)) := by
  cases sta with
  | none => exact sendKey_core
  | some addr =>
    have wait : Keeps (fun w => Q w.core) waitAllPacketsConfirmed :=
      fun _ h => ⟨fun _ _ => h, fun _ _ => h⟩
    exact read_core fun _ => .bind (updateSta_core _) fun _ =>
      .always (.bind wait fun _ => sendKey_core) (fun _ _ h => h) fun _ _ h => h

theorem keyLoop_core {cfg : EncextCfg} {rounds : Nat} :
    Keeps (fun w => Q w.core) (keyLoop cfg sta rounds m) := by
  induction rounds generalizing m with
  | zero => exact keeps_pure _
  | succ rounds ih =>
    refine .bind (.bind whileDiscarding_core fun _ => read_core fun c =>
      .ite (fun _ => keeps_pure _) fun _ => keeps_pure _) fun again => ?_
    cases again with
    | none => exact keeps_pure _
    | some m' => exact ih

/-- The loop that sets a key ends in its second round at the latest. -/
theorem keyLoop_ends (cfg : EncextCfg) :
    Triple (fun _ => True) (keyLoop cfg sta 2 m) (fun left _ => left = none) fun _ _ => True := by
  have sent (m : UmiSetKey) (idx : Nat) :
      Triple (fun w => w.core.defaultKey = idx) (whileDiscarding sta (sendKey encExtCode m))
        (fun _ w => w.core.defaultKey = idx) fun _ _ => True :=
    keeps_ok (whileDiscarding_core (Q := (·.defaultKey = idx)))
  -- what is left after a round is the message for the default key
  have first (m : UmiSetKey) : Triple (fun _ => True) (keyRound cfg sta m)
      (fun again w => ∀ m', again = some m' → w.core.defaultKey = m'.defaultKeyIndex)
      fun _ _ => True := by
    intro w _
    have round : Triple (fun w' => w'.core.defaultKey = w.core.defaultKey) (keyRound cfg sta m)
        (fun again w => ∀ m', again = some m' → w.core.defaultKey = m'.defaultKeyIndex)
        fun _ _ => True := by
      refine .bind (sent m w.core.defaultKey) fun _ => .read_bind fun c =>
        .ite (fun _ => .pure fun w' h m' same => ?_) fun _ => .pure fun w' _ m' same => ?_
      · cases same
        exact congrArg Core.defaultKey h.2
      · cases same
    exact round w rfl
  have second (m : UmiSetKey) : Triple (fun w => w.core.defaultKey = m.defaultKeyIndex)
      (keyRound cfg sta m) (fun again _ => again = none) fun _ _ => True := by
    refine .bind (sent m m.defaultKeyIndex) fun _ => .read_bind fun c => .ite (fun other => ?_)
      fun _ => .pure fun _ _ => rfl
    exact .pure fun w h => absurd (h.1.symm.trans (congrArg Core.defaultKey h.2)) other.2
  refine .bind (first m) fun again => ?_
  cases again with
  | none => exact .pure fun _ _ => rfl
  | some m' =>
    refine .bind (Q := fun again _ => again = none) ?_ fun again => ?_
    · exact (second m').mono (fun w h => h m' rfl) (fun _ _ h => h) fun _ _ h => h
    cases again with
    | none => exact .pure fun _ _ => rfl
    | some m'' => exact fun _ more => by cases more

end Frame

/-- The WEP keys of an index are not those of another. -/
abbrev KeyIs (idx : Nat) (key : WepKey) (c : Core) : Prop := c.wepKeys idx = key

variable {key : WepKey}

theorem setDefaultKey_key (i : Nat) : Keeps (fun w => KeyIs idx key w.core) (setDefaultKey i) :=
  .bind (setMibValue_core _) fun _ => setCore_core fun _ h => h

theorem setAuthentication_key (policy : Nat) :
    Keeps (fun w => KeyIs idx key w.core) (setAuthentication policy) :=
  .bind (setMibValue_core _) fun _ => setCore_core fun _ h => h

theorem setRsnEnabled_key (rsnEnabled : Nat) :
    Keeps (fun w => KeyIs idx key w.core) (setRsnEnabled rsnEnabled) :=
  .bind (setMibValue_core _) fun _ => setCore_core fun _ h => h

theorem setWep_key (wepEnabled : Nat) :
    Keeps (fun w => KeyIs idx key w.core) (setWep st wepEnabled) :=
  read_core fun _ => .ite (fun _ => keeps_pure _) fun _ => .ite (fun _ => .stop fun _ h => h)
    fun _ => .bind (setMibValue_core _) fun _ => setCore_core fun _ h => h

theorem storeKey_other {i : Nat} {new : WepKey} (other : i ≠ idx) :
    Keeps (fun w => KeyIs idx key w.core) (storeKey i new) :=
  read_core fun _ => .bind (setMibValue_core _) fun _ =>
    setCore_core fun _ h => (Function.update_of_ne other.symm ..).trans h

/-- A request is for the key of an index; one that has no index is for that of the default key, as
the firmware has it. -/
def Event.SetsKey (idx : Nat) (w : World) : Event → Prop
  | .setenc _ p =>
    p.length ≠ 0 ∧ (if p.index = 0 then w.fw.wepDefaultKeyid else p.index - 1) = idx
  | .setencext _ p => p.alg = some .wep ∧ p.index - 1 = idx
  | _ => False

theorem setWepEncCfg_rest (cfg : EncCfg) :
    Keeps (fun w => KeyIs idx key w.core) (do
      filled cfg.authentication setAuthentication
      filled cfg.wepEnabled (setWep st)
      let defaultKey ← Routine.read (·.core.defaultKey)
      setWepKeyBlocked broadcast defaultKey) :=
  .bind (keeps_filled fun _ _ => setAuthentication_key _) fun _ =>
    .bind (keeps_filled fun _ _ => setWep_key _) fun _ => read_core fun _ => setWepKeyBlocked_core

/-- The index of a request is another one. -/
abbrev Other (idx : Nat) (cfg : EncCfg) (w : World) : Prop :=
  cfg.keyId.getD w.fw.wepDefaultKeyid ≠ idx

theorem keyIndex_other (cfg : EncCfg) :
    Triple (fun w => Other idx cfg w ∧ KeyIs idx key w.core) (keyIndex cfg)
      (fun i w => i ≠ idx ∧ KeyIs idx key w.core) fun _ w => KeyIs idx key w.core := by
  unfold keyIndex Other
  cases cfg.keyId with
  | some i => exact .pure fun _ h => h
  | none =>
    rintro w ⟨ne, same⟩
    refine ⟨fun i ok => ⟨?_, same⟩, fun _ _ => same⟩
    unfold getMibValue at ok
    dsimp only at ok
    split at ok
    case h_3 =>
      cases ok
      exact ne
    all_goals cases ok

theorem setWepEncCfg_other {cfg : EncCfg} :
    Triple (fun w => (cfg.key.keyLength ≠ 0 → Other idx cfg w) ∧ KeyIs idx key w.core)
      (setWepEncCfg st cfg) (fun _ w => KeyIs idx key w.core) fun _ w => KeyIs idx key w.core := by
  have admitted := keeps_checkReady (st.up && !st.scanning)
    (P := fun w => (cfg.key.keyLength ≠ 0 → Other idx cfg w) ∧ KeyIs idx key w.core)
  refine .bind (admitted.mono (fun _ h => h) (fun _ _ h => h) fun _ _ h => h.2) fun _ =>
    .bind (.ite (fun _ => ?_) fun given => ?_) fun _ => setWepEncCfg_rest cfg
  · have default : Keeps (fun w => KeyIs idx key w.core) (filled cfg.keyId setDefaultKey) :=
      keeps_filled fun _ _ => setDefaultKey_key _
    exact default.mono (fun _ h => h.2) (fun _ _ h => h) fun _ _ h => h
  · refine .bind ((keyIndex_other cfg).mono (fun _ h => ⟨h.1 given, h.2⟩) (fun _ _ h => h)
      fun _ _ h => h) fun i => ?_
    rintro w ⟨ne, same⟩
    exact storeKey_other ne w same

theorem setEncExtCfg_other {cfg : EncextCfg} (some : cfg.algType ≠ .none)
    (other : cfg.algType = .wep → cfg.keyIdx ≠ idx) :
    Keeps (fun w => KeyIs idx key w.core) (setEncExtCfg st cfg) := by
  have init : Keeps (fun w => KeyIs idx key w.core) initMessage :=
    fun _ h => ⟨fun _ _ => h, fun _ _ => h⟩
  have group (c : Core) (same : KeyIs idx key c) : KeyIs idx key (recordGroup cfg c) := by
    unfold recordGroup
    split <;> exact same
  refine .bind (keeps_checkReady _) fun _ => .bind init fun _ =>
    .bind (keeps_filled fun _ _ => setDefaultKey_key _) fun _ =>
    .bind (.read_bind fun c => .ite (fun wep => ?_) fun _ => .pure fun _ h => h.1) fun _ =>
    .bind (keeps_onlyIf fun _ => setCore_core fun _ h => h) fun _ =>
    .bind (setWep_key _) fun _ => .ite (fun _ => ?_) fun _ => read_core fun _ =>
    keeps_onlyIf fun _ => .bind (updateSta_core _) fun _ => .bind keyLoop_core fun _ =>
    keeps_onlyIf fun _ => updateSta_core _
  · obtain wep | ⟨none, -⟩ := wep
    · rintro w ⟨same, rfl⟩
      have sent : Keeps (fun w => KeyIs idx key w.core) (do
          setMibValue (.wepDefaultKeys (encExtKeys w.core.wepKeys cfg))
          setCore ({ · with wepKeys := encExtKeys w.core.wepKeys cfg })) :=
        .bind (setMibValue_core _) fun _ => setCore_core fun _ _ =>
          (Function.update_of_ne (other wep).symm ..).trans same
      exact sent w same
    · exact absurd none some
  · exact .bind (setCore_core group) fun _ => .bind keyLoop_core fun _ => keeps_pure _

theorem ioctlSetenc_other {p : IwEncode} :
    Triple (fun w => ¬ Event.SetsKey idx w (.setenc st p) ∧ KeyIs idx key w.core) (ioctlSetenc st p)
      (fun _ w => KeyIs idx key w.core) fun _ w => KeyIs idx key w.core := by
  unfold ioctlSetenc IwEncode.encCfg
  by_cases index : mibWepNDefaultKeys < p.index
  · rw [if_pos index]
    exact .stop fun _ h => h.2
  by_cases bad : p.length ≠ 0 ∧ ¬ validateWepKey p.extra p.length
  · rw [if_neg index, if_pos bad]
    exact .stop fun _ h => h.2
  rw [if_neg index, if_neg bad]
  refine setWepEncCfg_other.mono ?_ (fun _ _ h => h) fun _ _ h => h
  rintro w ⟨other, same⟩
  refine ⟨fun given set => other ⟨given, ?_⟩, same⟩
  dsimp only at set
  split at set
  case isTrue none => exact (if_pos none).trans set
  case isFalse some => exact (if_neg some).trans set

theorem ioctlSetencext_other {p : IwEncodeExt} (other : ¬ (p.alg = some .wep ∧ p.index - 1 = idx)) :
    Keeps (fun w => KeyIs idx key w.core) (ioctlSetencext st p) := by
  unfold ioctlSetencext
  split
  case h_1 => exact .stop fun _ h => h
  case h_2 => exact keeps_pure ()
  case h_3 alg some chosen =>
    refine .ite (fun _ => .stop fun _ h => h) fun index => ?_
    split
    case h_1 => exact .stop fun _ h => h
    case h_2 addr given =>
      refine .ite (fun _ => .stop fun _ h => h) fun _ =>
        setEncExtCfg_other (fun none => some (none ▸ rfl)) fun wep same => ?_
      split at chosen
      · exact some (Option.some.inj chosen).symm
      · exact other ⟨chosen.trans (congrArg _ wep), same⟩

theorem resetSecurityStuff_key :
    Keeps (fun w => KeyIs idx key w.core) (resetSecurityStuff st) := by
  have clear : Keeps (fun w => KeyIs idx key w.core) clearGroupKey :=
    fun _ h => ⟨fun _ _ => h, fun _ _ => h⟩
  exact .bind (setCore_core fun _ h => h) fun _ => read_core fun _ =>
    .bind (keeps_onlyIf fun _ => clear) fun _ =>
    .bind (.bind (keeps_ignored (setMibValue_core _)) fun _ => setCore_core fun _ h => h) fun _ =>
    read_core fun _ => .bind (keeps_onlyIf fun _ => .bind (keeps_ignored (setWep_key _)) fun _ =>
      setCore_core fun _ h => h) fun _ =>
    .bind (Q := fun _ w => KeyIs idx key w.core) (.write fun _ h => h) fun _ =>
    setCore_core fun _ h => h

theorem configure_key (earlier : Option Int) :
    Keeps (fun w => KeyIs idx key w.core) (coreOnRcvryConfigure earlier) := by
  have umi (i : Nat) : Keeps (fun w => KeyIs idx key w.core) (coreSetUmiKey i) :=
    read_core fun _ => sendKey_core
  have igtk (i : Nat) : Keeps (fun w => KeyIs idx key w.core) (coreSetUmiKeyIgtk i) :=
    read_core fun _ => keeps_onlyIf fun _ => sendKey_core
  have security : Keeps (fun w => KeyIs idx key w.core) mibSetSecurity :=
    read_core fun _ => .bind (setMibValue_core _) fun _ =>
      .bind (keeps_ignored (setMibValue_core _)) fun _ => .bind (setMibValue_core _) fun _ =>
      .bind (setMibValue_core _) fun _ => setMibValue_core _
  exact .bind (keeps_filled fun _ _ => .stop fun _ h => h) fun _ => .bind security fun _ =>
    .bind (umi 0) fun _ => .bind (umi 1) fun _ => .bind (umi 2) fun _ => .bind (umi 3) fun _ =>
    .bind (igtk _) fun _ => igtk _

theorem getAuthentication_core (c : Core) : Keeps (fun w => Q w.core) (getAuthentication c) :=
  .ite (fun _ => keeps_pure 0) fun _ => getMibValue_core _

theorem ioctlGetenc_core (index : Nat) : Keeps (fun w => Q w.core) (ioctlGetenc st index) :=
  .bind (.bind (keeps_checkReady _) fun _ => read_core fun _ =>
    .bind (getAuthentication_core _) fun _ => keeps_pure _) fun _ =>
    .ite (fun _ => .stop fun _ h => h) fun _ => keeps_pure _

theorem connectSta_key (peerAp : Bool) :
    Keeps (fun w => KeyIs idx key w.core) (connectSta addr peerAp) := by
  have wepKey (i : Nat) : Keeps (fun w => KeyIs idx key w.core) (giveWepKey addr i) :=
    .bind (updateSta_core _) fun _ => keeps_ignored setWepKeyBlocked_core
  exact .bind (Q := fun _ w => KeyIs idx key w.core) (.write fun _ h => h) fun _ =>
    read_core fun _ => .bind (keeps_filled fun _ _ => wepKey _) fun _ => updateSta_core _

theorem setAuthCfg_key (cfg : AuthCfg) :
    Keeps (fun w => KeyIs idx key w.core) (setAuthCfg st cfg) :=
  .bind (keeps_checkReady _) fun _ => .bind (keeps_filled fun _ _ => setRsnEnabled_key _) fun _ =>
    .bind (keeps_filled fun _ _ => setWep_key _) fun _ =>
    keeps_filled fun _ _ => setAuthentication_key _

theorem setGenieCfg_key (cfg : GenieCfg) :
    Keeps (fun w => KeyIs idx key w.core) (setGenieCfg st cfg) :=
  .bind (keeps_checkReady _) fun _ => .bind (keeps_filled fun _ _ => setCore_core fun _ h => h)
    fun _ => .bind (keeps_onlyIf fun _ => setCore_core fun _ h => h) fun _ =>
    .bind (keeps_filled fun _ _ => setCore_core fun _ h => h) fun _ =>
    .bind (keeps_filled fun _ _ => .stop fun _ h => h) fun _ =>
    keeps_filled fun _ _ => setRsnEnabled_key _

theorem step_other (e : Event) (other : ¬ e.SetsKey idx w) (same : KeyIs idx key w.core) :
    KeyIs idx key (w.step e).core := by
  cases e with
  | setenc st p => exact ioctlSetenc_other.run ⟨other, same⟩
  | setencext st p => exact (ioctlSetencext_other other).run same
  | setauth st cfg => exact (setAuthCfg_key cfg).run same
  | setgenie st cfg => exact (setGenieCfg_key cfg).run same
  | getenc st index => exact (ioctlGetenc_core index).run same
  | connect addr peerAp => exact (connectSta_key peerAp).run same
  | reset st => exact resetSecurityStuff_key.run same
  | configure earlier => exact (configure_key earlier).run same
  | disconnect | peerApKeyIdx | crash => exact same

/-- The bytes of a key are those of another, as far as the key goes. -/
def WepKey.Copies (key new : WepKey) : Prop :=
  key.keyLength = new.keyLength ∧ ∀ i < new.keyLength, key.keyData i = new.keyData i

theorem storeKey_stores (idx : Nat) (new : WepKey) :
    Triple (fun _ => True) (storeKey idx new) (fun _ w => (w.core.wepKeys idx).Copies new)
      fun _ _ => True := by
  refine .read_bind fun keys => .bind (Q := fun _ _ => True) (fun _ _ => ⟨?_, ?_⟩) fun _ =>
    .write fun w _ => ?_
  · exact fun _ _ => trivial
  · exact fun _ _ => trivial
  · have stored : Function.update w.core.wepKeys idx (withKey keys idx new idx) idx =
        ⟨new.keyLength, copy new.keyLength new.keyData (keys idx).keyData⟩ := by
      rw [Function.update_self, withKey, Function.update_self]
    show WepKey.Copies (Function.update w.core.wepKeys idx (withKey keys idx new idx) idx) new
    rw [stored]
    exact ⟨rfl, fun i lt => if_pos lt⟩

theorem setWepEncCfg_stores {cfg : EncCfg} (keyId : cfg.keyId = some idx)
    (given : cfg.key.keyLength ≠ 0) :
    Triple (fun _ => True) (setWepEncCfg st cfg)
      (fun _ w => (w.core.wepKeys idx).Copies cfg.key) fun _ _ => True := by
  have admitted : Triple (fun _ => True) (checkReady (st.up && !st.scanning)) (fun _ _ => True)
      fun _ _ => True := keeps_checkReady _
  refine .bind admitted fun _ => .bind (Q := fun _ w => (w.core.wepKeys idx).Copies cfg.key)
    (.ite (fun none => absurd none given) fun _ => ?_) fun _ => ?_
  · refine .bind (Q := fun i _ => i = idx) ?_ fun i => ?_
    · unfold keyIndex
      rw [keyId]
      exact .pure fun _ _ => rfl
    · rintro w rfl
      exact storeKey_stores _ _ w trivial
  · intro w copies
    refine ⟨fun u done => ?_, fun _ _ => trivial⟩
    have same : KeyIs idx (w.core.wepKeys idx) _ := (setWepEncCfg_rest cfg w rfl).1 u done
    dsimp only [KeyIs] at same ⊢
    rwa [same]

/-- A request with a key that succeeds has stored it. -/
theorem ioctlSetenc_stores {p : IwEncode} (index : p.index = idx + 1) (given : p.length ≠ 0)
    (ok : (ioctlSetenc st p w).1 = .ok ()) :
    ((ioctlSetenc st p w).2.core.wepKeys idx).keyLength = p.length ∧
      ∀ i < p.length, ((ioctlSetenc st p w).2.core.wepKeys idx).keyData i = p.extra i := by
  unfold ioctlSetenc at ok ⊢
  cases made : p.encCfg with
  | error e =>
    rw [made] at ok
    cases ok
  | ok cfg =>
    rw [made] at ok
    have accepted : cfg.keyId = some idx ∧
        cfg.key = ⟨p.length, copy p.length p.extra fun _ => 0⟩ := by
      unfold IwEncode.encCfg at made
      split at made
      · cases made
      split at made
      · cases made
      · cases made
        exact ⟨by simp [index], rfl⟩
    obtain ⟨keyId, key⟩ := accepted
    have copies := (setWepEncCfg_stores keyId (key ▸ given) w trivial).1 () ok
    rw [key] at copies
    exact ⟨copies.1, fun i lt => (copies.2 i lt).trans (if_pos lt)⟩

/-- What a query with an index returns. -/
theorem ioctlGetenc_returns {r : Nat × Nat × (Nat → UInt8)}
    (read : (ioctlGetenc st (idx + 1) w).1 = .ok r) :
    r = (idx + 1, (w.core.wepKeys idx).keyLength, (w.core.wepKeys idx).keyData) := by
  have answered : Triple (fun w' => w'.core = w.core) (ioctlGetenc st (idx + 1))
      (fun r _ => r = (idx + 1, (w.core.wepKeys idx).keyLength, (w.core.wepKeys idx).keyData))
      fun _ _ => True := by
    have admitted : Triple (fun w' => w'.core = w.core) (checkReady (st.up && !st.scanning))
        (fun _ w' => w'.core = w.core) fun _ _ => True :=
      keeps_ok (keeps_checkReady _)
    refine .bind (Q := fun cfg _ => cfg.wepKeys = w.core.wepKeys) (.bind admitted fun _ =>
      .read_bind fun c => ?_) fun cfg => .ite (fun _ => .stop fun _ _ => trivial) fun _ => ?_
    · rintro w' ⟨same, rfl⟩
      have asked : Triple (fun w' => w'.core = w.core) (do
          let authentication ← getAuthentication w'.core
          pure (EncCfgRes.mk w'.core.wepEnabled authentication w'.core.defaultKey w'.core.wepKeys))
          (fun cfg _ => cfg.wepKeys = w.core.wepKeys) fun _ _ => True :=
        .bind (keeps_ok (getAuthentication_core (Q := (· = w.core)) w'.core)) fun _ =>
          .pure fun _ _ => by rw [same]
      exact asked w' same
    · refine .pure fun _ keys => ?_
      simp [keys]
  exact (answered w rfl).1 r read

/-- All messages are confirmed but the fifth. -/
def calmWorld : World :=
  { someWorld with answers := fun n => if n = 4 then .failed (-7) true else .confirmed 0 }

/-- A key of another index is set, of which a message fails; the firmware crashes, gets a key for
the default index that it has now, and is configured. -/
def otherKey : List Event :=
  [.setenc ready { someKey with index := 2 }, .crash ⟨3, fun _ => ⟨13, fun _ => 1⟩, 1, true, 1, []⟩,
    .setenc ready { someKey with index := 0, extra := fun _ => 9 }, .configure none]

/-- The WEP key that was set with an index is read back with it, after any requests that are for no
key of the same index, failures, resets, crashes and recoveries. -/
theorem wep_key_reads_back {p : IwEncode} {w₀ : World} {r : Nat × Nat × (Nat → UInt8)}
    (index : p.index = idx + 1) (given : p.length ≠ 0)
    (ok : (ioctlSetenc st p w₀).1 = .ok ())
    (run : Runs World.step (fun w e => ¬ e.SetsKey idx w) (ioctlSetenc st p w₀).2 w)
    (read : (ioctlGetenc st' (idx + 1) w).1 = .ok r) :
    r.1 = idx + 1 ∧ r.2.1 = p.length ∧ ∀ i < p.length, r.2.2 i = p.extra i := by
  obtain ⟨length, bytes⟩ := ioctlSetenc_stores index given ok
  let key := (ioctlSetenc st p w₀).2.core.wepKeys idx
  have same : KeyIs idx key w.core :=
    run.invariant (P := fun w => KeyIs idx key w.core) rfl fun _ e same other =>
      step_other e other same
  rw [ioctlGetenc_returns read, same]
  exact ⟨rfl, length, bytes⟩

theorem wep_key_reads_back_crashed :
    let w := otherKey.foldl World.step (ioctlSetenc ready someKey calmWorld).2
    (w.core.wepKeys 3).keyData 0 = 9 ∧
      ∃ r, (ioctlGetenc ready 1 w).1 = .ok r ∧ r.1 = 1 ∧ r.2.1 = 5 ∧ ∀ i < 5, r.2.2 i = 7 := by
  intro w
  have run : Runs World.step (fun w e => ¬ e.SetsKey 0 w)
      (ioctlSetenc ready someKey calmWorld).2 w :=
    .of_allowed (l := otherKey) ⟨by simp [Event.SetsKey, someKey], id,
      fun set => absurd (show (3 : Nat) = 0 from set.2) (by decide), id, trivial⟩
  have index : someKey.index = 0 + 1 := rfl
  obtain ⟨r, read⟩ : ∃ r, (ioctlGetenc ready 1 w).1 = .ok r := ⟨_, rfl⟩
  exact ⟨by decide, r, read, wep_key_reads_back index (by decide) rfl run read⟩

end Wave300.Security
