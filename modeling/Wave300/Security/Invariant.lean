import Mathlib.Tactic.Common
import Wave300.Lib.Trace
import Wave300.Security.Recovery

/-!
# What is stored and what the firmware has

What the core stores of the security of a VAP is a copy of what the firmware has, as long as
messages are confirmed; where one was not, the MIB is stale. A handler sets the MIB first and stores
it then, so that between the two one MIB is pending.
-/

namespace Wave300.Security

open L2nat (Mac)
open Lib (Routine Runs)
open Lib.Routine (Triple Keeps)

/-- A key that a message sets has an index of the firmware and bytes that the message has room
for. -/
def UmiSetKey.Fits (m : UmiSetKey) : Prop :=
  (m.defaultKeyIndex < mibWepNDefaultKeys ∨
    m.cipherSuite = .igtk ∧ m.defaultKeyIndex < umiRsnIgtkGmKeyIndex) ∧
    ∀ i, umiRsnTkLen ≤ i → m.tk i = 0

/-- The firmware has in a MIB what the core stores. -/
def Agrees (c : Core) (fw : Firmware) : MibId → Prop
  | .wepDefaultKeyid => fw.wepDefaultKeyid = c.defaultKey
  | .wepDefaultKeys => ∀ i < mibWepNDefaultKeys, fw.wepDefaultKeys i = c.wepKeys i
  | .authenticationPreference => fw.authenticationPreference = c.authentication
  | .rsnControl => fw.rsnControl = decide (c.rsnEnabled ≠ 0)
  | .privacyInvoked => fw.privacyInvoked = c.wepEnabled

/-- The indices and the lengths that the core stores, and what is behind the arrays. -/
structure CoreFits (base c : Core) : Prop where
  defaultKey : c.defaultKey < mibWepNDefaultKeys
  peer : c.peerApsKeyIdx ≤ mibWepNDefaultKeys
  lengths : ∀ i, (c.wepKeys i).keyLength ≤ mibWepKeyWep2Length
  igtk : c.igtkKeyLen ≤ umiRsnTkLen
  wepBehind : ∀ i, mibWepNDefaultKeys ≤ i → c.wepKeys i = base.wepKeys i
  rscBehind : ∀ i, mibWepNDefaultKeys ≤ i → c.groupRsc i = base.groupRsc i
  igtkBehind : ∀ i, 2 ≤ i → c.igtkKey i = base.igtkKey i

structure FirmwareFits (fw : Firmware) : Prop where
  keyid : fw.wepDefaultKeyid < mibWepNDefaultKeys
  keys : ∀ m ∈ fw.keys, m.Fits

/-- A station discards all packets only while its key is set. -/
def Served (w : World) (but : Option Mac) : Prop :=
  ∀ addr s, w.stas addr = some s → some addr ≠ but → s.filter ≠ .discardAll

/-- What holds while a MIB is known to the firmware and not yet stored, and a key is being set. -/
structure Pending (base : Core) (mib : Option MibId) (sta : Option Mac) (w : World) : Prop where
  core : CoreFits base w.core
  fw : FirmwareFits w.fw
  synced : ∀ i, some i ≠ mib → w.stale i = true ∨ Agrees w.core w.fw i
  served : Served w sta

abbrev Sound (base : Core) : World → Prop := Pending base none none

variable {base c c' : Core} {fw : Firmware} {w : World} {v : MibValue} {m : UmiSetKey}
  {mib : Option MibId} {sta : Option Mac} {f : Core → Core}

/-- A MIB is set to it. -/
def MibValue.In (fw : Firmware) : MibValue → Prop
  | .wepDefaultKeyid idx => fw.wepDefaultKeyid = idx
  | .wepDefaultKeys keys => fw.wepDefaultKeys = keys
  | .authenticationPreference policy => fw.authenticationPreference = policy
  | .rsnControl enabled => fw.rsnControl = enabled
  | .privacyInvoked enabled => fw.privacyInvoked = enabled

def MibValue.Fits : MibValue → Prop
  | .wepDefaultKeyid idx => idx < mibWepNDefaultKeys
  | _ => True

/-- What a MIB is set to is what the core stores. -/
def MibValue.Of (c : Core) : MibValue → Prop
  | .wepDefaultKeyid idx => idx = c.defaultKey
  | .wepDefaultKeys keys => keys = c.wepKeys
  | .authenticationPreference policy => policy = c.authentication
  | .rsnControl enabled => enabled = decide (c.rsnEnabled ≠ 0)
  | .privacyInvoked enabled => enabled = c.wepEnabled

theorem Firmware.put_in (fw : Firmware) (v : MibValue) : v.In (fw.put v) := by
  cases v <;> rfl

theorem MibValue.Of.agrees (h : v.Of c) (set : v.In fw) : Agrees c fw v.id := by
  cases v with
  | wepDefaultKeys keys =>
    intro i _
    rw [show fw.wepDefaultKeys = keys from set, show keys = c.wepKeys from h]
  | wepDefaultKeyid | authenticationPreference | rsnControl | privacyInvoked => exact set.trans h

theorem agrees_put {i : MibId} (other : i ≠ v.id) : Agrees c (fw.put v) i ↔ Agrees c fw i := by
  cases v <;> cases i <;> first | exact Iff.rfl | exact absurd rfl other

theorem FirmwareFits.put (h : FirmwareFits fw) (fits : v.Fits) : FirmwareFits (fw.put v) := by
  cases v with
  | wepDefaultKeyid idx => exact ⟨fits, h.keys⟩
  | wepDefaultKeys | authenticationPreference | rsnControl | privacyInvoked =>
    exact ⟨h.keyid, h.keys⟩

/-- A message that sets a MIB leaves it set, or else stale. -/
theorem Pending.setMib (h : Sound base w) (fits : v.Fits) (a : Answer) :
    Pending base (some v.id) none (w.setMib v a) where
  core := h.core
  fw := by
    show FirmwareFits (if a.did then w.fw.put v else w.fw)
    split
    · exact h.fw.put fits
    · exact h.fw
  synced i ne := by
    have other : i ≠ v.id := fun same => ne (congrArg some same)
    show Function.update w.stale v.id _ i = true ∨
      Agrees w.core (if a.did then w.fw.put v else w.fw) i
    rw [Function.update_of_ne other]
    obtain stale | agrees := h.synced i (by simp)
    · exact .inl stale
    · right
      split
      · exact (agrees_put other).2 agrees
      · exact agrees
  served := h.served

/-- The MIB that was set is stored. -/
theorem Pending.settled (h : Pending base (some v.id) sta w)
    (set : w.stale v.id = true ∨ Agrees w.core w.fw v.id) : Pending base none sta w where
  core := h.core
  fw := h.fw
  synced i _ := by
    by_cases same : i = v.id
    · rw [same]
      exact set
    · exact h.synced i (by simpa using same)
  served := h.served

theorem setMibValue_ok (v : MibValue) (w : World) :
    (setMibValue v w).1 = .ok () ↔ w.answers 0 = .confirmed 0 := by
  unfold setMibValue
  dsimp only
  split <;> simp_all

theorem setMibValue_spec (fits : v.Fits) :
    Triple (fun w => Sound base w ∧ w.core = c) (setMibValue v)
      (fun _ w => (Pending base (some v.id) none w ∧ v.In w.fw) ∧ w.core = c)
      fun _ w => (Sound base w ∧ w.stale v.id = true) ∧ w.core = c := by
  rintro w ⟨sound, core⟩
  have pending := sound.setMib fits (w.answers 0)
  refine ⟨fun _ ok => ⟨⟨pending, ?_⟩, core⟩, fun _ error => ?_⟩
  · have confirmed := (setMibValue_ok v w).1 ok
    show v.In (if (w.answers 0).did then w.fw.put v else w.fw)
    rw [confirmed, if_pos (by rfl)]
    exact w.fw.put_in v
  · have stale : (w.setMib v (w.answers 0)).stale v.id = true := by
      show Function.update w.stale v.id _ v.id = true
      rw [Function.update_self, decide_eq_true_eq]
      intro confirmed
      rw [(setMibValue_ok v w).2 confirmed] at error
      cases error
    exact ⟨⟨pending.settled (.inl stale), stale⟩, core⟩

/-- What is to be said of a change to what is stored, once the firmware has a MIB of it. -/
structure Stores (base : Core) (v : MibValue) (c c' : Core) : Prop where
  fits : CoreFits base c → CoreFits base c'
  stored : v.Of c'
  others : ∀ fw i, i ≠ v.id → (Agrees c' fw i ↔ Agrees c fw i)

theorem Pending.store (h : Pending base (some v.id) sta w) (set : v.In w.fw)
    (stores : Stores base v w.core c') : Pending base none sta { w with core := c' } where
  core := stores.fits h.core
  fw := h.fw
  synced i _ := by
    by_cases same : i = v.id
    · subst same
      exact .inr (stores.stored.agrees set)
    · exact (h.synced i (by simpa using same)).imp_right (stores.others w.fw i same).2
  served := h.served

/-- A MIB is set, and what it is set to is stored. -/
theorem store_spec (fits : v.Fits) (stores : Stores base v c (f c)) :
    Triple (fun w => Sound base w ∧ w.core = c) (do setMibValue v; setCore f)
      (fun _ => Sound base) fun _ => Sound base := by
  refine .bind ((setMibValue_spec fits).mono (fun _ h => h) (fun _ _ h => h) fun _ _ h => h.1.1)
    fun _ => .write ?_
  rintro w ⟨⟨pending, set⟩, rfl⟩
  exact pending.store set stores

theorem keeps_store (fits : v.Fits) (stores : ∀ c, Stores base v c (f c)) :
    Keeps (Sound base) (do setMibValue v; setCore f) :=
  fun w sound => store_spec fits (stores w.core) w ⟨sound, rfl⟩

/-- What is stored changes in what no MIB has. -/
structure Beside (base c c' : Core) : Prop where
  fits : CoreFits base c → CoreFits base c'
  agrees : ∀ fw i, Agrees c' fw i ↔ Agrees c fw i

theorem Pending.beside (h : Pending base mib sta w) (beside : Beside base w.core c') :
    Pending base mib sta { w with core := c' } where
  core := beside.fits h.core
  fw := h.fw
  synced i ne := (h.synced i ne).imp_right (beside.agrees w.fw i).2
  served := h.served

theorem keeps_setCore (beside : ∀ c, Beside base c (f c)) : Keeps (Sound base) (setCore f) :=
  .write fun _ sound => sound.beside (beside _)

theorem Pending.setKey (h : Pending base mib sta w) (fits : m.Fits) (a : Answer) :
    Pending base mib sta (w.setKey m a) where
  core := h.core
  fw := by
    refine ⟨h.fw.keyid, fun k mem => ?_⟩
    simp only [World.setKey] at mem
    split at mem
    · rw [List.mem_append, List.mem_singleton] at mem
      obtain old | rfl := mem
      · exact h.fw.keys k old
      · exact fits
    · exact h.fw.keys k mem
  synced := h.synced
  served := h.served

theorem keeps_sendKey {code : Nat → Int} (fits : m.Fits) :
    Keeps (Pending base mib sta) (sendKey code m) :=
  fun _ h => ⟨fun _ _ => h.setKey fits _, fun _ _ => h.setKey fits _⟩

end Wave300.Security
