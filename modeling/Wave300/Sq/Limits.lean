import Wave300.Lib.Checked
import Wave300.Lib.Trace
import Wave300.Sq.Queue

/-!
# The limits of the send queue

The limits are stored in 16 bits and set from 32-bit arguments. The peer limit is a share of the
global limit: `sq_set_limits` works the share out again from what is stored, and
`sq_get_peer_limits` reports it.
-/

namespace Wave300.Sq

open Wave300.Lib Wave300.Lib.Checked

/-- A loop over the categories in which each writes an entry of its own. -/
def forAcs {ε α : Type} (f : Ac → Except ε α) : Except ε (Ac → α) := do
  let be ← f .be
  let bk ← f .bk
  let vi ← f .vi
  let vo ← f .vo
  pure fun
    | .be => be
    | .bk => bk
    | .vi => vi
    | .vo => vo

theorem forAcs_of_ok {ε α : Type} {f : Ac → Except ε α} {g : Ac → α} (h : ∀ ac, f ac = .ok (g ac)) :
    forAcs f = .ok g := by
  rw [forAcs, h, h, h, h]
  refine congrArg Except.ok (funext fun ac => ?_)
  cases ac <;> rfl

theorem forAcs_ok {ε α : Type} {f : Ac → Except ε α} {g : Ac → α} (h : forAcs f = .ok g) (ac : Ac) :
    f ac = .ok (g ac) := by
  obtain ⟨be, isBe, h⟩ := bind_ok h
  obtain ⟨bk, isBk, h⟩ := bind_ok h
  obtain ⟨vi, isVi, h⟩ := bind_ok h
  obtain ⟨vo, isVo, h⟩ := bind_ok h
  obtain rfl := Except.ok.inj h
  cases ac with
  | be => exact isBe
  | bk => exact isBk
  | vi => exact isVi
  | vo => exact isVo

/-- `mtlk_sq_limits_t`. -/
structure Limits where
  globalQueueLimit : Ac → UInt16
  peerQueueLimit : Ac → UInt16
  deriving DecidableEq

/-- What `sq_init` sets. -/
def Limits.init : Limits where
  globalQueueLimit
    | .be => 800
    | .bk => 50
    | .vi => 1100
    | .vo => 100
  peerQueueLimit
    | .be => 600
    | .bk => 38
    | .vi => 825
    | .vo => 75

inductive LimitsErr where
  | ok
  | params
  deriving DecidableEq, Repr

/-- `NTS_PRIORITIES`. -/
def ntsPriorities : Int32 := 4

def minPeerQueueSizeRatio : Int32 := 5

def maxPeerQueueSizeRatio : Int32 := 100

namespace Limits

/-- The share of a peer, in percent. -/
def ratio (l : Limits) (ac : Ac) : Except Fault Int := do
  let share ← mul 32 100 (l.peerQueueLimit ac).toNat
  div share (l.globalQueueLimit ac).toNat

/-- `sq_get_peer_limits`. Nobody asks for more than `NTS_PRIORITIES`. -/
def sqGetPeerLimits (l : Limits) (numToWrite : UInt8) : Except Fault (List Int) :=
  ([.be, .bk, .vi, .vo].take numToWrite.toNat).mapM l.ratio

/-- One turn of the loop of `sq_set_limits`: the limits that are stored. -/
def setLimit (l : Limits) (globalQueueLimit : Ac → Int32) (ac : Ac) :
    Except Fault (UInt16 × UInt16) := do
  let ratio ← l.ratio ac
  let share ← mul 32 ratio (globalQueueLimit ac).toInt
  let peer ← div share 100
  pure (.ofInt (globalQueueLimit ac).toInt, .ofInt peer)

def sqSetLimits (l : Limits) (globalQueueLimit : Ac → Int32) (num : Int32) :
    Except Fault (Limits × LimitsErr) :=
  if num ≠ ntsPriorities then .ok (l, .params)
  else if ∃ ac, globalQueueLimit ac ≤ 0 then .ok (l, .params)
  else do
    let stored ← forAcs (l.setLimit globalQueueLimit)
    pure (⟨fun ac => (stored ac).1, fun ac => (stored ac).2⟩, .ok)

/-- One turn of the loop of `sq_set_peer_limits`. -/
def setPeerLimit (l : Limits) (ratio : Ac → Int32) (ac : Ac) : Except Fault UInt16 := do
  let share ← mul 32 (ratio ac).toInt (l.globalQueueLimit ac).toNat
  let peer ← div share 100
  pure (.ofInt (max 1 peer))

def sqSetPeerLimits (l : Limits) (ratio : Ac → Int32) (num : Int32) :
    Except Fault (Limits × LimitsErr) :=
  if num ≠ ntsPriorities then .ok (l, .params)
  else if ∃ ac, ratio ac < minPeerQueueSizeRatio ∨ maxPeerQueueSizeRatio < ratio ac then
    .ok (l, .params)
  else do
    let stored ← forAcs (l.setPeerLimit ratio)
    pure ({ l with peerQueueLimit := stored }, .ok)

end Limits

inductive LimitsCall where
  | setLimits (globalQueueLimit : Ac → Int32) (num : Int32)
  | setPeerLimits (ratio : Ac → Int32) (num : Int32)
  | getPeerLimits (numToWrite : UInt8)

namespace Limits

def apply (l : Limits) : LimitsCall → Except Fault (Limits × LimitsErr)
  | .setLimits globalQueueLimit num => l.sqSetLimits globalQueueLimit num
  | .setPeerLimits ratio num => l.sqSetPeerLimits ratio num
  | .getPeerLimits numToWrite => do
    let _ ← l.sqGetPeerLimits numToWrite
    pure (l, .ok)

/-- The limits after a call that has a meaning. -/
def after (l : Limits) (c : LimitsCall) : Limits :=
  match l.apply c with
  | .ok (l', _) => l'
  | .error _ => l

/-- The limits make sense together. -/
def Valid (l : Limits) : Prop :=
  ∀ ac, 1 ≤ (l.globalQueueLimit ac).toNat ∧ 1 ≤ (l.peerQueueLimit ac).toNat ∧
    (l.peerQueueLimit ac).toNat ≤ (l.globalQueueLimit ac).toNat

/-- The global limits that the caller of `sq_set_limits` has set. The other calls set none. -/
def wanted (l : Limits) : LimitsCall → LimitsErr → Ac → Int
  | .setLimits globalQueueLimit _, .ok => fun ac => (globalQueueLimit ac).toInt
  | _, _ => fun ac => (l.globalQueueLimit ac).toNat

/-- The arithmetic of the call has a meaning, what it stores is what was set and makes sense, and
if it is rejected then nothing is stored. -/
def Meets (l : Limits) (c : LimitsCall) : Prop :=
  match l.apply c with
  | .error _ => False
  | .ok (l', err) =>
    (∀ ac, ((l'.globalQueueLimit ac).toNat : Int) = l.wanted c err ac) ∧ l'.Valid ∧
      (err = .params → l' = l)

/-- The share of a peer, in percent. -/
def share (l : Limits) (ac : Ac) : Nat :=
  100 * (l.peerQueueLimit ac).toNat / (l.globalQueueLimit ac).toNat

/-- An accepted limit can be stored, and the share of it is at least one packet. -/
def Storable (l : Limits) : LimitsCall → Prop
  | .setLimits globalQueueLimit num => num = ntsPriorities → (∀ ac, 0 < globalQueueLimit ac) →
      ∀ ac, (globalQueueLimit ac).toInt ≤ 65535 ∧ 100 ≤ l.share ac * (globalQueueLimit ac).toInt
  | _ => True

variable {l l' : Limits} {c : LimitsCall} {err : LimitsErr} {ac : Ac}

theorem toNat_ofInt (n : Int) : (UInt16.ofInt n).toNat = (n % 65536).toNat := by
  have lt : (n % 2 ^ 16).toNat < 2 ^ 16 := by omega
  rw [UInt16.ofInt, UInt16.toNat_ofNat_of_lt' lt]
  rfl

/-- What fits in 16 bits is stored as it is. -/
theorem toNat_ofInt_of_le {n : Int} (nonneg : 0 ≤ n) (le : n ≤ 65535) :
    ((UInt16.ofInt n).toNat : Int) = n := by
  rw [toNat_ofInt]
  omega

theorem Valid.share_le (h : l.Valid) (ac : Ac) : l.share ac ≤ 100 := by
  obtain ⟨pos, -, le⟩ := h ac
  apply Nat.div_le_of_le_mul
  rw [Nat.mul_comm]
  exact Nat.mul_le_mul_right 100 le

/-- The share is reported without a fault. -/
theorem Valid.ratio (h : l.Valid) (ac : Ac) : l.ratio ac = .ok (l.share ac : Int) := by
  obtain ⟨pos, -, -⟩ := h ac
  have lt := (l.peerQueueLimit ac).toNat_lt
  have fits : Checked.Fits 32 (100 * ((l.peerQueueLimit ac).toNat : Int)) := by
    constructor <;> omega
  have ne : ((l.globalQueueLimit ac).toNat : Int) ≠ 0 := by omega
  have nonneg : 0 ≤ 100 * ((l.peerQueueLimit ac).toNat : Int) := by omega
  rw [Limits.ratio, mul_of_fits fits, ok_bind, div_of_ne_zero ne,
    Int.tdiv_eq_ediv_of_nonneg nonneg, share]
  simp

/-! ## `sq_set_limits` -/

section
variable {globalQueueLimit : Ac → Int32}

/-- The share of a limit is at most that limit. -/
theorem Valid.share_mul (h : l.Valid) (pos : 0 < (globalQueueLimit ac).toInt) :
    0 ≤ (l.share ac : Int) * (globalQueueLimit ac).toInt ∧
      l.share ac * (globalQueueLimit ac).toInt ≤ 100 * (globalQueueLimit ac).toInt := by
  have share := h.share_le ac
  constructor
  · exact Int.mul_nonneg (Int.natCast_nonneg _) pos.le
  · exact Int.mul_le_mul_of_nonneg_right (by omega) pos.le

/-- What one turn of the loop stores. -/
theorem Valid.setLimit_ok (h : l.Valid) (pos : 0 < (globalQueueLimit ac).toInt)
    {stored : UInt16 × UInt16} (ok : l.setLimit globalQueueLimit ac = .ok stored) :
    stored = (.ofInt (globalQueueLimit ac).toInt,
      .ofInt (l.share ac * (globalQueueLimit ac).toInt / 100)) := by
  rw [setLimit, h.ratio] at ok
  obtain ⟨share, product, ok⟩ := bind_ok (x := mul 32 (l.share ac) (globalQueueLimit ac).toInt) ok
  obtain ⟨peer, quotient, ok⟩ := bind_ok ok
  have nonneg : 0 ≤ (l.share ac : Int) * (globalQueueLimit ac).toInt :=
    Int.mul_nonneg (Int.natCast_nonneg _) pos.le
  rw [← Except.ok.inj ok, div_ok quotient, mul_ok product, Int.tdiv_eq_ediv_of_nonneg nonneg]

/-- An argument of 16 bits makes no fault. -/
theorem Valid.setLimit_of_le (h : l.Valid) (pos : 0 < (globalQueueLimit ac).toInt)
    (le : (globalQueueLimit ac).toInt ≤ 65535) :
    l.setLimit globalQueueLimit ac = .ok (.ofInt (globalQueueLimit ac).toInt,
      .ofInt (l.share ac * (globalQueueLimit ac).toInt / 100)) := by
  obtain ⟨nonneg, small⟩ := h.share_mul pos
  have fits : Checked.Fits 32 ((l.share ac : Int) * (globalQueueLimit ac).toInt) := by
    constructor <;> omega
  have ne : (100 : Int) ≠ 0 := by decide
  rw [setLimit, h.ratio, ok_bind, mul_of_fits fits, ok_bind, div_of_ne_zero ne, ok_bind,
    Int.tdiv_eq_ediv_of_nonneg nonneg]
  rfl

/-- The limits that an accepted call stores make sense just when they could be stored. -/
theorem Valid.meets_setLimits_iff (h : l.Valid) (pos : ∀ ac, 0 < (globalQueueLimit ac).toInt) :
    l.Meets (.setLimits globalQueueLimit ntsPriorities) ↔
      ∀ ac, (globalQueueLimit ac).toInt ≤ 65535 ∧
        100 ≤ l.share ac * (globalQueueLimit ac).toInt := by
  have accepted : l.apply (.setLimits globalQueueLimit ntsPriorities) =
      forAcs (l.setLimit globalQueueLimit) >>= fun stored =>
        pure (⟨fun ac => (stored ac).1, fun ac => (stored ac).2⟩, .ok) := by
    have positive : ¬∃ ac, globalQueueLimit ac ≤ 0 := by
      rintro ⟨ac, le⟩
      have le := Int32.le_iff_toInt_le.1 le
      exact absurd (pos ac) (Int.not_lt.2 le)
    rw [apply, sqSetLimits, if_neg (not_not.2 rfl), if_neg positive]
  constructor
  · intro meets ac
    rw [Meets] at meets
    split at meets
    case h_1 => exact meets.elim
    case h_2 l' err ok =>
      rw [accepted] at ok
      obtain ⟨stored, loop, ok⟩ := bind_ok ok
      obtain ⟨rfl, rfl⟩ := Prod.mk.inj (Except.ok.inj ok)
      obtain ⟨wanted, valid, -⟩ := meets
      have here := h.setLimit_ok (pos ac) (forAcs_ok loop ac)
      have same := wanted ac
      have peer := (valid ac).2.1
      simp only [here, Limits.wanted] at same peer
      have le : (globalQueueLimit ac).toInt ≤ 65535 := by
        rw [toNat_ofInt] at same
        omega
      obtain ⟨nonneg, small⟩ := h.share_mul (pos ac)
      have stored := toNat_ofInt_of_le
        (n := l.share ac * (globalQueueLimit ac).toInt / 100) (by omega) (by omega)
      exact ⟨le, by omega⟩
  · intro fits
    have loop : forAcs (l.setLimit globalQueueLimit) = .ok fun ac =>
        (.ofInt (globalQueueLimit ac).toInt,
          .ofInt (l.share ac * (globalQueueLimit ac).toInt / 100)) :=
      forAcs_of_ok fun ac => h.setLimit_of_le (pos ac) (fits ac).1
    rw [Meets, accepted, loop, ok_bind]
    have wanted (ac : Ac) : ((UInt16.ofInt (globalQueueLimit ac).toInt).toNat : Int) =
        (globalQueueLimit ac).toInt := toNat_ofInt_of_le (pos ac).le (fits ac).1
    refine ⟨wanted, ?_, nofun⟩
    intro ac
    obtain ⟨le, least⟩ := fits ac
    obtain ⟨nonneg, small⟩ := h.share_mul (pos ac)
    have stored := toNat_ofInt_of_le
      (n := l.share ac * (globalQueueLimit ac).toInt / 100) (by omega) (by omega)
    have same := wanted ac
    have positive := pos ac
    refine ⟨?_, ?_, ?_⟩ <;> simp only <;> omega

end

/-! ## The other calls -/

theorem meets_rejected (h : l.Valid) (rejected : l.apply c = .ok (l, .params))
    (none : l.wanted c .params = fun ac => ((l.globalQueueLimit ac).toNat : Int)) :
    l.Meets c := by
  rw [Meets, rejected]
  exact ⟨fun ac => (congrFun none ac).symm, h, fun _ => rfl⟩

/-- What one turn of the loop of `sq_set_peer_limits` stores. -/
theorem Valid.setPeerLimit (h : l.Valid) {ratio : Ac → Int32}
    (least : 5 ≤ (ratio ac).toInt) (most : (ratio ac).toInt ≤ 100) :
    ∃ peer, l.setPeerLimit ratio ac = .ok peer ∧ 1 ≤ peer.toNat ∧
      peer.toNat ≤ (l.globalQueueLimit ac).toNat := by
  obtain ⟨pos, -, -⟩ := h ac
  have lt := (l.globalQueueLimit ac).toNat_lt
  have nonneg : 0 ≤ (ratio ac).toInt * (l.globalQueueLimit ac).toNat :=
    Int.mul_nonneg (by omega) (Int.natCast_nonneg _)
  have small : (ratio ac).toInt * (l.globalQueueLimit ac).toNat ≤
      100 * (l.globalQueueLimit ac).toNat :=
    Int.mul_le_mul_of_nonneg_right most (Int.natCast_nonneg _)
  have fits : Checked.Fits 32 ((ratio ac).toInt * (l.globalQueueLimit ac).toNat) := by
    constructor <;> omega
  have ne : (100 : Int) ≠ 0 := by decide
  have turn : l.setPeerLimit ratio ac =
      .ok (.ofInt (max 1 ((ratio ac).toInt * (l.globalQueueLimit ac).toNat / 100))) := by
    rw [Limits.setPeerLimit, mul_of_fits fits, ok_bind, div_of_ne_zero ne, ok_bind,
      Int.tdiv_eq_ediv_of_nonneg nonneg]
    rfl
  have stored := toNat_ofInt_of_le
    (n := max 1 ((ratio ac).toInt * (l.globalQueueLimit ac).toNat / 100)) (by omega) (by omega)
  exact ⟨_, turn, by omega, by omega⟩

theorem Valid.meets_setPeerLimits (h : l.Valid) (ratio : Ac → Int32) (num : Int32) :
    l.Meets (.setPeerLimits ratio num) := by
  by_cases four : num = ntsPriorities
  · by_cases range : ∃ ac, ratio ac < minPeerQueueSizeRatio ∨ maxPeerQueueSizeRatio < ratio ac
    · apply meets_rejected h _ rfl
      rw [apply, sqSetPeerLimits, if_neg (not_not.2 four), if_pos range]
    · have bounds (ac : Ac) : 5 ≤ (ratio ac).toInt ∧ (ratio ac).toInt ≤ 100 := by
        have inside := not_or.1 (not_exists.1 range ac)
        have least := mt Int32.lt_iff_toInt_lt.2 inside.1
        have most := mt Int32.lt_iff_toInt_lt.2 inside.2
        exact ⟨Int.not_lt.1 least, Int.not_lt.1 most⟩
      choose peer turn least most using fun ac => h.setPeerLimit (bounds ac).1 (bounds ac).2
      have ok : l.apply (.setPeerLimits ratio num) =
          .ok ({ l with peerQueueLimit := peer }, .ok) := by
        rw [apply, sqSetPeerLimits, if_neg (not_not.2 four), if_neg range, forAcs_of_ok turn]
        rfl
      rw [Meets, ok]
      exact ⟨fun _ => rfl, fun ac => ⟨(h ac).1, least ac, most ac⟩, nofun⟩
  · apply meets_rejected h _ rfl
    rw [apply, sqSetPeerLimits, if_pos four]

theorem mapM_of_ok {ε α β : Type} {f : α → Except ε β} {g : α → β} (h : ∀ a, f a = .ok (g a))
    (as : List α) : as.mapM f = .ok (as.map g) := by
  induction as with
  | nil => rfl
  | cons a as ih =>
    rw [List.mapM_cons, h, ok_bind, ih, ok_bind]
    rfl

theorem Valid.meets_getPeerLimits (h : l.Valid) (numToWrite : UInt8) :
    l.Meets (.getPeerLimits numToWrite) := by
  have ok : l.apply (.getPeerLimits numToWrite) = .ok (l, .ok) := by
    rw [apply, sqGetPeerLimits, mapM_of_ok h.ratio, ok_bind]
    rfl
  rw [Meets, ok]
  exact ⟨fun _ => rfl, h, nofun⟩

/-! ## Every sequence of calls -/

/-- From limits that make sense a call does what it should just when what it sets can be
stored. -/
theorem Valid.meets_iff (h : l.Valid) (c : LimitsCall) : l.Meets c ↔ l.Storable c := by
  cases c with
  | setLimits globalQueueLimit num =>
    by_cases four : num = ntsPriorities
    · subst four
      by_cases positive : ∀ ac, 0 < globalQueueLimit ac
      · have pos (ac : Ac) : 0 < (globalQueueLimit ac).toInt :=
          Int32.lt_iff_toInt_lt.1 (positive ac)
        rw [h.meets_setLimits_iff pos]
        exact ⟨fun fits _ _ => fits, fun storable => storable rfl positive⟩
      · have some : ∃ ac, globalQueueLimit ac ≤ 0 := by
          obtain ⟨ac, le⟩ := not_forall.1 positive
          exact ⟨ac, Int32.not_lt.1 le⟩
        have rejected : l.Meets (.setLimits globalQueueLimit ntsPriorities) := by
          apply meets_rejected h _ rfl
          rw [apply, sqSetLimits, if_neg (not_not.2 rfl), if_pos some]
        exact ⟨fun _ _ all => absurd all positive, fun _ => rejected⟩
    · have rejected : l.Meets (.setLimits globalQueueLimit num) := by
        apply meets_rejected h _ rfl
        rw [apply, sqSetLimits, if_pos four]
      exact ⟨fun _ is => absurd is four, fun _ => rejected⟩
  | setPeerLimits ratio num => exact ⟨fun _ => trivial, fun _ => h.meets_setPeerLimits ratio num⟩
  | getPeerLimits numToWrite => exact ⟨fun _ => trivial, fun _ => h.meets_getPeerLimits numToWrite⟩

theorem init_valid : init.Valid := by
  intro ac
  cases ac <;> decide

/-- The arithmetic of the limits, in every sequence of calls: it has a meaning and gives limits
that make sense as long as what is set can be stored, and no longer. -/
theorem limits_meet_iff (calls : List LimitsCall) :
    Allowed after Meets init calls ↔ Allowed after Storable init calls := by
  apply allowed_iff init_valid
  · intro l c valid
    exact valid.meets_iff c
  · intro l c _ meets
    rw [Meets] at meets
    rw [after]
    split at meets
    case h_1 => exact meets.elim
    case h_2 ok =>
      rw [ok]
      exact meets.2.1

instance : DecidablePred Valid := fun _ => inferInstanceAs (Decidable (∀ _, _))

instance (l : Limits) : DecidablePred l.Meets := fun c =>
  match result : l.apply c with
  | .error _ => .isFalse (by rw [Meets, result]; exact id)
  | .ok (l', err) =>
    decidable_of_iff ((∀ ac, ((l'.globalQueueLimit ac).toNat : Int) = l.wanted c err ac) ∧
      l'.Valid ∧ (err = .params → l' = l)) (by rw [Meets, result])

/-- A limit of 65536 is stored as 0, and the next look at the shares divides by it. -/
theorem limit_stored_as_zero :
    ¬Allowed after Meets init [.setLimits (fun _ => 65536) 4, .getPeerLimits 4] ∧
    (init.after (.setLimits (fun _ => 65536) 4)).apply (.getPeerLimits 4) =
      .error .divisionByZero := by
  decide

end Limits

end Wave300.Sq
