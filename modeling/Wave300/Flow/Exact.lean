import Wave300.Flow.Control
import Wave300.Lib.Bits

/-!
# When the data path is stopped

`mtlk_flctrl_unregister` returns a bit with the request its owner left in it. As long as no
client leaves one, the mask holds a bit for each demand and no other.
-/

namespace Wave300.Flow

open Lib

variable {κ : Type}

/-- The id found by the loop is one bit, and it was free. -/
theorem freeBit_spec {available id : BitVec 32} {n i : Nat} (bound : i + n = 32)
    (found : freeBit available n (BitVec.twoPow 32 i) = some id) :
    ∃ j, j < 32 ∧ id = BitVec.twoPow 32 j ∧ available.getLsbD j = true := by
  induction n generalizing i with
  | zero => cases found
  | succ n ih =>
    rw [freeBit] at found
    split at found
    case isTrue free =>
      cases found
      obtain ⟨j, set⟩ := ne_zero_iff_getLsbD.1 free
      simp only [BitVec.getLsbD_and, BitVec.getLsbD_twoPow, Bool.and_eq_true,
        decide_eq_true_eq] at set
      obtain ⟨set, inside, rfl⟩ := set
      exact ⟨i, inside, rfl, set⟩
    case isFalse taken =>
      have next : BitVec.twoPow 32 i <<< 1 = BitVec.twoPow 32 (i + 1) := by
        rw [BitVec.twoPow_eq, BitVec.twoPow_eq, ← BitVec.shiftLeft_add]
      apply ih (by omega : i + 1 + n = 32)
      rwa [← next]

/-- What `mtlk_flctrl_register` does. -/
theorem register_cases (obj : Flctrl) :
    (∃ i, i < 32 ∧ obj.availableBits.getLsbD i = true ∧
      obj.register = ({ obj with availableBits := obj.availableBits &&& ~~~(.twoPow 32 i) },
        some (.twoPow 32 i))) ∨
    obj.register = (obj, none) := by
  cases found : freeBit obj.availableBits maxNofAvailableBits 0x00000001 with
  | none => right; simp only [Flctrl.register, found]
  | some id =>
    left
    obtain ⟨i, inside, rfl, free⟩ := freeBit_spec (i := 0) rfl found
    exact ⟨i, inside, free, by simp only [Flctrl.register, found]⟩

/-- The clients hold one bit each, and the mask has the bits of those that demand silence. -/
structure Exact (s : System κ) : Prop where
  own : ∀ c k, s.client c = some k →
    ∃ i, i < 32 ∧ k.id = BitVec.twoPow 32 i ∧ s.obj.availableBits.getLsbD i = false
  apart : ∀ c c' k k', s.client c = some k → s.client c' = some k' → k.id = k'.id → c = c'
  asked : ∀ i, s.obj.stopRequestsMask.getLsbD i = true ↔
    ∃ c k, s.client c = some k ∧ k.id = BitVec.twoPow 32 i ∧ k.stopping = true
  told : s.obj.Stopped ↔ s.obj.stopRequestsMask ≠ 0

theorem Exact.demanded_iff {s : System κ} (h : Exact s) :
    s.Demanded ↔ s.obj.stopRequestsMask ≠ 0 := by
  refine Iff.trans ?_ ne_zero_iff_getLsbD.symm
  constructor
  · rintro ⟨c, k, here, stopping⟩
    obtain ⟨i, -, id, -⟩ := h.own c k here
    exact ⟨i, (h.asked i).2 ⟨c, k, here, id, stopping⟩⟩
  · rintro ⟨i, set⟩
    obtain ⟨c, k, here, -, stopping⟩ := (h.asked i).1 set
    exact ⟨c, k, here, stopping⟩

theorem Exact.init : Exact (System.init : System κ) where
  own := by rintro c k ⟨⟩
  apart := by rintro c c' k k' ⟨⟩
  asked i := by
    constructor
    · intro set
      exact absurd set (by simp [System.init, Flctrl.init])
    · rintro ⟨c, k, ⟨⟩, -⟩
  told := (by decide : Flctrl.init.Stopped ↔ Flctrl.init.stopRequestsMask ≠ 0)

variable [DecidableEq κ]

/-- The last callback tells the mask apart from zero. -/
theorem stopData_told {obj : Flctrl} {i : Nat} (inside : i < 32)
    (h : obj.Stopped ↔ obj.stopRequestsMask ≠ 0) :
    (obj.stopData (.twoPow 32 i)).Stopped ↔ (obj.stopData (.twoPow 32 i)).stopRequestsMask ≠ 0 := by
  have set : obj.stopRequestsMask ||| BitVec.twoPow 32 i ≠ 0 := by
    apply ne_zero_iff_getLsbD.2
    exact ⟨i, by rw [getLsbD_set _ inside, decide_eq_true rfl, Bool.or_true]⟩
  simp only [Flctrl.stopData, Flctrl.Stopped] at *
  split
  case isTrue clear => simpa using set
  case isFalse asked => exact iff_of_true (h.2 asked) set

theorem startData_told {obj : Flctrl} {id : BitVec 32}
    (h : obj.Stopped ↔ obj.stopRequestsMask ≠ 0) :
    (obj.startData id).Stopped ↔ (obj.startData id).stopRequestsMask ≠ 0 := by
  simp only [Flctrl.startData, Flctrl.Stopped] at *
  split
  case isTrue clear => simp [clear]
  case isFalse asked =>
    refine iff_of_true (h.2 ?_) asked
    intro clear
    exact asked (by simp [clear])

theorem update_eq_some_iff {α : Type} {f : κ → Option α} {c d : κ} {o : Option α} {k : α} :
    Function.update f c o d = some k ↔ d = c ∧ o = some k ∨ d ≠ c ∧ f d = some k := by
  by_cases same : d = c
  · subst same
    simp
  · simp [same]

/-- A client sets or clears its request. -/
theorem Exact.request {s : System κ} (h : Exact s) {c : κ} {k : Client} {obj : Flctrl} {i : Nat}
    (here : s.client c = some k) (id : k.id = BitVec.twoPow 32 i) (inside : i < 32) (b : Bool)
    (available : obj.availableBits = s.obj.availableBits)
    (mask : ∀ j, obj.stopRequestsMask.getLsbD j =
      if i = j then b else s.obj.stopRequestsMask.getLsbD j)
    (told : obj.Stopped ↔ obj.stopRequestsMask ≠ 0) :
    Exact ⟨obj, Function.update s.client c (some { k with stopping := b })⟩ := by
  -- the ids stay where they were
  have before : ∀ d k', Function.update s.client c (some { k with stopping := b }) d = some k' →
      ∃ k₀, s.client d = some k₀ ∧ k₀.id = k'.id := by
    intro d k' there
    obtain ⟨rfl, ⟨⟩⟩ | ⟨-, there⟩ := update_eq_some_iff.1 there
    · exact ⟨k, here, rfl⟩
    · exact ⟨k', there, rfl⟩
  constructor
  case own =>
    intro d k' there
    obtain ⟨k₀, there, same⟩ := before d k' there
    rw [available, ← same]
    exact h.own d k₀ there
  case apart =>
    intro d d' k₁ k₂ there there' ids
    obtain ⟨k₃, there, same⟩ := before d k₁ there
    obtain ⟨k₄, there', same'⟩ := before d' k₂ there'
    exact h.apart d d' k₃ k₄ there there' (by rw [same, same', ids])
  case asked =>
    intro j
    rw [mask j]
    split
    case isTrue same =>
      subst same
      constructor
      · intro set
        exact ⟨c, _, update_eq_some_iff.2 (.inl ⟨rfl, rfl⟩), id, set⟩
      · rintro ⟨d, k', there, id', stopping⟩
        obtain ⟨rfl, ⟨⟩⟩ | ⟨ne, there⟩ := update_eq_some_iff.1 there
        · exact stopping
        · exact absurd (h.apart d c k' k there here (id'.trans id.symm)) ne
    case isFalse other =>
      rw [h.asked j]
      constructor
      · rintro ⟨d, k', there, id', stopping⟩
        have ne : d ≠ c := by
          rintro rfl
          obtain rfl := Option.some.inj (here.symm.trans there)
          exact other (twoPow_inj inside (id.symm.trans id'))
        exact ⟨d, k', update_eq_some_iff.2 (.inr ⟨ne, there⟩), id', stopping⟩
      · rintro ⟨d, k', there, id', stopping⟩
        obtain ⟨rfl, ⟨⟩⟩ | ⟨-, there⟩ := update_eq_some_iff.1 there
        · exact absurd (twoPow_inj inside (id.symm.trans id')) other
        · exact ⟨d, k', there, id', stopping⟩
  case told => exact told

/-- A client that asks for nothing comes or goes: of the bits that are free, only its own
changes. -/
theorem Exact.change {s : System κ} (h : Exact s) {c : κ} {obj : Flctrl} {new : Option Client}
    (silent : ∀ k, s.client c = some k → k.stopping = false)
    (quiet : ∀ k, new = some k → k.stopping = false)
    (own : ∀ k, new = some k →
      ∃ i, i < 32 ∧ k.id = BitVec.twoPow 32 i ∧ obj.availableBits.getLsbD i = false)
    (fresh : ∀ k, new = some k → ∀ d k', d ≠ c → s.client d = some k' → k.id ≠ k'.id)
    (taken : ∀ d k' i, d ≠ c → s.client d = some k' → k'.id = BitVec.twoPow 32 i → i < 32 →
      s.obj.availableBits.getLsbD i = false → obj.availableBits.getLsbD i = false)
    (mask : obj.stopRequestsMask = s.obj.stopRequestsMask) (calls : obj.calls = s.obj.calls) :
    Exact ⟨obj, Function.update s.client c new⟩ := by
  constructor
  case own =>
    intro d k there
    obtain ⟨rfl, rfl⟩ | ⟨ne, there⟩ := update_eq_some_iff.1 there
    · exact own k rfl
    · obtain ⟨i, inside, id, clear⟩ := h.own d k there
      exact ⟨i, inside, id, taken d k i ne there id inside clear⟩
  case apart =>
    intro d d' k k' there there' ids
    obtain ⟨rfl, rfl⟩ | ⟨ne, old⟩ := update_eq_some_iff.1 there
    · obtain ⟨rfl, -⟩ | ⟨ne', old'⟩ := update_eq_some_iff.1 there'
      · rfl
      · exact absurd ids (fresh k rfl d' k' ne' old')
    · obtain ⟨rfl, rfl⟩ | ⟨-, old'⟩ := update_eq_some_iff.1 there'
      · exact absurd ids.symm (fresh k' rfl d k ne old)
      · exact h.apart d d' k k' old old' ids
  case asked =>
    intro j
    rw [mask, h.asked j]
    constructor
    · rintro ⟨d, k, there, id, stopping⟩
      have ne : d ≠ c := by
        rintro rfl
        rw [silent k there] at stopping
        cases stopping
      exact ⟨d, k, update_eq_some_iff.2 (.inr ⟨ne, there⟩), id, stopping⟩
    · rintro ⟨d, k, there, id, stopping⟩
      obtain ⟨rfl, rfl⟩ | ⟨-, there⟩ := update_eq_some_iff.1 there
      · rw [quiet k rfl] at stopping
        cases stopping
      · exact ⟨d, k, there, id, stopping⟩
  case told =>
    rw [Flctrl.Stopped, calls, mask]
    exact h.told

theorem Exact.register {s : System κ} (h : Exact s) {c : κ} (absent : s.client c = none) :
    Exact (s.step (.register c)) := by
  have silent : ∀ k, s.client c = some k → k.stopping = false := by
    intro k here
    rw [absent] at here
    cases here
  obtain ⟨i, inside, free, got⟩ | full := register_cases s.obj
  · simp only [System.step, got, Option.map_some]
    have cleared (j : Nat) := getLsbD_clear s.obj.availableBits i j
    apply h.change silent
    case quiet => rintro k ⟨⟩; rfl
    case own =>
      rintro k ⟨⟩
      exact ⟨i, inside, rfl, by rw [cleared, decide_eq_true rfl, Bool.not_true, Bool.and_false]⟩
    case fresh =>
      rintro k ⟨⟩ d k' - there ids
      obtain ⟨j, -, id, clear⟩ := h.own d k' there
      obtain rfl := twoPow_inj inside (ids.trans id)
      rw [free] at clear
      cases clear
    case taken =>
      intro d k' j _ _ _ _ clear
      rw [cleared, clear, Bool.false_and]
    case mask => rfl
    case calls => rfl
  · simp only [System.step, full, Option.map_none]
    rw [← absent, Function.update_eq_self]
    exact h

theorem Exact.unregister {s : System κ} (h : Exact s) {c : κ} {k : Client}
    (here : s.client c = some k) (silent : k.stopping = false) :
    Exact (s.step (.unregister c)) := by
  obtain ⟨i, inside, id, -⟩ := h.own c k here
  simp only [System.step, System.onClient, here]
  apply h.change
  case silent =>
    intro k' here'
    obtain rfl := Option.some.inj (here.symm.trans here')
    exact silent
  case quiet => rintro k' ⟨⟩
  case own => rintro k' ⟨⟩
  case fresh => rintro k' ⟨⟩
  case taken =>
    intro d k' j ne there id' _ clear
    have apart : i ≠ j := by
      rintro rfl
      exact ne (h.apart d c k' k there here (id'.trans id.symm))
    rw [Flctrl.unregister, id, getLsbD_set _ inside, clear, decide_eq_false apart, Bool.or_false]
  case mask => rfl
  case calls => rfl

theorem Exact.stopData {s : System κ} (h : Exact s) {c : κ} {k : Client}
    (here : s.client c = some k) : Exact (s.step (.stopData c)) := by
  obtain ⟨i, inside, id, -⟩ := h.own c k here
  simp only [System.step, System.onClient, here]
  apply h.request here id inside true
  case available => rfl
  case mask =>
    intro j
    rw [Flctrl.stopData, id, getLsbD_set _ inside]
    by_cases same : i = j <;> simp [same]
  case told =>
    rw [id]
    exact stopData_told inside h.told

theorem Exact.startData {s : System κ} (h : Exact s) {c : κ} {k : Client}
    (here : s.client c = some k) : Exact (s.step (.startData c)) := by
  obtain ⟨i, inside, id, -⟩ := h.own c k here
  simp only [System.step, System.onClient, here]
  apply h.request here id inside false
  case available => rfl
  case mask =>
    intro j
    rw [Flctrl.startData, id, getLsbD_clear]
    by_cases same : i = j <;> simp [same]
  case told => exact startData_told h.told

/-- No client unregisters while its request to stop is in the mask. -/
def System.Withdrawn (s : System κ) : Act κ → Prop
  | .unregister c => ∀ k, s.client c = some k → k.stopping = false
  | _ => True

theorem Exact.step {s : System κ} (h : Exact s) {a : Act κ} (calls : s.Calls a)
    (withdrawn : s.Withdrawn a) : Exact (s.step a) := by
  cases a with
  | register c => exact h.register calls
  | stopData c =>
    obtain ⟨k, here⟩ := Option.ne_none_iff_exists'.1 calls
    exact h.stopData here
  | startData c =>
    obtain ⟨k, here⟩ := Option.ne_none_iff_exists'.1 calls
    exact h.startData here
  | unregister c =>
    obtain ⟨k, here⟩ := Option.ne_none_iff_exists'.1 calls
    exact h.unregister here (withdrawn k here)

/-- In every run in which clients withdraw their requests before they unregister, the data
path is stopped exactly while some client demands it. -/
theorem stopped_iff_demanded {s : System κ}
    (run : Runs System.step (fun s a => s.Calls a ∧ s.Withdrawn a) (System.init : System κ) s) :
    s.obj.Stopped ↔ s.Demanded := by
  have h : Exact s := by
    apply run.invariant Exact.init
    intro s a exact allowed
    exact exact.step allowed.1 allowed.2
  exact h.told.trans h.demanded_iff.symm

instance (s : System κ) : ∀ a, Decidable (s.Calls a)
  | .register _ => inferInstanceAs (Decidable (_ = _))
  | .stopData _ | .startData _ | .unregister _ => inferInstanceAs (Decidable (_ ≠ _))

instance (s : System κ) : ∀ a, Decidable (s.Withdrawn a)
  | .unregister c =>
    match h : s.client c with
    | some k => decidable_of_iff (k.stopping = false) (by simp [System.Withdrawn, h])
    | none => .isTrue (by simp [System.Withdrawn, h])
  | .register _ | .stopData _ | .startData _ => .isTrue trivial

/-- Two clients stop the data path, one starts it and leaves: it stays stopped for the other. -/
theorem stopped_for_the_other :
    let s := [Act.register 0, .register 1, .stopData 0, .stopData 1, .startData 0,
      .unregister 0].foldl System.step (System.init : System Nat)
    s.obj.Stopped ∧ s.Demanded := by
  intro s
  have exact := stopped_iff_demanded (s := s) (Runs.of_allowed (by decide))
  exact ⟨by decide, exact.1 (by decide)⟩

/-- A client stops the data path and unregisters: no client is left that could start it. -/
theorem stopped_for_nobody :
    ¬ ∀ s : System Unit, Runs System.step System.Calls System.init s →
      (s.obj.Stopped ↔ s.Demanded) := by
  intro claim
  let s := [Act.register (), .stopData (), .unregister ()].foldl System.step System.init
  obtain ⟨c, k, here, -⟩ := (claim s (Runs.of_allowed (by decide))).1 (by decide)
  have gone : s.client c = none := by decide +revert
  rw [gone] at here
  cases here

end Wave300.Flow
