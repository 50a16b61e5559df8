import Wave300.Startup.Slots

/-!
# A card is brought up and down

A card that fails to come up has given everything back, and so has one that is brought down,
whatever requests there were in between.
-/

namespace Wave300.Startup

open Lib

variable {env : Nat → Bool} {m m' m'' : Manager} {base base' : Multiset Res} {started : Nat → Bool}
  {i j p : Nat} {w : World}

/-! ## Loops over VAPs -/

/-- The VAPs of the indices that are kept are in their slots. -/
structure Alike (keep : Nat → Prop) (m m' : Manager) : Prop where
  count : m'.maxVapsCount = m.maxVapsCount
  core : m'.coreArray = m.coreArray
  irbd : m'.hwIrbd = m.hwIrbd
  array : m'.guestVapArray.isSome = m.guestVapArray.isSome
  slots : ∀ j < 256, keep j → m'.vapHandleById j = m.vapHandleById j

theorem Alike.refl (keep : Nat → Prop) (m : Manager) : Alike keep m m :=
  ⟨rfl, rfl, rfl, rfl, fun _ _ _ => rfl⟩

theorem Alike.trans {keep keep' keep'' : Nat → Prop} (h : Alike keep m m')
    (h' : Alike keep' m' m'') (sub : ∀ j, keep'' j → keep j ∧ keep' j) : Alike keep'' m m'' where
  count := h'.count.trans h.count
  core := h'.core.trans h.core
  irbd := h'.irbd.trans h.irbd
  array := h'.array.trans h.array
  slots j lt kept := (h'.slots j lt (sub j kept).2).trans (h.slots j lt (sub j kept).1)

theorem Elsewhere.alike (h : Elsewhere i m m') : Alike (· ≠ i) m m' :=
  ⟨h.count, h.core, h.irbd, h.array, h.slots⟩

theorem Sound.master (h : Sound env m base started) : m.vapHandleById 0 = m.masterVap := by
  obtain ⟨c, _, slots⟩ := h.slots
  exact handle_zero ((slots 0 h.pos).master rfl)

/-- All VAPs are started, or none is. -/
structure Phase (env : Nat → Bool) (shape : Manager → Prop) (running : Bool) (base : Multiset Res)
    (m : Manager) : Prop where
  sound : Sound env m base fun _ => running
  shape : shape m

/-- There is no VAP. -/
def Idle (m : Manager) : Prop :=
  m.guestVapArray = none ∧ m.coreArray = false ∧ m.masterVap = none

/-- The arrays are there. -/
def Arrays (m : Manager) : Prop := m.guestVapArray.isSome = true ∧ m.coreArray = true

/-- The card is up. -/
def Up (m : Manager) : Prop := Arrays m ∧ m.hwIrbd = true ∧ m.masterVap.isSome = true

/-- There is room for the master VAP only. -/
def First (m : Manager) : Prop := m.maxVapsCount = 1

variable {shape shape' : Manager → Prop} {running : Bool}

theorem Phase.move (h : Phase env shape running base m) (good : w.Good)
    (held : ∀ rest, m.world.held = base + rest → w.held = base' + rest)
    (still : shape { m with world := w }) : Phase env shape running base' { m with world := w } :=
  ⟨h.sound.rebase good held m.coreArray m.hwIrbd, still⟩

theorem Phase.mono (h : Phase env shape running base m) (sub : shape m → shape' m) :
    Phase env shape' running base m := ⟨h.sound, sub h.shape⟩

theorem Alike.noArray {keep : Nat → Prop} (h : Alike keep m m') (array : m.guestVapArray = none) :
    m'.guestVapArray = none := by
  rw [← Option.isNone_iff_eq_none, ← Option.not_isSome, h.array, array]
  rfl

theorem Elsewhere.up (h : Elsewhere i m m') (pos : i ≠ 0) (up : Up m) : Up m' :=
  ⟨⟨h.array.trans up.1.1, h.core.trans up.1.2⟩, h.irbd.trans up.2.1,
    by rw [(h.master pos).1, up.2.2]⟩

theorem Phase.mbssAddVap (h : Phase env Up true base m) (vapIndex : Nat) (cardType : Bool) :
    Phase env Up true base (m.mbssAddVap env vapIndex cardType) := by
  rw [Manager.mbssAddVap]
  split
  case isTrue => exact h
  case isFalse lt =>
    rw [not_le] at lt
    have small : vapIndex % 256 = vapIndex := Nat.mod_eq_of_lt (lt_of_lt_of_le lt h.sound.count)
    split
    case isTrue => exact h
    case isFalse =>
      cases found : m.vapHandleById vapIndex with
      | some p =>
        rw [Manager.createVap, small, if_neg (not_le.2 lt), found]
        exact h
      | none =>
        have pos : vapIndex ≠ 0 := by
          rintro rfl
          have master := h.shape.2.2
          rw [← h.sound.master, found] at master
          cases master
        obtain ⟨m', r, run, created⟩ := h.sound.createVap lt found (fun zero => absurd zero pos)
          fun _ => Option.isSome_iff_exists.1 h.shape.1.1
        have up := created.other.up pos h.shape
        rw [run]
        cases r with
        | none => exact ⟨(created.failed rfl).2.2.2, up⟩
        | some p =>
          obtain ⟨here, sound⟩ := created.made p rfl
          have lt' : vapIndex < m'.maxVapsCount := created.other.count.symm ▸ lt
          obtain ⟨m'', ok, run', other, here', sound'⟩ := sound.vapStart lt' here
            (Function.update_self ..) (Option.isSome_iff_exists.1 up.1.1) up.2.1
          rw [Function.update_idem] at sound'
          dsimp only
          rw [run']
          have up' := other.up pos up
          cases ok with
          | true =>
            rw [Function.update_eq_self vapIndex fun _ => true] at sound'
            exact ⟨sound', up'⟩
          | false =>
            obtain ⟨other', free, sound''⟩ := sound'.vapDelete (other.count.symm ▸ lt') here'
              (Function.update_self ..) fun zero => absurd zero pos
            refine ⟨sound''.restart fun j _ q there => ?_, other'.up pos up'⟩
            rw [Function.update_of_ne]
            rintro rfl
            cases free.symm.trans there

theorem Phase.mbssDelVap (h : Phase env Up true base m) (vapIndex : Nat) (state : Bool) :
    Phase env Up true base (m.mbssDelVap env vapIndex state) := by
  rw [Manager.mbssDelVap]
  split
  case isTrue => exact h
  case isFalse lt =>
    rw [not_le] at lt
    cases found : m.vapHandleById vapIndex with
    | none => exact h
    | some p =>
      obtain ⟨c, _, slots⟩ := h.sound.slots
      obtain ⟨node, here, lives⟩ := (slots vapIndex lt).lives p found
      dsimp only
      rw [here]
      dsimp only
      split
      case isTrue => exact h
      case isFalse pos =>
        rw [lives.id] at pos
        split
        case isTrue => exact h
        case isFalse =>
          obtain ⟨other, still, sound⟩ := h.sound.vapStop lt found rfl
          obtain ⟨other', free, sound'⟩ := sound.vapDelete (other.count.symm ▸ lt) still
            (Function.update_self ..) fun zero => absurd zero pos
          refine ⟨sound'.restart fun j _ q there => ?_, other'.up pos (other.up pos h.shape)⟩
          rw [Function.update_of_ne]
          rintro rfl
          cases free.symm.trans there

theorem Phase.requests (h : Phase env Up true base m) (requests : List Manager.Request) :
    Phase env Up true base (requests.foldl (Manager.request env) m) := by
  induction requests generalizing m with
  | nil => exact h
  | cons request requests ih =>
    apply ih
    cases request with
    | mbssAddVap vapIndex cardType => exact h.mbssAddVap vapIndex cardType
    | mbssDelVap vapIndex state => exact h.mbssDelVap vapIndex state

/-! ## Runs of a card -/

/-- Everything is given back. -/
structure Clean (m : Manager) : Prop where
  fault : m.fault = false
  good : m.world.Good
  held : m.world.held = 0
  nodes : ∀ p, m.nodes p = none

theorem Phase.clean (h : Phase env Idle false 0 m) : Clean m := by
  obtain ⟨c, all, slots⟩ := h.sound.slots
  obtain ⟨array, _, master⟩ := h.shape
  have free : ∀ i < m.maxVapsCount, m.vapHandleById i = none := by
    intro i _
    rw [handle_none array, master, ite_self]
  refine ⟨h.sound.fault, h.sound.good, ?_, fun p => ?_⟩
  · rw [all, zero_add]
    exact Finset.sum_eq_zero fun i mem =>
      (slots i (Finset.mem_range.1 mem)).empty (free i (Finset.mem_range.1 mem))
  · cases here : m.nodes p with
    | none => rfl
    | some node =>
      have lt := h.sound.ids p node here
      exact nomatch (free _ lt).symm.trans ((slots _ lt).own p node here rfl).1

end Wave300.Startup
