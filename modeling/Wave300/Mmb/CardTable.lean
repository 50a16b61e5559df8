import Mathlib.Data.Multiset.MapFold
import Wave300.Lib.Slots
import Wave300.Lib.Trace

/-!
# The table of cards

`hw_mmb.c`: cards are added to the first free slot of a table and removed from where they are, and
the printout of the versions goes through as many slots as there are cards.

Objects are named by their addresses. The texts are left out; what `snprintf` returns for them is a
parameter of the printout.
-/

namespace Wave300.CardTable

open Lib

/-- `MTLK_MAX_HW_ADAPTERS_SUPPORTED` -/
def maxHwAdaptersSupported : Nat := 10

/-- `mtlk_hw_t` -/
structure Hw where
  cardIdx : Nat
  regLock : Bool

/-- `mtlk_hw_mmb_t`, and the objects that were allocated for cards and for their handles, each of
which knows its card. -/
structure Mmb where
  cards : Nat → Option Nat
  nofCards : Nat
  lock : Bool
  hws : Nat → Option Hw
  apis : Nat → Option Nat

def init : Mmb := ⟨fun _ => none, 0, false, fun _ => none, fun _ => none⟩

/-- The slot that the loop of `mtlk_hw_mmb_add_card` takes. -/
def freeSlot (m : Mmb) : Option Nat :=
  (List.range maxHwAdaptersSupported).find? fun i => (m.cards i).isNone

/-- `mtlk_hw_mmb_add_card`, where the objects are allocated at `apiMem` and `hwMem`. -/
def addCard (m : Mmb) (apiMem hwMem : Option Nat) : Mmb :=
  match apiMem, hwMem with
  | none, _ => m
  | some _, none => m
  | some api, some hw =>
    if maxHwAdaptersSupported ≤ m.nofCards then m
    else
      let m := { m with
        hws := Function.update m.hws hw (some ⟨0, false⟩)
        apis := Function.update m.apis api (some hw) }
      match freeSlot m with
      | some i =>
        { m with
          cards := Function.update m.cards i (some hw)
          hws := Function.update m.hws hw (some ⟨i, false⟩)
          nofCards := m.nofCards + 1 }
      | none => m

/-- `mtlk_hw_mmb_remove_card` -/
def removeCard (m : Mmb) (api : Nat) : Mmb :=
  let hw := m.apis api
  let m :=
    match (List.range maxHwAdaptersSupported).find? fun i => m.cards i = hw with
    | some i => { m with cards := Function.update m.cards i none, nofCards := m.nofCards - 1 }
    | none => m
  { m with
    hws := fun a => if some a = hw then none else m.hws a
    apis := Function.update m.apis api none }

inductive Op where
  | add (apiMem hwMem : Option Nat)
  | remove (api : Nat)

def step (m : Mmb) : Op → Mmb
  | .add apiMem hwMem => addCard m apiMem hwMem
  | .remove api => removeCard m api

/-- What is allocated is not in use yet, and what is removed was added. -/
def Valid (m : Mmb) : Op → Prop
  | .add apiMem hwMem => (∀ api ∈ apiMem, m.apis api = none) ∧ ∀ hw ∈ hwMem, m.hws hw = none
  | .remove api => m.apis api ≠ none

/-- What `snprintf` returns: for the version of the driver and for those of a card, into the room
that is left. -/
structure Printer where
  driver : Int → Int
  card : Nat → Int → Int

/-- `mtlk_osal_lock_acquire` and `mtlk_osal_lock_release` of `reg_lock` -/
def setRegLock (m : Mmb) (hw : Nat) (held : Bool) : Mmb :=
  { m with hws := Function.update m.hws hw ((m.hws hw).map fun h => { h with regLock := held }) }

/-- The loop of `mtlk_hw_mmb_global_version_printout` over the slots that are left, with what it
finds in them. An empty slot ends it, since there is no lock to take. -/
def printCards (p : Printer) : List Nat → Int → Mmb → List (Option Nat) × Mmb
  | [], _, m => ([], { m with lock := false })
  | i :: rest, bytesLeft, m =>
    match m.cards i with
    | none => ([none], m)
    | some hw =>
      let m := setRegLock m hw true
      if bytesLeft > 0 then
        if p.card hw bytesLeft < 0 then ([some hw], m)
        else
          let (visited, m) :=
            printCards p rest (bytesLeft - p.card hw bytesLeft) (setRegLock m hw false)
          (some hw :: visited, m)
      else
        let (visited, m) := printCards p rest bytesLeft (setRegLock m hw false)
        (some hw :: visited, m)

/-- `size - 1` as an `int` -/
def roomOf (size : Nat) : Int := (BitVec.ofNat 32 size - 1).toInt

/-- `mtlk_hw_mmb_global_version_printout` -/
def globalVersionPrintout (p : Printer) (size : Nat) (m : Mmb) : List (Option Nat) × Mmb :=
  let printed := p.driver (roomOf size)
  if printed < 0 then ([], m)
  else printCards p (List.range m.nofCards) (roomOf size - printed) { m with lock := true }

/-! ## The table -/

/-- The cards that are in the table. -/
def present (m : Mmb) : Multiset Nat := contents m.cards maxHwAdaptersSupported

/-- There are as many cards as `nof_cards` says, each knows its position, and no two have the same
index. -/
structure Consistent (m : Mmb) : Prop where
  count : m.nofCards = (present m).card
  position : ∀ i, i < maxHwAdaptersSupported → ∀ hw ∈ m.cards i, ∃ h ∈ m.hws hw, h.cardIdx = i
  unique : ∀ hw ∈ present m, ∀ hw' ∈ present m,
    (m.hws hw).map Hw.cardIdx = (m.hws hw').map Hw.cardIdx → hw = hw'
  once : (present m).Nodup

/-- What adding and removing keep: the objects in the table are live and not locked, and each handle
is that of one card in it. -/
structure Table (m : Mmb) : Prop where
  count : m.nofCards = (present m).card
  live : ∀ i, i < maxHwAdaptersSupported → ∀ hw, m.cards i = some hw → m.hws hw = some ⟨i, false⟩
  listed : ∀ api hw, m.apis api = some hw → ∃ i < maxHwAdaptersSupported, m.cards i = some hw
  single : ∀ api api' hw, m.apis api = some hw → m.apis api' = some hw → api = api'
  unlocked : m.lock = false
  free : ∀ hw h, m.hws hw = some h → h.regLock = false

variable {m : Mmb}

theorem Table.slot_eq (h : Table m) {i j hw : Nat} (hi : i < maxHwAdaptersSupported)
    (hj : j < maxHwAdaptersSupported) (at_i : m.cards i = some hw) (at_j : m.cards j = some hw) :
    i = j := by
  have here := (h.live i hi hw at_i).symm.trans (h.live j hj hw at_j)
  exact congrArg Hw.cardIdx (Option.some.inj here)

theorem init_table : Table init := by
  constructor
  case count => exact (Multiset.card_eq_zero.2 (contents_eq_zero.2 fun _ _ => rfl)).symm
  case live => rintro i _ hw ⟨⟩
  case listed => rintro api hw ⟨⟩
  case single => rintro api api' hw ⟨⟩
  case unlocked => rfl
  case free => rintro hw h ⟨⟩

/-- There is a free slot as long as there are fewer cards than slots. -/
theorem Table.freeSlot (h : Table m) (room : m.nofCards < maxHwAdaptersSupported) :
    ∃ i < maxHwAdaptersSupported, freeSlot m = some i ∧ m.cards i = none := by
  cases found : CardTable.freeSlot m with
  | some i =>
    have below := List.mem_of_find?_eq_some found
    have free := List.find?_some found
    exact ⟨i, List.mem_range.1 below, rfl, Option.isNone_iff_eq_none.1 free⟩
  | none =>
    have full : (present m).card = maxHwAdaptersSupported := by
      apply card_contents_eq_iff.2
      intro i below free
      have taken := List.find?_eq_none.1 found i (List.mem_range.2 below)
      exact taken (Option.isNone_iff_eq_none.2 free)
    rw [h.count, full] at room
    exact absurd room (Nat.lt_irrefl _)

theorem Table.add (h : Table m) {apiMem hwMem : Option Nat} (valid : Valid m (.add apiMem hwMem)) :
    Table (addCard m apiMem hwMem) := by
  unfold addCard
  split
  · exact h
  · exact h
  · rename_i api hw
    obtain ⟨newApi, newHw⟩ := valid
    replace newHw : m.hws hw = none := newHw hw rfl
    split
    · exact h
    · rename_i room
      obtain ⟨i, below, found, free⟩ := h.freeSlot (Nat.not_le.1 room)
      have absent : ∀ j < maxHwAdaptersSupported, m.cards j ≠ some hw := by
        intro j hj at_j
        have alive := h.live j hj hw at_j
        rw [newHw] at alive
        cases alive
      simp only [CardTable.freeSlot] at found
      simp only [CardTable.freeSlot, found, Function.update_idem]
      constructor
      case count =>
        have filled := congrArg Multiset.card (contents_fill hw below free)
        rw [Multiset.card_cons] at filled
        exact (congrArg Nat.succ h.count).trans filled.symm
      case live =>
        intro j hj hw' at_j
        dsimp only at at_j ⊢
        by_cases same : j = i
        · subst same
          rw [Function.update_self] at at_j
          cases at_j
          exact Function.update_self ..
        · rw [Function.update_of_ne same] at at_j
          have ne : hw' ≠ hw := by
            rintro rfl
            exact absent j hj at_j
          rw [Function.update_of_ne ne]
          exact h.live j hj hw' at_j
      case listed =>
        intro api' hw' handle
        dsimp only at handle ⊢
        by_cases same : api' = api
        · subst same
          rw [Function.update_self] at handle
          exact ⟨i, below, by rw [Function.update_self, handle]⟩
        · rw [Function.update_of_ne same] at handle
          obtain ⟨j, hj, at_j⟩ := h.listed api' hw' handle
          have ne : j ≠ i := by
            rintro rfl
            rw [free] at at_j
            cases at_j
          exact ⟨j, hj, by rw [Function.update_of_ne ne, at_j]⟩
      case single =>
        have unlisted : ∀ a, m.apis a ≠ some hw := by
          intro a handle
          obtain ⟨j, hj, at_j⟩ := h.listed a hw handle
          exact absent j hj at_j
        intro a a' hw' handle handle'
        dsimp only at handle handle'
        by_cases same : a = api <;> by_cases same' : a' = api
        · rw [same, same']
        · subst same
          rw [Function.update_self] at handle
          rw [Function.update_of_ne same', ← handle] at handle'
          exact absurd handle' (unlisted a')
        · subst same'
          rw [Function.update_self] at handle'
          rw [Function.update_of_ne same, ← handle'] at handle
          exact absurd handle (unlisted a)
        · rw [Function.update_of_ne same] at handle
          rw [Function.update_of_ne same'] at handle'
          exact h.single a a' hw' handle handle'
      case unlocked => exact h.unlocked
      case free =>
        intro hw' o alive
        dsimp only at alive
        by_cases same : hw' = hw
        · subst same
          rw [Function.update_self] at alive
          cases alive
          rfl
        · rw [Function.update_of_ne same] at alive
          exact h.free hw' o alive

/-- What removing a card does. -/
theorem Table.remove_eq (h : Table m) {api hw i : Nat} (handle : m.apis api = some hw)
    (below : i < maxHwAdaptersSupported) (slot : m.cards i = some hw) :
    removeCard m api = { m with
      cards := Function.update m.cards i none
      nofCards := m.nofCards - 1
      hws := Function.update m.hws hw none
      apis := Function.update m.apis api none } := by
  have found :
      (List.range maxHwAdaptersSupported).find? (fun j => m.cards j = some hw) = some i := by
    cases first : (List.range maxHwAdaptersSupported).find? (fun j => m.cards j = some hw) with
    | none =>
      have missed := List.find?_eq_none.1 first i (List.mem_range.2 below)
      exact absurd (decide_eq_true slot) missed
    | some j =>
      have at_j : m.cards j = some hw := by simpa using List.find?_some first
      have hj := List.mem_range.1 (List.mem_of_find?_eq_some first)
      rw [h.slot_eq hj below at_j slot]
  have gone : (fun a => if some a = some hw then none else m.hws a) =
      Function.update m.hws hw none := by
    funext a
    simp [Function.update_apply]
  simp only [removeCard, handle, found, gone]

theorem Table.remove (h : Table m) {api : Nat} (valid : Valid m (.remove api)) :
    Table (removeCard m api) := by
  obtain ⟨hw, handle⟩ := Option.ne_none_iff_exists'.1 valid
  obtain ⟨i, below, slot⟩ := h.listed api hw handle
  rw [h.remove_eq handle below slot]
  have others : ∀ j < maxHwAdaptersSupported, ∀ hw', Function.update m.cards i none j = some hw' →
      m.cards j = some hw' ∧ hw' ≠ hw := by
    intro j hj hw' at_j
    have ne : j ≠ i := by
      rintro rfl
      rw [Function.update_self] at at_j
      cases at_j
    rw [Function.update_of_ne ne] at at_j
    refine ⟨at_j, ?_⟩
    rintro rfl
    exact ne (h.slot_eq hj below at_j slot)
  have handles : ∀ a hw', Function.update m.apis api none a = some hw' →
      a ≠ api ∧ m.apis a = some hw' := by
    intro a hw' known
    have ne : a ≠ api := by
      rintro rfl
      rw [Function.update_self] at known
      cases known
    rw [Function.update_of_ne ne] at known
    exact ⟨ne, known⟩
  constructor
  case count =>
    have cleared := congrArg Multiset.card (contents_clear below slot)
    rw [Multiset.card_cons] at cleared
    have count := h.count
    rw [present, cleared] at count
    exact Nat.sub_eq_of_eq_add count
  case live =>
    intro j hj hw' at_j
    obtain ⟨here, ne⟩ := others j hj hw' at_j
    exact (Function.update_of_ne ne ..).trans (h.live j hj hw' here)
  case listed =>
    intro a hw' known
    obtain ⟨ne, before⟩ := handles a hw' known
    obtain ⟨j, hj, at_j⟩ := h.listed a hw' before
    refine ⟨j, hj, (Function.update_of_ne ?_ ..).trans at_j⟩
    rintro rfl
    have same := Option.some.inj (at_j.symm.trans slot)
    subst same
    exact ne (h.single a api hw' before handle)
  case single =>
    intro a a' hw' known known'
    exact h.single a a' hw' (handles a hw' known).2 (handles a' hw' known').2
  case unlocked => exact h.unlocked
  case free =>
    intro hw' o alive
    dsimp only at alive
    by_cases same : hw' = hw
    · subst same
      rw [Function.update_self] at alive
      cases alive
    · rw [Function.update_of_ne same] at alive
      exact h.free hw' o alive

theorem run_table {s : Mmb} (run : Runs step Valid init s) : Table s := by
  apply run.invariant init_table
  intro s op h valid
  cases op with
  | add apiMem hwMem => exact h.add valid
  | remove api => exact h.remove valid

theorem Table.mem_present (h : Table m) {hw : Nat} (mem : hw ∈ present m) :
    ∃ i < maxHwAdaptersSupported, m.cards i = some hw ∧ m.hws hw = some ⟨i, false⟩ := by
  obtain ⟨i, below, slot⟩ := mem_contents.1 mem
  exact ⟨i, below, slot, h.live i below hw slot⟩

theorem Table.nodup (h : Table m) : (present m).Nodup := by
  apply contents_nodup
  intro i hi j hj hw at_i at_j
  exact h.slot_eq hi hj at_i at_j

theorem Table.consistent (h : Table m) : Consistent m := by
  constructor
  case count => exact h.count
  case position =>
    intro i below hw slot
    exact ⟨⟨i, false⟩, h.live i below hw slot, rfl⟩
  case unique =>
    intro hw mem hw' mem' same
    obtain ⟨i, -, slot, live⟩ := h.mem_present mem
    obtain ⟨i', -, slot', live'⟩ := h.mem_present mem'
    rw [live, live'] at same
    cases same
    exact Option.some.inj (slot.symm.trans slot')
  case once => exact h.nodup

/-! ## The printout -/

/-- `snprintf` fails for none of the cards, as long as there is room for them. -/
def PrintsAll (p : Printer) : Int → List Nat → Prop
  | _, [] => True
  | bytesLeft, hw :: rest =>
    if bytesLeft > 0 then
      0 ≤ p.card hw bytesLeft ∧ PrintsAll p (bytesLeft - p.card hw bytesLeft) rest
    else PrintsAll p bytesLeft rest

/-- The cards are in the first slots. -/
def Front (m : Mmb) : Prop := ∀ i < m.nofCards, m.cards i ≠ none

/-- The cards are in the first slots, and nothing fails to be printed. -/
structure Printable (p : Printer) (size : Nat) (m : Mmb) : Prop where
  front : Front m
  prints : m.nofCards ≠ 0 → 0 ≤ p.driver (roomOf size) ∧
    PrintsAll p (roomOf size - p.driver (roomOf size)) ((List.range m.nofCards).filterMap m.cards)

/-- No lock is held. -/
def Released (m : Mmb) : Prop := m.lock = false ∧ ∀ hw h, m.hws hw = some h → h.regLock = false

/-- A printout finds every card once and no empty slot, and leaves no lock held. -/
def Right (m : Mmb) (printout : List (Option Nat) × Mmb) : Prop :=
  (printout.1 : Multiset (Option Nat)) = (present m).map some ∧ Released printout.2

theorem setRegLock_setRegLock {hw : Nat} {o : Hw} (live : m.hws hw = some o)
    (free : o.regLock = false) : setRegLock (setRegLock m hw true) hw false = m := by
  obtain ⟨idx, lock⟩ := o
  subst free
  have back : Function.update m.hws hw (some ⟨idx, false⟩) = m.hws := by
    rw [← live, Function.update_eq_self]
  simp only [setRegLock, live, Function.update_self, Function.update_idem, Option.map_some, back]

/-- Slots that all hold cards which can be printed. -/
theorem printCards_all {p : Printer} {slots : List Nat} {left : Int}
    (full : ∀ i ∈ slots, ∃ hw, m.cards i = some hw ∧ ∃ h, m.hws hw = some h ∧ h.regLock = false)
    (prints : PrintsAll p left (slots.filterMap m.cards)) :
    printCards p slots left m = (slots.map m.cards, { m with lock := false }) := by
  induction slots generalizing left with
  | nil => rfl
  | cons i rest ih =>
    obtain ⟨⟨hw, slot, h, live, free⟩, others⟩ := List.forall_mem_cons.1 full
    rw [List.filterMap_cons_some slot, PrintsAll] at prints
    rw [printCards, slot]
    simp only [setRegLock_setRegLock live free, List.map_cons, slot]
    split
    case isTrue room =>
      rw [if_pos room] at prints
      rw [if_neg (Int.not_lt.2 prints.1), ih others prints.2]
    case isFalse room =>
      rw [if_neg room] at prints
      rw [ih others prints]

/-- Otherwise an empty slot is found or the lock is kept. -/
theorem printCards_not_all {p : Printer} {slots : List Nat} {left : Int} (held : m.lock = true)
    (live : ∀ i ∈ slots, ∀ hw, m.cards i = some hw → ∃ h, m.hws hw = some h ∧ h.regLock = false)
    (bad : ¬((∀ i ∈ slots, m.cards i ≠ none) ∧ PrintsAll p left (slots.filterMap m.cards))) :
    none ∈ (printCards p slots left m).1 ∨ (printCards p slots left m).2.lock = true := by
  induction slots generalizing left with
  | nil => exact absurd ⟨List.forall_mem_nil _, trivial⟩ bad
  | cons i rest ih =>
    rw [printCards]
    cases slot : m.cards i with
    | none => exact .inl List.mem_cons_self
    | some hw =>
      obtain ⟨known, others⟩ := List.forall_mem_cons.1 live
      obtain ⟨h, alive, free⟩ := known hw slot
      rw [List.forall_mem_cons, List.filterMap_cons_some slot, PrintsAll] at bad
      have used : m.cards i ≠ none := by simp [slot]
      simp only [setRegLock_setRegLock alive free]
      split
      case isTrue room =>
        rw [if_pos room] at bad
        split
        case isTrue => exact .inr held
        case isFalse printed =>
          have nonneg := Int.not_lt.1 printed
          refine (ih others fun good => bad ⟨⟨used, good.1⟩, nonneg, good.2⟩).imp_left ?_
          exact List.mem_cons_of_mem _
      case isFalse room =>
        rw [if_neg room] at bad
        refine (ih others fun good => bad ⟨⟨used, good.1⟩, good.2⟩).imp_left ?_
        exact List.mem_cons_of_mem _

theorem Table.count_le (h : Table m) : m.nofCards ≤ maxHwAdaptersSupported := by
  rw [h.count]
  exact card_contents_le ..

theorem Table.all_in_front (h : Table m) (front : Front m) :
    contents m.cards m.nofCards = present m := by
  apply contents_eq_of_card h.count_le
  rw [card_contents_eq_iff.2 front]
  exact Nat.le_of_eq h.count.symm

/-- A printout is right exactly if the cards are in the first slots and nothing fails. -/
theorem Table.right_iff (h : Table m) (p : Printer) (size : Nat) :
    Right m (globalVersionPrintout p size m) ↔ Printable p size m := by
  have live : ∀ i ∈ List.range m.nofCards, ∀ hw, m.cards i = some hw →
      ∃ o, m.hws hw = some o ∧ o.regLock = false := by
    intro i mem hw slot
    have lt := Nat.lt_of_lt_of_le (List.mem_range.1 mem) h.count_le
    exact ⟨_, h.live i lt hw slot, rfl⟩
  by_cases fails : p.driver (roomOf size) < 0
  · rw [globalVersionPrintout, if_pos fails]
    constructor
    · intro right
      have empty : m.nofCards = 0 := by
        rw [h.count, ← Multiset.card_map some, ← right.1]
        rfl
      constructor
      case front =>
        intro i lt
        rw [empty] at lt
        exact absurd lt (Nat.not_lt_zero i)
      case prints => exact fun some => absurd empty some
    · intro printable
      have empty : m.nofCards = 0 := by
        by_contra some
        exact absurd fails (Int.not_lt.2 (printable.prints some).1)
      rw [h.count, Multiset.card_eq_zero] at empty
      refine ⟨?_, h.unlocked, h.free⟩
      rw [empty]
      rfl
  · rw [globalVersionPrintout, if_neg fails]
    by_cases good : (∀ i ∈ List.range m.nofCards, m.cards i ≠ none) ∧
        PrintsAll p (roomOf size - p.driver (roomOf size))
          ((List.range m.nofCards).filterMap m.cards)
    · have front : Front m := fun i lt => good.1 i (List.mem_range.2 lt)
      have full : ∀ i ∈ List.range m.nofCards, ∃ hw, m.cards i = some hw ∧
          ∃ o, m.hws hw = some o ∧ o.regLock = false := by
        intro i mem
        obtain ⟨hw, slot⟩ := Option.ne_none_iff_exists'.1 (good.1 i mem)
        exact ⟨hw, slot, live i mem hw slot⟩
      have all := h.all_in_front front
      have printed := printCards_all (m := { m with lock := true }) full good.2
      have right : Right m (printCards p (List.range m.nofCards)
          (roomOf size - p.driver (roomOf size)) { m with lock := true }) := by
        rw [printed]
        refine ⟨?_, rfl, h.free⟩
        rw [← all, map_some_contents front]
        rfl
      exact ⟨fun _ => ⟨front, fun _ => ⟨Int.not_lt.1 fails, good.2⟩⟩, fun _ => right⟩
    · have missed := printCards_not_all (m := { m with lock := true }) rfl live good
      refine iff_of_false ?_ ?_
      · rintro ⟨found, unlocked, -⟩
        cases missed with
        | inl empty =>
          have mem := Multiset.mem_coe.2 empty
          rw [found, Multiset.mem_map] at mem
          obtain ⟨hw, -, used⟩ := mem
          cases used
        | inr held => exact absurd (held.symm.trans unlocked) (by decide)
      · intro printable
        refine good ⟨fun i mem => printable.front i (List.mem_range.1 mem), ?_⟩
        by_cases empty : m.nofCards = 0
        · rw [empty]
          trivial
        · exact (printable.prints empty).2

/-- Two cards. -/
def two : Mmb := [Op.add (some 0) (some 0), .add (some 1) (some 1)].foldl step init

theorem two_run : Runs step Valid init two := by
  apply Runs.of_allowed (l := [Op.add (some 0) (some 0), .add (some 1) (some 1)])
  refine ⟨⟨fun _ _ => rfl, fun _ _ => rfl⟩, ⟨?_, ?_⟩, trivial⟩
  · rintro api ⟨⟩
    decide
  · rintro hw ⟨⟩
    rfl

/-- After any additions and removals the table is consistent, and a printout is right exactly if the
cards are in the first slots and nothing fails to be printed. -/
theorem card_table_iff {m : Mmb} (run : Runs step Valid init m) (p : Printer) (size : Nat) :
    Consistent m ∧ (Right m (globalVersionPrintout p size m) ↔ Printable p size m) :=
  ⟨(run_table run).consistent, (run_table run).right_iff p size⟩

theorem card_table_two_cards :
    ∃ m, m.nofCards = 2 ∧ Runs step Valid init m ∧ Consistent m ∧
      (Right m (globalVersionPrintout ⟨fun _ => 0, fun _ _ => 0⟩ 100 m) ↔
        Printable ⟨fun _ => 0, fun _ _ => 0⟩ 100 m) :=
  ⟨_, rfl, two_run, card_table_iff two_run _ _⟩

theorem removed_card_visited : ¬∀ (m : Mmb), Runs step Valid init m → ∀ (p : Printer) (size : Nat),
    Consistent m ∧ Right m (globalVersionPrintout p size m) := by
  intro always
  have run : Runs step Valid init (step two (.remove 0)) :=
    .step (Op.remove 0) two_run (by exact Option.some_ne_none 0)
  have right := (always _ run ⟨fun _ => 0, fun _ _ => 0⟩ 100).2
  have visited : (globalVersionPrintout ⟨fun _ => 0, fun _ _ => 0⟩ 100
      (step two (.remove 0))).1 = [none] := by decide
  have mem : none ∈ (present (step two (.remove 0))).map some := by
    rw [← right.1, visited]
    exact List.mem_cons_self
  obtain ⟨hw, -, used⟩ := Multiset.mem_map.1 mem
  cases used

/-! ## Orders of removal -/

theorem Table.behind (h : Table m) (front : Front m) {i : Nat} (below : i < maxHwAdaptersSupported)
    (far : m.nofCards ≤ i) : m.cards i = none := by
  cases slot : m.cards i with
  | none => rfl
  | some hw =>
    have mem : hw ∈ contents m.cards m.nofCards := by
      rw [h.all_in_front front]
      exact mem_contents.2 ⟨i, below, slot⟩
    obtain ⟨j, lt, at_j⟩ := mem_contents.1 mem
    have same := h.slot_eq (Nat.lt_of_lt_of_le lt h.count_le) below at_j slot
    omega

/-- A card is added behind the others. -/
theorem Table.front_add (h : Table m) (front : Front m) (apiMem hwMem : Option Nat) :
    Front (addCard m apiMem hwMem) := by
  unfold addCard
  split
  · exact front
  · exact front
  · rename_i api hw
    split
    · exact front
    · rename_i room
      obtain ⟨i, below, found, free⟩ := h.freeSlot (Nat.not_le.1 room)
      have far : m.nofCards ≤ i := Nat.not_lt.1 fun lt => front i lt free
      have first : m.nofCards = i := by
        by_contra ne
        have earlier := Nat.lt_of_le_of_ne far ne
        have taken := List.find?_range_eq_some.1 found
        have vacant := h.behind front (Nat.lt_trans earlier below) le_rfl
        have used := taken.2.2 m.nofCards earlier
        simp [vacant] at used
      simp only [CardTable.freeSlot] at found
      simp only [CardTable.freeSlot, found]
      intro j lt
      dsimp only at lt ⊢
      by_cases same : j = i
      · rw [same, Function.update_self]
        exact Option.some_ne_none hw
      · rw [Function.update_of_ne same]
        exact front j (by omega)

/-- Removing a card leaves no empty slot before the others exactly if it was the last one. -/
theorem Table.front_remove_iff (h : Table m) (front : Front m) {api hw i : Nat}
    (handle : m.apis api = some hw) (below : i < maxHwAdaptersSupported)
    (slot : m.cards i = some hw) : Front (removeCard m api) ↔ i + 1 = m.nofCards := by
  have lt : i < m.nofCards := by
    by_contra far
    have vacant := h.behind front below (Nat.not_lt.1 far)
    rw [slot] at vacant
    cases vacant
  rw [h.remove_eq handle below slot]
  constructor
  · intro still
    by_contra earlier
    have used := still i (by dsimp only; omega)
    exact used (Function.update_self ..)
  · intro last j before
    have ne : j ≠ i := by
      rintro rfl
      dsimp only at before
      omega
    dsimp only at before ⊢
    rw [Function.update_of_ne ne]
    exact front j (by omega)

/-- Only the card in the last used slot is removed. -/
def LastFirst (m : Mmb) : Op → Prop
  | .add .. => True
  | .remove api => m.cards (m.nofCards - 1) = m.apis api

/-- Cards that are removed in the opposite order stay in front. -/
theorem front_of_lastFirst (run : Runs step (fun m op => Valid m op ∧ LastFirst m op) init m) :
    Front m := by
  have both : Table m ∧ Front m := by
    apply run.invariant
    · exact ⟨init_table, fun i lt => absurd lt (Nat.not_lt_zero i)⟩
    · rintro s op ⟨h, front⟩ ⟨valid, last⟩
      cases op with
      | add apiMem hwMem => exact ⟨h.add valid, h.front_add front apiMem hwMem⟩
      | remove api =>
        obtain ⟨hw, handle⟩ := Option.ne_none_iff_exists'.1 valid
        obtain ⟨i, below, slot⟩ := h.listed api hw handle
        refine ⟨h.remove valid, (h.front_remove_iff front handle below slot).2 ?_⟩
        have pos : 0 < s.nofCards := by
          rw [h.count]
          exact Multiset.card_pos_iff_exists_mem.2 ⟨hw, mem_contents.2 ⟨i, below, slot⟩⟩
        have le := h.count_le
        have same := h.slot_eq below (by omega) slot (last.trans handle)
        omega
  exact both.2

end Wave300.CardTable
