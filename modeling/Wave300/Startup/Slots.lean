import Mathlib.Algebra.BigOperators.Group.Finset.Piecewise
import Mathlib.Tactic.Abel
import Wave300.Startup.Vaps

/-!
# What the VAPs hold

Each VAP owns its node and what its steps took, and the slot of an index owns its VAP. What an
operation does to one slot leaves the others as they are.
-/

namespace Wave300.Startup

open Lib

variable {σ : Type*} {st : Step σ} {l : List (Step σ)} {o o' : Obj σ} {i n left : Nat} {ok : Bool}

/-! ## Objects that have no loops -/

theorem mark_loops {c : UInt32} (run : o.mark i c = .ok (o', ok)) : o'.loops = o.loops := by
  rw [Obj.mark] at run
  split at run
  · split at run
    · cases run
      rfl
    · cases run
  · cases run
    rfl

theorem fwdStep_loops (once : st.loop = false) (run : o.fwdStep st i n = .ok (o', ok)) :
    o'.loops = o.loops := by
  rw [Obj.fwdStep] at run
  split at run
  · dsimp only at run
    split at run
    · rw [once, if_neg (by decide)] at run
      have kept := mark_loops run
      exact kept
    · cases run
      rfl
  · have kept := mark_loops run
    exact kept

theorem fwdLoop_loops (once : st.loop = false) (run : o.fwdLoop st i n left = .ok (o', ok)) :
    o'.loops = o.loops := by
  induction left generalizing n o with
  | zero =>
    cases run
    rfl
  | succ left ih =>
    rw [Obj.fwdLoop] at run
    cases first : o.fwdStep st i n with
    | error e =>
      rw [first] at run
      cases run
    | ok r =>
      obtain ⟨o₁, went⟩ := r
      rw [first] at run
      have kept := fwdStep_loops once first
      cases went with
      | true => exact (ih run).trans kept
      | false =>
        cases run
        exact kept

theorem fwdSteps_loops (once : ∀ st ∈ l, st.loop = false)
    (run : o.fwdSteps i l = .ok (o', ok)) : o'.loops = o.loops := by
  induction l generalizing i o with
  | nil => exact mark_loops run
  | cons st l ih =>
    rw [Obj.fwdSteps] at run
    cases first : o.fwdLoop st i 0 st.times with
    | error e =>
      rw [first] at run
      cases run
    | ok r =>
      obtain ⟨o₁, went⟩ := r
      rw [first] at run
      have kept := fwdLoop_loops (once st List.mem_cons_self) first
      cases went with
      | true => exact (ih (fun st mem => once st (List.mem_cons_of_mem _ mem)) run).trans kept
      | false =>
        cases run
        exact kept

theorem init_loops (once : ∀ st ∈ l, st.loop = false) (run : o.init l = .ok (o', true)) :
    o'.loops = o.loops := by
  rw [Obj.init] at run
  cases steps : Obj.fwdSteps 0 l { o with main := 0, skipped := 0 } with
  | error e =>
    rw [steps] at run
    cases run
  | ok r =>
    obtain ⟨o₁, went⟩ := r
    rw [steps] at run
    cases went with
    | true =>
      cases run
      have kept := fwdSteps_loops once steps
      exact kept
    | false =>
      change (do return (← Obj.cleanup l { o₁ with main := bitsSet o₁.main l.length true }, false))
        = Except.ok (o', true) at run
      cases undone : Obj.cleanup l { o₁ with main := bitsSet o₁.main l.length true } with
      | error e =>
        rw [undone] at run
        cases run
      | ok o₂ =>
        rw [undone] at run
        cases run

/-! ## The steps of a VAP -/

variable {env : Nat → Bool} {w : World} {main skipped : Field} {r : Multiset Res}
  {s : List (Step World)}

/-- Nothing was given back that was not held. -/
def World.Good (w : World) : Prop := w.bad = false

theorem World.take_ok {x : Res} (ok : (w.take env x).2 = true) :
    (w.take env x).1.held = {x} + w.held ∧ (w.take env x).1.bad = w.bad := by
  rw [World.take] at ok ⊢
  split at ok
  case isTrue granted => rw [if_pos granted]; exact ⟨(Multiset.singleton_add x w.held).symm, rfl⟩
  case isFalse => cases ok

theorem World.take_failed {x : Res} (failed : (w.take env x).2 = false) :
    (w.take env x).1.held = w.held ∧ (w.take env x).1.bad = w.bad := by
  rw [World.take] at failed ⊢
  split at failed
  case isTrue => cases failed
  case isFalse refused => rw [if_neg refused]; exact ⟨rfl, rfl⟩

theorem World.give_held {x : Res} {rest : Multiset Res} (has : w.held = {x} + rest) :
    (w.give x).held = rest ∧ (w.give x).bad = w.bad := by
  rw [World.give, if_pos (by rw [has, Multiset.singleton_add]; exact Multiset.mem_cons_self x rest)]
  refine ⟨?_, rfl⟩
  change w.held.erase x = rest
  rw [has, Multiset.singleton_add, Multiset.erase_cons_head]

theorem taking_balanced (env : Nat → Bool) (x : Res) :
    (taking env x).toStage.Balanced World.held World.Good fun _ => {x} where
  done _ w good ok := ⟨(World.take_ok ok).2.trans good, (World.take_ok ok).1⟩
  failed _ w good failed := ⟨(World.take_failed failed).2.trans good, (World.take_failed failed).1⟩
  undone _ w good has := by
    obtain ⟨rest, has⟩ := Multiset.le_iff_exists_add.1 has
    obtain ⟨less, bad⟩ := World.give_held has
    refine ⟨bad.trans good, ?_⟩
    rw [has, add_tsub_cancel_left]
    exact less

/-- A list of steps each of which takes something. -/
def Taking (env : Nat → Bool) (s : List (Step World)) : Prop :=
  s.length < 31 ∧ ∀ st ∈ s, ∃ x, st = taking env x

theorem taking_vapSteps (env : Nat → Bool) (p : Nat) : Taking env (vapSteps env p) := by
  refine ⟨by rw [vapSteps, List.length_map]; decide, fun st mem => ?_⟩
  obtain ⟨x, _, rfl⟩ := List.mem_map.1 mem
  exact ⟨_, rfl⟩

theorem taking_vapStartSteps (env : Nat → Bool) (p : Nat) : Taking env (vapStartSteps env p) := by
  refine ⟨by rw [vapStartSteps, List.length_map]; decide, fun st mem => ?_⟩
  obtain ⟨x, _, rfl⟩ := List.mem_map.1 mem
  exact ⟨_, rfl⟩

/-- A cleanup gives back `r`. -/
def Owes (s : List (Step World)) (main skipped : Field) (r : Multiset Res) : Prop :=
  ∃ p : Plan World, Inited s ⟨main, skipped, fun _ => 0, ⟨0, false, 0⟩⟩ p ∧
    p.Returns World.held World.Good r

/-- An init takes what its cleanup gives back, or nothing. -/
theorem Taking.init (h : Taking env s) (good : w.Good) :
    ∃ o ok, Obj.init s ⟨0, 0, fun _ => 0, w⟩ = .ok (o, ok) ∧ o.world.Good ∧
      (ok = false → o.world.held = w.held ∧ o.main = 0 ∧ o.skipped = 0) ∧
      (ok = true → ∃ r, Owes s o.main o.skipped r ∧ o.world.held = r + w.held) := by
  have fresh : Fresh (⟨0, 0, fun _ => 0, w⟩ : Obj World) := ⟨rfl, rfl, fun _ => rfl⟩
  obtain ⟨o, run, world, went, failed⟩ := fresh.init s h.1
  have stages : ∀ st ∈ s.map Step.toStage, ∃ takes, st.Balanced World.held World.Good takes := by
    intro st mem
    obtain ⟨st, mem', rfl⟩ := List.mem_map.1 mem
    obtain ⟨x, rfl⟩ := h.2 st mem'
    exact ⟨_, taking_balanced env x⟩
  have once : ∀ st ∈ s, st.loop = false := by
    intro st mem
    obtain ⟨x, rfl⟩ := h.2 st mem
    rfl
  obtain ⟨good', failed', went'⟩ := Stage.Balanced.attempt stages good
  rw [← world] at good' failed' went'
  refine ⟨o, _, run, good', fun no => ⟨failed' no, (failed no).main, (failed no).skipped⟩,
    fun yes => ?_⟩
  obtain ⟨m, returns, more⟩ := went' yes
  rw [yes] at run
  refine ⟨m, ⟨_, ⟨fun w' => ?_⟩, returns⟩, more⟩
  have loops : o.loops = fun _ => 0 := init_loops once run
  have := (went yes).cleanup w'
  rwa [loops] at this

theorem Owes.cleanup (h : Owes s main skipped r) (good : w.Good) {rest : Multiset Res}
    (has : w.held = r + rest) :
    ∃ o, Obj.cleanup s ⟨main, skipped, fun _ => 0, w⟩ = .ok o ∧ o.main = 0 ∧ o.skipped = 0 ∧
      o.world.Good ∧ o.world.held = rest := by
  obtain ⟨p, inited, returns⟩ := h
  obtain ⟨o, run, fresh, world⟩ := inited.cleanup w
  obtain ⟨good', less⟩ := returns.follow good (by rw [has]; exact Multiset.le_add_right r rest)
  rw [← world] at good' less
  refine ⟨o, run, fresh.main, fresh.skipped, good', ?_⟩
  rw [less, has, add_tsub_cancel_left]

/-! ## Slots -/

/-- What a VAP of index `i` owns. -/
structure Lives (env : Nat → Bool) (p i : Nat) (node : VapNode) (c : Multiset Res)
    (started : Bool) : Prop where
  id : node.id = i
  owns : ∃ r r', c = {.vapNode p} + (r + r') ∧
    Owes (vapSteps env p) node.initMain node.initSkipped r ∧
    if started then Owes (vapStartSteps env p) node.startMain node.startSkipped r'
    else node.startMain = 0 ∧ node.startSkipped = 0 ∧ r' = 0

/-- The slot of index `i` owns `c`. -/
structure Slot (env : Nat → Bool) (m : Manager) (i : Nat) (c : Multiset Res)
    (started : Bool) : Prop where
  empty : m.vapHandleById i = none → c = 0
  lives : ∀ p, m.vapHandleById i = some p → ∃ node, m.nodes p = some node ∧
    Lives env p i node c started
  own : ∀ p node, m.nodes p = some node → node.id = i → m.vapHandleById i = some p ∧ p < m.nextNode
  master : i = 0 → ∀ g, m.guestVapArray = some g → g 0 = m.masterVap

/-- `base` is held, and what the slots own. -/
structure Sound (env : Nat → Bool) (m : Manager) (base : Multiset Res)
    (started : Nat → Bool) : Prop where
  fault : m.fault = false
  good : m.world.Good
  pos : 0 < m.maxVapsCount
  count : m.maxVapsCount ≤ 256
  slots : ∃ c : Nat → Multiset Res,
    m.world.held = base + ∑ i ∈ Finset.range m.maxVapsCount, c i ∧
    ∀ i < m.maxVapsCount, Slot env m i (c i) (started i)
  ids : ∀ p node, m.nodes p = some node → node.id < m.maxVapsCount

/-- Nothing is done to other slots than that of index `i`. -/
structure Elsewhere (i : Nat) (m m' : Manager) : Prop where
  fault : m'.fault = false
  good : m'.world.Good
  count : m'.maxVapsCount = m.maxVapsCount
  slots : ∀ j < 256, j ≠ i → m'.vapHandleById j = m.vapHandleById j
  nodes : ∀ p node, node.id ≠ i → (m'.nodes p = some node ↔ m.nodes p = some node)
  next : m.nextNode ≤ m'.nextNode
  core : m'.coreArray = m.coreArray
  irbd : m'.hwIrbd = m.hwIrbd
  array : m'.guestVapArray.isSome = m.guestVapArray.isSome
  master : i ≠ 0 → m'.masterVap = m.masterVap ∧
    ∀ g', m'.guestVapArray = some g' → ∃ g, m.guestVapArray = some g ∧ g' 0 = g 0

variable {m m' : Manager} {base c c' rest : Multiset Res} {started : Nat → Bool} {b started' : Bool}
  {j p : Nat}

/-- A slot of which nothing is changed. -/
theorem Elsewhere.slot (h : Elsewhere i m m') (lt : j < 256) (other : j ≠ i)
    (slot : Slot env m j c b) : Slot env m' j c b where
  empty none := slot.empty ((h.slots j lt other).symm.trans none)
  lives p some := by
    obtain ⟨node, here, lives⟩ := slot.lives p ((h.slots j lt other).symm.trans some)
    exact ⟨node, (h.nodes p node (lives.id ▸ other)).2 here, lives⟩
  own p node here id := by
    obtain ⟨some, before⟩ := slot.own p node ((h.nodes p node (id ▸ other)).1 here) id
    exact ⟨(h.slots j lt other).trans some, lt_of_lt_of_le before h.next⟩
  master zero g' array := by
    obtain ⟨same, arrays⟩ := h.master (fun i0 => other (zero.trans i0.symm))
    obtain ⟨g, array', first⟩ := arrays g' array
    rw [first, same]
    exact slot.master zero g array'

/-- One slot is looked at, and put back when something was done to it. -/
theorem Sound.focus (h : Sound env m base started) (lt : i < m.maxVapsCount) :
    ∃ c rest, Slot env m i c (started i) ∧ m.world.held = c + rest ∧
      ∀ m' c' b, Elsewhere i m m' → Slot env m' i c' b → m'.world.held = c' + rest →
        Sound env m' base (Function.update started i b) := by
  obtain ⟨c, held, slots⟩ := h.slots
  have mem : i ∈ Finset.range m.maxVapsCount := Finset.mem_range.2 lt
  refine ⟨c i, base + ∑ j ∈ (Finset.range m.maxVapsCount).erase i, c j, slots i lt, ?_, ?_⟩
  · rw [held, ← Finset.add_sum_erase _ c mem, add_left_comm]
  · intro m' c' b other slot held'
    refine ⟨other.fault, other.good, other.count.symm ▸ h.pos, other.count.symm ▸ h.count,
      ⟨Function.update c i c', ?_, fun j ltj => ?_⟩, fun p node here => ?_⟩
    · rw [held', other.count, Finset.sum_update_of_mem mem,
        Finset.sdiff_singleton_eq_erase, add_left_comm]
    · rw [other.count] at ltj
      by_cases same : j = i
      · subst same
        rw [Function.update_self, Function.update_self]
        exact slot
      · rw [Function.update_of_ne same, Function.update_of_ne same]
        exact other.slot (lt_of_lt_of_le ltj h.count) same (slots j ltj)
    · rw [other.count]
      by_cases same : node.id = i
      · exact same ▸ lt
      · exact h.ids p node ((other.nodes p node same).1 here)

/-- Something else is taken or given back. -/
theorem Sound.rebase (h : Sound env m base started) {base' : Multiset Res} {w : World}
    (good : w.Good) (held : ∀ rest, m.world.held = base + rest → w.held = base' + rest)
    (x y : Bool) :
    Sound env { m with world := w, coreArray := x, hwIrbd := y } base' started := by
  obtain ⟨c, all, slots⟩ := h.slots
  refine ⟨h.fault, good, h.pos, h.count, ⟨c, held _ all, fun i lt => ?_⟩, h.ids⟩
  obtain ⟨empty, lives, own, master⟩ := slots i lt
  exact ⟨empty, lives, own, master⟩

/-- It does not matter whether a VAP that is not there is started. -/
theorem Sound.restart (h : Sound env m base started) {started' : Nat → Bool}
    (same : ∀ i < m.maxVapsCount, ∀ p, m.vapHandleById i = some p → started' i = started i) :
    Sound env m base started' := by
  obtain ⟨c, all, slots⟩ := h.slots
  refine ⟨h.fault, h.good, h.pos, h.count, ⟨c, all, fun i lt => ?_⟩, h.ids⟩
  obtain ⟨empty, lives, own, master⟩ := slots i lt
  refine ⟨empty, fun p some => ?_, own, master⟩
  rw [same i lt p some]
  exact lives p some

/-! ## What is done to a slot -/

theorem handle_none (free : m.guestVapArray = none) (j : Nat) :
    m.vapHandleById j = if j % 256 = 0 then m.masterVap else none := by
  rw [Manager.vapHandleById, free]
  rfl

theorem handle_some {g : Nat → Option Nat} (array : m.guestVapArray = some g) (lt : j < 256)
    (pos : j ≠ 0) : m.vapHandleById j = g j := by
  rw [Manager.vapHandleById, array, Nat.mod_eq_of_lt lt, if_neg pos]
  cases here : g j <;> simp [here]

theorem handle_zero (same : ∀ g, m.guestVapArray = some g → g 0 = m.masterVap) :
    m.vapHandleById 0 = m.masterVap := by
  rw [Manager.vapHandleById]
  cases array : m.guestVapArray with
  | none => rfl
  | some g =>
    have first := same g array
    cases master : m.masterVap <;> simp [first, master]

/-- A node that will be allocated is not there. -/
theorem Sound.unused (h : Sound env m base started) : m.nodes m.nextNode = none := by
  cases here : m.nodes m.nextNode with
  | none => rfl
  | some node =>
    obtain ⟨c, _, slots⟩ := h.slots
    have lt := h.ids _ node here
    exact absurd ((slots _ lt).own _ node here rfl).2 (lt_irrefl _)

theorem freeNode_some {node : VapNode} (here : m.nodes p = some node) :
    m.freeNode (some p) =
      { m with nodes := Function.update m.nodes p none, world := m.world.give (.vapNode p) } := by
  rw [Manager.freeNode, Option.filter_some, here]
  rfl

theorem Manager.vapInit_spec (env : Nat → Bool) (m : Manager) (p i : Nat) (good : m.world.Good) :
    ∃ w main skipped ok, m.vapInit env p ⟨i, 0, 0, 0, 0⟩ =
        ({ m with world := w }.setNode p ⟨i, main, skipped, 0, 0⟩, ok) ∧ w.Good ∧
      (ok = false → w.held = m.world.held) ∧
      (ok = true → ∃ r, Owes (vapSteps env p) main skipped r ∧ w.held = r + m.world.held) := by
  obtain ⟨o, ok, run, good', failed, went⟩ := (taking_vapSteps env p).init good
  refine ⟨o.world, o.main, o.skipped, ok, ?_, good', fun no => (failed no).1, went⟩
  rw [Manager.vapInit, run]

/-- Of the VAP of index `i` only the node with number `p` is there. -/
theorem elsewhere_of_update (h : Sound env m base started) {node : Option VapNode}
    (new : ∀ x, node = some x → x.id = i) (q : Nat) (x : VapNode) (other : x.id ≠ i) :
    Function.update m.nodes m.nextNode node q = some x ↔ m.nodes q = some x := by
  by_cases same : q = m.nextNode
  · subst same
    rw [Function.update_self, h.unused]
    refine ⟨fun some => absurd (new x some) other, nofun⟩
  · rw [Function.update_of_ne same]

/-- Of an index without a VAP only a new node can be there. -/
theorem Slot.owner (h : Slot env m i c b) (free : m.vapHandleById i = none) {node : Option VapNode}
    {q : Nat} {x : VapNode} (here : Function.update m.nodes p node q = some x) (id : x.id = i) :
    q = p ∧ node = some x := by
  by_cases same : q = p
  · subst same
    rw [Function.update_self] at here
    exact ⟨rfl, here⟩
  · rw [Function.update_of_ne same] at here
    exact nomatch free.symm.trans (h.own q x here id).1

/-- What is left of an attempt to create a VAP of index `i`. -/
structure Created (env : Nat → Bool) (i : Nat) (m m' : Manager) (base : Multiset Res)
    (started : Nat → Bool) (r : Option Nat) : Prop where
  other : Elsewhere i m m'
  failed : r = none → m'.vapHandleById i = none ∧ m'.masterVap = m.masterVap ∧
    m'.guestVapArray = m.guestVapArray ∧ Sound env m' base started
  made : ∀ p, r = some p → m'.vapHandleById i = some p ∧
    Sound env m' base (Function.update started i false)

/-- A new VAP is put into a slot. -/
theorem Sound.place (h : Sound env m base started) (lt : i < m.maxVapsCount)
    (free : m.vapHandleById i = none) {x : VapNode} (lives : Lives env m.nextNode i x c false)
    (other : Elsewhere i m m') (nodes : m'.nodes = Function.update m.nodes m.nextNode (some x))
    (next : m'.nextNode = m.nextNode + 1) (here : m'.vapHandleById i = some m.nextNode)
    (master : i = 0 → ∀ g, m'.guestVapArray = some g → g 0 = m'.masterVap)
    (held : m'.world.held = c + m.world.held) :
    Created env i m m' base started (some m.nextNode) := by
  refine ⟨other, nofun, ?_⟩
  rintro _ ⟨⟩
  refine ⟨here, ?_⟩
  obtain ⟨c₀, rest, slot, held₀, back⟩ := h.focus lt
  cases slot.empty free
  rw [held₀, zero_add] at held
  refine back m' c false other ⟨fun no => (nomatch here.symm.trans no), fun p some => ?_,
    fun p node there id => ?_, master⟩ held
  · cases here.symm.trans some
    exact ⟨x, by rw [nodes, Function.update_self], lives⟩
  · rw [nodes] at there
    obtain ⟨rfl, _⟩ := slot.owner free there id
    exact ⟨here, next ▸ Nat.lt_succ_self _⟩

theorem Sound.createVap (h : Sound env m base started) (lt : i < m.maxVapsCount)
    (free : m.vapHandleById i = none) (alone : i = 0 → m.guestVapArray = none)
    (array : i ≠ 0 → ∃ g, m.guestVapArray = some g) :
    ∃ m' r, m.createVap env i = (m', r) ∧ Created env i m m' base started r := by
  have small : i % 256 = i := Nat.mod_eq_of_lt (lt_of_lt_of_le lt h.count)
  obtain ⟨c, rest, slot, held, back⟩ := h.focus lt
  cases slot.empty free
  rw [zero_add] at held
  rw [Manager.createVap, small, if_neg (not_le.2 lt), free]
  simp only [Option.isSome_none, Bool.false_eq_true, if_false]
  cases node : (m.world.take env (.vapNode m.nextNode)).2 with
  | false =>
    obtain ⟨same, bad⟩ := World.take_failed node
    have good : (m.world.take env (.vapNode m.nextNode)).1.Good := bad.trans h.good
    refine ⟨_, _, rfl, ⟨h.fault, good, rfl, fun _ _ _ => rfl, fun _ _ _ => Iff.rfl, le_rfl, rfl,
      rfl, rfl, fun _ => ⟨rfl, fun g array => ⟨g, array, rfl⟩⟩⟩,
      fun _ => ⟨free, rfl, rfl, ?_⟩, nofun⟩
    exact h.rebase good (fun rest all => same.trans all) m.coreArray m.hwIrbd
  | true =>
    obtain ⟨more, bad⟩ := World.take_ok node
    have good : (m.world.take env (.vapNode m.nextNode)).1.Good := bad.trans h.good
    obtain ⟨w, main, skipped, ok, run, good', failed, went⟩ := Manager.vapInit_spec env
      { m with world := (m.world.take env (.vapNode m.nextNode)).1, nextNode := m.nextNode + 1 }
      m.nextNode i good
    simp only [Bool.not_true, Bool.false_eq_true, if_false]
    rw [run]
    cases ok with
    | false =>
      simp only [Bool.not_false, if_true, Manager.setNode]
      rw [freeNode_some (Function.update_self ..)]
      obtain ⟨less, same⟩ := World.give_held ((failed rfl).trans more)
      have other : Elsewhere i m { m with
          nodes := Function.update
            (Function.update m.nodes m.nextNode (some ⟨i, main, skipped, 0, 0⟩)) m.nextNode none
          world := w.give (.vapNode m.nextNode), nextNode := m.nextNode + 1 } := by
        refine ⟨h.fault, same.trans good', rfl, fun _ _ _ => rfl, fun q x id => ?_, Nat.le_succ _,
          rfl, rfl, rfl, fun _ => ⟨rfl, fun g array => ⟨g, array, rfl⟩⟩⟩
        have new : ∀ y : VapNode, none = some y → y.id = i := nofun
        rw [Function.update_idem]
        exact elsewhere_of_update h new q x id
      refine ⟨_, _, rfl, other, fun _ => ⟨free, rfl, rfl, ?_⟩, nofun⟩
      have sound := back _ 0 (started i) other ⟨fun _ => rfl, fun p some => ?_,
        fun p node here id => ?_, slot.master⟩ ((zero_add rest).symm ▸ less.trans held)
      · rwa [Function.update_eq_self] at sound
      · exact nomatch free.symm.trans some
      · dsimp only at here
        rw [Function.update_idem] at here
        exact nomatch (slot.owner free here id).2
    | true =>
      obtain ⟨r, owes, all⟩ := went rfl
      have lives : Lives env m.nextNode i ⟨i, main, skipped, 0, 0⟩ ({.vapNode m.nextNode} + r)
        false := ⟨rfl, r, 0, by rw [add_zero], owes, rfl, rfl, rfl⟩
      have held' : w.held = {.vapNode m.nextNode} + r + m.world.held := by
        rw [all, more, add_left_comm, add_assoc]
      simp only [Bool.not_true, Bool.false_eq_true, if_false, Manager.setNode]
      have new : ∀ y, some (⟨i, main, skipped, 0, 0⟩ : VapNode) = some y → y.id = i := by
        rintro y ⟨⟩
        rfl
      by_cases zero : i = 0
      · subst zero
        have no := alone rfl
        rw [if_pos rfl]
        refine ⟨_, _, rfl, h.place lt free lives ⟨h.fault, good', rfl, fun j small pos => ?_,
          elsewhere_of_update h new, Nat.le_succ _, rfl, rfl, rfl, fun pos => absurd rfl pos⟩
          rfl rfl ?_ (fun _ g array => nomatch no.symm.trans array) held'⟩
        · simp only [Manager.vapHandleById, no, Nat.mod_eq_of_lt small, if_neg pos,
            Option.bind_none]
        · simp only [Manager.vapHandleById, no, Option.bind_none, Nat.zero_mod, if_true]
      · obtain ⟨g, array⟩ := array zero
        rw [if_neg zero, array]
        refine ⟨_, _, rfl, h.place lt free lives ⟨h.fault, good', rfl, fun j small pos => ?_,
          elsewhere_of_update h new, Nat.le_succ _, rfl, rfl, by rw [array]; rfl,
          fun pos => ⟨rfl, ?_⟩⟩
          rfl rfl ?_ (fun i0 => absurd i0 zero) held'⟩
        · simp only [Manager.vapHandleById, array, Nat.mod_eq_of_lt small, Option.bind_some,
            Function.update_of_ne pos]
        · rintro _ ⟨⟩
          exact ⟨g, array, Function.update_of_ne (Ne.symm zero) ..⟩
        · simp only [Manager.vapHandleById, small, Option.bind_some, Function.update_self]

/-- A node is changed in its place. -/
theorem Slot.setNode (h : Slot env m i c b) (found : m.vapHandleById i = some p) {node x : VapNode}
    (here : m.nodes p = some node) (id : node.id = i) (fault : m.fault = false) (good : w.Good)
    (lives : Lives env p i x c' started') :
    Elsewhere i m ({ m with world := w }.setNode p x) ∧
      Slot env ({ m with world := w }.setNode p x) i c' started' := by
  refine ⟨⟨fault, good, rfl, fun _ _ _ => rfl, fun q y other => ?_, le_rfl, rfl, rfl, rfl,
    fun _ => ⟨rfl, fun g array => ⟨g, array, rfl⟩⟩⟩, fun free => (nomatch found.symm.trans free),
    fun q found' => ?_, fun q y there id' => ?_, h.master⟩
  · change Function.update m.nodes p (some x) q = some y ↔ m.nodes q = some y
    by_cases same : q = p
    · subst same
      rw [Function.update_self, here]
      constructor
      · rintro ⟨⟩
        exact absurd lives.id other
      · rintro ⟨⟩
        exact absurd id other
    · rw [Function.update_of_ne same]
  · cases found.symm.trans found'
    exact ⟨x, Function.update_self .., lives⟩
  · change Function.update m.nodes p (some x) q = some y at there
    by_cases same : q = p
    · subst same
      exact h.own q node here id
    · rw [Function.update_of_ne same] at there
      exact h.own q y there id'

theorem Sound.vapStart (h : Sound env m base started) (lt : i < m.maxVapsCount)
    (found : m.vapHandleById i = some p) (stopped : started i = false)
    (array : ∃ g, m.guestVapArray = some g) (irbd : m.hwIrbd = true) :
    ∃ m' ok, m.vapStart env p = (m', ok) ∧ Elsewhere i m m' ∧ m'.vapHandleById i = some p ∧
      Sound env m' base (Function.update started i ok) := by
  obtain ⟨c, rest, slot, held, back⟩ := h.focus lt
  obtain ⟨node, here, id, r, r', own, owes, idle⟩ := slot.lives p found
  rw [stopped] at idle
  obtain ⟨main, skipped, rfl⟩ := idle
  obtain ⟨g, array⟩ := array
  have present : g node.id = some p := by
    rw [id]
    cases i with
    | zero =>
      have first := handle_zero (slot.master rfl)
      rw [slot.master rfl g array, ← first, found]
    | succ i => rw [← handle_some array (lt_of_lt_of_le lt h.count) (Nat.succ_ne_zero i), found]
  obtain ⟨o, ok, run, good, failed, went⟩ := (taking_vapStartSteps env p).init h.good
  obtain ⟨c', lives, held'⟩ : ∃ c', Lives env p i
      { node with startMain := o.main, startSkipped := o.skipped } c' ok ∧
      o.world.held = c' + rest := by
    cases ok with
    | true =>
      obtain ⟨r', owes', more⟩ := went rfl
      refine ⟨_, ⟨id, r, r', rfl, owes, owes'⟩, ?_⟩
      rw [more, held, own]
      abel
    | false =>
      obtain ⟨same, main', skipped'⟩ := failed rfl
      refine ⟨_, ⟨id, r, 0, rfl, owes, main', skipped', rfl⟩, ?_⟩
      rw [same, held, own]
  obtain ⟨other, slot'⟩ := slot.setNode found here id h.fault good lives
  refine ⟨_, ok, ?_, other, found, back _ c' ok other slot' held'⟩
  rw [Manager.vapStart, here]
  dsimp only
  rw [if_neg (by rw [id]; exact not_le.2 lt), array, Option.bind_some,
    present, irbd, if_neg (by simp), main, skipped, run]

theorem Sound.vapStop (h : Sound env m base started) (lt : i < m.maxVapsCount)
    (found : m.vapHandleById i = some p) (running : started i = true) :
    Elsewhere i m (m.vapStop env p) ∧ (m.vapStop env p).vapHandleById i = some p ∧
      Sound env (m.vapStop env p) base (Function.update started i false) := by
  obtain ⟨c, rest, slot, held, back⟩ := h.focus lt
  obtain ⟨node, here, id, r, r', own, owes, owes'⟩ := slot.lives p found
  rw [running, if_pos rfl] at owes'
  obtain ⟨o, run, main, skipped, good, held'⟩ := owes'.cleanup h.good
    (show m.world.held = r' + ({.vapNode p} + r + rest) by rw [held, own]; abel)
  have stop : m.vapStop env p = { m with world := o.world }.setNode p
      { node with startMain := o.main, startSkipped := o.skipped } := by
    rw [Manager.vapStop, here]
    dsimp only
    rw [run]
  have lives : Lives env p i { node with startMain := o.main, startSkipped := o.skipped }
      ({.vapNode p} + (r + 0)) false := ⟨id, r, 0, rfl, owes, main, skipped, rfl⟩
  obtain ⟨other, slot'⟩ := slot.setNode found here id h.fault good lives
  rw [stop]
  refine ⟨other, found, back _ _ false other slot' ?_⟩
  rw [add_zero]
  exact held'

/-- A node is freed, and taken from its slot. -/
theorem Slot.clear (h : Slot env m i c b) (found : m.vapHandleById i = some p) {node : VapNode}
    (here : m.nodes p = some node) (id : node.id = i) (stopped : started i = false)
    (back : ∀ m' c' b, Elsewhere i m m' → Slot env m' i c' b → m'.world.held = c' + rest →
      Sound env m' base (Function.update started i b))
    (nodes : m'.nodes = Function.update m.nodes p none)
    (other : (∀ q y, y.id ≠ i → (m'.nodes q = some y ↔ m.nodes q = some y)) → Elsewhere i m m')
    (free : m'.vapHandleById i = none)
    (master : i = 0 → ∀ g, m'.guestVapArray = some g → g 0 = m'.masterVap)
    (held : m'.world.held = rest) :
    Elsewhere i m m' ∧ m'.vapHandleById i = none ∧ Sound env m' base started := by
  have same : ∀ q y, y.id ≠ i → (m'.nodes q = some y ↔ m.nodes q = some y) := by
    intro q y different
    rw [nodes]
    by_cases same : q = p
    · subst same
      rw [Function.update_self, here]
      refine ⟨nofun, ?_⟩
      rintro ⟨⟩
      exact absurd id different
    · rw [Function.update_of_ne same]
  have slot : Slot env m' i 0 false := by
    refine ⟨fun _ => rfl, fun q found' => (nomatch free.symm.trans found'), fun q y there id' => ?_,
      master⟩
    rw [nodes] at there
    by_cases same : q = p
    · subst same
      rw [Function.update_self] at there
      cases there
    · rw [Function.update_of_ne same] at there
      cases found.symm.trans (h.own q y there id').1
      exact absurd rfl same
  have sound := back m' 0 false (other same) slot (by rw [zero_add]; exact held)
  rw [← stopped, Function.update_eq_self] at sound
  exact ⟨other same, free, sound⟩

theorem Sound.vapDelete (h : Sound env m base started) (lt : i < m.maxVapsCount)
    (found : m.vapHandleById i = some p) (stopped : started i = false)
    (alone : i = 0 → m.guestVapArray = none) :
    Elsewhere i m (m.vapDelete env p) ∧ (m.vapDelete env p).vapHandleById i = none ∧
      Sound env (m.vapDelete env p) base started := by
  obtain ⟨c, rest, slot, held, back⟩ := h.focus lt
  obtain ⟨node, here, id, r, r', own, owes, idle⟩ := slot.lives p found
  rw [stopped] at idle
  obtain ⟨_, _, rfl⟩ := idle
  obtain ⟨o, run, main, skipped, good, held'⟩ := owes.cleanup h.good
    (show m.world.held = r + ({.vapNode p} + rest) by rw [held, own]; abel)
  obtain ⟨less, bad⟩ := World.give_held held'
  rw [Manager.vapDelete, here]
  dsimp only
  rw [if_neg (by rw [id]; exact not_le.2 lt), Manager.vapCleanup, run]
  cases i with
  | zero =>
    have no := alone rfl
    have first := handle_zero (slot.master rfl)
    simp only [Manager.setNode, no, if_pos id]
    rw [← first, found, freeNode_some (Function.update_self ..)]
    simp only [Function.update_idem]
    exact slot.clear found here id stopped back rfl
      (fun nodes => ⟨h.fault, bad.trans good, rfl, fun j small pos => by
        rw [handle_none no, Nat.mod_eq_of_lt small, if_neg pos, Manager.vapHandleById,
          Nat.mod_eq_of_lt small, if_neg pos]
        rfl, nodes, le_rfl, rfl, rfl, by rw [no], fun pos => absurd rfl pos⟩)
      rfl nofun less
  | succ i =>
    have pos : i + 1 ≠ 0 := Nat.succ_ne_zero i
    have small := lt_of_lt_of_le lt h.count
    obtain ⟨g, array⟩ : ∃ g, m.guestVapArray = some g := by
      cases array : m.guestVapArray with
      | none =>
        rw [handle_none array, Nat.mod_eq_of_lt small, if_neg pos] at found
        cases found
      | some g => exact ⟨g, rfl⟩
    have own := (handle_some array small pos).symm.trans found
    simp only [Manager.setNode, array, id, own]
    rw [freeNode_some (Function.update_self ..), if_neg pos]
    simp only [Function.update_idem]
    refine slot.clear found here id stopped back rfl
      (fun nodes => ⟨h.fault, bad.trans good, rfl, fun j small' other => ?_, nodes, le_rfl, rfl,
        rfl, by rw [array]; rfl, fun _ => ⟨rfl, ?_⟩⟩) ?_ (fun zero => absurd zero pos) less
    · simp only [Manager.vapHandleById, array, Nat.mod_eq_of_lt small', Option.bind_some,
        Function.update_of_ne other]
    · rintro _ ⟨⟩
      exact ⟨g, array, Function.update_of_ne (Ne.symm pos) ..⟩
    · simp only [Manager.vapHandleById, Nat.mod_eq_of_lt small, Option.bind_some,
        Function.update_self, if_neg pos]

end Wave300.Startup
