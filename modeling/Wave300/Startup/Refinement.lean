import Wave300.Startup.Steps

/-!
# The bit fields keep the plan

Init is an attempt of its stages, and cleanup follows the plan that the attempt leaves: what is to
be undone can be told from the bit fields and the counters of the loops.
-/

namespace Wave300.Startup

open Lib

variable {σ : Type*} {st : Step σ} {l pre : List (Step σ)} {i k n left : Nat} {o : Obj σ}
  {p : Plan σ}

/-- What a step has to undo. -/
def owed (st : Step σ) (i : Nat) (o : Obj σ) : Plan σ :=
  if bitsGet o.main i && !bitsGet o.skipped i then
    st.repetitions (if st.loop then (o.loops i).toNat else 1)
  else []

/-- What the steps from `i` on have to undo. -/
def planFrom : Nat → List (Step σ) → Obj σ → Plan σ
  | _, [], _ => []
  | i, st :: l, o => planFrom (i + 1) l o ++ owed st i o

/-- The steps below `i` have the same bits and counters. -/
def Agree (i : Nat) (o o' : Obj σ) : Prop :=
  ∀ j < i, bitsGet o'.main j = bitsGet o.main j ∧ bitsGet o'.skipped j = bitsGet o.skipped j ∧
    o'.loops j = o.loops j

/-- The steps below `i` are done, and none from there on has left anything. -/
structure Ready (i : Nat) (o : Obj σ) : Prop where
  main : o.main = bitsValue i
  skipped : ∀ j, i ≤ j → bitsGet o.skipped j = false
  loops : ∀ j, i ≤ j → o.loops j = 0

/-- A loop that was done has a counter, and what is no loop has none. -/
def Counts (st : Step σ) (i : Nat) (o : Obj σ) : Prop :=
  if st.loop then bitsGet o.main i → bitsGet o.skipped i = false ∧ o.loops i ≠ 0
  else o.loops i = 0

def Counted : Nat → List (Step σ) → Obj σ → Prop
  | _, [], _ => True
  | i, st :: l, o => Counts st i o ∧ Counted (i + 1) l o

theorem Agree.refl (i : Nat) (o : Obj σ) : Agree i o o := fun _ _ => ⟨rfl, rfl, rfl⟩

theorem Agree.mono {o' : Obj σ} (h : Agree i o o') (le : k ≤ i) : Agree k o o' :=
  fun j lt => h j (lt_of_lt_of_le lt le)

theorem Agree.trans {o' o'' : Obj σ} (h : Agree i o o') (h' : Agree i o' o'') : Agree i o o'' := by
  intro j lt
  obtain ⟨main, skipped, loops⟩ := h j lt
  obtain ⟨main', skipped', loops'⟩ := h' j lt
  exact ⟨main'.trans main, skipped'.trans skipped, loops'.trans loops⟩

/-- What a step has to undo depends on its own bits and counter only. -/
theorem Agree.step {o' : Obj σ} (h : Agree k o o') (lt : i < k) (st : Step σ) :
    owed st i o' = owed st i o ∧ (Counts st i o' ↔ Counts st i o) := by
  obtain ⟨main, skipped, loops⟩ := h i lt
  rw [owed, owed, Counts, Counts, main, skipped, loops]
  exact ⟨rfl, Iff.rfl⟩

theorem Agree.list {o' : Obj σ} (h : Agree k o o') (le : i + l.length ≤ k) :
    planFrom i l o' = planFrom i l o ∧ (Counted i l o' ↔ Counted i l o) := by
  induction l generalizing i with
  | nil => exact ⟨rfl, Iff.rfl⟩
  | cons st l ih =>
    rw [List.length_cons] at le
    obtain ⟨plan, counted⟩ := ih (i := i + 1) (by omega)
    obtain ⟨here, counts⟩ := h.step (i := i) (by omega) st
    simp only [planFrom, Counted, plan, counted, here, counts, and_self]

theorem planFrom_append (i : Nat) (l l' : List (Step σ)) (o : Obj σ) :
    planFrom i (l ++ l') o = planFrom (i + l.length) l' o ++ planFrom i l o := by
  induction l generalizing i with
  | nil => simp [planFrom]
  | cons st l ih =>
    rw [List.cons_append, planFrom, planFrom, ih, List.length_cons, List.append_assoc,
      Nat.add_right_comm, Nat.add_assoc]

theorem counted_append (i : Nat) (l l' : List (Step σ)) (o : Obj σ) :
    Counted i (l ++ l') o ↔ Counted i l o ∧ Counted (i + l.length) l' o := by
  induction l generalizing i with
  | nil => simp [Counted]
  | cons st l ih =>
    rw [List.cons_append, Counted, Counted, ih, List.length_cons, and_assoc, Nat.add_right_comm,
      Nat.add_assoc]

/-! ## Cleanup -/

theorem Ready.undone (h : Ready k o) (room : i < 32) (room' : k < 32) (ge : k ≤ i) :
    bitsGet o.main i = false := by
  rw [h.main, bitsGet_below room' room, decide_eq_false_iff_not]
  omega

theorem Ready.done (h : Ready k o) (room : k < 32) (lt : i < k) : bitsGet o.main i = true := by
  rw [h.main, bitsGet_below room (by omega), decide_eq_true_iff]
  exact lt

/-- A step that was not done is passed over. -/
theorem bwdStep_idle (idle : bitsGet o.main i = false) (n : Nat) : o.bwdStep st i n = .ok o := by
  simp [Obj.bwdStep, idle]

theorem bwdSteps_idle (h : Ready k o) (ge : k ≤ i) (room : i + l.length < 32) :
    o.bwdSteps i l = .ok o ∧ planFrom i l o = [] := by
  induction l generalizing i with
  | nil => exact ⟨rfl, rfl⟩
  | cons st l ih =>
    rw [List.length_cons] at room
    obtain ⟨rest, plan⟩ := ih (i := i + 1) (by omega) (by omega)
    have idle : bitsGet o.main i = false := h.undone (by omega) (by omega) ge
    constructor
    · rw [Obj.bwdSteps, rest]
      change (if st.loop then o.bwdLoop st i 0 (o.loops i).toNat else o.bwdStep st i 0) = _
      split
      · rw [h.loops i ge]
        change o.bwdLoop st i 0 0 = _
        rw [Obj.bwdLoop, if_pos (h.loops i ge)]
      · exact bwdStep_idle idle 0
    · rw [planFrom, plan, owed, idle]
      rfl

/-- After the last repetition of a step the bits of the step are cleared. -/
theorem bwdStep_last (st : Step σ) (n : Nat) (h : Ready (i + 1) o) (room : i + 1 < 32)
    (last : st.loop = true → bitsGet o.skipped i = false ∧ o.loops i = 1)
    (once : st.loop = false → o.loops i = 0) :
    ∃ o', o.bwdStep st i n = .ok o' ∧ Ready i o' ∧ Agree i o o' ∧
      o'.world = if bitsGet o.skipped i then o.world else st.undo n o.world := by
  have done : bitsGet o.main i = true := h.done room (Nat.lt_succ_self i)
  have cleared : bitsSet o.main i false = bitsValue i := by rw [h.main, bitsClear_below room]
  have agree : ∀ (loops : Nat → UInt32) (w : σ), (∀ j < i, loops j = o.loops j) →
      Agree i o ⟨bitsSet o.main i false, bitsSet o.skipped i false, loops, w⟩ := by
    intro loops w same j lt
    have ne : j ≠ i := by omega
    refine ⟨?_, ?_, same j lt⟩
    · rw [bitsGet_set _ (by omega), if_neg ne]
    · rw [bitsGet_set _ (by omega), if_neg ne]
  have ready : ∀ (loops : Nat → UInt32) (w : σ), (∀ j, i ≤ j → loops j = 0) →
      Ready i ⟨bitsSet o.main i false, bitsSet o.skipped i false, loops, w⟩ := by
    intro loops w zero
    refine ⟨cleared, fun j le => ?_, zero⟩
    rw [bitsGet_set _ (by omega)]
    split
    · rfl
    · exact h.skipped j (by omega)
  cases loop : st.loop with
  | true =>
    obtain ⟨wanted, one⟩ := last loop
    refine ⟨_, ?_, ready (Function.update o.loops i 0) (st.undo n o.world) ?_,
      agree _ _ fun j lt => Function.update_of_ne (by omega) _ _, ?_⟩
    · simp [Obj.bwdStep, wanted, done, loop, one, cleared]
    · intro j le
      by_cases same : j = i
      · rw [same, Function.update_self]
      · rw [Function.update_of_ne same]
        exact h.loops j (by omega)
    · rw [wanted]
      rfl
  | false =>
    refine ⟨_, ?_, ready o.loops (if bitsGet o.skipped i then o.world else st.undo n o.world) ?_,
      agree _ _ fun j lt => rfl, rfl⟩
    · cases skipped : bitsGet o.skipped i <;> simp [Obj.bwdStep, skipped, done, loop, cleared]
    · intro j le
      by_cases same : j = i
      · rw [same, once loop]
      · exact h.loops j (by omega)

/-- The iterations that are left of a loop are undone in turn. -/
theorem bwdLoop_undoes (h : Ready (i + 1) o) (room : i + 1 < 32) (loop : st.loop = true)
    (wanted : bitsGet o.skipped i = false) (some : 0 < left) (count : (o.loops i).toNat = left) :
    ∃ o', o.bwdLoop st i n left = .ok o' ∧ Ready i o' ∧ Agree i o o' ∧
      o'.world = Plan.follow ((List.range' n left).map st.undo) o.world := by
  have done : bitsGet o.main i = true := h.done room (Nat.lt_succ_self i)
  induction left generalizing n o with
  | zero => omega
  | succ left ih =>
    have nonzero : o.loops i ≠ 0 := by
      intro zero
      rw [zero] at count
      cases count
    rw [Obj.bwdLoop, if_neg nonzero]
    cases left with
    | zero =>
      have one : o.loops i = 1 := UInt32.toNat_inj.1 count
      obtain ⟨o', step, ready, agree, world⟩ := bwdStep_last st n h room
        (fun _ => ⟨wanted, one⟩) (fun no => absurd (loop.symm.trans no) (by decide))
      refine ⟨o', ?_, ready, agree, ?_⟩
      · rw [step]
        change o'.bwdLoop st i (n + 1) 0 = _
        rw [Obj.bwdLoop, if_pos (ready.loops i le_rfl)]
      · rw [world, wanted]
        rfl
    | succ left =>
      have more : o.loops i - 1 ≠ 0 := by
        intro zero
        have := congrArg UInt32.toNat zero
        rw [UInt32.toNat_sub_of_le _ _ (UInt32.le_iff_toNat_le.2 (by rw [count]; simp))] at this
        rw [count] at this
        simp at this
      have step : o.bwdStep st i n = .ok { o with
          world := st.undo n o.world, loops := Function.update o.loops i (o.loops i - 1) } := by
        simp [Obj.bwdStep, wanted, done, loop, more]
      have count' : (Function.update o.loops i (o.loops i - 1) i).toNat = left + 1 := by
        rw [Function.update_self,
          UInt32.toNat_sub_of_le _ _ (UInt32.le_iff_toNat_le.2 (by rw [count]; simp)), count]
        rfl
      have ready : Ready (i + 1) { o with
          world := st.undo n o.world, loops := Function.update o.loops i (o.loops i - 1) } := by
        refine ⟨h.main, h.skipped, fun j le => ?_⟩
        rw [← h.loops j le]
        exact Function.update_of_ne (by omega) _ _
      obtain ⟨o', rest, ready', agree, world⟩ := ih (n := n + 1) ready wanted (by omega) count' done
      refine ⟨o', ?_, ready', ?_, ?_⟩
      · rw [step]
        exact rest
      · intro j lt
        obtain ⟨main, skipped, loops⟩ := agree j lt
        refine ⟨main, skipped, loops.trans ?_⟩
        exact Function.update_of_ne (show j ≠ i by omega) _ _
      · rw [world]
        rfl

/-- A step that was done is undone. -/
theorem bwd_undoes (h : Ready (i + 1) o) (room : i + 1 < 32) (counts : Counts st i o) :
    ∃ o', (if st.loop then o.bwdLoop st i 0 (o.loops i).toNat else o.bwdStep st i 0) = .ok o' ∧
      Ready i o' ∧ Agree i o o' ∧ o'.world = (owed st i o).follow o.world := by
  have done : bitsGet o.main i = true := h.done room (Nat.lt_succ_self i)
  rw [Counts] at counts
  cases loop : st.loop with
  | true =>
    rw [if_pos loop] at counts
    obtain ⟨wanted, nonzero⟩ := counts done
    have some : 0 < (o.loops i).toNat :=
      Nat.pos_of_ne_zero fun zero => nonzero (UInt32.toNat_inj.1 zero)
    obtain ⟨o', run, ready, agree, world⟩ := bwdLoop_undoes (n := 0) h room loop wanted some rfl
    refine ⟨o', by rw [if_pos rfl, run], ready, agree, ?_⟩
    rw [world, owed, done, wanted, Stage.repetitions, List.range_eq_range', loop]
    rfl
  | false =>
    rw [if_neg (by rw [loop]; decide)] at counts
    obtain ⟨o', run, ready, agree, world⟩ := bwdStep_last st 0 h room
      (fun yes => absurd (loop.symm.trans yes) (by decide)) (fun _ => counts)
    refine ⟨o', by rw [if_neg (by decide), run], ready, agree, ?_⟩
    rw [world, owed, done, loop]
    cases bitsGet o.skipped i <;> rfl

theorem bwdSteps_undo (h : Ready k o) (ge : i ≤ k) (le : k ≤ i + l.length)
    (room : i + l.length < 32) (counted : Counted i l o) :
    ∃ o', o.bwdSteps i l = .ok o' ∧ Ready i o' ∧ Agree i o o' ∧
      o'.world = (planFrom i l o).follow o.world := by
  induction l generalizing i with
  | nil =>
    have same : k = i := le_antisymm le ge
    subst same
    exact ⟨o, rfl, h, .refl k o, rfl⟩
  | cons st l ih =>
    rw [List.length_cons] at le room
    rcases Nat.eq_or_lt_of_le ge with rfl | lt
    · obtain ⟨run, nothing⟩ := bwdSteps_idle h (l := st :: l) le_rfl
        (by rw [List.length_cons]; omega)
      exact ⟨o, run, h, .refl i o, by rw [nothing]; rfl⟩
    · obtain ⟨o₁, rest, ready, agree, world⟩ := ih (i := i + 1) lt (by omega) (by omega) counted.2
      obtain ⟨owed', counts⟩ := agree.step (Nat.lt_succ_self i) st
      obtain ⟨o', run, ready', agree', world'⟩ := bwd_undoes ready (by omega) (counts.2 counted.1)
      refine ⟨o', ?_, ready', (agree.mono (Nat.le_succ i)).trans agree', ?_⟩
      · rw [Obj.bwdSteps, rest]
        exact run
      · rw [world', owed', world, planFrom, Plan.follow_append]

/-! ## Init -/

/-- After `n` repetitions of step `i`. -/
structure Within (i n : Nat) (o : Obj σ) : Prop where
  main : o.main = if n = 0 then bitsValue i else bitsValue (i + 1)
  skipped : ∀ j, i ≤ j → bitsGet o.skipped j = false
  here : (o.loops i).toNat = n
  loops : ∀ j, i < j → o.loops j = 0

theorem Within.ready (h : Within i n o) : ∃ k, Ready k o ∧ i ≤ k ∧ k ≤ i + 1 ∧
    (n ≠ 0 → k = i + 1) := by
  cases n with
  | zero =>
    refine ⟨i, ⟨h.main, h.skipped, fun j le => ?_⟩, le_rfl, Nat.le_succ i, fun no => absurd rfl no⟩
    rcases Nat.eq_or_lt_of_le le with rfl | lt
    · exact UInt32.toNat_inj.1 h.here
    · exact h.loops j lt
  | succ n =>
    exact ⟨i + 1, ⟨h.main, fun j le => h.skipped j (by omega), fun j le => h.loops j le⟩,
      Nat.le_succ i, le_rfl, fun _ => rfl⟩

theorem Within.owed (h : Within i n o) (room : i + 1 < 32) (loop : st.loop = true) :
    owed st i o = st.repetitions n := by
  rw [Startup.owed, h.skipped i le_rfl, loop, if_pos rfl, h.here, h.main]
  cases n with
  | zero => simp [bitsGet_below, show i < 32 by omega, Stage.repetitions]
  | succ n => simp [bitsGet_below, room, show i < 32 by omega]

/-- One more repetition. -/
theorem fwdStep_loop (h : Within i n o) (room : i + 1 < 32) (loop : st.loop = true)
    (small : n + 1 < 2 ^ 32) :
    ∃ o', o.fwdStep st i n = .ok (o', (st.act n o.world).2) ∧ o'.world = (st.act n o.world).1 ∧
      Within i (if (st.act n o.world).2 then n + 1 else n) o' ∧ Agree i o o' := by
  cases act : (st.act n o.world).2 with
  | false =>
    refine ⟨{ o with world := (st.act n o.world).1 }, ?_, rfl, ?_, fun j lt => ⟨rfl, rfl, rfl⟩⟩
    · simp [Obj.fwdStep, st.always loop, act]
    · exact ⟨h.main, h.skipped, h.here, h.loops⟩
  | true =>
    have count : (o.loops i + 1).toNat = n + 1 := by
      rw [UInt32.toNat_add, h.here]
      exact Nat.mod_eq_of_lt small
    have zero : o.loops i = 0 ↔ n = 0 := by
      rw [← UInt32.toNat_inj, h.here]
      exact Iff.rfl
    refine ⟨⟨bitsValue (i + 1), o.skipped, Function.update o.loops i (o.loops i + 1),
      (st.act n o.world).1⟩, ?_, rfl, ?_, ?_⟩
    · have main := h.main
      simp only [Obj.fwdStep, st.always loop, act, loop, if_true, Obj.mark, zero]
      by_cases first : n = 0
      · rw [if_pos first] at main
        rw [if_pos first, main, if_pos rfl, bitsSet_below room]
      · rw [if_neg first] at main
        rw [if_neg first, main]
    · refine ⟨by simp, h.skipped, ?_, fun j lt => ?_⟩
      · simp only [Function.update_self, count, if_true]
      · exact (Function.update_of_ne (by omega) _ _).trans (h.loops j lt)
    · intro j lt
      refine ⟨?_, rfl, Function.update_of_ne (by omega) _ _⟩
      change bitsGet (bitsValue (i + 1)) j = bitsGet o.main j
      rw [h.main]
      split
      · rw [bitsGet_below room (by omega), bitsGet_below (by omega) (by omega)]
        simp [lt, Nat.lt_succ_of_lt lt]
      · rfl

theorem fwdLoop_loop (h : Within i n o) (room : i + 1 < 32) (loop : st.loop = true)
    (all : n + left = st.times) (p : Plan σ) :
    ∃ o' m, o.fwdLoop st i n left = .ok (o', (st.repeat' p n left o.world).ok) ∧
      o'.world = (st.repeat' p n left o.world).state ∧ Within i m o' ∧ Agree i o o' ∧
      (st.repeat' p n left o.world).plan = st.repetitions m ++ p ∧
      ((st.repeat' p n left o.world).ok = true → m = st.times) := by
  have small : st.times < 2 ^ 32 := by
    have fits := st.fits
    rw [if_pos loop] at fits
    exact fits.2
  induction left generalizing n o with
  | zero =>
    refine ⟨o, n, rfl, rfl, h, .refl i o, ?_, fun _ => by omega⟩
    rw [Stage.repeat', ← all, Nat.add_zero]
  | succ left ih =>
    obtain ⟨o₁, step, world, within, agree⟩ := fwdStep_loop h room loop (by omega)
    rw [Obj.fwdLoop, step]
    cases act : (st.act n o.world).2 with
    | false =>
      rw [act] at within
      simp only [Stage.repeat', act]
      exact ⟨o₁, n, rfl, world, within, agree, rfl, by simp⟩
    | true =>
      rw [act, if_pos rfl] at within
      obtain ⟨o', m, run, world', within', agree', plan, total⟩ := ih within (by omega)
      simp only [Stage.repeat', act, if_true]
      rw [world] at run world' plan total
      exact ⟨o', m, run, world', within', agree.trans agree', plan, total⟩

/-- What a step does to the plan, if it is wanted. -/
def forward (st : Step σ) (p : Plan σ) (w : σ) : Progress σ :=
  if st.wanted w then st.repeat' p 0 st.times w else ⟨w, p, true⟩

/-- What is left after a step, whether it went well or not. -/
structure Forwarded (st : Step σ) (i : Nat) (o o' : Obj σ) (p : Plan σ) : Prop where
  world : o'.world = (forward st p o.world).state
  agree : Agree i o o'
  plan : (forward st p o.world).plan = owed st i o' ++ p
  counts : Counts st i o'
  ready : ∃ k, Ready k o' ∧ i ≤ k ∧ k ≤ i + 1 ∧ ((forward st p o.world).ok = true → k = i + 1)

theorem fwd_loop (h : Ready i o) (room : i + 1 < 32) (loop : st.loop = true) (p : Plan σ) :
    ∃ o', o.fwdLoop st i 0 st.times = .ok (o', (forward st p o.world).ok) ∧
      Forwarded st i o o' p := by
  have wanted := st.always loop o.world
  have within : Within i 0 o :=
    ⟨h.main, h.skipped, by rw [h.loops i le_rfl]; rfl, fun j lt => h.loops j (by omega)⟩
  obtain ⟨o', m, run, world, within', agree, plan, total⟩ :=
    fwdLoop_loop within room loop (Nat.zero_add st.times) p
  have same : forward st p o.world = st.repeat' p 0 st.times o.world := if_pos wanted
  refine ⟨o', by rw [same]; exact run, ?_⟩
  constructor
  case world => rw [same]; exact world
  case agree => exact agree
  case plan => rw [same, plan, within'.owed room loop]
  case counts =>
    rw [Counts, if_pos loop]
    intro done
    refine ⟨within'.skipped i le_rfl, fun zero => ?_⟩
    have none : m = 0 := by rw [← within'.here, zero]; rfl
    rw [within'.main, if_pos none, bitsGet_below (by omega) (by omega)] at done
    simp at done
  case ready =>
    obtain ⟨k, ready, ge, le, full⟩ := within'.ready
    refine ⟨k, ready, ge, le, fun ok => full ?_⟩
    have fits := st.fits
    rw [if_pos loop] at fits
    rw [same] at ok
    rw [total ok]
    omega

theorem fwd_once (h : Ready i o) (room : i + 1 < 32) (loop : st.loop = false) (p : Plan σ) :
    ∃ o', o.fwdLoop st i 0 st.times = .ok (o', (forward st p o.world).ok) ∧
      Forwarded st i o o' p := by
  have once : st.times = 1 := by
    have fits := st.fits
    rwa [if_neg (by rw [loop]; decide)] at fits
  have agree : ∀ (skipped : Field) (w : σ),
      (∀ j < i, bitsGet skipped j = bitsGet o.skipped j) →
      Agree i o ⟨bitsValue (i + 1), skipped, o.loops, w⟩ := by
    intro skipped w same j lt
    refine ⟨?_, same j lt, rfl⟩
    change bitsGet (bitsValue (i + 1)) j = _
    rw [h.main, bitsGet_below room (by omega), bitsGet_below (by omega) (by omega)]
    simp [lt, Nat.lt_succ_of_lt lt]
  have counts : ∀ o' : Obj σ, o'.loops = o.loops → Counts st i o' := by
    intro o' same
    rw [Counts, if_neg (by rw [loop]; decide), same]
    exact h.loops i le_rfl
  have marked : ∀ (skipped : Field) (w : σ), (⟨o.main, skipped, o.loops, w⟩ : Obj σ).mark i 0 =
      .ok (⟨bitsValue (i + 1), skipped, o.loops, w⟩, true) := by
    intro skipped w
    rw [Obj.mark, if_pos rfl, if_pos h.main, h.main, bitsSet_below room]
  have after : ∀ j, i + 1 ≤ j → o.loops j = 0 := fun j le => h.loops j (by omega)
  rw [once, Obj.fwdLoop]
  cases wanted : st.wanted o.world with
  | false =>
    have same : forward st p o.world = ⟨o.world, p, true⟩ := by
      rw [forward, if_neg (by rw [wanted]; decide)]
    refine ⟨⟨bitsValue (i + 1), bitsSet o.skipped i true, o.loops, o.world⟩, ?_, ?_⟩
    · rw [same, Obj.fwdStep, if_neg (by rw [wanted]; decide), marked]
      rfl
    · constructor
      case world => rw [same]
      case agree =>
        refine agree _ _ fun j lt => ?_
        rw [bitsGet_set _ (by omega), if_neg (by omega)]
      case plan =>
        rw [same, owed]
        simp [bitsGet_set _ (show i < 32 by omega)]
      case counts => exact counts _ rfl
      case ready =>
        refine ⟨i + 1, ⟨rfl, fun j le => ?_, after⟩, Nat.le_succ i, le_rfl, fun _ => rfl⟩
        rw [bitsGet_set _ (by omega), if_neg (by omega)]
        exact h.skipped j (by omega)
  | true =>
    have same : forward st p o.world = st.repeat' p 0 1 o.world := by
      rw [forward, if_pos wanted, once]
    cases act : (st.act 0 o.world).2 with
    | false =>
      have failed : forward st p o.world = ⟨(st.act 0 o.world).1, p, false⟩ := by
        rw [same, Stage.repeat', if_neg (by rw [act]; decide)]
        rfl
      refine ⟨{ o with world := (st.act 0 o.world).1 }, ?_, ?_⟩
      · rw [failed, Obj.fwdStep, if_pos wanted]
        simp only [act]
        rfl
      · constructor
        case world => rw [failed]
        case agree => exact fun j lt => ⟨rfl, rfl, rfl⟩
        case plan =>
          rw [failed, owed]
          simp [h.undone (i := i) (by omega) (by omega) le_rfl]
        case counts => exact counts _ rfl
        case ready =>
          refine ⟨i, ⟨h.main, h.skipped, h.loops⟩, le_rfl, Nat.le_succ i, fun ok => ?_⟩
          rw [failed] at ok
          cases ok
    | true =>
      have done : forward st p o.world =
          ⟨(st.act 0 o.world).1, st.repetitions 1 ++ p, true⟩ := by
        rw [same, Stage.repeat', if_pos act, Stage.repeat', once]
      refine ⟨⟨bitsValue (i + 1), o.skipped, o.loops, (st.act 0 o.world).1⟩, ?_, ?_⟩
      · rw [done, Obj.fwdStep, if_pos wanted]
        simp only [act, loop, if_true, Bool.false_eq_true, if_false]
        rw [marked]
        rfl
      · constructor
        case world => rw [done]
        case agree => exact agree _ _ fun j lt => rfl
        case plan =>
          rw [done, owed, loop, h.skipped i le_rfl]
          simp [bitsGet_below room (show i < 32 by omega)]
        case counts => exact counts _ rfl
        case ready =>
          exact ⟨i + 1, ⟨rfl, fun j le => h.skipped j (by omega), after⟩, Nat.le_succ i, le_rfl,
            fun _ => rfl⟩

theorem fwd_forwards (h : Ready i o) (room : i + 1 < 32) (st : Step σ) (p : Plan σ) :
    ∃ o', o.fwdLoop st i 0 st.times = .ok (o', (forward st p o.world).ok) ∧
      Forwarded st i o o' p := by
  cases loop : st.loop with
  | true => exact fwd_loop h room loop p
  | false => exact fwd_once h room loop p

/-! ## All steps -/

theorem perform_cons (st : Step σ) (l : List (Step σ)) (p : Plan σ) (w : σ) :
    Stage.perform ((st :: l).map Step.toStage) p w =
      if (forward st p w).ok then
        Stage.perform (l.map Step.toStage) (forward st p w).plan (forward st p w).state
      else forward st p w := by
  rw [List.map_cons, Stage.perform, forward]
  cases st.wanted w <;> rfl

theorem counted_idle (h : Ready k o) (ge : k ≤ i) (room : i + l.length < 32) :
    Counted i l o := by
  induction l generalizing i with
  | nil => trivial
  | cons st l ih =>
    rw [List.length_cons] at room
    refine ⟨?_, ih (by omega) (by omega)⟩
    rw [Counts]
    split
    · intro done
      rw [h.undone (by omega) (by omega) ge] at done
      cases done
    · exact h.loops i ge

/-- What a cleanup will find: the steps below `k` done, and what the plan has of them. -/
structure Kept (l : List (Step σ)) (k : Nat) (o : Obj σ) (p : Plan σ) : Prop where
  ready : Ready k o
  le : k ≤ l.length
  counted : Counted 0 l o
  plan : planFrom 0 l o = p

theorem Kept.extend {o' : Obj σ} (h : Kept pre pre.length o p)
    (fwd : Forwarded st pre.length o o' p) :
    ∃ k, Kept (pre ++ [st]) k o' (forward st p o.world).plan ∧ pre.length ≤ k ∧
      ((forward st p o.world).ok = true → k = pre.length + 1) := by
  obtain ⟨k, ready, ge, le, full⟩ := fwd.ready
  obtain ⟨plan, counted⟩ := fwd.agree.list (i := 0) (l := pre) (by omega)
  refine ⟨k, ⟨ready, by simpa using le, ?_, ?_⟩, ge, full⟩
  · rw [counted_append]
    exact ⟨counted.2 h.counted, by simpa [Counted] using fwd.counts⟩
  · rw [planFrom_append, plan, h.plan, fwd.plan]
    simp [planFrom]

/-- Steps that were not reached add nothing. -/
theorem Kept.append (h : Kept pre k o p) (room : pre.length + l.length < 32) :
    Kept (pre ++ l) k o p := by
  have idle := bwdSteps_idle h.ready (l := l) h.le room
  refine ⟨h.ready, by rw [List.length_append]; exact Nat.le_add_right_of_le h.le, ?_, ?_⟩
  · rw [counted_append, Nat.zero_add]
    exact ⟨h.counted, counted_idle h.ready h.le room⟩
  · rw [planFrom_append, Nat.zero_add, idle.2, h.plan]
    rfl

/-- The steps of an init from some step on. Whether it went well or not, setting the last bit makes
of the object that is left what a cleanup will find. -/
theorem fwdSteps_perform (pre : List (Step σ)) (room : pre.length + l.length < 31)
    (h : Kept pre pre.length o p) :
    ∃ o' o₀ k, o.fwdSteps pre.length l =
        .ok (o', (Stage.perform (l.map Step.toStage) p o.world).ok) ∧
      Kept (pre ++ l) k o₀ (Stage.perform (l.map Step.toStage) p o.world).plan ∧
      o₀.world = (Stage.perform (l.map Step.toStage) p o.world).state ∧
      { o' with main := bitsSet o'.main (pre ++ l).length true } =
        { o₀ with main := bitsSet o₀.main (pre ++ l).length true } := by
  induction l generalizing pre o p with
  | nil =>
    refine ⟨{ o with main := bitsSet o.main pre.length true }, o, pre.length, ?_, ?_, rfl, ?_⟩
    · rw [Obj.fwdSteps, Obj.mark, if_pos rfl, if_pos h.ready.main]
      rfl
    · exact h.append (l := []) (by omega)
    · have twice : bitsSet (bitsSet o.main pre.length true) pre.length true =
          bitsSet o.main pre.length true := by
        apply field_ext
        intro n _
        rw [bitsGet_set _ (by omega)]
        split
        case isTrue same => rw [same, bitsGet_set _ (by omega), if_pos rfl]
        case isFalse => rfl
      simp only [List.append_nil, twice]
  | cons st l ih =>
    rw [List.length_cons] at room
    obtain ⟨o₁, run, fwd⟩ := fwd_forwards h.ready (by omega) st p
    obtain ⟨k, kept, -, full⟩ := h.extend fwd
    rw [Obj.fwdSteps, run, perform_cons]
    have split : pre ++ st :: l = (pre ++ [st]) ++ l := by simp
    have next : (pre ++ [st]).length = pre.length + 1 := by simp
    cases ok : (forward st p o.world).ok with
    | true =>
      rw [full ok, ← next] at kept
      obtain ⟨o', o₀, k', run', kept', world, same⟩ := ih _ (by omega) kept
      rw [if_pos rfl, ← fwd.world, split]
      refine ⟨o', o₀, k', ?_, kept', world, same⟩
      rw [next] at run'
      exact run'
    | false =>
      rw [if_neg (by decide), split]
      refine ⟨o₁, o₁, k, ?_, kept.append (by omega), fwd.world, rfl⟩
      rw [ok]
      rfl

/-- No step is done and no loop has a counter. -/
structure Fresh (o : Obj σ) : Prop where
  main : o.main = 0
  skipped : o.skipped = 0
  loops : ∀ i, o.loops i = 0

theorem Ready.fresh (h : Ready 0 o) : Fresh o := by
  refine ⟨h.main, ?_, fun i => h.loops i (Nat.zero_le i)⟩
  apply field_ext
  intro n _
  rw [h.skipped n (Nat.zero_le n), bitsGet_zero]

theorem Kept.cleanup (h : Kept l k o p) (room : l.length < 31) (w : σ) :
    ∃ o', Obj.cleanup l ⟨bitsSet o.main l.length true, o.skipped, o.loops, w⟩ = .ok o' ∧
      Fresh o' ∧ o'.world = p.follow w := by
  have last : bitsGet o.main l.length = false := h.ready.undone (by omega) (by have := h.le; omega)
    h.le
  have back : bitsSet (bitsSet o.main l.length true) l.length false = o.main := by
    apply field_ext
    intro n _
    rw [bitsGet_set _ (by omega)]
    split
    case isTrue same => rw [same, last]
    case isFalse other => rw [bitsGet_set _ (by omega), if_neg other]
  have agree : Agree 32 o ⟨o.main, o.skipped, o.loops, w⟩ := fun _ _ => ⟨rfl, rfl, rfl⟩
  obtain ⟨plan, counted⟩ := agree.list (i := 0) (l := l) (by omega)
  obtain ⟨o', run, ready, -, world⟩ := bwdSteps_undo (i := 0) (l := l) (k := k)
    (o := ⟨o.main, o.skipped, o.loops, w⟩) ⟨h.ready.main, h.ready.skipped, h.ready.loops⟩
    (Nat.zero_le k) (by rw [Nat.zero_add]; exact h.le) (by omega) (counted.2 h.counted)
  refine ⟨o', ?_, ready.fresh, by rw [world, plan, h.plan]⟩
  have set : bitsGet (bitsSet o.main l.length true) l.length = true := by
    rw [bitsGet_set _ (by omega), if_pos rfl]
  simp only [Obj.cleanup, set, back, if_true, run]
  exact if_pos ⟨ready.fresh.main, ready.fresh.skipped⟩

/-- An object that is fresh is not cleaned up. -/
theorem Fresh.cleanup (h : Fresh o) (l : List (Step σ)) :
    o.cleanup l = .error .unexpectedCleanup := by
  rw [Obj.cleanup, h.main, bitsGet_zero]
  rfl

/-- The state of an object after an init that went well. -/
structure Inited (l : List (Step σ)) (o : Obj σ) (p : Plan σ) : Prop where
  cleanup : ∀ w, ∃ o', { o with world := w }.cleanup l = .ok o' ∧ Fresh o' ∧ o'.world = p.follow w

theorem Fresh.init (h : Fresh o) (l : List (Step σ)) (room : l.length < 31) :
    ∃ o', o.init l = .ok (o', (Stage.attempt (l.map Step.toStage) o.world).ok) ∧
      o'.world = (Stage.attempt (l.map Step.toStage) o.world).state ∧
      ((Stage.attempt (l.map Step.toStage) o.world).ok = true →
        Inited l o' (Stage.attempt (l.map Step.toStage) o.world).plan) ∧
      ((Stage.attempt (l.map Step.toStage) o.world).ok = false → Fresh o') := by
  have ready : Ready 0 ({ o with main := 0, skipped := 0 } : Obj σ) :=
    ⟨rfl, fun j _ => bitsGet_zero j, fun j _ => h.loops j⟩
  have kept : Kept [] 0 ({ o with main := 0, skipped := 0 } : Obj σ) ([] : Plan σ) :=
    ⟨ready, le_rfl, trivial, rfl⟩
  obtain ⟨o', o₀, k, run, kept', world, same⟩ :=
    fwdSteps_perform (l := l) [] (by simpa using room) kept
  rw [List.nil_append] at kept' same
  have cleaned := kept'.cleanup room
  have start : Obj.init l o = (do
      if (Stage.perform (l.map Step.toStage) [] o.world).ok then
        return ({ o₀ with main := bitsSet o₀.main l.length true }, true)
      else return (← Obj.cleanup l { o₀ with main := bitsSet o₀.main l.length true }, false)) := by
    rw [← same, Obj.init]
    change (Obj.fwdSteps ([] : List (Step σ)).length l ⟨0, 0, o.loops, o.world⟩ >>= _) = _
    rw [run]
    rfl
  cases ok : (Stage.perform (l.map Step.toStage) [] o.world).ok with
  | true =>
    have all : Stage.attempt (l.map Step.toStage) o.world =
        Stage.perform (l.map Step.toStage) [] o.world := if_pos ok
    rw [start, all, ok]
    exact ⟨_, rfl, world, fun _ => ⟨cleaned⟩, nofun⟩
  | false =>
    have none : Stage.attempt (l.map Step.toStage) o.world =
        ⟨Plan.follow (Stage.perform (l.map Step.toStage) [] o.world).plan
          (Stage.perform (l.map Step.toStage) [] o.world).state, [], false⟩ :=
      if_neg (by rw [ok]; decide)
    obtain ⟨o'', clean, fresh, world'⟩ := cleaned o₀.world
    rw [start, none, ok]
    refine ⟨o'', ?_, by rw [world', world], nofun, fun _ => fresh⟩
    simp only [Bool.false_eq_true, if_false]
    rw [clean]
    rfl

end Wave300.Startup
