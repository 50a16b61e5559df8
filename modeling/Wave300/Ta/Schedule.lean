import Mathlib.Algebra.Order.Ring.Int
import Wave300.Ta.Criteria

/-!
# The schedule of the criteria

The periods follow the configured intervals, except that a change of the resolution leaves the
period of the PCoC criterion as it is.
-/

namespace Wave300.Ta

open Lib

variable {ta : TrafAnalyzer} {c : CritId}

/-- The criteria that can be started. -/
def Startable (c : CritId) : Prop := c = .coc ∨ c = .pcoc

instance (c : CritId) : Decidable (Startable c) := inferInstanceAs (Decidable (_ ∨ _))

/-- Intervals are below `2 ^ 20`, and a criterion is configured before it is started. -/
def Enabled (ta : TrafAnalyzer) : Op → Prop
  | .cocCfg interval | .pcocCfg interval => interval < 2 ^ 20
  | .start c => Startable c ∧ (ta.crit c).tmrPeriod ≠ 0
  | .stop c | .register c | .unregister c => Startable c
  | .setResolution _ | .tick => True

instance (ta : TrafAnalyzer) : ∀ op : Op, Decidable (Enabled ta op)
  | .cocCfg _ | .pcocCfg _ => inferInstanceAs (Decidable (_ < _))
  | .start _ => inferInstanceAs (Decidable (_ ∧ _))
  | .stop _ | .register _ | .unregister _ => inferInstanceAs (Decidable (Startable _))
  | .setResolution _ | .tick => .isTrue trivial

def TrafAnalyzer.started (ta : TrafAnalyzer) (c : CritId) : Bool := (ta.crit c).fcn.isSome

/-- The period of an interval, at a resolution. -/
def periodOf (interval res : Nat) : Nat := max 1 (interval * tickMsec / res)

/-- The active criteria are counted, and the timer is armed for them. -/
structure Counted (ta : TrafAnalyzer) : Prop where
  startable : ∀ c, ta.started c = true → Startable c
  activeCritNum : ta.activeCritNum = CritId.all.countP ta.started
  timer : ta.timer = true ↔ 0 < ta.activeCritNum
  counter : ∀ c, ta.started c = true → (ta.crit c).tmrCnt < (ta.crit c).tmrPeriod

/-- The configuration of the CoC criterion and its period. -/
structure CocKept (ta : TrafAnalyzer) : Prop where
  resolution : 0 < ta.timerResMs ∧ ta.timerResMs ≤ taTimerMaxValueInTicks * taTimerMsPerTick
  interval : ta.cocCfg.interval < 2 ^ 20
  period : ta.cocCfg.interval ≠ 0 →
    (ta.crit .coc).tmrPeriod = periodOf ta.cocCfg.interval ta.timerResMs
  unset : ta.cocCfg.interval = 0 → (ta.crit .coc).tmrPeriod = 0

structure PcocKept (ta : TrafAnalyzer) : Prop where
  interval : ta.pcocCfg.interval < 2 ^ 20
  period : ta.pcocCfg.interval ≠ 0 →
    (ta.crit .pcoc).tmrPeriod = periodOf ta.pcocCfg.interval ta.timerResMs
  unset : ta.pcocCfg.interval = 0 → (ta.crit .pcoc).tmrPeriod = 0

theorem u32_of_lt {n : Nat} (small : n < 2 ^ 20) : u32 (n * tickMsec) = n * tickMsec := by
  simp only [u32, tickMsec]
  omega

theorem started_setCrit {d : CritId} {crit : Crit} :
    (ta.setCrit c crit).started d = if d = c then crit.fcn.isSome else ta.started d := by
  simp only [TrafAnalyzer.started, TrafAnalyzer.setCrit, Function.update_apply]
  split <;> rfl

/-- The number of started criteria, by the two that can be started. -/
theorem countP_started (startable : ∀ c, ta.started c = true → Startable c) :
    CritId.all.countP ta.started = (ta.started .coc).toNat + (ta.started .pcoc).toNat := by
  have aocs : ta.started .aocs = false := by
    by_contra on
    exact absurd (startable .aocs (by simpa using on)) (by decide)
  have dagg : ta.started .dagg = false := by
    by_contra on
    exact absurd (startable .dagg (by simpa using on)) (by decide)
  simp only [CritId.all, List.countP_cons, List.countP_nil, aocs, dagg]
  cases ta.started .coc <;> cases ta.started .pcoc <;> rfl

theorem Counted.set {crit : Crit} (h : Counted ta) (same : crit.fcn.isSome = ta.started c)
    (counter : crit.fcn.isSome = true → crit.tmrCnt < crit.tmrPeriod) :
    Counted (ta.setCrit c crit) := by
  have started : ∀ d, (ta.setCrit c crit).started d = ta.started d := by
    intro d
    rw [started_setCrit]
    split
    next is => rw [same, is]
    next => rfl
  constructor
  case startable =>
    intro d on
    exact h.startable d (started d ▸ on)
  case activeCritNum =>
    rw [show (ta.setCrit c crit).started = ta.started from funext started]
    exact h.activeCritNum
  case timer => exact h.timer
  case counter =>
    intro d on
    by_cases is : d = c
    · subst is
      simp only [TrafAnalyzer.started, TrafAnalyzer.setCrit, Function.update_self] at on ⊢
      exact counter on
    · rw [started] at on
      simp only [TrafAnalyzer.setCrit, Function.update_of_ne is]
      exact h.counter d on

theorem configure_started (crit : Crit) (period : Nat) :
    (crit.configure period).fcn.isSome = crit.fcn.isSome := by
  unfold Crit.configure
  split
  next on => rw [on]; rfl
  next => rfl

theorem configure_period (crit : Crit) (period : Nat) :
    (crit.configure period).tmrPeriod = period := by
  unfold Crit.configure
  split <;> rfl

theorem configure_counter {crit : Crit} {period : Nat} (positive : 0 < period)
    (on : (crit.configure period).fcn.isSome = true) :
    (crit.configure period).tmrCnt < (crit.configure period).tmrPeriod := by
  rw [configure_started] at on
  simp only [Crit.configure, on, if_true]
  omega

/-- An interval that is not shorter than the resolution. -/
theorem period_pos {interval res : Nat} (positive : 0 < res) (small : interval < 2 ^ 20)
    (accepted : ¬ u32 (interval * tickMsec) < res) :
    u32 (tickMsec * interval) / res = periodOf interval res ∧ 0 < periodOf interval res ∧
      interval ≠ 0 := by
  rw [u32_of_lt small] at accepted
  have one : 1 ≤ interval * tickMsec / res := (Nat.one_le_div_iff positive).2 (by omega)
  refine ⟨?_, Nat.lt_of_lt_of_le Nat.one_pos (Nat.le_max_left ..), ?_⟩
  · rw [periodOf, Nat.mul_comm tickMsec, u32_of_lt small]
    omega
  · rintro rfl
    simp at one

/-- A period fits its counter. -/
theorem periodOf_lt {interval res : Nat} (small : interval < 2 ^ 20) :
    periodOf interval res < 2 ^ 32 := by
  have le : interval * tickMsec / res ≤ interval * tickMsec := Nat.div_le_self ..
  simp only [periodOf, tickMsec] at le ⊢
  omega

theorem Counted.configured {interval res : Nat} (h : Counted ta) (positive : 0 < res)
    (small : interval < 2 ^ 20) (accepted : ¬ u32 (interval * tickMsec) < res) (c : CritId) :
    Counted (ta.setCrit c ((ta.crit c).configure (u32 (tickMsec * interval) / res))) := by
  obtain ⟨is, period, -⟩ := period_pos positive small accepted
  refine h.set (configure_started _ _) ?_
  rw [is]
  exact configure_counter period

theorem counted_coc {interval : Nat} (h : Counted ta) (positive : 0 < ta.timerResMs)
    (small : interval < 2 ^ 20) : Counted (mtlkTaCocCfg interval ta).1 := by
  unfold mtlkTaCocCfg
  split
  · exact h
  next accepted =>
    refine Counted.configured ?_ positive small accepted .coc
    exact ⟨h.startable, h.activeCritNum, h.timer, h.counter⟩

theorem counted_pcoc {interval : Nat} (h : Counted ta) (positive : 0 < ta.timerResMs)
    (small : interval < 2 ^ 20) : Counted (mtlkTaPcocCfg interval ta).1 := by
  unfold mtlkTaPcocCfg
  split
  · exact h
  next accepted =>
    refine Counted.configured ?_ positive small accepted .pcoc
    exact ⟨h.startable, h.activeCritNum, h.timer, h.counter⟩

theorem u32_ticks {ticks : Nat} (high : ticks ≤ taTimerMaxValueInTicks) :
    u32 (ticks * taTimerMsPerTick) = ticks * taTimerMsPerTick := by
  simp only [u32, taTimerMsPerTick, taTimerMaxValueInTicks] at high ⊢
  omega

/-- The resolution is set, and the CoC criterion follows it; the PCoC criterion does not. -/
theorem setResolution_cases (h : CocKept ta) (ticks : Nat) :
    mtlkTaSetTimerResolutionTicks ticks ta = (ta, false) ∨
      (0 < ticks * taTimerMsPerTick ∧
        ticks * taTimerMsPerTick ≤ taTimerMaxValueInTicks * taTimerMsPerTick ∧
        ticks * taTimerMsPerTick ≤ ta.cocCfg.interval * tickMsec) ∧
      mtlkTaSetTimerResolutionTicks ticks ta =
        ((mtlkTaCocCfg ta.cocCfg.interval { ta with timerResMs := ticks * taTimerMsPerTick }).1,
          true) := by
  unfold mtlkTaSetTimerResolutionTicks
  split
  next accepted =>
    obtain ⟨⟨low, high⟩, coc⟩ := accepted
    have ms := u32_ticks high
    rw [ms, u32_of_lt h.interval] at coc
    refine .inr ⟨⟨?_, Nat.mul_le_mul_right _ high, coc⟩, by rw [ms]⟩
    simp only [taTimerMsPerTick]
    omega
  · exact .inl rfl

/-- One criterion is started or stopped. -/
theorem Counted.switch {crit : Crit} {active : Nat} {timer : Bool} (h : Counted ta)
    (startable : Startable c) (counter : crit.fcn.isSome = true → crit.tmrCnt < crit.tmrPeriod)
    (count : active + (ta.started c).toNat = ta.activeCritNum + crit.fcn.isSome.toNat)
    (armed : timer = true ↔ 0 < active) :
    Counted ({ ta with activeCritNum := active, timer := timer }.setCrit c crit) := by
  have all : ∀ d, ({ ta with activeCritNum := active, timer := timer }.setCrit c crit).started d =
      if d = c then crit.fcn.isSome else ta.started d := fun d => started_setCrit
  have still : ∀ d, ({ ta with activeCritNum := active, timer := timer }.setCrit c crit).started d =
      true → Startable d := by
    intro d on
    rw [all] at on
    split at on
    next is => exact is ▸ startable
    next => exact h.startable d on
  refine ⟨still, ?_, armed, ?_⟩
  · have before := h.activeCritNum
    rw [countP_started h.startable] at before
    rw [countP_started still, all, all]
    change active = _
    obtain rfl | rfl := startable
    · simp only [if_true, reduceCtorEq, if_false]
      omega
    · simp only [if_true, reduceCtorEq, if_false]
      omega
  · intro d on
    rw [all] at on
    by_cases is : d = c
    · subst is
      rw [if_pos rfl] at on
      simp only [TrafAnalyzer.setCrit, Function.update_self]
      exact counter on
    · rw [if_neg is] at on
      simp only [TrafAnalyzer.setCrit, Function.update_of_ne is]
      exact h.counter d on

theorem Counted.active_pos (h : Counted ta) (on : ta.started c = true) : 0 < ta.activeCritNum := by
  rw [h.activeCritNum, List.countP_pos_iff]
  refine ⟨c, ?_, on⟩
  cases c <;> simp [CritId.all]

theorem counted_start (h : Counted ta) (startable : Startable c)
    (period : (ta.crit c).tmrPeriod ≠ 0) :
    Counted (mtlkTaCritStart c ta) := by
  by_cases on : ta.started c = true
  · have active := h.active_pos on
    have some : (ta.crit c).fcn.isSome = true := on
    simp only [mtlkTaCritStart, active.ne', if_false, some, if_true]
    exact h
  · have off : (ta.crit c).fcn.isSome = false := by simpa [TrafAnalyzer.started] using on
    have same : mtlkTaCritStart c ta =
        { ta with activeCritNum := ta.activeCritNum + 1, timer := true }.setCrit c
          { ta.crit c with fcn := some .critInit, tmrCnt := (ta.crit c).tmrPeriod - 1 } := by
      have fcn : c.initFcn (ta.crit c).fcn = some .critInit := by
        obtain rfl | rfl := startable <;> rfl
      unfold mtlkTaCritStart
      by_cases none : ta.activeCritNum = 0
      · simp only [none, if_true, off, Bool.false_eq_true, if_false, fcn]
      · have armed : ta.timer = true := h.timer.2 (Nat.pos_of_ne_zero none)
        simp only [none, if_false, off, Bool.false_eq_true, fcn, armed]
    rw [same]
    refine h.switch startable ?_ ?_ (by simp)
    · intro _
      exact Nat.sub_lt (Nat.pos_of_ne_zero period) Nat.one_pos
    · simp [TrafAnalyzer.started, off]

theorem counted_stop (h : Counted ta) (startable : Startable c) :
    Counted (mtlkTaCritStop c ta) := by
  by_cases on : ta.started c = true
  · have active := h.active_pos on
    have some : (ta.crit c).fcn.isSome = true := on
    have same : mtlkTaCritStop c ta =
        { ta with
            activeCritNum := ta.activeCritNum - 1
            timer := decide (0 < ta.activeCritNum - 1) }.setCrit c
          { ta.crit c with fcn := none } := by
      unfold mtlkTaCritStop
      simp only [some, if_true]
      by_cases last : ta.activeCritNum - 1 = 0
      · simp [TrafAnalyzer.setCrit, last]
      · have armed : ta.timer = true := h.timer.2 active
        have rest := decide_eq_true (Nat.pos_of_ne_zero last)
        simp only [TrafAnalyzer.setCrit, if_neg last, armed, rest]
    rw [same]
    refine h.switch startable (by simp) ?_ (by simp)
    simp only [on, Bool.toNat_true, Option.isSome_none, Bool.toNat_false]
    omega
  · have off : (ta.crit c).fcn.isSome = false := by simpa [TrafAnalyzer.started] using on
    unfold mtlkTaCritStop
    simp only [off, Bool.false_eq_true, if_false]
    split
    next none => exact ⟨h.startable, h.activeCritNum, by simp [none], h.counter⟩
    · exact h

theorem counted_register (h : Counted ta) : Counted (mtlkTaCritRegister c ta).1 := by
  simp only [mtlkTaCritRegister]
  split
  · exact h
  · exact h.set rfl (h.counter c)

theorem counted_unregister (h : Counted ta) (startable : Startable c) :
    Counted (mtlkTaCritUnregister c ta) :=
  have stopped := counted_stop h startable
  stopped.set rfl (stopped.counter c)

/-- A tick keeps a criterion started, its period, and its counter below it. -/
theorem tick_kept (crit : Crit) : crit.tick.1.fcn.isSome = crit.fcn.isSome ∧
    crit.tick.1.tmrPeriod = crit.tmrPeriod ∧ crit.tick.1.clb = crit.clb ∧
    (crit.tmrCnt < crit.tmrPeriod → crit.tick.1.tmrCnt < crit.tmrPeriod) := by
  unfold Crit.tick
  split
  next => exact ⟨rfl, rfl, rfl, id⟩
  next fcn on =>
    split
    · exact ⟨rfl, rfl, rfl, id⟩
    · split
      · refine ⟨by simp [on], rfl, rfl, ?_⟩
        exact fun below => Nat.zero_lt_of_lt below
      next early =>
        refine ⟨rfl, rfl, rfl, ?_⟩
        intro below
        have le : u32 (crit.tmrCnt + 1) ≤ crit.tmrCnt + 1 := Nat.mod_le ..
        simp only
        omega

theorem counted_tick (h : Counted ta) : Counted (taTimer ta) := by
  have started : (taTimer ta).started = ta.started := by
    funext c
    exact (tick_kept (ta.crit c)).1
  constructor
  case startable =>
    intro c on
    exact h.startable c (started ▸ on)
  case activeCritNum =>
    rw [started]
    exact h.activeCritNum
  case timer => exact h.timer
  case counter =>
    intro c on
    rw [started] at on
    obtain ⟨-, period, -, below⟩ := tick_kept (ta.crit c)
    exact (below (h.counter c on)).trans_eq period.symm

end Wave300.Ta
