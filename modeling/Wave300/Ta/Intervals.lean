import Wave300.Ta.Schedule

/-!
# Intervals and resolution

The period of the CoC criterion follows its interval and the resolution. The period of the PCoC
criterion follows its interval and the resolution at which it was configured.
-/

namespace Wave300.Ta

open Lib

variable {ta ta' : TrafAnalyzer} {c : CritId} {op : Op}

/-- No period, interval or resolution changes. -/
structure SameSchedule (ta ta' : TrafAnalyzer) : Prop where
  timerResMs : ta'.timerResMs = ta.timerResMs
  cocCfg : ta'.cocCfg = ta.cocCfg
  pcocCfg : ta'.pcocCfg = ta.pcocCfg
  period : ∀ c, (ta'.crit c).tmrPeriod = (ta.crit c).tmrPeriod

theorem SameSchedule.trans {ta'' : TrafAnalyzer} (h : SameSchedule ta ta')
    (h' : SameSchedule ta' ta'') : SameSchedule ta ta'' where
  timerResMs := h'.timerResMs.trans h.timerResMs
  cocCfg := h'.cocCfg.trans h.cocCfg
  pcocCfg := h'.pcocCfg.trans h.pcocCfg
  period c := (h'.period c).trans (h.period c)

theorem same_set {crit : Crit} (period : crit.tmrPeriod = (ta.crit c).tmrPeriod) :
    SameSchedule ta (ta.setCrit c crit) := by
  refine ⟨rfl, rfl, rfl, ?_⟩
  intro d
  by_cases is : d = c
  · subst is
    simpa [TrafAnalyzer.setCrit] using period
  · simp [TrafAnalyzer.setCrit, is]

theorem same_start : SameSchedule ta (mtlkTaCritStart c ta) := by
  have armed :
      SameSchedule ta (if ta.activeCritNum = 0 then { ta with timer := true } else ta) := by
    split <;> exact ⟨rfl, rfl, rfl, fun _ => rfl⟩
  simp only [mtlkTaCritStart]
  generalize (if ta.activeCritNum = 0 then { ta with timer := true } else ta) = ta' at armed
  split
  · exact armed
  · have counted : SameSchedule ta' { ta' with activeCritNum := ta'.activeCritNum + 1 } :=
      ⟨rfl, rfl, rfl, fun _ => rfl⟩
    exact (armed.trans counted).trans (same_set rfl)

theorem same_stop : SameSchedule ta (mtlkTaCritStop c ta) := by
  have stopped : SameSchedule ta (if (ta.crit c).fcn.isSome then
      { ta with activeCritNum := ta.activeCritNum - 1 }.setCrit c { ta.crit c with fcn := none }
    else ta) := by
    split
    · have counted : SameSchedule ta { ta with activeCritNum := ta.activeCritNum - 1 } :=
        ⟨rfl, rfl, rfl, fun _ => rfl⟩
      refine counted.trans (same_set ?_)
      rfl
    · exact ⟨rfl, rfl, rfl, fun _ => rfl⟩
  simp only [mtlkTaCritStop]
  generalize (if (ta.crit c).fcn.isSome then _ else ta) = ta' at stopped
  split
  · exact stopped.trans ⟨rfl, rfl, rfl, fun _ => rfl⟩
  · exact stopped

/-- The operations that configure nothing. -/
theorem same_schedule (other : (∀ i, op ≠ .cocCfg i ∧ op ≠ .pcocCfg i ∧ op ≠ .setResolution i)) :
    SameSchedule ta (step ta op) := by
  cases op with
  | cocCfg i => exact absurd rfl (other i).1
  | pcocCfg i => exact absurd rfl (other i).2.1
  | setResolution i => exact absurd rfl (other i).2.2
  | start c => exact same_start
  | stop c => exact same_stop
  | register c =>
    simp only [step, mtlkTaCritRegister]
    split
    · exact ⟨rfl, rfl, rfl, fun _ => rfl⟩
    · exact same_set rfl
  | unregister c => exact same_stop.trans (same_set rfl)
  | tick => exact ⟨rfl, rfl, rfl, fun c => (tick_kept _).2.1⟩

theorem CocKept.same (h : CocKept ta) (same : SameSchedule ta ta') : CocKept ta' where
  resolution := same.timerResMs ▸ h.resolution
  interval := same.cocCfg ▸ h.interval
  period := by
    rw [same.cocCfg, same.timerResMs, same.period]
    exact h.period
  unset := by
    rw [same.cocCfg, same.period]
    exact h.unset

theorem PcocKept.same (h : PcocKept ta) (same : SameSchedule ta ta') : PcocKept ta' where
  interval := same.pcocCfg ▸ h.interval
  period := by
    rw [same.pcocCfg, same.timerResMs, same.period]
    exact h.period
  unset := by
    rw [same.pcocCfg, same.period]
    exact h.unset

theorem cocCfg_kept {interval : Nat} (resolution : 0 < ta.timerResMs ∧
      ta.timerResMs ≤ taTimerMaxValueInTicks * taTimerMsPerTick) (small : interval < 2 ^ 20)
    (accepted : ta.timerResMs ≤ interval * tickMsec) : CocKept (mtlkTaCocCfg interval ta).1 := by
  have long : ¬ u32 (interval * tickMsec) < ta.timerResMs := by
    rw [u32_of_lt small]
    omega
  obtain ⟨is, -, configured⟩ := period_pos resolution.1 small long
  simp only [mtlkTaCocCfg, if_neg long]
  refine ⟨resolution, small, ?_, fun none => absurd none configured⟩
  intro _
  simp only [TrafAnalyzer.setCrit, Function.update_self, configure_period]
  exact is

theorem step_coc (h : CocKept ta) (enabled : Enabled ta op) : CocKept (step ta op) := by
  cases op with
  | cocCfg interval =>
    by_cases accepted : ta.timerResMs ≤ interval * tickMsec
    · exact cocCfg_kept h.resolution enabled accepted
    · have short : u32 (interval * tickMsec) < ta.timerResMs := by
        rw [u32_of_lt enabled]
        omega
      simp only [step, mtlkTaCocCfg, if_pos short]
      exact h
  | pcocCfg interval =>
    simp only [step, mtlkTaPcocCfg]
    split
    · exact h
    · exact ⟨h.resolution, h.interval, h.period, h.unset⟩
  | setResolution ticks =>
    simp only [step]
    obtain same | ⟨⟨low, high, coc⟩, is⟩ := setResolution_cases h ticks
    · simpa only [same] using h
    · simp only [is]
      exact cocCfg_kept ⟨low, high⟩ h.interval coc
  | start | stop | register | unregister | tick =>
    refine h.same (same_schedule ?_)
    simp

/-- A change of the resolution leaves no period of the PCoC criterion behind. -/
def Propagated (ta : TrafAnalyzer) : Op → Prop
  | .setResolution ticks =>
    (mtlkTaSetTimerResolutionTicks ticks ta).2 = true → ta.pcocCfg.interval ≠ 0 →
      periodOf ta.pcocCfg.interval (ticks * taTimerMsPerTick) =
        periodOf ta.pcocCfg.interval ta.timerResMs
  | _ => True

instance (ta : TrafAnalyzer) : ∀ op : Op, Decidable (Propagated ta op)
  | .setResolution _ => inferInstanceAs (Decidable (_ → _ → _))
  | .cocCfg _ | .pcocCfg _ | .start _ | .stop _ | .register _ | .unregister _ | .tick =>
    .isTrue trivial

theorem cocCfg_pcoc (interval : Nat) (ta : TrafAnalyzer) :
    (mtlkTaCocCfg interval ta).1.timerResMs = ta.timerResMs ∧
      (mtlkTaCocCfg interval ta).1.pcocCfg = ta.pcocCfg ∧
      (mtlkTaCocCfg interval ta).1.crit .pcoc = ta.crit .pcoc := by
  unfold mtlkTaCocCfg
  split <;> exact ⟨rfl, rfl, rfl⟩

/-- The period of the PCoC criterion is kept exactly by the changes that need not reach it. -/
theorem step_pcoc (coc : CocKept ta) (h : PcocKept ta) (enabled : Enabled ta op) :
    PcocKept (step ta op) ↔ Propagated ta op := by
  cases op with
  | cocCfg interval =>
    obtain ⟨res, cfg, crit⟩ := cocCfg_pcoc interval ta
    refine iff_of_true ⟨?_, ?_, ?_⟩ trivial <;> simp only [step, res, cfg, crit]
    · exact h.interval
    · exact h.period
    · exact h.unset
  | pcocCfg interval =>
    refine iff_of_true ?_ trivial
    simp only [step, mtlkTaPcocCfg]
    split
    · exact h
    next long =>
      obtain ⟨is, -, configured⟩ := period_pos coc.resolution.1 enabled long
      refine ⟨enabled, ?_, fun none => absurd none configured⟩
      intro _
      simp only [TrafAnalyzer.setCrit, Function.update_self, configure_period]
      exact is
  | setResolution ticks =>
    simp only [step, Propagated]
    obtain same | ⟨-, is⟩ := setResolution_cases coc ticks
    · simp only [same, Bool.false_eq_true, false_implies, iff_true]
      exact h
    · obtain ⟨res, cfg, crit⟩ := cocCfg_pcoc ta.cocCfg.interval
        { ta with timerResMs := ticks * taTimerMsPerTick }
      simp only [is, forall_const]
      constructor
      · intro kept configured
        have now := kept.period
        rw [res, cfg, crit] at now
        have now := now configured
        exact now.symm.trans (h.period configured)
      · intro same
        refine ⟨?_, ?_, ?_⟩ <;> simp only [res, cfg, crit]
        · exact h.interval
        · exact fun configured => (h.period configured).trans (same configured).symm
        · exact h.unset
  | start | stop | register | unregister | tick =>
    refine iff_of_true (h.same (same_schedule ?_)) trivial
    simp

/-- What holds of the analyzer after each operation. -/
structure Scheduled (ta : TrafAnalyzer) : Prop where
  counted : Counted ta
  coc : CocKept ta
  pcoc : PcocKept ta

theorem step_counted (h : Counted ta) (coc : CocKept ta) (enabled : Enabled ta op) :
    Counted (step ta op) := by
  cases op with
  | cocCfg interval => exact counted_coc h coc.resolution.1 enabled
  | pcocCfg interval => exact counted_pcoc h coc.resolution.1 enabled
  | setResolution ticks =>
    simp only [step]
    obtain same | ⟨⟨low, -, -⟩, is⟩ := setResolution_cases coc ticks
    · simpa only [same] using h
    · simp only [is]
      refine counted_coc ?_ low coc.interval
      exact ⟨h.startable, h.activeCritNum, h.timer, h.counter⟩
  | start c => exact counted_start h enabled.1 enabled.2
  | stop c => exact counted_stop h enabled
  | register c => exact counted_register h
  | unregister c => exact counted_unregister h enabled
  | tick => exact counted_tick h

theorem scheduled_init : Scheduled init := by
  refine ⟨⟨?_, by decide, by decide, ?_⟩, ⟨by decide, by decide, ?_, fun _ => rfl⟩, by decide, ?_,
    fun _ => rfl⟩ <;> simp [init, TrafAnalyzer.started]

theorem step_scheduled (h : Scheduled ta) (enabled : Enabled ta op) (same : Propagated ta op) :
    Scheduled (step ta op) where
  counted := step_counted h.counted h.coc enabled
  coc := step_coc h.coc enabled
  pcoc := (step_pcoc h.coc h.pcoc enabled).2 same

/-- A period of the PCoC criterion that is right was not left behind. -/
theorem propagated_of_period (h : Scheduled ta) (enabled : Enabled ta op)
    (period : (step ta op).pcocCfg.interval ≠ 0 → ((step ta op).crit .pcoc).tmrPeriod =
      periodOf (step ta op).pcocCfg.interval (step ta op).timerResMs) : Propagated ta op := by
  cases op with
  | setResolution ticks =>
    refine (step_pcoc h.coc h.pcoc enabled).1 ⟨?_, period, ?_⟩ <;> simp only [step]
    all_goals
      obtain same | ⟨-, is⟩ := setResolution_cases h.coc ticks
    · simp only [same]
      exact h.pcoc.interval
    · simp only [is, (cocCfg_pcoc ..).2.1]
      exact h.pcoc.interval
    · simp only [same]
      exact h.pcoc.unset
    · simp only [is, (cocCfg_pcoc ..).2.1, (cocCfg_pcoc ..).2.2]
      exact h.pcoc.unset
  | cocCfg | pcocCfg | start | stop | register | unregister | tick => trivial

end Wave300.Ta
