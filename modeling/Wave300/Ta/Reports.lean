import Wave300.Ta.Intervals

/-!
# The reports of the criteria

A criterion that is started reports once in each of its periods, and its period is the configured
interval at the current resolution.
-/

namespace Wave300.Ta

open Lib

variable {ta : TrafAnalyzer} {c : CritId} {op : Op}

/-- The ticks at which `fcn` was called, among `n` ticks. -/
def Crit.calls (crit : Crit) (n : Nat) : Nat := (crit.tmrCnt + n) / crit.tmrPeriod

/-- The criterion after `n` ticks. -/
def Crit.after (crit : Crit) (n : Nat) : Crit :=
  { crit with
    tmrCnt := (crit.tmrCnt + n) % crit.tmrPeriod
    fcn := if crit.calls n = 0 then crit.fcn else some .crit }

/-- The calls that report: the first call may set the counters up. -/
def Crit.reports (crit : Crit) (n : Nat) : Nat :=
  if crit.fcn = some .crit then crit.calls n else crit.calls n - 1

/-- One more tick counts up, or begins a new period. -/
theorem succ_div_mod {m p : Nat} (positive : 0 < p) :
    if m % p + 1 = p then (m + 1) / p = m / p + 1 ∧ (m + 1) % p = 0
    else (m + 1) / p = m / p ∧ (m + 1) % p = m % p + 1 := by
  have split := Nat.mod_add_div m p
  have below := Nat.mod_lt m positive
  split_ifs with last
  · refine (Nat.div_mod_unique positive).2 ⟨?_, positive⟩
    rw [Nat.mul_add]
    omega
  · refine (Nat.div_mod_unique positive).2 ⟨?_, ?_⟩ <;> omega

theorem after_zero {crit : Crit} (below : crit.tmrCnt < crit.tmrPeriod) : crit.after 0 = crit := by
  simp [Crit.after, Crit.calls, Nat.mod_eq_of_lt below, Nat.div_eq_of_lt below]

/-- A tick of a criterion that is started and registered. -/
theorem tick_on {crit : Crit} {fcn : Fcn} (on : crit.fcn = some fcn) (clb : crit.clb = true) :
    crit.tick = if u32 (crit.tmrCnt + 1) = crit.tmrPeriod then
        ({ crit with tmrCnt := 0, fcn := some .crit }, decide (fcn = .crit))
      else ({ crit with tmrCnt := u32 (crit.tmrCnt + 1) }, false) := by
  simp only [Crit.tick, on, clb, not_true_eq_false, if_false]

/-- One more tick after `n`. -/
theorem after_tick {crit : Crit} (n : Nat) (on : crit.fcn.isSome = true) (clb : crit.clb = true)
    (positive : 0 < crit.tmrPeriod) (small : crit.tmrPeriod < 2 ^ 32) :
    (crit.after n).tick.1 = crit.after (n + 1) ∧
      crit.reports (n + 1) = crit.reports n + (crit.after n).tick.2.toNat := by
  obtain ⟨fcn, is⟩ := Option.isSome_iff_exists.1 on
  have next := succ_div_mod (m := crit.tmrCnt + n) positive
  have below := Nat.mod_lt (crit.tmrCnt + n) positive
  have count : u32 ((crit.after n).tmrCnt + 1) = (crit.tmrCnt + n) % crit.tmrPeriod + 1 :=
    Nat.mod_eq_of_lt (a := (crit.tmrCnt + n) % crit.tmrPeriod + 1) (by omega)
  have there : (crit.after n).fcn = some (if crit.calls n = 0 then fcn else .crit) := by
    simp only [Crit.after, is]
    split <;> rfl
  have period : (crit.after n).tmrPeriod = crit.tmrPeriod := rfl
  rw [tick_on there clb, count, period]
  by_cases last : (crit.tmrCnt + n) % crit.tmrPeriod + 1 = crit.tmrPeriod
  · rw [if_pos last] at next
    simp only [if_pos last]
    obtain ⟨div, mod⟩ := next
    have calls : crit.calls (n + 1) = crit.calls n + 1 := div
    constructor
    · simp [Crit.after, ← Nat.add_assoc, mod, calls]
    · simp only [Crit.reports, calls, is, Option.some.injEq]
      cases fcn with
      | crit => simp
      | critInit =>
        by_cases first : crit.calls n = 0
        · simp [first]
        · simp only [reduceCtorEq, if_false, first, decide_true, Bool.toNat_true]
          omega
  · rw [if_neg last] at next
    simp only [if_neg last]
    obtain ⟨div, mod⟩ := next
    have calls : crit.calls (n + 1) = crit.calls n := div
    constructor
    · simp [Crit.after, ← Nat.add_assoc, mod, calls]
    · simp [Crit.reports, calls]

/-- A criterion is looked at once in the loop of `ta_timer`. -/
theorem count_all (p : CritId → Bool) (c : CritId) :
    (CritId.all.filter p).count c = (p c).toNat := by
  cases holds : p c with
  | true =>
    rw [List.count_filter holds]
    cases c <;> rfl
  | false =>
    refine List.count_eq_zero_of_not_mem ?_
    simp [holds]

/-- The analyzer after `n` ticks. -/
theorem ticks (on : ta.started c = true) (clb : (ta.crit c).clb = true)
    (below : (ta.crit c).tmrCnt < (ta.crit c).tmrPeriod) (small : (ta.crit c).tmrPeriod < 2 ^ 32)
    (n : Nat) : (taTimer^[n] ta).crit c = (ta.crit c).after n ∧
      (taTimer^[n] ta).reports.count c = ta.reports.count c + (ta.crit c).reports n := by
  induction n with
  | zero =>
    have calls : (ta.crit c).calls 0 = 0 := Nat.div_eq_of_lt below
    refine ⟨(after_zero below).symm, ?_⟩
    simp [Crit.reports, calls]
  | succ n ih =>
    obtain ⟨crit, reports⟩ := ih
    obtain ⟨next, more⟩ := after_tick n on clb (Nat.zero_lt_of_lt below) small
    rw [Function.iterate_succ_apply']
    refine ⟨(congrArg (·.tick.1) crit).trans next, ?_⟩
    simp only [taTimer, List.count_append, count_all]
    rw [reports, more, crit, Nat.add_assoc]

/-- The schedule of the criteria. -/
structure OnSchedule (ta : TrafAnalyzer) : Prop where
  active : ta.activeCritNum = CritId.all.countP ta.started
  timer : ta.timer = true ↔ 0 < ta.activeCritNum
  counter : ∀ c, ta.started c = true → (ta.crit c).tmrCnt < (ta.crit c).tmrPeriod
  coc : ta.cocCfg.interval ≠ 0 →
    (ta.crit .coc).tmrPeriod = periodOf ta.cocCfg.interval ta.timerResMs
  pcoc : ta.pcocCfg.interval ≠ 0 →
    (ta.crit .pcoc).tmrPeriod = periodOf ta.pcocCfg.interval ta.timerResMs
  reports : ∀ c, ta.started c = true → (ta.crit c).clb = true → ∀ n,
    (taTimer^[n] ta).reports.count c = ta.reports.count c + (ta.crit c).reports n

theorem Scheduled.small (h : Scheduled ta) (startable : Startable c) :
    (ta.crit c).tmrPeriod < 2 ^ 32 := by
  obtain rfl | rfl := startable
  · by_cases unset : ta.cocCfg.interval = 0
    · simp [h.coc.unset unset]
    · exact (h.coc.period unset).trans_lt (periodOf_lt h.coc.interval)
  · by_cases unset : ta.pcocCfg.interval = 0
    · simp [h.pcoc.unset unset]
    · exact (h.pcoc.period unset).trans_lt (periodOf_lt h.pcoc.interval)

theorem Scheduled.onSchedule (h : Scheduled ta) : OnSchedule ta where
  active := h.counted.activeCritNum
  timer := h.counted.timer
  counter := h.counted.counter
  coc := h.coc.period
  pcoc := h.pcoc.period
  reports c on clb n :=
    (ticks on clb (h.counted.counter c on) (h.small (h.counted.startable c on)) n).2

/-- The criteria are on schedule after every operation, as long as each change of the resolution
leaves the period of the PCoC criterion what it should be; the first change that does not takes them
off. -/
theorem criteria_on_schedule
    (run : Runs step (fun ta op => Enabled ta op ∧ Propagated ta op) init ta) :
    OnSchedule ta ∧ ∀ op, Enabled ta op → (OnSchedule (step ta op) ↔ Propagated ta op) := by
  have scheduled : Scheduled ta := by
    refine run.invariant scheduled_init ?_
    exact fun _ _ before allowed => step_scheduled before allowed.1 allowed.2
  refine ⟨scheduled.onSchedule, ?_⟩
  intro op enabled
  constructor
  · exact fun kept => propagated_of_period scheduled enabled kept.pcoc
  · exact fun same => (step_scheduled scheduled enabled same).onSchedule

/-- The PCoC criterion is configured for 200 ms and started, and the resolution goes to 200 ms. -/
def staleRun : List Op := [.cocCfg 2, .pcocCfg 2, .register .pcoc, .start .pcoc, .setResolution 4]

theorem criteria_off_schedule :
    ¬ ∀ ta, Runs step Enabled init ta → OnSchedule ta := by
  intro claim
  have run : Runs step Enabled init (staleRun.foldl step init) := .of_allowed (by decide)
  have period := (claim _ run).pcoc
  revert period
  decide

/-- Both criteria, at a resolution of 50 ms. -/
def fastRun : List Op := [.cocCfg 2, .register .coc, .start .coc, .setResolution 1, .pcocCfg 3,
  .register .pcoc, .start .pcoc, .tick, .tick]

theorem criteria_on_schedule_fast : OnSchedule (fastRun.foldl step init) :=
  (criteria_on_schedule (.of_allowed (by decide))).1

end Wave300.Ta
