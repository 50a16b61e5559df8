import Wave300.Ta.Criteria

/-!
# Parameters of PCoC

`mtlk_pcoc.c`: the limits between which the traffic is neither high nor low, and the interval in
which the traffic analyzer measures it. The upper bounds of the limits are compared for equality,
and the parameters are stored before the traffic analyzer is asked about the interval.
-/

namespace Wave300.Power

open Lib Ta

/-- `LIMIT_LOWER_MIN` -/
def limitLowerMin : Nat := 1

/-- `LIMIT_LOWER_MAX` -/
def limitLowerMax : Nat := 1499999

/-- `LIMIT_UPPER_MIN` -/
def limitUpperMin : Nat := 2

/-- `LIMIT_UPPER_MAX` -/
def limitUpperMax : Nat := 1500000

/-- `INTERVAL_MIN` -/
def intervalMin : Nat := 1

/-- `INTERVAL_MAX` -/
def intervalMax : Nat := 100

/-- `mtlk_pcoc_params_t` -/
structure PcocParams where
  interval : Nat
  limitLower : Nat
  limitUpper : Nat
  deriving DecidableEq, Repr

/-- The checks of `mtlk_pcoc_set_params`. -/
def PcocParams.checked (p : PcocParams) : Prop :=
  ¬ (p.interval < intervalMin ∨ p.interval > intervalMax) ∧
    ¬ (p.limitLower < limitLowerMin ∨ p.limitLower = limitLowerMax) ∧
    ¬ (p.limitUpper < limitUpperMin ∨ p.limitUpper = limitUpperMax) ∧
    ¬ p.limitLower ≥ p.limitUpper

instance (p : PcocParams) : Decidable p.checked := inferInstanceAs (Decidable (_ ∧ _))

/-- The lower limit is below the upper one. -/
def PcocParams.Hysteresis (p : PcocParams) : Prop := p.limitLower < p.limitUpper

instance (p : PcocParams) : Decidable p.Hysteresis := inferInstanceAs (Decidable (_ < _))

/-- The interval is in its range, and the limits are in order and not zero. -/
def PcocParams.Ordered (p : PcocParams) : Prop :=
  intervalMin ≤ p.interval ∧ p.interval ≤ intervalMax ∧ limitLowerMin ≤ p.limitLower ∧ p.Hysteresis

instance (p : PcocParams) : Decidable p.Ordered := inferInstanceAs (Decidable (_ ∧ _))

/-- The parameters that are to be accepted. -/
def PcocParams.Acceptable (p : PcocParams) (timerResMs : Nat) : Prop :=
  intervalMin ≤ p.interval ∧ p.interval ≤ intervalMax ∧ timerResMs ≤ p.interval * tickMsec ∧
    limitLowerMin ≤ p.limitLower ∧ p.limitLower ≤ limitLowerMax ∧
    limitUpperMin ≤ p.limitUpper ∧ p.limitUpper ≤ limitUpperMax ∧ p.Hysteresis

/-- `_mtlk_pcoc_traffic_state_t` -/
inductive PcocTrafficState where
  | low
  | high
  | undef
  deriving DecidableEq, Repr

/-- `mtlk_pcoc_t`, with the traffic analyzer that it configures. -/
structure Pcoc where
  params : PcocParams
  isEnabledAdm : Bool
  isEnabledOp : Bool
  isActive : Bool
  trafficState : PcocTrafficState
  ta : TrafAnalyzer

namespace Pcoc

/-- What the core configures. -/
def defaultParams : PcocParams := ⟨10, 1000, 2000⟩

/-- `mtlk_pcoc_create`. The interval has to suit the traffic analyzer, and its criterion must not be
in use. -/
def mtlkPcocCreate (defaultParams : PcocParams) (ta : TrafAnalyzer) : Option Pcoc :=
  let configured := mtlkTaPcocCfg defaultParams.interval ta
  let registered := mtlkTaCritRegister .pcoc configured.1
  if configured.2 && registered.2 then
    some ⟨defaultParams, true, false, false, .undef, registered.1⟩
  else none

/-- `_mtlk_pcoc_set_interval` -/
def setInterval (c : Pcoc) : Pcoc × Bool :=
  let r := mtlkTaPcocCfg c.params.interval c.ta
  ({ c with ta := r.1 }, r.2)

/-- `mtlk_pcoc_set_params`, with whether it returns `MTLK_ERR_OK`. -/
def mtlkPcocSetParams (c : Pcoc) (params : PcocParams) : Pcoc × Bool :=
  if params.checked then setInterval { c with params } else (c, false)

/-- `_mtlk_pcoc_ta_process`. It asserts that there is a state. -/
def taProcess (c : Pcoc) (sumTp : Nat) : Pcoc :=
  match c.trafficState with
  | .low => if sumTp > c.params.limitUpper then { c with trafficState := .high } else c
  | .high => if sumTp < c.params.limitLower then { c with trafficState := .low } else c
  | .undef => c

/-- `_mtlk_pcoc_start_or_stop` -/
def startOrStop (c : Pcoc) : Pcoc :=
  if c.isEnabledAdm && c.isEnabledOp then
    if c.isActive then c
    else { c with trafficState := .high, isActive := true, ta := mtlkTaCritStart .pcoc c.ta }
  else if c.isActive then
    { c with trafficState := .undef, isActive := false, ta := mtlkTaCritStop .pcoc c.ta }
  else c

inductive Op where
  | setParams (params : PcocParams)
  | setEnabledAdm (isEnabled : Bool)
  | setEnabledOp (isEnabled : Bool)
  | report (sumTp : Nat)
  | analyzer (op : Ta.Op)

/-- The calls of `mtlk_pcoc.c`, the reports of the traffic analyzer, and what others do to it. -/
def step (c : Pcoc) : Op → Pcoc
  | .setParams params => (mtlkPcocSetParams c params).1
  | .setEnabledAdm isEnabled => startOrStop { c with isEnabledAdm := isEnabled }
  | .setEnabledOp isEnabled => startOrStop { c with isEnabledOp := isEnabled }
  | .report sumTp => taProcess c sumTp
  | .analyzer op => { c with ta := Ta.step c.ta op }

/-- What an operation does and leaves: parameters are accepted when they are to be, stored when they
are accepted, and otherwise nothing changes. -/
structure Right (c : Pcoc) (op : Op) : Prop where
  hysteresis : (step c op).params.Hysteresis
  accepted : ∀ p, op = .setParams p →
    ((mtlkPcocSetParams c p).2 = true ↔ p.Acceptable c.ta.timerResMs)
  stored : ∀ p, op = .setParams p → (mtlkPcocSetParams c p).2 = true → (step c op).params = p
  unchanged : ∀ p, op = .setParams p → (mtlkPcocSetParams c p).2 = false →
    (step c op).params = c.params ∧ (step c op).ta.pcocCfg = c.ta.pcocCfg ∧
      (step c op).ta.crit .pcoc = c.ta.crit .pcoc

/-- The condition for a call to be right, when the interval and the order of the limits are: the
upper limit is below its bound, or above it while the lower one is at its own; and an interval that
is too short comes with limits that are refused, or with the parameters there are already. -/
def Goes (c : Pcoc) : Op → Prop
  | .setParams p => p.Ordered →
      if c.ta.timerResMs ≤ p.interval * tickMsec then
        p.limitUpper < limitUpperMax ∨ p.limitLower = limitLowerMax ∧ limitUpperMax < p.limitUpper
      else p.limitLower = limitLowerMax ∨ p.limitUpper = limitUpperMax ∨ p = c.params
  | _ => True

instance (c : Pcoc) : ∀ op : Op, Decidable (Goes c op)
  | .setParams p => inferInstanceAs (Decidable (p.Ordered → _))
  | .setEnabledAdm _ | .setEnabledOp _ | .report _ | .analyzer _ => .isTrue trivial

variable {c : Pcoc} {p : PcocParams} {op : Op} {ta : TrafAnalyzer}

/-- The limits that are stored are in order. -/
def Steady (c : Pcoc) : Prop := c.params.Hysteresis

/-- No traffic takes the state both ways. -/
theorem taProcess_twice (steady : Steady c) (sumTp : Nat) :
    taProcess (taProcess c sumTp) sumTp = taProcess c sumTp := by
  cases state : c.trafficState with
  | low =>
    have first : taProcess c sumTp =
        if sumTp > c.params.limitUpper then { c with trafficState := .high } else c := by
      simp only [taProcess, state]
    rw [first]
    split
    next busy => exact if_neg (Nat.not_lt.2 (Nat.le_of_lt (Nat.lt_trans steady busy)))
    next quiet => rw [first, if_neg quiet]
  | high =>
    have first : taProcess c sumTp =
        if sumTp < c.params.limitLower then { c with trafficState := .low } else c := by
      simp only [taProcess, state]
    rw [first]
    split
    next quiet => exact if_neg (Nat.not_lt.2 (Nat.le_of_lt (Nat.lt_trans quiet steady)))
    next busy => rw [first, if_neg busy]
  | undef => simp only [taProcess, state]

/-! ## A call -/

theorem taPcocCfg_short (ta : TrafAnalyzer) {interval : Nat} (short : interval ≤ intervalMax) :
    mtlkTaPcocCfg interval ta = (ta, false) ∧ interval * tickMsec < ta.timerResMs ∨
      (mtlkTaPcocCfg interval ta).2 = true ∧ ta.timerResMs ≤ interval * tickMsec := by
  have fits : u32 (interval * tickMsec) = interval * tickMsec := by
    simp only [u32, tickMsec, intervalMax] at short ⊢
    omega
  simp only [mtlkTaPcocCfg, fits]
  split
  next low => exact .inl ⟨rfl, low⟩
  next high => exact .inr ⟨rfl, Nat.le_of_not_lt high⟩

/-- What a call does: it fails a check, it stores parameters that the traffic analyzer refuses, or
it stores them and sets the interval. -/
theorem setParams_cases (c : Pcoc) (p : PcocParams) :
    ¬ p.checked ∧ mtlkPcocSetParams c p = (c, false) ∨
    (p.checked ∧ p.interval * tickMsec < c.ta.timerResMs) ∧
      mtlkPcocSetParams c p = ({ c with params := p }, false) ∨
    (p.checked ∧ c.ta.timerResMs ≤ p.interval * tickMsec) ∧
      mtlkPcocSetParams c p =
        ({ c with params := p, ta := (mtlkTaPcocCfg p.interval c.ta).1 }, true) := by
  by_cases checked : p.checked
  · have short : p.interval ≤ intervalMax := by
      have interval := checked.1
      omega
    rw [mtlkPcocSetParams, if_pos checked, setInterval]
    obtain ⟨refused, low⟩ | ⟨taken, high⟩ := taPcocCfg_short c.ta short
    · exact .inr (.inl ⟨⟨checked, low⟩, by rw [refused]⟩)
    · exact .inr (.inr ⟨⟨checked, high⟩, by rw [taken]⟩)
  · exact .inl ⟨checked, if_neg checked⟩

theorem setParams_right_iff (steady : Steady c) :
    Right c (.setParams p) ↔ ((mtlkPcocSetParams c p).2 = true ↔ p.Acceptable c.ta.timerResMs) ∧
      (p.checked → p.interval * tickMsec < c.ta.timerResMs → p = c.params) := by
  obtain ⟨failed, is⟩ | ⟨⟨checked, low⟩, is⟩ | ⟨⟨checked, high⟩, is⟩ := setParams_cases c p
  · constructor
    · exact fun right => ⟨right.accepted p rfl, fun checked => absurd checked failed⟩
    · rintro ⟨accepted, -⟩
      refine ⟨by rwa [step, is], ?_, ?_, ?_⟩
      · rintro _ ⟨⟩
        exact accepted
      · rintro _ ⟨⟩ ok
        rw [is] at ok
        cases ok
      · rintro _ ⟨⟩ -
        rw [step, is]
        exact ⟨rfl, rfl, rfl⟩
  · constructor
    · intro right
      have kept := (right.unchanged p rfl (by rw [is])).1
      rw [step, is] at kept
      exact ⟨right.accepted p rfl, fun _ _ => kept⟩
    · rintro ⟨accepted, same⟩
      have same := same checked low
      refine ⟨by rwa [step, is, same], ?_, ?_, ?_⟩
      · rintro _ ⟨⟩
        exact accepted
      · rintro _ ⟨⟩ ok
        rw [is] at ok
        cases ok
      · rintro _ ⟨⟩ -
        rw [step, is]
        exact ⟨same, rfl, rfl⟩
  · constructor
    · exact fun right => ⟨right.accepted p rfl, fun _ low => absurd low (Nat.not_lt.2 high)⟩
    · rintro ⟨accepted, -⟩
      have order : p.Hysteresis := Nat.lt_of_not_le checked.2.2.2
      refine ⟨by rwa [step, is], ?_, ?_, ?_⟩
      · rintro _ ⟨⟩
        exact accepted
      · rintro _ ⟨⟩ -
        rw [step, is]
      · rintro _ ⟨⟩ failed
        rw [is] at failed
        cases failed

theorem setParams_ok_iff : (mtlkPcocSetParams c p).2 = true ↔
    p.checked ∧ c.ta.timerResMs ≤ p.interval * tickMsec := by
  obtain ⟨failed, is⟩ | ⟨⟨checked, low⟩, is⟩ | ⟨⟨checked, high⟩, is⟩ := setParams_cases c p
  · rw [is]
    exact iff_of_false Bool.false_ne_true fun both => failed both.1
  · rw [is]
    exact iff_of_false Bool.false_ne_true fun both => absurd low (Nat.not_lt.2 both.2)
  · rw [is]
    exact iff_of_true rfl ⟨checked, high⟩

theorem checked_iff : p.checked ↔
    p.Ordered ∧ p.limitLower ≠ limitLowerMax ∧ p.limitUpper ≠ limitUpperMax := by
  simp only [PcocParams.checked, PcocParams.Ordered, PcocParams.Hysteresis, intervalMin,
    limitLowerMin, limitUpperMin]
  omega

theorem acceptable_iff {timerResMs : Nat} : p.Acceptable timerResMs ↔
    p.Ordered ∧ timerResMs ≤ p.interval * tickMsec ∧ p.limitUpper ≤ limitUpperMax := by
  simp only [PcocParams.Acceptable, PcocParams.Ordered, PcocParams.Hysteresis, intervalMin,
    limitLowerMin, limitLowerMax, limitUpperMin, limitUpperMax]
  omega

theorem setParams_goes_iff (steady : Steady c) :
    Right c (.setParams p) ↔ Goes c (.setParams p) := by
  rw [setParams_right_iff steady, setParams_ok_iff, acceptable_iff, checked_iff]
  by_cases ordered : p.Ordered
  · have order : p.limitLower < p.limitUpper := ordered.2.2.2
    by_cases high : c.ta.timerResMs ≤ p.interval * tickMsec
    · simp only [Goes, ordered, high, Nat.not_lt.2 high, limitLowerMax, limitUpperMax, true_and,
        and_true, if_true, false_implies, implies_true, true_implies]
      omega
    · have low := Nat.lt_of_not_le high
      simp only [Goes, ordered, high, low, true_and, and_false, false_and, if_false, true_implies]
      tauto
  · simp [Goes, ordered]

/-! ## Runs -/

theorem startOrStop_params : (startOrStop c).params = c.params := by
  unfold startOrStop
  split
  · split <;> rfl
  · split <;> rfl

theorem taProcess_params (sumTp : Nat) : (taProcess c sumTp).params = c.params := by
  unfold taProcess
  split
  · split <;> rfl
  · split <;> rfl
  · rfl

theorem right_iff_goes (steady : Steady c) : Right c op ↔ Goes c op := by
  have other (same : (step c op).params = c.params) (call : ∀ p, op ≠ .setParams p) :
      Right c op :=
    ⟨by rwa [same], fun p is => absurd is (call p), fun p is => absurd is (call p),
      fun p is => absurd is (call p)⟩
  cases op with
  | setParams p => exact setParams_goes_iff steady
  | setEnabledAdm isEnabled => exact iff_of_true (other startOrStop_params (by simp)) trivial
  | setEnabledOp isEnabled => exact iff_of_true (other startOrStop_params (by simp)) trivial
  | report sumTp => exact iff_of_true (other (taProcess_params sumTp) (by simp)) trivial
  | analyzer op => exact iff_of_true (other rfl (by simp)) trivial

theorem mtlkPcocCreate_params (created : mtlkPcocCreate p ta = some c) : c.params = p := by
  simp only [mtlkPcocCreate] at created
  split at created
  · cases created
    rfl
  · cases created

/-- In any run after the creation, every call is atomic and takes the parameters that it has to, and
the limits are in order, exactly when each call goes as it has to. -/
theorem params_right_iff (created : mtlkPcocCreate defaultParams ta = some c) (ops : List Op) :
    Allowed step Right c ops ↔ Allowed step Goes c ops := by
  have start : Steady c := by
    rw [Steady, mtlkPcocCreate_params created]
    decide
  apply allowed_iff start
  · exact fun c op steady => right_iff_goes steady
  · exact fun c op _ right => right.hysteresis

/-- The object as the core creates it. -/
def created : Pcoc where
  params := defaultParams
  isEnabledAdm := true
  isEnabledOp := false
  isActive := false
  trafficState := .undef
  ta := (mtlkTaCritRegister .pcoc (mtlkTaPcocCfg defaultParams.interval Ta.init).1).1

/-- The resolution is raised to a second, and the same parameters come again with it. -/
theorem params_right_resolution : Allowed step Right created
    [.setParams ⟨5, 10, 1499999⟩, .analyzer (.cocCfg 10), .analyzer (.setResolution 20),
      .setParams ⟨5, 10, 1499999⟩, .setParams ⟨10, 20, 30⟩, .setParams ⟨0, 20, 30⟩] :=
  (params_right_iff (show mtlkPcocCreate defaultParams Ta.init = some created from rfl) _).2
    (by decide)

/-- Limits above their bounds are accepted. -/
theorem limits_accepted : ¬ ∀ ta c, mtlkPcocCreate defaultParams ta = some c →
    ∀ ops : List Op, Allowed step Right c ops := by
  intro all
  have right := all Ta.init created rfl [.setParams ⟨10, 1500000, 1500001⟩]
  exact absurd ((right.1.accepted _ rfl).1 (by decide)).2.2.2.2.1 (by decide)

end Pcoc

end Wave300.Power
