import Wave300.Power.Coc

/-!
# Reconfiguration of the power mode

What a call of `mtlk_coc.c` does as a whole: in automatic mode the antennas belong to the state, the
mode changes with the antennas only, a message that failed is reported, and after an error
everything is as before. The calls that break this are those whose message fails and is forgotten,
and those in which the traffic analyzer refuses the interval after something else was already
changed.
-/

namespace Wave300.Power

open Lib

namespace Coc

/-- In automatic mode the antennas in use are those of the state. -/
def Consistent (c : Coc) : Prop :=
  c.isAutoMode → c.currentAntennaCfg = c.antennaByState c.currentState

instance (c : Coc) : Decidable c.Consistent := inferInstanceAs (Decidable (_ → _))

/-- What an error leaves as it was. -/
def config (c : Coc) : PowerState × AntennaCfg × Bool × AutoCfg :=
  (c.currentState, c.currentAntennaCfg, c.isAutoMode, c.autoAntennaCfg)

/-- The mode-switch messages of a call. -/
def newMessages (before after : Coc) : List (AntennaCfg × Err) :=
  after.messages.drop before.messages.length

/-- Some mode-switch message of a call failed. -/
def SwitchFailed (before after : Coc) : Prop :=
  ∃ m ∈ newMessages before after, m.2 ≠ .ok

instance (before after : Coc) : Decidable (SwitchFailed before after) :=
  inferInstanceAs (Decidable (∃ m ∈ newMessages before after, m.2 ≠ .ok))

/-- The antennas of a mode that is switched to. -/
def antennasOf (c : Coc) (isAutoMode : Bool) : AntennaCfg :=
  if isAutoMode then c.hwAntennaCfg else c.manualAntennaCfg

end Coc

/-- What a call leaves and returns, when it was atomic and left a consistent state. -/
structure Right (c : Coc) (r : Coc × Err) : Prop where
  consistent : r.1.Consistent
  switched : r.1.isAutoMode ≠ c.isAutoMode →
    ¬ c.SwitchFailed r.1 ∧ r.1.currentAntennaCfg = c.antennasOf r.1.isAutoMode
  reported : c.SwitchFailed r.1 → r.2 ≠ .ok
  unchanged : r.2 ≠ .ok → r.1.config = c.config

/-- A message is sent for these antennas. -/
def Sends (c : Coc) (o : Outcome) (cfg : AntennaCfg) : Prop :=
  cfg ≠ c.currentAntennaCfg ∧ o.scanIsRunning = false ∧ o.canSwitchNow = true ∧
    ¬ cfg.Exceeds c.hwAntennaCfg ∧ o.setTxAntennas = .ok

instance (c : Coc) (o : Outcome) (cfg : AntennaCfg) : Decidable (Sends c o cfg) :=
  inferInstanceAs (Decidable (_ ∧ _))

/-- The condition for a call to be right: of a message that is sent, that it succeeds, with the
interval after it, or that its failure is not covered up by putting the TX antennas back; and of new
parameters in automatic mode, that the traffic analyzer takes their interval. -/
def Goes (c : Coc) : Call → Prop
  | .setPowerMode o true => o.activeVaps ≠ 0 → c.isAutoMode = false → Sends c o c.hwAntennaCfg →
      if o.switchMode = .ok then o.taCocCfg = .ok
      else o.restoreTxAntennas ≠ .ok ∨ o.taCocCfg ≠ .ok
  | .setPowerMode o false => o.activeVaps ≠ 0 → Sends c o c.manualAntennaCfg →
      o.switchMode = .ok ∨ o.restoreTxAntennas ≠ .ok
  | .setAntennaParams _ => True
  | .setAutoParams o params => params.checked → c.isAutoMode → params ≠ c.autoAntennaCfg →
      o.taCocCfg = .ok
  | .autoPower o maxTp => c.critStarted →
      c.autoAntennaCfg.nextState maxTp c.currentState ≠ c.currentState →
      Sends c o (c.antennaByState (c.autoAntennaCfg.nextState maxTp c.currentState)) →
      o.switchMode = .ok ∧ o.taCocCfg = .ok

/-! ## Setting the antennas -/

theorem not_switchFailed {c c' : Coc} (same : c'.messages = c.messages) : ¬ c.SwitchFailed c' := by
  rintro ⟨m, mem, -⟩
  rw [Coc.newMessages, same, List.drop_length] at mem
  exact List.not_mem_nil mem

theorem switchFailed_iff {c c' : Coc} {m : AntennaCfg × Err}
    (sent : c'.messages = c.messages ++ [m]) : c.SwitchFailed c' ↔ m.2 ≠ .ok := by
  rw [Coc.SwitchFailed, Coc.newMessages, sent, List.drop_left]
  constructor
  · rintro ⟨m', mem, failed⟩
    rwa [List.mem_singleton.1 mem] at failed
  · intro failed
    exact ⟨m, List.mem_singleton_self m, failed⟩

/-- How `_mtlk_coc_set_antennas` ends. -/
inductive Setting (c : Coc) (o : Outcome) (cfg : AntennaCfg) : Coc × Err → Prop
  | same (eq : cfg = c.currentAntennaCfg) : Setting c o cfg (c, .ok)
  | refused (e : Err) (silent : ¬ Sends c o cfg) (failed : e ≠ .ok) : Setting c o cfg (c, e)
  | switched (sends : Sends c o cfg) (done : o.switchMode = .ok) :
      Setting c o cfg
        ({ c with
            txAntennas := cfg.numTxAntennas
            messages := c.messages ++ [(cfg, Err.ok)]
            currentAntennaCfg := cfg }, .ok)
  | failed (tx : Nat) (sends : Sends c o cfg) (failed : o.switchMode ≠ .ok) :
      Setting c o cfg
        ({ c with txAntennas := tx, messages := c.messages ++ [(cfg, o.switchMode)] },
          o.restoreTxAntennas)

theorem setAntennas_setting (c : Coc) (o : Outcome) (cfg : AntennaCfg) :
    Setting c o cfg (c.setAntennas o cfg) := by
  unfold Coc.setAntennas
  split
  case isTrue same => exact .same same
  case isFalse other =>
    split
    case isTrue scanning =>
      apply Setting.refused
      · rintro ⟨-, idle, -⟩
        simp [idle] at scanning
      · decide
    case isFalse idle =>
      split
      case isTrue waits =>
        apply Setting.refused
        · rintro ⟨-, -, now, -⟩
          simp [now] at waits
        · decide
      case isFalse now =>
        split
        case isTrue more =>
          apply Setting.refused
          · exact fun sends => sends.2.2.2.1 more
          · decide
        case isFalse fits =>
          split
          case isTrue stays => exact .refused _ (fun sends => stays sends.2.2.2.2) stays
          case isFalse set =>
            have sends : Sends c o cfg := by
              refine ⟨other, by simpa using idle, by simpa using now, fits, not_not.1 set⟩
            split
            case isTrue done =>
              have switched := Setting.switched sends done
              simpa only [done] using switched
            case isFalse failed =>
              split
              case isTrue restored =>
                have back := Setting.failed c.currentAntennaCfg.numTxAntennas sends failed
                simpa only [restored] using back
              case isFalse => exact .failed _ sends failed

/-! ## One call -/

section Calls
variable {c : Coc} {o : Outcome}

/-- A call that changes nothing of the configuration and sends no message. -/
theorem right_of_config {r : Coc × Err} (consistent : c.Consistent)
    (hw : r.1.hwAntennaCfg = c.hwAntennaCfg) (messages : r.1.messages = c.messages)
    (config : r.1.config = c.config) : Right c r := by
  simp only [Coc.config, Prod.mk.injEq] at config
  obtain ⟨state, current, auto, params⟩ := config
  constructor
  case consistent =>
    intro isAuto
    rw [current, state]
    simp only [Coc.antennaByState, hw]
    exact consistent (auto ▸ isAuto)
  case switched => exact fun changed => absurd auto changed
  case reported => exact fun failed => absurd failed (not_switchFailed messages)
  case unchanged =>
    intro
    simp only [Coc.config, state, current, auto, params]

/-- A call whose message failed, and that says so. -/
theorem right_of_reported {r : Coc × Err} (consistent : c.Consistent)
    (hw : r.1.hwAntennaCfg = c.hwAntennaCfg) (config : r.1.config = c.config) (err : r.2 ≠ .ok) :
    Right c r := by
  have quiet := right_of_config (r := ({ r.1 with messages := c.messages }, r.2)) consistent hw rfl
    config
  have auto : r.1.isAutoMode = c.isAutoMode := by
    simp only [Coc.config, Prod.mk.injEq] at config
    exact config.2.2.1
  constructor
  case consistent => exact quiet.consistent
  case switched => exact fun changed => absurd auto changed
  case reported => exact fun _ => err
  case unchanged => exact fun _ => config

/-- A call after which the antennas are those of the new mode and state. -/
theorem right_of_switched {r : Coc × Err} (cfg : AntennaCfg) (ok : r.2 = .ok)
    (consistent : r.1.Consistent)
    (messages : r.1.messages = c.messages ∨ r.1.messages = c.messages ++ [(cfg, Err.ok)])
    (antennas : r.1.isAutoMode ≠ c.isAutoMode →
      r.1.currentAntennaCfg = c.antennasOf r.1.isAutoMode) : Right c r := by
  have fine : ¬ c.SwitchFailed r.1 := by
    obtain none | one := messages
    · exact not_switchFailed none
    · rw [switchFailed_iff one]
      exact fun failed => failed rfl
  constructor
  case consistent => exact consistent
  case switched => exact fun changed => ⟨fine, antennas changed⟩
  case reported => exact fun failed => absurd failed fine
  case unchanged => exact fun err => absurd ok err

theorem right_autoModeCfg {b : Bool} {r : Coc × Err} :
    Right { c with autoModeCfg := b } r ↔ Right c r := by
  constructor
  · exact fun h => ⟨h.consistent, h.switched, h.reported, h.unchanged⟩
  · exact fun h => ⟨h.consistent, h.switched, h.reported, h.unchanged⟩

/-- Going on after the message failed. -/
theorem not_right_of_forgotten {r : Coc × Err} {m : AntennaCfg × Err}
    (sent : r.1.messages = c.messages ++ [m]) (failed : m.2 ≠ .ok) (ok : r.2 = .ok) :
    ¬ Right c r :=
  fun right => right.reported ((switchFailed_iff sent).2 failed) ok

theorem setPowerMode_manual (consistent : c.Consistent) :
    Right c (c.setPowerMode o false) ↔ Goes c (.setPowerMode o false) := by
  simp only [Coc.setPowerMode, Goes]
  split
  case isTrue none =>
    constructor
    · exact fun _ up => absurd none up
    · exact fun _ => right_of_config consistent rfl rfl rfl
  case isFalse up =>
    rw [if_neg Bool.false_ne_true, ← right_autoModeCfg (b := false)]
    have setting := setAntennas_setting { c with autoModeCfg := false } o c.manualAntennaCfg
    cases e : Coc.setAntennas { c with autoModeCfg := false } o c.manualAntennaCfg with
    | mk c' res =>
      rw [e] at setting
      cases setting with
      | same eq =>
        constructor
        · exact fun _ _ sends => absurd eq sends.1
        · exact fun _ => right_of_switched c.manualAntennaCfg rfl nofun (.inl rfl)
            fun _ => eq.symm
      | refused e silent failed =>
        simp only [ne_eq, failed, not_false_eq_true, ↓reduceIte]
        constructor
        · exact fun _ _ sends => absurd sends silent
        · exact fun _ => right_of_config consistent rfl rfl rfl
      | switched sends done =>
        constructor
        · exact fun _ _ _ => .inl done
        · exact fun _ => right_of_switched c.manualAntennaCfg rfl nofun (.inr rfl)
            fun _ => rfl
      | failed tx sends failed =>
        by_cases restored : o.restoreTxAntennas = .ok
        · simp only [restored]
          constructor
          · intro right
            exact absurd right (not_right_of_forgotten rfl failed rfl)
          · intro goes
            exact absurd (goes up sends) (by simp [failed])
        · simp only [ne_eq, restored, not_false_eq_true, ↓reduceIte]
          constructor
          · exact fun _ _ _ => .inr trivial
          · exact fun _ => right_of_reported consistent rfl rfl restored

theorem setPowerMode_auto (consistent : c.Consistent) :
    Right c (c.setPowerMode o true) ↔ Goes c (.setPowerMode o true) := by
  simp only [Coc.setPowerMode, Goes]
  split
  case isTrue none =>
    constructor
    · exact fun _ up => absurd none up
    · exact fun _ => right_of_config consistent rfl rfl rfl
  case isFalse up =>
    rw [if_pos trivial, ← right_autoModeCfg (b := true)]
    split
    case isTrue auto =>
      constructor
      · exact fun _ _ manual => by simp [manual] at auto
      · exact fun _ => right_of_config consistent rfl rfl rfl
    case isFalse manual =>
      have setting := setAntennas_setting { c with autoModeCfg := true } o c.hwAntennaCfg
      cases e : Coc.setAntennas { c with autoModeCfg := true } o c.hwAntennaCfg with
      | mk c' res =>
        rw [e] at setting
        cases setting with
        | same eq =>
          by_cases taken : o.taCocCfg = .ok
          · simp only [Coc.setInterval, taken, ne_eq, not_true_eq_false, ↓reduceIte]
            constructor
            · exact fun _ _ _ sends => absurd eq sends.1
            · exact fun _ => right_of_switched c.hwAntennaCfg rfl (fun _ => eq.symm)
                (.inl rfl) fun _ => eq.symm
          · simp only [Coc.setInterval, taken, ne_eq, not_true_eq_false, not_false_eq_true,
              ↓reduceIte]
            constructor
            · exact fun _ _ _ sends => absurd eq sends.1
            · exact fun _ => right_of_config consistent rfl rfl rfl
        | refused e silent failed =>
          simp only [ne_eq, failed, not_false_eq_true, ↓reduceIte]
          constructor
          · exact fun _ _ _ sends => absurd sends silent
          · exact fun _ => right_of_config consistent rfl rfl rfl
        | switched sends done =>
          by_cases taken : o.taCocCfg = .ok
          · simp only [Coc.setInterval, taken, ne_eq, not_true_eq_false, ↓reduceIte]
            constructor
            · intro _ _ _ _
              rw [if_pos done]
              trivial
            · exact fun _ => right_of_switched c.hwAntennaCfg rfl (fun _ => rfl)
                (.inr rfl) fun _ => rfl
          · simp only [Coc.setInterval, taken, ne_eq, not_true_eq_false, not_false_eq_true,
              ↓reduceIte]
            constructor
            · intro right
              have config := right.unchanged taken
              simp only [Coc.config, Prod.mk.injEq] at config
              exact absurd config.2.1 sends.1
            · intro goes
              have taken' := goes up (by simpa using manual) sends
              rw [if_pos done] at taken'
              exact taken'.elim
        | failed tx sends failed =>
          by_cases restored : o.restoreTxAntennas = .ok
          · by_cases taken : o.taCocCfg = .ok
            · simp only [Coc.setInterval, restored, taken, ne_eq, not_true_eq_false, ↓reduceIte]
              constructor
              · intro right
                exact absurd right (not_right_of_forgotten rfl failed rfl)
              · intro goes
                have hidden := goes up (by simpa using manual) sends
                simp [failed] at hidden
            · simp only [Coc.setInterval, restored, taken, ne_eq, not_true_eq_false,
                not_false_eq_true, ↓reduceIte]
              constructor
              · intro _ _ _ _
                rw [if_neg failed]
                exact .inr trivial
              · exact fun _ => right_of_reported consistent rfl rfl taken
          · simp only [ne_eq, restored, not_false_eq_true, ↓reduceIte]
            constructor
            · intro _ _ _ _
              rw [if_neg failed]
              exact .inl trivial
            · exact fun _ => right_of_reported consistent rfl rfl restored

theorem setAutoParams_iff {params : AutoCfg} (consistent : c.Consistent) :
    Right c (c.setAutoParams o params) ↔ Goes c (.setAutoParams o params) := by
  simp only [Coc.setAutoParams, Goes]
  by_cases checked : params.checked
  case neg =>
    simp only [checked, Bool.not_false, ↓reduceIte]
    constructor
    · exact fun _ => nofun
    · exact fun _ => right_of_config consistent rfl rfl rfl
  by_cases auto : c.isAutoMode
  case neg =>
    have manual : c.isAutoMode = false := by simpa using auto
    simp only [checked, manual, Bool.not_true, Bool.false_eq_true, ↓reduceIte]
    constructor
    · exact fun _ _ => nofun
    · exact fun _ => right_of_switched c.hwAntennaCfg rfl nofun (.inl rfl)
        fun changed => absurd manual.symm changed
  by_cases taken : o.taCocCfg = .ok
  · simp only [checked, auto, Coc.setInterval, taken, Bool.not_true, Bool.false_eq_true, ne_eq,
      not_true_eq_false, ↓reduceIte]
    constructor
    · exact fun _ _ _ _ => trivial
    · exact fun _ => right_of_switched c.hwAntennaCfg rfl
        (fun _ => consistent auto) (.inl rfl) fun changed => absurd auto.symm changed
  · simp only [checked, auto, Coc.setInterval, taken, Bool.not_true, Bool.false_eq_true, ne_eq,
      not_false_eq_true, ↓reduceIte]
    constructor
    · intro right _ _ other
      have config := right.unchanged (show Err.params ≠ .ok by decide)
      simp only [Coc.config, Prod.mk.injEq] at config
      exact other config.2.2.2
    · intro goes
      have same : params = c.autoAntennaCfg := by
        by_contra other
        exact goes trivial trivial other
      apply right_of_config consistent rfl rfl
      simp only [Coc.config, auto, same]

theorem autoPower_iff {maxTp : Nat} (consistent : c.Consistent)
    (started : c.critStarted → c.isAutoMode) :
    Right c (c.autoPowerCallback o maxTp) ↔ Goes c (.autoPower o maxTp) := by
  simp only [Coc.autoPowerCallback, Coc.autoModeProcess, Goes]
  generalize c.autoAntennaCfg.nextState maxTp c.currentState = new
  by_cases running : c.critStarted
  case neg =>
    simp only [running, Bool.false_eq_true, ↓reduceIte]
    constructor
    · exact fun _ => nofun
    · exact fun _ => right_of_config consistent rfl rfl rfl
  by_cases other : c.currentState = new
  case pos =>
    simp only [running, other, ↓reduceIte]
    constructor
    · exact fun _ _ changed => absurd rfl changed
    · exact fun _ => right_of_config consistent rfl rfl rfl
  have isAuto := started running
  simp only [running, other, ↓reduceIte]
  have setting := setAntennas_setting c o (c.antennaByState new)
  cases e : c.setAntennas o (c.antennaByState new) with
  | mk c' res =>
    rw [e] at setting
    cases setting with
    | same eq =>
      by_cases taken : o.taCocCfg = .ok
      · simp only [Coc.setInterval, taken, ne_eq, not_true_eq_false, ↓reduceIte]
        constructor
        · exact fun _ _ _ sends => absurd eq sends.1
        · exact fun _ => right_of_switched c.hwAntennaCfg rfl (fun _ => eq.symm)
            (.inl rfl) fun changed => absurd rfl changed
      · simp only [Coc.setInterval, taken, ne_eq, not_true_eq_false, not_false_eq_true,
          ↓reduceIte]
        constructor
        · exact fun _ _ _ sends => absurd eq sends.1
        · exact fun _ => right_of_config consistent rfl rfl rfl
    | refused e silent failed =>
      simp only [ne_eq, failed, not_false_eq_true, ↓reduceIte]
      constructor
      · exact fun _ _ _ sends => absurd sends silent
      · exact fun _ => right_of_config consistent rfl rfl rfl
    | switched sends done =>
      by_cases taken : o.taCocCfg = .ok
      · simp only [Coc.setInterval, taken, ne_eq, not_true_eq_false, ↓reduceIte]
        constructor
        · exact fun _ _ _ _ => ⟨done, trivial⟩
        · exact fun _ => right_of_switched _ rfl (fun _ => rfl) (.inr rfl)
            fun changed => absurd rfl changed
      · simp only [Coc.setInterval, taken, ne_eq, not_true_eq_false, not_false_eq_true,
          ↓reduceIte]
        constructor
        · intro right
          have belongs : c.antennaByState new = c.antennaByState c.currentState :=
            right.consistent isAuto
          exact absurd (belongs.trans (consistent isAuto).symm) sends.1
        · intro goes
          exact (goes trivial (Ne.symm other) sends).2.elim
    | failed tx sends failed =>
      by_cases restored : o.restoreTxAntennas = .ok
      · by_cases taken : o.taCocCfg = .ok
        · simp only [Coc.setInterval, restored, taken, ne_eq, not_true_eq_false, ↓reduceIte]
          constructor
          · intro right
            exact absurd right (not_right_of_forgotten rfl failed rfl)
          · intro goes
            exact absurd (goes trivial (Ne.symm other) sends).1 failed
        · simp only [Coc.setInterval, restored, taken, ne_eq, not_true_eq_false,
            not_false_eq_true, ↓reduceIte]
          constructor
          · intro right
            exact absurd right (not_right_of_forgotten rfl failed rfl)
          · intro goes
            exact absurd (goes trivial (Ne.symm other) sends).1 failed
      · simp only [ne_eq, restored, not_false_eq_true, ↓reduceIte]
        constructor
        · intro right
          exact absurd right (not_right_of_forgotten rfl failed rfl)
        · intro goes
          exact absurd (goes trivial (Ne.symm other) sends).1 failed

end Calls

/-! ## Runs -/

/-- The criterion is started in automatic mode only. -/
def Watched (c : Coc) : Prop := c.critStarted → c.isAutoMode

theorem Setting.watched {c : Coc} {o : Outcome} {cfg : AntennaCfg} {r : Coc × Err}
    (setting : Setting c o cfg r) (h : Watched c) : Watched r.1 := by
  cases setting with
  | same | refused | switched | failed => exact h

theorem setInterval_watched {c : Coc} (o : Outcome) (state : PowerState) (h : Watched c) :
    Watched (c.setInterval o state).1 := by
  unfold Coc.setInterval
  split <;> exact h

theorem setPowerMode_watched {c : Coc} (o : Outcome) (isAutoMode : Bool) (h : Watched c) :
    Watched (c.setPowerMode o isAutoMode).1 := by
  have start : Watched { c with autoModeCfg := isAutoMode } := h
  unfold Coc.setPowerMode
  generalize { c with autoModeCfg := isAutoMode } = c at start
  simp only
  split
  · exact start
  · split
    · split
      · exact start
      · have set := (setAntennas_setting c o c.hwAntennaCfg).watched start
        split
        · exact set
        · split
          · exact setInterval_watched o .power3x3 set
          · exact fun _ => rfl
    · have set := (setAntennas_setting c o c.manualAntennaCfg).watched start
      split
      · exact set
      · intro running
        dsimp only at running
        split at running
        case isTrue => cases running
        case isFalse manual => exact absurd (set running) manual

theorem step_watched {c : Coc} {x : Call} (h : Watched c) : Watched (step c x) := by
  cases x with
  | setPowerMode o isAutoMode => exact setPowerMode_watched o isAutoMode h
  | setAntennaParams params =>
    simp only [step, call, Coc.setAntennaParams]
    split <;> exact h
  | setAutoParams o params =>
    simp only [step, call, Coc.setAutoParams]
    split
    · exact h
    · split
      · have set :=
          setInterval_watched (c := { c with autoAntennaCfg := params }) o c.currentState h
        split <;> exact set
      · exact h
  | autoPower o maxTp =>
    simp only [step, call, Coc.autoPowerCallback, Coc.autoModeProcess]
    split
    · split
      · exact h
      · generalize c.autoAntennaCfg.nextState maxTp c.currentState = new
        have set := (setAntennas_setting c o (c.antennaByState new)).watched h
        split
        · exact set
        · have interval := setInterval_watched o new set
          split <;> exact interval
    · exact h

/-- The states in which calls are made. -/
structure Valid (c : Coc) : Prop where
  consistent : c.Consistent
  watched : Watched c

theorem init_valid (hw : AntennaCfg) (defaultAutoCfg : AutoCfg) :
    Valid (Coc.init hw defaultAutoCfg) := ⟨nofun, nofun⟩

/-- Every call. -/
theorem right_iff_goes {c : Coc} {x : Call} (valid : Valid c) :
    Right c (call c x) ↔ Goes c x := by
  obtain ⟨consistent, watched⟩ := valid
  cases x with
  | setPowerMode o isAutoMode =>
    cases isAutoMode with
    | true => exact setPowerMode_auto consistent
    | false => exact setPowerMode_manual consistent
  | setAntennaParams params =>
    constructor
    · exact fun _ => trivial
    · intro
      simp only [call, Coc.setAntennaParams]
      split
      · exact right_of_config consistent rfl rfl rfl
      · exact right_of_config consistent rfl rfl rfl
  | setAutoParams o params => exact setAutoParams_iff consistent
  | autoPower o maxTp => exact autoPower_iff consistent watched

/-- Of any sequence of calls, each is atomic and leaves a consistent state exactly when each goes as
it has to in the state in which it is made. -/
theorem calls_right_iff (hw : AntennaCfg) (defaultAutoCfg : AutoCfg) (calls : List Call) :
    Allowed step (fun c x => Right c (call c x)) (Coc.init hw defaultAutoCfg) calls ↔
      Allowed step Goes (Coc.init hw defaultAutoCfg) calls := by
  apply allowed_iff (init_valid hw defaultAutoCfg)
  · exact fun c x valid => right_iff_goes valid
  · exact fun c x valid right => ⟨right.consistent, step_watched valid.watched⟩

/-- The message to go from 1x1 to the 3x3 of the automatic mode is not answered. The call returns
`MTLK_ERR_OK`, and the automatic mode is on with one antenna in the state for three. -/
theorem timeout_forgotten : ¬ ∀ (hw : AntennaCfg) (defaultAutoCfg : AutoCfg) (calls : List Call),
    Allowed step (fun c x => Right c (call c x)) (Coc.init hw defaultAutoCfg) calls := by
  intro all
  have right := all ⟨3, 3⟩ defaultAutoCfg
    [.setAntennaParams ⟨1, 1⟩, .setPowerMode .fine false,
      .setPowerMode { Outcome.fine with msgSendBlocked := .timeout } true]
  exact right.2.2.1.reported (by decide) (by decide)

end Wave300.Power
