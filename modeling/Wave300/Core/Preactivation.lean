import Mathlib.Data.List.Basic

/-!
# Pre-activation

`core.c`: `_mtlk_mbss_preactivate` for the core of the master. It starts AOCS, scans in one band,
has AOCS select a channel, loads the programming models, and sends what the firmware needs before an
access point is activated.

What the steps return that other modules and the firmware take is given, and each step is noted with
what it returned. Events and reports that nothing waits for are left out, as are the parameters that
are only passed on.
-/

namespace Wave300.Preactivation

/-- `MTLK_ERR_OK` -/
def errOk : Int := 0
/-- `MTLK_ERR_UNKNOWN` -/
def errUnknown : Int := -2
/-- `MTLK_ERR_UMI` -/
def errUmi : Int := -9
/-- `MTLK_ERR_SCAN_FAILED` -/
def errScanFailed : Int := -15
/-- `MTLK_ERR_AOCS_FAILED` -/
def errAocsFailed : Int := -16

/-- `mtlk_hw_band` -/
inductive Band where
  | ghz52
  | ghz24
  | both
  | none
  deriving DecidableEq

/-- `SPECTRUM_*` -/
inductive Spectrum where
  | mhz20
  | mhz40
  | auto
  deriving DecidableEq

/-- `ALTERNATE_*` -/
inductive Bonding where
  | upper
  | lower
  | none
  deriving DecidableEq

/-- `SCAN_TABLE_*`: whether interference is measured, and how. -/
inductive Scan where
  | noMeas20RegularAll
  | noMeas40RegularAll
  | meas20LongUnrestr
  | meas20ShortRestr
  | meas40LongUnrestr
  | meas40ShortRestr

def Scan.interfdetMode : Scan → Bool
  | noMeas20RegularAll | noMeas40RegularAll => false
  | meas20LongUnrestr | meas20ShortRestr | meas40LongUnrestr | meas40ShortRestr => true

/-- A row of `scan_table_interf_en` or `scan_table_interf_dis`. -/
def scanTable (interfEn coex : Bool) : Spectrum → List Scan
  | .mhz40 =>
    if coex then
      if interfEn then [.noMeas40RegularAll, .meas20LongUnrestr, .meas20ShortRestr]
      else [.noMeas40RegularAll, .noMeas20RegularAll]
    else
      if interfEn then [.noMeas20RegularAll, .meas40LongUnrestr, .meas40ShortRestr]
      else [.noMeas40RegularAll, .noMeas20RegularAll]
  | .mhz20 | .auto =>
    if interfEn then [.meas20LongUnrestr, .meas20ShortRestr] else [.noMeas20RegularAll]

/-- The state of the core: its parameters in the database, `aocs_started`, `is_interfdet_enabled`,
whether 20/40 coexistence is limited to 20 MHz, and `last_channel` of the scan. -/
structure Nic where
  freqBandCfg : Band
  selectedSpectrumMode : Spectrum
  selectedBondingMode : Bonding
  progModelSpectrumMode : Spectrum
  channelCur : Nat
  aocsStarted : Bool
  isInterfdetEnabled : Bool
  limitedTo20 : Bool
  lastChannel : Nat

/-- What is configured, and what the steps return. A message to the firmware has no slot, is not
sent, or comes back with a status. -/
structure Env where
  rescanExempted : Bool
  channelCfg : Nat
  userSpectrumMode : Spectrum
  userBonding : Bonding
  coexEnabled : Bool
  aocsTypeNone : Bool
  interfdetModeCfg : Bool
  aocsStart : Int
  setFwInterfdetReq : Scan → Int
  scanSync : Band → Scan → Int
  selectChannel : Int
  selected : Nat × Spectrum × Bonding
  operationPermitted : Nat → Bonding → Bool
  progmodelLoad : Int
  mibSetPreActivate : Int
  set80211dMibs : Int
  mibSpectrumMode : Int
  reloadTpc : Int
  debugTpc : Int
  lnaGains : Int
  preactivateMsg : Int
  preactivateSend : Int
  preactivateStatus : Nat
  powerLimit : Int
  raProtection : Int
  forceNcb : Int
  nRateBo : Int

/-- The steps whose results are looked at or assigned. -/
inductive Step where
  | aocsStart
  | initialScan
  | selectChannel
  | progmodelLoad
  | mibs
  | debugTpc
  | lnaGains
  | preactivateReq
  | powerLimit
  | raProtection
  | forceNcb
  | nRateBo
  deriving DecidableEq

/-- The core, and the steps so far with what they returned. -/
structure Run where
  nic : Nic
  log : List (Step × Int)

def Run.note (r : Run) (s : Step) (res : Int) : Run := { r with log := r.log ++ [(s, res)] }

/-- `mtlk_core_is_20_40_active` for an access point -/
def is2040Active (env : Env) (nic : Nic) : Bool := env.coexEnabled && nic.freqBandCfg = .ghz24

/-- `mtlk_core_set_cur_bonding` -/
def setCurBonding (nic : Nic) : Bonding → Nic
  | .upper => { nic with selectedBondingMode := .upper }
  | .lower => { nic with selectedBondingMode := .lower }
  | .none => nic

/-- `_mtlk_mbss_preactivate` up to the start of AOCS. -/
def prepare (env : Env) (nic : Nic) : Nic :=
  let nic := setCurBonding nic env.userBonding
  if is2040Active env nic then
    if env.userSpectrumMode = .mhz20 then
      { nic with limitedTo20 := true, selectedSpectrumMode := .mhz20 }
    else { nic with limitedTo20 := false, selectedSpectrumMode := .mhz40 }
  else { nic with selectedSpectrumMode := env.userSpectrumMode }

/-- The start of AOCS, with whether it is started then. -/
def startAocs (env : Env) (r : Run) : Run × Bool :=
  if r.nic.aocsStarted then (r, true)
  else
    let r := r.note .aocsStart env.aocsStart
    if env.aocsStart ≠ errOk then (r, false)
    else ({ r with nic := { r.nic with aocsStarted := true } }, true)

/-- The loop of `_mtlk_core_perform_initial_scan` over the scans that are left. -/
def performScans (env : Env) : List Scan → Nic → Nic × Int
  | [], nic => (nic, errOk)
  | scan :: rest, nic =>
    let configured := scan.interfdetMode || nic.isInterfdetEnabled
    if configured ∧ env.setFwInterfdetReq scan ≠ errOk then (nic, errScanFailed)
    else
      let nic := if configured then { nic with isInterfdetEnabled := scan.interfdetMode } else nic
      if env.scanSync nic.freqBandCfg scan ≠ errOk then (nic, errScanFailed)
      else performScans env rest nic

/-- `_mtlk_core_perform_initial_scan` -/
def performInitialScan (env : Env) (nic : Nic) : Nic × Int :=
  if env.rescanExempted && env.channelCfg ≠ 0 then (nic, errOk)
  else if env.channelCfg = 0 || !env.aocsTypeNone || env.coexEnabled then
    performScans env (scanTable env.interfdetModeCfg env.coexEnabled env.userSpectrumMode) nic
  else (nic, errOk)

/-- The band in which the initial scan is done. -/
def scanBand (band : Band) : Band := if band = .ghz24 then .ghz24 else .ghz52

/-- `MTLK_CORE_PDB_SET_INT` of `PARAM_DB_CORE_FREQ_BAND_CFG` -/
def setFreqBandCfg (nic : Nic) (band : Band) : Nic := { nic with freqBandCfg := band }

/-- The selection of a channel, after which the configured band is restored. -/
def selectChannel (env : Env) (band : Band) (r : Run) : Run :=
  let (channel, spectrum, bonding) := env.selected
  let nic := { r.nic with
    channelCur := channel, selectedSpectrumMode := spectrum, selectedBondingMode := bonding }
  { r with nic := setFreqBandCfg nic band }.note .selectChannel env.selectChannel

/-- The check whether the channel pair may be used, and the spectrum for the programming models. -/
def limitSpectrum (env : Env) (nic : Nic) : Nic :=
  let nic :=
    if is2040Active env nic ∧ nic.selectedSpectrumMode = .mhz40 ∧
        !env.operationPermitted nic.channelCur nic.selectedBondingMode then
      { nic with
        selectedBondingMode := .none, selectedSpectrumMode := .mhz20, limitedTo20 := true }
    else nic
  { nic with
    progModelSpectrumMode := if nic.selectedSpectrumMode = .mhz20 then .mhz20 else .mhz40 }

/-- `_core_set_preactivation_mibs` -/
def setPreactivationMibs (env : Env) : Int :=
  if env.mibSetPreActivate ≠ errOk then errUnknown
  else if env.set80211dMibs ≠ errOk then errUnknown
  else if env.mibSpectrumMode ≠ errOk then errUnknown
  else if env.reloadTpc ≠ errOk then errUnknown
  else errOk

/-- `_mtlk_mbss_send_preactivate_req` -/
def sendPreactivateReq (env : Env) : Int :=
  if env.preactivateMsg ≠ errOk then env.preactivateMsg
  else if env.preactivateSend ≠ errOk then env.preactivateSend
  else if env.preactivateStatus ≠ 0 then errUmi
  else errOk

/-- `_mtlk_mbss_preactivate` once a channel is selected and the programming models are loaded. What
setting the MIBs returns is dropped, and what most of the other steps return is overwritten. -/
def configure (env : Env) (r : Run) : Run × Int :=
  let r := { r with nic := { r.nic with lastChannel := r.nic.channelCur } }
  let r := r.note .mibs (setPreactivationMibs env)
  let r := r.note .debugTpc env.debugTpc
  let r := r.note .lnaGains env.lnaGains
  let r := r.note .preactivateReq (sendPreactivateReq env)
  if sendPreactivateReq env ≠ errOk then (r, sendPreactivateReq env)
  else
    let r := r.note .powerLimit env.powerLimit
    let r := r.note .raProtection env.raProtection
    let r := r.note .forceNcb env.forceNcb
    let r := r.note .nRateBo env.nRateBo
    (r, env.nRateBo)

/-- `_mtlk_mbss_preactivate` after the initial scan. -/
def selectAndConfigure (env : Env) (apScanBandCfg : Band) (r : Run) : Run × Int :=
  let r := selectChannel env apScanBandCfg r
  let r := { r with nic := limitSpectrum env r.nic }.note .progmodelLoad env.progmodelLoad
  if env.progmodelLoad ≠ errOk then (r, errUnknown)
  else if env.selectChannel ≠ errOk then (r, errAocsFailed)
  else configure env r

/-- `_mtlk_mbss_preactivate` once AOCS is started. -/
def scanAndConfigure (env : Env) (r : Run) : Run × Int :=
  let apScanBandCfg := r.nic.freqBandCfg
  let (nic, res) := performInitialScan env (setFreqBandCfg r.nic (scanBand apScanBandCfg))
  let r := { r with nic := nic }.note .initialScan res
  if res ≠ errOk then (r, res) else selectAndConfigure env apScanBandCfg r

/-- `_mtlk_mbss_preactivate` -/
def mbssPreactivate (env : Env) (nic : Nic) : Run × Int :=
  let (r, started) := startAocs env ⟨prepare env nic, []⟩
  if started then scanAndConfigure env r else (r, errAocsFailed)

/-! ## What is restored and what is reported -/

/-- The configured band is what it was at entry. -/
def Restores (nic : Nic) (out : Run × Int) : Prop := out.1.nic.freqBandCfg = nic.freqBandCfg

instance (nic : Nic) (out : Run × Int) : Decidable (Restores nic out) :=
  inferInstanceAs (Decidable (_ = _))

/-- Success is returned only if the pre-activation request and every step before it succeeded. -/
def Reports (out : Run × Int) : Prop := out.2 = errOk →
  (.preactivateReq, errOk) ∈ out.1.log ∧
    ∀ s ∈ out.1.log.takeWhile fun s => s.1 ≠ .preactivateReq, s.2 = errOk

variable (env : Env) (nic : Nic)

/-- AOCS is started, or can be. -/
def AocsStarts : Prop := nic.aocsStarted ∨ env.aocsStart = errOk

/-- What the initial scan returns. -/
def initialScan : Int :=
  let r := (startAocs env ⟨prepare env nic, []⟩).1
  (performInitialScan env (setFreqBandCfg r.nic (scanBand r.nic.freqBandCfg))).2

/-- None of the steps fails whose result is dropped, if those that are looked at succeed. -/
def DropsNothing : Prop := sendPreactivateReq env = errOk → env.nRateBo = errOk →
  setPreactivationMibs env = errOk ∧ env.debugTpc = errOk ∧ env.lnaGains = errOk

/-- A failing scan was done in the configured band, and no failure of a step is dropped once the
steps before the configuration succeed. -/
structure Proper : Prop where
  band : AocsStarts env nic → initialScan env nic ≠ errOk →
    scanBand nic.freqBandCfg = nic.freqBandCfg
  steps : AocsStarts env nic → initialScan env nic = errOk → env.selectChannel = errOk →
    env.progmodelLoad = errOk → DropsNothing env

variable {env nic}

theorem prepare_freqBandCfg : (prepare env nic).freqBandCfg = nic.freqBandCfg := by
  have bonded : (setCurBonding nic env.userBonding).freqBandCfg = nic.freqBandCfg := by
    cases env.userBonding <;> rfl
  unfold prepare
  dsimp only
  split
  · split <;> exact bonded
  · exact bonded

theorem prepare_aocsStarted : (prepare env nic).aocsStarted = nic.aocsStarted := by
  have bonded : (setCurBonding nic env.userBonding).aocsStarted = nic.aocsStarted := by
    cases env.userBonding <;> rfl
  unfold prepare
  dsimp only
  split
  · split <;> exact bonded
  · exact bonded

theorem performScans_freqBandCfg {scans : List Scan} {nic : Nic} :
    (performScans env scans nic).1.freqBandCfg = nic.freqBandCfg := by
  induction scans generalizing nic with
  | nil => rfl
  | cons scan rest ih =>
    unfold performScans
    dsimp only
    split
    case isTrue => rfl
    case isFalse =>
      by_cases configured : (scan.interfdetMode || nic.isInterfdetEnabled) = true
      · rw [if_pos configured]
        split
        · rfl
        · rw [ih]
      · rw [if_neg configured]
        split
        · rfl
        · rw [ih]

theorem performInitialScan_freqBandCfg {nic : Nic} :
    (performInitialScan env nic).1.freqBandCfg = nic.freqBandCfg := by
  unfold performInitialScan
  split
  · rfl
  · split
    · exact performScans_freqBandCfg
    · rfl

theorem limitSpectrum_freqBandCfg {nic : Nic} :
    (limitSpectrum env nic).freqBandCfg = nic.freqBandCfg := by
  unfold limitSpectrum
  dsimp only
  split <;> rfl

/-- How AOCS is started, if it is. -/
theorem startAocs_cases (env : Env) (nic : Nic) :
    (¬AocsStarts env nic ∧ ∃ r, startAocs env ⟨nic, []⟩ = (r, false) ∧
      r.nic.freqBandCfg = nic.freqBandCfg) ∨
    AocsStarts env nic ∧ ∃ r, startAocs env ⟨nic, []⟩ = (r, true) ∧
      r.nic.freqBandCfg = nic.freqBandCfg ∧ ∀ s ∈ r.log, s.2 = errOk ∧ s.1 ≠ .preactivateReq := by
  unfold startAocs
  dsimp only
  split
  case isTrue started =>
    exact .inr ⟨.inl started, _, rfl, rfl, List.forall_mem_nil _⟩
  case isFalse stopped =>
    split
    case isTrue fails => exact .inl ⟨fun starts => starts.elim stopped fails, _, rfl, rfl⟩
    case isFalse ok =>
      refine .inr ⟨.inr (not_not.1 ok), _, rfl, rfl, ?_⟩
      exact List.forall_mem_singleton.2 ⟨not_not.1 ok, Step.noConfusion⟩

/-- A log of steps that succeeded and come before the pre-activation request. -/
def Early (log : List (Step × Int)) : Prop := ∀ s ∈ log, s.2 = errOk ∧ s.1 ≠ .preactivateReq

theorem Early.note {log : List (Step × Int)} (early : Early log) {s : Step} {res : Int}
    (ok : res = errOk) (other : s ≠ .preactivateReq) : Early (log ++ [(s, res)]) := by
  intro x mem
  cases List.mem_append.1 mem with
  | inl before => exact early x before
  | inr last =>
    obtain rfl := List.mem_singleton.1 last
    exact ⟨ok, other⟩

theorem Early.before {log rest : List (Step × Int)} (early : Early log) :
    (log ++ rest).takeWhile (fun s => s.1 ≠ .preactivateReq) =
      log ++ rest.takeWhile fun s => s.1 ≠ .preactivateReq :=
  List.takeWhile_append_of_pos fun s mem => decide_eq_true (early s mem).2

theorem Early.configure_iff {r : Run} (early : Early r.log) :
    Reports (configure env r) ↔ DropsNothing env := by
  unfold configure DropsNothing
  dsimp only
  split
  case isTrue fails => exact ⟨fun _ ok => absurd ok fails, fun _ ok => absurd ok fails⟩
  case isFalse sent =>
    replace sent := not_not.1 sent
    have first : List.takeWhile (fun s : Step × Int => decide (s.1 ≠ .preactivateReq))
        [(.mibs, setPreactivationMibs env), (.debugTpc, env.debugTpc), (.lnaGains, env.lnaGains),
          (.preactivateReq, errOk), (.powerLimit, env.powerLimit),
          (.raProtection, env.raProtection), (.forceNcb, env.forceNcb), (.nRateBo, env.nRateBo)] =
        [(.mibs, setPreactivationMibs env), (.debugTpc, env.debugTpc), (.lnaGains, env.lnaGains)] :=
      rfl
    simp only [Reports, Run.note, List.append_assoc, List.cons_append, List.nil_append,
      early.before, sent, first]
    constructor
    · intro reports _ ok
      have all := (reports ok).2
      exact ⟨all (.mibs, setPreactivationMibs env) (by simp),
        all (.debugTpc, env.debugTpc) (by simp), all (.lnaGains, env.lnaGains) (by simp)⟩
    · intro steps ok
      obtain ⟨mibs, tpc, lna⟩ := steps trivial ok
      constructor
      · simp
      · rw [mibs, tpc, lna]
        intro s mem
        cases List.mem_append.1 mem with
        | inl before => exact (early s before).1
        | inr last =>
          simp only [List.mem_cons, List.not_mem_nil, or_false] at last
          rcases last with rfl | rfl | rfl <;> rfl

theorem configure_freqBandCfg {r : Run} :
    (configure env r).1.nic.freqBandCfg = r.nic.freqBandCfg := by
  unfold configure
  dsimp only
  split <;> rfl

theorem selectAndConfigure_freqBandCfg {band : Band} {r : Run} :
    (selectAndConfigure env band r).1.nic.freqBandCfg = band := by
  unfold selectAndConfigure
  dsimp only
  split
  · exact limitSpectrum_freqBandCfg
  · split
    · exact limitSpectrum_freqBandCfg
    · rw [configure_freqBandCfg]
      exact limitSpectrum_freqBandCfg

theorem Early.selectAndConfigure_iff {band : Band} {r : Run} (early : Early r.log) :
    Reports (selectAndConfigure env band r) ↔
      (env.selectChannel = errOk → env.progmodelLoad = errOk → DropsNothing env) := by
  unfold selectAndConfigure
  dsimp only
  split
  case isTrue fails =>
    have bad : errUnknown ≠ errOk := by decide
    exact ⟨fun _ _ ok => absurd ok fails, fun _ ok => absurd ok bad⟩
  case isFalse loaded =>
    split
    case isTrue fails =>
      have bad : errAocsFailed ≠ errOk := by decide
      exact ⟨fun _ ok => absurd ok fails, fun _ ok => absurd ok bad⟩
    case isFalse selected =>
      have selectedOk := not_not.1 selected
      have loadedOk := not_not.1 loaded
      rw [Early.configure_iff]
      · exact ⟨fun drops _ _ => drops, fun drops => drops selectedOk loadedOk⟩
      · apply Early.note _ loadedOk (by decide)
        exact early.note selectedOk (by decide)

/-- What is restored and reported once AOCS is started. -/
theorem Early.scanAndConfigure_iff {r : Run} {res : Int} (early : Early r.log)
    (scan : (performInitialScan env (setFreqBandCfg r.nic (scanBand r.nic.freqBandCfg))).2 = res) :
    Restores r.nic (scanAndConfigure env r) ∧ Reports (scanAndConfigure env r) ↔
      (res ≠ errOk → scanBand r.nic.freqBandCfg = r.nic.freqBandCfg) ∧
      (res = errOk → env.selectChannel = errOk → env.progmodelLoad = errOk → DropsNothing env) := by
  unfold scanAndConfigure
  dsimp only
  rw [scan]
  by_cases ok : res = errOk
  · have front : Early (Run.note { r with nic :=
        (performInitialScan env (setFreqBandCfg r.nic (scanBand r.nic.freqBandCfg))).1 }
        .initialScan res).log := early.note ok (by decide)
    rw [if_neg (not_not.2 ok), front.selectAndConfigure_iff, Restores,
      selectAndConfigure_freqBandCfg]
    exact ⟨fun good => ⟨fun fails => absurd ok fails, fun _ => good.2⟩,
      fun good => ⟨rfl, good.2 ok⟩⟩
  · rw [if_pos ok]
    have band : Restores r.nic (Run.note { r with nic :=
        (performInitialScan env (setFreqBandCfg r.nic (scanBand r.nic.freqBandCfg))).1 }
        .initialScan res, res) ↔ scanBand r.nic.freqBandCfg = r.nic.freqBandCfg := by
      rw [Restores, Run.note, performInitialScan_freqBandCfg, setFreqBandCfg]
    rw [band]
    exact ⟨fun good => ⟨fun _ => good.1, fun known => absurd known ok⟩,
      fun good => ⟨good.1 ok, fun known => absurd known ok⟩⟩

/-- A pre-activation leaves the configured band alone and reports what fails exactly if a failing
scan has not changed the band, and no step fails whose result is dropped. -/
theorem preactivate_iff (env : Env) (nic : Nic) :
    Restores nic (mbssPreactivate env nic) ∧ Reports (mbssPreactivate env nic) ↔
      Proper env nic := by
  have starts : AocsStarts env (prepare env nic) ↔ AocsStarts env nic := by
    rw [AocsStarts, prepare_aocsStarted, AocsStarts]
  cases startAocs_cases env (prepare env nic) with
  | inl stopped =>
    obtain ⟨fails, r, eq, band⟩ := stopped
    rw [starts] at fails
    simp only [mbssPreactivate, eq]
    have bad : errAocsFailed ≠ errOk := by decide
    refine iff_of_true ⟨band.trans prepare_freqBandCfg, fun ok => absurd ok bad⟩ ?_
    exact ⟨fun known => absurd known fails, fun known => absurd known fails⟩
  | inr started =>
    obtain ⟨known, r, eq, band, early⟩ := started
    rw [starts] at known
    rw [prepare_freqBandCfg] at band
    have scan : (performInitialScan env (setFreqBandCfg r.nic (scanBand r.nic.freqBandCfg))).2 =
        initialScan env nic := by rw [initialScan, eq]
    have restores : Restores nic (scanAndConfigure env r) ↔
        Restores r.nic (scanAndConfigure env r) := by rw [Restores, Restores, band]
    simp only [mbssPreactivate, eq, if_true]
    rw [restores, Early.scanAndConfigure_iff early scan, band]
    constructor
    · intro good
      constructor
      case band => exact fun _ => good.1
      case steps => exact fun _ => good.2
    · intro proper
      exact ⟨proper.band known, proper.steps known⟩

/-- A dual-band core before its first activation. -/
def dualBand : Nic where
  freqBandCfg := .both
  selectedSpectrumMode := .mhz20
  selectedBondingMode := .upper
  progModelSpectrumMode := .mhz20
  channelCur := 0
  aocsStarted := false
  isInterfdetEnabled := false
  limitedTo20 := false
  lastChannel := 0

/-- A pre-activation in which every step succeeds. -/
def fine : Env where
  rescanExempted := false
  channelCfg := 0
  userSpectrumMode := .mhz20
  userBonding := .upper
  coexEnabled := false
  aocsTypeNone := false
  interfdetModeCfg := false
  aocsStart := errOk
  setFwInterfdetReq := fun _ => errOk
  scanSync := fun _ _ => errOk
  selectChannel := errOk
  selected := (36, .mhz20, .upper)
  operationPermitted := fun _ _ => true
  progmodelLoad := errOk
  mibSetPreActivate := errOk
  set80211dMibs := errOk
  mibSpectrumMode := errOk
  reloadTpc := errOk
  debugTpc := errOk
  lnaGains := errOk
  preactivateMsg := errOk
  preactivateSend := errOk
  preactivateStatus := 0
  powerLimit := errOk
  raProtection := errOk
  forceNcb := errOk
  nRateBo := errOk

/-- A scan that fails leaves the band it was done in, and MIBs that fail are not reported. -/
theorem band_kept_and_mibs_dropped :
    (¬∀ (env : Env) (nic : Nic), Restores nic (mbssPreactivate env nic)) ∧
      ¬∀ (env : Env) (nic : Nic), Reports (mbssPreactivate env nic) := by
  constructor
  · intro restores
    exact absurd (restores { fine with scanSync := fun _ _ => errScanFailed } dualBand) (by decide)
  · intro reports
    have all := reports { fine with reloadTpc := errUnknown } dualBand (by decide)
    exact absurd (all.2 (.mibs, errUnknown) (by decide)) (by decide)

end Wave300.Preactivation
