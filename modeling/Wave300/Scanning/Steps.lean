import Wave300.Scanning.Sequence

/-!
# The steps of a scan

What a step can do to a scan: it ends, or it sends a request and waits for the confirmation.
-/

namespace Wave300.Scanning

open Lib
open Wave300.Flow (Flctrl)

inductive Step where
  /-- `do_scan` -/
  | start (r : Request) (a : Answers)
  /-- The callback of the scan request sets `is_cfm_timeout`, and the confirmation is handled. -/
  | confirmed (cfmTimeout ok : Bool) (a : Answers)
  /-- `pause_timer_handler` -/
  | timer (scheduled : Bool)
  /-- The task of the pause timer. -/
  | elapsed (a : Answers)
  | terminate
  /-- `mtlk_scan_schedule_rescan` -/
  | rescan
  /-- `mtlk_scan_set_background` -/
  | setBackground (isBackground : Bool)
  | setPolicy (mustLoad : Bool)
  /-- `mtlk_scan_set_pause_between_chunks` -/
  | setPause (pause : Nat)
  /-- The other clients of the flow control object. -/
  | others (obj : Flctrl)
  /-- The `scan_complete` of `mtlk_core_prepare_stop`, for a core that is halted. -/
  | prepareStop

def step (s : Scan) : Step → Scan
  | .start r a => (doScan r a s).1
  | .confirmed cfmTimeout ok a =>
    handleScanConfirmed ok a
      { s with isCfmTimeout := cfmTimeout, air := { s.air with requested := false } }
  | .timer scheduled => { s with pauseTimer := false, task := scheduled }
  | .elapsed a => handlePauseElapsed a { s with task := false }
  | .terminate => scanTerminate s
  | .rescan => { s with rescan := true }
  | .setBackground isBackground => { s with isBackground := isBackground }
  | .setPolicy mustLoad => setLoadProgmodelPolicy mustLoad s
  | .setPause pause => { s with pauseBetweenChunks := pause }
  | .others obj => { s with air := { s.air with flctrl := obj } }
  | .prepareStop => if s.isRunning then scanComplete s else s

/-- A confirmation follows a request, and the other clients do not touch the scan's bit. -/
def Enabled (s : Scan) : Step → Prop
  | .confirmed .. => s.air.requested
  | .timer _ => s.pauseTimer
  | .elapsed _ => s.task
  | .others obj =>
    obj.stopRequestsMask &&& s.flctrlId = s.air.flctrl.stopRequestsMask &&& s.flctrlId
  | _ => True

instance (s : Scan) : ∀ i : Step, Decidable (Enabled s i)
  | .confirmed .. | .timer _ | .elapsed _ => inferInstanceAs (Decidable (_ = true))
  | .others _ => inferInstanceAs (Decidable (_ = _))
  | .start .. | .terminate | .rescan | .setBackground _ | .setPolicy _ | .setPause _
  | .prepareStop => .isTrue trivial

/-- `mtlk_scan_init` -/
structure Initial (s : Scan) : Prop where
  isRunning : s.isRunning = false
  treminateScan : s.treminateScan = false
  completed : s.completed = false
  pauseTimer : s.pauseTimer = false
  task : s.task = false
  stopped : s.stopped = false
  ps : s.air.ps = none
  requested : s.air.requested = false
  requests : s.air.requests = []
  progmodels : s.progmodels = fun _ => none
  started : s.started = 0
  reports : s.reports = []

/-- A station that is not connected, after `mtlk_scan_init`. -/
def fresh : Scan where
  isAp := false
  rescan := false
  essid := ""
  pauseBetweenChunks := 50
  isBackground := false
  used := 0
  spectrum := .mhz20
  origBand := .both
  curBand := .ghz24
  nextBand := none
  completed := false
  isRunning := false
  treminateScan := false
  isSynchronous := false
  mustLoadProgmodels := true
  isCfmTimeout := false
  pauseTimer := false
  task := false
  flctrlId := 1
  progmodels := fun _ => none
  abilitiesActive := false
  air := ⟨.init, 0, none, false, []⟩
  started := 0
  reports := []

theorem initial_fresh : Initial fresh := by
  constructor <;> rfl

/-- Every call succeeds, with three channels in each vector and two in each chunk. -/
def fine : Answers where
  isStopping := false
  workingBand := .ghz24
  workingSpectrum := .mhz40
  create := fun _ => true
  loadFromOs := fun _ => true
  prepare := fun _ => some 3
  psOn := .sent none
  configure := none
  send := .ok 2
  psOffError := .sent none
  switchBack := none
  psOff := .sent none

/-- The runs in which every step meets a condition. -/
def RunsIf (ok : Scan → Step → Prop) : Scan → Scan → Prop :=
  Runs step fun s i => Enabled s i ∧ ok s i

/-- The scan context is set up: what is scheduled, and what was asked of the firmware and of the
flow control, is as it was. -/
structure Setup (s t : Scan) : Prop where
  isRunning : t.isRunning = s.isRunning
  isBackground : t.isBackground = s.isBackground
  treminateScan : t.treminateScan = s.treminateScan
  completed : t.completed = s.completed
  mustLoad : t.mustLoadProgmodels = s.mustLoadProgmodels
  pauseTimer : t.pauseTimer = s.pauseTimer
  task : t.task = s.task
  flctrlId : t.flctrlId = s.flctrlId
  started : t.started = s.started
  reports : t.reports = s.reports
  air : t.air = { s.air with chOffset := t.air.chOffset }
  progmodels : s.mustLoadProgmodels = false ∨ s.isRunning = false → t.progmodels = s.progmodels

variable {s s' t u : Scan} {a : Answers}

theorem Setup.refl : Setup s s := by
  constructor <;> intros <;> rfl

theorem Setup.trans (h : Setup s t) (h' : Setup t u) : Setup s u where
  isRunning := h'.isRunning.trans h.isRunning
  isBackground := h'.isBackground.trans h.isBackground
  treminateScan := h'.treminateScan.trans h.treminateScan
  completed := h'.completed.trans h.completed
  mustLoad := h'.mustLoad.trans h.mustLoad
  pauseTimer := h'.pauseTimer.trans h.pauseTimer
  task := h'.task.trans h.task
  flctrlId := h'.flctrlId.trans h.flctrlId
  started := h'.started.trans h.started
  reports := h'.reports.trans h.reports
  air := by rw [h'.air, h.air]
  progmodels kept :=
    (h'.progmodels (kept.imp h.mustLoad.trans h.isRunning.trans)).trans (h.progmodels kept)

/-- Where a step of a scan leads: the scan ends without a request, waits for the confirmation of
one, or ends because none could be sent. -/
inductive Leads (a : Answers) (s : Scan) : Scan → Prop where
  | ends {t : Scan} : Setup s t → Leads a s (complete t)
  | waits {t : Scan} : Setup s t → (t.chunk a).2 = none →
      Leads a s { t with air := (t.chunk a).1 }
  | fails {t : Scan} {err : Err} : Setup s t → (t.chunk a).2 = some err →
      Leads a s (scanComplete { t with air := (t.chunk a).1 })

theorem Leads.setup (h : Setup s t) (leads : Leads a t s') : Leads a s s' := by
  cases leads with
  | ends same => exact .ends (h.trans same)
  | waits same sent => exact .waits (h.trans same) sent
  | fails same failed => exact .fails (h.trans same) failed

theorem setup_nextBand {next : Option Band} : Setup s { s with nextBand := next } := by
  constructor <;> intros <;> rfl

theorem leads_complete : Leads a s (scanComplete s) := .ends setup_nextBand

theorem leads_nextChunk :
    Leads a s (match scanNextChunk a s with
      | (s, none) => s
      | (s, some _) => scanComplete s) := by
  unfold scanNextChunk
  cases sent : (s.chunk a).2 with
  | none => exact .waits .refl sent
  | some err => exact .fails .refl sent

/-- A band is scanned, or what stands on its error path is done. -/
theorem leads_band {orElse : Scan → Scan} (else_ : Leads a s (orElse s)) :
    Leads a s (scanBand orElse a s).1 := by
  unfold scanBand
  split
  next => exact else_
  next => exact else_
  next n _ =>
    have same : Setup s { s with used := n + 1, air := { s.air with chOffset := 0 } } := by
      constructor <;> intros <;> rfl
    refine Leads.setup same ?_
    have leads := leads_nextChunk (a := a)
      (s := { s with used := n + 1, air := { s.air with chOffset := 0 } })
    split at leads <;> simp_all

theorem leads_nextBand {next : Band} : Leads a s (scanNextBand a next s).1 := by
  have same : Setup s { s with curBand := next, nextBand := none } := by
    constructor <;> intros <;> rfl
  exact Leads.setup same (leads_band (.ends .refl))

theorem leads_continue : Leads a s (completeOrContinue a s).1 := by
  unfold completeOrContinue
  split
  · exact .ends .refl
  · exact leads_nextBand

theorem leads_currentBand : Leads a s (scanCurrentBand a s).1 := leads_band leads_continue

theorem setup_sequence : Setup s (setupScanSequence s) := by
  unfold setupScanSequence
  split <;> constructor <;> intros <;> rfl

theorem preload_progmodels (s : Scan) (a : Answers) :
    ∃ models, (preloadProgmodels a s).1 = { s with progmodels := models } := by
  unfold preloadProgmodels
  simp only
  split
  · exact ⟨_, rfl⟩
  · split
    next => split <;> exact ⟨_, rfl⟩
    next => split <;> exact ⟨_, rfl⟩

theorem setup_preload (policy : s.mustLoadProgmodels) (running : s.isRunning) :
    Setup s (preloadProgmodels a s).1 := by
  obtain ⟨models, is⟩ := preload_progmodels s a
  rw [is]
  constructor <;> first | rfl | simp [policy, running]

theorem leads_startScan {r : Request} (running : s.isRunning) : Leads a s (startScan r a s).1 := by
  unfold startScan
  simp only
  have context : Setup s (setupScanSequence { s with
      abilitiesActive := true
      essid := r.essid.getD s.essid
      spectrum := r.spectrum
      origBand := r.band }) := by
    refine Setup.trans ?_ setup_sequence
    constructor <;> intros <;> rfl
  refine Leads.setup context ?_
  generalize setupScanSequence _ = t at context
  have runs : t.isRunning = true := context.isRunning.trans running
  by_cases policy : t.mustLoadProgmodels
  · have loaded := setup_preload (a := a) policy runs
    simp only [policy, if_true]
    refine Leads.setup loaded ?_
    split
    next same => simpa [same] using leads_complete
    next same => simpa [same] using leads_currentBand
  · simp only [policy, Bool.false_eq_true, if_false]
    exact leads_currentBand

theorem leads_elapsed : Leads a s (handlePauseElapsed a s) := by
  unfold handlePauseElapsed
  split_ifs
  · exact leads_complete
  · refine Leads.setup ?_ leads_currentBand
    refine Setup.trans ?_ setup_sequence
    constructor <;> intros <;> rfl
  · exact leads_nextChunk
  · exact leads_continue

/-- A confirmation that did not time out gives everything back first. -/
theorem confirmed_cases (ok : Bool) (a : Answers) (inTime : s.isCfmTimeout = false) :
    let t := (restoreAir a s).1
    Leads a t (handleScanConfirmed ok a s) ∨
      handleScanConfirmed ok a s = { t with pauseTimer := true } := by
  unfold handleScanConfirmed
  simp only [inTime, Bool.false_eq_true, if_false]
  split
  · exact .inl leads_complete
  split
  · exact .inl leads_complete
  split
  · exact .inl leads_complete
  split
  · exact .inr rfl
  · exact .inl leads_elapsed

end Wave300.Scanning
