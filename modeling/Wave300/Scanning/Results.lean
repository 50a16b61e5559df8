import Wave300.Scanning.Waiting

/-!
# The results of scan requests

`mtlk_scan_async` reports failure also when the second band is scanned after the first one could
not be. Each scan that was started ends once.
-/

namespace Wave300.Scanning

open Lib

variable {s s' t : Scan} {a : Answers}

/-- The conditions under which a chunk is sent. -/
structure Sends (s : Scan) (a : Answers) : Prop where
  ps : s.isBackground → a.psOn = .sent none
  configure : s.mustLoadProgmodels → a.configure = none
  send : ∃ offset, a.send = .ok offset

theorem chunk_sends (s : Scan) (a : Answers) : (s.chunk a).2 = none ↔ Sends s a := by
  have request : (if s.isBackground then (s.air.stopData s.flctrlId).sendPsReq true a.psOn
      else (s.air.stopData s.flctrlId, none)).2 = none ↔
        (s.isBackground → a.psOn = .sent none) := by
    split
    next background =>
      cases reply : a.psOn with
      | unsent err => simp [Air.sendPsReq, background]
      | sent res => simp [Air.sendPsReq, background]
    next background => simp [background]
  unfold Scan.chunk
  simp only
  split
  next air err is =>
    rw [is] at request
    constructor
    · intro none
      cases none
    · intro sends
      exact absurd (request.2 sends.ps) nofun
  next air is =>
    rw [is] at request
    have ps := request.1 rfl
    split
    next err failed =>
      constructor
      · intro none
        cases none
      · intro sends
        split at failed
        next policy => exact absurd failed (by simp [sends.configure policy])
        next => cases failed
    next configured =>
      have configure : s.mustLoadProgmodels → a.configure = none := by
        intro policy
        simpa [policy] using configured
      split
      next err failed =>
        constructor
        · intro none
          cases none
        · intro sends
          obtain ⟨offset, ok⟩ := sends.send
          cases failed.symm.trans ok
      next offset ok => exact ⟨fun _ => ⟨ps, configure, offset, ok⟩, fun _ => rfl⟩

/-- The vector of a band cannot be prepared, or is empty. -/
def Answers.Skips (a : Answers) (b : Band) : Prop := a.prepare b = none ∨ a.prepare b = some 0

theorem band_skipped {orElse : Scan → Scan} (skips : a.Skips s.curBand) :
    scanBand orElse a s = (orElse s, some .scanFailed) := by
  unfold scanBand
  obtain none | empty := skips
  · simp only [none]
  · simp only [empty]

/-- A band whose vector is prepared is scanned if its first chunk is sent. -/
theorem band_scanned (orElse : Scan → Scan) (scans : ¬ a.Skips s.curBand)
    (running : s.isRunning = true) :
    ((scanBand orElse a s).2 = none ↔ Sends s a) ∧
      ((scanBand orElse a s).1.isRunning = true ↔ Sends s a) := by
  unfold scanBand
  split
  next none => exact absurd (.inl none) scans
  next empty => exact absurd (.inr empty) scans
  next n _ =>
    have same : Sends { s with used := n + 1, air := { s.air with chOffset := 0 } } a ↔ Sends s a :=
      ⟨fun h => ⟨h.ps, h.configure, h.send⟩, fun h => ⟨h.ps, h.configure, h.send⟩⟩
    have sends :=
      (chunk_sends { s with used := n + 1, air := { s.air with chOffset := 0 } } a).trans
      same
    simp only [scanNextChunk]
    split
    next is =>
      obtain ⟨rfl, sent⟩ := Prod.mk.inj is
      have there := sends.1 sent
      exact ⟨⟨fun _ => there, fun _ => rfl⟩, ⟨fun _ => there, fun _ => running⟩⟩
    next err is =>
      obtain ⟨rfl, failed⟩ := Prod.mk.inj is
      have not_sent : ¬ Sends s a := by
        intro there
        cases failed.symm.trans (sends.2 there)
      exact ⟨⟨nofun, fun there => absurd there not_sent⟩,
        ⟨nofun, fun there => absurd there not_sent⟩⟩

/-- The first of two bands is skipped, and the first chunk of the second one is sent. -/
structure SecondBandOnly (band : Selection) (a : Answers) (s : Scan) : Prop where
  both : band = .both
  models : s.mustLoadProgmodels → ∀ b, a.create b = true ∧ a.loadFromOs b = true
  first : a.Skips .ghz52
  second : ¬ a.Skips .ghz24
  sends : Sends s a

/-- The result of the scan of the current band tells whether it runs, unless the next band is
scanned in its place. -/
theorem currentBand_result (running : s.isRunning = true) :
    ((scanCurrentBand a s).2 = none ↔ (scanCurrentBand a s).1.isRunning = true) ↔
      ¬ (a.Skips s.curBand ∧ ∃ next, s.nextBand = some next ∧ ¬ a.Skips next ∧ Sends s a) := by
  by_cases skips : a.Skips s.curBand
  · rw [scanCurrentBand, band_skipped skips]
    simp only [reduceCtorEq, false_iff, skips, true_and]
    rw [not_iff_not]
    unfold completeOrContinue
    cases last : s.nextBand with
    | none => simp [complete]
    | some next =>
      simp only [Option.some.injEq, exists_eq_left', scanNextBand]
      by_cases none : a.Skips next
      · rw [band_skipped (s := { s with curBand := next, nextBand := Option.none }) none]
        simp [none, complete]
      · rw [(band_scanned complete (s := { s with curBand := next, nextBand := Option.none }) none
          running).2]
        simp only [none, not_false_eq_true, true_and]
        exact ⟨fun h => ⟨h.ps, h.configure, h.send⟩, fun h => ⟨h.ps, h.configure, h.send⟩⟩
  · obtain ⟨result, runs⟩ := band_scanned (fun s => (completeOrContinue a s).1) skips running
    simp only [skips, false_and, not_false_eq_true, iff_true]
    exact result.trans runs.symm

@[simp] theorem createProgmodel_curBand (a : Answers) (b : Band) (s : Scan) :
    (createProgmodel a b s).curBand = s.curBand := rfl

@[simp] theorem createProgmodel_nextBand (a : Answers) (b : Band) (s : Scan) :
    (createProgmodel a b s).nextBand = s.nextBand := rfl

theorem preload_both (s : Scan) (a : Answers) (cur : s.curBand = .ghz52)
    (next : s.nextBand = some .ghz24) :
    (preloadProgmodels a s).2 = none ↔ ∀ b, a.create b = true ∧ a.loadFromOs b = true := by
  have bands : (∀ b, a.create b = true ∧ a.loadFromOs b = true) ↔
      (a.create .ghz24 = true ∧ a.loadFromOs .ghz24 = true) ∧
        a.create .ghz52 = true ∧ a.loadFromOs .ghz52 = true := by
    constructor
    · exact fun all => ⟨all .ghz24, all .ghz52⟩
    · rintro ⟨low, high⟩ (_ | _)
      · exact low
      · exact high
  rw [bands]
  unfold preloadProgmodels
  by_cases high : a.create .ghz52 = true
  · by_cases low : a.create .ghz24 = true
    · have loads : (createProgmodel a .ghz24 (createProgmodel a .ghz52 s)).loads a =
          (a.loadFromOs .ghz24 && a.loadFromOs .ghz52) := by
        simp [Scan.loads, createProgmodel, low, high]
      simp only [cur, next, high, low, createProgmodel_curBand, createProgmodel_nextBand, loads,
        not_true_eq_false, if_false, true_and]
      cases a.loadFromOs .ghz24 <;> cases a.loadFromOs .ghz52 <;> simp
    · simp [cur, next, high, low]
  · simp [cur, high]

/-- The scan context is set up for a request. -/
structure Framed (r : Request) (s u : Scan) : Prop where
  isRunning : u.isRunning = true
  isBackground : u.isBackground = s.isBackground
  mustLoad : u.mustLoadProgmodels = s.mustLoadProgmodels
  bands : ∀ next, u.nextBand = some next → r.band = .both
  both : r.band = .both → u.curBand = .ghz52 ∧ u.nextBand = some .ghz24

theorem framed_sequence {r : Request} (running : t.isRunning = true) (band : t.origBand = r.band)
    (background : t.isBackground = s.isBackground)
    (policy : t.mustLoadProgmodels = s.mustLoadProgmodels) : Framed r s (setupScanSequence t) := by
  unfold setupScanSequence
  split
  next both =>
    exact ⟨running, background, policy, fun _ _ => band ▸ both, fun _ => ⟨rfl, rfl⟩⟩
  next b one =>
    refine ⟨running, background, policy, nofun, ?_⟩
    intro both
    cases one.symm.trans (band.trans both)

theorem Framed.sends {r : Request} (h : Framed r s t) : Sends t a ↔ Sends s a := by
  constructor
  · exact fun sent => ⟨h.isBackground ▸ sent.ps, h.mustLoad ▸ sent.configure, sent.send⟩
  · exact fun sent => ⟨h.isBackground ▸ sent.ps, h.mustLoad ▸ sent.configure, sent.send⟩

theorem Framed.result {r : Request} (h : Framed r s t)
    (models : s.mustLoadProgmodels → r.band = .both →
      ∀ b, a.create b = true ∧ a.loadFromOs b = true) :
    ((scanCurrentBand a t).2 = none ↔ (scanCurrentBand a t).1.isRunning = true) ↔
      ¬ SecondBandOnly r.band a s := by
  rw [currentBand_result h.isRunning, h.sends, not_iff_not]
  constructor
  · rintro ⟨first, band, is, second, sent⟩
    have selected := h.bands band is
    obtain ⟨cur, next⟩ := h.both selected
    cases next.symm.trans is
    exact ⟨selected, fun policy => models policy selected, cur ▸ first, second, sent⟩
  · intro only
    obtain ⟨cur, next⟩ := h.both only.both
    exact ⟨cur ▸ only.first, .ghz24, next, only.second, only.sends⟩

/-- The result of a call that is not refused tells whether its scan runs, unless it scans the second
band only. -/
theorem startScan_result (r : Request) (running : s.isRunning = true) :
    ((startScan r a s).2 = none ↔ (startScan r a s).1.isRunning = true) ↔
      ¬ SecondBandOnly r.band a s := by
  unfold startScan
  simp only
  have framed : Framed r s (setupScanSequence { s with
      abilitiesActive := true
      essid := r.essid.getD s.essid
      spectrum := r.spectrum
      origBand := r.band }) := framed_sequence running rfl rfl rfl
  generalize setupScanSequence _ = t at framed
  by_cases load : t.mustLoadProgmodels
  · simp only [load, if_true]
    obtain ⟨models, is⟩ := preload_progmodels t a
    split
    next u err loaded =>
      have lost : ¬ SecondBandOnly r.band a s := by
        intro only
        obtain ⟨cur, next⟩ := framed.both only.both
        have there := (preload_both t a cur next).2 (only.models (framed.mustLoad.symm.trans load))
        rw [loaded] at there
        cases there
      simp only [lost, not_false_eq_true, iff_true]
      exact ⟨nofun, nofun⟩
    next u loaded =>
      rw [loaded] at is
      obtain rfl : u = { t with progmodels := models } := is
      refine Framed.result (t := { t with progmodels := models }) ?_ ?_
      · exact ⟨framed.isRunning, framed.isBackground, framed.mustLoad, framed.bands, framed.both⟩
      · intro _ selected
        obtain ⟨cur, next⟩ := framed.both selected
        exact (preload_both t a cur next).1 (congrArg Prod.snd loaded)
  · simp only [load, Bool.false_eq_true, if_false]
    exact framed.result fun policy => absurd (framed.mustLoad.trans policy) load

/-- Nothing is completed from outside, and the task of a pause timer is scheduled. -/
def Continued (s : Scan) (i : Step) : Prop := NotForced s i ∧ i ≠ .timer false

/-- `mtlk_scan_async` tells whether a scan runs, if none ran before and it does not scan the second
of two bands only; what it tells of its own scan does not depend on another one. In every run each
scan that was started is completed once, unless it still runs, and then it waits for one event. -/
theorem scan_results (s : Scan) (band : Selection) (essid : Option String) (a : Answers) :
    (((mtlkScanAsync band essid a s).2 = none ↔
        (mtlkScanAsync band essid a s).1.isRunning = true) ↔
      s.isRunning = false ∧ (a.isStopping = true ∨ ¬ SecondBandOnly band a s)) ∧
    (((mtlkScanAsync band essid a s).2 = none ↔ (a.isStopping = false ∧ s.isRunning = false) ∧
        (mtlkScanAsync band essid a s).1.isRunning = true) ↔
      ¬ (a.isStopping = false ∧ s.isRunning = false ∧ SecondBandOnly band a s)) ∧
    (∀ s₀ s, Initial s₀ → RunsIf Continued s₀ s →
      s.waiting = s.isRunning.toNat ∧ s.started = s.reports.length + s.isRunning.toNat ∧
        ∀ r ∈ s.reports, r.oldVal = true) := by
  have own : ∀ (s : Scan) band essid a, s.isRunning = false → a.isStopping = false →
      (((mtlkScanAsync band essid a s).2 = none ↔
        (mtlkScanAsync band essid a s).1.isRunning = true) ↔ ¬ SecondBandOnly band a s) := by
    intro s band essid a idle goes
    simp only [mtlkScanAsync, doScan, goes, idle, Bool.false_eq_true, or_self, if_false]
    rw [startScan_result _ rfl, not_iff_not]
    exact ⟨fun h =>
        ⟨h.both, h.models, h.first, h.second, ⟨h.sends.ps, h.sends.configure, h.sends.send⟩⟩,
      fun h => ⟨h.both, h.models, h.first, h.second, ⟨h.sends.ps, h.sends.configure, h.sends.send⟩⟩⟩
  refine ⟨?_, ?_, ?_⟩
  · by_cases running : s.isRunning = true
    · simp [mtlkScanAsync, doScan, running]
    · simp only [Bool.not_eq_true] at running
      by_cases stopping : a.isStopping = true
      · simp [mtlkScanAsync, doScan, running, stopping]
      · simp only [Bool.not_eq_true] at stopping
        simp [own s band essid a running stopping, running, stopping]
  · by_cases refused : a.isStopping = true ∨ s.isRunning = true
    · simp only [mtlkScanAsync, doScan, refused, if_true]
      obtain stopping | running := refused
      · simp [stopping]
      · simp [running]
    · push Not at refused
      simp only [Bool.not_eq_true] at refused
      obtain ⟨stopping, running⟩ := refused
      simp [own s band essid a running stopping, running, stopping]
  · intro s₀ s start run
    have counted := waiting_run start (run.mono fun _ _ allowed => ⟨allowed.1, allowed.2.1⟩)
    refine ⟨?_, counted.2.started, counted.2.oldVal⟩
    refine Runs.invariant (P := fun s => s.waiting = s.isRunning.toNat) run ?_ ?_
    · simp [Scan.waiting, start.requested, start.pauseTimer, start.task, start.isRunning]
    · rintro s i waits ⟨enabled, unforced, scheduled⟩
      obtain ⟨same, runs⟩ | waiting | ⟨lost, -⟩ := step_waiting waits.le enabled unforced
      · rw [same, runs, waits]
      · exact waiting
      · exact absurd lost scheduled

/-- A scan of two bands with three channels each, in chunks of two. -/
def bothBands : List Step := [.start ⟨.both, .mhz20, none, false⟩ fine, .confirmed false true fine,
  .confirmed false true { fine with send := .ok 3 }, .confirmed false true fine,
  .confirmed false true fine]

theorem scan_results_bothBands : (bothBands.foldl step fresh).started = 1 ∧
    (bothBands.foldl step fresh).waiting = (bothBands.foldl step fresh).isRunning.toNat := by
  have run : RunsIf Continued fresh (bothBands.foldl step fresh) := by
    refine Runs.of_allowed ?_
    simp only [bothBands, Allowed, and_true]
    exact ⟨⟨trivial, trivial, by simp⟩, ⟨by decide, trivial, by simp⟩,
      ⟨by decide, trivial, by simp⟩, ⟨by decide, trivial, by simp⟩, ⟨by decide, trivial, by simp⟩⟩
  exact ⟨by decide, ((scan_results fresh .both none fine).2.2 _ _ initial_fresh run).1⟩

/-- The vector of the 5.2 GHz band cannot be prepared, and the 2.4 GHz band is scanned. -/
theorem scan_result_false : ¬ ∀ (s : Scan) band essid a, s.isRunning = false →
    ((mtlkScanAsync band essid a s).2 = none ↔
      (mtlkScanAsync band essid a s).1.isRunning = true) := by
  intro claim
  have result := claim fresh .both none
    { fine with prepare := fun b => if b = .ghz52 then none else some 3 } rfl
  revert result
  decide

end Wave300.Scanning
