import Wave300.Scanning.Waiting

/-!
# A scan gives the air back

What a chunk stops, the confirmation starts again, unless the confirmation times out.
-/

namespace Wave300.Scanning

open Lib
open Wave300.Flow (Flctrl)

variable {s s' t : Scan} {a : Answers} {q : Prop}

/-- Every chunk is confirmed in time, and no scan is completed from outside. -/
def InTime (s : Scan) : Step → Prop
  | .confirmed cfmTimeout _ _ => cfmTimeout = false
  | i => NotForced s i

/-- A request for power save is not sent in vain, and one to end it is sent. -/
structure Answers.Served (a : Answers) : Prop where
  on : ∀ err, a.psOn ≠ .sent (some err)
  offError : ∀ err, a.psOffError ≠ .unsent err
  off : ∀ err, a.psOff ≠ .unsent err

/-- Power-save requests are served, and a scan stays in the background if it began there. -/
def Served (s : Scan) : Step → Prop
  | .start _ a | .confirmed _ _ a | .elapsed a => a.Served
  | .setBackground isBackground => s.isRunning = false ∨ isBackground = s.isBackground
  | _ => True

theorem startData_stopped (obj : Flctrl) (id : BitVec 32) :
    (obj.startData id).stopRequestsMask &&& id = 0 := by
  simp only [Flctrl.startData]
  ext
  simp

/-- The air is as it was before the scan. `q` is whether power save is looked at. -/
structure Back (q : Prop) (id : BitVec 32) (air : Air) : Prop where
  flow : air.flctrl.stopRequestsMask &&& id = 0
  ps : q → air.ps ≠ some true

theorem Back.startData {air : Air} {id : BitVec 32} (ps : q → air.ps ≠ some true) :
    Back q id (air.startData id) :=
  ⟨startData_stopped _ _, ps⟩

theorem giveBack_back {air : Air} (served : q → a.Served)
    (there : s.isBackground = false → q → air.ps ≠ some true) :
    Back q s.flctrlId (air.giveBack s a) := by
  refine Back.startData ?_
  intro ask
  split
  · cases reply : a.psOffError with
    | unsent err => exact absurd reply ((served ask).offError err)
    | sent res => simp [Air.sendPsReq]
  next background => exact there (by simpa using background) ask

/-- A chunk that is not sent gives everything back; one that is sent turns power save on only
for a background scan. -/
theorem chunk_back (served : q → a.Served) (h : Back q s.flctrlId s.air) :
    ((s.chunk a).2 = none → q → (s.chunk a).1.ps = some true → s.isBackground = true) ∧
      (∀ err, (s.chunk a).2 = some err → Back q s.flctrlId (s.chunk a).1) := by
  have request : ∀ air res, (if s.isBackground then
      (s.air.stopData s.flctrlId).sendPsReq true a.psOn else (s.air.stopData s.flctrlId, none)) =
        (air, res) → (res.isSome ∨ s.isBackground = false) → q → air.ps ≠ some true := by
    intro air res is lost ask
    split at is
    next background =>
      cases reply : a.psOn with
      | unsent err =>
        rw [reply] at is
        cases is
        exact h.ps ask
      | sent sentRes =>
        rw [reply] at is
        cases is
        obtain ⟨err, some_⟩ :=
          Option.isSome_iff_exists.1 (lost.resolve_right (by simp [background]))
        exact absurd (reply.trans (congrArg _ some_)) ((served ask).on err)
    · cases is
      exact h.ps ask
  unfold Scan.chunk
  simp only
  split
  next air err is =>
    refine ⟨by simp, ?_⟩
    intro _ _
    exact Back.startData (request _ _ is (.inl rfl))
  next air is =>
    have normal : s.isBackground = false → q → air.ps ≠ some true :=
      fun background => request _ _ is (.inr background)
    split
    · exact ⟨by simp, fun _ _ => giveBack_back served normal⟩
    · split
      · exact ⟨by simp, fun _ _ => giveBack_back served normal⟩
      · refine ⟨?_, by simp⟩
        intro _ ask on
        by_contra background
        exact normal (by simpa using background) ask on

/-- The confirmation gives everything back. -/
theorem restoreAir_back (served : q → a.Served)
    (lent : q → s.air.ps = some true → s.isBackground = true) :
    Back q s.flctrlId (restoreAir a s).1.air := by
  unfold restoreAir
  by_cases background : s.isBackground
  · simp only [background, if_true]
    refine Back.startData ?_
    intro ask
    cases reply : a.psOff with
    | unsent err => exact absurd reply ((served ask).off err)
    | sent res => simp [Air.sendPsReq]
  · simp only [background, Bool.false_eq_true, if_false]
    exact Back.startData fun ask on => background (lent ask on)

/-- What a completion reports. -/
def Report.Balanced (q : Prop) (r : Report) : Prop := r.stopped = false ∧ (q → r.ps ≠ some true)

/-- The air is lent only while a request is with the firmware. -/
structure Balanced (q : Prop) (s : Scan) : Prop where
  back : s.air.requested = false → Back q s.flctrlId s.air
  lent : q → s.air.ps = some true → s.isBackground = true
  reports : ∀ r ∈ s.reports, r.Balanced q

theorem Balanced.of_back (back : Back q s.flctrlId s.air)
    (reports : ∀ r ∈ s.reports, r.Balanced q) :
    Balanced q s :=
  ⟨fun _ => back, fun ask on => absurd on (back.ps ask), reports⟩

theorem Setup.back (same : Setup s t) (h : Back q s.flctrlId s.air) : Back q t.flctrlId t.air := by
  rw [same.flctrlId, same.air]
  exact ⟨h.flow, h.ps⟩

theorem balanced_complete (back : Back q s.flctrlId s.air)
    (reports : ∀ r ∈ s.reports, r.Balanced q) :
    Balanced q (complete s) := by
  have frame : (complete s).flctrlId = s.flctrlId ∧ (complete s).air = s.air ∧
      ∃ r : Report, (complete s).reports = s.reports ++ [r] ∧ r.stopped = s.stopped ∧
        r.ps = s.air.ps := by
    simp only [complete]
    split <;> exact ⟨rfl, rfl, _, rfl, rfl, rfl⟩
  obtain ⟨id, air, r, log, stopped, ps⟩ := frame
  refine Balanced.of_back (by rwa [id, air]) ?_
  intro r' mem
  rw [log, List.mem_append, List.mem_singleton] at mem
  obtain before | rfl := mem
  · exact reports r' before
  · exact ⟨stopped.trans (by simp [Scan.stopped, back.flow]), fun ask => ps ▸ back.ps ask⟩

theorem balanced_scanComplete (back : Back q s.flctrlId s.air)
    (reports : ∀ r ∈ s.reports, r.Balanced q) : Balanced q (scanComplete s) :=
  balanced_complete (s := { s with nextBand := none }) back reports

theorem Leads.balanced (leads : Leads a s s') (served : q → a.Served)
    (back : Back q s.flctrlId s.air) (reports : ∀ r ∈ s.reports, r.Balanced q) :
    Balanced q s' := by
  induction leads with
  | ends same => exact balanced_complete (same.back back) (same.reports ▸ reports)
  | @waits t same sent =>
    obtain ⟨lent, -⟩ := chunk_back served (same.back back)
    constructor
    case back =>
      intro free
      exact absurd (chunk_requested sent) (by simpa using free)
    case lent => exact lent sent
    case reports => exact same.reports ▸ reports
  | @fails t err same failed =>
    obtain ⟨-, given⟩ := chunk_back served (same.back back)
    exact balanced_scanComplete (given err failed) (same.reports ▸ reports)

theorem confirmed_balanced {ok : Bool} (inTime : s.isCfmTimeout = false) (served : q → a.Served)
    (lent : q → s.air.ps = some true → s.isBackground = true)
    (reports : ∀ r ∈ s.reports, r.Balanced q) : Balanced q (handleScanConfirmed ok a s) := by
  have back := restoreAir_back served lent
  obtain leads | pause := confirmed_cases ok a inTime
  · exact leads.balanced served back reports
  · rw [pause]
    exact Balanced.of_back back reports

theorem step_balanced {i : Step} (waits : s.waiting ≤ s.isRunning.toNat) (h : Balanced q s)
    (enabled : Enabled s i) (inTime : InTime s i) (served : q → Served s i) :
    Balanced q (step s i) := by
  have most : s.waiting ≤ 1 := waits.trans (Bool.toNat_le _)
  cases i with
  | start r a =>
    obtain same | ⟨idle, leads⟩ := start_cases s r a
    · simp only [step, same]
      exact h
    · refine leads.balanced served (h.back ?_) h.reports
      rw [idle] at waits
      simp only [Scan.waiting, Bool.toNat_false] at waits
      exact Bool.toNat_eq_zero.1 (by omega)
  | confirmed cfmTimeout ok a => exact confirmed_balanced inTime served h.lent h.reports
  | elapsed a =>
    have there : s.task = true := enabled
    refine leads_elapsed.balanced served (h.back ?_) h.reports
    simp only [Scan.waiting, there, Bool.toNat_true] at most
    exact Bool.toNat_eq_zero.1 (by omega)
  | setBackground isBackground =>
    refine ⟨h.back, ?_, h.reports⟩
    intro ask on
    obtain idle | same := served ask
    · rw [idle] at waits
      simp only [Scan.waiting, Bool.toNat_false] at waits
      exact absurd on ((h.back (Bool.toNat_eq_zero.1 (by omega))).ps ask)
    · exact same.trans (h.lent ask on)
  | others obj =>
    refine ⟨?_, h.lent, h.reports⟩
    intro free
    exact ⟨Eq.trans enabled (h.back free).flow, (h.back free).ps⟩
  | terminate =>
    simp only [step, scanTerminate]
    split
    · exact ⟨h.back, h.lent, h.reports⟩
    · exact h
  | setPolicy mustLoad =>
    simp only [step, setLoadProgmodelPolicy]
    split
    · exact h
    · exact ⟨h.back, h.lent, h.reports⟩
  | prepareStop =>
    have idle : s.isRunning = false := inTime
    simpa [step, idle] using h
  | timer | rescan | setPause => exact ⟨h.back, h.lent, h.reports⟩

theorem InTime.notForced {i : Step} (h : InTime s i) : NotForced s i := by
  cases i <;> first | exact h | trivial

theorem balanced_run {s₀ : Scan} (start : Initial s₀)
    (run : RunsIf (fun s i => InTime s i ∧ (q → Served s i)) s₀ s) : Balanced q s := by
  have stopped : s₀.air.flctrl.stopRequestsMask &&& s₀.flctrlId = 0 := by
    simpa [Scan.stopped] using start.stopped
  have both := Runs.invariant (P := fun s => s.waiting ≤ s.isRunning.toNat ∧ Balanced q s) run ?_ ?_
  · exact both.2
  · constructor
    · exact (waiting_run start .start).1
    · exact Balanced.of_back ⟨stopped, by simp [start.ps]⟩ (by simp [start.reports])
  · rintro s i ⟨waits, balanced⟩ ⟨enabled, inTime, served⟩
    refine ⟨?_, step_balanced waits balanced enabled inTime served⟩
    obtain ⟨same, runs⟩ | waiting | ⟨-, none⟩ := step_waiting waits enabled inTime.notForced
    · rwa [same, runs]
    · exact waiting.le
    · exact none ▸ Nat.zero_le _

/-- Program models are allocated only while a scan that loads them runs. -/
structure Freed (s : Scan) : Prop where
  progmodels : s.mustLoadProgmodels = false ∨ s.isRunning = false → s.progmodels = fun _ => none
  reports : ∀ r ∈ s.reports, r.progmodels = fun _ => none

theorem freed_complete (kept : s.mustLoadProgmodels = false → s.progmodels = fun _ => none)
    (reports : ∀ r ∈ s.reports, r.progmodels = fun _ => none) : Freed (complete s) := by
  have frame : ((complete s).progmodels = fun _ => none) ∧
      ∃ r : Report, (complete s).reports = s.reports ++ [r] ∧ r.progmodels = fun _ => none := by
    simp only [complete]
    split
    · exact ⟨rfl, _, rfl, rfl⟩
    next policy =>
      have none := kept (by simpa using policy)
      exact ⟨none, _, rfl, none⟩
  obtain ⟨none, r, log, report⟩ := frame
  refine ⟨fun _ => none, ?_⟩
  intro r' mem
  rw [log, List.mem_append, List.mem_singleton] at mem
  obtain before | rfl := mem
  · exact reports r' before
  · exact report

theorem Leads.freed (leads : Leads a s s') (h : Freed s) : Freed s' := by
  have kept : ∀ t, Setup s t → t.mustLoadProgmodels = false ∨ t.isRunning = false →
      t.progmodels = fun _ => none := by
    intro t same there
    have before := there.imp same.mustLoad.symm.trans same.isRunning.symm.trans
    exact (same.progmodels before).trans (h.progmodels before)
  induction leads with
  | @ends t same =>
    exact freed_complete (fun policy => kept t same (.inl policy)) (same.reports ▸ h.reports)
  | @waits t same _ => exact ⟨kept t same, same.reports ▸ h.reports⟩
  | @fails t _ same _ =>
    refine freed_complete ?_ ?_
    · intro policy
      exact kept t same (.inl policy)
    · exact same.reports ▸ h.reports

theorem step_freed {i : Step} (h : Freed s) : Freed (step s i) := by
  have completed : Freed (scanComplete s) :=
    freed_complete (fun policy => h.progmodels (.inl policy)) h.reports
  cases i with
  | start r a =>
    obtain same | ⟨idle, leads⟩ := start_cases s r a
    · simp only [step, same]
      exact h
    · exact leads.freed ⟨fun _ => h.progmodels (.inr idle), h.reports⟩
  | confirmed cfmTimeout ok a =>
    by_cases late : cfmTimeout
    · simp only [step, handleScanConfirmed, late, if_true]
      exact freed_complete (fun policy => h.progmodels (.inl policy)) h.reports
    · obtain leads | pause := confirmed_cases ok a
        (s := s.answered cfmTimeout) (by simpa [Scan.answered] using late)
      · exact leads.freed ⟨h.progmodels, h.reports⟩
      · simp only [Scan.answered] at pause
        simp only [step, pause]
        exact ⟨h.progmodels, h.reports⟩
  | elapsed a => exact leads_elapsed.freed ⟨h.progmodels, h.reports⟩
  | terminate =>
    simp only [step, scanTerminate]
    split
    · exact ⟨h.progmodels, h.reports⟩
    · exact h
  | setPolicy mustLoad =>
    simp only [step, setLoadProgmodelPolicy]
    split
    · exact h
    next idle => exact ⟨fun _ => h.progmodels (.inr (by simpa using idle)), h.reports⟩
  | prepareStop =>
    simp only [step]
    split
    · exact completed
    · exact h
  | timer | rescan | setBackground | setPause | others => exact ⟨h.progmodels, h.reports⟩

/-- When a scan ends, its program models are freed. Its client of the flow control is not stopped,
if chunks are confirmed in time; the last power-save request was to end power save, if moreover
these requests are served and scans are not moved between foreground and background. -/
theorem scan_gives_back {s₀ s : Scan} (start : Initial s₀) :
    (RunsIf (fun _ _ => True) s₀ s → ∀ r ∈ s.reports, r.progmodels = fun _ => none) ∧
    (RunsIf InTime s₀ s → ∀ r ∈ s.reports, r.stopped = false) ∧
    (RunsIf (fun s i => InTime s i ∧ Served s i) s₀ s → ∀ r ∈ s.reports, r.ps ≠ some true) := by
  refine ⟨?_, ?_, ?_⟩
  · intro run
    refine (Runs.invariant (P := Freed) run ?_ ?_).reports
    · exact ⟨fun _ => start.progmodels, by simp [start.reports]⟩
    · exact fun _ _ freed _ => step_freed freed
  · intro run r mem
    refine ((balanced_run (q := False) start ?_).reports r mem).1
    exact run.mono fun _ _ allowed => ⟨allowed.1, allowed.2, False.elim⟩
  · intro run r mem
    refine ((balanced_run (q := True) start ?_).reports r mem).2 trivial
    exact run.mono fun _ _ allowed => ⟨allowed.1, allowed.2.1, fun _ => allowed.2.2⟩

/-- A scan of a disconnected station, whose only request is not confirmed in time. -/
def lostConfirmation : List Step := [.start ⟨.one .ghz24, .mhz20, none, false⟩ fine,
  .confirmed true false fine]

theorem scan_keeps_air : ¬ ∀ s₀ s, Initial s₀ → RunsIf (fun _ _ => True) s₀ s →
    ∀ r ∈ s.reports, r.stopped = false ∧ r.ps ≠ some true ∧ r.progmodels = fun _ => none := by
  intro claim
  have allowed : Allowed step (fun s i => Enabled s i ∧ True) fresh lostConfirmation := by
    simp only [lostConfirmation, Allowed, and_true]
    exact ⟨trivial, rfl⟩
  have kept := claim fresh _ initial_fresh (.of_allowed allowed)
  have stopped : (lostConfirmation.foldl step fresh).reports.map Report.stopped = [true] := by
    decide
  obtain ⟨r, mem, is⟩ : ∃ r ∈ (lostConfirmation.foldl step fresh).reports, r.stopped = true := by
    simp [← List.mem_map, stopped]
  simp [(kept r mem).1] at is

theorem served_fine : fine.Served := by
  constructor <;> simp [fine]

/-- A scan in the background, in two chunks. -/
def twoChunks : List Step := [.setBackground true, .start ⟨.one .ghz24, .mhz20, none, false⟩ fine,
  .confirmed false true fine, .timer true, .elapsed { fine with send := .ok 3 },
  .confirmed false true fine, .timer true, .elapsed fine]

theorem scan_gives_back_twoChunks :
    (twoChunks.foldl step fresh).reports.length = 1 ∧
      ∀ r ∈ (twoChunks.foldl step fresh).reports, r.ps ≠ some true := by
  have run : RunsIf (fun s i => InTime s i ∧ Served s i) fresh (twoChunks.foldl step fresh) := by
    refine Runs.of_allowed ?_
    simp only [twoChunks, Allowed, and_true]
    refine ⟨⟨trivial, trivial, .inl rfl⟩, ⟨trivial, trivial, served_fine⟩,
      ⟨by decide, rfl, served_fine⟩, ⟨by decide, trivial, trivial⟩, ⟨by decide, trivial, ?_⟩,
      ⟨by decide, rfl, served_fine⟩, ⟨by decide, trivial, trivial⟩,
      ⟨by decide, trivial, served_fine⟩⟩
    exact ⟨served_fine.on, served_fine.offError, served_fine.off⟩
  exact ⟨by decide, (scan_gives_back initial_fresh).2.2 run⟩

end Wave300.Scanning
