import Wave300.Scanning.Steps

/-!
# What a running scan waits for

A scan that runs waits for one thing: the confirmation of its request, the end of a pause, or the
task of the pause timer. It ends once.
-/

namespace Wave300.Scanning

open Lib

variable {s s' t : Scan} {a : Answers}

/-- How many events a scan waits for. -/
def Scan.waiting (s : Scan) : Nat :=
  s.air.requested.toNat + s.pauseTimer.toNat + s.task.toNat

/-- No scan is completed from outside. -/
def NotForced (s : Scan) : Step → Prop
  | .prepareStop => s.isRunning = false
  | _ => True

theorem Setup.requested (h : Setup s t) : t.air.requested = s.air.requested := by rw [h.air]

theorem Setup.waiting (h : Setup s t) : t.waiting = s.waiting := by
  simp only [Scan.waiting, h.requested, h.pauseTimer, h.task]

theorem giveBack_requested (air : Air) : (air.giveBack s a).requested = air.requested := by
  simp only [Air.giveBack]
  split
  · cases a.psOffError <;> rfl
  · rfl

theorem giveBack_requests (air : Air) : (air.giveBack s a).requests = air.requests := by
  simp only [Air.giveBack]
  split
  · cases a.psOffError <;> rfl
  · rfl

/-- What a chunk does to the requests. -/
theorem chunk_requests (s : Scan) (a : Answers) :
    (s.chunk a).2 = none ∧ (s.chunk a).1.requested = true ∧
        (s.chunk a).1.requests = s.air.requests ++ [s.started] ∨
      (s.chunk a).2.isSome ∧ (s.chunk a).1.requested = s.air.requested ∧
        (s.chunk a).1.requests = s.air.requests := by
  have request : ∀ air res, (if s.isBackground then
      (s.air.stopData s.flctrlId).sendPsReq true a.psOn else (s.air.stopData s.flctrlId, none)) =
        (air, res) → air.requested = s.air.requested ∧ air.requests = s.air.requests := by
    intro air res is
    split at is
    · cases reply : a.psOn <;> rw [reply] at is <;> cases is <;> exact ⟨rfl, rfl⟩
    · cases is
      exact ⟨rfl, rfl⟩
  unfold Scan.chunk
  simp only
  split
  next air err is =>
    obtain ⟨requested, requests⟩ := request _ _ is
    exact .inr ⟨rfl, requested, requests⟩
  next air is =>
    obtain ⟨requested, requests⟩ := request _ _ is
    split
    · right
      refine ⟨rfl, ?_, ?_⟩
      · rw [giveBack_requested, requested]
      · rw [giveBack_requests, requests]
    · split
      · right
        refine ⟨rfl, ?_, ?_⟩
        · rw [giveBack_requested, requested]
        · rw [giveBack_requests, requests]
      · exact .inl ⟨rfl, rfl, by rw [requests]⟩

theorem chunk_requested (sent : (s.chunk a).2 = none) : (s.chunk a).1.requested = true := by
  obtain ⟨-, requested, -⟩ | ⟨failed, -⟩ := chunk_requests s a
  · exact requested
  · simp [sent] at failed

theorem chunk_failed {err : Err} (failed : (s.chunk a).2 = some err) :
    (s.chunk a).1.requested = s.air.requested := by
  obtain ⟨sent, -⟩ | ⟨-, requested, -⟩ := chunk_requests s a
  · simp [sent] at failed
  · exact requested

/-- The completions account for the scans that were started. -/
structure Counted (s : Scan) : Prop where
  started : s.started = s.reports.length + s.isRunning.toNat
  oldVal : ∀ r ∈ s.reports, r.oldVal = true

theorem complete_waiting (s : Scan) : (complete s).waiting = s.waiting := by
  simp only [complete]
  split <;> rfl

theorem complete_isRunning (s : Scan) : (complete s).isRunning = false := rfl

theorem complete_started (s : Scan) : (complete s).started = s.started := by
  simp only [complete]
  split <;> rfl

theorem complete_reports (s : Scan) : ∃ r : Report, (complete s).reports = s.reports ++ [r] ∧
    r.oldVal = s.isRunning := by
  simp only [complete]
  split <;> exact ⟨_, rfl, rfl⟩

theorem counted_complete (running : s.isRunning = true) (h : Counted s) : Counted (complete s) := by
  obtain ⟨r, reports, oldVal⟩ := complete_reports s
  constructor
  case started =>
    rw [complete_started, h.started, reports, complete_isRunning, running]
    simp
  case oldVal =>
    intro q mem
    rw [reports, List.mem_append, List.mem_singleton] at mem
    obtain before | rfl := mem
    · exact h.oldVal q before
    · rw [oldVal, running]

theorem counted_scanComplete (running : s.isRunning = true) (h : Counted s) :
    Counted (scanComplete s) :=
  counted_complete (s := { s with nextBand := none }) running ⟨h.started, h.oldVal⟩

theorem Setup.counted (same : Setup s t) (h : Counted s) : Counted t where
  started := by rw [same.started, same.reports, same.isRunning, h.started]
  oldVal := by rw [same.reports]; exact h.oldVal

/-- From a scan that runs and waits for nothing. -/
theorem Leads.waiting (leads : Leads a s s') (running : s.isRunning = true) (free : s.waiting = 0) :
    s'.waiting = s'.isRunning.toNat := by
  induction leads with
  | ends same => rw [complete_waiting, same.waiting, free, complete_isRunning, Bool.toNat_false]
  | @waits t same sent =>
    have here : t.waiting = 0 := same.waiting.trans free
    have runs : t.isRunning = true := same.isRunning.trans running
    simp only [Scan.waiting] at here ⊢
    rw [chunk_requested sent, runs]
    simp only [Bool.toNat_true]
    omega
  | @fails t _ same failed =>
    have here : t.waiting = 0 := same.waiting.trans free
    rw [scanComplete, complete_waiting, complete_isRunning]
    simp only [Scan.waiting] at here ⊢
    rw [chunk_failed failed]
    exact here

theorem Leads.counted (leads : Leads a s s') (running : s.isRunning = true) (h : Counted s) :
    Counted s' := by
  induction leads with
  | ends same => exact counted_complete (same.isRunning.trans running) (same.counted h)
  | waits same _ => exact ⟨(same.counted h).started, (same.counted h).oldVal⟩
  | fails same _ =>
    refine counted_scanComplete (same.isRunning.trans running) ?_
    exact ⟨(same.counted h).started, (same.counted h).oldVal⟩

/-- The scan that a call of `do_scan` starts, before its context is set up. -/
def Scan.begun (s : Scan) (r : Request) : Scan :=
  resetCompleted r.isSync (clearTerminate (raise s))

theorem start_cases (s : Scan) (r : Request) (a : Answers) :
    (doScan r a s).1 = s ∨ s.isRunning = false ∧ Leads a (s.begun r) (doScan r a s).1 := by
  unfold doScan
  split
  · exact .inl rfl
  next allowed =>
    push Not at allowed
    exact .inr ⟨by simpa using allowed.2, leads_startScan rfl⟩

/-- A confirmation ends the wait for it. -/
def Scan.answered (s : Scan) (cfmTimeout : Bool) : Scan :=
  { s with isCfmTimeout := cfmTimeout, air := { s.air with requested := false } }

theorem restoreAir_requested (s : Scan) (a : Answers) :
    (restoreAir a s).1.air.requested = s.air.requested := by
  simp only [restoreAir, Air.startData]
  split
  · cases a.psOff <;> rfl
  · rfl

theorem restoreAir_waiting (s : Scan) (a : Answers) : (restoreAir a s).1.waiting = s.waiting := by
  have requested := restoreAir_requested s a
  simp only [Scan.waiting, requested]
  rfl

theorem confirmed_waiting {ok : Bool} (running : s.isRunning = true) (free : s.waiting = 0) :
    (handleScanConfirmed ok a s).waiting = (handleScanConfirmed ok a s).isRunning.toNat := by
  by_cases late : s.isCfmTimeout
  · simp only [handleScanConfirmed, late, if_true]
    exact Leads.waiting (a := a) leads_complete running free
  · have there : (restoreAir a s).1.waiting = 0 := (restoreAir_waiting s a).trans free
    obtain leads | pause := confirmed_cases ok a (by simpa using late)
    · exact leads.waiting running there
    · have runs : (restoreAir a s).1.isRunning = true := running
      rw [pause]
      simp only [Scan.waiting] at there ⊢
      rw [runs]
      simp only [Bool.toNat_true]
      omega

theorem confirmed_counted {ok : Bool} (running : s.isRunning = true) (h : Counted s) :
    Counted (handleScanConfirmed ok a s) := by
  by_cases late : s.isCfmTimeout
  · simp only [handleScanConfirmed, late, if_true]
    exact counted_scanComplete running h
  · have there : Counted (restoreAir a s).1 := ⟨h.started, h.oldVal⟩
    obtain leads | pause := confirmed_cases ok a (by simpa using late)
    · exact leads.counted running there
    · rw [pause]
      exact ⟨there.started, there.oldVal⟩

/-- What one step makes of what is waited for. -/
theorem step_waiting {i : Step} (h : s.waiting ≤ s.isRunning.toNat) (enabled : Enabled s i)
    (unforced : NotForced s i) :
    (step s i).waiting = s.waiting ∧ (step s i).isRunning = s.isRunning ∨
      (step s i).waiting = (step s i).isRunning.toNat ∨
        i = .timer false ∧ (step s i).waiting = 0 := by
  have running : 0 < s.waiting → s.isRunning = true := by
    intro waits
    by_contra idle
    simp only [Bool.not_eq_true] at idle
    simp only [idle, Bool.toNat_false] at h
    omega
  have most : s.waiting ≤ 1 := h.trans (Bool.toNat_le _)
  cases i with
  | start r a =>
    obtain same | ⟨idle, leads⟩ := start_cases s r a
    · exact .inl ⟨congrArg Scan.waiting same, congrArg Scan.isRunning same⟩
    · refine .inr (.inl (leads.waiting rfl ?_))
      have free : s.waiting = 0 := by
        rw [idle] at h
        simpa using h
      exact free
  | confirmed cfmTimeout ok a =>
    have there : s.air.requested = true := enabled
    simp only [Scan.waiting, there, Bool.toNat_true] at running most
    right
    left
    refine confirmed_waiting (running (by omega)) ?_
    simp only [Scan.waiting, Bool.toNat_false]
    omega
  | timer scheduled =>
    have there : s.pauseTimer = true := enabled
    simp only [Scan.waiting, there, Bool.toNat_true] at running most
    have runs := running (by omega)
    right
    cases scheduled with
    | true =>
      left
      simp only [step, Scan.waiting, runs, Bool.toNat_true, Bool.toNat_false]
      omega
    | false =>
      right
      refine ⟨rfl, ?_⟩
      simp only [step, Scan.waiting, Bool.toNat_false]
      omega
  | elapsed a =>
    have there : s.task = true := enabled
    simp only [Scan.waiting, there, Bool.toNat_true] at running most
    right
    left
    refine Leads.waiting leads_elapsed (running (by omega)) ?_
    simp only [Scan.waiting, Bool.toNat_false]
    omega
  | terminate =>
    left
    simp only [step, scanTerminate]
    split <;> exact ⟨rfl, rfl⟩
  | setPolicy mustLoad =>
    left
    simp only [step, setLoadProgmodelPolicy]
    split <;> exact ⟨rfl, rfl⟩
  | prepareStop =>
    have idle : s.isRunning = false := unforced
    left
    simp [step, idle]
  | rescan | setBackground | setPause | others => exact .inl ⟨rfl, rfl⟩

theorem step_counted {i : Step} (h : s.waiting ≤ s.isRunning.toNat) (counted : Counted s)
    (enabled : Enabled s i) (unforced : NotForced s i) : Counted (step s i) := by
  have running : 0 < s.waiting → s.isRunning = true := by
    intro waits
    by_contra idle
    simp only [Bool.not_eq_true] at idle
    simp only [idle, Bool.toNat_false] at h
    omega
  cases i with
  | start r a =>
    obtain same | ⟨idle, leads⟩ := start_cases s r a
    · simp only [step, same]
      exact counted
    · refine leads.counted rfl ⟨?_, counted.oldVal⟩
      have before := counted.started
      rw [idle] at before
      exact congrArg (· + 1) before
  | confirmed cfmTimeout ok a =>
    have there : s.air.requested = true := enabled
    simp only [Scan.waiting, there, Bool.toNat_true] at running
    exact confirmed_counted (running (by omega)) ⟨counted.started, counted.oldVal⟩
  | elapsed a =>
    have there : s.task = true := enabled
    simp only [Scan.waiting, there, Bool.toNat_true] at running
    exact leads_elapsed.counted (running (by omega)) ⟨counted.started, counted.oldVal⟩
  | terminate =>
    simp only [step, scanTerminate]
    split
    · exact ⟨counted.started, counted.oldVal⟩
    · exact counted
  | setPolicy mustLoad =>
    simp only [step, setLoadProgmodelPolicy]
    split
    · exact counted
    · exact ⟨counted.started, counted.oldVal⟩
  | prepareStop =>
    have idle : s.isRunning = false := unforced
    simpa [step, idle] using counted
  | timer | rescan | setBackground | setPause | others =>
    exact ⟨counted.started, counted.oldVal⟩

/-- A scan waits for one event, if it runs. -/
theorem waiting_run {s₀ : Scan} (start : Initial s₀) (run : RunsIf NotForced s₀ s) :
    s.waiting ≤ s.isRunning.toNat ∧ Counted s := by
  refine Runs.invariant (P := fun s => s.waiting ≤ s.isRunning.toNat ∧ Counted s) run ?_ ?_
  · constructor
    · simp [Scan.waiting, start.requested, start.pauseTimer, start.task]
    · constructor
      · rw [start.started, start.reports, start.isRunning]
        rfl
      · simp [start.reports]
  · rintro s i ⟨waiting, counted⟩ ⟨enabled, unforced⟩
    refine ⟨?_, step_counted waiting counted enabled unforced⟩
    obtain ⟨same, runs⟩ | waits | ⟨-, none⟩ := step_waiting waiting enabled unforced
    · rwa [same, runs]
    · exact waits.le
    · exact none ▸ Nat.zero_le _

end Wave300.Scanning
