import Wave300.Scanning.Waiting

/-!
# Terminate and wait

`do_scan` raises `is_running`, clears `treminate_scan` and resets the event `completed` in three
steps, and `scan_terminate_and_wait_completion` looks at them in three steps.
-/

namespace Wave300.Scanning

open Lib

variable {s s' t : Scan} {a : Answers}

/-- The step of a scan that runs, or of one that does not: no other scan is started, the requests
are of the current one, and the event is set at the end. -/
structure Onward (s s' : Scan) : Prop where
  started : s'.started = s.started
  requests : s'.air.requests = s.air.requests ∨
    s.isRunning = true ∧ s'.air.requests = s.air.requests ++ [s.started]
  isRunning : s'.isRunning = true → s.isRunning = true ∧ s'.completed = s.completed

theorem Onward.refl : Onward s s := ⟨rfl, .inl rfl, fun running => ⟨running, rfl⟩⟩

theorem onward_complete (started : t.started = s.started)
    (requests : t.air.requests = s.air.requests) : Onward s (complete t) where
  started := (complete_started t).trans started
  requests := by
    have air : (complete t).air = t.air := by
      simp only [complete]; split <;> rfl
    exact .inl (by rw [air, requests])
  isRunning := by simp [complete]

theorem Leads.onward (leads : Leads a s s') (running : s.isRunning = true) : Onward s s' := by
  induction leads with
  | ends same => exact onward_complete same.started (by rw [same.air])
  | @waits t same sent =>
    obtain ⟨-, -, requests⟩ | ⟨failed, -⟩ := chunk_requests t a
    · refine ⟨same.started, .inr ⟨running, ?_⟩, fun _ => ⟨running, same.completed⟩⟩
      rw [requests, same.started, same.air]
    · simp [sent] at failed
  | @fails t err same failed =>
    obtain ⟨sent, -⟩ | ⟨-, -, requests⟩ := chunk_requests t a
    · simp [sent] at failed
    · have before : t.air.requests = s.air.requests := by rw [same.air]
      exact onward_complete (t := { t with air := (t.chunk a).1, nextBand := none }) same.started
        (requests.trans before)

theorem confirmed_onward (ok : Bool) (a : Answers) (running : s.isRunning = true) :
    Onward s (handleScanConfirmed ok a s) := by
  by_cases late : s.isCfmTimeout
  · simp only [handleScanConfirmed, late, if_true]
    exact onward_complete rfl rfl
  · have requests : (restoreAir a s).1.air.requests = s.air.requests := by
      unfold restoreAir
      by_cases background : s.isBackground
      · simp only [background, if_true]
        cases a.psOff <;> rfl
      · simp only [background, Bool.false_eq_true, if_false]
        rfl
    obtain leads | pause := confirmed_cases ok a (by simpa using late)
    · have onward := leads.onward running
      refine ⟨onward.started, ?_, onward.isRunning⟩
      rw [← requests]
      exact onward.requests
    · rw [pause]
      exact ⟨rfl, .inl requests, fun _ => ⟨running, rfl⟩⟩

/-- A call of `do_scan` -/
def Step.starts : Step → Bool
  | .start .. => true
  | _ => false

/-- A step other than a call of `do_scan`. -/
theorem step_onward {i : Step} (waits : s.waiting ≤ s.isRunning.toNat) (enabled : Enabled s i)
    (other : i.starts = false) : Onward s (step s i) := by
  have running : 0 < s.waiting → s.isRunning = true := by
    intro some
    by_contra idle
    simp only [Bool.not_eq_true] at idle
    simp only [idle, Bool.toNat_false] at waits
    omega
  cases i with
  | start r a => cases other
  | confirmed cfmTimeout ok a =>
    have there : s.air.requested = true := enabled
    simp only [Scan.waiting, there, Bool.toNat_true] at running
    have runs := running (by omega)
    have onward := confirmed_onward ok a (s := s.answered cfmTimeout) runs
    exact ⟨onward.started, onward.requests, onward.isRunning⟩
  | elapsed a =>
    have there : s.task = true := enabled
    simp only [Scan.waiting, there, Bool.toNat_true] at running
    have runs := running (by omega)
    have onward := Leads.onward (s := { s with task := false }) (leads_elapsed (a := a)) runs
    exact ⟨onward.started, onward.requests, onward.isRunning⟩
  | terminate =>
    simp only [step, scanTerminate]
    split <;> exact ⟨rfl, .inl rfl, fun running => ⟨running, rfl⟩⟩
  | setPolicy mustLoad =>
    simp only [step, setLoadProgmodelPolicy]
    split <;> exact ⟨rfl, .inl rfl, fun running => ⟨running, rfl⟩⟩
  | prepareStop =>
    simp only [step]
    split
    · exact onward_complete rfl rfl
    · exact .refl
  | timer | rescan | setBackground | setPause | others =>
    exact ⟨rfl, .inl rfl, fun running => ⟨running, rfl⟩⟩

/-- Where the thread that starts scans is in `do_scan`. -/
inductive Starter where
  | idle
  /-- `is_running` is raised. -/
  | raised (r : Request)
  /-- `treminate_scan` is cleared. -/
  | cleared (r : Request)
  /-- `completed` is reset. -/
  | ready (r : Request)
  deriving DecidableEq, Repr

/-- Where the thread that terminates scans is, with the number of the scan it found running. -/
inductive Waiter where
  | idle
  | called (n : Nat)
  /-- `treminate_scan` is set, and `completed` is waited for. -/
  | flagged (n : Nat)
  deriving DecidableEq, Repr

/-- The two threads. `returns` records the scans whose end was waited for, with the number of
requests they had sent then. -/
structure Threads where
  scan : Scan
  starter : Starter
  waiter : Waiter
  returns : List (Nat × Nat)

inductive Move where
  | raise (r : Request) (isStopping : Bool)
  | clear
  | reset
  /-- The rest of `do_scan`. -/
  | begin (a : Answers)
  /-- `mtlk_scan_is_running`, at the call of `scan_terminate_and_wait_completion`. -/
  | call
  | flag
  /-- `mtlk_osal_event_wait` returns. -/
  | wait
  /-- What else happens to the scan. -/
  | other (i : Step)

def move (s : Threads) : Move → Threads
  | .raise r isStopping =>
    if s.starter = .idle ∧ ¬ (isStopping ∨ s.scan.isRunning) then
      { s with scan := raise s.scan, starter := .raised r }
    else s
  | .clear =>
    match s.starter with
    | .raised r => { s with scan := clearTerminate s.scan, starter := .cleared r }
    | _ => s
  | .reset =>
    match s.starter with
    | .cleared r => { s with scan := resetCompleted r.isSync s.scan, starter := .ready r }
    | _ => s
  | .begin a =>
    match s.starter with
    | .ready r => { s with scan := (startScan r a s.scan).1, starter := .idle }
    | _ => s
  | .call =>
    if s.waiter = .idle ∧ s.scan.isRunning then { s with waiter := .called s.scan.started } else s
  | .flag =>
    match s.waiter with
    | .called n =>
      { s with scan := { s.scan with treminateScan := true }, waiter := .flagged n }
    | _ => s
  | .wait =>
    match s.waiter with
    | .flagged n =>
      if s.scan.completed then
        { s with waiter := .idle, returns := (n, s.scan.air.requests.count n) :: s.returns }
      else s
    | _ => s
  | .other i => { s with scan := step s.scan i }

/-- Scans are started by the one thread only. -/
def Possible (s : Threads) : Move → Prop
  | .other i => Enabled s.scan i ∧ i.starts = false
  | _ => True

instance (s : Scan) : ∀ i : Step, Decidable (NotForced s i)
  | .prepareStop => inferInstanceAs (Decidable (_ = false))
  | .start .. | .confirmed .. | .timer _ | .elapsed _ | .terminate | .rescan | .setBackground _
  | .setPolicy _ | .setPause _ | .others _ => .isTrue trivial

instance (s : Threads) : ∀ m : Move, Decidable (Possible s m)
  | .other _ => inferInstanceAs (Decidable (_ ∧ _))
  | .raise .. | .clear | .reset | .begin _ | .call | .flag | .wait => .isTrue trivial

/-- `is_running` is raised, and `completed` is not reset yet. -/
def Starter.Early : Starter → Prop
  | .raised _ | .cleared _ => True
  | _ => False

instance : ∀ p : Starter, Decidable p.Early
  | .raised _ | .cleared _ => .isTrue trivial
  | .idle | .ready _ => .isFalse id

/-- The wait does not begin before the event of the scan that was found running is reset, and no
scan is completed from outside. -/
def Timely (s : Threads) : Move → Prop
  | .wait => s.starter.Early → s.waiter ≠ .flagged s.scan.started
  | .other i => NotForced s.scan i
  | _ => True

instance (s : Threads) : ∀ m : Move, Decidable (Timely s m)
  | .wait => inferInstanceAs (Decidable (_ → _))
  | .other _ => inferInstanceAs (Decidable (NotForced ..))
  | .raise .. | .clear | .reset | .begin _ | .call | .flag => .isTrue trivial

/-- A call of `do_scan` without anything between its steps. -/
theorem move_doScan (s : Threads) (r : Request) (a : Answers) (idle : s.starter = .idle) :
    ([Move.raise r a.isStopping, .clear, .reset, .begin a].foldl move s).scan =
      (doScan r a s.scan).1 := by
  unfold doScan
  by_cases refused : a.isStopping ∨ s.scan.isRunning
  · simp [move, idle, refused]
  · simp [move, idle, refused]

/-- What holds between any two moves. -/
structure Ordered (s : Threads) : Prop where
  waiting : s.scan.waiting ≤ s.scan.isRunning.toNat
  starting : s.starter ≠ .idle → s.scan.isRunning = true ∧ s.scan.waiting = 0
  completed : s.scan.isRunning = true → ¬ s.starter.Early → s.scan.completed = false
  waiter : ∀ n, s.waiter = .called n ∨ s.waiter = .flagged n → n ≤ s.scan.started
  returns : ∀ p ∈ s.returns, p.1 ≤ s.scan.started ∧
    (s.scan.isRunning = true → p.1 ≠ s.scan.started) ∧ s.scan.air.requests.count p.1 = p.2

/-- Of what has returned, the running scan sends nothing. -/
theorem Onward.returns {n k : Nat} (h : Onward s s')
    (before : n ≤ s.started ∧ (s.isRunning = true → n ≠ s.started) ∧ s.air.requests.count n = k) :
    n ≤ s'.started ∧ (s'.isRunning = true → n ≠ s'.started) ∧ s'.air.requests.count n = k := by
  obtain ⟨le, ne, count⟩ := before
  rw [h.started]
  refine ⟨le, fun running => ne (h.isRunning running).1, ?_⟩
  obtain same | ⟨running, more⟩ := h.requests
  · rw [same, count]
  · rw [more, List.count_append, count, List.count_singleton]
    simp [(ne running).symm]

theorem move_other {s : Threads} {i : Step} (h : Ordered s) (possible : Possible s (.other i))
    (unforced : NotForced s.scan i) : Ordered (move s (.other i)) := by
  obtain ⟨enabled, other⟩ := possible
  have onward := step_onward h.waiting enabled other
  have waits := step_waiting h.waiting enabled unforced
  constructor
  case waiting =>
    obtain ⟨same, runs⟩ | waiting | ⟨-, none⟩ := waits
    · simp only [move, same, runs]
      exact h.waiting
    · exact waiting.le
    · exact none ▸ Nat.zero_le _
  case starting =>
    intro mid
    obtain ⟨running, free⟩ := h.starting mid
    have none : s.scan.air.requested = false ∧ s.scan.pauseTimer = false ∧ s.scan.task = false := by
      simp only [Scan.waiting] at free
      refine ⟨Bool.toNat_eq_zero.1 ?_, Bool.toNat_eq_zero.1 ?_, Bool.toNat_eq_zero.1 ?_⟩ <;> omega
    obtain ⟨requested, pauseTimer, task⟩ := none
    cases i with
    | start r a => cases other
    | confirmed => exact absurd enabled (by simp [Enabled, requested])
    | timer => exact absurd enabled (by simp [Enabled, pauseTimer])
    | elapsed => exact absurd enabled (by simp [Enabled, task])
    | terminate =>
      simp only [move, step, scanTerminate, running, if_true, true_and]
      exact free
    | setPolicy => simpa [move, step, setLoadProgmodelPolicy, running] using free
    | prepareStop => exact absurd unforced (by simp [NotForced, running])
    | rescan | setBackground | setPause | others => exact ⟨running, free⟩
  case completed =>
    intro running late
    obtain ⟨ran, same⟩ := onward.isRunning running
    exact same.trans (h.completed ran late)
  case waiter => exact fun n at_ => (h.waiter n at_).trans_eq onward.started.symm
  case returns => exact fun p mem => onward.returns (h.returns p mem)

theorem move_ordered {s : Threads} {m : Move} (h : Ordered s) (possible : Possible s m)
    (timely : Timely s m) : Ordered (move s m) := by
  cases m with
  | raise r isStopping =>
    simp only [move]
    split
    next goes =>
      obtain ⟨-, goes⟩ := goes
      have idle : s.scan.isRunning = false := by
        simpa using (not_or.1 goes).2
      have free : s.scan.waiting = 0 := by simpa [idle] using h.waiting
      constructor
      case waiting => exact free.trans_le (Nat.zero_le _)
      case starting => exact fun _ => ⟨rfl, free⟩
      case completed => exact fun _ late => absurd trivial late
      case waiter => exact fun n at_ => (h.waiter n at_).trans (Nat.le_succ _)
      case returns =>
        intro p mem
        obtain ⟨le, -, count⟩ := h.returns p mem
        exact ⟨le.trans (Nat.le_succ _), fun _ => Nat.ne_of_lt (Nat.lt_succ_of_le le), count⟩
    · exact h
  | clear =>
    simp only [move]
    split
    next r at_ =>
      have mid := h.starting (by simp [at_])
      exact ⟨h.waiting, fun _ => mid, fun _ late => absurd trivial late, h.waiter, h.returns⟩
    · exact h
  | reset =>
    simp only [move]
    split
    next r at_ =>
      have mid := h.starting (by simp [at_])
      exact ⟨h.waiting, fun _ => mid, fun _ _ => rfl, h.waiter, h.returns⟩
    · exact h
  | begin a =>
    simp only [move]
    split
    next r at_ =>
      obtain ⟨running, free⟩ := h.starting (by simp [at_])
      have leads := leads_startScan (r := r) (a := a) running
      have onward := leads.onward running
      constructor
      case waiting => exact (leads.waiting running free).le
      case starting => exact fun idle => absurd rfl idle
      case completed =>
        intro runs _
        have reset := h.completed running (by simp [at_, Starter.Early])
        exact (onward.isRunning runs).2.trans reset
      case waiter => exact fun n at_ => (h.waiter n at_).trans_eq onward.started.symm
      case returns => exact fun p mem => onward.returns (h.returns p mem)
    · exact h
  | call =>
    simp only [move]
    split
    · refine ⟨h.waiting, h.starting, h.completed, ?_, h.returns⟩
      intro n at_
      simp only [Waiter.called.injEq, reduceCtorEq, or_false] at at_
      exact at_.ge
    · exact h
  | flag =>
    simp only [move]
    split
    next n at_ =>
      refine ⟨h.waiting, h.starting, h.completed, ?_, h.returns⟩
      intro k same
      simp only [Waiter.flagged.injEq, reduceCtorEq, false_or] at same
      exact same ▸ h.waiter n (.inl at_)
    · exact h
  | wait =>
    simp only [move]
    split
    next n at_ =>
      split
      next set =>
        refine ⟨h.waiting, h.starting, h.completed, by simp, ?_⟩
        intro p mem
        obtain rfl | before := List.mem_cons.1 mem
        · refine ⟨h.waiter n (.inr at_), ?_, rfl⟩
          -- the event is set, so the scan that runs is one whose event is not reset yet
          intro running same
          have early : s.starter.Early := by
            by_contra late
            simp [h.completed running late] at set
          exact timely early (at_.trans (congrArg Waiter.flagged same))
        · exact h.returns p before
      · exact h
    · exact h
  | other i => exact move_other h possible timely

/-- When the wait for the end of a scan returns, that scan does not run, and it sends no request
from then on, if the wait does not begin before the event of the scan is reset and no scan is
completed from outside. -/
theorem terminate_waits {s₀ s : Threads} (scan : Initial s₀.scan) (starter : s₀.starter = .idle)
    (waiter : s₀.waiter = .idle) (returns : s₀.returns = [])
    (run : Runs move (fun s m => Possible s m ∧ Timely s m) s₀ s) :
    ∀ p ∈ s.returns, (s.scan.isRunning = true → s.scan.started ≠ p.1) ∧
      s.scan.air.requests.count p.1 = p.2 := by
  have ordered : Ordered s := by
    refine Runs.invariant (P := Ordered) run ?_ ?_
    · constructor
      case waiting => simp [Scan.waiting, scan.requested, scan.pauseTimer, scan.task]
      case starting => exact fun mid => absurd starter mid
      case completed => simp [scan.isRunning]
      case waiter => simp [waiter]
      case returns => simp [returns]
    · exact fun _ _ before allowed => move_ordered before allowed.1 allowed.2
  intro p mem
  obtain ⟨-, ended, count⟩ := ordered.returns p mem
  exact ⟨fun running => (ended running).symm, count⟩

def threads : Threads := ⟨fresh, .idle, .idle, []⟩

/-- A scan of one band, ended by the firmware. -/
def firstScan : List Move := [.raise ⟨.one .ghz24, .mhz20, none, false⟩ false, .clear, .reset,
  .begin fine, .other (.confirmed false false fine)]

/-- The event is still set from the first scan when the second one is waited for. -/
def staleEvent : List Move :=
  firstScan ++ [Move.raise ⟨.one .ghz24, .mhz20, none, false⟩ false, .call, .flag, .wait, .clear,
    .reset, .begin fine]

theorem terminate_returns_early : ¬ ∀ s₀ s : Threads, Initial s₀.scan → s₀.starter = .idle →
    s₀.waiter = .idle → s₀.returns = [] → Runs move Possible s₀ s →
    ∀ p ∈ s.returns, (s.scan.isRunning = true → s.scan.started ≠ p.1) ∧
      s.scan.air.requests.count p.1 = p.2 := by
  intro claim
  have run : Runs move Possible threads (staleEvent.foldl move threads) :=
    .of_allowed (by decide)
  have returned := claim threads _ initial_fresh rfl rfl rfl run (2, 0) (by decide)
  revert returned
  decide

/-- The second scan is terminated when it waits for its confirmation. -/
def patient : List Move :=
  firstScan ++ [Move.raise ⟨.one .ghz24, .mhz20, none, false⟩ false, .clear, .reset, .begin fine,
    .call, .flag, .wait, .other (.confirmed false true fine), .wait]

theorem terminate_waits_patient : (patient.foldl move threads).returns = [(2, 1)] ∧
    ∀ p ∈ (patient.foldl move threads).returns,
      ((patient.foldl move threads).scan.isRunning = true →
        (patient.foldl move threads).scan.started ≠ p.1) ∧
      (patient.foldl move threads).scan.air.requests.count p.1 = p.2 := by
  have run : Runs move (fun s m => Possible s m ∧ Timely s m) threads
      (patient.foldl move threads) := .of_allowed (by decide)
  exact ⟨by decide, terminate_waits initial_fresh rfl rfl rfl run⟩

end Wave300.Scanning
