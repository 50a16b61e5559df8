import Wave300.Lib.Trace

/-!
# Timers

A timer of the OSAL is an OS timer with a remove lock. The callback that the OS calls goes on its
own while the thread that uses the timer arms, cancels or cleans it up, and each access to what they
share is a step. One thread uses a timer at a time, and not from the callback of that timer.
-/

namespace Wave300.Osal

open Lib (Runs)

/-- The calls that the thread makes, and what they share: `_mtlk_osal_timer_cancel_sync` is the
first part of `_mtlk_osal_timer_set` and of `_mtlk_osal_timer_cleanup`. -/
inductive Op where
  | set
  | cancel
  | cancelSync
  | cleanup
  deriving DecidableEq, Repr

/-- What the thread that uses the timer does next. -/
inductive User where
  /-- It is out of the calls, of which this was the last. -/
  | idle (last : Op)
  /-- It has made the next call. -/
  | stop (last op : Op)
  | cancelled (op : Op)
  /-- `del_timer`, or `del_timer_sync` -/
  | del (op : Op)
  | release (op : Op)
  | unstop
  | uncancel
  | acquire
  | add
  /-- It releases the last reference. -/
  | last
  | wait
  /-- The timer is cleaned up. -/
  | gone
  deriving DecidableEq, Repr

/-- What `__mtlk_osal_timer_clb` does next. -/
inductive Clb where
  | idle
  | check
  /-- The callback of the user is running. -/
  | calling
  | called (msec : UInt32)
  | release
  deriving DecidableEq, Repr

/-- `pending` says that the OS timer is armed. `starts` counts the calls of the user's callback,
each where `__mtlk_osal_timer_clb` has found the timer not to be stopped. -/
structure Timer where
  stop : Bool
  cancelled : Bool
  pending : Bool
  refCnt : Int
  evt : Bool
  user : User
  clb : Clb
  starts : Nat
  deriving DecidableEq, Repr

/-- What follows when the timer is cancelled. -/
def Op.rest : Op → User
  | set => .unstop
  | cancel => .idle .cancel
  | cancelSync => .idle .cancelSync
  | cleanup => .last

namespace Timer

/-- `_mtlk_osal_timer_init` -/
def init : Timer := ⟨true, true, false, 1, false, .idle .cancelSync, .idle, 0⟩

/-- `mtlk_rmlock_release` -/
def rmlockRelease (s : Timer) : Timer :=
  { s with refCnt := s.refCnt - 1, evt := s.evt || s.refCnt - 1 = 0 }

inductive Event where
  | call (op : Op)
  /-- The thread takes a step. -/
  | run
  /-- The OS timer expires. -/
  | fire
  /-- The callback takes a step. The user's callback, when it returns, asks for `msec`. -/
  | clb (msec : UInt32)

def run (s : Timer) : Timer :=
  match s.user with
  | .idle _ | .gone => s
  | .stop _ op => { s with stop := true, user := .cancelled op }
  | .cancelled op => { s with cancelled := true, user := .del op }
  | .del op =>
    -- `del_timer_sync` waits until the callback is not running
    if op ≠ .cancel ∧ s.clb ≠ .idle then s
    else if s.pending then { s with pending := false, user := .release op }
    else { s with user := op.rest }
  | .release op => { s.rmlockRelease with user := op.rest }
  | .unstop => { s with stop := false, user := .uncancel }
  | .uncancel => { s with cancelled := false, user := .acquire }
  | .acquire => { s with refCnt := s.refCnt + 1, user := .add }
  | .add => { s with pending := true, user := .idle .set }
  | .last => { s.rmlockRelease with user := .wait }
  | .wait => if s.evt then { s with user := .gone } else s

/-- `__mtlk_osal_timer_clb` -/
def runClb (msec : UInt32) (s : Timer) : Timer :=
  match s.clb with
  | .idle => s
  | .check =>
    if s.stop then { s with clb := .called 0 }
    else { s with clb := .calling, starts := s.starts + 1 }
  | .calling => { s with clb := .called msec }
  | .called msec =>
    if msec = 0 then { s with stop := true, clb := .release }
    else { s with pending := true, clb := .idle }
  | .release => { s.rmlockRelease with clb := .idle }

def step (s : Timer) : Event → Timer
  | .call op =>
    match s.user with
    | .idle last => { s with user := .stop last op }
    | _ => s
  | .run => s.run
  | .fire => if s.pending ∧ s.clb = .idle then { s with pending := false, clb := .check } else s
  | .clb msec => s.runClb msec

end Timer

/-! ## What the thread has to do with the timer -/

namespace User

/-- The references that the thread has taken, or given up, beside that of the timer itself. -/
def holds : User → Int
  | release _ | add => 1
  | wait | gone => -1
  | _ => 0

/-- The OS timer was deleted and waited for, and has not been armed since. -/
def quiet : User → Bool
  | idle .cancelSync | idle .cleanup => true
  | unstop | uncancel | acquire | add | last | wait | gone => true
  | release op => op ≠ .cancel
  | _ => false

/-- The timer is marked stopped. -/
def stopped : User → Bool
  | idle .set | stop .set _ | uncancel | acquire | add => false
  | _ => true

end User

namespace Timer

/-- Who has a reference: the timer, what is armed or runs, and the thread. -/
structure Sound (s : Timer) : Prop where
  refCnt : s.refCnt = 1 + s.pending.toNat + (if s.clb = .idle then 0 else 1) + s.user.holds
  apart : s.pending = true → s.clb = .idle
  quiet : s.user.quiet = true → s.pending = false ∧ s.clb = .idle
  stopped : s.user.stopped = true → s.stop = true
  evt : s.user = .wait ∨ s.user = .gone → s.evt = true

variable {s : Timer}

theorem init_sound : init.Sound := by
  constructor <;> simp [init, User.holds, User.stopped]

/-- The thread is where a call that it made is over. -/
theorem rest_fine (op : Op) : op.rest.holds = 0 ∧ op.rest.stopped = true ∧
    (op.rest.quiet = true → op ≠ .cancel) ∧ op.rest ≠ .wait ∧ op.rest ≠ .gone := by
  cases op <;> simp [Op.rest, User.holds, User.stopped, User.quiet]

theorem Sound.call (h : s.Sound) (op : Op) : (s.step (.call op)).Sound := by
  simp only [step]
  split
  next last at' =>
    have refCnt := h.refCnt
    rw [at'] at refCnt
    refine ⟨refCnt, h.apart, nofun, fun stopped => h.stopped ?_, by simp⟩
    rw [at']
    cases last with
    | set => cases stopped
    | cancel | cancelSync | cleanup => rfl
  · exact h

theorem Sound.fire (h : s.Sound) : (s.step .fire).Sound := by
  simp only [step]
  split
  next ready =>
    obtain ⟨pending, idle⟩ := ready
    have refCnt := h.refCnt
    simp only [pending, idle, if_true, Bool.toNat_true] at refCnt
    constructor
    case refCnt =>
      simp only [Bool.toNat_false, reduceCtorEq, if_false]
      omega
    case apart => simp
    case quiet =>
      intro quiet
      simp [(h.quiet quiet).1] at pending
    case stopped => exact h.stopped
    case evt => exact h.evt
  · exact h

theorem Sound.clb (h : s.Sound) (msec : UInt32) : (s.runClb msec).Sound := by
  have loud (busy : s.clb ≠ .idle) : s.pending = false ∧ s.user.quiet = false := by
    constructor
    · by_contra pending
      exact busy (h.apart (by simpa using pending))
    · by_contra quiet
      exact busy (h.quiet (by simpa using quiet)).2
  have refCnt := h.refCnt
  cases at' : s.clb with
  | idle =>
    simp only [runClb, at']
    exact h
  | check =>
    obtain ⟨pending, noisy⟩ := loud (by simp [at'])
    simp only [at', reduceCtorEq, if_false] at refCnt
    simp only [runClb, at']
    split
    · exact ⟨by simpa using refCnt, by simp [pending], by simp [noisy], h.stopped, h.evt⟩
    · exact ⟨by simpa using refCnt, by simp [pending], by simp [noisy], h.stopped, h.evt⟩
  | calling =>
    obtain ⟨pending, noisy⟩ := loud (by simp [at'])
    simp only [at', reduceCtorEq, if_false] at refCnt
    simp only [runClb, at']
    exact ⟨by simpa using refCnt, by simp [pending], by simp [noisy], h.stopped, h.evt⟩
  | called m =>
    obtain ⟨pending, noisy⟩ := loud (by simp [at'])
    simp only [at', reduceCtorEq, if_false] at refCnt
    simp only [runClb, at']
    split
    · exact ⟨by simpa using refCnt, by simp [pending], by simp [noisy], fun _ => rfl, h.evt⟩
    · refine ⟨?_, by simp, by simp [noisy], h.stopped, h.evt⟩
      simp only [pending, Bool.toNat_false, Bool.toNat_true, if_true] at refCnt ⊢
      omega
  | release =>
    obtain ⟨pending, noisy⟩ := loud (by simp [at'])
    simp only [at', reduceCtorEq, if_false] at refCnt
    simp only [runClb, at', rmlockRelease]
    refine ⟨?_, by simp, by simp [noisy], h.stopped, ?_⟩
    · simp only [if_true]
      omega
    · intro waits
      simp [h.evt waits]

theorem Sound.run (h : s.Sound) : s.run.Sound := by
  have refCnt := h.refCnt
  cases at' : s.user with
  | idle last =>
    simp only [Timer.run, at']
    exact h
  | gone =>
    simp only [Timer.run, at']
    exact h
  | stop last op =>
    simp only [at', User.holds] at refCnt
    simp only [Timer.run, at']
    exact ⟨refCnt, h.apart, nofun, fun _ => rfl, by simp⟩
  | cancelled op =>
    have stop := h.stopped (by simp [at', User.stopped])
    simp only [at', User.holds] at refCnt
    simp only [Timer.run, at']
    exact ⟨refCnt, h.apart, nofun, fun _ => stop, by simp⟩
  | del op =>
    have stop := h.stopped (by simp [at', User.stopped])
    obtain ⟨holds, _, quiet, wait, gone⟩ := rest_fine op
    simp only [at', User.holds] at refCnt
    simp only [Timer.run, at']
    split
    · exact h
    next waited =>
      have idle : op ≠ .cancel → s.clb = .idle := by
        intro sync
        by_contra busy
        exact waited ⟨sync, busy⟩
      split
      next pending =>
        refine ⟨?_, by simp, ?_, fun _ => stop, by simp⟩
        · simp only [pending, Bool.toNat_true, Bool.toNat_false, User.holds] at refCnt ⊢
          omega
        · intro sync
          exact ⟨rfl, idle (by simpa [User.quiet] using sync)⟩
      next disarmed =>
        refine ⟨?_, h.apart, ?_, fun _ => stop, by simp [wait, gone]⟩
        · simp only [holds]
          exact refCnt
        · exact fun sync => ⟨by simpa using disarmed, idle (quiet sync)⟩
  | release op =>
    have stop := h.stopped (by simp [at', User.stopped])
    obtain ⟨holds, _, quiet, wait, gone⟩ := rest_fine op
    simp only [at', User.holds] at refCnt
    simp only [Timer.run, at', rmlockRelease]
    refine ⟨?_, h.apart, ?_, fun _ => stop, by simp [wait, gone]⟩
    · simp only [holds]
      omega
    · exact fun sync => h.quiet (by simpa [at', User.quiet] using quiet sync)
  | unstop =>
    have quiet := h.quiet (by simp [at', User.quiet])
    simp only [at', User.holds] at refCnt
    simp only [Timer.run, at']
    exact ⟨refCnt, h.apart, fun _ => quiet, nofun, by simp⟩
  | uncancel =>
    have quiet := h.quiet (by simp [at', User.quiet])
    simp only [at', User.holds] at refCnt
    simp only [Timer.run, at']
    exact ⟨refCnt, h.apart, fun _ => quiet, nofun, by simp⟩
  | acquire =>
    have quiet := h.quiet (by simp [at', User.quiet])
    simp only [at', User.holds] at refCnt
    simp only [Timer.run, at']
    refine ⟨?_, h.apart, fun _ => quiet, nofun, by simp⟩
    simp only [User.holds]
    omega
  | add =>
    obtain ⟨disarmed, idle⟩ := h.quiet (by simp [at', User.quiet])
    simp only [at', User.holds, disarmed, Bool.toNat_false] at refCnt
    simp only [Timer.run, at']
    refine ⟨?_, fun _ => idle, nofun, nofun, by simp⟩
    simp only [User.holds, Bool.toNat_true]
    omega
  | last =>
    have stop := h.stopped (by simp [at', User.stopped])
    have quiet := h.quiet (by simp [at', User.quiet])
    simp only [at', User.holds, quiet.1, quiet.2, Bool.toNat_false, if_true] at refCnt
    simp only [Timer.run, at', rmlockRelease]
    refine ⟨?_, h.apart, fun _ => quiet, fun _ => stop, ?_⟩
    · simp only [quiet.1, quiet.2, Bool.toNat_false, if_true, User.holds]
      omega
    · simp [refCnt]
  | wait =>
    have stop := h.stopped (by simp [at', User.stopped])
    have quiet := h.quiet (by simp [at', User.quiet])
    have evt := h.evt (.inl at')
    simp only [at', User.holds] at refCnt
    simp only [Timer.run, at', evt, if_true]
    exact ⟨refCnt, h.apart, fun _ => quiet, fun _ => stop, fun _ => rfl⟩

theorem Sound.step (h : s.Sound) (e : Event) : (s.step e).Sound := by
  cases e with
  | call op => exact h.call op
  | run => exact h.run
  | fire => exact h.fire
  | clb msec => exact h.clb msec

/-- The user's callback is called where the timer is not marked stopped. -/
theorem starts_step (s : Timer) (e : Event) :
    (s.step e).starts = s.starts ∨ s.clb = .check ∧ s.stop = false := by
  cases e with
  | call op =>
    simp only [Timer.step]
    split <;> simp
  | run =>
    simp only [Timer.step, Timer.run]
    split <;> (try split) <;> (try split) <;> simp [rmlockRelease]
  | fire =>
    simp only [Timer.step]
    split <;> simp
  | clb msec =>
    simp only [Timer.step, runClb]
    split
    case h_2 check =>
      split
      · simp
      next stop => exact .inr ⟨check, by simpa using stop⟩
    · simp
    · simp
    · split <;> simp
    · simp [rmlockRelease]

end Timer

/-- Whenever the OS timer expires and the callback asks to be called again, in every order of the
steps: the references are those of the timer, of what is armed or runs, and of the thread; the
user's callback is called only after the timer was set, until the next call marks it stopped; after
`_mtlk_osal_timer_cancel_sync` and `_mtlk_osal_timer_cleanup` nothing is armed and nothing runs; and
the cleanup does not wait in vain. -/
theorem timer_cancelled {s : Timer} (run : Runs Timer.step (fun _ _ => True) .init s) :
    s.refCnt = 1 + s.pending.toNat + (if s.clb = .idle then 0 else 1) + s.user.holds ∧
    (∀ e, (s.step e).starts = s.starts ∨ s.user = .idle .set ∨ ∃ op, s.user = .stop .set op) ∧
    (s.user = .idle .cancelSync ∨ s.user = .gone → s.pending = false ∧ s.clb = .idle) ∧
    (s.user = .wait → s.evt = true ∧ s.refCnt = 0) := by
  have sound : s.Sound := run.invariant Timer.init_sound fun _ e sound _ => sound.step e
  refine ⟨sound.refCnt, ?_, ?_, ?_⟩
  · intro e
    obtain same | ⟨check, going⟩ := s.starts_step e
    · exact .inl same
    refine .inr ?_
    have noisy : s.user.quiet = false := by
      by_contra quiet
      simp [(sound.quiet (by simpa using quiet)).2] at check
    have unstopped : s.user.stopped = false := by
      by_contra stopped
      simp [sound.stopped (by simpa using stopped)] at going
    cases at' : s.user with
    | idle last => cases last <;> simp_all [User.quiet, User.stopped]
    | stop last op => cases last <;> simp_all [User.stopped]
    | _ => simp_all [User.quiet, User.stopped]
  · rintro (done | gone)
    · exact sound.quiet (by simp [done, User.quiet])
    · exact sound.quiet (by simp [gone, User.quiet])
  · intro waits
    obtain ⟨disarmed, idle⟩ := sound.quiet (by simp [waits, User.quiet])
    refine ⟨sound.evt (.inl waits), ?_⟩
    rw [sound.refCnt, disarmed, idle, waits]
    rfl

/-- The timer is cancelled while the callback runs, which arms it again: it expires once more, and
the user's callback is not called. -/
def armedAgain : List Timer.Event :=
  [.call .set, .run, .run, .run, .run, .run, .run, .run, .fire, .clb 0, .call .cancel, .run, .run,
    .run, .clb 5, .clb 0, .fire, .clb 0, .clb 0, .clb 0, .call .cleanup, .run, .run, .run, .run,
    .run]

theorem timer_cancelled_armedAgain :
    let t := (armedAgain.take 17).foldl Timer.step .init
    let s := armedAgain.foldl Timer.step .init
    (t.clb = .check ∧ ∀ e, (t.step e).starts = t.starts) ∧
      s.user = .gone ∧ s.starts = 1 ∧ s.pending = false ∧ s.clb = .idle ∧ s.refCnt = 0 := by
  intro t s
  have before : Runs Timer.step (fun _ _ => True) .init t :=
    .of_allowed (by simp [armedAgain, Lib.Allowed])
  have run : Runs Timer.step (fun _ _ => True) .init s :=
    .of_allowed (by simp [armedAgain, Lib.Allowed])
  have cancelled : t.user = .idle .cancel := by decide
  have gone : s.user = .gone := by decide
  obtain ⟨-, starts, -, -⟩ := timer_cancelled before
  obtain ⟨-, -, quiet, -⟩ := timer_cancelled run
  obtain ⟨pending, clb⟩ := quiet (.inr gone)
  refine ⟨⟨by decide, fun e => ?_⟩, gone, by decide, pending, clb, by decide⟩
  obtain same | set | ⟨op, stop⟩ := starts e
  · exact same
  · cases cancelled.symm.trans set
  · cases cancelled.symm.trans stop

end Wave300.Osal
