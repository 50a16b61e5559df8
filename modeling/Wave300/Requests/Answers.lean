import Wave300.Requests.Front

/-!
# Every request is answered once

The serializer is used as it is to be used: a command is given to it once, and nobody cancels it.
So a request has one answer, whoever gives it, and what was allocated for it is freed once, by
whoever uses it last.
-/

namespace Wave300.Serializer.Worker

/-- The command that is about to be run. -/
def running {κ : Type} : Worker κ → Option κ
  | .run _ c _ => some c
  | _ => none

/-- The command whose completion is about to be called. -/
def finishing {κ : Type} : Worker κ → Option κ
  | .complete c _ => some c
  | _ => none

end Wave300.Serializer.Worker

namespace Wave300.Requests

open Serializer (Szr Worker)
open Lib (Runs)

/-! ## One request -/

/-- The clipboard of a request that was handed to the core -/
def Origin.clpb : Origin → Block
  | .task => .none
  | _ => .live

/-- The invocation context of a request that was handed to the core -/
def Origin.invocation : Origin → Block
  | .notified => .live
  | _ => .none

namespace Req

/-- The execution context is there as long as the completion of the command is due. -/
def Over (due : Prop) (q : Req) : Prop :=
  (due → q.context = .live) ∧ (¬ due → q.context ≠ .live ∧ q.context ≠ .broken)

/-- A result is what the task function returned, when it was called. -/
structure Answered (result res : Int) (q : Req) : Prop where
  answers : q.answers = [res]
  handled : q.handled = [] ∨ q.handled = [result] ∧ res = result

/-- A result is of a request that the core was not given. -/
structure Failed (res : Int) (q : Req) : Prop where
  answers : q.answers = []
  handled : q.handled = []
  error : res ≠ 0

/-- What holds of a request whose task function returns `result`, if it is called. -/
def Sound (result : Int) (due : Prop) (q : Req) : Prop :=
  match q.phase with
  | .unissued => ¬ due ∧ q = .new q.call
  | .calling | .pending => ¬ due ∧ q.context = .live ∧ q.clpb = q.call.origin.clpb ∧
      q.invocation = q.call.origin.invocation ∧ q.handled = [] ∧ q.answers = []
  | .answered res => q.Over due ∧ q.call.origin = .waits ∧ q.clpb = .live ∧ q.invocation = .none ∧
      q.Answered result res
  | .told res => q.Over due ∧ q.call.origin ≠ .task ∧ (q.Answered result res ∨ q.Failed res) ∧
      (q.clpb = .live ↔ q.call.origin = .waits ∧ res = 0) ∧ q.clpb ≠ .broken ∧
      q.invocation ≠ .live ∧ q.invocation ≠ .broken
  | .ended => q.Over due ∧ q.call.origin = .task ∧ q.clpb = .none ∧ q.invocation = .none ∧
      (q.handled = [] ∨ q.handled = [result]) ∧ q.answers = []

/-- What the core has of a request that is not answered. -/
structure Given (q : Req) : Prop where
  clpb : q.clpb = q.call.origin.clpb
  invocation : q.invocation = q.call.origin.invocation
  handled : q.handled = []
  answers : q.answers = []

variable {result res : Int} {due : Prop} {q : Req} {g : Granted}

/-- An answer from one who did not call the task function, or from one who did. -/
theorem sound_complete (past : q.Over due) (clpb : q.clpb = q.call.origin.clpb)
    (invocation : q.invocation = q.call.origin.invocation) (answers : q.answers = [])
    (handled : q.handled = [] ∨ q.handled = [result] ∧ res = result) :
    (q.complete res).Sound result due := by
  cases origin : q.call.origin with
  | task =>
    rw [origin] at clpb invocation
    simp only [complete, origin, Sound]
    refine ⟨past, trivial, clpb, invocation, ?_, answers⟩
    exact handled.imp_right And.left
  | waits =>
    rw [origin] at clpb invocation
    simp only [complete, origin, Sound, answers]
    exact ⟨past, trivial, clpb, invocation, rfl, handled⟩
  | notified =>
    rw [origin] at clpb invocation
    simp only [complete, origin, Sound, answers, clpb, invocation]
    refine ⟨past, by simp, .inl ⟨rfl, handled⟩, ?_⟩
    simp [Origin.clpb, Origin.invocation, Block.free, Block.touch]

theorem sound_execute (enabled : Bool) (past : q.Over due) (given : q.Given) :
    (q.execute enabled result).Sound result due := by
  unfold execute
  split
  · refine sound_complete past ?_ given.invocation given.answers ?_
    · dsimp only
      rw [given.clpb]
      cases q.call.origin <;> rfl
    · simp [given.handled]
  · exact sound_complete past given.clpb given.invocation given.answers (.inl given.handled)

theorem sound_executeAsync (given : q.Given) (none : q.context = .none) :
    (q.executeAsync g).Sound result False := by
  have past : q.Over False := by simp [Over, none]
  unfold executeAsync
  split
  · exact sound_complete past given.clpb given.invocation given.answers (.inl given.handled)
  split
  · refine sound_complete ?_ given.clpb given.invocation given.answers (.inl given.handled)
    simp [Over, Block.free]
  · exact ⟨id, rfl, given.clpb, given.invocation, given.handled, given.answers⟩

theorem sound_process (enabled : Bool) (given : q.Given) (none : q.context = .none) :
    (q.process enabled result g).Sound result False := by
  unfold process
  split
  · exact sound_execute enabled (by simp [Over, none]) given
  · exact sound_executeAsync given none

/-- Before the core is given a request, it fails with an error of its own. -/
theorem sound_tell (error : res ≠ 0) (none : q.context = .none) (request : q.call.origin ≠ .task)
    (handled : q.handled = []) (answers : q.answers = [])
    (clpb : q.clpb = .none ∨ q.clpb = .freed)
    (invocation : q.invocation = .none ∨ q.invocation = .freed) :
    (q.tell res).Sound result False := by
  refine ⟨by simp [Over, tell, none], request, .inr ⟨answers, handled, error⟩, ?_⟩
  obtain clpb | clpb := clpb <;> obtain invocation | invocation := invocation <;>
    simp [tell, clpb, invocation, error]

theorem sound_issue (enabled : Bool) (call : Call) :
    ((new call).issue enabled result g).Sound result False := by
  cases origin : call.origin with
  | task =>
    have given : (new call).Given :=
      ⟨by simp [new, origin, Origin.clpb], by simp [new, origin, Origin.invocation], rfl, rfl⟩
    simp only [issue, show (new call).call.origin = .task from origin]
    exact sound_executeAsync given rfl
  | waits =>
    have request : (new call).call.origin ≠ .task := by simp [new, origin]
    simp only [issue, show (new call).call.origin = .waits from origin, invokeCore]
    split
    · exact sound_tell (by decide) rfl request rfl rfl (.inl rfl) (.inl rfl)
    split
    · exact sound_tell (by decide) rfl request rfl rfl (.inr rfl) (.inl rfl)
    split
    next error => exact sound_tell error rfl request rfl rfl (.inr rfl) (.inl rfl)
    · refine sound_process enabled ⟨?_, ?_, rfl, rfl⟩ rfl
      · simp [new, origin, Origin.clpb]
      · simp [new, origin, Origin.invocation]
  | notified =>
    have request : (new call).call.origin ≠ .task := by simp [new, origin]
    simp only [issue, show (new call).call.origin = .notified from origin, invokeCoreAsync]
    split
    · exact sound_tell (by decide) rfl request rfl rfl (.inl rfl) (.inl rfl)
    split
    · exact sound_tell (by decide) rfl request rfl rfl (.inl rfl) (.inr rfl)
    split
    · exact sound_tell (by decide) rfl request rfl rfl (.inr rfl) (.inr rfl)
    · refine sound_process enabled ⟨?_, ?_, rfl, rfl⟩ rfl
      · simp [new, origin, Origin.clpb]
      · simp [new, origin, Origin.invocation]

/-- A request that the core has. -/
theorem Sound.given (h : q.Sound result due) (inHand : q.phase = .calling ∨ q.phase = .pending) :
    ¬ due ∧ q.context = .live ∧ q.Given := by
  obtain phase | phase := inHand
  all_goals
    simp only [Sound, phase] at h
    obtain ⟨due, context, clpb, invocation, handled, answers⟩ := h
    exact ⟨due, context, clpb, invocation, handled, answers⟩

theorem Sound.refuse (h : q.Sound result due) (calling : q.phase = .calling) (res : Int) :
    (q.refuse res).Sound result due := by
  obtain ⟨due, live, given⟩ := h.given (.inl calling)
  refine sound_complete ?_ given.clpb given.invocation given.answers (.inl given.handled)
  simp [Over, live, Block.free, due]

theorem Sound.asyncClb (h : q.Sound result due) (pending : q.phase = .pending) (enabled : Bool) :
    (q.asyncClb enabled result).Sound result True := by
  obtain ⟨-, live, given⟩ := h.given (.inr pending)
  refine sound_execute enabled ?_ ⟨given.clpb, given.invocation, given.handled, given.answers⟩
  simp [Over, live, Block.touch]

theorem Sound.wake (h : q.Sound result due) : q.wake.Sound result due := by
  unfold Req.wake
  split
  next res phase =>
    simp only [Sound, phase] at h
    obtain ⟨past, waits, clpb, invocation, answered⟩ := h
    split
    next ok =>
      refine ⟨past, by simp [tell, waits], .inl ⟨answered.answers, answered.handled⟩, ?_⟩
      simp [tell, clpb, waits, ok, invocation]
    next error =>
      refine ⟨past, by simp [tell, waits], .inl ⟨answered.answers, answered.handled⟩, ?_⟩
      simp [tell, clpb, waits, error, invocation, Block.free]
  · exact h

/-- The completion is called when the command has been executed. -/
theorem Sound.asyncComplClb (h : q.Sound result True) : q.asyncComplClb.Sound result False := by
  have past (live : q.Over True) : q.asyncComplClb.Over False := by
    have context : q.context = .live := live.1 trivial
    simp [Over, Req.asyncComplClb, context, Block.free]
  cases phase : q.phase with
  | unissued => simp [Sound, phase] at h
  | calling | pending => simp [Sound, phase] at h
  | answered res =>
    simp only [Sound, Req.asyncComplClb, phase] at h ⊢
    exact ⟨past h.1, h.2.1, h.2.2.1, h.2.2.2.1, h.2.2.2.2.1, h.2.2.2.2.2⟩
  | told res =>
    simp only [Sound, Req.asyncComplClb, phase] at h ⊢
    obtain ⟨live, request, result, rest⟩ := h
    refine ⟨past live, request, ?_, rest⟩
    exact result.imp (fun a => ⟨a.answers, a.handled⟩) fun f => ⟨f.answers, f.handled, f.error⟩
  | ended =>
    simp only [Sound, Req.asyncComplClb, phase] at h ⊢
    exact ⟨past h.1, h.2⟩

end Req

/-! ## All requests -/

/-- Where the serializer has a request, as its phase tells. -/
def Fits (szr : Szr Nat) (r : Nat) : Phase → Prop
  | .pending => szr.isInQueue r = true ↔ szr.worker.running ≠ some r
  | _ => szr.isInQueue r = false ∧ szr.worker.running ≠ some r

/-- What holds between steps. -/
structure Front.Sound (handler : Nat → Int) (s : Front) : Prop where
  szr : s.szr.Sound
  priorities : s.szr.numPriorities = numPriorities
  canceling : s.szr.canceling = 0
  fresh : ∀ r, s.issued ≤ r → (s.req r).phase = .unissued
  req : ∀ r, (s.req r).Sound (handler r) (s.szr.worker.finishing = some r)
  fits : ∀ r, Fits s.szr r (s.req r).phase

/-- The commands stay where they are. -/
structure Same (szr szr' : Szr Nat) : Prop where
  isInQueue : szr'.isInQueue = szr.isInQueue
  running : szr'.worker.running = szr.worker.running
  finishing : szr'.worker.finishing = szr.worker.finishing

variable {handler : Nat → Int} {s s' : Front} {szr szr' : Szr Nat} {r : Nat} {p : Phase}

theorem Fits.out (h : Fits szr r p) (phase : p ≠ .pending) :
    szr.isInQueue r = false ∧ szr.worker.running ≠ some r := by
  cases p with
  | pending => exact absurd rfl phase
  | _ => exact h

theorem fits_of_out (out : szr.isInQueue r = false ∧ szr.worker.running ≠ some r)
    (phase : p ≠ .pending) : Fits szr r p := by
  cases p with
  | pending => exact absurd rfl phase
  | _ => exact out

/-- Other requests are where they were. -/
structure Apart (r : Nat) (szr szr' : Szr Nat) : Prop where
  isInQueue : ∀ x, x ≠ r → szr'.isInQueue x = szr.isInQueue x
  running : ∀ x, x ≠ r → (szr'.worker.running = some x ↔ szr.worker.running = some x)
  finishing : ∀ x, x ≠ r → (szr'.worker.finishing = some x ↔ szr.worker.finishing = some x)

theorem Apart.refl (r : Nat) (szr : Szr Nat) : Apart r szr szr :=
  ⟨fun _ _ => rfl, fun _ _ => .rfl, fun _ _ => .rfl⟩

theorem Fits.congr (h : Fits szr r p) (isInQueue : szr'.isInQueue r = szr.isInQueue r)
    (running : szr'.worker.running = some r ↔ szr.worker.running = some r) : Fits szr' r p := by
  cases p <;> simpa only [Fits, isInQueue, ne_eq, running] using h

/-- What the serializer is in a step: its commands are in order, as many priorities as before, and
nobody cancels. -/
structure Kept (szr szr' : Szr Nat) : Prop where
  sound : szr.Sound → szr'.Sound
  priorities : szr'.numPriorities = szr.numPriorities
  canceling : szr.canceling = 0 → szr'.canceling = 0

theorem Front.Sound.same (h : s.Sound handler) (kept : Kept s.szr s'.szr)
    (same : Same s.szr s'.szr) (issued : s'.issued = s.issued) (req : s'.req = s.req) :
    s'.Sound handler where
  szr := kept.sound h.szr
  priorities := kept.priorities.trans h.priorities
  canceling := kept.canceling h.canceling
  fresh := by
    rw [issued, req]
    exact h.fresh
  req x := by
    rw [same.finishing, req]
    exact h.req x
  fits x := by
    rw [req]
    exact (h.fits x).congr (by rw [same.isInQueue]) (by rw [same.running])

/-- A step that has to do with one request. -/
theorem Front.Sound.next (h : s.Sound handler) (kept : Kept s.szr s'.szr)
    (issued : s.issued ≤ s'.issued) (below : r < s'.issued)
    (others : ∀ x, x ≠ r → s'.req x = s.req x) (apart : Apart r s.szr s'.szr)
    (sound : (s'.req r).Sound (handler r) (s'.szr.worker.finishing = some r))
    (fits : Fits s'.szr r (s'.req r).phase) : s'.Sound handler where
  szr := kept.sound h.szr
  priorities := kept.priorities.trans h.priorities
  canceling := kept.canceling h.canceling
  fresh x beyond := by
    rw [others x (by omega)]
    exact h.fresh x (by omega)
  req x := by
    by_cases here : x = r
    · exact here ▸ sound
    · rw [others x here, propext (apart.finishing x here)]
      exact h.req x
  fits x := by
    by_cases here : x = r
    · exact here ▸ fits
    · rw [others x here]
      exact (h.fits x).congr (apart.isInQueue x here) (apart.running x here)

theorem Kept.refl (szr : Szr Nat) : Kept szr szr := ⟨id, rfl, id⟩

namespace Req

theorem complete_phase (res : Int) (q : Req) : (q.complete res).phase ≠ .pending := by
  unfold complete
  split <;> simp

theorem execute_phase (enabled : Bool) (result : Int) (q : Req) :
    (q.execute enabled result).phase ≠ .pending := by
  unfold execute
  split <;> exact complete_phase _ _

theorem executeAsync_phase (g : Granted) (q : Req) : (q.executeAsync g).phase ≠ .pending := by
  unfold executeAsync
  split
  · exact complete_phase _ _
  split
  · exact complete_phase _ _
  · simp

theorem process_phase (enabled : Bool) (result : Int) (g : Granted) (q : Req) :
    (q.process enabled result g).phase ≠ .pending := by
  unfold process
  split
  · exact execute_phase _ _ _
  · exact executeAsync_phase _ _

theorem issue_phase (enabled : Bool) (result : Int) (g : Granted) (q : Req) :
    (q.issue enabled result g).phase ≠ .pending := by
  unfold issue
  split
  · exact executeAsync_phase _ _
  · unfold invokeCore
    split
    · simp [tell]
    split
    · simp [tell]
    split
    · simp [tell]
    · exact process_phase _ _ _ _
  · unfold invokeCoreAsync
    split
    · simp [tell]
    split
    · simp [tell]
    split
    · simp [tell]
    · exact process_phase _ _ _ _

end Req

theorem Front.Sound.issued_of_phase (h : s.Sound handler) (phase : (s.req r).phase ≠ .unissued) :
    r < s.issued := by
  by_contra beyond
  exact phase (h.fresh r (Nat.le_of_not_lt beyond))

theorem Front.Sound.issue (h : s.Sound handler) (call : Call) (g : Granted) :
    (s.step handler (.issue call g)).Sound handler := by
  have unissued := h.fresh s.issued (Nat.le_refl _)
  have due : ¬ s.szr.worker.finishing = some s.issued := by
    have sound := h.req s.issued
    simp only [Req.Sound, unissued] at sound
    exact sound.1
  have out := (h.fits s.issued).out (by simp [unissued])
  refine h.next (.refl _) (Nat.le_succ _) (Nat.lt_succ_self _) ?_ (.refl s.issued _) ?_ ?_
  · exact fun x other => Function.update_of_ne other _ _
  · simp only [Front.step, Function.update_self, eq_false due]
    exact Req.sound_issue _ call
  · simp only [Front.step, Function.update_self]
    exact fits_of_out out (Req.issue_phase _ _ _ _)

/-- A request changes, and stays where it is. -/
theorem Front.Sound.modify (h : s.Sound handler) (f : Req → Req) (issued : r < s.issued)
    (sound : (f (s.req r)).Sound (handler r) (s.szr.worker.finishing = some r))
    (fits : Fits s.szr r (f (s.req r)).phase) : (s.modify r f).Sound handler := by
  refine h.next (.refl _) (Nat.le_refl _) issued ?_ (.refl r _) ?_ ?_
  · exact fun x other => Function.update_of_ne other _ _
  · simpa only [Front.modify, Function.update_self] using sound
  · simpa only [Front.modify, Function.update_self] using fits

theorem Priority.index_lt (p : Priority) : p.index < numPriorities := by
  cases p <;> decide

theorem Front.Sound.enqueue (h : s.Sound handler) (r : Nat) : (s.enqueue r).Sound handler := by
  unfold Front.enqueue
  split
  next calls =>
    obtain ⟨calling, free⟩ := calls
    have issued : r < s.issued := h.issued_of_phase (by simp [calling])
    have out := (h.fits r).out (by simp [calling])
    have sound := h.req r
    split
    · exact h.modify _ issued (sound.refuse calling _) (fits_of_out out (Req.complete_phase _ _))
    next runs =>
      rw [if_neg (by simp [out.1])]
      have runs : s.szr.isRunning = true := by simpa using runs
      have below : (s.req r).call.priority.index < s.szr.numPriorities := by
        rw [h.priorities]
        exact Priority.index_lt _
      have pushed : s.szr.step (.enqueue (s.req r).call.priority.index r) =
          s.szr.push (s.req r).call.priority.index r := if_pos ⟨free, runs, out.1, below⟩
      obtain ⟨due, context, given⟩ := sound.given (.inl calling)
      refine h.next (r := r) ⟨?_, ?_, ?_⟩ (Nat.le_refl _) issued ?_ ⟨?_, ?_, ?_⟩ ?_ ?_
      · exact fun sound => sound.step (.enqueue (s.req r).call.priority.index r)
      · rw [pushed]
        rfl
      · intro canceling
        rw [pushed]
        exact canceling
      · exact fun x other => Function.update_of_ne other _ _
      · intro x other
        rw [pushed]
        exact Function.update_of_ne other _ _
      · intro x _
        rw [pushed]
        exact .rfl
      · intro x _
        rw [pushed]
        exact .rfl
      · simp only [Front.modify, Function.update_self, pushed]
        exact ⟨due, context, given.clpb, given.invocation, given.handled, given.answers⟩
      · simp only [Front.modify, Function.update_self, pushed, Fits]
        simpa [Szr.push] using out.2
  · exact h

/-- A step of the worker: it takes a command, runs it, calls its completion, or does nothing with
a command. -/
theorem work_places (sound : szr.Sound) :
    (∃ c, szr.worker.finishing = none ∧ szr.isInQueue c = true ∧
      szr.work.isInQueue = Function.update szr.isInQueue c false ∧
      szr.worker.running = none ∧ szr.work.worker.running = some c ∧
      szr.work.worker.finishing = none) ∨
    (∃ i c n, szr.worker = .run i c n ∧ szr.work.isInQueue = szr.isInQueue ∧
      szr.work.worker = .complete c n) ∨
    (∃ c n n', szr.worker = .complete c n ∧ szr.work.isInQueue = szr.isInQueue ∧
      szr.work.worker = .wake c n') ∨
    szr.worker.running = none ∧ szr.worker.finishing = none ∧ Same szr szr.work := by
  cases at' : szr.worker with
  | run i c n => exact .inr (.inl ⟨i, c, n, rfl, by simp [Szr.work, at'], by simp [Szr.work, at']⟩)
  | complete c n =>
    exact .inr (.inr (.inl ⟨c, n, szr.postExec c, rfl, by simp [Szr.work, at'],
      by simp [Szr.work, at']⟩))
  | inspect left =>
    cases left with
    | zero => exact .inr (.inr (.inr ⟨rfl, rfl, by simp [Szr.work, at'], by simp [Szr.work, at',
        Worker.running], by simp [Szr.work, at', Worker.finishing]⟩))
    | succ i =>
      by_cases notifying : szr.notifying = true
      · have stays : szr.work = szr := by simp [Szr.work, at', notifying]
        rw [stays]
        exact .inr (.inr (.inr ⟨rfl, rfl, rfl, rfl, rfl⟩))
      cases queue : szr.queues i with
      | nil => exact .inr (.inr (.inr ⟨rfl, rfl, by simp [Szr.work, at', notifying, queue],
          by simp [Szr.work, at', notifying, queue, Worker.running],
          by simp [Szr.work, at', notifying, queue, Worker.finishing]⟩))
      | cons c l =>
        have there : szr.isInQueue c = true := ((sound.listed i c).1 (by simp [queue])).1
        refine .inl ⟨c, rfl, there, ?_, rfl, ?_, ?_⟩
        · simp [Szr.work, at', notifying, queue, Szr.unqueue, Szr.rmlockRelease]
        · simp [Szr.work, at', notifying, queue, Worker.running]
        · simp [Szr.work, at', notifying, queue, Worker.finishing]
  | wait =>
    refine .inr (.inr (.inr ⟨rfl, rfl, ?_⟩))
    constructor <;> (simp only [Szr.work, at']; split <;> simp [at', Worker.running,
      Worker.finishing])
  | check =>
    refine .inr (.inr (.inr ⟨rfl, rfl, by simp [Szr.work, at'], ?_, ?_⟩))
    · simp only [Szr.work, at']
      split <;> rfl
    · simp only [Szr.work, at']
      split <;> rfl
  | reset => exact .inr (.inr (.inr ⟨rfl, rfl, by simp [Szr.work, at', Szr.startPass],
      by simp [Szr.work, at', Szr.startPass, Worker.running],
      by simp [Szr.work, at', Szr.startPass, Worker.finishing]⟩))
  | wake c n => exact .inr (.inr (.inr ⟨rfl, rfl, by simp [Szr.work, at'],
      by simp [Szr.work, at', Worker.running], by simp [Szr.work, at', Worker.finishing]⟩))
  | clear c =>
    refine .inr (.inr (.inr ⟨rfl, rfl, ?_⟩))
    constructor <;> (simp only [Szr.work, at']; split <;> simp [at', Worker.running,
      Worker.finishing, Szr.startPass])
  | exited => exact .inr (.inr (.inr ⟨rfl, rfl, by simp [Szr.work, at'],
      by simp [Szr.work, at'], by simp [Szr.work, at']⟩))

theorem kept_work (szr : Szr Nat) : Kept szr szr.work where
  sound sound := sound.work
  priorities := by
    unfold Szr.work
    split <;> (try split) <;> (try split) <;> rfl
  canceling none := by rw [(Szr.canceling_work szr).1, none]

/-- What the worker has in hand belongs to a request that was issued. -/
theorem Front.Sound.work (h : s.Sound handler) : (s.work handler).Sound handler := by
  have moved := kept_work s.szr
  obtain ⟨c, idle, queued, isInQueue, none, running, finishing⟩ | ⟨i, c, n, at', isInQueue, next⟩ |
    ⟨c, n, n', at', isInQueue, next⟩ | ⟨running, finishing, same⟩ := work_places h.szr
  · -- a command is taken out of its queue
    have pending : (s.req c).phase = .pending := by
      by_contra other
      rw [((h.fits c).out other).1] at queued
      cases queued
    have stays : s.work handler = { s with szr := s.szr.work } := by
      unfold Front.work
      split <;> simp_all [Worker.running, Worker.finishing]
    rw [stays]
    refine h.next (r := c) moved (Nat.le_refl _) (h.issued_of_phase (by simp [pending]))
      (fun _ _ => rfl) ⟨?_, ?_, ?_⟩ ?_ ?_
    · intro x other
      rw [isInQueue, Function.update_of_ne other]
    · intro x other
      simp [none, running, other.symm]
    · intro x _
      simp [idle, finishing]
    · have sound := h.req c
      simp only [finishing, idle] at sound ⊢
      exact sound
    · simp only [pending, Fits, isInQueue, Function.update_self, running]
      simp
  · -- its callback is called
    have runs : s.szr.worker.running = some c := by rw [at']; rfl
    have idle : s.szr.worker.finishing = Option.none := by rw [at']; rfl
    have pending : (s.req c).phase = .pending := by
      by_contra other
      exact ((h.fits c).out other).2 runs
    have out : s.szr.isInQueue c = false := by
      have fits := h.fits c
      simpa [pending, Fits, runs] using fits
    have does : s.work handler = { s with szr := s.szr.work }.modify c
        (Req.asyncClb (s.isAbilityEnabled (s.req c).call.ability) (handler c)) := by
      simp only [Front.work, at']
    have finishes : s.szr.work.worker.finishing = some c := by rw [next]; rfl
    have runsNot : s.szr.work.worker.running = Option.none := by rw [next]; rfl
    rw [does]
    refine h.next (r := c) moved (Nat.le_refl _) (h.issued_of_phase (by simp [pending]))
      ?_ ⟨?_, ?_, ?_⟩ ?_ ?_
    · exact fun x other => Function.update_of_ne other _ _
    · exact fun x _ => congrFun isInQueue x
    · intro x other
      simp [Front.modify, runsNot, runs, other.symm]
    · intro x other
      simp [Front.modify, finishes, idle, other.symm]
    · simp only [Front.modify, Function.update_self, finishes, eq_self]
      exact (h.req c).asyncClb pending _
    · simp only [Front.modify, Function.update_self]
      refine fits_of_out ⟨?_, ?_⟩ (Req.execute_phase _ _ _)
      · rw [isInQueue, out]
      · simp [runsNot]
  · -- its completion is called
    have finishes : s.szr.worker.finishing = some c := by rw [at']; rfl
    have idle : s.szr.worker.running = Option.none := by rw [at']; rfl
    have sound := h.req c
    simp only [finishes, eq_self] at sound
    have phase : (s.req c).phase ≠ .pending := by
      intro pending
      exact (sound.given (.inr pending)).1 trivial
    have issued : (s.req c).phase ≠ .unissued := by
      intro unissued
      simp [Req.Sound, unissued] at sound
    have does : s.work handler = { s with szr := s.szr.work }.modify c Req.asyncComplClb := by
      simp only [Front.work, at']
    have finishesNot : s.szr.work.worker.finishing = Option.none := by rw [next]; rfl
    have runsNot : s.szr.work.worker.running = Option.none := by rw [next]; rfl
    rw [does]
    refine h.next (r := c) moved (Nat.le_refl _) (h.issued_of_phase issued) ?_ ⟨?_, ?_, ?_⟩ ?_ ?_
    · exact fun x other => Function.update_of_ne other _ _
    · exact fun x _ => congrFun isInQueue x
    · intro x _
      simp [Front.modify, runsNot, idle]
    · intro x other
      simp [Front.modify, finishesNot, finishes, other.symm]
    · simp only [Front.modify, Function.update_self, finishesNot, reduceCtorEq]
      exact sound.asyncComplClb
    · simp only [Front.modify, Function.update_self]
      refine fits_of_out ⟨?_, ?_⟩ phase
      · rw [isInQueue, ((h.fits c).out phase).1]
      · simp [runsNot]
  · have stays : s.work handler = { s with szr := s.szr.work } := by
      unfold Front.work
      split <;> simp_all [Worker.running, Worker.finishing]
    rw [stays]
    exact h.same moved same rfl rfl

theorem Req.wake_phase (q : Req) (phase : q.phase ≠ .pending) : q.wake.phase ≠ .pending := by
  unfold Req.wake
  split
  · split <;> simp [Req.tell]
  · exact phase

theorem Req.wake_of_ne (q : Req) (phase : ∀ res, q.phase ≠ .answered res) : q.wake = q := by
  unfold Req.wake
  split
  next res at' => exact absurd at' (phase res)
  · rfl

theorem Front.Sound.wake (h : s.Sound handler) (r : Nat) :
    (s.step handler (.wake r)).Sound handler := by
  by_cases answered : ∃ res, (s.req r).phase = .answered res
  · obtain ⟨res, phase⟩ := answered
    have other : (s.req r).phase ≠ .pending := by simp [phase]
    exact h.modify _ (h.issued_of_phase (by simp [phase])) (h.req r).wake
      (fits_of_out ((h.fits r).out other) (Req.wake_phase _ other))
  · have same : s.modify r Req.wake = s := by
      rw [Front.modify, Req.wake_of_ne _ (not_exists.1 answered), Function.update_eq_self]
    rw [Front.step, same]
    exact h

theorem kept_stopStep (szr : Szr Nat) : Kept szr (szr.step .stopStep) ∧
    Same szr (szr.step .stopStep) := by
  obtain ⟨refCnt, pendingEvt, newEvent, stop, stopper, is⟩ := Szr.stopStep_eq szr
  have sound : szr.Sound → (szr.step .stopStep).Sound := fun sound => sound.step .stopStep
  refine ⟨⟨sound, ?_, ?_⟩, ?_⟩
  · rw [Szr.step, is]
  · rw [Szr.step, is]
    exact id
  · rw [Szr.step, is]
    exact ⟨rfl, rfl, rfl⟩

theorem kept_notify (szr : Szr Nat) : Kept szr (szr.step .notify) ∧
    Same szr (szr.step .notify) := by
  have sound : szr.Sound → (szr.step .notify).Sound := fun sound => sound.step .notify
  simp only [Szr.step] at sound ⊢
  split
  · rw [if_pos ‹_›] at sound
    exact ⟨⟨sound, rfl, id⟩, rfl, rfl, rfl⟩
  · exact ⟨.refl szr, rfl, rfl, rfl⟩

theorem kept_stop (szr : Szr Nat) : Kept szr (szr.step .stop) ∧ Same szr (szr.step .stop) := by
  have sound : szr.Sound → (szr.step .stop).Sound := fun sound => sound.step .stop
  simp only [Szr.step] at sound ⊢
  split
  · rw [if_pos ‹_›] at sound
    exact ⟨⟨sound, rfl, id⟩, rfl, rfl, rfl⟩
  · exact ⟨.refl szr, rfl, rfl, rfl⟩

theorem kept_start (sound : szr.Sound) : Kept szr (szr.step .start) ∧
    Same szr (szr.step .start) := by
  have started : szr.Sound → (szr.step .start).Sound := fun sound => sound.step .start
  simp only [Szr.step] at started ⊢
  split
  next done =>
    rw [if_pos done] at started
    have exited := sound.done done
    exact ⟨⟨started, rfl, id⟩, rfl, by rw [exited]; rfl, by rw [exited]; rfl⟩
  · exact ⟨.refl szr, rfl, rfl, rfl⟩

theorem step_sound (h : s.Sound handler) (e : Front.Event) : (s.step handler e).Sound handler := by
  cases e with
  | issue call g => exact h.issue call g
  | enqueue r => exact h.enqueue r
  | wake r => exact h.wake r
  | work => exact h.work
  | notify => exact h.same (kept_notify s.szr).1 (kept_notify s.szr).2 rfl rfl
  | start => exact h.same (kept_start h.szr).1 (kept_start h.szr).2 rfl rfl
  | stop => exact h.same (kept_stop s.szr).1 (kept_stop s.szr).2 rfl rfl
  | stopStep => exact h.same (kept_stopStep s.szr).1 (kept_stopStep s.szr).2 rfl rfl
  | ability id state => exact h.same (.refl _) ⟨rfl, rfl, rfl⟩ rfl rfl

theorem init_sound : Front.init.Sound handler where
  szr := Szr.init_sound numPriorities
  priorities := rfl
  canceling := rfl
  fresh _ _ := rfl
  req _ := by simp [Front.init, Req.new, Req.Sound, Szr.init, Worker.finishing]
  fits _ := by simp [Front.init, Req.new, Fits, Szr.init, Worker.running]

/-- What the users of the core rely on: a task function is called once, its result is the answer,
the answer is what the user is told, and no block of memory is used or freed when it is not
there. -/
structure Req.Good (result : Int) (q : Req) : Prop where
  once : q.answers.length ≤ 1 ∧ q.handled.length ≤ 1
  honest : ∀ x ∈ q.handled, x = result ∧ (q.call.origin = .task ∨ q.answers = [x])
  told : ∀ res, q.phase = .told res →
    q.answers = [res] ∨ q.answers = [] ∧ q.handled = [] ∧ res ≠ 0
  intact : q.context ≠ .broken ∧ q.clpb ≠ .broken ∧ q.invocation ≠ .broken

/-- Nothing is left of a request but the clipboard that goes to a caller. -/
structure Req.Released (q : Req) : Prop where
  context : q.context ≠ .live
  clpb : q.clpb = .live ↔ q.call.origin = .waits ∧ q.phase = .told 0
  invocation : q.invocation ≠ .live

section
variable {result res : Int} {due : Prop} {q : Req}

theorem Req.Answered.good (h : q.Answered result res) :
    (q.answers.length ≤ 1 ∧ q.handled.length ≤ 1) ∧
      ∀ x ∈ q.handled, x = result ∧ (q.call.origin = .task ∨ q.answers = [x]) := by
  obtain none | ⟨one, same⟩ := h.handled
  · simp [h.answers, none]
  · simp [h.answers, one, same]

theorem Req.Over.intact (h : q.Over due) : q.context ≠ .broken := by
  by_cases due
  · rw [h.1 ‹_›]
    simp
  · exact (h.2 ‹_›).2

theorem Req.Sound.good (h : q.Sound result due) : q.Good result := by
  cases phase : q.phase with
  | unissued =>
    simp only [Req.Sound, phase] at h
    rw [h.2]
    constructor <;> simp [Req.new]
  | calling | pending =>
    obtain ⟨-, live, given⟩ := h.given (by simp [phase])
    constructor
    · simp [given.answers, given.handled]
    · simp [given.handled]
    · simp [phase]
    · rw [live, given.clpb, given.invocation]
      cases q.call.origin <;> simp [Origin.clpb, Origin.invocation]
  | answered res =>
    simp only [Req.Sound, phase] at h
    obtain ⟨past, -, clpb, invocation, answered⟩ := h
    exact ⟨answered.good.1, answered.good.2, by simp [phase],
      past.intact, by simp [clpb], by simp [invocation]⟩
  | told res =>
    simp only [Req.Sound, phase] at h
    obtain ⟨past, -, answered | failed, -, clpb, -, invocation⟩ := h
    · refine ⟨answered.good.1, answered.good.2, ?_, past.intact, clpb, invocation⟩
      rintro x told
      obtain rfl := Phase.told.inj (phase.symm.trans told)
      exact .inl answered.answers
    · refine ⟨by simp [failed.answers, failed.handled], by simp [failed.handled], ?_, past.intact,
        clpb, invocation⟩
      rintro x told
      obtain rfl := Phase.told.inj (phase.symm.trans told)
      exact .inr ⟨failed.answers, failed.handled, failed.error⟩
  | ended =>
    simp only [Req.Sound, phase] at h
    obtain ⟨past, task, clpb, invocation, handled, answers⟩ := h
    refine ⟨?_, ?_, by simp [phase], past.intact, by simp [clpb], by simp [invocation]⟩
    · obtain none | one := handled <;> simp [*]
    · obtain none | one := handled <;> simp [*]

theorem Req.Sound.released (h : q.Sound result due) (past : ¬ due)
    (phase : q.phase = .ended ∨ ∃ res, q.phase = .told res) : q.Released := by
  obtain ended | ⟨res, told⟩ := phase
  · simp only [Req.Sound, ended] at h
    obtain ⟨context, task, clpb, invocation, -⟩ := h
    exact ⟨(context.2 past).1, by simp [clpb, ended], by simp [invocation]⟩
  · simp only [Req.Sound, told] at h
    obtain ⟨context, -, -, clpb, -, invocation, -⟩ := h
    exact ⟨(context.2 past).1, by simp [clpb, told], invocation⟩

end

theorem run_sound (run : Runs (Front.step handler) (fun _ _ => True) .init s) :
    s.Sound handler :=
  run.invariant init_sound fun _ e sound _ => step_sound sound e

/-- A thread asks for something, and waits. -/
def asked : Call := ⟨.waits, 5, .user, false, true⟩

/-- All that a call needs. -/
def granted : Granted := ⟨true, true, true, 0, true, 0⟩

end Wave300.Requests
