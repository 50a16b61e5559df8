import Mathlib.Data.Multiset.AddSub
import Mathlib.Logic.Function.Basic

/-!
# The serializer

Commands are put in queues, one for each priority, and a worker thread executes them one after
another. Any thread may enqueue a command, cancel one that is still in a queue, or stop the
serializer.

What is done under the lock is one step, but for the event that `mtlk_serializer_enqueue` sets at
the end of its locked section: that is a step of its own, and nobody else has the lock before it.
What is done outside the lock is in steps of its own too.

The successful calls of `mtlk_serializer_enqueue` are numbered. The number stands for the
completion callback and its context that the call stores in the command.
-/

namespace Wave300.Serializer

inductive Result where
  | executed
  | canceled
  deriving DecidableEq, Repr

/-- What the worker does next. -/
inductive Worker (κ : Type) where
  /-- It waits for the event. -/
  | wait
  /-- It looks whether it is to stop. -/
  | check
  /-- It resets the event. -/
  | reset
  /-- It looks at the queues below `left`, the highest of them first. -/
  | inspect (left : Nat)
  /-- It has taken `cmd` from the queue `i`, and calls its callback. -/
  | run (i : Nat) (cmd : κ) (number : Nat)
  /-- The callback has returned, and the completion is called. -/
  | complete (cmd : κ) (number : Nat)
  /-- The completion has been signaled, and wakes up who waits for it. -/
  | wake (cmd : κ) (number : Nat)
  /-- It clears `current_command`. -/
  | clear (cmd : κ)
  | exited
  deriving DecidableEq, Repr

/-- What the thread that called `mtlk_serializer_stop` does next. -/
inductive Stopper where
  | none
  | release
  | wait
  | setStop
  | notify
  | join
  | done
  deriving DecidableEq, Repr

/-- `postExec` is what a command has as its completion callback. `notifying` says that a thread has
the lock and has not set the event yet, `canceling` are the commands that have been taken out by
`mtlk_serializer_cancel` and whose completion is not called yet.

From `numbers` on the fields are not in the source: how many commands were enqueued, what the
worker found in this pass in the queues it looked at, in what order commands were run, and the
completions that were called. -/
structure Szr (κ : Type) where
  numPriorities : Nat
  queues : Nat → List κ
  isInQueue : κ → Bool
  priority : κ → Nat
  postExec : κ → Nat
  isRunning : Bool
  refCnt : Int
  pendingEvt : Bool
  newEvent : Bool
  stop : Bool
  current : Option κ
  worker : Worker κ
  stopper : Stopper
  notifying : Bool
  canceling : Multiset κ
  numbers : Nat
  inspected : List (Nat × Nat)
  ran : List (Nat × Nat)
  completions : List (Nat × Result)

variable {κ : Type}

namespace Szr

/-- Before the first start. -/
def init (numPriorities : Nat) : Szr κ where
  numPriorities := numPriorities
  queues := fun _ => []
  isInQueue := fun _ => false
  priority := fun _ => 0
  postExec := fun _ => 0
  isRunning := false
  refCnt := 0
  pendingEvt := false
  newEvent := false
  stop := false
  current := none
  worker := .exited
  stopper := .done
  notifying := false
  canceling := 0
  numbers := 0
  inspected := []
  ran := []
  completions := []

/-- `mtlk_rmlock_release` of `tasks_pending_lock`. -/
def rmlockRelease (s : Szr κ) : Szr κ :=
  { s with refCnt := s.refCnt - 1, pendingEvt := s.pendingEvt || s.refCnt - 1 = 0 }

/-- `mtlk_serializer_start`. -/
def start (s : Szr κ) : Szr κ :=
  { s with
    refCnt := 1
    pendingEvt := false
    stop := false
    newEvent := false
    worker := .wait
    isRunning := true
    stopper := .none }

inductive Event (κ : Type) where
  | start
  | enqueue (priority : Nat) (cmd : κ)
  | notify
  | cancel (cmd : κ)
  | cancelComplete (cmd : κ)
  | stop
  | stopStep
  | work

/-- A pass over the queues starts. -/
def startPass (s : Szr κ) : Szr κ :=
  { s with worker := .inspect s.numPriorities, inspected := [] }

variable [DecidableEq κ]

/-- The locked section of `mtlk_serializer_enqueue`, when the command is accepted, but for the
event. -/
def push (s : Szr κ) (i : Nat) (c : κ) : Szr κ :=
  { s with
    queues := Function.update s.queues i (s.queues i ++ [c])
    isInQueue := Function.update s.isInQueue c true
    priority := Function.update s.priority c i
    postExec := Function.update s.postExec c s.numbers
    refCnt := s.refCnt + 1
    notifying := true
    numbers := s.numbers + 1 }

/-- A command leaves its queue. -/
def unqueue (s : Szr κ) (i : Nat) (c : κ) (l : List κ) : Szr κ :=
  { s with
    queues := Function.update s.queues i l
    isInQueue := Function.update s.isInQueue c false }.rmlockRelease

/-- The next step of the worker. -/
def work (s : Szr κ) : Szr κ :=
  match s.worker with
  | .wait => if s.newEvent then { s with worker := .check } else s
  | .check => { s with worker := if s.stop then .exited else .reset }
  | .reset => { s with newEvent := false }.startPass
  | .inspect 0 => { s with worker := .wait }
  | .inspect (i + 1) =>
    if s.notifying then s
    else
      match s.queues i with
      | [] => { s with worker := .inspect i, inspected := (i, 0) :: s.inspected }
      | c :: l =>
        { s.unqueue i c l with
          current := some c
          worker := .run i c (s.postExec c)
          inspected := (i, l.length + 1) :: s.inspected }
  | .run i c n => { s with ran := s.ran ++ [(i, n)], worker := .complete c n }
  | .complete c _ =>
    { s with completions := (s.postExec c, .executed) :: s.completions
             worker := .wake c (s.postExec c) }
  | .wake c _ => { s with worker := .clear c }
  | .clear _ => if s.notifying then s else { s with current := none }.startPass
  | .exited => s

/-- The next step of the thread that stops the serializer. -/
def stopStep (s : Szr κ) : Szr κ :=
  match s.stopper with
  | .none | .done => s
  | .release => { s.rmlockRelease with stopper := .wait }
  | .wait => if s.pendingEvt then { s with stopper := .setStop } else s
  | .setStop => { s with stop := true, stopper := .notify }
  | .notify => { s with newEvent := true, stopper := .join }
  | .join => if s.worker = .exited then { s with stopper := .done } else s

/-- A call that is refused changes nothing. `mtlk_serializer_stop` asserts that the serializer is
started, so it is called once for each start. -/
def step (s : Szr κ) : Event κ → Szr κ
  | .start => if s.stopper = .done then s.start else s
  | .enqueue i c =>
    if s.notifying = false ∧ s.isRunning ∧ s.isInQueue c = false ∧ i < s.numPriorities then
      s.push i c
    else s
  | .notify => if s.notifying then { s with newEvent := true, notifying := false } else s
  | .cancel c =>
    if s.notifying = false ∧ s.isInQueue c then
      { s.unqueue (s.priority c) c ((s.queues (s.priority c)).erase c) with
        canceling := c ::ₘ s.canceling }
    else s
  | .cancelComplete c =>
    if c ∈ s.canceling then
      { s with
        canceling := s.canceling.erase c
        completions := (s.postExec c, .canceled) :: s.completions }
    else s
  | .stop =>
    if s.notifying = false ∧ s.stopper = .none then
      { s with isRunning := false, stopper := .release }
    else s
  | .stopStep => s.stopStep
  | .work => s.work

end Szr

end Wave300.Serializer
