import Wave300.Requests.Answers
import Wave300.Serializer.Wakeup

/-!
# A pending request is answered

The worker needs nobody: with the steps of its own, and that of the thread that is about to set the
event, it comes to every command in a queue.
-/

namespace Wave300.Requests

open Serializer (Szr Worker)
open Lib (Runs)

variable {handler : Nat → Int} {s : Front} {szr : Szr Nat} {r : Nat}

/-- Below `left` there is a queue with a command. -/
def ahead (queues : Nat → List Nat) (left : Nat) : Bool :=
  (List.range left).any fun i => !(queues i).isEmpty

/-- How many steps the worker takes at most until it has a command, where there is one in the
`n` queues. -/
def distance (n : Nat) (queues : Nat → List Nat) : Worker Nat → Nat
  | .run .. => 2 * n + 10
  | .complete .. => 2 * n + 9
  | .wake .. => 2 * n + 8
  | .clear _ => 2 * n + 7
  | .inspect left => if ahead queues left then left + 1 else left + n + 6
  | .wait => n + 5
  | .check => n + 4
  | .reset => n + 3
  | .exited => 0

/-- The user of a request has the result, or can have it. -/
def Req.Done (q : Req) : Prop :=
  match q.call.origin with
  | .task => q.phase = .ended
  | .waits => ∃ res, q.phase = .answered res
  | .notified => ∃ res, q.phase = .told res

theorem Req.Done.congr {q q' : Req} (h : q.Done) (phase : q'.phase = q.phase)
    (call : q'.call = q.call) : q'.Done := by
  simpa only [Req.Done, phase, call] using h

end Wave300.Requests
