import Wave300.Lib.Reorder
import Wave300.Rod.Queue

/-!
# What the reordering queue is for

The queue as a reorder buffer over unwrapped sequence numbers: the number of a packet is
the head's number plus its distance from the head, and everything is released in the
order of the numbers. While no agreement is in place packets pass by the buffer.
-/

namespace Wave300.Rod

open Wave300.Lib

variable {α : Type} {w : Nat}

structure Ideal (w : Nat) (α : Type) where
  isOpen : Bool
  buffer : Buffer w (Packet α)
  legacy : List (Packet α)
  lastSent : Nat

namespace Ideal

def start (α : Type) (now w ssn : Nat) : Ideal w α := ⟨true, .start w (Packet α) ssn, [], now⟩

/-- Everything sent up, in order. An agreement that was closed is not opened again here, so
the packets that pass by come last. -/
def sentUp (i : Ideal w α) : List (Packet α) := i.buffer.out.map Prod.snd ++ i.legacy

/-- Go over to `b`; a delivery on the way restarts the flush timeout. -/
def settle (now : Nat) (i : Ideal w α) (b : Buffer w (Packet α)) : Ideal w α :=
  { i with
    buffer := b
    lastSent := if b.out.length = i.buffer.out.length then i.lastSent else now }

/-- A packet ahead of the window pulls it forward until it is the last number in it. A
number that is taken already leaves the newcomer out. -/
def packet (now : Nat) (i : Ideal w α) (p : Packet α) : Ideal w α :=
  if i.isOpen then
    let d := seqDistance i.buffer.next p.seq
    if sequenceNumberLimit / 2 < d then i
    else
      let n := i.buffer.next + d
      let b := i.buffer.advance (d + 1 - w)
      match b.held n with
      | none => i.settle now (b.put n p).drain
      | some _ => i.settle now b
  else { i with legacy := i.legacy ++ [p] }

def bar (now : Nat) (i : Ideal w α) (ssn : Nat) : Ideal w α :=
  if i.isOpen then
    let d := seqDistance i.buffer.next ssn
    if sequenceNumberLimit / 2 < d then i else i.settle now (i.buffer.advance d).drain
  else i

def timer (now timeout : Nat) (i : Ideal w α) : Ideal w α :=
  if i.isOpen && decide (i.buffer.span ≠ 0) && timeAfter now (i.lastSent + timeout) then
    i.settle now i.buffer.flush
  else i

def clear (now : Nat) (i : Ideal w α) : Ideal w α :=
  if i.isOpen then { i.settle now i.buffer.flush with isOpen := false } else i

def step (i : Ideal w α) : Op α → Ideal w α
  | .packet now p => i.packet now p
  | .bar now ssn => i.bar now ssn
  | .timer now timeout => i.timer now timeout
  | .clear now => i.clear now

def run (i : Ideal w α) (ops : List (Op α)) : Ideal w α := ops.foldl step i

end Ideal

end Wave300.Rod
