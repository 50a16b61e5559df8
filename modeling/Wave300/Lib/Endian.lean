import Wave300.Lib.BigEndian

/-!
# The byte order of a host

How a host keeps a number in memory, and what becomes of a number of the network when it is read,
turned around and looked at byte by byte.
-/

namespace Wave300.Lib

inductive Endian where
  | big
  | little
  deriving DecidableEq, Repr

namespace Endian

variable (e : Endian) (l : List UInt8) (n x : Nat)

/-- Bytes from the highest on, in the order of a host. -/
def arrange : Endian → List UInt8 → List UInt8
  | big, l => l
  | little, l => l.reverse

/-- The number that a host reads from bytes. -/
def load : Nat := ofBytes (e.arrange l)

/-- The `n` bytes that a host keeps of a number. -/
def bytes : List UInt8 := e.arrange (toBytes n x)

/-- A number that is turned from one order to another: its bytes are read anew. -/
def turn (order : Endian) : Nat := order.load (e.bytes n x)

/-- `ntohs` and `ntohl`, of a number of `n` bytes. -/
def ntoh : Nat := e.turn n x big

@[simp] theorem length_arrange : (e.arrange l).length = l.length := by
  cases e with
  | big => rfl
  | little => exact List.length_reverse

@[simp] theorem arrange_arrange : e.arrange (e.arrange l) = l := by
  cases e with
  | big => rfl
  | little => exact List.reverse_reverse l

@[simp] theorem length_bytes : (e.bytes n x).length = n := by
  rw [bytes, length_arrange, length_toBytes]

theorem bytes_ofBytes : e.bytes l.length (ofBytes l) = e.arrange l := by
  rw [bytes, toBytes_ofBytes]

/-- Bytes that are read and written again. -/
theorem bytes_load : e.bytes l.length (e.load l) = l := by
  have turned := e.bytes_ofBytes (e.arrange l)
  rwa [length_arrange, arrange_arrange] at turned

/-- A number that is written and read again. -/
theorem load_bytes : e.load (e.bytes n x) = x % 256 ^ n := by
  rw [load, bytes, arrange_arrange, ofBytes_toBytes]

theorem load_lt : e.load l < 256 ^ l.length := by
  have less := ofBytes_lt (e.arrange l)
  rwa [length_arrange] at less

/-- What is read from bytes and turned is what they are in the other order, whatever the host. -/
theorem turn_load (order : Endian) : e.turn l.length (e.load l) order = order.load l := by
  rw [turn, bytes_load]

theorem ntoh_load : e.ntoh l.length (e.load l) = ofBytes l := e.turn_load l big

end Endian

end Wave300.Lib
