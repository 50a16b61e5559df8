import Wave300.Rx.Deaggregation

/-!
# Subframes

The subframes of an A-MSDU body, and how far `mtlk_parse_a_msdu` gets in it.
-/

namespace Wave300.Rx

open Lib

variable {alloc : Nat → Bool} {bytes : Nat → UInt8} {n k o fuel : Nat} {s t : Parse}

/-- Where a subframe begins, and the length of its payload. -/
structure Subframe where
  start : Nat
  len : Nat
  deriving DecidableEq, Repr

/-- The end of the payload. -/
def Subframe.stop (f : Subframe) : Nat := f.start + (f.len + ethhdrSize)

/-- Where the next subframe begins. -/
def Subframe.next (f : Subframe) : Nat := f.stop + padOf (f.len + ethhdrSize)

/-- What a subframe is presented as: its addresses, then the type, which ends the SNAP header, and
what follows it. -/
def Subframe.ethernet (bytes : Nat → UInt8) (f : Subframe) : List UInt8 :=
  slice bytes f.start macsSize ++
    (slice bytes (f.start + ethhdrSize + 6) 2 ++
      slice bytes (f.start + ethhdrSize + llcSnapSize) (f.len - llcSnapSize))

/-- A subframe with its LLC and SNAP headers. -/
structure Subframe.Valid (bytes : Nat → UInt8) (f : Subframe) : Prop where
  len : f.len = hProto bytes f.start
  llcSnap : llcSnapSize ≤ f.len
  most : f.len ≤ amsduMaxMsduSize

/-- The bytes from an address to the end of the body are a list of subframes, with padding between
them. -/
inductive AMsdu (bytes : Nat → UInt8) (n : Nat) : Nat → List Subframe → Prop where
  | last {f : Subframe} : f.Valid bytes → f.stop = n → AMsdu bytes n f.start [f]
  | more {f : Subframe} {l : List Subframe} : f.Valid bytes → AMsdu bytes n f.next l →
      AMsdu bytes n f.start (f :: l)

/-- How the division of a body ends: with a subframe that ends it, with nothing left behind a
subframe and its padding, or with something else. -/
inductive Ending where
  | exact
  | padded
  | refused
  deriving DecidableEq, Repr

/-- The subframes that are taken from an address on, given which clones can be made. -/
def walk (alloc : Nat → Bool) (bytes : Nat → UInt8) (n : Nat) :
    Nat → Nat → Nat → List Subframe × Ending
  | 0, _, _ => ([], .refused)
  | fuel + 1, k, o =>
    let f : Subframe := ⟨o, hProto bytes o⟩
    if o = n then ([], .padded)
    else if n < o + ethhdrSize then ([], .refused)
    else if amsduMaxMsduSize < f.len then ([], .refused)
    else if n < f.stop then ([], .refused)
    else if f.stop = n then ([f], .exact)
    else if alloc k then
      let w := walk alloc bytes n fuel (k + 1) f.next
      (f :: w.1, w.2)
    else ([], .refused)

theorem AMsdu.start_lt {l : List Subframe} (h : AMsdu bytes n o l) : o + ethhdrSize < n := by
  induction h with
  | @last f valid stop =>
    have len := valid.llcSnap
    simp only [Subframe.stop, llcSnapSize] at stop len
    omega
  | @more f l valid _ ih =>
    simp only [Subframe.next, Subframe.stop] at ih
    omega

/-- A list of subframes is what the walk finds, unless a clone is missing. -/
theorem AMsdu.walk {l : List Subframe} (h : AMsdu bytes n o l) (enough : n < o + fuel) :
    walk alloc bytes n fuel k o = (l, .exact) ∨ (walk alloc bytes n fuel k o).2 = .refused := by
  induction h generalizing fuel k with
  | @last f valid stop =>
    have len := valid.llcSnap
    have most := valid.most
    have is : (⟨f.start, f.len⟩ : Subframe) = f := rfl
    cases fuel with
    | zero => simp only [Subframe.stop] at stop; omega
    | succ fuel =>
      left
      have inside : ¬ f.start = n ∧ ¬ n < f.start + ethhdrSize := by
        simp only [Subframe.stop, llcSnapSize] at stop len
        simp only [ethhdrSize] at *
        omega
      simp only [Rx.walk, ← valid.len, is, inside.1, if_false, inside.2, Nat.not_lt.2 most, stop,
        lt_irrefl, if_true]
  | @more f l valid rest ih =>
    have len := valid.llcSnap
    have most := valid.most
    have is : (⟨f.start, f.len⟩ : Subframe) = f := rfl
    have next := rest.start_lt
    have far : f.start + ethhdrSize < f.next := by
      simp only [Subframe.next, Subframe.stop, llcSnapSize] at len ⊢
      omega
    have stop : f.stop < n := by
      have : f.stop ≤ f.next := Nat.le_add_right ..
      omega
    cases fuel with
    | zero => omega
    | succ fuel =>
      have inside : ¬ f.start = n ∧ ¬ n < f.start + ethhdrSize := by omega
      simp only [Rx.walk, ← valid.len, is, inside.1, if_false, inside.2, Nat.not_lt.2 most,
        stop.ne, Nat.not_lt.2 stop.le]
      cases alloc k with
      | false => exact .inr rfl
      | true =>
        simp only [if_true]
        obtain found | lost := ih (k := k + 1) (show n < f.next + fuel by omega)
        · exact .inl (by rw [found])
        · exact .inr lost

end Wave300.Rx
