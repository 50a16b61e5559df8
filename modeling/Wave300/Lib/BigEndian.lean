import Mathlib.Algebra.Order.Ring.Int
import Mathlib.Data.List.Induction
import Mathlib.Tactic.Ring

/-!
# Big-endian numbers

A number as its bytes, the highest first, and the order in which `memcmp` puts two numbers of
the same width.
-/

namespace Wave300.Lib

/-- The number a block of bytes stands for. -/
def ofBytes (l : List UInt8) : Nat := l.foldl (fun n b => 256 * n + b.toNat) 0

/-- The lowest `n` bytes of a number. -/
def toBytes : Nat → Nat → List UInt8
  | 0, _ => []
  | n + 1, x => toBytes n (x / 256) ++ [UInt8.ofNat x]

/-- `memcmp`, of two blocks of the same length: the difference of the first two bytes that
differ. -/
def memcmp : List UInt8 → List UInt8 → Int
  | a :: l, b :: r => if a = b then memcmp l r else (a.toNat : Int) - b.toNat
  | _, _ => 0

theorem ofBytes_concat (l : List UInt8) (b : UInt8) :
    ofBytes (l ++ [b]) = 256 * ofBytes l + b.toNat := by
  rw [ofBytes, List.foldl_append]
  rfl

theorem foldl_bytes (l : List UInt8) (n : Nat) :
    l.foldl (fun n b => 256 * n + b.toNat) n = n * 256 ^ l.length + ofBytes l := by
  induction l using List.reverseRecOn with
  | nil => simp [ofBytes]
  | append_singleton l b ih =>
    rw [List.foldl_append, ih, ofBytes_concat, List.length_append, List.length_singleton, pow_succ]
    simp only [List.foldl_cons, List.foldl_nil]
    ring

theorem ofBytes_cons (b : UInt8) (l : List UInt8) :
    ofBytes (b :: l) = b.toNat * 256 ^ l.length + ofBytes l := by
  rw [ofBytes, List.foldl_cons, foldl_bytes]
  ring

theorem ofBytes_zero_cons (l : List UInt8) : ofBytes (0 :: l) = ofBytes l := by
  rw [ofBytes_cons, UInt8.toNat_zero, Nat.zero_mul, Nat.zero_add]

theorem ofBytes_lt (l : List UInt8) : ofBytes l < 256 ^ l.length := by
  induction l using List.reverseRecOn with
  | nil => decide
  | append_singleton l b ih =>
    have byte := b.toNat_lt
    rw [ofBytes_concat, List.length_append, List.length_singleton, pow_succ]
    omega

@[simp]
theorem length_toBytes (n x : Nat) : (toBytes n x).length = n := by
  induction n generalizing x with
  | zero => rfl
  | succ n ih => rw [toBytes, List.length_append, ih, List.length_singleton]

theorem ofBytes_toBytes (n x : Nat) : ofBytes (toBytes n x) = x % 256 ^ n := by
  induction n generalizing x with
  | zero => rw [pow_zero, Nat.mod_one]; rfl
  | succ n ih =>
    have low : (UInt8.ofNat x).toNat = x % 256 := UInt8.toNat_ofNat'
    rw [toBytes, ofBytes_concat, ih, low, pow_succ, Nat.mul_comm (256 ^ n) 256, Nat.mod_mul]
    omega

theorem toBytes_ofBytes (l : List UInt8) : toBytes l.length (ofBytes l) = l := by
  induction l using List.reverseRecOn with
  | nil => rfl
  | append_singleton l b ih =>
    have byte := b.toNat_lt
    have high : (256 * ofBytes l + b.toNat) / 256 = ofBytes l := by omega
    have low : UInt8.ofNat (256 * ofBytes l + b.toNat) = b := by
      apply UInt8.toNat_inj.1
      rw [UInt8.toNat_ofNat']
      omega
    rw [List.length_append, List.length_singleton, toBytes, ofBytes_concat, high, ih, low]

/-- The lower bytes of a number are its bytes at a smaller width. -/
theorem drop_toBytes (m n x : Nat) : (toBytes (m + n) x).drop m = toBytes n x := by
  induction n generalizing x with
  | zero =>
    apply List.drop_eq_nil_of_le
    rw [length_toBytes, Nat.add_zero]
  | succ n ih =>
    rw [← Nat.add_assoc, toBytes, toBytes, List.drop_append_of_le_length, ih]
    rw [length_toBytes]
    exact Nat.le_add_right m n

/-- `memcmp` orders blocks of the same length as the numbers they stand for. -/
theorem memcmp_nonpos_iff {l r : List UInt8} (same : l.length = r.length) :
    memcmp l r ≤ 0 ↔ ofBytes l ≤ ofBytes r := by
  induction l generalizing r with
  | nil =>
    obtain rfl := List.length_eq_zero_iff.1 same.symm
    decide
  | cons a l ih =>
    cases r with
    | nil => cases same
    | cons b r =>
      have rest : l.length = r.length := Nat.succ.inj same
      rw [memcmp, ofBytes_cons, ofBytes_cons, rest]
      split
      case isTrue first =>
        subst first
        rw [ih rest]
        omega
      case isFalse first =>
        have left := ofBytes_lt l
        have right := ofBytes_lt r
        rw [rest] at left
        have apart : a.toNat ≠ b.toNat := fun eq => first (UInt8.toNat_inj.1 eq)
        obtain less | more := Nat.lt_or_gt_of_ne apart
        · have step := Nat.mul_le_mul_right (256 ^ r.length) less
          rw [Nat.succ_mul] at step
          omega
        · have step := Nat.mul_le_mul_right (256 ^ r.length) more
          rw [Nat.succ_mul] at step
          omega

end Wave300.Lib
