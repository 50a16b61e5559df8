import Wave300.Lib.Bits
import Wave300.Lib.Undo

/-!
# Steps of init and cleanup

The macros of `mtlkstartup.h`, from which every module builds its init and cleanup, or start and
stop. An object has two bit fields, of the steps that were done and of those that were skipped, and
a counter for each step that is done in a loop. A step that fails is followed by the cleanup, which
goes over all steps backwards and undoes those whose bits are set. The steps are outer ones; the
macros are used with at most 28 of them, and loops have no condition.
-/

namespace Wave300.Startup

open Lib

/-- `__BFIELDS_TYPE` -/
abbrev Field := BitVec 32

/-- `MTLK_U_BITS_GET(bf, n, 1)` -/
def bitsGet (bf : Field) (n : Nat) : Bool := ((bf >>> n) &&& 1#32) != 0#32

/-- `MTLK_U_BITS_SET(bf, n, 1, val)` -/
def bitsSet (bf : Field) (n : Nat) (val : Bool) : Field :=
  (bf &&& ~~~(1#32 <<< n)) ||| ((if val then 1#32 else 0#32) <<< n &&& 1#32 <<< n)

/-- `MTLK_U_BITS_VALUE(0, n, -1, __BFIELDS_TYPE)` -/
def bitsValue (n : Nat) : Field := -1#32 &&& (1#32 <<< n - 1#32)

/-- What the assertions of the macros report, and a loop of the cleanup that does not end. -/
inductive Fault where
  | orderOfSteps
  | unexpectedCleanup
  | stepsMissed
  | endless
  deriving DecidableEq, Repr

/-- A step as a module uses it: `MTLK_INIT_STEP_IF` or `MTLK_INIT_STEP_LOOP`, with its counterpart
in the cleanup. -/
structure Step (σ : Type*) extends Stage σ where
  loop : Bool
  fits : if loop then 1 ≤ times ∧ times < 2 ^ 32 else times = 1
  always : loop = true → ∀ s, wanted s = true

theorem once_fits : if false = true then (1 : Nat) ≤ 1 ∧ 1 < 2 ^ 32 else (1 : Nat) = 1 := rfl

theorem once_always {p : Prop} (loop : false = true) : p := Bool.noConfusion loop

/-- `MTLK_DECLARE_INIT_STATUS`, `MTLK_DECLARE_INIT_LOOP`, and all else. -/
structure Obj (σ : Type*) where
  main : Field
  skipped : Field
  loops : Nat → UInt32
  world : σ

variable {σ : Type*}

namespace Obj

/-- The end of `_MTLK_FWD_STEP`. -/
def mark (o : Obj σ) (i : Nat) (execCounter : UInt32) : Except Fault (Obj σ × Bool) :=
  if execCounter = 0 then
    if o.main = bitsValue i then .ok ({ o with main := bitsSet o.main i true }, true)
    else .error .orderOfSteps
  else .ok (o, true)

/-- `_MTLK_FWD_STEP`, in iteration `n` if it is in a loop. -/
def fwdStep (st : Step σ) (i n : Nat) (o : Obj σ) : Except Fault (Obj σ × Bool) :=
  if st.wanted o.world then
    let r := st.act n o.world
    let o := { o with world := r.1 }
    if r.2 then
      if st.loop then
        { o with loops := Function.update o.loops i (o.loops i + 1) }.mark i (o.loops i)
      else o.mark i 0
    else .ok (o, false)
  else { o with skipped := bitsSet o.skipped i true }.mark i 0

def fwdLoop (st : Step σ) (i : Nat) : Nat → Nat → Obj σ → Except Fault (Obj σ × Bool)
  | _, 0, o => .ok (o, true)
  | n, left + 1, o => do
    let (o, ok) ← o.fwdStep st i n
    if ok then o.fwdLoop st i (n + 1) left else return (o, false)

/-- The steps up to `MTLK_INIT_FINALLY`. -/
def fwdSteps : Nat → List (Step σ) → Obj σ → Except Fault (Obj σ × Bool)
  | i, [], o => o.mark i 0
  | i, st :: l, o => do
    let (o, ok) ← o.fwdLoop st i 0 st.times
    if ok then o.fwdSteps (i + 1) l else return (o, false)

/-- `_MTLK_BWD_STEP` -/
def bwdStep (st : Step σ) (i n : Nat) (o : Obj σ) : Except Fault (Obj σ) :=
  let undone := !bitsGet o.skipped i && bitsGet o.main i
  let o := if undone then { o with world := st.undo n o.world } else o
  let left := if undone && st.loop then o.loops i - 1 else 0
  let o := if undone && st.loop then { o with loops := Function.update o.loops i left } else o
  if bitsGet o.main i && left == 0 then
    let o := { o with main := bitsSet o.main i false, skipped := bitsSet o.skipped i false }
    if o.main = bitsValue i then .ok o else .error .orderOfSteps
  else .ok o

/-- `MTLK_CLEANUP_STEP_LOOP` in its loop, for as many iterations as are left. -/
def bwdLoop (st : Step σ) (i : Nat) : Nat → Nat → Obj σ → Except Fault (Obj σ)
  | _, 0, o => if o.loops i = 0 then .ok o else .error .endless
  | n, fuel + 1, o =>
    if o.loops i = 0 then .ok o
    else do
      let o ← o.bwdStep st i n
      o.bwdLoop st i (n + 1) fuel

/-- The steps of a cleanup, the last one first. -/
def bwdSteps : Nat → List (Step σ) → Obj σ → Except Fault (Obj σ)
  | _, [], o => .ok o
  | i, st :: l, o => do
    let o ← o.bwdSteps (i + 1) l
    if st.loop then o.bwdLoop st i 0 (o.loops i).toNat else o.bwdStep st i 0

/-- `MTLK_CLEANUP_BEGIN` to `MTLK_CLEANUP_END` -/
def cleanup (l : List (Step σ)) (o : Obj σ) : Except Fault (Obj σ) :=
  if bitsGet o.main l.length then do
    let o ← { o with main := bitsSet o.main l.length false }.bwdSteps 0 l
    if o.main = 0 ∧ o.skipped = 0 then .ok o else .error .stepsMissed
  else .error .unexpectedCleanup

/-- `MTLK_INIT_TRY` to `MTLK_INIT_RETURN` -/
def init (l : List (Step σ)) (o : Obj σ) : Except Fault (Obj σ × Bool) := do
  let (o, ok) ← { o with main := 0, skipped := 0 }.fwdSteps 0 l
  let o := { o with main := bitsSet o.main l.length true }
  if ok then return (o, true) else return (← o.cleanup l, false)

end Obj

/-! ## The bit fields -/

theorem bitsGet_eq (bf : Field) (n : Nat) : bitsGet bf n = bf.getLsbD n := by
  have one : (bf >>> n) &&& 1#32 = if bf.getLsbD n then 1#32 else 0#32 := by
    apply BitVec.eq_of_getLsbD_eq
    intro i _
    rw [BitVec.getLsbD_and, BitVec.getLsbD_ushiftRight, BitVec.getLsbD_one]
    cases i with
    | zero => rw [Nat.add_zero]; cases bf.getLsbD n <;> rfl
    | succ i => cases bf.getLsbD n <;> simp
  rw [bitsGet, one]
  cases bf.getLsbD n <;> rfl

theorem bitsGet_set (bf : Field) {n : Nat} (lt : n < 32) (m : Nat) (val : Bool) :
    bitsGet (bitsSet bf n val) m = if m = n then val else bitsGet bf m := by
  rw [bitsGet_eq, bitsGet_eq, bitsSet, ← BitVec.twoPow_eq]
  cases val with
  | true =>
    rw [if_pos rfl, ← BitVec.twoPow_eq, BitVec.and_self, getLsbD_set _ lt, getLsbD_clear]
    by_cases same : n = m
    · simp [same]
    · simp [same, Ne.symm same]
  | false =>
    have nothing : (if false then 1#32 else 0#32) <<< n &&& BitVec.twoPow 32 n = 0#32 := by simp
    rw [nothing, BitVec.or_zero, getLsbD_clear]
    by_cases same : n = m
    · simp [same]
    · simp [same, Ne.symm same]

theorem field_ext {bf bf' : Field} (same : ∀ n < 32, bitsGet bf n = bitsGet bf' n) : bf = bf' := by
  apply BitVec.eq_of_getLsbD_eq
  intro n lt
  rw [← bitsGet_eq, ← bitsGet_eq, same n lt]

theorem bitsGet_zero (n : Nat) : bitsGet 0 n = false := by
  rw [bitsGet_eq]
  exact BitVec.getLsbD_zero

theorem bitsGet_value (n m : Fin 32) : bitsGet (bitsValue n) m = decide (m < n) := by
  revert n m
  decide +kernel

theorem bitsGet_below {n m : Nat} (lt : n < 32) (lt' : m < 32) :
    bitsGet (bitsValue n) m = decide (m < n) := bitsGet_value ⟨n, lt⟩ ⟨m, lt'⟩

theorem bitsSet_below {n : Nat} (lt : n + 1 < 32) :
    bitsSet (bitsValue n) n true = bitsValue (n + 1) := by
  apply field_ext
  intro m lt'
  rw [bitsGet_set _ (by omega), bitsGet_below (by omega) lt', bitsGet_below lt lt']
  split
  case isTrue same => simp [same]
  case isFalse other => simp only [decide_eq_decide]; omega

theorem bitsClear_below {n : Nat} (lt : n + 1 < 32) :
    bitsSet (bitsValue (n + 1)) n false = bitsValue n := by
  apply field_ext
  intro m lt'
  rw [bitsGet_set _ (by omega), bitsGet_below lt lt', bitsGet_below (by omega) lt']
  split
  case isTrue same => simp [same]
  case isFalse other => simp only [decide_eq_decide]; omega

end Wave300.Startup
