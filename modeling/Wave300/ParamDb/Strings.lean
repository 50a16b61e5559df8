import Mathlib.Algebra.Order.Ring.Int
import Mathlib.Data.UInt
import Mathlib.Logic.Function.Basic
import Wave300.Lib.Memory
import Wave300.Lib.Strings
import Wave300.Lib.Trace

/-!
# String parameters

`mtlk_param_db.c` and the accessors of strings of `mtlk_param_db.h`. An allocation yields a block
with whatever the memory held, or fails. The accesses are those of `strncpy`, each with the room
there is for it.
-/

namespace Wave300.ParamDb

open Lib

inductive ParamType where
  | int
  | string
  | binary
  | mac
  deriving DecidableEq, Repr

/-- `PARAM_DB_VALUE_FLAG_UNINITIALIZED` -/
def flagUninitialized : Nat := 0x02

inductive Err where
  | ok
  | noMem
  | bufTooSmall
  deriving DecidableEq, Repr

/-- A string of C. -/
structure CString where
  chars : List UInt8
  clean : 0 ∉ chars
  deriving DecidableEq

/-- An allocated block. -/
structure Block where
  room : Nat
  bytes : Nat → UInt8

/-- What `mtlk_osal_mem_alloc` finds in memory, if it finds any. -/
abbrev Found := Option (Nat → UInt8)

def mtlkOsalMemAlloc (found : Found) (size : Nat) : Option Block := found.map (Block.mk size)

/-- How many bytes are read or written, of how many. -/
structure Access where
  count : Nat
  room : Nat
  deriving DecidableEq, Repr

def Access.Inside (a : Access) : Prop := a.count ≤ a.room

instance (a : Access) : Decidable a.Inside := inferInstanceAs (Decidable (_ ≤ _))

/-- The accesses of `strncpy` to `n` bytes, between memory with room for so much. -/
def strncpyAccesses (src : Nat → UInt8) (srcRoom dstRoom n : Nat) : List Access :=
  [⟨scanned src n 0, srcRoom⟩, ⟨n, dstRoom⟩]

/-- `mtlk_pdb_value_t`. The members of the union are apart; which one is meant, the type says. -/
structure Value where
  size : Nat
  flags : Nat
  type : ParamType
  valuePtr : Option Block
  valueInt : Nat

/-- `size - 1` in `uint32`. -/
def lessOne (size : Nat) : Nat := if size = 0 then 2 ^ 32 - 1 else size - 1

/-! ## The accessors -/

structure SetResult where
  handle : Value
  result : Err
  accesses : List Access

/-- The copy into the buffer of the parameter. -/
def setChars (handle : Value) (value : CString) : SetResult where
  handle := { handle with valuePtr := handle.valuePtr.map fun b =>
    { b with bytes := strncpy b.bytes (text value.chars) (lessOne handle.size) } }
  result := .ok
  accesses := strncpyAccesses (text value.chars) (value.chars.length + 1)
    (handle.valuePtr.elim 0 Block.room) (lessOne handle.size)

/-- `mtlk_pdb_fast_set_string`. The length is kept in an `int` and compared as `uint32`. -/
def mtlkPdbFastSetString (handle : Value) (value : CString) (found : Found) : SetResult :=
  let size := value.chars.length % 2 ^ 32
  if lessOne handle.size < size then
    match mtlkOsalMemAlloc found ((size + 1) % 2 ^ 32) with
    | none => ⟨handle, .noMem, []⟩
    | some temp =>
      setChars { handle with valuePtr := some temp, size := (size + 1) % 2 ^ 32 } value
  else setChars handle value

structure GetResult where
  result : Err
  size : Nat
  buffer : Nat → UInt8
  accesses : List Access

/-- `mtlk_pdb_fast_get_string`, into a buffer of `size` bytes. -/
def mtlkPdbFastGetString (handle : Value) (buffer : Nat → UInt8) (size : Nat) : GetResult :=
  if size < handle.size then ⟨.bufTooSmall, handle.size, buffer, []⟩
  else
    { result := .ok
      size := handle.size
      buffer := handle.valuePtr.elim buffer fun b => strncpy buffer b.bytes (lessOne handle.size)
      accesses := handle.valuePtr.elim [⟨lessOne handle.size, 0⟩] fun b =>
        strncpyAccesses b.bytes b.room size (lessOne handle.size) }

/-- The storage of `mtlk_pdb_t`, by the id of a parameter. -/
abbrev Pdb := Nat → Value

structure PdbResult where
  pdb : Pdb
  result : Err
  accesses : List Access

def mtlkPdbSetString (pdb : Pdb) (id : Nat) (value : CString) (found : Found) : PdbResult :=
  let r := mtlkPdbFastSetString (pdb id) value found
  ⟨Function.update pdb id r.handle, r.result, r.accesses⟩

def mtlkPdbGetString (pdb : Pdb) (id : Nat) (buffer : Nat → UInt8) (size : Nat) : GetResult :=
  mtlkPdbFastGetString (pdb id) buffer size

/-! ## Creation -/

/-- What the pointer of an initial value leads to, by its type. -/
inductive Initial where
  | int (n : Nat)
  | string (s : CString)
  | binary (bytes : List UInt8)
  | mac (bytes : List UInt8)

def Initial.type : Initial → ParamType
  | int _ => .int
  | string _ => .string
  | binary _ => .binary
  | mac _ => .mac

/-- `mtlk_pdb_initial_value`. The allocator asserts that the size is not zero. -/
structure InitialValue where
  id : Nat
  flag : Nat
  size : Nat
  value : Initial
  size_pos : 0 < size
  size_lt : size < 2 ^ 32

/-- A block with a copy of the first bytes of a binary value. -/
def copied (size : Nat) (bytes : List UInt8) (b : Block) : Block :=
  { b with bytes := store b.bytes 0 (bytes.take size) }

/-- One round of the loop of `_mtlk_pdb_init_values_set`. -/
def initValue (pdb : Pdb) (value : InitialValue) (found : Found) : PdbResult :=
  let param : Value := { pdb value.id with
    type := value.value.type, flags := value.flag, size := value.size }
  let block := mtlkOsalMemAlloc found value.size
  let allocated := if block.isSome then Err.ok else .noMem
  match value.value with
  | .int n => ⟨Function.update pdb value.id { param with valueInt := n }, .ok, []⟩
  | .string s =>
    let n := lessOne value.size
    let ptr := block.map fun b => { b with bytes := strncpy b.bytes (text s.chars) n }
    ⟨Function.update pdb value.id { param with valuePtr := ptr }, allocated,
      block.elim [] fun b => strncpyAccesses (text s.chars) (s.chars.length + 1) b.room n⟩
  | .binary bytes | .mac bytes =>
    let ptr := block.map (copied value.size bytes)
    ⟨Function.update pdb value.id { param with valuePtr := ptr }, allocated, []⟩

/-- `_mtlk_pdb_init_values_set`. Each value comes with what the allocation for it finds. -/
def initValuesSet (pdb : Pdb) : List (InitialValue × Found) → PdbResult
  | [] => ⟨pdb, .ok, []⟩
  | (value, found) :: rest =>
    let r := initValue pdb value found
    if r.result = .ok then
      let r' := initValuesSet r.pdb rest
      { r' with accesses := r.accesses ++ r'.accesses }
    else r

def destroyStoredParams (pdb : Pdb) : Pdb := fun id =>
  { pdb id with
    flags := flagUninitialized
    valuePtr := if (pdb id).type = .int then (pdb id).valuePtr else none }

/-- The loop of `_mtlk_pdb_fill_stored_params` over `_mtlk_pdb_init_param`. -/
def initParams (pdb : Pdb) : Pdb := fun id => { pdb id with flags := flagUninitialized }

/-- `_mtlk_pdb_fill_stored_params`, with the tables of all cards and those of the card at hand. -/
def fillStoredParams (pdb : Pdb) (initialValues hwValues : List (List (InitialValue × Found))) :
    PdbResult :=
  let r := initValuesSet (initParams pdb) initialValues.flatten
  let r :=
    if r.result = .ok then
      let r' := initValuesSet r.pdb hwValues.flatten
      { r' with accesses := r.accesses ++ r'.accesses }
    else r
  if r.result = .ok then r else { r with pdb := destroyStoredParams r.pdb }

/-- A `mtlk_pdb_t` after `memset`. The types start with one that no parameter has. -/
def Pdb.zeroed : Pdb := fun _ => ⟨0, 0, .int, none, 0⟩

structure Creation where
  pdb : Option Pdb
  accesses : List Access

/-- `mtlk_pdb_create` -/
def mtlkPdbCreate (initialValues hwValues : List (List (InitialValue × Found))) : Creation :=
  let r := fillStoredParams .zeroed initialValues hwValues
  ⟨if r.result = .ok then some r.pdb else none, r.accesses⟩

/-! ## Calls on a parameter -/

inductive Op where
  | set (id : Nat) (value : CString) (found : Found)
  | get (id : Nat) (buffer : Nat → UInt8) (size : Nat)

def Op.id : Op → Nat
  | set id _ _ | get id _ _ => id

def step (pdb : Pdb) : Op → Pdb
  | .set id value found => (mtlkPdbSetString pdb id value found).pdb
  | .get _ _ _ => pdb

/-- The accessors of strings assert this of the parameter. -/
def OnString (pdb : Pdb) (op : Op) : Prop :=
  (pdb op.id).flags &&& flagUninitialized = 0 ∧ (pdb op.id).type = .string

instance (pdb : Pdb) (op : Op) : Decidable (OnString pdb op) :=
  inferInstanceAs (Decidable (_ ∧ _))

/-- The call sets another parameter, or it fails. -/
def Spares (id : Nat) (pdb : Pdb) : Op → Prop
  | .set id' value found => id' = id → (mtlkPdbSetString pdb id' value found).result ≠ .ok
  | .get _ _ _ => True

def AllInside (accesses : List Access) : Prop := ∀ a ∈ accesses, a.Inside

instance (accesses : List Access) : Decidable (AllInside accesses) :=
  inferInstanceAs (Decidable (∀ a ∈ accesses, a.Inside))

/-- The parameter is got as `value`, into whatever buffer of the reported size or more. -/
def GetsBack (pdb : Pdb) (id : Nat) (value : CString) : Prop :=
  ∀ buffer size, (pdb id).size ≤ size →
    let r := mtlkPdbGetString pdb id buffer size
    r.result = .ok ∧ Terminated r.buffer value.chars ∧ AllInside r.accesses

/-- What has been set is got back until the parameter is set again, nothing is read or written
outside the block and the buffers, and a call that fails changes nothing. -/
def Right (pdb : Pdb) : Op → Prop
  | .set id value found =>
    let r := mtlkPdbSetString pdb id value found
    (r.result = .ok → ∀ later, Allowed step (Spares id) r.pdb later →
      GetsBack (later.foldl step r.pdb) id value) ∧
    (r.result ≠ .ok → r.pdb = pdb) ∧ AllInside r.accesses
  | .get id buffer size => AllInside (mtlkPdbGetString pdb id buffer size).accesses

/-- The block has a byte to spare after the string and its zero, or the string does not fit and
there is no memory for another block. A block that is read is not of size zero. -/
def Goes (pdb : Pdb) : Op → Prop
  | .set id value found =>
    value.chars.length + 1 < (pdb id).size ∨
      lessOne (pdb id).size < value.chars.length % 2 ^ 32 ∧ found = none
  | .get id _ _ => (pdb id).size ≠ 0

/-! ## Blocks as large as the size says -/

/-- Every string parameter has a block of its size. -/
def Wf (pdb : Pdb) : Prop := ∀ id, (pdb id).flags &&& flagUninitialized = 0 →
  (pdb id).type = .string → (pdb id).size < 2 ^ 32 ∧
    ∃ b, (pdb id).valuePtr = some b ∧ b.room = (pdb id).size

variable {pdb : Pdb} {id size : Nat} {value : CString} {found : Found} {handle : Value}

theorem lessOne_of_pos (pos : 0 < size) : lessOne size = size - 1 :=
  if_neg (Nat.ne_of_gt pos)

theorem lessOne_zero_pos : 0 < lessOne 0 := by decide

theorem lessOne_succ_mod (size : Nat) : lessOne ((size % 2 ^ 32 + 1) % 2 ^ 32) = size % 2 ^ 32 := by
  unfold lessOne
  split <;> omega

theorem allInside_strncpy {src : Nat → UInt8} {srcRoom dstRoom n : Nat} :
    AllInside (strncpyAccesses src srcRoom dstRoom n) ↔
      scanned src n 0 ≤ srcRoom ∧ n ≤ dstRoom := by
  simp [AllInside, strncpyAccesses, Access.Inside]

theorem text_read (s : CString) (n : Nat) : scanned (text s.chars) n 0 ≤ s.chars.length + 1 :=
  (text_terminated s.clean).scanned_le

/-- A parameter with its block. -/
structure Held (handle : Value) (b : Block) : Prop where
  ptr : handle.valuePtr = some b
  room : b.room = handle.size
  small : handle.size < 2 ^ 32

theorem Wf.held (wf : Wf pdb) {op : Op} (string : OnString pdb op) : ∃ b, Held (pdb op.id) b := by
  obtain ⟨small, b, ptr, room⟩ := wf op.id string.1 string.2
  exact ⟨b, ptr, room, small⟩

/-- The block after the copy of a string. -/
def Block.copy (b : Block) (value : CString) : Block :=
  { b with bytes := strncpy b.bytes (text value.chars) (lessOne b.room) }

theorem Held.setChars {b : Block} (held : Held handle b) (value : CString) :
    Held (setChars handle value).handle (b.copy value) := by
  have same : (ParamDb.setChars handle value).handle.size = handle.size := rfl
  constructor
  case ptr => simp only [ParamDb.setChars, held.ptr, Option.map_some, Block.copy, held.room]
  case room => rw [same, ← held.room, Block.copy]
  case small =>
    rw [same]
    exact held.small

theorem setChars_inside {b : Block} (held : Held handle b) :
    AllInside (setChars handle value).accesses ↔ handle.size ≠ 0 := by
  simp only [setChars, held.ptr, Option.elim_some, allInside_strncpy, text_read, true_and,
    held.room]
  have small := held.small
  unfold lessOne
  split <;> omega

theorem getString_of_le {b : Block} (held : Held handle b) (buffer : Nat → UInt8)
    (enough : handle.size ≤ size) : mtlkPdbFastGetString handle buffer size =
      ⟨.ok, handle.size, strncpy buffer b.bytes (lessOne handle.size),
        strncpyAccesses b.bytes b.room size (lessOne handle.size)⟩ := by
  simp only [mtlkPdbFastGetString, if_neg (Nat.not_lt.2 enough), held.ptr, Option.elim_some]

theorem getString_inside_iff {b : Block} (held : Held handle b) (buffer : Nat → UInt8) :
    AllInside (mtlkPdbFastGetString handle buffer size).accesses ↔ handle.size ≠ 0 := by
  by_cases short : size < handle.size
  · rw [mtlkPdbFastGetString, if_pos short]
    exact iff_of_true (by simp [AllInside]) (Nat.ne_zero_of_lt short)
  · have enough := Nat.le_of_not_lt short
    rw [getString_of_le held buffer enough, allInside_strncpy, held.room]
    constructor
    · rintro ⟨read, -⟩ zero
      have pos := lessOne_zero_pos
      rw [zero] at read
      generalize lessOne 0 = n at read pos
      exact Nat.not_lt_of_le read (scanned_pos pos)
    · intro some
      have copied := lessOne_of_pos (Nat.pos_of_ne_zero some)
      have read := scanned_le b.bytes (lessOne handle.size) 0
      omega

theorem setString_noMem (grows : lessOne handle.size < value.chars.length % 2 ^ 32) :
    mtlkPdbFastSetString handle value none = ⟨handle, .noMem, []⟩ := by
  simp only [mtlkPdbFastSetString, if_pos grows, mtlkOsalMemAlloc, Option.map_none]

theorem setString_grows (grows : lessOne handle.size < value.chars.length % 2 ^ 32)
    (bytes : Nat → UInt8) : mtlkPdbFastSetString handle value (some bytes) =
      let size := (value.chars.length % 2 ^ 32 + 1) % 2 ^ 32
      setChars { handle with valuePtr := some ⟨size, bytes⟩, size := size } value := by
  simp only [mtlkPdbFastSetString, if_pos grows, mtlkOsalMemAlloc, Option.map_some]

theorem setString_fits (fits : ¬ lessOne handle.size < value.chars.length % 2 ^ 32)
    (found : Found) : mtlkPdbFastSetString handle value found = setChars handle value := by
  simp only [mtlkPdbFastSetString, if_neg fits]

/-- Either there is no memory for a string that does not fit, or the string is copied: into the
block there is when it fits with a byte to spare, and else into one without. -/
theorem setString_cases {b : Block} (held : Held handle b) (value : CString) (found : Found) :
    (mtlkPdbFastSetString handle value found = ⟨handle, .noMem, []⟩ ∧
      lessOne handle.size < value.chars.length % 2 ^ 32 ∧ found = none) ∨
    ∃ handle' b', Held handle' b' ∧ mtlkPdbFastSetString handle value found =
      setChars handle' value ∧ handle'.flags = handle.flags ∧ handle'.type = handle.type ∧
      (value.chars.length + 1 < handle.size → handle'.size = handle.size) ∧
      (handle.size ≤ value.chars.length + 1 → handle'.size ≠ 0 →
        lessOne handle'.size ≤ value.chars.length) := by
  have small := held.small
  by_cases grows : lessOne handle.size < value.chars.length % 2 ^ 32
  · cases found with
    | none => exact .inl ⟨setString_noMem grows, grows, rfl⟩
    | some bytes =>
      refine .inr ⟨_, _, ⟨rfl, rfl, Nat.mod_lt _ (by decide)⟩, setString_grows grows bytes, rfl,
        rfl, ?_, ?_⟩
      · intro fits
        rw [lessOne_of_pos (by omega)] at grows
        omega
      · intro _ _
        rw [lessOne_succ_mod]
        exact Nat.mod_le _ _
  · refine .inr ⟨handle, b, held, setString_fits grows found, rfl, rfl, fun _ => rfl, ?_⟩
    intro long some
    rw [lessOne_of_pos (Nat.pos_of_ne_zero some)]
    omega

theorem setChars_result (handle : Value) (value : CString) :
    (setChars handle value).result = .ok := rfl

theorem setString_fails (failed : (mtlkPdbSetString pdb id value found).result ≠ .ok) :
    (mtlkPdbSetString pdb id value found).pdb = pdb := by
  rw [mtlkPdbSetString] at failed ⊢
  by_cases grows : lessOne (pdb id).size < value.chars.length % 2 ^ 32
  · cases found with
    | none =>
      rw [setString_noMem grows]
      exact Function.update_eq_self id pdb
    | some bytes =>
      rw [setString_grows grows] at failed
      exact absurd rfl failed
  · rw [setString_fits grows] at failed
    exact absurd rfl failed

/-! ## Getting back what was set -/

theorem getsBack {b : Block} (held : Held (pdb id) b) (chars : Terminated b.bytes value.chars)
    (spare : value.chars.length + 1 < (pdb id).size) : GetsBack pdb id value := by
  intro buffer size enough
  have copied := lessOne_of_pos (Nat.zero_lt_of_lt spare)
  have room := held.room
  rw [mtlkPdbGetString, getString_of_le held buffer enough]
  refine ⟨rfl, chars.strncpy (by omega), allInside_strncpy.2 ⟨?_, by omega⟩⟩
  exact chars.scanned_le.trans (by omega)

/-- The last byte of a full block is not copied, so that the zero is missing unless it happens to
be in the buffer. -/
theorem not_getsBack {b : Block} (held : Held (pdb id) b)
    (full : lessOne (pdb id).size ≤ value.chars.length) : ¬ GetsBack pdb id value := by
  intro back
  obtain ⟨-, chars, -⟩ := back (fun _ => 255) _ (Nat.le_refl _)
  rw [mtlkPdbGetString, getString_of_le held _ (Nat.le_refl _)] at chars
  have zero : strncpy (fun _ => 255) b.bytes (lessOne (pdb id).size) value.chars.length = 0 :=
    chars.zero
  rw [strncpy_beyond full] at zero
  exact absurd zero (by decide)

theorem spared {later : List Op} (spares : Allowed step (Spares id) pdb later) :
    (later.foldl step pdb) id = pdb id := by
  induction later generalizing pdb with
  | nil => rfl
  | cons op later ih =>
    have one : step pdb op id = pdb id := by
      cases op with
      | set id' value found =>
        by_cases same : id' = id
        · rw [step, setString_fails (spares.1 same)]
        · exact Function.update_of_ne (Ne.symm same) _ _
      | get id' buffer size => rfl
    exact (ih spares.2).trans one

theorem setString_right_iff {b : Block} (held : Held (pdb id) b) :
    Right pdb (.set id value found) ↔ Goes pdb (.set id value found) := by
  obtain ⟨failed, grows, none⟩ | ⟨handle', b', held', copied, -, -, stays, full⟩ :=
    setString_cases held value found
  · have same : mtlkPdbSetString pdb id value found = ⟨pdb, .noMem, []⟩ := by
      rw [mtlkPdbSetString, failed, Function.update_eq_self]
    refine iff_of_true ?_ (.inr ⟨grows, none⟩)
    rw [Right, same]
    exact ⟨by rintro ⟨⟩, fun _ => rfl, by simp [AllInside]⟩
  · let pdb' := Function.update pdb id (setChars handle' value).handle
    have here : pdb' id = (setChars handle' value).handle := Function.update_self _ _ _
    have size : (pdb' id).size = handle'.size := by rw [here, setChars]
    have block : Held (pdb' id) (b'.copy value) := here ▸ held'.setChars value
    have same : mtlkPdbSetString pdb id value found =
        ⟨pdb', .ok, (setChars handle' value).accesses⟩ := by
      rw [mtlkPdbSetString, copied, setChars_result]
    rw [Right, same]
    constructor
    · rintro ⟨back, -, inside⟩
      left
      by_contra long
      have some := (setChars_inside held').1 inside
      have last := full (Nat.le_of_not_lt long) some
      exact not_getsBack block (size ▸ last) (back rfl [] trivial)
    · rintro (spare | ⟨grows, rfl⟩)
      · have fits : value.chars.length + 1 < handle'.size := stays spare ▸ spare
        have room := lessOne_of_pos (Nat.zero_lt_of_lt fits)
        have chars : Terminated (b'.copy value).bytes value.chars := by
          apply (text_terminated value.clean).strncpy
          rw [held'.room]
          omega
        refine ⟨?_, fun failed => absurd rfl failed, (setChars_inside held').2 (by omega)⟩
        intro _ later spares
        have kept := spared spares
        exact getsBack (kept ▸ block) chars (by rw [kept, size]; exact fits)
      · rw [setString_noMem grows] at copied
        cases congrArg SetResult.result copied

/-! ## Runs -/

theorem Wf.step (wf : Wf pdb) {op : Op} (string : OnString pdb op) : Wf (step pdb op) := by
  cases op with
  | get id buffer size => exact wf
  | set id value found =>
    obtain ⟨b, held⟩ : ∃ b, Held (pdb id) b := wf.held string
    intro other
    by_cases here : other = id
    · subst other
      have same : ParamDb.step pdb (.set id value found) id =
          (mtlkPdbFastSetString (pdb id) value found).handle := Function.update_self _ _ _
      rw [same]
      obtain ⟨failed, -, -⟩ | ⟨handle', b', held', copied, -⟩ := setString_cases held value found
      · rw [failed]
        exact wf id
      · rw [copied]
        have block := held'.setChars value
        exact fun _ _ => ⟨block.small, _, block.ptr, block.room⟩
    · have same : ParamDb.step pdb (.set id value found) other = pdb other :=
        Function.update_of_ne here _ _
      rw [same]
      exact wf other

theorem initValue_of_ne {value : InitialValue} (other : id ≠ value.id) :
    (initValue pdb value found).pdb id = pdb id := by
  simp only [initValue]
  split <;> exact Function.update_of_ne other _ _

theorem Wf.initValue (wf : Wf pdb) (value : InitialValue)
    (ok : (initValue pdb value found).result = .ok) : Wf (initValue pdb value found).pdb := by
  intro other
  by_cases here : other = value.id
  · subst other
    obtain ⟨id, flag, size, initial, pos, lt⟩ := value
    cases initial with
    | int n =>
      simp only [ParamDb.initValue, Function.update_self]
      rintro - ⟨⟩
    | string s =>
      cases found with
      | none => cases ok
      | some bytes =>
        simp only [ParamDb.initValue, Function.update_self]
        exact fun _ _ => ⟨lt, _, rfl, rfl⟩
    | binary bytes | mac bytes =>
      simp only [ParamDb.initValue, Function.update_self]
      rintro - ⟨⟩
  · rw [initValue_of_ne here]
    exact wf other

theorem initValue_inside (pdb : Pdb) (value : InitialValue) (found : Found) :
    AllInside (initValue pdb value found).accesses := by
  obtain ⟨id, flag, size, initial, pos, lt⟩ := value
  cases initial with
  | int n => simp [initValue, AllInside]
  | string s =>
    cases found with
    | none => simp [initValue, AllInside, mtlkOsalMemAlloc]
    | some bytes =>
      simp only [initValue, mtlkOsalMemAlloc, Option.map_some, Option.elim_some]
      refine allInside_strncpy.2 ⟨text_read s _, ?_⟩
      rw [lessOne_of_pos pos]
      exact Nat.sub_le _ _
  | binary bytes | mac bytes => simp [initValue, AllInside]

theorem AllInside.append {l l' : List Access} (h : AllInside l) (h' : AllInside l') :
    AllInside (l ++ l') := by
  intro a mem
  rcases List.mem_append.1 mem with first | second
  · exact h a first
  · exact h' a second

theorem initValuesSet_inside (pdb : Pdb) (values : List (InitialValue × Found)) :
    AllInside (initValuesSet pdb values).accesses := by
  induction values generalizing pdb with
  | nil => simp [initValuesSet, AllInside]
  | cons v values ih =>
    have one := initValue_inside pdb v.1 v.2
    simp only [initValuesSet]
    split
    · exact one.append (ih _)
    · exact one

theorem Wf.initValuesSet (wf : Wf pdb) {values : List (InitialValue × Found)}
    (ok : (initValuesSet pdb values).result = .ok) : Wf (initValuesSet pdb values).pdb := by
  induction values generalizing pdb with
  | nil => exact wf
  | cons v values ih =>
    simp only [ParamDb.initValuesSet] at ok ⊢
    split at ok
    next one =>
      rw [if_pos one]
      exact ih (wf.initValue v.1 one) ok
    next failed => exact absurd ok failed

theorem initParams_wf (pdb : Pdb) : Wf (initParams pdb) := by
  intro id initialized
  have bad : flagUninitialized &&& flagUninitialized ≠ 0 := by decide
  exact absurd initialized bad

theorem fillStoredParams_inside (pdb : Pdb) (tables hw : List (List (InitialValue × Found))) :
    AllInside (fillStoredParams pdb tables hw).accesses := by
  have inside := initValuesSet_inside (initParams pdb) tables.flatten
  simp only [fillStoredParams]
  generalize initValuesSet (initParams pdb) tables.flatten = r at inside ⊢
  by_cases one : r.result = .ok
  · rw [if_pos one]
    split <;> exact inside.append (initValuesSet_inside _ _)
  · rw [if_neg one, if_neg one]
    exact inside

theorem fillStoredParams_wf {tables hw : List (List (InitialValue × Found))}
    (ok : (fillStoredParams pdb tables hw).result = .ok) :
    Wf (fillStoredParams pdb tables hw).pdb := by
  have wf (one : (initValuesSet (initParams pdb) tables.flatten).result = .ok) :=
    (initParams_wf pdb).initValuesSet one
  simp only [fillStoredParams] at ok ⊢
  generalize initValuesSet (initParams pdb) tables.flatten = r at ok wf ⊢
  by_cases one : r.result = .ok
  · rw [if_pos one] at ok ⊢
    by_cases two : (initValuesSet r.pdb hw.flatten).result = .ok
    · rw [if_pos two]
      exact (wf one).initValuesSet two
    · rw [if_neg two] at ok
      exact absurd ok two
  · rw [if_neg one, if_neg one] at ok
    exact absurd ok one

theorem mtlkPdbCreate_wf {tables hw : List (List (InitialValue × Found))}
    (created : (mtlkPdbCreate tables hw).pdb = some pdb) : Wf pdb := by
  simp only [mtlkPdbCreate] at created
  split at created
  next ok =>
    cases created
    exact fillStoredParams_wf ok
  next => cases created

/-- Initialization stays in the blocks. In every store that has then been reached by calls on string
parameters, a further call goes as it has to exactly when, if it sets a string, the block has a byte
to spare after the string and its zero, or there is no memory for the block it would need. -/
theorem string_parameter_iff {tables hw : List (List (InitialValue × Found))} {pdb₀ : Pdb}
    (created : (mtlkPdbCreate tables hw).pdb = some pdb₀) (run : Runs step OnString pdb₀ pdb)
    {op : Op} (string : OnString pdb op) :
    AllInside (mtlkPdbCreate tables hw).accesses ∧ (Right pdb op ↔ Goes pdb op) := by
  refine ⟨fillStoredParams_inside _ _ _, ?_⟩
  have wf : Wf pdb := run.invariant (mtlkPdbCreate_wf created) fun _ _ wf string => wf.step string
  cases op with
  | set id value found =>
    obtain ⟨b, held⟩ : ∃ b, Held (pdb id) b := wf.held string
    exact setString_right_iff held
  | get id buffer size =>
    obtain ⟨b, held⟩ : ∃ b, Held (pdb id) b := wf.held string
    exact getString_inside_iff held buffer

theorem essidSize_pos : 0 < 33 := by decide

/-- The store of a card with the one parameter that keeps the network name. -/
def essidTables : List (List (InitialValue × Found)) :=
  [[(⟨0, 0, 33, .string ⟨[], by decide⟩, essidSize_pos, by decide⟩, some fun _ => 0xA5)]]

def essidStore : Pdb := (fillStoredParams .zeroed essidTables []).pdb

/-- A name is set, another one is refused as there is no memory for it, then one makes the block
grow, and it is read. -/
def essidHistory : List Op :=
  [.set 0 ⟨[108, 97, 98], by decide⟩ none, .set 0 ⟨List.replicate 40 65, by decide⟩ none,
    .set 0 ⟨List.replicate 40 65, by decide⟩ (some fun _ => 0xA5), .get 0 (fun _ => 255) 41]

theorem string_parameter_grown :
    Right (essidHistory.foldl step essidStore) (.set 0 ⟨List.replicate 36 66, by decide⟩ none) := by
  have created : (mtlkPdbCreate essidTables []).pdb = some essidStore := rfl
  have run : Runs step OnString essidStore (essidHistory.foldl step essidStore) :=
    .of_allowed (by decide)
  exact (string_parameter_iff created run (by decide)).2.2 (.inl (by decide))

/-- A network name of 32 characters fills the block of 33 bytes. A buffer of 33 bytes that is not
zeroed gets the characters but no zero. -/
theorem full_string_unterminated : (mtlkPdbCreate essidTables []).pdb = some essidStore ∧
    ¬ Right essidStore (.set 0 ⟨List.replicate 32 65, by decide⟩ none) := by
  refine ⟨rfl, ?_⟩
  intro right
  obtain ⟨-, chars, -⟩ := right.1 rfl [] trivial (fun _ => 255) 33 (Nat.le_refl _)
  exact absurd chars.zero (by decide)

end Wave300.ParamDb
