import Mathlib.Tactic.IntervalCases
import Wave300.Frame.Elements
import Wave300.Lib.Endian
import Wave300.Lib.Memory

/-!
# Vendor-specific action frames

`mtlk_process_action_frame_vendor_specific` walks over the items of a frame and swaps their headers
in place. Addresses are counted from the start of the frame, and pointers wrap at the width of the
host. The addresses that are read or written are recorded.
-/

namespace Wave300.Frame

open Wave300.Lib

structure Host where
  order : Endian
  pointerBits : Nat
  wide : 32 ≤ pointerBits

namespace Host

variable (host : Host)

def add (a n : Nat) : Nat := (a + n) % 2 ^ host.pointerBits

/-- `WLAN_TO_HOST32`, which is `le32_to_cpu` -/
def wlanToHost32 (v : Nat) : Nat := host.order.turn 4 v .little

/-- The addresses of a field of four bytes. -/
def field (a : Nat) : List Nat := (List.range 4).map (host.add a)

def load32 (mem : Bytes) (a : Nat) : Nat := host.order.load ((host.field a).map mem)

def store32 (mem : Bytes) (a v : Nat) : Bytes :=
  ((host.field a).zip (host.order.bytes 4 v)).foldl (fun m x => Function.update m x.1 x.2) mem

end Host

/-- An item: the address of its header, and `u32DataSize`. -/
structure VsafItem where
  hdr : Nat
  size : Nat
  deriving DecidableEq

structure VsafState where
  mem : Bytes
  fbuf : Nat
  touched : List Nat
  items : List VsafItem

def IsMtlkOui (mem : Bytes) : Prop := mem 0 = 0x00 ∧ mem 1 = 0x09 ∧ mem 2 = 0x86

instance (mem : Bytes) : Decidable (IsMtlkOui mem) := inferInstanceAs (Decidable (_ ∧ _))

/-- The OUI is compared byte by byte, up to one that differs. One that differs is logged whole. -/
def ouiReads (mem : Bytes) : List Nat :=
  (if mem 0 ≠ 0x00 then [0] else if mem 1 ≠ 0x09 then [0, 1] else [0, 1, 2]) ++
    if IsMtlkOui mem then [] else [0, 1, 2]

/-- The fields of `vsaf_hdr`, which is behind the OUI. -/
abbrev u32Version : Nat := 3
abbrev u32DataSize : Nat := 7
abbrev u32NofItems : Nat := 11

/-- Where the items start. -/
abbrev firstItem : Nat := 15

variable (host : Host)

/-- A field is swapped in place, and read. -/
def VsafState.convert (s : VsafState) (a : Nat) : VsafState :=
  { s with
    mem := host.store32 s.mem a (host.wlanToHost32 (host.load32 s.mem a))
    touched := s.touched ++ host.field a }

/-- One turn of the loop over the items, or its end. -/
def itemStep (s : VsafState) : Option VsafState :=
  if host.load32 s.mem u32NofItems = 0 then none
  else
    let t := (s.convert host s.fbuf).convert host (host.add s.fbuf 4)
    let size := host.load32 t.mem s.fbuf
    let left := (host.load32 t.mem u32NofItems + (2 ^ 32 - 1)) % 2 ^ 32
    some
      { mem := host.store32 t.mem u32NofItems left
        fbuf := host.add (host.add s.fbuf 8) size
        touched := t.touched ++ host.field u32NofItems
        items := t.items ++ [⟨s.fbuf, size⟩] }

/-- The loop, when it ends within `fuel` turns. -/
def itemLoop : Nat → VsafState → Option VsafState
  | 0, _ => none
  | fuel + 1, s =>
    match itemStep host s with
    | none => some s
    | some t => itemLoop fuel t

/-- `mtlk_process_action_frame_vendor_specific`. The sizes are compared as unsigned numbers. -/
def processVendorSpecific (fuel : Nat) (mem : Bytes) (flen : Int32) : Option VsafState :=
  let s : VsafState := { mem := mem, fbuf := 0, touched := ouiReads mem, items := [] }
  if ¬IsMtlkOui mem then some s
  else
    let s := s.convert host u32DataSize
    if host.load32 s.mem u32DataSize ≠ (flen.toUInt32 - 15).toNat then some s
    else
      let s := s.convert host u32Version
      if host.load32 s.mem u32Version ≠ 1 then some s
      else itemLoop host fuel { s.convert host u32NofItems with fbuf := firstItem }

/-! ## Fields in memory -/

/-- A number of four bytes, the lowest byte first. -/
def le32 (mem : Bytes) (a : Nat) : Nat := Endian.little.load (slice mem a 4)

theorem le32_lt (mem : Bytes) (a : Nat) : le32 mem a < 2 ^ 32 := by
  have lt := Endian.little.load_lt (slice mem a 4)
  rwa [slice_length] at lt

variable {host} {mem : Bytes} {a v : Nat}

namespace Host

theorem field_eq (within : a + 4 ≤ 2 ^ 32) : host.field a = (List.range 4).map (a + ·) := by
  have wide : 2 ^ 32 ≤ 2 ^ host.pointerBits := Nat.pow_le_pow_right (by decide) host.wide
  apply List.map_congr_left
  intro i mem
  have lt := List.mem_range.1 mem
  exact Nat.mod_eq_of_lt (by omega)

theorem load32_eq (within : a + 4 ≤ 2 ^ 32) :
    host.load32 mem a = host.order.load (slice mem a 4) := by
  rw [load32, field_eq within, List.map_map]
  rfl

theorem store32_eq (within : a + 4 ≤ 2 ^ 32) :
    host.store32 mem a v = store mem a (host.order.bytes 4 v) := by
  rw [store32, field_eq within]
  match four : host.order.bytes 4 v, host.order.length_bytes 4 v with
  | [b₀, b₁, b₂, b₃], _ =>
    funext j
    by_cases inside : a ≤ j ∧ j < a + 4
    · obtain ⟨i, rfl⟩ := Nat.exists_eq_add_of_le inside.1
      have lt : i < 4 := by omega
      interval_cases i <;> simp [store, List.range_succ, Function.update]
    · have here : j ≠ a := by omega
      have after (i : Nat) (lt : i < 4) : j ≠ a + i := by omega
      rw [store_outside (by simp only [List.length_cons, List.length_nil]; omega)]
      simp [List.range_succ, Function.update, here, after 1, after 2, after 3]

/-- What is read of a field on the air, whatever the host. -/
theorem wlanToHost32_load32 (within : a + 4 ≤ 2 ^ 32) :
    host.wlanToHost32 (host.load32 mem a) = le32 mem a := by
  have turned := host.order.turn_load (slice mem a 4) .little
  rw [slice_length] at turned
  rw [load32_eq within, wlanToHost32, turned, le32]

/-- What was stored is read. -/
theorem load32_store32 (within : a + 4 ≤ 2 ^ 32) (lt : v < 2 ^ 32) :
    host.load32 (host.store32 mem a v) a = v := by
  rw [load32_eq within, store32_eq within, slice_store (host.order.length_bytes 4 v),
    host.order.load_bytes]
  exact Nat.mod_eq_of_lt lt

/-- A field that is stored leaves the rest alone. -/
theorem store32_apart {j : Nat} (within : a + 4 ≤ 2 ^ 32) (apart : j < a ∨ a + 4 ≤ j) :
    host.store32 mem a v j = mem j := by
  rw [store32_eq within]
  apply store_outside
  rwa [Endian.length_bytes]

theorem load32_congr {mem' : Bytes} (within : a + 4 ≤ 2 ^ 32)
    (same : ∀ j, a ≤ j → j < a + 4 → mem' j = mem j) :
    host.load32 mem' a = host.load32 mem a := by
  rw [load32_eq within, load32_eq within, slice_congr same]

end Host

/-! ## The walk -/

/-- The items that `n` headers tell of are in the frame, one after the other. -/
def ItemsFit (mem : Bytes) (len : Nat) : Nat → Nat → Prop
  | 0, _ => True
  | n + 1, pos => pos + 8 + le32 mem pos ≤ len ∧ ItemsFit mem len n (pos + 8 + le32 mem pos)

/-- What is read or written is in the frame, and so are the items that were processed. -/
structure Contained (len : Nat) (r : VsafState) : Prop where
  touched : ∀ a ∈ r.touched, a < len
  items : ∀ x ∈ r.items, x.hdr + 8 + x.size ≤ len
  hold : (r.items.map fun x => 8 + x.size).sum ≤ len

variable (host) in
/-- The loop is at `pos`, and `n` items are left. -/
structure Walking (mem : Bytes) (len pos n : Nat) (s : VsafState) : Prop where
  fbuf : s.fbuf = pos
  behind : firstItem ≤ pos
  within : pos ≤ len
  left : host.load32 s.mem u32NofItems = n
  small : n < 2 ^ 32
  same : ∀ j, pos ≤ j → s.mem j = mem j

theorem VsafState.convert_load {s : VsafState} (within : a + 4 ≤ 2 ^ 32) :
    host.load32 (s.convert host a).mem a = le32 s.mem a := by
  rw [convert, Host.wlanToHost32_load32 within, Host.load32_store32 within (le32_lt ..)]

theorem VsafState.convert_apart {s : VsafState} {j : Nat} (within : a + 4 ≤ 2 ^ 32)
    (apart : j < a ∨ a + 4 ≤ j) : (s.convert host a).mem j = s.mem j :=
  Host.store32_apart within apart

theorem le32_congr {mem' : Bytes} (same : ∀ j, a ≤ j → j < a + 4 → mem' j = mem j) :
    le32 mem' a = le32 mem a := by
  rw [le32, slice_congr same, le32]

variable {len pos n : Nat} {s t : VsafState}

/-- A turn processes the item at `pos`. -/
theorem Walking.step (h : Walking host mem len pos (n + 1) s) (small : len < 2 ^ 31) :
    ∃ t, itemStep host s = some t ∧ t.items = s.items ++ [⟨pos, le32 mem pos⟩] ∧
      t.touched = s.touched ++ host.field pos ++ host.field (pos + 4) ++ host.field u32NofItems ∧
      (pos + 8 + le32 mem pos ≤ len →
        Walking host mem len (pos + 8 + le32 mem pos) n t) := by
  obtain ⟨rfl, behind, within, left, nofItems, same⟩ := h
  have first : firstItem = 15 := rfl
  have nof : u32NofItems = 11 := rfl
  have wide : 2 ^ 32 ≤ 2 ^ host.pointerBits := Nat.pow_le_pow_right (by decide) host.wide
  have id : host.add s.fbuf 4 = s.fbuf + 4 := Nat.mod_eq_of_lt (by omega)
  have data : host.add s.fbuf 8 = s.fbuf + 8 := Nat.mod_eq_of_lt (by omega)
  have apart (j : Nat) (out : j < s.fbuf ∨ s.fbuf + 8 ≤ j) :
      ((s.convert host s.fbuf).convert host (s.fbuf + 4)).mem j = s.mem j := by
    rw [VsafState.convert_apart (by omega) (by omega),
      VsafState.convert_apart (by omega) (by omega)]
  have size : host.load32 ((s.convert host s.fbuf).convert host (s.fbuf + 4)).mem s.fbuf =
      le32 mem s.fbuf := by
    rw [Host.load32_congr (by omega) fun j _ _ => VsafState.convert_apart (by omega) (by omega),
      VsafState.convert_load (by omega), le32_congr fun j le _ => same j le]
  have count : host.load32 ((s.convert host s.fbuf).convert host (s.fbuf + 4)).mem u32NofItems =
      n + 1 := by
    rw [← left]
    exact Host.load32_congr (by decide) fun j _ lt => apart j (by omega)
  have fewer : (n + 1 + (2 ^ 32 - 1)) % 2 ^ 32 = n := by omega
  rw [itemStep, if_neg (by omega), id]
  dsimp only
  rw [size, count, data, fewer]
  refine ⟨_, rfl, rfl, rfl, ?_⟩
  intro fits
  constructor
  case fbuf => exact Nat.mod_eq_of_lt (by omega)
  case behind => omega
  case within => exact fits
  case left => exact Host.load32_store32 (by decide) (by omega)
  case small => omega
  case same =>
    intro j le
    exact (Host.store32_apart (by decide) (by omega)).trans
      ((apart j (by omega)).trans (same j (by omega)))

theorem itemStep_items (step : itemStep host s = some t) :
    s.items <+: t.items ∧ s.touched <+: t.touched := by
  rw [itemStep] at step
  split at step
  case isTrue => cases step
  case isFalse =>
    cases step
    constructor
    · exact List.prefix_append ..
    · simp only [VsafState.convert, List.append_assoc]
      exact List.prefix_append ..

theorem itemLoop_items {fuel : Nat} (loop : itemLoop host fuel s = some t) :
    s.items <+: t.items ∧ s.touched <+: t.touched := by
  induction fuel generalizing s with
  | zero => cases loop
  | succ fuel ih =>
    rw [itemLoop] at loop
    cases step : itemStep host s with
    | none =>
      rw [step] at loop
      cases loop
      exact ⟨List.prefix_refl _, List.prefix_refl _⟩
    | some u =>
      rw [step] at loop
      obtain ⟨items, touched⟩ := itemStep_items step
      obtain ⟨items', touched'⟩ := ih loop
      exact ⟨items.trans items', touched.trans touched'⟩

/-- Items that were processed within the frame fit. -/
theorem Walking.fits (h : Walking host mem len pos n s) (small : len < 2 ^ 31)
    {fuel : Nat} (loop : itemLoop host fuel s = some t)
    (items : ∀ x ∈ t.items, x.hdr + 8 + x.size ≤ len) : ItemsFit mem len n pos := by
  induction n generalizing pos s fuel with
  | zero => trivial
  | succ n ih =>
    obtain ⟨u, step, item, -, next⟩ := h.step small
    cases fuel with
    | zero => cases loop
    | succ fuel =>
      rw [itemLoop, step] at loop
      have later := (itemLoop_items loop).1
      rw [item] at later
      have fits := items ⟨pos, le32 mem pos⟩ (later.subset (by simp))
      exact ⟨fits, ih (next fits) loop⟩

/-- Items that fit are processed within the frame. -/
theorem Walking.contained (h : Walking host mem len pos n s) (small : len < 2 ^ 31)
    (fit : ItemsFit mem len n pos) (so : Contained len s)
    (passed : (s.items.map fun x => 8 + x.size).sum + firstItem ≤ pos) :
    ∃ fuel t, itemLoop host fuel s = some t ∧ Contained len t := by
  induction n generalizing pos s with
  | zero =>
    have ends : itemStep host s = none := if_pos h.left
    exact ⟨1, s, by rw [itemLoop, ends], so⟩
  | succ n ih =>
    obtain ⟨u, step, item, touched, next⟩ := h.step small
    obtain ⟨fits, later⟩ := fit
    have first : firstItem = 15 := rfl
    have nof : u32NofItems = 11 := rfl
    have behind := h.behind
    have sum : (u.items.map fun x => 8 + x.size).sum + firstItem ≤ pos + 8 + le32 mem pos := by
      rw [item, List.map_append, List.sum_append, List.map_singleton, List.sum_singleton]
      dsimp only
      omega
    have contained : Contained len u := by
      constructor
      case touched =>
        rw [touched, Host.field_eq (by omega), Host.field_eq (by omega), Host.field_eq (by decide)]
        simp only [List.mem_append, List.mem_map, List.mem_range]
        rintro a (((mem | ⟨i, lt, rfl⟩) | ⟨i, lt, rfl⟩) | ⟨i, lt, rfl⟩)
        · exact so.touched a mem
        all_goals omega
      case items =>
        rw [item, List.forall_mem_append, List.forall_mem_singleton]
        exact ⟨so.items, fits⟩
      case hold => omega
    obtain ⟨fuel, t, loop, so'⟩ := ih (next fits) later contained sum
    exact ⟨fuel + 1, t, by rw [itemLoop, step]; exact loop, so'⟩

/-! ## The whole frame -/

/-- The OUI is in the frame. If it is the one that is looked for, the sizes of the payload are, and
the frame has another size or version than it says, or it holds the header of the payload and the
items that it tells of. -/
def VsafWithin (mem : Bytes) (len : Nat) : Prop :=
  if IsMtlkOui mem then
    u32DataSize + 4 ≤ len ∧
      ((le32 mem u32DataSize + firstItem) % 2 ^ 32 ≠ len ∨ le32 mem u32Version ≠ 1 ∨
        firstItem ≤ len ∧ ItemsFit mem len (le32 mem u32NofItems) firstItem)
  else 3 ≤ len

/-- Whatever the OUI is, all of it is read. -/
theorem ouiReads_lt (mem : Bytes) (len : Nat) : (∀ a ∈ ouiReads mem, a < len) ↔ 3 ≤ len := by
  constructor
  · intro below
    apply below 2
    by_cases ours : IsMtlkOui mem
    · simp [ouiReads, ours.1, ours.2.1]
    · simp [ouiReads, ours]
  · intro within a here
    have le : a ≤ 2 := by
      unfold ouiReads at here
      split_ifs at here <;> simp at here <;> omega
    omega

theorem field_lt (within : a + 4 ≤ 2 ^ 32) : (∀ x ∈ host.field a, x < len) ↔ a + 4 ≤ len := by
  rw [Host.field_eq within]
  simp only [List.forall_mem_map, List.mem_range]
  constructor
  · intro below
    have := below 3 (by decide)
    omega
  · intro le i lt
    omega

/-- The size of the frame, as it is compared with what the frame says. -/
theorem left_eq_iff {flen : Int32} (nonempty : 0 < flen.toInt.toNat) {size : Nat}
    (small : size < 2 ^ 32) :
    size = (flen.toUInt32 - 15).toNat ↔ (size + firstItem) % 2 ^ 32 = flen.toInt.toNat := by
  have unsigned : flen.toUInt32.toNat = flen.toInt.toNat := by
    have signed : flen.toInt = flen.toBitVec.toInt := rfl
    have bits : flen.toUInt32.toNat = flen.toBitVec.toNat := rfl
    rw [signed, BitVec.toInt_eq_toNat_cond] at nonempty ⊢
    rw [bits]
    split
    case isTrue => rw [Int.toNat_natCast]
    case isFalse negative =>
      rw [if_neg negative] at nonempty
      have lt := flen.toBitVec.isLt
      omega
  have header : (15 : UInt32).toNat = 15 := rfl
  have first : firstItem = 15 := rfl
  have lt := flen.toUInt32.toNat_lt
  rw [UInt32.toNat_sub, header, unsigned]
  omega

/-- The frame with the header of its payload, up to a field, in the order of the host. -/
def opened (mem : Bytes) : VsafState :=
  { mem := mem, fbuf := 0, touched := ouiReads mem, items := [] }

def sized (host : Host) (mem : Bytes) : VsafState := (opened mem).convert host u32DataSize

def versioned (host : Host) (mem : Bytes) : VsafState := (sized host mem).convert host u32Version

def counted (host : Host) (mem : Bytes) : VsafState :=
  { (versioned host mem).convert host u32NofItems with fbuf := firstItem }

theorem processVendorSpecific_eq (host : Host) (fuel : Nat) (mem : Bytes) (flen : Int32) :
    processVendorSpecific host fuel mem flen =
      if ¬IsMtlkOui mem then some (opened mem)
      else if le32 mem u32DataSize ≠ (flen.toUInt32 - 15).toNat then some (sized host mem)
      else if le32 mem u32Version ≠ 1 then some (versioned host mem)
      else itemLoop host fuel (counted host mem) := by
  have size : host.load32 (sized host mem).mem u32DataSize = le32 mem u32DataSize :=
    VsafState.convert_load (by decide)
  have version : host.load32 (versioned host mem).mem u32Version = le32 mem u32Version := by
    rw [versioned, VsafState.convert_load (by decide)]
    exact le32_congr fun j _ lt => VsafState.convert_apart (by decide) (.inl lt)
  rw [← size, ← version]
  rfl

theorem counted_walking (host : Host) (mem : Bytes) (within : firstItem ≤ len) :
    Walking host mem len firstItem (le32 mem u32NofItems) (counted host mem) := by
  have same (j : Nat) (le : u32NofItems ≤ j) : (versioned host mem).mem j = mem j := by
    have version : u32Version + 4 = 7 := rfl
    have size : u32DataSize + 4 = 11 := rfl
    have nof : u32NofItems = 11 := rfl
    rw [versioned, VsafState.convert_apart (by decide) (by omega), sized,
      VsafState.convert_apart (by decide) (by omega), opened]
  constructor
  case fbuf => rfl
  case behind => exact Nat.le_refl _
  case within => exact within
  case left => exact (VsafState.convert_load (by decide)).trans (le32_congr fun j le _ => same j le)
  case small => exact le32_lt ..
  case same =>
    intro j le
    have nof : u32NofItems + 4 = firstItem := rfl
    have kept : (counted host mem).mem j = (versioned host mem).mem j :=
      VsafState.convert_apart (by decide) (by omega)
    exact kept.trans (same j (by omega))

theorem counted_touched (host : Host) (mem : Bytes) : (counted host mem).touched =
    ouiReads mem ++ host.field u32DataSize ++ host.field u32Version ++ host.field u32NofItems := rfl

/-- A frame whose OUI is another one. -/
theorem contained_of_other (mem : Bytes) (len : Nat) : Contained len (opened mem) ↔ 3 ≤ len := by
  rw [← ouiReads_lt]
  exact ⟨Contained.touched, fun touched => ⟨touched, nofun, Nat.zero_le _⟩⟩

/-- A frame of whose payload fields were read, but no item. -/
theorem contained_of_fields {r : VsafState} {fields : List Nat} (nothing : r.items = [])
    (touched : r.touched = ouiReads mem ++ fields) (below : ∀ a ∈ fields, a < len)
    (within : 3 ≤ len) : Contained len r := by
  constructor
  case touched =>
    have first := (ouiReads_lt mem len).2 within
    rw [touched]
    exact List.forall_mem_append.2 ⟨first, below⟩
  case items =>
    rw [nothing]
    exact nofun
  case hold =>
    rw [nothing]
    exact Nat.zero_le _

theorem sized_contained (host : Host) (mem : Bytes) (within : u32DataSize + 4 ≤ len) :
    Contained len (sized host mem) := by
  have size : u32DataSize + 4 = 11 := rfl
  exact contained_of_fields rfl rfl ((field_lt (by decide)).2 within) (by omega)

theorem versioned_contained (host : Host) (mem : Bytes) (within : u32DataSize + 4 ≤ len) :
    Contained len (versioned host mem) := by
  have size : u32DataSize + 4 = 11 := rfl
  have version : u32Version + 4 = 7 := rfl
  apply contained_of_fields rfl (List.append_assoc ..) _ (by omega)
  exact List.forall_mem_append.2
    ⟨(field_lt (by decide)).2 within, (field_lt (by decide)).2 (by omega)⟩

theorem counted_contained (host : Host) (mem : Bytes) (within : firstItem ≤ len) :
    Contained len (counted host mem) := by
  have first : firstItem = 15 := rfl
  have size : u32DataSize + 4 = 11 := rfl
  have version : u32Version + 4 = 7 := rfl
  have nof : u32NofItems + 4 = 15 := rfl
  have touched : (counted host mem).touched = ouiReads mem ++
      (host.field u32DataSize ++ (host.field u32Version ++ host.field u32NofItems)) := by
    rw [counted_touched, List.append_assoc, List.append_assoc]
  apply contained_of_fields rfl touched _ (by omega)
  simp only [List.forall_mem_append]
  exact ⟨(field_lt (by decide)).2 (by omega), (field_lt (by decide)).2 (by omega),
    (field_lt (by decide)).2 (by omega)⟩

theorem sized_first {fuel : Nat} {flen : Int32} {r : VsafState} (ours : IsMtlkOui mem)
    (run : processVendorSpecific host fuel mem flen = some r) :
    (sized host mem).touched <+: r.touched := by
  rw [processVendorSpecific_eq, if_neg (not_not.2 ours)] at run
  split at run
  · cases run
    exact List.prefix_refl _
  · split at run
    · cases run
      exact List.prefix_append ..
    · refine List.IsPrefix.trans ?_ (itemLoop_items run).2
      rw [counted_touched, List.append_assoc]
      exact List.prefix_append ..

/-- The whole frame is processed within it, in finitely many steps, just when it is well formed as
far as it is looked at. -/
theorem vsaf_contained_iff (host : Host) (mem : Bytes) (flen : Int32) :
    (∃ fuel r, processVendorSpecific host fuel mem flen = some r ∧
      Contained flen.toInt.toNat r) ↔ VsafWithin mem flen.toInt.toNat := by
  have small : flen.toInt.toNat < 2 ^ 31 := by
    have := flen.toInt_lt
    omega
  rw [VsafWithin]
  by_cases ours : IsMtlkOui mem
  case neg =>
    rw [if_neg ours, ← contained_of_other]
    simp only [processVendorSpecific_eq, if_pos ours]
    constructor
    · rintro ⟨-, _, ⟨⟩, contained⟩
      exact contained
    · intro contained
      exact ⟨0, _, rfl, contained⟩
  rw [if_pos ours]
  have compared (within : u32DataSize + 4 ≤ flen.toInt.toNat) :
      le32 mem u32DataSize = (flen.toUInt32 - 15).toNat ↔
        (le32 mem u32DataSize + firstItem) % 2 ^ 32 = flen.toInt.toNat :=
    left_eq_iff (by omega) (le32_lt ..)
  constructor
  · rintro ⟨fuel, r, run, contained⟩
    have touched := (sized_first ours run).subset
    have within : u32DataSize + 4 ≤ flen.toInt.toNat :=
      (field_lt (by decide)).1 fun a here =>
        contained.touched a (touched (List.mem_append_right _ here))
    refine ⟨within, ?_⟩
    rw [processVendorSpecific_eq, if_neg (not_not.2 ours)] at run
    by_cases size : le32 mem u32DataSize = (flen.toUInt32 - 15).toNat
    case neg => exact .inl (mt (compared within).2 size)
    by_cases version : le32 mem u32Version = 1
    case neg => exact .inr (.inl version)
    rw [if_neg (not_not.2 size), if_neg (not_not.2 version)] at run
    have later := (itemLoop_items run).2.subset
    have header : firstItem ≤ flen.toInt.toNat :=
      (field_lt (by decide)).1 fun a here =>
        contained.touched a (later (List.mem_append_right _ here))
    exact .inr (.inr ⟨header, (counted_walking host mem header).fits small run contained.items⟩)
  · rintro ⟨within, formed⟩
    simp only [processVendorSpecific_eq, if_neg (not_not.2 ours)]
    by_cases size : le32 mem u32DataSize = (flen.toUInt32 - 15).toNat
    case neg =>
      simp only [if_pos size]
      exact ⟨0, _, rfl, sized_contained host mem within⟩
    by_cases version : le32 mem u32Version = 1
    case neg =>
      simp only [if_neg (not_not.2 size), if_pos version]
      exact ⟨0, _, rfl, versioned_contained host mem within⟩
    simp only [if_neg (not_not.2 size), if_neg (not_not.2 version)]
    rcases formed with other | other | ⟨header, fit⟩
    · exact absurd ((compared within).1 size) other
    · exact absurd version other
    · exact (counted_walking host mem header).contained small fit
        (counted_contained host mem header) (Nat.le_of_eq (Nat.zero_add _))

/-- A payload without data that tells of an item. -/
def lonelyHeader : Bytes := fun i =>
  [0x00, 0x09, 0x86, 1, 0, 0, 0, 0, 0, 0, 0, 1, 0, 0, 0].getD i 0

/-- The header of the item is read and written behind the frame. -/
theorem item_behind_frame : ¬∃ fuel r,
    processVendorSpecific ⟨.big, 32, Nat.le_refl _⟩ fuel lonelyHeader 15 = some r ∧
      Contained 15 r := by
  rintro ⟨fuel, r, run, contained⟩
  have one : le32 lonelyHeader u32NofItems = 1 := by decide
  have walking := counted_walking ⟨.big, 32, Nat.le_refl _⟩ lonelyHeader (Nat.le_refl firstItem)
  rw [processVendorSpecific_eq, if_neg (by decide), if_neg (by decide), if_neg (by decide)] at run
  have fit := walking.fits (by decide) run contained.items
  rw [one] at fit
  exact absurd fit.1 (by decide)

end Wave300.Frame
