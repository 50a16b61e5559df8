import Wave300.L2nat.DhcpSound

/-!
# Headers of frames

`mtlk_l2nat_on_tx` and `mtlk_l2nat_on_rx` look behind VLAN tags and LLC headers for the packet in a
frame. The same loop is in both. It does not look at the length of the frame, and as it goes on
while there are headers, it may leave the frame: then nothing is found. Its grammar says what a
frame has before its packet.
-/

namespace Wave300.L2nat

open Wave300.Lib

/-- What a frame carries. -/
inductive Kind where
  | ip
  | arp
  | ipx
  | pae
  | other
  deriving DecidableEq, Repr

/-- `ETH_DATA_LEN` -/
abbrev ethDataLen : Nat := 1500

/-- The loop at `analyse`, with the type that comes next and where its data is. -/
def analyse : Nat → (Nat → UInt8) → Nat → Nat → Option (Kind × Nat)
  | 0, _, _, _ => none
  | fuel + 1, m, proto, offset =>
    if proto = 0x8100 then analyse fuel m (word m (offset + 2)) (offset + 4)
    else if proto = 0x0800 then some (.ip, offset)
    else if proto = 0x0806 then some (.arp, offset)
    else if proto = 0x8137 then some (.ipx, offset)
    else if proto = 0x888E then some (.pae, offset)
    else if proto ≤ ethDataLen then
      -- The field is a length. What comes then is IPX itself, or an LLC header, maybe with SNAP.
      if word m offset = 0xFFFF then analyse fuel m 0x8137 offset
      else if word m offset = 0xE0E0 then analyse fuel m 0x8137 (offset + 3)
      else if word m offset = 0xAAAA then analyse fuel m (word m (offset + 6)) (offset + 8)
      else some (.other, offset)
    else some (.other, offset)

/-! ## The grammar -/

/-- A length in the place of a type. -/
abbrev Length := Fin (ethDataLen + 1)

/-- A header before another type field. -/
inductive Tag where
  | vlan (tci : UInt16)
  | snap (length : Length) (control out1 : UInt8) (out2 : UInt16)

/-- The last header. -/
inductive Last where
  | type (proto : UInt16) (long : ethDataLen < proto.toNat) (untagged : proto.toNat ≠ 0x8100)
  | raw (length : Length)
  | novell (length : Length) (control : UInt8)
  | plain (length : Length)

def Tag.bytes : Tag → List UInt8
  | .vlan tci => toBytes 2 0x8100 ++ toBytes 2 tci.toNat
  | .snap length control out1 out2 =>
    toBytes 2 length ++ (toBytes 2 0xAAAA ++ ([control, out1] ++ toBytes 2 out2.toNat))

def Last.bytes : Last → List UInt8
  | .type proto _ _ => toBytes 2 proto.toNat
  | .raw length => toBytes 2 length
  | .novell length control => toBytes 2 length ++ (toBytes 2 0xE0E0 ++ [control])
  | .plain length => toBytes 2 length

/-- What a type stands for. -/
def kindOf (proto : Nat) : Kind :=
  if proto = 0x0800 then .ip
  else if proto = 0x0806 then .arp
  else if proto = 0x8137 then .ipx
  else if proto = 0x888E then .pae
  else .other

def Last.kind : Last → Kind
  | .type proto _ _ => kindOf proto.toNat
  | .raw _ | .novell .. => .ipx
  | .plain _ => .other

/-- What the data begins with. -/
def Last.Fits (m : Nat → UInt8) (offset : Nat) : Last → Prop
  | .raw _ => word m offset = 0xFFFF
  | .plain _ => word m offset ≠ 0xFFFF ∧ word m offset ≠ 0xE0E0 ∧ word m offset ≠ 0xAAAA
  | _ => True

def headers (tags : List Tag) (last : Last) : List UInt8 := tags.flatMap Tag.bytes ++ last.bytes

/-- The bytes are at an address. -/
def At (m : Nat → UInt8) (a : Nat) (bytes : List UInt8) : Prop := slice m a bytes.length = bytes

/-- The headers from an address on, and the data at another. -/
structure Layout (m : Nat → UInt8) (a : Nat) (tags : List Tag) (last : Last) (offset : Nat) :
    Prop where
  bytes : At m a (headers tags last)
  ends : offset = a + (headers tags last).length
  fits : last.Fits m offset

/-! ## Words -/

variable {m : Nat → UInt8} {a n offset fuel : Nat} {kind : Kind} {tag : Tag} {tags : List Tag}
  {last : Last}

theorem at_append {l r : List UInt8} : At m a (l ++ r) ↔ At m a l ∧ At m (a + l.length) r := by
  rw [At, At, At, List.length_append, slice_append]
  constructor
  · exact fun h => List.append_inj h (slice_length ..)
  · rintro ⟨hl, hr⟩
    rw [hl, hr]

theorem at_word (lt : n < 256 ^ 2) : At m a (toBytes 2 n) ↔ word m a = n := by
  rw [At, length_toBytes, word]
  constructor
  · intro h
    rw [h, ofBytes_toBytes, Nat.mod_eq_of_lt lt]
  · rintro rfl
    have back := toBytes_ofBytes (slice m a 2)
    rw [slice_length] at back
    exact back.symm

theorem at_length (length : Length) : At m a (toBytes 2 length) ↔ word m a = length :=
  at_word (lt_of_lt_of_le length.isLt (by decide))

theorem at_uint16 (x : UInt16) : At m a (toBytes 2 x.toNat) ↔ word m a = x.toNat :=
  at_word x.toNat_lt

theorem Tag.length_bytes (tag : Tag) : 4 ≤ tag.bytes.length := by
  cases tag <;> simp [Tag.bytes]

theorem Last.length_bytes (last : Last) : 2 ≤ last.bytes.length := by
  cases last <;> simp [Last.bytes]

/-- There are fewer headers than bytes. -/
theorem length_headers (tags : List Tag) (last : Last) :
    4 * tags.length + 2 ≤ (headers tags last).length := by
  induction tags with
  | nil => exact last.length_bytes
  | cons tag tags ih =>
    have := tag.length_bytes
    rw [headers, List.flatMap_cons, List.append_assoc, List.length_append, ← headers,
      List.length_cons]
    omega

/-! ## The loop -/

theorem analyse_vlan (fuel : Nat) (m : Nat → UInt8) (offset : Nat) :
    analyse (fuel + 1) m 0x8100 offset = analyse fuel m (word m (offset + 2)) (offset + 4) := by
  rw [analyse, if_pos rfl]

theorem analyse_type {proto : Nat} (long : ethDataLen < proto) (untagged : proto ≠ 0x8100)
    (fuel : Nat) (m : Nat → UInt8) (offset : Nat) :
    analyse (fuel + 1) m proto offset = some (kindOf proto, offset) := by
  rw [analyse, if_neg untagged, if_neg (not_le.2 long), kindOf]
  split
  · rfl
  split
  · rfl
  split
  · rfl
  split <;> rfl

theorem analyse_length {proto : Nat} (short : proto ≤ ethDataLen) (fuel : Nat) (m : Nat → UInt8)
    (offset : Nat) :
    analyse (fuel + 1) m proto offset =
      if word m offset = 0xFFFF then analyse fuel m 0x8137 offset
      else if word m offset = 0xE0E0 then analyse fuel m 0x8137 (offset + 3)
      else if word m offset = 0xAAAA then analyse fuel m (word m (offset + 6)) (offset + 8)
      else some (.other, offset) := by
  have others : proto ≠ 0x8100 ∧ proto ≠ 0x0800 ∧ proto ≠ 0x0806 ∧ proto ≠ 0x8137 ∧
      proto ≠ 0x888E := by
    refine ⟨?_, ?_, ?_, ?_, ?_⟩ <;> rintro rfl <;> exact absurd short (by decide)
  obtain ⟨vlan, ip, arp, ipx, pae⟩ := others
  rw [analyse, if_neg vlan, if_neg ip, if_neg arp, if_neg ipx, if_neg pae, if_pos short]

theorem analyse_ipx (fuel : Nat) (m : Nat → UInt8) (offset : Nat) :
    analyse (fuel + 1) m 0x8137 offset = some (.ipx, offset) :=
  analyse_type (by decide) (by decide) fuel m offset

theorem Layout.cons (here : At m a tag.bytes)
    (rest : Layout m (a + tag.bytes.length) tags last offset) :
    Layout m a (tag :: tags) last offset := by
  have all : headers (tag :: tags) last = tag.bytes ++ headers tags last := by
    rw [headers, List.flatMap_cons, List.append_assoc, headers]
  refine ⟨?_, ?_, rest.fits⟩
  · rw [all, at_append]
    exact ⟨here, rest.bytes⟩
  · rw [all, List.length_append, rest.ends, Nat.add_assoc]

theorem Layout.uncons (h : Layout m a (tag :: tags) last offset) :
    At m a tag.bytes ∧ Layout m (a + tag.bytes.length) tags last offset := by
  have all : headers (tag :: tags) last = tag.bytes ++ headers tags last := by
    rw [headers, List.flatMap_cons, List.append_assoc, headers]
  have bytes := h.bytes
  have ends := h.ends
  rw [all, at_append] at bytes
  rw [all, List.length_append, ← Nat.add_assoc] at ends
  exact ⟨bytes.1, bytes.2, ends, h.fits⟩

/-- What the loop finds comes after headers of the grammar. -/
theorem analyse_layout (found : analyse fuel m (word m a) (a + 2) = some (kind, offset)) :
    ∃ tags last, Layout m a tags last offset ∧ last.kind = kind := by
  induction fuel generalizing a with
  | zero => cases found
  | succ fuel ih =>
    by_cases vlan : word m a = 0x8100
    · rw [vlan, analyse_vlan] at found
      obtain ⟨tags, last, layout, same⟩ := ih (a := a + 4) found
      refine ⟨.vlan (UInt16.ofNat (word m (a + 2))) :: tags, last, .cons ?_ layout, same⟩
      rw [Tag.bytes, at_append, at_word (by decide), at_uint16, length_toBytes,
        UInt16.toNat_ofNat_of_lt' (word_lt m (a + 2))]
      exact ⟨vlan, rfl⟩
    by_cases short : word m a ≤ ethDataLen
    · rw [analyse_length short] at found
      have long : At m a (toBytes 2 (⟨word m a, Nat.lt_succ_of_le short⟩ : Length)) :=
        (at_length _).2 rfl
      split at found
      case isTrue raw =>
        cases fuel with
        | zero => cases found
        | succ fuel =>
          rw [analyse_ipx] at found
          cases found
          exact ⟨[], .raw ⟨_, Nat.lt_succ_of_le short⟩,
            ⟨long, by simp [headers, Last.bytes], raw⟩, rfl⟩
      split at found
      case isTrue novell =>
        cases fuel with
        | zero => cases found
        | succ fuel =>
          rw [analyse_ipx] at found
          cases found
          have bytes : At m a (Last.bytes (.novell ⟨_, Nat.lt_succ_of_le short⟩ (m (a + 4)))) :=
            at_append.2 ⟨long, at_append.2 ⟨(at_word (by decide)).2 novell, rfl⟩⟩
          exact ⟨[], .novell ⟨_, Nat.lt_succ_of_le short⟩ (m (a + 4)),
            ⟨bytes, by simp [headers, Last.bytes], trivial⟩, rfl⟩
      split at found
      case isTrue snap =>
        obtain ⟨tags, last, layout, same⟩ := ih (a := a + 8) found
        refine ⟨.snap ⟨_, Nat.lt_succ_of_le short⟩ (m (a + 4)) (m (a + 5))
          (UInt16.ofNat (word m (a + 6))) :: tags, last, .cons ?_ layout, same⟩
        exact at_append.2 ⟨long, at_append.2 ⟨(at_word (by decide)).2 snap, at_append.2 ⟨rfl,
          (at_uint16 _).2 (UInt16.toNat_ofNat_of_lt' (word_lt m (a + 6))).symm⟩⟩⟩
      case isFalse raw novell snap =>
        cases found
        exact ⟨[], .plain ⟨_, Nat.lt_succ_of_le short⟩, ⟨long, by simp [headers, Last.bytes],
          raw, novell, snap⟩, rfl⟩
    · rw [not_le] at short
      rw [analyse_type short vlan] at found
      cases found
      have own : (UInt16.ofNat (word m a)).toNat = word m a :=
        UInt16.toNat_ofNat_of_lt' (word_lt m a)
      refine ⟨[], .type (UInt16.ofNat (word m a)) (own.symm ▸ short) (own.symm ▸ vlan),
        ⟨?_, by simp [headers, Last.bytes], trivial⟩, by rw [Last.kind, own]⟩
      exact (at_uint16 _).2 own.symm

theorem Layout.offset_ge (h : Layout m a tags last offset) : a + 2 ≤ offset := by
  have := length_headers tags last
  have := h.ends
  omega

/-- The loop goes through headers of the grammar. -/
theorem Layout.analyse (h : Layout m a tags last offset) (room : tags.length + 2 ≤ fuel) :
    analyse fuel m (word m a) (a + 2) = some (last.kind, offset) := by
  induction tags generalizing a fuel with
  | nil =>
    obtain ⟨fuel, rfl⟩ := Nat.exists_eq_add_of_le' (show 2 ≤ fuel from room)
    obtain ⟨bytes, ends, fits⟩ := h
    change At m a last.bytes at bytes
    cases last with
    | type proto long untagged =>
      rw [Last.bytes, at_uint16] at bytes
      rw [bytes, analyse_type long untagged, ends]
      rfl
    | raw length =>
      rw [Last.bytes, at_length] at bytes
      change offset = a + 2 at ends
      subst ends
      have fits : word m (a + 2) = 0xFFFF := fits
      rw [bytes, analyse_length (Nat.le_of_lt_succ length.isLt), if_pos fits, analyse_ipx]
      rfl
    | novell length control =>
      rw [Last.bytes, at_append, at_length, at_append, at_word (by decide)] at bytes
      obtain ⟨first, second, _⟩ := bytes
      rw [length_toBytes] at second
      rw [first, analyse_length (Nat.le_of_lt_succ length.isLt), if_neg (by rw [second]; decide),
        if_pos second, analyse_ipx, ends]
      rfl
    | plain length =>
      rw [Last.bytes, at_length] at bytes
      change offset = a + 2 at ends
      subst ends
      obtain ⟨raw, novell, snap⟩ := fits
      rw [bytes, analyse_length (Nat.le_of_lt_succ length.isLt), if_neg raw, if_neg novell,
        if_neg snap]
      rfl
  | cons tag tags ih =>
    obtain ⟨here, rest⟩ := h.uncons
    rw [List.length_cons] at room
    obtain ⟨fuel, rfl⟩ := Nat.exists_eq_add_of_le' (show 1 ≤ fuel by omega)
    have later := ih rest (show tags.length + 2 ≤ fuel by omega)
    cases tag with
    | vlan tci =>
      obtain ⟨first, _⟩ := at_append.1 here
      rw [at_word (by decide)] at first
      rw [first, analyse_vlan]
      exact later
    | snap length control out1 out2 =>
      obtain ⟨first, second⟩ := at_append.1 here
      have second := (at_append.1 second).1
      rw [at_length] at first
      rw [length_toBytes, at_word (by decide)] at second
      rw [first, analyse_length (Nat.le_of_lt_succ length.isLt), if_neg (by rw [second]; decide),
        if_neg (by rw [second]; decide), if_pos second]
      exact later

/-- The loop over a frame finds a packet in it exactly when the headers before that packet are made
of VLAN tags and SNAP headers, any number of them in any order, and a last header, which says what
the packet is. -/
theorem analyse_iff (m : Nat → UInt8) (len : Nat) (kind : Kind) (offset : Nat)
    (inside : offset ≤ len) :
    analyse len m (word m 12) 14 = some (kind, offset) ↔
      ∃ tags last, Layout m 12 tags last offset ∧ last.kind = kind := by
  constructor
  · exact analyse_layout
  · rintro ⟨tags, last, layout, rfl⟩
    apply layout.analyse
    have := length_headers tags last
    have := layout.ends
    omega

/-- A frame with a VLAN tag and a SNAP header before an IP packet. -/
def taggedFrame : Nat → UInt8 :=
  store (fun _ => 0) 12 [0x81, 0, 0, 5, 0, 100, 0xAA, 0xAA, 3, 0, 0, 0, 8, 0]

theorem analyse_iff_taggedFrame :
    analyse 114 taggedFrame (word taggedFrame 12) 14 = some (.ip, 26) ↔
      ∃ tags last, Layout taggedFrame 12 tags last 26 ∧ last.kind = .ip :=
  analyse_iff taggedFrame 114 .ip 26 (by decide)

example : analyse 114 taggedFrame (word taggedFrame 12) 14 = some (.ip, 26) := by decide

end Wave300.L2nat
