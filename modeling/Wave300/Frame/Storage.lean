import Wave300.Frame.Handlers
import Wave300.Lib.Tlv

/-!
# What is stored of the information elements

The elements that are not empty are stored one after another, as many as there is room for, and the
offsets of the last RSN, WPA and WPS elements are kept. The WPA and WPS elements are told by the
first four bytes of their data, which are read even when the element is shorter.
-/

namespace Wave300.Frame

open Wave300.Lib

/-! ## Elements in memory -/

def window (mem : Bytes) (pos n : Nat) : List UInt8 := (List.range n).map fun i => mem (pos + i)

@[simp] theorem length_window (mem : Bytes) (pos n : Nat) : (window mem pos n).length = n := by
  simp [window]

theorem window_add (mem : Bytes) (pos a b : Nat) :
    window mem pos (a + b) = window mem pos a ++ window mem (pos + a) b := by
  simp only [window, List.range_add, List.map_append, List.map_map, Nat.add_assoc]
  rfl

theorem window_congr {mem mem' : Bytes} {pos n : Nat}
    (same : ∀ i, pos ≤ i → i < pos + n → mem i = mem' i) :
    window mem pos n = window mem' pos n := by
  apply List.map_congr_left
  intro i lt
  rw [List.mem_range] at lt
  exact same (pos + i) (Nat.le_add_right _ _) (Nat.add_lt_add_left lt pos)

theorem window_memcpy (dst : Bytes) (offs : Nat) (src : Bytes) (n : Nat) :
    window (memcpy dst offs src n) 0 (offs + n) = window dst 0 offs ++ window src 0 n := by
  rw [window_add]
  congr 1
  · apply window_congr
    intro i _ lt
    rw [memcpy, if_neg (by omega)]
  · apply List.map_congr_left
    intro i lt
    rw [List.mem_range] at lt
    rw [memcpy, if_pos (by omega)]
    congr 1
    omega

theorem prefix_window {mem : Bytes} {pos n : Nat} {l : List UInt8} :
    l <+: window mem pos n ↔ window mem pos l.length = l ∧ l.length ≤ n := by
  constructor
  · intro isPrefix
    have le := isPrefix.length_le
    rw [length_window] at le
    rw [← Nat.add_sub_cancel' le, window_add] at isPrefix
    obtain ⟨rest, same⟩ := isPrefix
    exact ⟨(List.append_inj_left same (by simp)).symm, le⟩
  · rintro ⟨same, le⟩
    rw [← Nat.add_sub_cancel' le, window_add, same]
    exact List.prefix_append _ _

/-- The element at a place of the memory. -/
def elementAt (mem : Bytes) (pos : Nat) : Tlv where
  id := mem pos
  data := window mem (pos + ieHead) (mem (pos + 1)).toNat
  short := by
    rw [length_window]
    exact UInt8.toNat_lt _

theorem encode_elementAt (mem : Bytes) (pos : Nat) :
    (elementAt mem pos).encode = window mem pos ((mem (pos + 1)).toNat + ieHead) := by
  rw [Nat.add_comm, window_add, Tlv.encode, elementAt]
  simp only [length_window, UInt8.ofNat_toNat]
  rfl

theorem size_elementAt (mem : Bytes) (pos : Nat) :
    (elementAt mem pos).size = (mem (pos + 1)).toNat + ieHead := by
  rw [Tlv.size, elementAt, length_window]

theorem elementAt_of_window {mem : Bytes} {pos : Nat} {t : Tlv}
    (bytes : window mem pos t.size = t.encode) : elementAt mem pos = t := by
  have all : window mem pos t.size =
      mem pos :: mem (pos + 1) :: window mem (pos + ieHead) t.data.length := by
    rw [Tlv.size, Nat.add_comm, window_add]
    rfl
  rw [all, Tlv.encode, List.cons.injEq, List.cons.injEq] at bytes
  obtain ⟨id, length, data⟩ := bytes
  have same : (mem (pos + 1)).toNat = t.data.length := by
    rw [length]
    exact UInt8.toNat_ofNat_of_lt' t.short
  rw [← same] at data
  simp only [elementAt, id, data]

theorem tlvs_window {mem : Bytes} {pos n : Nat} (le : (mem (pos + 1)).toNat + ieHead ≤ n) :
    tlvs (window mem pos n) = elementAt mem pos ::
      tlvs (window mem (pos + ((mem (pos + 1)).toNat + ieHead))
        (n - ((mem (pos + 1)).toNat + ieHead))) := by
  rw [← tlvs_encode, encode_elementAt, ← window_add, Nat.add_sub_cancel' le]

theorem tlvs_window_end {mem : Bytes} {pos n : Nat} (lt : n < (mem (pos + 1)).toNat + ieHead) :
    tlvs (window mem pos n) = [] := by
  by_cases short : n < 2
  · exact tlvs_short (by rwa [length_window])
  · have split : window mem pos n = mem pos :: mem (pos + 1) :: window mem (pos + 2) (n - 2) := by
      rw [← Nat.add_sub_cancel' (Nat.not_lt.1 short), window_add, Nat.add_sub_cancel_left]
      rfl
    rw [split]
    apply tlvs_incomplete
    rw [length_window]
    have more : n < (mem (pos + 1)).toNat + 2 := lt
    omega

/-- The elements that are not empty, with their places in the frame. -/
def placed : Nat → List Tlv → List (Nat × Tlv)
  | _, [] => []
  | pos, t :: ts =>
    if t.data.length ≠ 0 then (pos, t) :: placed (pos + t.size) ts else placed (pos + t.size) ts

/-- The room that an element takes. -/
abbrev room (x : Nat × Tlv) : Nat := x.2.size

theorem placed_append (pos : Nat) (l l' : List Tlv) :
    placed pos (l ++ l') = placed pos l ++ placed (pos + (l.map Tlv.size).sum) l' := by
  induction l generalizing pos with
  | nil => simp [placed]
  | cons t l ih =>
    simp only [List.cons_append, placed, ih, List.map_cons, List.sum_cons, ← Nat.add_assoc]
    split
    · rw [List.cons_append]
    · rfl

theorem placed_singleton (pos : Nat) (t : Tlv) :
    placed pos [t] = if t.data.length ≠ 0 then [(pos, t)] else [] := rfl

theorem placed_not_empty {pos : Nat} {l : List Tlv} {x : Nat × Tlv} (mem : x ∈ placed pos l) :
    2 < room x := by
  induction l generalizing pos with
  | nil => exact absurd mem (by simp [placed])
  | cons t l ih =>
    rw [placed] at mem
    split at mem
    case isTrue some =>
      rcases List.mem_cons.1 mem with rfl | mem
      · show 2 < t.data.length + 2
        omega
      · exact ih mem
    case isFalse => exact ih mem

/-! ## What is stored -/

def IsRsn (x : Nat × Tlv) : Prop := x.2.id = 48

/-- A vendor-specific element with an OUI type. -/
def IsOui (ouiType : List UInt8) (x : Nat × Tlv) : Prop :=
  x.2.id = 221 ∧ ouiType <+: x.2.data

instance : DecidablePred IsRsn := fun x => inferInstanceAs (Decidable (x.2.id = 48))

/-- The elements `p` of the frame `mem` are stored. What was in the memory past the end of
`info_elements` is left alone. -/
structure Stored (mem info : Bytes) (p : List (Nat × Tlv)) (bss : BssData) : Prop where
  elements : ∀ x ∈ p, x.2 = elementAt mem x.1
  used : bss.ieUsedLength = (p.map room).sum
  fits : bss.ieUsedLength ≤ maxInfoElementsLength
  bytes : window bss.infoElements 0 bss.ieUsedLength = p.flatMap fun x => x.2.encode
  beyond : ∀ i, maxInfoElementsLength ≤ i → bss.infoElements i = info i
  rsn : LastAt room noOffs IsRsn p bss.rsnOffs
  wpa : LastAt room noOffs (fun x => Looks mem wpaOuiType x.1) p bss.wpaOffs
  wps : LastAt room noOffs (fun x => Looks mem wpsOuiType x.1) p bss.wpsOffs

theorem Stored.keeps {mem info : Bytes} {p : List (Nat × Tlv)} {b c : BssData}
    (h : Stored mem info p b) (keeps : Keeps b c) : Stored mem info p c where
  elements := h.elements
  used := keeps.used.trans h.used
  fits := by
    rw [keeps.used]
    exact h.fits
  bytes := by
    rw [keeps.used, keeps.info]
    exact h.bytes
  beyond := by
    rw [keeps.info]
    exact h.beyond
  rsn := by
    rw [keeps.rsn]
    exact h.rsn
  wpa := by
    rw [keeps.wpa]
    exact h.wpa
  wps := by
    rw [keeps.wps]
    exact h.wps

theorem elementAt_congr {mem mem' : Bytes} {q : Nat} (same : ∀ i, q ≤ i → mem i = mem' i) :
    elementAt mem q = elementAt mem' q := by
  have data : window mem (q + ieHead) (mem (q + 1)).toNat =
      window mem' (q + ieHead) (mem' (q + 1)).toNat := by
    rw [same (q + 1) (by omega)]
    exact window_congr fun i le _ => same i (by omega)
  simp only [elementAt, data, same q (Nat.le_refl q)]

theorem looks_congr {mem mem' : Bytes} {ouiType : List UInt8} {q : Nat}
    (same : ∀ i, q ≤ i → mem i = mem' i) : Looks mem ouiType q ↔ Looks mem' ouiType q := by
  have data : (fun i => mem (q + ieHead + i)) = fun i => mem' (q + ieHead + i) :=
    funext fun i => same _ (by omega)
  rw [Looks, Looks, data, same q (Nat.le_refl q)]

/-- What is kept of an element that is stored and handled. -/
def storedBss (core : Core) (s : IeState) : BssData :=
  let t := handleIe core (storeIe s)
  { t.bss with ieUsedLength := t.bss.ieUsedLength + ((s.mem (s.pos + 1)).toNat + ieHead) }

theorem Stored.store {mem info : Bytes} {p : List (Nat × Tlv)} {s : IeState} (core : Core)
    (h : Stored mem info p s.bss) (same : ∀ i, s.pos ≤ i → s.mem i = mem i)
    (fits : s.bss.ieUsedLength + (s.mem (s.pos + 1)).toNat + ieHead ≤ maxInfoElementsLength) :
    Stored mem info (p ++ [(s.pos, elementAt mem s.pos)]) (storedBss core s) := by
  have handled := handleIe_handled core (storeIe s)
  have element := elementAt_congr same
  have size : (elementAt mem s.pos).size = (s.mem (s.pos + 1)).toNat + ieHead := by
    rw [← element, size_elementAt]
  have used : (storedBss core s).ieUsedLength =
      s.bss.ieUsedLength + ((s.mem (s.pos + 1)).toNat + ieHead) := by
    rw [storedBss]
    simp only [handled.used]
    rfl
  have written : (storedBss core s).infoElements =
      memcpy s.bss.infoElements s.bss.ieUsedLength (fun i => s.mem (s.pos + i))
        ((s.mem (s.pos + 1)).toNat + ieHead) := handled.info
  constructor
  case elements =>
    intro x there
    rcases List.mem_append.1 there with there | there
    · exact h.elements x there
    · rw [List.mem_singleton.1 there]
  case used => simp only [used, h.used, List.map_append, List.sum_append, List.map_singleton,
      List.sum_singleton, size]
  case fits =>
    rw [used]
    omega
  case bytes =>
    rw [used, written, window_memcpy, h.bytes, List.flatMap_append, List.flatMap_singleton,
      ← element, encode_elementAt]
    simp [window]
  case beyond =>
    intro i past
    rw [written, memcpy, if_neg (by omega)]
    exact h.beyond i past
  case rsn =>
    have rsn : (storedBss core s).rsnOffs =
        if IsRsn (s.pos, elementAt mem s.pos) then (p.map room).sum else s.bss.rsnOffs := by
      rw [← h.used, ← element]
      exact handled.rsn
    rw [rsn]
    exact h.rsn.concat _
  case wpa =>
    have wpa : (storedBss core s).wpaOffs =
        if Looks mem wpaOuiType s.pos then (p.map room).sum else s.bss.wpaOffs := by
      rw [← h.used, ← if_congr (looks_congr same) rfl rfl]
      exact handled.wpa
    rw [wpa]
    exact h.wpa.concat (s.pos, elementAt mem s.pos)
  case wps =>
    have wps : (storedBss core s).wpsOffs =
        if Looks mem wpsOuiType s.pos then (p.map room).sum else s.bss.wpsOffs := by
      rw [← h.used, ← if_congr (looks_congr same) rfl rfl]
      exact handled.wps
    rw [wps]
    exact h.wps.concat (s.pos, elementAt mem s.pos)

/-- What is at the offset of a stored element. -/
theorem Stored.elementAt_offs {mem info : Bytes} {p a b : List (Nat × Tlv)} {x : Nat × Tlv}
    {bss : BssData} (h : Stored mem info p bss) (split : p = a ++ x :: b) :
    elementAt bss.infoElements (a.map room).sum = x.2 ∧
      (a.map room).sum + x.2.size ≤ bss.ieUsedLength := by
  have used : bss.ieUsedLength =
      (a.map room).sum + (x.2.size + (b.map room).sum) := by
    rw [h.used, split]
    simp
  have sizes (l : List (Nat × Tlv)) :
      (l.flatMap fun x => x.2.encode).length = (l.map room).sum := by
    rw [List.length_flatMap]
    rfl
  have bytes := h.bytes
  rw [used, window_add, window_add, split, List.flatMap_append, List.flatMap_cons,
    Nat.zero_add] at bytes
  have here := List.append_inj_right bytes (by rw [length_window, sizes])
  have element := List.append_inj_left here (by rw [length_window, Tlv.length_encode])
  constructor
  · exact elementAt_of_window element
  · rw [used]
    omega

end Wave300.Frame
