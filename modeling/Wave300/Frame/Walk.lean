import Wave300.Frame.Storage

/-!
# The walk over the information elements

The loop goes from element to element and ends at one that is not complete or has no room. What was
passed till then is the longest prefix of the elements that fits.
-/

namespace Wave300.Frame

open Wave300.Lib

section Loop
variable {core : Core} {mem info : Bytes} {n : Nat} {s t : IeState} {past : List Tlv}

/-! ## One turn -/

/-- A turn of the loop goes past the element at `pos`. -/
structure Turn (core : Core) (s t : IeState) : Prop where
  complete : ((s.mem (s.pos + 1)).toNat + ieHead : Int) ≤ s.flen
  fits : s.bss.ieUsedLength + (s.mem (s.pos + 1)).toNat + ieHead ≤ maxInfoElementsLength
  pos : t.pos = s.pos + ((s.mem (s.pos + 1)).toNat + ieHead)
  flen : t.flen = s.flen - ((s.mem (s.pos + 1)).toNat + ieHead)
  bss : t.bss = if (s.mem (s.pos + 1)).toNat ≠ 0 then storedBss core s else s.bss
  mem : ∀ i, t.pos ≤ i → t.mem i = s.mem i

theorem ieStep_turn (step : ieStep core s = some t) : Turn core s t := by
  rw [ieStep] at step
  split at step
  case isTrue => cases step
  simp only at step
  split at step
  case isTrue => cases step
  case isFalse complete =>
    split at step
    case isTrue => cases step
    case isFalse fits =>
      cases step
      constructor
      case complete => exact Int.not_lt.1 complete
      case fits => exact Nat.not_lt.1 fits
      case pos => rfl
      case flen => rfl
      case bss => split <;> rfl
      case mem =>
        intro i after
        simp only at after ⊢
        split
        · exact handleIe_mem core (storeIe s) (by
            show s.pos + ieHead + (s.mem (s.pos + 1)).toNat ≤ i
            omega)
        · rfl

/-- Why the loop ends. -/
theorem ieStep_none (step : ieStep core s = none) :
    s.flen % 2 ^ 32 ≤ ieHead ∨ s.flen < (s.mem (s.pos + 1)).toNat + ieHead ∨
      maxInfoElementsLength < s.bss.ieUsedLength + (s.mem (s.pos + 1)).toNat + ieHead := by
  rw [ieStep] at step
  split at step
  case isTrue ends => exact .inl ends
  simp only at step
  split at step
  case isTrue incomplete => exact .inr (.inl incomplete)
  split at step
  case isTrue full => exact .inr (.inr full)
  case isFalse => cases step

/-- The loop has passed the elements `past` of the first `n` bytes of the frame. -/
structure Walked (mem : Bytes) (n : Nat) (info : Bytes) (s : IeState) (past : List Tlv) : Prop where
  small : s.flen < 2 ^ 32
  rest : tlvs (window mem 0 n) = past ++ tlvs (window mem s.pos s.flen.toNat)
  pos : s.pos = (past.map Tlv.size).sum
  same : ∀ i, s.pos ≤ i → s.mem i = mem i
  stored : Stored mem info (placed 0 past) s.bss

theorem Walked.turn (h : Walked mem n info s past) (turn : Turn core s t) :
    Walked mem n info t (past ++ [elementAt mem s.pos]) := by
  have length : mem (s.pos + 1) = s.mem (s.pos + 1) := (h.same _ (by omega)).symm
  have size : (elementAt mem s.pos).size = (s.mem (s.pos + 1)).toNat + ieHead := by
    rw [size_elementAt, length]
  have complete := turn.complete
  constructor
  case small =>
    have small := h.small
    rw [turn.flen]
    omega
  case rest =>
    have next : tlvs (window mem s.pos s.flen.toNat) = _ := tlvs_window (by rw [length]; omega)
    rw [h.rest, next, length, turn.pos, List.append_assoc, List.singleton_append]
    congr 4
    rw [turn.flen]
    omega
  case pos =>
    rw [turn.pos, List.map_append, List.sum_append, List.map_singleton, List.sum_singleton, size,
      ← h.pos]
  case same =>
    intro i after
    rw [turn.mem i after]
    apply h.same
    rw [turn.pos] at after
    omega
  case stored =>
    have nonempty : (elementAt mem s.pos).data.length = (s.mem (s.pos + 1)).toNat := by
      rw [elementAt, length_window, length]
    rw [placed_append, placed_singleton, ← h.pos, Nat.zero_add, nonempty, turn.bss]
    split
    · exact h.stored.store core h.same turn.fits
    · rw [List.append_nil]
      exact h.stored

/-- Two bytes are no element that is stored. -/
theorem placed_two (mem : Bytes) (pos : Nat) {left : Nat} (le : left ≤ 2) :
    placed pos (tlvs (window mem pos left)) = [] := by
  have head : ieHead = 2 := rfl
  by_cases complete : (mem (pos + 1)).toNat + ieHead ≤ left
  · have empty : (elementAt mem pos).data.length = 0 := by
      rw [elementAt, length_window]
      omega
    have nothing : left - ((mem (pos + 1)).toNat + ieHead) < 2 := by omega
    rw [tlvs_window complete, tlvs_short (by rwa [length_window]), placed_singleton,
      if_neg (not_not.2 empty)]
  · rw [tlvs_window_end (Nat.not_le.1 complete), placed]

theorem Walked.longest (h : Walked mem n info s past) (step : ieStep core s = none) :
    IsLongest room maxInfoElementsLength (placed 0 (tlvs (window mem 0 n))) (placed 0 past) := by
  have length : mem (s.pos + 1) = s.mem (s.pos + 1) := (h.same _ (by omega)).symm
  have fits : ((placed 0 past).map room).sum ≤ maxInfoElementsLength := by
    rw [← h.stored.used]
    exact h.stored.fits
  have all : placed 0 (tlvs (window mem 0 n)) =
      placed 0 past ++ placed s.pos (tlvs (window mem s.pos s.flen.toNat)) := by
    rw [h.rest, placed_append, ← h.pos, Nat.zero_add]
  by_cases complete : (mem (s.pos + 1)).toNat + ieHead ≤ s.flen.toNat
  case neg =>
    rw [all, tlvs_window_end (Nat.not_le.1 complete), placed, List.append_nil]
    exact .of_all fits
  rcases ieStep_none step with ends | incomplete | full
  case inl =>
    have small := h.small
    have two : s.flen.toNat ≤ 2 := by
      have head : ieHead = 2 := rfl
      omega
    rw [all, placed_two mem s.pos two, List.append_nil]
    exact .of_all fits
  case inr.inl =>
    rw [← length] at incomplete
    have head : ieHead = 2 := rfl
    omega
  case inr.inr =>
    rw [all]
    apply IsLongest.of_next (List.prefix_append _ _) fits
    intro x rest next
    rw [List.append_cancel_left_eq] at next
    rw [← h.stored.used]
    rw [← length] at full
    by_cases empty : (mem (s.pos + 1)).toNat = 0
    · -- The next element that is stored takes three bytes at least.
      have three := placed_not_empty (x := x) (by rw [next]; simp)
      have head : ieHead = 2 := rfl
      omega
    · have first : x = (s.pos, elementAt mem s.pos) := by
        rw [tlvs_window complete, placed, if_pos (by rwa [elementAt, length_window]),
          List.cons.injEq] at next
        exact next.1.symm
      rw [first, room, size_elementAt]
      omega

/-! ## The whole loop -/

theorem ieLoop_mono {fuel fuel' : Nat} (le : fuel ≤ fuel') (loop : ieLoop core fuel s = some t) :
    ieLoop core fuel' s = some t := by
  induction fuel generalizing fuel' s with
  | zero => cases loop
  | succ fuel ih =>
    obtain ⟨more, rfl⟩ := Nat.exists_eq_add_of_le' (Nat.le_trans (Nat.succ_pos fuel) le)
    rw [ieLoop] at loop ⊢
    cases step : ieStep core s with
    | none => rwa [step] at loop
    | some u =>
      rw [step] at loop
      exact ih (Nat.le_of_succ_le_succ le) loop

theorem Walked.loop (core : Core) {fuel : Nat} (h : Walked mem n info s past)
    (enough : s.flen.toNat < fuel) :
    ∃ t past', ieLoop core fuel s = some t ∧ Walked mem n info t past' ∧ ieStep core t = none := by
  induction fuel generalizing s past with
  | zero => exact absurd enough (Nat.not_lt_zero _)
  | succ fuel ih =>
    rw [ieLoop]
    cases step : ieStep core s with
    | none => exact ⟨s, past, rfl, h, step⟩
    | some t =>
      have turn := ieStep_turn step
      have complete := turn.complete
      have head : ieHead = 2 := rfl
      exact ih (h.turn turn) (by rw [turn.flen]; omega)

theorem Walked.start (mem : Bytes) (flen : Int32) (bss : BssData) :
    Walked mem flen.toInt.toNat bss.infoElements (Frame.start mem flen bss) [] where
  small := by
    have lt := flen.toInt_lt
    show flen.toInt < 2 ^ 32
    omega
  rest := rfl
  pos := rfl
  same _ _ := rfl
  stored :=
    { elements := nofun
      used := rfl
      fits := Nat.zero_le _
      bytes := rfl
      beyond := fun _ _ => rfl
      rsn := .nil
      wpa := .nil
      wps := .nil }

end Loop

theorem discard_keeps (bss : BssData) : Keeps bss (discard bss) := by
  rw [discard]
  split <;> exact ⟨rfl, rfl, rfl, rfl, rfl⟩

theorem ieProcess_stored (core : Core) (mem : Bytes) (flen : Int32) (bss : BssData) :
    ∃ r p, (∀ fuel, flen.toInt.toNat < fuel → ieProcess core fuel mem flen bss = some r) ∧
      Stored mem bss.infoElements p r ∧
      IsLongest room maxInfoElementsLength (placed 0 (tlvs (window mem 0 flen.toInt.toNat))) p := by
  obtain ⟨t, past, loop, walked, ends⟩ :=
    (Walked.start mem flen bss).loop core (Nat.lt_succ_self _)
  refine ⟨discard t.bss, placed 0 past, ?_, ?_, ?_⟩
  · intro fuel enough
    rw [ieProcess, ieLoop_mono enough loop]
    rfl
  · exact walked.stored.keeps (discard_keeps t.bss)
  · exact walked.longest ends

/-! ## The offsets -/

/-- At an offset there is a stored element, all of it. -/
def Addresses (bss : BssData) (p : List (Nat × Tlv)) (offs : Nat) : Prop :=
  offs ≠ noOffs →
    ∃ x ∈ p, elementAt bss.infoElements offs = x.2 ∧ offs + x.2.size ≤ bss.ieUsedLength

theorem Stored.addresses {mem info : Bytes} {p : List (Nat × Tlv)} {bss : BssData} {offs : Nat}
    {kind : Nat × Tlv → Prop} (h : Stored mem info p bss)
    (last : LastAt room noOffs kind p offs) : Addresses bss p offs := by
  intro there
  obtain ⟨a, x, b, split, -, rfl⟩ := last.within there
  exact ⟨x, by rw [split]; simp, h.elementAt_offs split⟩

/-- The area of `n` bytes is stored right: `p` are the elements of its longest well-formed prefix
that are not empty, as many as fit, and the offsets are those of the last ones of their kinds. -/
structure Right (mem : Bytes) (n : Nat) (bss : BssData) (p : List (Nat × Tlv)) : Prop where
  longest : IsLongest room maxInfoElementsLength (placed 0 (tlvs (window mem 0 n))) p
  used : bss.ieUsedLength = (p.map room).sum
  fits : bss.ieUsedLength ≤ maxInfoElementsLength
  bytes : window bss.infoElements 0 bss.ieUsedLength = p.flatMap fun x => x.2.encode
  rsn : LastAt room noOffs IsRsn p bss.rsnOffs
  wpa : LastAt room noOffs (IsOui wpaOuiType) p bss.wpaOffs
  wps : LastAt room noOffs (IsOui wpsOuiType) p bss.wpsOffs
  complete : ∀ offs ∈ [bss.rsnOffs, bss.wpaOffs, bss.wpsOffs], Addresses bss p offs

/-- The last stored element that looks like one with the OUI type is long enough to hold it. -/
def OuiWithin (mem : Bytes) (n : Nat) (ouiType : List UInt8) : Prop :=
  ∀ p, IsLongest room maxInfoElementsLength (placed 0 (tlvs (window mem 0 n))) p →
    ∀ a x b, p = a ++ x :: b → Looks mem ouiType x.1 → (∀ y ∈ b, ¬ Looks mem ouiType y.1) →
      ouiType.length ≤ x.2.data.length

theorem isOui_elementAt (mem : Bytes) (ouiType : List UInt8) (q : Nat) :
    IsOui ouiType (q, elementAt mem q) ↔
      Looks mem ouiType q ∧ ouiType.length ≤ (elementAt mem q).data.length := by
  have data : (elementAt mem q).data = window mem (q + ieHead) (mem (q + 1)).toNat := rfl
  rw [IsOui, data, prefix_window, length_window, Looks, startsWith, decide_eq_true_iff, and_assoc]
  rfl

theorem Stored.lastAt_iff {mem info : Bytes} {n : Nat} {p : List (Nat × Tlv)} {bss : BssData}
    {offs : Nat} {ouiType : List UInt8} (h : Stored mem info p bss)
    (longest : IsLongest room maxInfoElementsLength (placed 0 (tlvs (window mem 0 n))) p)
    (last : LastAt room noOffs (fun x => Looks mem ouiType x.1) p offs) :
    LastAt room noOffs (IsOui ouiType) p offs ↔ OuiWithin mem n ouiType := by
  have within : (p.map room).sum < noOffs := by
    have fits := h.fits
    rw [h.used] at fits
    exact Nat.lt_of_le_of_lt fits (by decide)
  have kinds (x : Nat × Tlv) (there : x ∈ p) :
      IsOui ouiType x ↔ Looks mem ouiType x.1 ∧ ouiType.length ≤ x.2.data.length := by
    obtain ⟨q, t⟩ := x
    obtain rfl : t = elementAt mem q := h.elements _ there
    exact isOui_elementAt mem ouiType q
  rw [last.looks_iff kinds (fun x => Nat.succ_pos _) within]
  constructor
  · intro long q longest'
    rw [longest.unique longest']
    exact long
  · intro long
    exact long p longest

/-- `ie_process` returns, and stores the longest prefix of the elements that fits. It is right about
the WPA and WPS elements exactly when the last ones that look so hold their OUI types. -/
theorem ie_storage (core : Core) (mem : Bytes) (flen : Int32) (bss : BssData) :
    ∃ r p, (∀ fuel, flen.toInt.toNat < fuel → ieProcess core fuel mem flen bss = some r) ∧
      Stored mem bss.infoElements p r ∧
      IsLongest room maxInfoElementsLength (placed 0 (tlvs (window mem 0 flen.toInt.toNat))) p ∧
      (∀ offs ∈ [r.rsnOffs, r.wpaOffs, r.wpsOffs], Addresses r p offs) ∧
      ((∃ q, Right mem flen.toInt.toNat r q) ↔
        OuiWithin mem flen.toInt.toNat wpaOuiType ∧ OuiWithin mem flen.toInt.toNat wpsOuiType) := by
  obtain ⟨r, p, returns, stored, longest⟩ := ieProcess_stored core mem flen bss
  have wpa := stored.lastAt_iff longest stored.wpa
  have wps := stored.lastAt_iff longest stored.wps
  have complete : ∀ offs ∈ [r.rsnOffs, r.wpaOffs, r.wpsOffs], Addresses r p offs := by
    intro offs mem
    simp only [List.mem_cons, List.not_mem_nil, or_false] at mem
    rcases mem with rfl | rfl | rfl
    · exact stored.addresses stored.rsn
    · exact stored.addresses stored.wpa
    · exact stored.addresses stored.wps
  refine ⟨r, p, returns, stored, longest, complete, ?_⟩
  constructor
  · rintro ⟨q, right⟩
    obtain rfl := longest.unique right.longest
    exact ⟨wpa.1 right.wpa, wps.1 right.wps⟩
  · rintro ⟨wpaWithin, wpsWithin⟩
    exact
      ⟨p,
        { longest := longest
          used := stored.used
          fits := stored.fits
          bytes := stored.bytes
          rsn := stored.rsn
          wpa := wpa.2 wpaWithin
          wps := wps.2 wpsWithin
          complete := complete }⟩

/-! ## A vendor-specific element that is too short

Its one byte of data is followed by what makes it look like a WPA element. -/

/-- A station that takes no part in coexistence. -/
def plainCore : Core where
  isAp := false
  hasCoexSm := false
  is2040Active := false
  is2040Enabled := false
  bandCfgIs24 := true
  bandCurIs24 := true
  checkRssiThreshold := fun _ => false
  countryToCountryCode := fun _ => 0
  bigEndian := false
  individuallyAddressed := false
  isBeacon := true
  isFromAssocAp := false

def clearBss : BssData where
  basicRateSet := 0
  operationalRateSet := 0
  ieUsedLength := 0
  rsnOffs := 0
  wpaOffs := 0
  wpsOffs := 0
  infoElements := fun _ => 0
  essid := fun _ => 0
  maxRssi := 0
  channel := 0
  secondaryChannelOffset := 0
  spectrum := 0
  upperLower := 0
  power := 0
  is24 := false
  isHt := false
  countryCode := 0
  countryIe := none
  fortyMhzIntolerant := false

def shortVendor : Bytes := fun i => [0xDD, 0x01, 0x00, 0x50, 0xF2, 0x01].getD i 0

/-- The element is taken for a WPA element. -/
theorem short_vendor_taken_for_wpa :
    ∃ r, ieProcess plainCore 7 shortVendor 6 clearBss = some r ∧ r.ieUsedLength = 3 ∧
      r.wpaOffs = 0 ∧ ∀ p, ¬ Right shortVendor 6 r p := by
  refine ⟨_, rfl, rfl, rfl, ?_⟩
  intro p right
  have elements : tlvs (window shortVendor 0 6) = [elementAt shortVendor 0] := by
    rw [tlvs_window (by decide), tlvs_window_end (by decide)]
  have isPrefix := right.longest.isPrefix
  rw [elements] at isPrefix
  rcases right.wpa with ⟨a, x, b, rfl, ⟨-, oui⟩, -⟩ | ⟨absent, -⟩
  · have there : x ∈ placed 0 [elementAt shortVendor 0] := isPrefix.subset (by simp)
    rw [placed_singleton, if_pos (by decide), List.mem_singleton] at there
    rw [there] at oui
    exact absurd oui (by decide)
  · exact absurd absent (by decide)

end Wave300.Frame
