import Wave300.Frame.Elements

/-!
# What the handlers leave alone

Of what is stored of the elements, a handler writes only the offset of its own element, and it
changes the frame at most within that element.
-/

namespace Wave300.Frame

/-- What is stored of the elements is left alone. -/
structure Keeps (b c : BssData) : Prop where
  used : c.ieUsedLength = b.ieUsedLength
  info : c.infoElements = b.infoElements
  rsn : c.rsnOffs = b.rsnOffs
  wpa : c.wpaOffs = b.wpaOffs
  wps : c.wpsOffs = b.wpsOffs

theorem Keeps.trans {b c d : BssData} (h : Keeps b c) (h' : Keeps c d) : Keeps b d where
  used := h'.used.trans h.used
  info := h'.info.trans h.info
  rsn := h'.rsn.trans h.rsn
  wpa := h'.wpa.trans h.wpa
  wps := h'.wps.trans h.wps

theorem foldl_addPhyRate_keeps (data : Bytes) (l : List Nat) (bss : BssData) :
    Keeps bss (l.foldl (addPhyRate data) bss) := by
  induction l generalizing bss with
  | nil => exact ⟨rfl, rfl, rfl, rfl, rfl⟩
  | cons i l ih =>
    have first : Keeps bss (addPhyRate data bss i) := ⟨rfl, rfl, rfl, rfl, rfl⟩
    exact first.trans (ih (addPhyRate data bss i))

theorem ieExtractPhyRates_keeps (data : Bytes) (length : Nat) (bss : BssData) :
    Keeps bss (ieExtractPhyRates data length bss) := by
  have rates := foldl_addPhyRate_keeps data (List.range length) bss
  rw [ieExtractPhyRates]
  split
  · exact { rates with }
  · exact rates

theorem ieExtractHtInfo_keeps (data : Bytes) (length : Nat) (bss : BssData) :
    Keeps bss (ieExtractHtInfo data length bss) := by
  rw [ieExtractHtInfo]
  split
  · exact ⟨rfl, rfl, rfl, rfl, rfl⟩
  simp only
  split
  · exact ⟨rfl, rfl, rfl, rfl, rfl⟩
  · exact ⟨rfl, rfl, rfl, rfl, rfl⟩
  · exact ⟨rfl, rfl, rfl, rfl, rfl⟩

theorem ieExtractHtcapInfo_keeps (core : Core) (data : Bytes) (length : Nat) (bss : BssData) :
    Keeps bss (ieExtractHtcapInfo core data length bss).1 := by
  rw [ieExtractHtcapInfo]
  split
  · exact ⟨rfl, rfl, rfl, rfl, rfl⟩
  · exact ⟨rfl, rfl, rfl, rfl, rfl⟩

theorem htcapInPlace_after (core : Core) (mem : Bytes) {at' length i : Nat}
    (after : at' + length ≤ i) : htcapInPlace core mem at' length i = mem i := by
  rw [htcapInPlace]
  split
  case isTrue long =>
    simp only
    rw [if_neg (by omega), if_neg (by omega)]
  case isFalse => rfl

theorem ite_ne_of_ne {α : Type} {p : Prop} [Decidable p] {a b c : α} (first : a ≠ c)
    (second : b ≠ c) : (if p then a else b) ≠ c := by
  split
  · exact first
  · exact second

theorem IeId.ofByte_rsn (id : UInt8) : IeId.ofByte id = .rsn ↔ id = 48 := by
  constructor
  · contrapose
    intro other
    rw [IeId.ofByte, if_neg other]
    iterate 12 refine ite_ne_of_ne nofun ?_
    exact nofun
  · rintro rfl
    rfl

theorem IeId.ofByte_vendorSpecific (id : UInt8) : IeId.ofByte id = .vendorSpecific ↔ id = 221 := by
  constructor
  · contrapose
    intro other
    rw [IeId.ofByte, if_neg other]
    iterate 12 refine ite_ne_of_ne nofun ?_
    exact nofun
  · rintro rfl
    rfl

/-- The element at a place of the frame is taken for a vendor-specific one with an OUI type. -/
def Looks (mem : Bytes) (ouiType : List UInt8) (q : Nat) : Prop :=
  mem q = 221 ∧ startsWith (fun i => mem (q + ieHead + i)) ouiType = true

instance (mem : Bytes) (ouiType : List UInt8) (q : Nat) : Decidable (Looks mem ouiType q) :=
  inferInstanceAs (Decidable (_ ∧ _))

theorem Looks.not_both {mem : Bytes} {q : Nat} (wpa : Looks mem wpaOuiType q) :
    ¬ Looks mem wpsOuiType q := by
  intro wps
  have first := of_decide_eq_true wpa.2
  have second := of_decide_eq_true wps.2
  exact absurd (first.symm.trans second) (by decide)

/-- What a handler does with the element at `pos`. -/
structure Handled (s t : IeState) : Prop where
  used : t.bss.ieUsedLength = s.bss.ieUsedLength
  info : t.bss.infoElements = s.bss.infoElements
  rsn : t.bss.rsnOffs = if s.mem s.pos = 48 then s.bss.ieUsedLength else s.bss.rsnOffs
  wpa : t.bss.wpaOffs =
    if Looks s.mem wpaOuiType s.pos then s.bss.ieUsedLength else s.bss.wpaOffs
  wps : t.bss.wpsOffs =
    if Looks s.mem wpsOuiType s.pos then s.bss.ieUsedLength else s.bss.wpsOffs

/-- The handler of any other element. -/
theorem Handled.of_keeps {s t : IeState} (notRsn : IeId.ofByte (s.mem s.pos) ≠ .rsn)
    (notVendor : IeId.ofByte (s.mem s.pos) ≠ .vendorSpecific) (keeps : Keeps s.bss t.bss) :
    Handled s t where
  used := keeps.used
  info := keeps.info
  rsn := by
    rw [if_neg fun eq => notRsn ((IeId.ofByte_rsn _).2 eq)]
    exact keeps.rsn
  wpa := by
    rw [if_neg fun looks => notVendor ((IeId.ofByte_vendorSpecific _).2 looks.1)]
    exact keeps.wpa
  wps := by
    rw [if_neg fun looks => notVendor ((IeId.ofByte_vendorSpecific _).2 looks.1)]
    exact keeps.wps

theorem handleIe_handled (core : Core) (s : IeState) : Handled s (handleIe core s) := by
  have bss : (handleIe core s).bss = ieBss core (fun i => s.mem (s.pos + ieHead + i))
    (s.mem (s.pos + 1)).toNat s.pos s.bss (IeId.ofByte (s.mem s.pos)) := rfl
  cases id : IeId.ofByte (s.mem s.pos) with
  | rsn =>
    have here := (IeId.ofByte_rsn _).1 id
    have notVendor : s.mem s.pos ≠ 221 := by
      rw [here]
      decide
    rw [id] at bss
    constructor
    case used | info => rw [bss]; rfl
    case rsn => rw [bss, if_pos here]; rfl
    case wpa | wps => rw [bss, if_neg fun looks => notVendor looks.1]; rfl
  | vendorSpecific =>
    have here := (IeId.ofByte_vendorSpecific _).1 id
    have notRsn : s.mem s.pos ≠ 48 := by
      rw [here]
      decide
    rw [id, ieBss] at bss
    split at bss
    case isTrue wpa =>
      have looks : Looks s.mem wpaOuiType s.pos := ⟨here, wpa⟩
      constructor
      case used | info => rw [bss]
      case rsn => rw [bss, if_neg notRsn]
      case wpa => rw [bss, if_pos looks]
      case wps => rw [bss, if_neg looks.not_both]
    case isFalse notWpa =>
      have other : ¬ Looks s.mem wpaOuiType s.pos := fun looks => notWpa looks.2
      split at bss
      case isTrue wps =>
        have looks : Looks s.mem wpsOuiType s.pos := ⟨here, wps⟩
        constructor
        case used | info => rw [bss]
        case rsn => rw [bss, if_neg notRsn]
        case wpa => rw [bss, if_neg other]
        case wps => rw [bss, if_pos looks]
      case isFalse notWps =>
        constructor
        case used | info => rw [bss]
        case rsn => rw [bss, if_neg notRsn]
        case wpa => rw [bss, if_neg other]
        case wps => rw [bss, if_neg fun looks => notWps looks.2]
  | ssid | dsParamSet | country | pwrConstraint | coexistence | intolerantChannelsReport
  | obssScanParameters | other =>
    apply Handled.of_keeps (by rw [id]; nofun) (by rw [id]; nofun)
    rw [bss, id]
    exact ⟨rfl, rfl, rfl, rfl, rfl⟩
  | supportedRates =>
    apply Handled.of_keeps (by rw [id]; nofun) (by rw [id]; nofun)
    rw [bss, id, ieBss]
    exact ieExtractPhyRates_keeps ..
  | extSuppRates =>
    apply Handled.of_keeps (by rw [id]; nofun) (by rw [id]; nofun)
    rw [bss, id, ieBss]
    have first : Keeps s.bss { s.bss with is24 := true } := ⟨rfl, rfl, rfl, rfl, rfl⟩
    exact first.trans (ieExtractPhyRates_keeps ..)
  | htInformation =>
    apply Handled.of_keeps (by rw [id]; nofun) (by rw [id]; nofun)
    rw [bss, id, ieBss]
    exact ieExtractHtInfo_keeps ..
  | htCapabilities =>
    apply Handled.of_keeps (by rw [id]; nofun) (by rw [id]; nofun)
    rw [bss, id, ieBss]
    have first : Keeps s.bss { s.bss with isHt := true } := ⟨rfl, rfl, rfl, rfl, rfl⟩
    exact first.trans (ieExtractHtcapInfo_keeps ..)

theorem handleIe_mem (core : Core) (s : IeState) {i : Nat}
    (after : s.pos + ieHead + (s.mem (s.pos + 1)).toNat ≤ i) :
    (handleIe core s).mem i = s.mem i := by
  rw [handleIe]
  simp only
  split
  · exact htcapInPlace_after core s.mem after
  · rfl

end Wave300.Frame
