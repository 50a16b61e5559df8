import Wave300.Frame.Walk

/-!
# What the handlers read

A handler gets the data of its element and the length, and should look at no byte that follows the
element. Three handlers look further: the one of vendor-specific elements, the one of the HT
capabilities and the one of the country.
-/

namespace Wave300.Frame

/-- The bytes of the data that a handler looks at. `memcmp` gets four, and a country is known by two
letters. -/
def ieReads (core : Core) (length : Nat) : IeId → List Nat
  | .supportedRates | .extSuppRates => List.range length
  | .htInformation => if length < 2 then [] else [0, 1]
  | .ssid => List.range (if length > 32 then 32 else length)
  | .vendorSpecific => [0, 1, 2, 3]
  | .dsParamSet | .pwrConstraint => [0]
  | .htCapabilities => if length < 7 then [] else [0, 1, 3, 4, 7]
  | .country => [0, 1]
  | .coexistence => if core.is2040Active ∧ length = 1 then [0] else []
  | .intolerantChannelsReport =>
    if core.is2040Enabled ∧ core.bandCfgIs24 ∧ core.isAp ∧ core.individuallyAddressed ∧
        2 ≤ length ∧ length ≤ 31 then List.range length
    else []
  | .obssScanParameters =>
    if core.is2040Enabled ∧ core.bandCurIs24 ∧ core.isAp = false ∧
        (core.individuallyAddressed ∨ core.isBeacon) ∧ core.isFromAssocAp ∧ length = 14 then
      List.range 14
    else []
  | .rsn | .other => []

/-- Memories that agree on some bytes. -/
def Agree (reads : List Nat) (data data' : Bytes) : Prop := ∀ i ∈ reads, data' i = data i

/-- A country is known by two letters. -/
def TwoLetters (core : Core) : Prop := ∀ data data', data' 0 = data 0 → data' 1 = data 1 →
  core.countryToCountryCode data' = core.countryToCountryCode data

variable {core : Core} {data data' : Bytes} {length pos n : Nat} {bss : BssData}

/-! ## Nothing else is looked at -/

theorem Agree.lt (h : Agree (List.range n) data data') {i : Nat} (below : i < n) :
    data' i = data i := h i (List.mem_range.2 below)

theorem Agree.le16 (h : Agree (List.range n) data data') {i : Nat} (within : i + 1 < n) :
    le16 data' i = le16 data i := by
  rw [Frame.le16, h.lt (Nat.lt_of_succ_lt within), h.lt within, Frame.le16]

theorem Agree.phyRates (h : Agree (List.range length) data data') (bss : BssData) :
    ieExtractPhyRates data' length bss = ieExtractPhyRates data length bss := by
  have rates (l : List Nat) (agree : Agree l data data') (bss : BssData) :
      l.foldl (addPhyRate data') bss = l.foldl (addPhyRate data) bss := by
    induction l generalizing bss with
    | nil => rfl
    | cons i l ih =>
      obtain ⟨here, later⟩ := List.forall_mem_cons.1 agree
      rw [List.foldl_cons, List.foldl_cons, addPhyRate, here, ← addPhyRate, ih later]
  rw [ieExtractPhyRates, rates _ h, ieExtractPhyRates]

theorem Agree.htInfo (h : Agree (ieReads core length .htInformation) data data') (bss : BssData) :
    ieExtractHtInfo data' length bss = ieExtractHtInfo data length bss := by
  rw [ieReads] at h
  rw [ieExtractHtInfo, ieExtractHtInfo]
  split
  case isTrue => rfl
  case isFalse long =>
    rw [if_neg long] at h
    rw [h 0 (by decide), h 1 (by decide)]

theorem Agree.memcpy (h : Agree (List.range n) data data') (dst : Bytes) (offs : Nat) :
    memcpy dst offs data' n = memcpy dst offs data n := by
  funext i
  rw [Frame.memcpy, Frame.memcpy]
  split
  case isTrue within => exact h.lt (by omega)
  case isFalse => rfl

theorem Agree.copySsid (h : Agree (ieReads core length .ssid) data data') (essid : Bytes) :
    copySsid data' length essid = copySsid data length essid := by
  rw [ieReads] at h
  simp only [Frame.copySsid, h.memcpy essid 0]

theorem Agree.startsWith (h : Agree (ieReads core length .vendorSpecific) data data')
    {ouiType : List UInt8} (four : ouiType.length = 4) :
    startsWith data' ouiType = startsWith data ouiType := by
  have same : (List.range 4).map data' = (List.range 4).map data := List.map_congr_left h
  rw [Frame.startsWith, four, same, ← four, ← Frame.startsWith]

theorem Agree.htcapInfo (h : Agree (ieReads core length .htCapabilities) data data')
    (bss : BssData) :
    ieExtractHtcapInfo core data' length bss = ieExtractHtcapInfo core data length bss := by
  rw [ieReads] at h
  rw [ieExtractHtcapInfo, ieExtractHtcapInfo]
  split
  case isTrue => rfl
  case isFalse long =>
    rw [if_neg long] at h
    have info : Frame.le16 data' 0 = Frame.le16 data 0 := by
      rw [Frame.le16, h 0 (by decide), h 1 (by decide), Frame.le16]
    rw [info, h 3 (by decide), h 4 (by decide), h 7 (by decide)]

theorem Agree.coexistence (h : Agree (ieReads core length .coexistence) data data')
    (bss : BssData) :
    processCoexistence core data' length bss = processCoexistence core data length bss := by
  rw [ieReads] at h
  rw [processCoexistence, processCoexistence]
  split
  case isFalse => rfl
  case isTrue active =>
    have element : ieExtractCoexElInfo data' length = ieExtractCoexElInfo data length := by
      rw [ieExtractCoexElInfo, ieExtractCoexElInfo]
      split
      case isTrue => rfl
      case isFalse one =>
        rw [if_pos ⟨active, not_not.1 one⟩] at h
        rw [h 0 (by decide)]
    rw [element]

theorem Agree.intolerantChannels
    (h : Agree (ieReads core length .intolerantChannelsReport) data data') :
    processIntolerantChannels core data' length = processIntolerantChannels core data length := by
  rw [ieReads] at h
  rw [processIntolerantChannels, processIntolerantChannels]
  split
  case isFalse => rfl
  case isTrue long =>
    rw [if_pos long] at h
    obtain ⟨-, -, -, -, two, -⟩ := long
    have channels : (List.range (length - 1)).map (fun i => data' (i + 1)) =
        (List.range (length - 1)).map fun i => data (i + 1) := by
      apply List.map_congr_left
      intro i mem
      have below := List.mem_range.1 mem
      exact h.lt (by omega)
    rw [h.lt (by omega), channels]

theorem Agree.obssScanParameters (h : Agree (ieReads core length .obssScanParameters) data data') :
    processObssScanParameters core data' length = processObssScanParameters core data length := by
  rw [ieReads] at h
  rw [processObssScanParameters, processObssScanParameters]
  split
  case isFalse => rfl
  case isTrue long =>
    rw [if_pos long] at h
    have params : (List.range 7).map (fun i => Frame.le16 data' (2 * i)) =
        (List.range 7).map fun i => Frame.le16 data (2 * i) := by
      apply List.map_congr_left
      intro i mem
      have below := List.mem_range.1 mem
      exact h.le16 (by omega)
    rw [params]

/-- What is written to `bss_data` depends on the bytes that are looked at. -/
theorem Agree.ieBss (twoLetters : TwoLetters core) {id : IeId}
    (h : Agree (ieReads core length id) data data') :
    ieBss core data' length pos bss id = ieBss core data length pos bss id := by
  cases id with
  | ssid => rw [Frame.ieBss, h.copySsid, Frame.ieBss]
  | supportedRates => exact Agree.phyRates h bss
  | extSuppRates => exact Agree.phyRates h _
  | htInformation => exact h.htInfo bss
  | dsParamSet | pwrConstraint =>
    have first : data' 0 = data 0 := h 0 List.mem_cons_self
    rw [Frame.ieBss, first, Frame.ieBss]
  | htCapabilities => rw [Frame.ieBss, h.htcapInfo, Frame.ieBss]
  | country =>
    have second : 1 ∈ ieReads core length .country := List.mem_cons_of_mem _ List.mem_cons_self
    have code : core.countryToCountryCode data' = core.countryToCountryCode data :=
      twoLetters data data' (h 0 List.mem_cons_self) (h 1 second)
    rw [Frame.ieBss, code, Frame.ieBss]
  | vendorSpecific => rw [Frame.ieBss, h.startsWith rfl, h.startsWith rfl, Frame.ieBss]
  | rsn | coexistence | intolerantChannelsReport | obssScanParameters | other => rfl

/-- And so does what is told to the coexistence state machine. -/
theorem Agree.ieCalls {id : IeId} (h : Agree (ieReads core length id) data data') :
    ieCalls core data' length bss id = ieCalls core data length bss id := by
  cases id with
  | coexistence => exact h.coexistence bss
  | intolerantChannelsReport => exact h.intolerantChannels
  | obssScanParameters => exact h.obssScanParameters
  | htCapabilities => rw [Frame.ieCalls, h.htcapInfo, Frame.ieCalls]
  | ssid | supportedRates | dsParamSet | country | pwrConstraint | rsn | extSuppRates
  | htInformation | vendorSpecific | other => rfl

/-! ## Who keeps to the element -/

/-- The element is long enough for its handler. -/
def Bounded (length : Nat) : IeId → Prop
  | .vendorSpecific => 4 ≤ length
  | .htCapabilities => length ≠ 7
  | .country => 2 ≤ length
  | _ => True

theorem ieReads_lt (core : Core) (nonempty : 0 < length) (id : IeId) :
    (∀ i ∈ ieReads core length id, i < length) ↔ Bounded length id := by
  have range {n : Nat} (le : n ≤ length) : ∀ i ∈ List.range n, i < length :=
    fun i mem => Nat.lt_of_lt_of_le (List.mem_range.1 mem) le
  cases id with
  | vendorSpecific =>
    simp only [ieReads, Bounded, List.mem_cons, List.not_mem_nil, or_false, forall_eq_or_imp,
      forall_eq]
    omega
  | country =>
    simp only [ieReads, Bounded, List.mem_cons, List.not_mem_nil, or_false, forall_eq_or_imp,
      forall_eq]
    omega
  | htCapabilities =>
    rw [ieReads, Bounded]
    split
    case isTrue short => exact iff_of_true nofun (by omega)
    case isFalse long =>
      simp only [List.mem_cons, List.not_mem_nil, or_false, forall_eq_or_imp, forall_eq]
      omega
  | htInformation =>
    refine iff_of_true ?_ trivial
    rw [ieReads]
    split
    case isTrue => exact nofun
    case isFalse long =>
      simp only [List.mem_cons, List.not_mem_nil, or_false, forall_eq_or_imp, forall_eq]
      omega
  | supportedRates | extSuppRates => exact iff_of_true (range (Nat.le_refl _)) trivial
  | ssid =>
    refine iff_of_true (range ?_) trivial
    split <;> omega
  | dsParamSet | pwrConstraint =>
    exact iff_of_true (List.forall_mem_singleton.2 nonempty) trivial
  | coexistence =>
    refine iff_of_true ?_ trivial
    rw [ieReads]
    split
    · exact List.forall_mem_singleton.2 nonempty
    · exact nofun
  | intolerantChannelsReport =>
    refine iff_of_true ?_ trivial
    rw [ieReads]
    split
    · exact range (Nat.le_refl _)
    · exact nofun
  | obssScanParameters =>
    refine iff_of_true ?_ trivial
    rw [ieReads]
    split
    case isTrue long => exact range (Nat.le_of_eq long.2.2.2.2.2.symm)
    case isFalse => exact nofun
  | rsn | other => exact iff_of_true nofun trivial

/-! ## The elements of a frame -/

/-- The memory agrees with that of a state on the element at `pos`. -/
def SameElement (s : IeState) (mem : Bytes) : Prop :=
  ∀ i, s.pos ≤ i → i < s.pos + ieHead + (s.mem (s.pos + 1)).toNat → mem i = s.mem i

/-- All that is looked at of the element at `pos` is in it, and what is made of it is the same
whatever else is in memory. -/
structure KeepsToElement (core : Core) (s : IeState) : Prop where
  reads : ∀ i ∈ ieReads core (s.mem (s.pos + 1)).toNat (IeId.ofByte (s.mem s.pos)),
    i < (s.mem (s.pos + 1)).toNat
  same : ∀ mem : Bytes, SameElement s mem →
    (handleIe core (storeIe { s with mem := mem })).bss = (handleIe core (storeIe s)).bss ∧
      (handleIe core (storeIe { s with mem := mem })).calls = (handleIe core (storeIe s)).calls

variable {s : IeState}

/-- The data of the element at `pos`, and what is in memory after it. -/
def elementData (s : IeState) : Bytes := fun i => s.mem (s.pos + ieHead + i)

/-- What is stored, and the identifier and the length of the element, are the same. -/
theorem SameElement.handled (core : Core) {mem : Bytes} (same : SameElement s mem) :
    (handleIe core (storeIe { s with mem := mem })).bss =
        ieBss core (elementData { s with mem := mem }) (s.mem (s.pos + 1)).toNat s.pos
          (storeIe s).bss (IeId.ofByte (s.mem s.pos)) ∧
      (handleIe core (storeIe { s with mem := mem })).calls =
        s.calls ++ ieCalls core (elementData { s with mem := mem }) (s.mem (s.pos + 1)).toNat
          (storeIe s).bss (IeId.ofByte (s.mem s.pos)) := by
  have head : ieHead = 2 := rfl
  have id : mem s.pos = s.mem s.pos := same _ (Nat.le_refl _) (by omega)
  have length : mem (s.pos + 1) = s.mem (s.pos + 1) := same _ (by omega) (by omega)
  have alike : Agree (List.range ((s.mem (s.pos + 1)).toNat + ieHead))
      (fun i => s.mem (s.pos + i)) fun i => mem (s.pos + i) := by
    intro i within
    have lt := List.mem_range.1 within
    exact same _ (Nat.le_add_right ..) (by omega)
  have stored : (storeIe { s with mem := mem }).bss = (storeIe s).bss := by
    rw [storeIe, storeIe]
    simp only [length, alike.memcpy]
  have pos : (storeIe { s with mem := mem }).pos = s.pos := rfl
  have bytes : (storeIe { s with mem := mem }).mem = mem := rfl
  have calls : (storeIe { s with mem := mem }).calls = s.calls := rfl
  constructor
  · simp only [handleIe, stored, pos, bytes, id, length]
    rfl
  · simp only [handleIe, stored, pos, bytes, calls, id, length]
    rfl

theorem SameElement.agree {mem : Bytes} (same : SameElement s mem) {reads : List Nat}
    (within : ∀ i ∈ reads, i < (s.mem (s.pos + 1)).toNat) :
    Agree reads (elementData s) (elementData { s with mem := mem }) := by
  intro i read
  have lt := within i read
  exact same (s.pos + ieHead + i) (by omega) (by omega)

/-- Wherever in a frame: the handler of an element keeps to it just when it is one of those that
always do, or the element is long enough. -/
theorem keepsToElement_iff (core : Core) (twoLetters : TwoLetters core) (s : IeState)
    (nonempty : (s.mem (s.pos + 1)).toNat ≠ 0) :
    KeepsToElement core s ↔
      Bounded (s.mem (s.pos + 1)).toNat (IeId.ofByte (s.mem s.pos)) := by
  rw [← ieReads_lt core (Nat.pos_of_ne_zero nonempty)]
  refine ⟨KeepsToElement.reads, fun within => ⟨within, fun mem same => ?_⟩⟩
  have here : SameElement s s.mem := fun _ _ _ => rfl
  have itself := here.handled core
  have agree := same.agree within
  obtain ⟨bss, calls⟩ := same.handled core
  rw [bss, calls, agree.ieBss twoLetters, agree.ieCalls]
  exact ⟨itself.1.symm, itself.2.symm⟩

/-- A vendor-specific element, HT capabilities and a country, each just long enough, and then HT
capabilities that are too short. -/
def threeHandlers : Bytes := fun i =>
  [221, 4, 0, 0x50, 0xF2, 1, 45, 8, 0, 0, 0, 0xFF, 0, 0, 0, 1, 7, 2, 0x55, 0x53,
    45, 7, 0, 0, 0, 0xFF, 0, 0, 0, 1].getD i 0

theorem keepsToElement_iff_threeHandlers : ∃ s₁ s₂ s₃,
    ieStep plainCore (start threeHandlers 30 clearBss) = some s₁ ∧
      ieStep plainCore s₁ = some s₂ ∧ ieStep plainCore s₂ = some s₃ ∧
      KeepsToElement plainCore (start threeHandlers 30 clearBss) ∧ KeepsToElement plainCore s₁ ∧
      KeepsToElement plainCore s₂ ∧ ¬KeepsToElement plainCore s₃ := by
  have twoLetters : TwoLetters plainCore := fun _ _ _ _ => rfl
  refine ⟨_, _, _, rfl, rfl, rfl, ?_, ?_, ?_, ?_⟩
  · exact (keepsToElement_iff plainCore twoLetters _ (by decide)).2 (show 4 ≤ 4 by decide)
  · exact (keepsToElement_iff plainCore twoLetters _ (by decide)).2 (show 8 ≠ 7 by decide)
  · exact (keepsToElement_iff plainCore twoLetters _ (by decide)).2 (show 2 ≤ 2 by decide)
  · exact fun keeps => (keepsToElement_iff plainCore twoLetters _ (by decide)).1 keeps rfl

/-- A DS parameter set, and HT capabilities of seven bytes with a byte after them. -/
def shortHtcap : Bytes := fun i => [3, 1, 6, 45, 7, 0, 0, 0, 0xFF, 0, 0, 0, 1].getD i 0

/-- The byte after HT capabilities of seven bytes tells whether MCS 32 is supported. -/
theorem htcap_reads_past : ∃ s, ieStep plainCore (start shortHtcap 12 clearBss) = some s ∧
    s.mem s.pos = 45 ∧ s.flen = 9 ∧ ¬KeepsToElement plainCore s := by
  refine ⟨_, rfl, rfl, rfl, ?_⟩
  intro keeps
  have alike := keeps.same (fun i => if i = 12 then 0 else shortHtcap i) fun i _ lt =>
    if_neg (Nat.ne_of_lt (show i < 12 from lt))
  exact absurd (congrArg BssData.operationalRateSet alike.1) (by decide)

end Wave300.Frame
