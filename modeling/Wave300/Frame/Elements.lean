import Mathlib.Algebra.Order.Ring.Int

/-!
# The information elements of a beacon or probe response

`ie_process` with its loop over the elements and the handlers of the elements. Memory is read from
the pointer `fbuf` on, and what is written past the end of `info_elements` would be seen in
`infoElements` past its 512 bytes. The calls into the coexistence state machine are recorded. Of
`bss_data_t` there are the fields that the function reads or writes.
-/

namespace Wave300.Frame

/-- Memory from an address on. -/
abbrev Bytes := Nat → UInt8

/-- `MAX_INFO_ELEMENTS_LENGTH`. -/
abbrev maxInfoElementsLength : Nat := 512

/-- The offset that says that there is no such element. -/
abbrev noOffs : Nat := 0xFFFF

/-- `sizeof(ie_t)`. -/
abbrev ieHead : Nat := 2

/-- The identifiers of the elements that have a handler. -/
inductive IeId where
  | ssid
  | supportedRates
  | dsParamSet
  | country
  | pwrConstraint
  | htCapabilities
  | rsn
  | extSuppRates
  | htInformation
  | coexistence
  | intolerantChannelsReport
  | obssScanParameters
  | vendorSpecific
  | other
  deriving DecidableEq, Repr

def IeId.ofByte (id : UInt8) : IeId :=
  if id = 0 then .ssid
  else if id = 1 then .supportedRates
  else if id = 3 then .dsParamSet
  else if id = 7 then .country
  else if id = 32 then .pwrConstraint
  else if id = 45 then .htCapabilities
  else if id = 48 then .rsn
  else if id = 50 then .extSuppRates
  else if id = 61 then .htInformation
  else if id = 72 then .coexistence
  else if id = 73 then .intolerantChannelsReport
  else if id = 74 then .obssScanParameters
  else if id = 221 then .vendorSpecific
  else .other

structure CoexElement where
  informationRequest : Bool
  fortyMhzIntolerant : Bool
  twentyMhzBssWidthRequest : Bool
  obssScanningExemptionRequest : Bool
  obssScanningExemptionGrant : Bool
  deriving DecidableEq

/-- What is told to the coexistence state machine, besides the BSSID and the parameters of
`ie_process`. -/
inductive CoexCall where
  | staIntoleranceDetected
  | apProcessElement (el : CoexElement)
  | staProcessElement (el : CoexElement)
  | apProcessObssScanResults (operatingClass : UInt8) (channels : List UInt8)
  | staApplyApParameters (params : List UInt16)
  deriving DecidableEq

structure BssData where
  basicRateSet : UInt32
  operationalRateSet : UInt32
  ieUsedLength : Nat
  rsnOffs : Nat
  wpaOffs : Nat
  wpsOffs : Nat
  infoElements : Bytes
  essid : Bytes
  maxRssi : UInt8
  channel : UInt16
  secondaryChannelOffset : UInt8
  spectrum : UInt8
  upperLower : UInt8
  power : UInt8
  is24 : Bool
  isHt : Bool
  countryCode : UInt8
  /-- The place of the country IE in the frame. -/
  countryIe : Option Nat
  fortyMhzIntolerant : Bool

/-- What `ie_process` asks of the core, and its last parameters. -/
structure Core where
  isAp : Bool
  hasCoexSm : Bool
  is2040Active : Bool
  is2040Enabled : Bool
  bandCfgIs24 : Bool
  bandCurIs24 : Bool
  checkRssiThreshold : UInt8 → Bool
  countryToCountryCode : Bytes → UInt8
  bigEndian : Bool
  individuallyAddressed : Bool
  isBeacon : Bool
  isFromAssocAp : Bool

/-- The loop is at `pos` in the frame, and `flen` bytes are left. -/
structure IeState where
  mem : Bytes
  pos : Nat
  flen : Int
  bss : BssData
  calls : List CoexCall

def memcpy (dst : Bytes) (offs : Nat) (src : Bytes) (n : Nat) : Bytes :=
  fun i => if offs ≤ i ∧ i < offs + n then src (i - offs) else dst i

/-! ## The handlers

Each gets the data of the element, which may be read past its end, and its length. -/

/-- The bit of a rate in the rate sets. -/
def phyRate (val : UInt8) : UInt32 :=
  match (val &&& 0x7F).toNat with
  | 12 => 0x1
  | 18 => 0x2
  | 24 => 0x4
  | 36 => 0x8
  | 48 => 0x10
  | 72 => 0x20
  | 96 => 0x40
  | 108 => 0x80
  | 2 => 0x800
  | 4 => 0x1100
  | 11 => 0x2200
  | 22 => 0x4400
  | _ => 0

/-- The loop of `ie_extract_phy_rates`. -/
def addPhyRate (data : Bytes) (bss : BssData) (i : Nat) : BssData :=
  let rate := phyRate (data i)
  { bss with
    operationalRateSet := bss.operationalRateSet ||| rate
    basicRateSet := if data i &&& 0x80 ≠ 0 then bss.basicRateSet ||| rate else bss.basicRateSet }

def ieExtractPhyRates (data : Bytes) (length : Nat) (bss : BssData) : BssData :=
  let bss := (List.range length).foldl (addPhyRate data) bss
  if bss.operationalRateSet &&& 0x7F00 ≠ 0 then { bss with is24 := true } else bss

def ieExtractHtInfo (data : Bytes) (length : Nat) (bss : BssData) : BssData :=
  if length < 2 then bss
  else
    let bss := { bss with channel := (data 0).toUInt16 }
    match (data 1 &&& 0x07).toNat with
    | 7 => { bss with spectrum := 1, upperLower := 1, secondaryChannelOffset := 0x30 }
    | 5 => { bss with spectrum := 1, upperLower := 0, secondaryChannelOffset := 0x10 }
    | _ => { bss with spectrum := 0, upperLower := 0, secondaryChannelOffset := 0 }

/-- A number of two bytes, the lower byte first. -/
def le16 (data : Bytes) (i : Nat) : UInt16 := (data i).toUInt16 ||| (data (i + 1)).toUInt16 <<< 8

/-- `ie_extract_htcap_info`, but for the conversion of the first field in place. -/
def ieExtractHtcapInfo (core : Core) (data : Bytes) (length : Nat) (bss : BssData) :
    BssData × List CoexCall :=
  if length < 7 then (bss, [])
  else
    let intolerant : Bool := le16 data 0 &&& 0x4000 ≠ 0
    let detected := intolerant && core.hasCoexSm && core.is2040Active && !core.isAp &&
      core.checkRssiThreshold bss.maxRssi
    ({ bss with
        fortyMhzIntolerant := intolerant
        operationalRateSet := bss.operationalRateSet ||| (data 3).toUInt32 <<< 15 |||
          (data 4).toUInt32 <<< 23 ||| (data 7).toUInt32 <<< 31 },
      if detected then [.staIntoleranceDetected] else [])

/-- On a big-endian host the capabilities are swapped in the frame itself. -/
def htcapInPlace (core : Core) (mem : Bytes) (at' length : Nat) : Bytes :=
  if core.bigEndian ∧ 7 ≤ length then
    fun i => if i = at' then mem (at' + 1) else if i = at' + 1 then mem at' else mem i
  else mem

def ieExtractCoexElInfo (data : Bytes) (length : Nat) : Option CoexElement :=
  if length ≠ 1 then none
  else
    some
      { informationRequest := data 0 &&& 0x1 ≠ 0
        fortyMhzIntolerant := data 0 &&& 0x2 ≠ 0
        twentyMhzBssWidthRequest := data 0 &&& 0x4 ≠ 0
        obssScanningExemptionRequest := data 0 &&& 0x8 ≠ 0
        obssScanningExemptionGrant := data 0 &&& 0x10 ≠ 0 }

def processCoexistence (core : Core) (data : Bytes) (length : Nat) (bss : BssData) :
    List CoexCall :=
  if core.is2040Active then
    match ieExtractCoexElInfo data length with
    | none => []
    | some el =>
      if core.checkRssiThreshold bss.maxRssi then
        if core.isAp then [.apProcessElement el] else [.staProcessElement el]
      else []
  else []

def processIntolerantChannels (core : Core) (data : Bytes) (length : Nat) : List CoexCall :=
  if core.is2040Enabled ∧ core.bandCfgIs24 ∧ core.isAp ∧ core.individuallyAddressed ∧
      2 ≤ length ∧ length ≤ 31 then
    [.apProcessObssScanResults (data 0) ((List.range (length - 1)).map fun i => data (i + 1))]
  else []

def processObssScanParameters (core : Core) (data : Bytes) (length : Nat) : List CoexCall :=
  if core.is2040Enabled ∧ core.bandCurIs24 ∧ core.isAp = false ∧
      (core.individuallyAddressed ∨ core.isBeacon) ∧ core.isFromAssocAp ∧ length = 14 then
    [.staApplyApParameters ((List.range 7).map fun i => le16 data (2 * i))]
  else []

/-- `BSS_ESSID_MAX_SIZE` is 32. -/
def copySsid (data : Bytes) (length : Nat) (essid : Bytes) : Bytes :=
  let copyLength := if length > 32 then 32 else length
  fun i => if i = copyLength then 0 else memcpy essid 0 data copyLength i

def wpaOuiType : List UInt8 := [0x00, 0x50, 0xF2, 0x01]

def wpsOuiType : List UInt8 := [0x00, 0x50, 0xF2, 0x04]

/-- `memcmp` finds no difference. -/
def startsWith (data : Bytes) (bytes : List UInt8) : Bool :=
  (List.range bytes.length).map data = bytes

/-- What the switch over the identifier of an element writes to `bss_data`. -/
def ieBss (core : Core) (data : Bytes) (length pos : Nat) (bss : BssData) : IeId → BssData
  | .extSuppRates => ieExtractPhyRates data length { bss with is24 := true }
  | .supportedRates => ieExtractPhyRates data length bss
  | .htInformation => ieExtractHtInfo data length bss
  | .ssid => { bss with essid := copySsid data length bss.essid }
  | .rsn => { bss with rsnOffs := bss.ieUsedLength }
  | .vendorSpecific =>
    if startsWith data wpaOuiType then { bss with wpaOffs := bss.ieUsedLength }
    else if startsWith data wpsOuiType then { bss with wpsOffs := bss.ieUsedLength }
    else bss
  | .dsParamSet => { bss with channel := (data 0).toUInt16 }
  | .htCapabilities => (ieExtractHtcapInfo core data length { bss with isHt := true }).1
  | .pwrConstraint => { bss with power := data 0 }
  | .country =>
    { bss with countryCode := core.countryToCountryCode data, countryIe := some pos }
  | .coexistence | .intolerantChannelsReport | .obssScanParameters | .other => bss

/-- What it tells to the coexistence state machine. -/
def ieCalls (core : Core) (data : Bytes) (length : Nat) (bss : BssData) : IeId → List CoexCall
  | .htCapabilities => (ieExtractHtcapInfo core data length bss).2
  | .coexistence => processCoexistence core data length bss
  | .intolerantChannelsReport => processIntolerantChannels core data length
  | .obssScanParameters => processObssScanParameters core data length
  | _ => []

/-- The element at `pos` is handled. -/
def handleIe (core : Core) (s : IeState) : IeState :=
  let data : Bytes := fun i => s.mem (s.pos + ieHead + i)
  let length := (s.mem (s.pos + 1)).toNat
  let id := IeId.ofByte (s.mem s.pos)
  { s with
    bss := ieBss core data length s.pos s.bss id
    calls := s.calls ++ ieCalls core data length s.bss id
    mem :=
      if id = .htCapabilities then htcapInPlace core s.mem (s.pos + ieHead) length else s.mem }

/-! ## The loop -/

/-- An element that is not empty is stored. -/
def storeIe (s : IeState) : IeState :=
  let length := (s.mem (s.pos + 1)).toNat
  { s with
    bss :=
      { s.bss with
        infoElements := memcpy s.bss.infoElements s.bss.ieUsedLength (fun i => s.mem (s.pos + i))
          (length + ieHead) } }

/-- One turn of the loop, or its end. The condition of the loop compares `flen` as an unsigned
number. -/
def ieStep (core : Core) (s : IeState) : Option IeState :=
  if s.flen % 2 ^ 32 ≤ ieHead then none
  else
    let length := (s.mem (s.pos + 1)).toNat
    if (length + ieHead : Int) > s.flen then none
    else if s.bss.ieUsedLength + length + ieHead > maxInfoElementsLength then none
    else
      let t :=
        if length ≠ 0 then
          let t := handleIe core (storeIe s)
          { t with bss := { t.bss with ieUsedLength := t.bss.ieUsedLength + (length + ieHead) } }
        else s
      some { t with pos := s.pos + (length + ieHead), flen := s.flen - (length + ieHead) }

/-- The loop, when it ends within `fuel` turns. -/
def ieLoop (core : Core) : Nat → IeState → Option IeState
  | 0, _ => none
  | fuel + 1, s =>
    match ieStep core s with
    | none => some s
    | some t => ieLoop core fuel t

def start (fbuf : Bytes) (flen : Int32) (bss : BssData) : IeState where
  mem := fbuf
  pos := 0
  flen := flen.toInt
  bss :=
    { bss with
      basicRateSet := 0
      operationalRateSet := 0
      ieUsedLength := 0
      rsnOffs := noOffs
      wpaOffs := noOffs
      wpsOffs := noOffs }
  calls := []

/-- BSSs that cause MAC failures afterward are discarded. -/
def discard (bss : BssData) : BssData :=
  if (bss.is24 = false ∧ bss.basicRateSet &&& 0x15 ≠ 0x15) ∨ (bss.is24 ∧ bss.channel > 14) ∨
      bss.channel = 0 ∨ bss.operationalRateSet = 0 ∨
      (bss.spectrum ≠ 0 ∧ bss.operationalRateSet &&& 0xFFFF8000 = 0) then
    { bss with essid := fun i => if i < 33 then 0 else bss.essid i }
  else bss

/-- `ie_process`. -/
def ieProcess (core : Core) (fuel : Nat) (fbuf : Bytes) (flen : Int32) (bss : BssData) :
    Option BssData :=
  (ieLoop core fuel (start fbuf flen bss)).map fun s => discard s.bss

end Wave300.Frame
