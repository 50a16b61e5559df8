import Mathlib.Data.List.TakeWhile
import Wave300.Cache.Order
import Wave300.Lib.Endian
import Wave300.Lib.Memory

/-!
# The scan report to BT-ACS

`core.c`: `bt_acs_send_scan_report` puts a header, a record for each channel and behind it a record
for each of its BSSs into memory that was allocated for them, while one cursor goes through the
cache of BSSs. `bt_acs.h` says where the fields of the records lie; a reader goes by the counts in
them.

The array of channels comes from AOCS, with gaps. What is left of the memory between the fields is
what was there before.
-/

namespace Wave300.ScanReport

open Lib

/-- `BT_ACS_EVNT_ID_SCAN_REPORT` -/
def btAcsEvntIdScanReport : Nat := 1
/-- `BT_ACS_MAX_BSS_PER_CHANNEL` -/
def btAcsMaxBssPerChannel : Nat := 10
/-- `sizeof(struct bt_acs_scan_report_t)` -/
def scanReportSize : Nat := 12
/-- `sizeof(struct bt_acs_channel_info_t)` -/
def channelInfoSize : Nat := 12
/-- `sizeof(struct bt_acs_bss_info_t)` -/
def bssInfoSize : Nat := 48

/-- What the report takes from an entry of the cache. -/
structure CachedBss extends Cache.BssData where
  spectrum : UInt8
  upperLower : UInt8
  fortyMhzIntolerant : UInt8

/-- The list of the cache. It counts its entries in 32 bits. -/
structure BssList where
  entries : List CachedBss
  depth : entries.length < 2 ^ 32

/-- `mtlk_aocs_channel_data_t`. The numbers of BSSs that AOCS counts are overwritten. -/
structure ChannelData where
  channel : UInt16
  flNoiseMetric : UInt8

/-- `mtlk_aocs_evt_select_t`, and `mtlk_aocs_get_spectrum_mode`. -/
structure Selected where
  channel : UInt16
  bonding : UInt8
  spectrumMode : UInt8

/-- The fields of `bt_acs_bss_info_t` -/
structure BssInfo where
  bssid : Cache.Bssid
  ssid : List UInt8
  rssi : UInt8
  bonding : UInt8
  isIntolerant : UInt8
  deriving DecidableEq

/-- The fields of `bt_acs_channel_info_t`, and the BSSs of the channel. -/
structure ChannelInfo where
  num : Nat
  floorNoise : UInt8
  bsss : List BssInfo
  deriving DecidableEq

/-- `BT_ACS_BONDING_LOWER`, `BT_ACS_BONDING_UPPER` or `BT_ACS_BONDING_NONE`, where 1 is
`ALTERNATE_LOWER`. -/
def btAcsBonding (spectrum upperLower : UInt8) : UInt8 :=
  if spectrum ≠ 0 then if upperLower = 1 then 255 else 1 else 0

def bssInfo (place : CachedBss) : BssInfo where
  bssid := place.bssid
  ssid := place.essid.toList
  rssi := place.maxRssi
  bonding := btAcsBonding place.spectrum place.upperLower
  isIntolerant := place.fortyMhzIntolerant

/-! ## Writing -/

/-- The fields of a BSS are filled in. -/
def writeBss (m : Nat → UInt8) (p : Nat) (info : BssInfo) : Nat → UInt8 :=
  let m := store m p (toBytes 6 info.bssid.toNat)
  let m := store m (p + 6) info.ssid
  let m := Function.update m (p + 40) info.rssi
  let m := Function.update m (p + 44) info.bonding
  Function.update m (p + 45) info.isIntolerant

/-- The memory, `curr_ptr`, `chan_bss_num`, and the entries from `next` on. -/
structure Filled where
  mem : Nat → UInt8
  curr : Nat
  chanBssNum : Nat
  rest : List CachedBss

/-- The loop over the entries of the cache that are left, for one channel. -/
def bssLoop (num : UInt16) : List CachedBss → Nat → (Nat → UInt8) → Nat → Filled
  | [], chanBssNum, m, curr => ⟨m, curr, chanBssNum, []⟩
  | place :: rest, chanBssNum, m, curr =>
    if num < place.channel then ⟨m, curr, chanBssNum, place :: rest⟩
    else if num = place.channel then
      if chanBssNum < btAcsMaxBssPerChannel then
        bssLoop num rest (chanBssNum + 1) (writeBss m curr (bssInfo place)) (curr + bssInfoSize)
      else bssLoop num rest (chanBssNum + 1) m curr
    else bssLoop num rest chanBssNum m curr

variable (e : Endian) (padding : Nat → Vector UInt8 3)

/-- `chan_info_loc` as it is copied to `chan_info`. -/
def channelBytes (p : Nat) (chan : ChannelData) (bssNum : Nat) : List UInt8 :=
  e.bytes 4 chan.channel.toNat ++ chan.flNoiseMetric :: (padding p).toList ++ e.bytes 4 bssNum

/-- The loop over the channels that are left: the memory and `curr_ptr` at the end. -/
def channelLoop (selected : UInt16) : List ChannelData → List CachedBss → (Nat → UInt8) → Nat →
    (Nat → UInt8) × Nat
  | [], _, m, curr => (m, curr)
  | chan :: chans, prev, m, curr =>
    let m := if chan.channel = selected then Function.update m 6 chan.flNoiseMetric else m
    let filled := bssLoop chan.channel prev 0 m (curr + channelInfoSize)
    channelLoop selected chans filled.rest
      (store filled.mem curr (channelBytes e padding curr chan filled.chanBssNum)) filled.curr

/-- The fields of the header that are known before the channels. -/
def writeHeader (m : Nat → UInt8) (sel : Selected) (chanCnt : Nat) : Nat → UInt8 :=
  let m := store m 0 (e.bytes 4 btAcsEvntIdScanReport)
  let m := Function.update m 4 sel.channel.toUInt8
  let m := Function.update m 5 (btAcsBonding sel.spectrumMode sel.bonding)
  Function.update m 8 (UInt8.ofNat chanCnt)

/-- A message: the bytes before `size`. -/
structure Message where
  mem : Nat → UInt8
  size : Nat

/-- `scan_report_mem_size` -/
def scanReportMemSize (chanCnt maxBssNum : Nat) : Nat :=
  scanReportSize + channelInfoSize * chanCnt + bssInfoSize * maxBssNum

/-- `bt_acs_send_scan_report`, with the memory and the array that it gets. The gaps of the array are
skipped. -/
def btAcsSendScanReport (scanReport : Option (Nat → UInt8))
    (aocsChanArr : Option (List (Option ChannelData))) (bssList : BssList) (sel : Selected) :
    Option Message :=
  match scanReport, aocsChanArr with
  | some m, some arr =>
    let chans := arr.reduceOption
    let (m, curr) := channelLoop e padding sel.channel chans bssList.entries
      (writeHeader e m sel chans.length) scanReportSize
    some ⟨m, curr⟩
  | _, _ => none

/-! ## Reading -/

def readBss (m : Nat → UInt8) (p : Nat) : BssInfo where
  bssid := BitVec.ofNat 48 (ofBytes (slice m p 6))
  ssid := slice m (p + 6) 33
  rssi := m (p + 40)
  bonding := m (p + 44)
  isIntolerant := m (p + 45)

/-- The records of `n` BSSs. -/
def readBsss (m : Nat → UInt8) : Nat → Nat → List BssInfo
  | 0, _ => []
  | n + 1, p => readBss m p :: readBsss m n (p + bssInfoSize)

/-- The records of `n` channels, each with as many BSSs as it says, and where they end. -/
def readChannels (m : Nat → UInt8) : Nat → Nat → List ChannelInfo × Nat
  | 0, p => ([], p)
  | n + 1, p =>
    let bssNum := e.load (slice m (p + 8) 4)
    let chan : ChannelInfo :=
      ⟨e.load (slice m p 4), m (p + 4), readBsss m bssNum (p + channelInfoSize)⟩
    let (chans, q) := readChannels m n (p + channelInfoSize + bssInfoSize * bssNum)
    (chan :: chans, q)

/-- A report as its own counts say. -/
def readReport (m : Nat → UInt8) : List ChannelInfo × Nat :=
  readChannels e m (m 8).toNat scanReportSize

/-! ## What a report is to say -/

/-- The BSSs of a channel, in the order of the cache. -/
def bsssOf (cache : List CachedBss) (num : UInt16) : List CachedBss :=
  cache.filter fun place => place.channel = num

/-- The first BSSs of a channel. -/
def described (cache : List CachedBss) (chan : ChannelData) : ChannelInfo where
  num := chan.channel.toNat
  floorNoise := chan.flNoiseMetric
  bsss := ((bsssOf cache chan.channel).take btAcsMaxBssPerChannel).map bssInfo

/-- Whoever gets the bytes of a message reads the channels in it and comes to its end, and the
message was written within the memory that was allocated. -/
structure SelfDescribing (before : Nat → UInt8) (chans : List ChannelData) (cache : List CachedBss)
    (msg : Message) : Prop where
  reads : ∀ got : Nat → UInt8, (∀ j < msg.size, got j = msg.mem j) →
    readReport e got = (chans.map (described cache), msg.size)
  fits : msg.size ≤ scanReportMemSize chans.length cache.length
  inside : ChangesIn [(0, scanReportMemSize chans.length cache.length)] before msg.mem

/-! ## Records of BSSs -/

variable {e padding} {m m' : Nat → UInt8} {p : Nat} {info : BssInfo} {infos : List BssInfo}

theorem writeBss_changesIn (ssid : info.ssid.length = 33) :
    ChangesIn [(p, bssInfoSize)] m (writeBss m p info) := by
  intro j out
  have beside := List.forall_mem_singleton.1 out
  unfold bssInfoSize at beside
  dsimp only at beside
  unfold writeBss
  rw [Function.update_of_ne (by omega), Function.update_of_ne (by omega),
    Function.update_of_ne (by omega), store_outside (by omega),
    store_outside (by rw [length_toBytes]; omega)]

theorem readBss_writeBss (ssid : info.ssid.length = 33) : readBss (writeBss m p info) p = info := by
  obtain ⟨bssid, essid, rssi, bonding, intolerant⟩ := info
  have first : slice (writeBss m p ⟨bssid, essid, rssi, bonding, intolerant⟩) p 6 =
      toBytes 6 bssid.toNat := by
    have kept : slice (writeBss m p ⟨bssid, essid, rssi, bonding, intolerant⟩) p 6 =
        slice (store m p (toBytes 6 bssid.toNat)) p 6 := by
      apply slice_congr
      intro j low high
      unfold writeBss
      dsimp only
      rw [Function.update_of_ne (by omega), Function.update_of_ne (by omega),
        Function.update_of_ne (by omega), store_outside (by omega)]
    rw [kept, slice_store (length_toBytes ..)]
  have second : slice (writeBss m p ⟨bssid, essid, rssi, bonding, intolerant⟩) (p + 6) 33 =
      essid := by
    have kept : slice (writeBss m p ⟨bssid, essid, rssi, bonding, intolerant⟩) (p + 6) 33 =
        slice (store (store m p (toBytes 6 bssid.toNat)) (p + 6) essid) (p + 6) 33 := by
      apply slice_congr
      intro j low high
      unfold writeBss
      dsimp only
      rw [Function.update_of_ne (by omega), Function.update_of_ne (by omega),
        Function.update_of_ne (by omega)]
    rw [kept, slice_store ssid]
  simp only [readBss, first, second]
  have back : BitVec.ofNat 48 (ofBytes (toBytes 6 bssid.toNat)) = bssid := by
    have below : bssid.toNat < 256 ^ 6 := bssid.isLt
    rw [ofBytes_toBytes, Nat.mod_eq_of_lt below, BitVec.ofNat_toNat, BitVec.setWidth_eq]
  simp [back, writeBss]

theorem readBss_congr (same : ∀ j, p ≤ j → j < p + bssInfoSize → m j = m' j) :
    readBss m p = readBss m' p := by
  unfold bssInfoSize at same
  have bssid : slice m p 6 = slice m' p 6 :=
    slice_congr fun j low high => same j low (by omega)
  have ssid : slice m (p + 6) 33 = slice m' (p + 6) 33 :=
    slice_congr fun j low high => same j (by omega) (by omega)
  simp only [readBss, bssid, ssid, same (p + 40) (by omega) (by omega),
    same (p + 44) (by omega) (by omega), same (p + 45) (by omega) (by omega)]

theorem readBsss_congr {n : Nat} (same : ∀ j, p ≤ j → j < p + bssInfoSize * n → m j = m' j) :
    readBsss m n p = readBsss m' n p := by
  induction n generalizing p with
  | zero => rfl
  | succ n ih =>
    rw [Nat.mul_succ] at same
    rw [readBsss, readBsss, readBss_congr fun j low high => same j low (by omega),
      ih fun j low high => same j (by omega) (by omega)]

@[simp] theorem length_readBsss (m : Nat → UInt8) (n p : Nat) : (readBsss m n p).length = n := by
  induction n generalizing p with
  | zero => rfl
  | succ n ih => rw [readBsss, List.length_cons, ih]

/-- The records of some BSSs are put from an address on. -/
structure Fills (m : Nat → UInt8) (p : Nat) (infos : List BssInfo) (m' : Nat → UInt8) (q : Nat) :
    Prop where
  ends : q = p + bssInfoSize * infos.length
  change : ChangesIn [(p, bssInfoSize * infos.length)] m m'
  read : readBsss m' infos.length p = infos

theorem Fills.nil : Fills m p [] m p := ⟨rfl, ChangesIn.refl _ m, rfl⟩

theorem Fills.cons {q : Nat} (ssid : info.ssid.length = 33)
    (rest : Fills (writeBss m p info) (p + bssInfoSize) infos m' q) :
    Fills m p (info :: infos) m' q := by
  have size : bssInfoSize * (info :: infos).length = bssInfoSize + bssInfoSize * infos.length := by
    rw [List.length_cons, Nat.mul_succ, Nat.add_comm]
  constructor
  case ends => rw [size, rest.ends, Nat.add_assoc]
  case change =>
    rw [size]
    have here := writeBss_changesIn (m := m) (p := p) ssid
    apply (here.widen le_rfl (by omega)).trans
    exact rest.change.widen (by omega) (by omega)
  case read =>
    have kept : readBss m' p = readBss (writeBss m p info) p := by
      apply readBss_congr
      intro j low high
      apply rest.change
      exact List.forall_mem_singleton.2 (.inl high)
    rw [List.length_cons, readBsss, kept, readBss_writeBss ssid, rest.read]

/-! ## One channel -/

variable {num : UInt16} {l : List CachedBss}

/-- The BSSs of a channel before the first entry of a later one. -/
def upTo (num : UInt16) (l : List CachedBss) : List CachedBss :=
  (l.takeWhile fun place => place.channel ≤ num).filter fun place => place.channel = num

/-- What the loop over the entries does. -/
structure Took (num : UInt16) (l : List CachedBss) (count : Nat) (m : Nat → UInt8) (p : Nat)
    (filled : Filled) : Prop where
  counts : filled.chanBssNum = count + (upTo num l).length
  rest : filled.rest = l.dropWhile fun place => place.channel ≤ num
  fills : Fills m p (((upTo num l).take (btAcsMaxBssPerChannel - count)).map bssInfo) filled.mem
    filled.curr

theorem length_ssid (place : CachedBss) : (bssInfo place).ssid.length = 33 := by
  simp [bssInfo]

theorem bssLoop_took (num : UInt16) (l : List CachedBss) (count : Nat) (m : Nat → UInt8) (p : Nat) :
    Took num l count m p (bssLoop num l count m p) := by
  induction l generalizing count m p with
  | nil => exact ⟨rfl, rfl, by simpa [upTo, bssLoop] using Fills.nil⟩
  | cons place rest ih =>
    unfold bssLoop
    split
    case isTrue later =>
      have stop : ¬place.channel ≤ num := UInt16.not_le.2 later
      have none : upTo num (place :: rest) = [] := by simp [upTo, stop]
      constructor
      case counts => rw [none]; rfl
      case rest => simp [stop]
      case fills =>
        rw [none, List.take_nil]
        exact Fills.nil
    case isFalse within =>
      have le : place.channel ≤ num := UInt16.not_lt.1 within
      have skip : (place :: rest).dropWhile (fun place => place.channel ≤ num) =
          rest.dropWhile fun place => place.channel ≤ num := by simp [le]
      split
      case isTrue same =>
        have here : upTo num (place :: rest) = place :: upTo num rest := by
          simp [upTo, ← same]
        split
        case isTrue room =>
          have took := ih (count + 1) (writeBss m p (bssInfo place)) (p + bssInfoSize)
          constructor
          case counts => rw [took.counts, here, List.length_cons]; omega
          case rest => rw [took.rest, skip]
          case fills =>
            obtain ⟨k, left⟩ := Nat.exists_eq_add_of_lt room
            have one : btAcsMaxBssPerChannel - count = k + 1 := by omega
            have fills := took.fills
            rw [show btAcsMaxBssPerChannel - (count + 1) = k by omega] at fills
            rw [here, one, List.take_succ_cons, List.map_cons]
            exact fills.cons (length_ssid place)
        case isFalse full =>
          have took := ih (count + 1) m p
          have no : btAcsMaxBssPerChannel - count = 0 := by omega
          constructor
          case counts => rw [took.counts, here, List.length_cons]; omega
          case rest => rw [took.rest, skip]
          case fills =>
            have fills := took.fills
            rw [show btAcsMaxBssPerChannel - (count + 1) = 0 by omega] at fills
            rw [no]
            exact fills
      case isFalse other =>
        have here : upTo num (place :: rest) = upTo num rest := by
          simp [upTo, le, Ne.symm other]
        have took := ih count m p
        constructor
        case counts => rw [took.counts, here]
        case rest => rw [took.rest, skip]
        case fills => rw [here]; exact took.fills

/-! ## The channels -/

theorem length_channelBytes (p : Nat) (chan : ChannelData) (n : Nat) :
    (channelBytes e padding p chan n).length = channelInfoSize := by
  simp [channelBytes, channelInfoSize]

/-- A channel record that is read where it is. -/
theorem read_channelBytes {chan : ChannelData} {n : Nat}
    (here : slice m p channelInfoSize = channelBytes e padding p chan n) (small : n < 2 ^ 32) :
    e.load (slice m p 4) = chan.channel.toNat ∧ m (p + 4) = chan.flNoiseMetric ∧
      e.load (slice m (p + 8) 4) = n := by
  have num : slice m p 4 = e.bytes 4 chan.channel.toNat := by
    rw [← slice_take (k := 4) (l := channelInfoSize) (by decide), here, channelBytes,
      List.append_assoc, List.take_left' (Endian.length_bytes ..)]
  have count : slice m (p + 8) 4 = e.bytes 4 n := by
    have behind := slice_drop (m := m) (a := p) (k := 8) (l := channelInfoSize) (by decide)
    rw [here, channelBytes, List.drop_left' (by simp)] at behind
    exact behind.symm
  have noise : m (p + 4) = chan.flNoiseMetric := by
    have all := slice_drop (m := m) (a := p) (k := 4) (l := channelInfoSize) (by decide)
    rw [here, channelBytes, List.append_assoc, List.drop_left' (Endian.length_bytes ..)] at all
    have first := congrArg List.head? all
    simpa [slice, channelInfoSize, List.range_succ_eq_map] using first.symm
  have channel : chan.channel.toNat < 256 ^ 4 :=
    Nat.lt_trans chan.channel.toNat_lt (by decide)
  have counted : n < 256 ^ 4 := small
  rw [num, count, Endian.load_bytes, Endian.load_bytes, Nat.mod_eq_of_lt channel,
    Nat.mod_eq_of_lt counted]
  exact ⟨rfl, noise, rfl⟩

/-- Where the loop over the channels ends, and what it changes. -/
structure Extends (m : Nat → UInt8) (p chans entries : Nat) (m' : Nat → UInt8) (q : Nat) :
    Prop where
  le : p ≤ q
  fits : q ≤ p + channelInfoSize * chans + bssInfoSize * entries
  change : ChangesIn [(6, 1), (p, q - p)] m m'

theorem length_upTo_add (num : UInt16) (l : List CachedBss) :
    (upTo num l).length + (l.dropWhile fun place => place.channel ≤ num).length ≤ l.length := by
  have kept := List.length_filter_le (fun place : CachedBss => decide (place.channel = num))
    (l.takeWhile fun place => place.channel ≤ num)
  have all := congrArg List.length
    (List.takeWhile_append_dropWhile (p := fun place : CachedBss => place.channel ≤ num) (l := l))
  rw [List.length_append] at all
  unfold upTo
  omega

variable (e padding) in
theorem channelLoop_extends (selected : UInt16) (chans : List ChannelData) (l : List CachedBss)
    (m : Nat → UInt8) (p : Nat) :
    Extends m p chans.length l.length (channelLoop e padding selected chans l m p).1
      (channelLoop e padding selected chans l m p).2 := by
  induction chans generalizing l m p with
  | nil => exact ⟨le_rfl, Nat.le_add_right_of_le (Nat.le_add_right ..), ChangesIn.refl _ m⟩
  | cons chan chans ih =>
    rw [channelLoop]
    have took := bssLoop_took chan.channel l 0
      (if chan.channel = selected then Function.update m 6 chan.flNoiseMetric else m)
      (p + channelInfoSize)
    generalize bssLoop chan.channel l 0 _ (p + channelInfoSize) = filled at took ⊢
    obtain ⟨le, fits, change⟩ := ih filled.rest
      (store filled.mem p (channelBytes e padding p chan filled.chanBssNum)) filled.curr
    have ends := took.fills.ends
    have total := length_upTo_add chan.channel l
    rw [← took.rest] at total
    rw [List.length_map, List.length_take] at ends
    unfold channelInfoSize bssInfoSize at *
    constructor
    case le => omega
    case fits =>
      rw [List.length_cons]
      unfold channelInfoSize bssInfoSize
      omega
    case change =>
      intro j out
      obtain ⟨noise, out⟩ := List.forall_mem_cons.1 out
      have beside := List.forall_mem_singleton.1 out
      dsimp only at noise beside
      rw [change j (by simp [Outside]; omega),
        store_outside (by simp [length_channelBytes, channelInfoSize]; omega),
        took.fills.change j (by simp [Outside, bssInfoSize]; omega)]
      split
      · exact Function.update_of_ne (by omega) ..
      · rfl

/-! ## Reading it back -/

theorem upTo_eq_bsssOf (sorted : l.Pairwise (·.channel ≤ ·.channel)) :
    upTo num l = bsssOf l num := by
  induction l with
  | nil => rfl
  | cons place rest ih =>
    obtain ⟨first, later⟩ := List.pairwise_cons.1 sorted
    have ih := ih later
    unfold upTo bsssOf at ih ⊢
    by_cases le : place.channel ≤ num
    · rw [List.takeWhile_cons_of_pos (by simpa using le), List.filter_cons, List.filter_cons, ih]
    · have past : ∀ place' ∈ place :: rest, place'.channel ≠ num := by
        rintro place' mem rfl
        rcases List.mem_cons.1 mem with rfl | mem
        · exact le UInt16.le_rfl
        · exact le (first place' mem)
      rw [List.takeWhile_cons_of_neg (by simpa using le), List.filter_nil]
      refine (List.filter_eq_nil_iff.2 fun place' mem => ?_).symm
      simpa using past place' mem

/-- The entries that the loop has gone by are of no later channel. -/
theorem bsssOf_dropWhile {later : UInt16} (lt : num < later) :
    bsssOf (l.dropWhile fun place => place.channel ≤ num) later = bsssOf l later := by
  have none : (l.takeWhile fun place => place.channel ≤ num).filter
      (fun place => place.channel = later) = [] := by
    refine List.filter_eq_nil_iff.2 fun place mem => ?_
    have le : place.channel ≤ num := by simpa using List.mem_takeWhile_imp mem
    have ne : place.channel ≠ later := by
      rintro rfl
      exact UInt16.not_le.2 lt le
    simpa using ne
  have all := congrArg (List.filter fun place : CachedBss => place.channel = later)
    (List.takeWhile_append_dropWhile (p := fun place : CachedBss => place.channel ≤ num) (l := l))
  rw [List.filter_append, none, List.nil_append] at all
  exact all

theorem described_dropWhile {later : ChannelData} (lt : num < later.channel) :
    described (l.dropWhile fun place => place.channel ≤ num) later = described l later := by
  rw [described, bsssOf_dropWhile lt, described]

/-- A reader gets what was to be said exactly if no channel has more BSSs than are put in. -/
theorem channelLoop_reads_iff {selected : UInt16} {chans : List ChannelData} {got : Nat → UInt8}
    (sorted : l.Pairwise (·.channel ≤ ·.channel))
    (ascending : chans.Pairwise (·.channel < ·.channel)) (depth : l.length < 2 ^ 32) (low : 7 ≤ p)
    (same : ∀ j, p ≤ j → j < (channelLoop e padding selected chans l m p).2 →
      got j = (channelLoop e padding selected chans l m p).1 j) :
    readChannels e got chans.length p =
        (chans.map (described l), (channelLoop e padding selected chans l m p).2) ↔
      ∀ chan ∈ chans, (bsssOf l chan.channel).length ≤ btAcsMaxBssPerChannel := by
  induction chans generalizing l m p with
  | nil => exact ⟨fun _ => List.forall_mem_nil _, fun _ => rfl⟩
  | cons chan chans ih =>
    rw [channelLoop] at same ⊢
    have took := bssLoop_took chan.channel l 0
      (if chan.channel = selected then Function.update m 6 chan.flNoiseMetric else m)
      (p + channelInfoSize)
    generalize bssLoop chan.channel l 0 _ (p + channelInfoSize) = filled at took same ⊢
    obtain ⟨first, later⟩ := List.pairwise_cons.1 ascending
    have counts := took.counts
    have fills := took.fills
    rw [upTo_eq_bsssOf sorted] at counts fills
    rw [Nat.zero_add] at counts
    have small : filled.chanBssNum < 2 ^ 32 := by
      rw [counts]
      exact Nat.lt_of_le_of_lt (List.length_filter_le ..) depth
    have ends := fills.ends
    obtain ⟨le, -, change⟩ := channelLoop_extends e padding selected chans
      filled.rest (store filled.mem p (channelBytes e padding p chan filled.chanBssNum)) filled.curr
    have kept : ∀ j, p ≤ j → j < filled.curr →
        got j = store filled.mem p (channelBytes e padding p chan filled.chanBssNum) j := by
      intro j from_p below
      rw [same j from_p (Nat.lt_of_lt_of_le below le)]
      exact change j (by simp [Outside]; omega)
    have record : slice got p channelInfoSize =
        channelBytes e padding p chan filled.chanBssNum := by
      rw [← slice_store (m := filled.mem) (a := p) (length_channelBytes p chan filled.chanBssNum)]
      exact slice_congr fun j from_p below => kept j from_p (by omega)
    obtain ⟨num, noise, bssNum⟩ := read_channelBytes record small
    rw [List.length_cons, readChannels, num, noise, bssNum, List.forall_mem_cons, List.map_cons]
    by_cases few : (bsssOf l chan.channel).length ≤ btAcsMaxBssPerChannel
    · rw [Nat.sub_zero, List.take_of_length_le few] at fills
      have bsss : readBsss got filled.chanBssNum (p + channelInfoSize) =
          (bsssOf l chan.channel).map bssInfo := by
        have read := fills.read
        rw [List.length_map, ← counts] at read
        rw [← read]
        apply readBsss_congr
        intro j behind before
        rw [kept j (by omega) (by rw [fills.ends, List.length_map, ← counts]; exact before)]
        exact store_outside (.inr (by rw [length_channelBytes]; exact behind))
      have start : p + channelInfoSize + bssInfoSize * filled.chanBssNum = filled.curr := by
        rw [fills.ends, List.length_map, counts]
      have rest : filled.rest.Pairwise (·.channel ≤ ·.channel) := by
        rw [took.rest]
        exact sorted.sublist (List.dropWhile_sublist _)
      have shorter : filled.rest.length < 2 ^ 32 := by
        rw [took.rest]
        exact Nat.lt_of_le_of_lt (List.dropWhile_sublist _).length_le depth
      have tail := ih rest later shorter (Nat.le_trans low (by omega))
        fun j behind before => same j (by omega) before
      have others : chans.map (described filled.rest) = chans.map (described l) := by
        apply List.map_congr_left
        intro other mem
        rw [took.rest, described_dropWhile (first other mem)]
      have few_others : (∀ other ∈ chans, (bsssOf filled.rest other.channel).length ≤
          btAcsMaxBssPerChannel) ↔
          ∀ other ∈ chans, (bsssOf l other.channel).length ≤ btAcsMaxBssPerChannel := by
        apply forall₂_congr
        intro other mem
        rw [took.rest, bsssOf_dropWhile (first other mem)]
      have here : ChannelInfo.mk chan.channel.toNat chan.flNoiseMetric
          (readBsss got filled.chanBssNum (p + channelInfoSize)) = described l chan := by
        rw [bsss, described, List.take_of_length_le few]
      rw [few_others, others] at tail
      rw [start, here, and_iff_right few, ← tail]
      simp only [Prod.ext_iff, List.cons.injEq, true_and]
    · refine iff_of_false (fun read => few ?_) fun all => few all.1
      have head := congrArg (fun out => (out.1.map fun info => info.bsss.length).head?) read
      simp only [List.map_cons, List.head?_cons, length_readBsss, described, List.length_map,
        List.length_take, Option.some.injEq, counts] at head
      omega

theorem length_readChannels (m : Nat → UInt8) (n p : Nat) :
    (readChannels e m n p).1.length = n := by
  induction n generalizing p with
  | zero => rfl
  | succ n ih => rw [readChannels, List.length_cons, ih]

theorem writeHeader_changesIn (sel : Selected) (n : Nat) :
    ChangesIn [(0, scanReportSize)] m (writeHeader e m sel n) := by
  intro j out
  have behind := List.forall_mem_singleton.1 out
  unfold scanReportSize at behind
  unfold writeHeader
  rw [Function.update_of_ne (by omega), Function.update_of_ne (by omega),
    Function.update_of_ne (by omega), store_outside (by rw [Endian.length_bytes]; omega)]

/-- The message that the loop over the channels leaves behind a header. -/
theorem report_iff {chans : List ChannelData} {cache : List CachedBss} (sel : Selected)
    (sorted : cache.Pairwise (·.channel ≤ ·.channel))
    (ascending : chans.Pairwise (·.channel < ·.channel)) (depth : cache.length < 2 ^ 32)
    {msg : Message} (written : channelLoop e padding sel.channel chans cache
      (writeHeader e m sel chans.length) scanReportSize = (msg.mem, msg.size)) :
    SelfDescribing e m chans cache msg ↔
      chans.length < 256 ∧
        ∀ chan ∈ chans, (bsssOf cache chan.channel).length ≤ btAcsMaxBssPerChannel := by
  have mem := congrArg Prod.fst written
  have size := congrArg Prod.snd written
  dsimp only at mem size
  have loop := channelLoop_extends e padding sel.channel chans cache
    (writeHeader e m sel chans.length) scanReportSize
  rw [mem, size] at loop
  obtain ⟨le, fits, change⟩ := loop
  have counted : (msg.mem 8).toNat = chans.length % 256 := by
    rw [change 8 (by simp [Outside, scanReportSize]), writeHeader, Function.update_self]
    exact UInt8.toNat_ofNat'
  have reads (got : Nat → UInt8) (same : ∀ j < msg.size, got j = msg.mem j) :
      readChannels e got chans.length scanReportSize =
          (chans.map (described cache), msg.size) ↔
        ∀ chan ∈ chans, (bsssOf cache chan.channel).length ≤ btAcsMaxBssPerChannel := by
    rw [← size]
    apply channelLoop_reads_iff sorted ascending depth (by decide)
    intro j _ below
    rw [mem]
    exact same j (size ▸ below)
  constructor
  · intro h
    have read := h.reads msg.mem fun _ _ => rfl
    rw [readReport, counted] at read
    have lengths := congrArg (fun out => out.1.length) read
    rw [length_readChannels, List.length_map] at lengths
    rw [lengths] at read
    exact ⟨by omega, (reads msg.mem fun _ _ => rfl).1 read⟩
  · rintro ⟨short, few⟩
    constructor
    case reads =>
      intro got same
      rw [readReport, same 8 (Nat.lt_of_lt_of_le (by decide) le), counted, Nat.mod_eq_of_lt short]
      exact (reads got same).2 few
    case fits => exact fits
    case inside =>
      have header := writeHeader_changesIn (e := e) (m := m) sel chans.length
      unfold scanReportMemSize
      apply (header.widen le_rfl (by omega)).trans
      apply change.mono
      intro j out
      have beside := List.forall_mem_singleton.1 out
      unfold scanReportSize channelInfoSize bssInfoSize at *
      simp only [Outside, List.forall_mem_cons, List.not_mem_nil, false_imp_iff, implies_true,
        and_true]
      omega

/-- The cache that the operations keep in order is sorted by channel. -/
theorem sorted_of_ordered {s : Cache.ScanCache} (ordered : s.Ordered) {cache : List CachedBss}
    (same : cache.map (·.toBssData) = s.bssList.map (·.bss)) :
    cache.Pairwise (·.channel ≤ ·.channel) := by
  have sorted : (s.bssList.map (·.bss)).Pairwise (·.channel ≤ ·.channel) := by
    apply List.pairwise_map.2
    apply ordered.sorted.imp
    intro a b precedes
    cases precedes with
    | inl lt => exact UInt16.le_of_lt lt
    | inr eq => exact UInt16.le_of_eq eq.1
  rw [← same, List.pairwise_map] at sorted
  exact sorted

/-- A report that is sent describes itself exactly if its number of channels fits into the header
and no listed channel has more BSSs than are put in. -/
theorem scan_report_iff (e : Endian) (padding : Nat → Vector UInt8 3) {before : Nat → UInt8}
    {arr : List (Option ChannelData)} {bssList : BssList} {sel : Selected} {msg : Message}
    (sorted : bssList.entries.Pairwise (·.channel ≤ ·.channel))
    (ascending : arr.reduceOption.Pairwise (·.channel < ·.channel))
    (sent : btAcsSendScanReport e padding (some before) (some arr) bssList sel = some msg) :
    SelfDescribing e before arr.reduceOption bssList.entries msg ↔
      arr.reduceOption.length < 256 ∧ ∀ chan ∈ arr.reduceOption,
        (bsssOf bssList.entries chan.channel).length ≤ btAcsMaxBssPerChannel := by
  obtain rfl := Option.some.inj sent
  exact report_iff sel sorted ascending bssList.depth rfl

/-- A BSS on channel 1. -/
def someBss : CachedBss where
  bssid := 0
  channel := 1
  maxRssi := 0
  essid := Vector.replicate 33 0
  countryIe := none
  is24 := 1
  spectrum := 0
  upperLower := 0
  fortyMhzIntolerant := 0

/-- Two BSSs on channel 1, one on channel 3 and two on channel 6. -/
def someBsss : BssList where
  entries := [someBss, { someBss with bssid := 1 }, { someBss with channel := 3 },
    { someBss with channel := 6 }, { someBss with channel := 6, bssid := 2 }]
  depth := by decide

/-- Channel 3 is not listed. -/
theorem scan_report_two_channels :
    ∃ msg, SelfDescribing .big (fun _ => 0) [⟨1, 0⟩, ⟨6, 40⟩] someBsss.entries msg := by
  have sorted : someBsss.entries.Pairwise (·.channel ≤ ·.channel) := by decide
  have ascending : [none, some ⟨1, 0⟩, none, some ⟨6, 40⟩].reduceOption.Pairwise
      fun (chan chan' : ChannelData) => chan.channel < chan'.channel := by decide
  have sent : btAcsSendScanReport .big (fun _ => Vector.replicate 3 0) (some fun _ => 0)
      (some [none, some ⟨1, 0⟩, none, some ⟨6, 40⟩]) someBsss ⟨1, 0, 0⟩ = some _ := rfl
  exact ⟨_, (scan_report_iff .big _ sorted ascending sent).2 (by decide)⟩

theorem eleven_bsss_misread : ¬∀ (e : Endian) (padding : Nat → Vector UInt8 3)
    (before : Nat → UInt8) (arr : List (Option ChannelData)) (bssList : BssList) (sel : Selected)
    (msg : Message), bssList.entries.Pairwise (·.channel ≤ ·.channel) →
    arr.reduceOption.Pairwise (·.channel < ·.channel) →
    btAcsSendScanReport e padding (some before) (some arr) bssList sel = some msg →
    SelfDescribing e before arr.reduceOption bssList.entries msg := by
  intro always
  have sorted : (List.replicate 11 someBss).Pairwise (·.channel ≤ ·.channel) :=
    List.pairwise_replicate.2 (.inr UInt16.le_rfl)
  have describes := always .big (fun _ => Vector.replicate 3 0) (fun _ => 0) [some ⟨1, 0⟩]
    ⟨List.replicate 11 someBss, by decide⟩ ⟨1, 0, 0⟩ _ sorted (List.pairwise_singleton _ _) rfl
  have few := ((report_iff _ sorted (List.pairwise_singleton _ _) (by decide) rfl).1 describes).2
  exact absurd (few ⟨1, 0⟩ List.mem_cons_self) (by decide)

end Wave300.ScanReport
