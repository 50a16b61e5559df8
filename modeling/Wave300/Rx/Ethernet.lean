import Wave300.Rx.Conversion

/-!
# The Ethernet frame

What `handle_rx_ind` should make of a data frame, and the frames that it spoils.
-/

namespace Wave300.Rx

open Lib

variable {mem : Nat → UInt8} {r : RxInd} {d off l : Nat}

/-- A data frame of a known station that carries data and is no A-MSDU. -/
structure RxInd.Regular (r : RxInd) : Prop where
  data : isData r.frameCtl = true
  known : r.srcSta.isNone = false
  carries : isNullPkt r.frameCtl = false
  single : r.aMsdu = false

/-- ToDS and FromDS. -/
def RxInd.ds (r : RxInd) : Bool × Bool := (getToDS r.frameCtl, getFromDS r.frameCtl)

/-- Where the payload begins: there is a fourth address where both bits are set, and there may be a
QoS field and a security header. -/
def RxInd.headerLen (r : RxInd) : Nat :=
  24 + (if r.ds = (true, true) then 6 else 0) + (if isQosPkt r.frameCtl then 2 else 0) + r.getRscBuf

/-- The payload, without the FCS. -/
def RxInd.payload (r : RxInd) : List UInt8 :=
  slice r.bytes r.headerLen (r.msdulen.toNat - 4 - r.headerLen)

/-- Where DA is, by ToDS and FromDS. -/
def destination : Bool × Bool → Nat
  | (false, false) => addr1
  | (false, true) => addr1
  | (true, false) => addr3
  | (true, true) => addr3

/-- Where SA is, by ToDS and FromDS. -/
def source : Bool × Bool → Nat
  | (false, false) => addr2
  | (false, true) => addr3
  | (true, false) => addr2
  | (true, true) => addr4

/-- The payload begins with LLC and SNAP headers that Ethernet does without. -/
def Encapsulated (payload : List UInt8) : Prop :=
  payload.take 6 = [0xAA, 0xAA, 0x03, 0x00, 0x00, 0x00] ∧
      ¬ ((payload.drop 6).take 2 = [0x80, 0xF3] ∨ (payload.drop 6).take 2 = [0x81, 0x37]) ∨
    payload.take 6 = [0xAA, 0xAA, 0x03, 0x00, 0x00, 0xF8]

instance (payload : List UInt8) : Decidable (Encapsulated payload) :=
  inferInstanceAs (Decidable (_ ∨ _))

/-- The type and what follows it. -/
def typeAndPayload (payload : List UInt8) : List UInt8 :=
  if Encapsulated payload then payload.drop 6 else htons payload.length ++ payload

/-- The frame that an indication stands for. -/
def RxInd.ethernet (r : RxInd) : List UInt8 :=
  slice r.bytes (destination r.ds) ethAlen ++
    (slice r.bytes (source r.ds) ethAlen ++ typeAndPayload r.payload)

/-- The length is written over the end of SA, which is not the same already. -/
def RxInd.SourceSpoilt (r : RxInd) : Prop :=
  r.ds = (true, true) ∧ isQosPkt r.frameCtl = false ∧ r.getRscBuf = 0 ∧ ¬ Encapsulated r.payload ∧
    slice r.bytes (addr4 + 4) 2 ≠ htons r.payload.length

theorem getRscBuf_cases (r : RxInd) : r.getRscBuf = 0 ∨ r.getRscBuf = 8 := by
  simp only [RxInd.getRscBuf]
  split
  · exact .inr rfl
  · exact .inl rfl

theorem getHdrlen_data (data : isData r.frameCtl = true) :
    getHdrlen r.frameCtl + r.getRscBuf = r.headerLen := by
  simp only [getHdrlen, RxInd.headerLen, RxInd.ds, data, if_true, Prod.mk.injEq, Bool.and_eq_true]
  by_cases both : getToDS r.frameCtl = true ∧ getFromDS r.frameCtl = true
  · rw [if_pos both, if_pos both.symm]
  · rw [if_neg both, if_neg fun swapped => both swapped.symm]

theorem nbuf_eq (long : 4 ≤ r.msdulen.toNat) : r.nbuf = ⟨0, r.msdulen.toNat - 4⟩ := by
  have small := r.msdulen.toNat_lt
  simp only [RxInd.nbuf, Nbuf.trim, Nbuf.mk.injEq, true_and]
  omega

theorem encapsulation_eq (mem : Nat → UInt8) (off : Nat) (room : 8 ≤ l) (nbuf : Nbuf)
    (data : nbuf.data = 0) :
    encapsulation mem nbuf off =
      if Encapsulated (slice mem off l) then decapsulate mem off else convert mem nbuf off := by
  have six : (slice mem off l).take 6 = slice mem off 4 ++ slice mem (off + 4) 2 := by
    rw [slice_take (by omega), ← slice_append]
  have type : ((slice mem off l).drop 6).take 2 = slice mem (off + 6) 2 := by
    rw [slice_drop (by omega), slice_take (by omega)]
  have split (hi lo : List UInt8) (four : hi.length = 4) :
      slice mem off 4 ++ slice mem (off + 4) 2 = hi ++ lo ↔
        slice mem off 4 = hi ∧ slice mem (off + 4) 2 = lo := by
    constructor
    · exact fun same => List.append_inj same (by simp [four])
    · rintro ⟨rfl, rfl⟩
      rfl
  have convertible := split [0xAA, 0xAA, 0x03, 0x00] [0x00, 0x00] rfl
  have tunnel := split [0xAA, 0xAA, 0x03, 0x00] [0x00, 0xF8] rfl
  simp only [List.cons_append, List.nil_append] at convertible tunnel
  simp only [encapsulation, data, Nat.zero_add, Encapsulated, six, type, convertible, tunnel]
  by_cases hi : slice mem off 4 = [0xAA, 0xAA, 0x03, 0x00]
  · by_cases lo : slice mem (off + 4) 2 = [0x00, 0x00]
    · by_cases kept : slice mem (off + 6) 2 = [0x80, 0xF3] ∨ slice mem (off + 6) 2 = [0x81, 0x37]
      · simp [hi, lo, kept]
      · simp [hi, lo, kept]
    · simp [hi, lo]
  · simp [hi]

/-- The code takes the addresses from where the table has them. -/
theorem getMacAddrs_eq (fromDS toDS : Bool) (srcAddr dstAddr : Nat) :
    getMacAddrs mem 0 fromDS toDS srcAddr dstAddr =
      store (store mem dstAddr (slice mem (destination (toDS, fromDS)) ethAlen)) srcAddr
        (slice mem (source (toDS, fromDS)) ethAlen) := by
  cases fromDS <;> cases toDS <;> simp [getMacAddrs, destination, source]

/-- A header in front of what a memory holds. -/
theorem slice_header {dst src : List UInt8} (six : dst.length = ethAlen)
    (six' : src.length = ethAlen) :
    slice (store (store mem d dst) (d + ethAlen) src) d (ethAlen + (ethAlen + l)) =
      dst ++ (src ++ slice mem (d + ethAlen + ethAlen) l) := by
  rw [slice_append, slice_append]
  congr 1
  · rw [slice_store_of_disjoint (.inl le_rfl), slice_store six]
  congr 1
  · exact slice_store six'
  rw [slice_store_of_disjoint (.inr (by omega)), slice_store_of_disjoint (.inr (by omega))]

/-- The bytes of a buffer that an Ethernet header was written to. -/
theorem converted_bytes {dst src : Nat} (n : Nat) (fits : d + 12 ≤ n) :
    slice (store (store mem d (slice mem dst ethAlen)) (d + ethAlen) (slice mem src ethAlen)) d
        (n - d) =
      slice mem dst ethAlen ++ (slice mem src ethAlen ++ slice mem (d + 12) (n - (d + 12))) := by
  have parts : n - d = ethAlen + (ethAlen + (n - (d + 12))) := by
    simp only [ethAlen]
    omega
  rw [parts]
  exact slice_header (by simp) (by simp)

theorem headerLen_ge (r : RxInd) : 24 ≤ r.headerLen := by
  simp only [RxInd.headerLen]
  omega

theorem destination_le (ds : Bool × Bool) : destination ds ≤ addr3 := by
  obtain ⟨toDS, fromDS⟩ := ds
  cases toDS <;> cases fromDS <;> decide

theorem source_le (ds : Bool × Bool) : source ds ≤ addr3 ∨ ds = (true, true) := by
  obtain ⟨toDS, fromDS⟩ := ds
  cases toDS <;> cases fromDS <;> decide

/-- The length lies over the fourth address only where no other field is between. -/
theorem source_beside (r : RxInd) : source r.ds + ethAlen + 2 ≤ r.headerLen ∨
    r.ds = (true, true) ∧ isQosPkt r.frameCtl = false ∧ r.getRscBuf = 0 ∧ r.headerLen = 30 := by
  have long := headerLen_ge r
  obtain third | fourth := source_le r.ds
  · left
    simp only [addr3, addr2, addr1, ethAlen] at *
    omega
  have is : source r.ds = 24 := by
    rw [fourth]
    rfl
  simp only [RxInd.headerLen, fourth, if_true] at *
  cases qos : isQosPkt r.frameCtl with
  | true =>
    left
    simp only [is, ethAlen, if_true]
    omega
  | false =>
    obtain none | eight := getRscBuf_cases r
    · right
      simp [none]
    · left
      simp [is, ethAlen, eight]

/-- The frame as it is made where the LLC header goes. -/
theorem decapsulated_bytes {n H : Nat} {dst src : Nat} (low : 6 ≤ H) (fits : H + 8 ≤ n) :
    slice (store (store mem (H - 6) (slice mem dst ethAlen)) (H - 6 + ethAlen)
        (slice mem src ethAlen)) (H - 6) (n - (H - 6)) =
      slice mem dst ethAlen ++ (slice mem src ethAlen ++ (slice mem H (n - H)).drop 6) := by
  rw [converted_bytes n (by omega), slice_drop (by omega)]
  congr 3 <;> omega

/-- The frame as it is made where the length is written. -/
theorem lengthed_bytes {n H : Nat} {dst src : Nat} {bytes : List UInt8} (two : bytes.length = 2)
    (low : 14 ≤ H) (fits : H ≤ n) (m : Nat → UInt8) (is : m = store mem (H - 2) bytes) :
    slice (store (store m (H - 14) (slice m dst ethAlen)) (H - 14 + ethAlen) (slice m src ethAlen))
        (H - 14) (n - (H - 14)) =
      slice m dst ethAlen ++ (slice m src ethAlen ++ (bytes ++ slice mem H (n - H))) := by
  have from2 : H - 14 + 12 = H - 2 := by omega
  have parts : n - (H - 2) = 2 + (n - H) := by omega
  have behind : H - 2 + 2 = H := by omega
  rw [converted_bytes n (by omega), from2, parts, slice_append, behind, is, slice_store two,
    slice_store_of_disjoint (a := H) (.inr (by omega))]

/-- The memory with an Ethernet header, from the addresses that the table names. -/
def RxInd.headed (r : RxInd) (mem : Nat → UInt8) (d : Nat) : Nat → UInt8 :=
  store (store mem d (slice mem (destination r.ds) ethAlen)) (d + ethAlen)
    (slice mem (source r.ds) ethAlen)

theorem handleRxInd_regular (regular : r.Regular) {nbuf : Nbuf}
    (form : encapsulation r.bytes r.nbuf r.headerLen = (mem, off))
    (pulled : r.nbuf.pull off = nbuf) :
    handleRxInd r = some (r.headed mem nbuf.data, nbuf) := by
  simp only [handleRxInd, regular.data, regular.known, regular.carries, regular.single,
    getHdrlen_data regular.data, form, pulled, getMacAddrs_eq, RxInd.headed, RxInd.ds,
    Bool.not_true, Bool.false_eq_true, if_false]

theorem handleRxInd_eq (regular : r.Regular) {off : Nat}
    (form : encapsulation r.bytes r.nbuf r.headerLen = (mem, off))
    (nbuf : r.nbuf = ⟨0, l⟩) (le : off ≤ l) :
    handleRxInd r = some (r.headed mem off, ⟨off, l - off⟩) := by
  have pulled : r.nbuf.pull off = ⟨off, l - off⟩ := by
    simp only [nbuf, Nbuf.pull, if_pos le, Nat.zero_add]
  exact handleRxInd_regular regular form pulled

/-- SA is read after the length was written. -/
theorem source_spoilt_iff (r : RxInd) (lengthed : ¬ Encapsulated r.payload) :
    slice (store r.bytes (r.headerLen - 2) (htons r.payload.length)) (source r.ds) ethAlen =
      slice r.bytes (source r.ds) ethAlen ↔ ¬ r.SourceSpoilt := by
  obtain beside | ⟨four, noQos, noRsc, head⟩ := source_beside r
  · have same : slice (store r.bytes (r.headerLen - 2) (htons r.payload.length)) (source r.ds)
        ethAlen = slice r.bytes (source r.ds) ethAlen := slice_store_of_disjoint (.inl (by omega))
    refine iff_of_true same ?_
    rintro ⟨four, noQos, noRsc, -, -⟩
    simp only [RxInd.headerLen, four, noQos, noRsc, if_true] at beside
    revert beside
    decide
  have source : source r.ds = addr4 := by rw [four]; rfl
  have parts : ethAlen = 4 + 2 := rfl
  have last : r.headerLen - 2 = addr4 + 4 := by rw [head]; rfl
  rw [source, parts, slice_append, slice_append, last, slice_store (l := 2) rfl,
    slice_store_of_disjoint (.inl le_rfl), List.append_cancel_left_eq]
  constructor
  · exact fun same spoilt => spoilt.2.2.2.2 same.symm
  · intro kept
    by_contra changed
    exact kept ⟨four, noQos, noRsc, lengthed, fun same => changed same.symm⟩

/-- `handle_rx_ind` makes the frame that an indication stands for, unless it spoils SA. -/
theorem ethernet_converted (r : RxInd) (regular : r.Regular) (room : 8 ≤ r.payload.length) :
    ∃ mem nbuf, handleRxInd r = some (mem, nbuf) ∧
      (slice mem nbuf.data nbuf.len = r.ethernet ↔ ¬ r.SourceSpoilt) := by
  have low := headerLen_ge r
  obtain ⟨n, len⟩ : ∃ n, n = r.msdulen.toNat - 4 := ⟨_, rfl⟩
  have payload : slice r.bytes r.headerLen (n - r.headerLen) = r.payload := by
    rw [len]
    rfl
  have fits : r.headerLen + 8 ≤ n := by
    rw [← payload, slice_length] at room
    omega
  have nbuf : r.nbuf = ⟨0, n⟩ := by
    rw [nbuf_eq (by omega), len]
  have form := encapsulation_eq r.bytes r.headerLen (show 8 ≤ n - r.headerLen by omega) r.nbuf
    (by rw [nbuf])
  rw [payload] at form
  by_cases shed : Encapsulated r.payload
  · have shrunk : decapsulate r.bytes r.headerLen = (r.bytes, r.headerLen - 6) := rfl
    rw [if_pos shed, shrunk] at form
    refine ⟨_, _, handleRxInd_eq regular form nbuf (by omega), ?_⟩
    refine iff_of_true ?_ fun spoilt => spoilt.2.2.2.1 shed
    simp only [RxInd.headed, decapsulated_bytes (show 6 ≤ r.headerLen by omega) fits, payload,
      RxInd.ethernet, typeAndPayload, if_pos shed]
  · have written : convert r.bytes r.nbuf r.headerLen =
        (store r.bytes (r.headerLen - 2) (htons r.payload.length), r.headerLen - 14) := by
      have length : r.payload.length = n - r.headerLen := by rw [← payload, slice_length]
      simp only [convert, nbuf, length, ethhdrSize, macsSize, Prod.mk.injEq, and_true]
      congr 1
      · omega
      · congr 1
        omega
    rw [if_neg shed, written] at form
    refine ⟨_, _, handleRxInd_eq regular form nbuf (by omega), ?_⟩
    have beside : slice (store r.bytes (r.headerLen - 2) (htons r.payload.length))
        (destination r.ds) ethAlen = slice r.bytes (destination r.ds) ethAlen := by
      have third := destination_le r.ds
      simp only [addr3, addr2, addr1] at third
      refine slice_store_of_disjoint (.inl ?_)
      simp only [ethAlen]
      omega
    rw [← source_spoilt_iff r shed, RxInd.headed]
    have two : (htons r.payload.length).length = 2 := rfl
    rw [lengthed_bytes two (by omega) (show r.headerLen ≤ n by omega) _ rfl, payload, beside]
    simp only [RxInd.ethernet, typeAndPayload, if_neg shed, List.append_cancel_left_eq,
      List.append_cancel_right_eq]

/-- A QoS frame from the AP to its station, under CCMP, with an IP packet behind LLC and SNAP. -/
def qosFrame : RxInd where
  bytes :=
    let frame : List UInt8 := [0x88, 0x02, 0, 0] ++ [2, 0, 0, 0, 0, 1] ++ [2, 0, 0, 0, 0, 2] ++
      [2, 0, 0, 0, 0, 3] ++ [0x10, 0] ++ [0, 0] ++ [1, 0, 0, 0x20, 0, 0, 0, 0] ++
      [0xAA, 0xAA, 0x03, 0, 0, 0, 0x08, 0, 0x45, 0]
    (frame.getD · 0)
  msdulen := 48
  macAddr := [2, 0, 0, 0, 0, 1]
  srcSta := some .ccmp
  groupCipher := .none

theorem ethernet_converted_qosFrame : ∃ mem nbuf, handleRxInd qosFrame = some (mem, nbuf) ∧
    slice mem nbuf.data nbuf.len =
      [2, 0, 0, 0, 0, 1, 2, 0, 0, 0, 0, 3, 0x08, 0, 0x45, 0] := by
  have regular : qosFrame.Regular := by constructor <;> decide
  have kept : ¬ qosFrame.SourceSpoilt := fun spoilt => absurd spoilt.1 (by decide)
  obtain ⟨mem, nbuf, made, right⟩ := ethernet_converted qosFrame regular (by decide)
  exact ⟨mem, nbuf, made, (right.2 kept).trans (by decide)⟩

/-- A frame with four addresses and a payload of eight bytes, which is no LLC header, in the
clear. -/
def wdsFrame : RxInd where
  bytes j := if j = 0 then 0x08 else if j = 1 then 0x03 else 0x11
  msdulen := 42
  macAddr := [0, 0, 0, 0, 0, 0]
  srcSta := some .none
  groupCipher := .none

theorem wdsFrame_regular : wdsFrame.Regular := by
  constructor <;> decide

/-- The end of its SA is the length of its payload. -/
theorem ethernet_not_converted :
    ¬ ∀ r : RxInd, r.Regular → 8 ≤ r.payload.length →
      ∃ mem nbuf, handleRxInd r = some (mem, nbuf) ∧ slice mem nbuf.data nbuf.len = r.ethernet := by
  intro all
  obtain ⟨mem, nbuf, made, same⟩ := all wdsFrame wdsFrame_regular (by decide)
  have bytes : (handleRxInd wdsFrame).map (fun w => slice w.1 w.2.data w.2.len) ≠
      some wdsFrame.ethernet := by decide
  rw [made, Option.map_some, same] at bytes
  exact bytes rfl

end Wave300.Rx
