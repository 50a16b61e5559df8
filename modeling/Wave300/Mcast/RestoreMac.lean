import Wave300.Lib.Endian
import Wave300.Lib.Memory
import Wave300.Mcast.Messages

/-!
# The address of a multicast frame

An access point sends a multicast frame to the stations of its group one by one. The station that
receives it puts back the address that the frame had, which it finds from the IP address.
-/

namespace Wave300.Mcast

open Lib

/-! ## How a host reads a frame -/

/-- A word of a frame, as it is read. -/
def loadWord (e : Endian) (frame : Memory) (off : Nat) : UInt32 :=
  UInt32.ofNat (e.load (slice frame off 4))

def hostNtohl (e : Endian) (w : UInt32) : UInt32 := UInt32.ofNat (e.ntoh 4 w.toNat)

def hProto (e : Endian) (frame : Memory) : Nat := e.ntoh 2 (e.load (slice frame 12 2))

/-- `in6_u.u6_addr8` -/
def Ip6.u6Addr8 (e : Endian) (addr : Ip6) : List UInt8 :=
  e.bytes 4 addr.word0.toNat ++ e.bytes 4 addr.word1.toNat ++ e.bytes 4 addr.word2.toNat ++
    e.bytes 4 addr.word3.toNat

/-- The tests that the kernel has for an address, which it is given as it lies in memory. -/
structure Kernel where
  ipv4IsMulticast : UInt32 → Bool
  ipv4IsLocalMulticast : UInt32 → Bool
  ipv6AddrIsMulticast : List UInt8 → Bool

/-! ## The code -/

def restoreIp4 (e : Endian) (k : Kernel) (frame : Memory) : Memory :=
  let daddr := loadWord e frame 30
  if !k.ipv4IsMulticast daddr || k.ipv4IsLocalMulticast daddr then frame
  else
    let sAddr := hostNtohl e daddr
    store frame 0 [0x01, 0x00, 0x5E, ((sAddr >>> 16) &&& 0x7F).toUInt8,
      ((sAddr >>> 8) &&& 0xFF).toUInt8, (sAddr &&& 0xFF).toUInt8]

def restoreIp6 (e : Endian) (k : Kernel) (frame : Memory) : Memory :=
  -- the comment of the source says "not multicast"
  if k.ipv6AddrIsMulticast (slice frame 38 16) then frame
  else
    let ipAddr : Ip6 :=
      ⟨hostNtohl e (loadWord e frame 38), hostNtohl e (loadWord e frame 42),
        hostNtohl e (loadWord e frame 46), hostNtohl e (loadWord e frame 50)⟩
    if ipAddr.word0 &&& 0xFF0F0000 = 0xFF020000 then frame
    else store frame 0 ([0x33, 0x33] ++ ((ipAddr.u6Addr8 e).drop 12).take 4)

/-- `mtlk_mc_restore_mac` -/
def mcRestoreMac (e : Endian) (k : Kernel) (frame : Memory) : Memory :=
  if hProto e frame = 0x0800 then restoreIp4 e k frame
  else if hProto e frame = 0x86DD then restoreIp6 e k frame
  else frame

/-! ## What it is for -/

/-- 224.0.0.0/4 -/
def Multicast4 (addr : UInt32) : Prop := addr &&& 0xF0000000 = 0xE0000000

/-- FF00::/8 -/
def Multicast6 (addr : Ip6) : Prop := addr.word0 &&& 0xFF000000 = 0xFF000000

instance (addr : UInt32) : Decidable (Multicast4 addr) := inferInstanceAs (Decidable (_ = _))

instance (addr : Ip6) : Decidable (Multicast6 addr) := inferInstanceAs (Decidable (_ = _))

/-- What the documentation of the kernel says of its tests. -/
structure Kernel.Documented (e : Endian) (k : Kernel) : Prop where
  multicast4 : ∀ frame off,
    k.ipv4IsMulticast (loadWord e frame off) ↔ Multicast4 (ntohl frame off)
  localMulticast4 : ∀ frame off,
    k.ipv4IsLocalMulticast (loadWord e frame off) ↔ ip4.linkLocal (ntohl frame off)
  multicast6 : ∀ frame off,
    k.ipv6AddrIsMulticast (slice frame off 16) ↔ Multicast6 (ip6.read frame off)

/-- The IP address that a frame is sent to. -/
inductive Destination where
  | ip4 (addr : UInt32)
  | ip6 (addr : Ip6)
  | other

/-- The address, if the frame holds it. -/
def destination (frame : Memory) (len : Nat) : Destination :=
  if ntohs frame 12 = 0x0800 ∧ 34 ≤ len then .ip4 (ntohl frame 30)
  else if ntohs frame 12 = 0x86DD ∧ 54 ≤ len then .ip6 (ip6.read frame 38)
  else .other

/-- A group of IPv4 that an access point sends to its stations one by one. -/
def Reliable4 (addr : UInt32) : Prop := Multicast4 addr ∧ ¬ip4.linkLocal addr

/-- A group of IPv6 that an access point sends to its stations one by one. -/
def Reliable6 (addr : Ip6) : Prop := Multicast6 addr ∧ ¬ip6.linkLocal addr

instance (addr : UInt32) : Decidable (Reliable4 addr) := inferInstanceAs (Decidable (_ ∧ _))

instance (addr : Ip6) : Decidable (Reliable6 addr) := inferInstanceAs (Decidable (_ ∧ _))

/-- 01:00:5E and the low 23 bits -/
def groupMac4 (addr : UInt32) : List UInt8 := toBytes 6 (0x01005E000000 + addr.toNat % 2 ^ 23)

/-- 33:33 and the last four bytes -/
def groupMac6 (addr : Ip6) : List UInt8 := [0x33, 0x33] ++ toBytes 4 addr.word3.toNat

def mac (frame : Memory) : List UInt8 := slice frame 0 6

/-- The standard mapping -/
def Destination.groupMac : Destination → Option (List UInt8)
  | .ip4 addr => if Reliable4 addr then some (groupMac4 addr) else none
  | .ip6 addr => if Reliable6 addr then some (groupMac6 addr) else none
  | .other => none

/-- The address that a frame should have at the station. -/
def properMac (frame : Memory) (len : Nat) : List UInt8 :=
  (destination frame len).groupMac.getD (mac frame)

/-! ## Words of the network -/

theorem hostNtohl_loadWord (e : Endian) (frame : Memory) (off : Nat) :
    hostNtohl e (loadWord e frame off) = ntohl frame off := by
  have less := e.load_lt (slice frame off 4)
  rw [slice_length] at less
  have word : (loadWord e frame off).toNat = e.load (slice frame off 4) :=
    UInt32.toNat_ofNat_of_lt' less
  have read := e.ntoh_load (slice frame off 4)
  rw [slice_length] at read
  rw [hostNtohl, word, read]
  rfl

theorem hProto_eq (e : Endian) (frame : Memory) : hProto e frame = ntohs frame 12 := by
  have read := e.ntoh_load (slice frame 12 2)
  rw [slice_length] at read
  exact read

/-- The last four bytes of an address, as they lie in `u6_addr8`. -/
theorem u6Addr8_last (e : Endian) (addr : Ip6) :
    ((addr.u6Addr8 e).drop 12).take 4 = e.bytes 4 addr.word3.toNat := by
  have long : (e.bytes 4 addr.word0.toNat ++ e.bytes 4 addr.word1.toNat ++
      e.bytes 4 addr.word2.toNat).length = 12 := by simp
  rw [Ip6.u6Addr8, List.drop_left' long]
  exact List.take_of_length_le (e.length_bytes 4 _).le

theorem toNat_and_low (w : UInt32) (shift bits : UInt32) (n : Nat) (low : bits.toNat = 2 ^ n - 1) :
    ((w >>> shift) &&& bits).toNat = w.toNat / 2 ^ (shift.toNat % 32) % 2 ^ n := by
  rw [UInt32.toNat_and, low, Nat.and_two_pow_sub_one_eq_mod, UInt32.toNat_shiftRight,
    Nat.shiftRight_eq_div_pow]

/-- The bytes that are written for an IPv4 address. -/
theorem groupMac4_eq (addr : UInt32) :
    groupMac4 addr = ([0x01, 0x00, 0x5E, ((addr >>> 16) &&& 0x7F).toUInt8,
      ((addr >>> 8) &&& 0xFF).toUInt8, (addr &&& 0xFF).toUInt8] : List UInt8) := by
  have high : ((addr >>> 16) &&& 0x7F).toNat = addr.toNat / 2 ^ 16 % 2 ^ 7 :=
    toNat_and_low addr 16 0x7F 7 rfl
  have middle : ((addr >>> 8) &&& 0xFF).toNat = addr.toNat / 2 ^ 8 % 2 ^ 8 :=
    toNat_and_low addr 8 0xFF 8 rfl
  have low : (addr &&& 0xFF).toNat = addr.toNat % 2 ^ 8 := by
    rw [UInt32.toNat_and]
    exact Nat.and_two_pow_sub_one_eq_mod addr.toNat 8
  have less := addr.toNat_lt
  simp only [groupMac4, toBytes, List.nil_append, List.cons_append, List.cons.injEq, and_true,
    ← UInt8.toNat_inj, UInt8.toNat_ofNat', UInt32.toNat_toUInt8, high, middle, low]
  have base : UInt8.toNat 0x5E = 0x5E := rfl
  rw [UInt8.toNat_one, base, UInt8.toNat_zero]
  omega

theorem linkLocal_multicast6 {addr : Ip6} (near : ip6.linkLocal addr) : Multicast6 addr := by
  have masked : addr.word0 &&& 0xFF0F0000 = 0xFF020000 := of_decide_eq_true near
  calc addr.word0 &&& 0xFF000000 = (addr.word0 &&& 0xFF0F0000) &&& 0xFF000000 := by
        rw [UInt32.and_assoc]
        rfl
    _ = 0xFF000000 := by rw [masked]; rfl

theorem ip6_read_last (frame : Memory) :
    (ip6.read frame 38).word3.toNat = ofBytes (slice frame 50 4) := by
  have less := ofBytes_lt (slice frame 50 4)
  rw [slice_length] at less
  exact UInt32.toNat_ofNat_of_lt' less

/-! ## What becomes of the address -/

theorem mac_store {bytes : List UInt8} (frame : Memory) (long : bytes.length = 6) :
    mac (store frame 0 bytes) = bytes := slice_store long

section Families
variable {e : Endian} {k : Kernel} (doc : k.Documented e) (frame : Memory)
include doc

theorem restoreIp4_mac : mac (restoreIp4 e k frame) =
    if Reliable4 (ntohl frame 30) then groupMac4 (ntohl frame 30)
    else mac frame := by
  have multicast := doc.multicast4 frame 30
  have near := doc.localMulticast4 frame 30
  simp only [restoreIp4, hostNtohl_loadWord]
  by_cases group : Reliable4 (ntohl frame 30)
  · have passes : (!k.ipv4IsMulticast (loadWord e frame 30) ||
        k.ipv4IsLocalMulticast (loadWord e frame 30)) = false := by
      rw [multicast.2 group.1, Bool.eq_false_iff.2 fun h => group.2 (near.1 h)]
      rfl
    rw [passes, if_pos group, groupMac4_eq]
    exact mac_store frame rfl
  · have returns : (!k.ipv4IsMulticast (loadWord e frame 30) ||
        k.ipv4IsLocalMulticast (loadWord e frame 30)) = true := by
      rw [Bool.or_eq_true, Bool.not_eq_true', ← Bool.not_eq_true, multicast, near]
      exact or_iff_not_imp_left.2 fun group' => by_contra fun far =>
        group ⟨not_not.1 group', far⟩
    rw [returns, if_neg group, if_pos rfl]

/-- The address of a group is left as it is, and that of a station is overwritten. -/
theorem restoreIp6_mac : mac (restoreIp6 e k frame) =
    if Multicast6 (ip6.read frame 38) then mac frame
    else [0x33, 0x33] ++ e.arrange (slice frame 50 4) := by
  simp only [restoreIp6, hostNtohl_loadWord]
  by_cases group : Multicast6 (ip6.read frame 38)
  · rw [(doc.multicast6 frame 38).2 group, if_pos rfl, if_pos group]
  · have passes : k.ipv6AddrIsMulticast (slice frame 38 16) = false :=
      Bool.eq_false_iff.2 fun h => group ((doc.multicast6 frame 38).1 h)
    have far : ¬ntohl frame 38 &&& 0xFF0F0000 = 0xFF020000 :=
      fun near => group (linkLocal_multicast6 (decide_eq_true near))
    have last : e.bytes 4 (ip6.read frame 38).word3.toNat = e.arrange (slice frame 50 4) := by
      rw [ip6_read_last, ← e.bytes_ofBytes, slice_length]
    rw [passes, if_neg group, if_neg Bool.false_ne_true, if_neg far, u6Addr8_last]
    rw [← last]
    exact mac_store frame (by simp)

end Families

/-- Nothing of a frame but its address changes. -/
theorem mcRestoreMac_changesIn (e : Endian) (k : Kernel) (frame : Memory) :
    ChangesIn [(0, 6)] frame (mcRestoreMac e k frame) := by
  have same := ChangesIn.refl [(0, 6)] frame
  have word : ∀ addr : Ip6, (((addr.u6Addr8 e).drop 12).take 4).length = 4 := by
    intro addr
    rw [u6Addr8_last, e.length_bytes]
  rw [mcRestoreMac]
  split
  case isTrue =>
    simp only [restoreIp4]
    split
    case isTrue => exact same
    case isFalse => exact store_changesIn (List.mem_singleton.2 rfl)
  case isFalse =>
    split
    case isFalse => exact same
    case isTrue =>
      simp only [restoreIp6]
      split
      case isTrue => exact same
      case isFalse =>
        split
        case isTrue => exact same
        case isFalse =>
          apply store_changesIn
          rw [List.length_append, word]
          exact List.mem_singleton.2 rfl

/-! ## When the address is the proper one -/

variable {e : Endian} {k : Kernel} {frame : Memory} {len : Nat}

/-- The station ends up with the address that it should have. -/
def Restores (e : Endian) (k : Kernel) (frame : Memory) (len : Nat) : Prop :=
  mac (mcRestoreMac e k frame) = properMac frame len

instance : Decidable (Restores e k frame len) := inferInstanceAs (Decidable (_ = _))

/-- A frame has the right address from the start where the code goes wrong: it reads an IPv4
address behind the end of a frame, leaves an IPv6 group as it is and writes over the address of a
station. -/
structure ProperBefore (e : Endian) (frame : Memory) (len : Nat) : Prop where
  short4 : ntohs frame 12 = 0x0800 → len < 34 → Reliable4 (ntohl frame 30) →
    mac frame = groupMac4 (ntohl frame 30)
  group6 : ntohs frame 12 = 0x86DD → 54 ≤ len → Reliable6 (ip6.read frame 38) →
    mac frame = groupMac6 (ip6.read frame 38)
  station6 : ntohs frame 12 = 0x86DD → ¬Multicast6 (ip6.read frame 38) →
    mac frame = [0x33, 0x33] ++ e.arrange (slice frame 50 4)

theorem properMac_ip4 (type : ntohs frame 12 = 0x0800) : properMac frame len =
    if 34 ≤ len ∧ Reliable4 (ntohl frame 30) then groupMac4 (ntohl frame 30) else mac frame := by
  have other : ¬ntohs frame 12 = 0x86DD := by rw [type]; decide
  rw [properMac, destination]
  by_cases long : 34 ≤ len
  · rw [if_pos ⟨type, long⟩, Destination.groupMac]
    by_cases group : Reliable4 (ntohl frame 30)
    · rw [if_pos group, if_pos ⟨long, group⟩, Option.getD_some]
    · rw [if_neg group, if_neg fun h => group h.2, Option.getD_none]
  · rw [if_neg fun h => long h.2, if_neg fun h => other h.1, if_neg fun h => long h.1]
    rfl

theorem properMac_ip6 (type : ntohs frame 12 = 0x86DD) : properMac frame len =
    if 54 ≤ len ∧ Reliable6 (ip6.read frame 38) then groupMac6 (ip6.read frame 38)
    else mac frame := by
  have other : ¬ntohs frame 12 = 0x0800 := by rw [type]; decide
  rw [properMac, destination, if_neg fun h => other h.1]
  by_cases long : 54 ≤ len
  · rw [if_pos ⟨type, long⟩, Destination.groupMac]
    by_cases group : Reliable6 (ip6.read frame 38)
    · rw [if_pos group, if_pos ⟨long, group⟩, Option.getD_some]
    · rw [if_neg group, if_neg fun h => group h.2, Option.getD_none]
  · rw [if_neg fun h => long h.2, if_neg fun h => long h.1]
    rfl

theorem restores_ip4 (doc : k.Documented e) (type : ntohs frame 12 = 0x0800) :
    Restores e k frame len ↔
      (len < 34 → Reliable4 (ntohl frame 30) → mac frame = groupMac4 (ntohl frame 30)) := by
  rw [Restores, mcRestoreMac, hProto_eq, if_pos type, restoreIp4_mac doc, properMac_ip4 type]
  by_cases group : Reliable4 (ntohl frame 30)
  · rw [if_pos group]
    constructor
    · intro same short _
      rwa [if_neg fun h => absurd h.1 (Nat.not_le_of_lt short), eq_comm] at same
    · intro same
      split
      case isTrue => rfl
      case isFalse short =>
        exact (same (Nat.lt_of_not_le fun long => short ⟨long, group⟩) group).symm
  · rw [if_neg group, if_neg fun h => group h.2]
    exact iff_of_true rfl fun _ group' => absurd group' group

theorem restores_ip6 (doc : k.Documented e) (type : ntohs frame 12 = 0x86DD) :
    Restores e k frame len ↔
      (54 ≤ len → Reliable6 (ip6.read frame 38) → mac frame = groupMac6 (ip6.read frame 38)) ∧
      (¬Multicast6 (ip6.read frame 38) →
        mac frame = [0x33, 0x33] ++ e.arrange (slice frame 50 4)) := by
  have other : ¬ntohs frame 12 = 0x0800 := by rw [type]; decide
  rw [Restores, mcRestoreMac, hProto_eq, if_neg other, if_pos type, restoreIp6_mac doc,
    properMac_ip6 type]
  by_cases multicast : Multicast6 (ip6.read frame 38)
  · rw [if_pos multicast, and_iff_left fun station => absurd multicast station]
    constructor
    · intro same long group
      rwa [if_pos ⟨long, group⟩] at same
    · intro same
      split
      case isTrue group => exact same group.1 group.2
      case isFalse => rfl
  · have single : ¬(54 ≤ len ∧ Reliable6 (ip6.read frame 38)) := fun h => multicast h.2.1
    rw [if_neg multicast, if_neg single, eq_comm]
    constructor
    · exact fun same => ⟨fun _ group => absurd group.1 multicast, fun _ => same⟩
    · exact fun same => same.2 multicast

/-- The address is the proper one just when it was so before wherever the code goes wrong. -/
theorem restores_iff (doc : k.Documented e) :
    Restores e k frame len ↔ ProperBefore e frame len := by
  by_cases type4 : ntohs frame 12 = 0x0800
  · have other : ¬ntohs frame 12 = 0x86DD := by rw [type4]; decide
    rw [restores_ip4 doc type4]
    constructor
    · intro same
      constructor
      case short4 => exact fun _ => same
      case group6 => exact fun type => absurd type other
      case station6 => exact fun type => absurd type other
    · exact fun before => before.short4 type4
  · by_cases type6 : ntohs frame 12 = 0x86DD
    · rw [restores_ip6 doc type6]
      constructor
      · rintro ⟨group, station⟩
        constructor
        case short4 => exact fun type => absurd type type4
        case group6 => exact fun _ => group
        case station6 => exact fun _ => station
      · exact fun before => ⟨before.group6 type6, before.station6 type6⟩
    · constructor
      · intro _
        constructor
        case short4 => exact fun type => absurd type type4
        case group6 => exact fun type => absurd type type6
        case station6 => exact fun type => absurd type type6
      · intro _
        rw [Restores, mcRestoreMac, hProto_eq, if_neg type4, if_neg type6, properMac, destination,
          if_neg fun h => type4 h.1, if_neg fun h => type6 h.1]
        rfl

/-! ## A host -/

/-- The tests as masks of the address in the order of the host. -/
def masks (e : Endian) : Kernel where
  ipv4IsMulticast w := decide (Multicast4 (hostNtohl e w))
  ipv4IsLocalMulticast w := ip4.linkLocal (hostNtohl e w)
  ipv6AddrIsMulticast l := decide (Multicast6 (ip6.read (fun i => l.getD i 0) 0))

theorem masks_documented (e : Endian) : (masks e).Documented e := by
  constructor
  case multicast4 =>
    intro frame off
    dsimp only [masks]
    rw [hostNtohl_loadWord, decide_eq_true_iff]
  case localMulticast4 =>
    intro frame off
    dsimp only [masks]
    rw [hostNtohl_loadWord]
  case multicast6 =>
    intro frame off
    exact decide_eq_true_iff

/-- A frame to a station, behind the type of which there are a number of bytes and an address. -/
def frameTo (type : List UInt8) (skip : Nat) (addr : List UInt8) : Memory := fun i =>
  ([2, 2, 2, 2, 2, 2, 4, 4, 4, 4, 4, 4] ++ type ++ List.replicate skip 0 ++ addr).getD i 0

/-- To 239.1.2.3 -/
def frame4 : Memory := frameTo [0x08, 0x00] 16 [239, 1, 2, 3]

/-- To ff0e::102:304 -/
def frame6 : Memory :=
  frameTo [0x86, 0xDD] 24 [0xFF, 0x0E, 0, 0, 0, 0, 0, 0, 0, 0, 0, 0, 1, 2, 3, 4]

theorem restores_iff_frame4 : Restores .little (masks .little) frame4 34 := by
  apply (restores_iff (masks_documented .little)).2
  constructor
  case short4 => exact fun _ short => absurd short (by decide)
  case group6 => exact fun type => absurd type (by decide)
  case station6 => exact fun type => absurd type (by decide)

/-- The station keeps its own address in a frame to a group, whatever the order of its bytes. -/
theorem group6_not_restored : ¬Restores .little (masks .little) frame6 54 ∧
    ¬Restores .big (masks .big) frame6 54 := by decide

end Wave300.Mcast
