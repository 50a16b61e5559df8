import Wave300.Lib.BigEndian
import Wave300.Mcast.Groups

/-!
# IGMP and MLD messages

What a message asks for is read from memory, record by record, and done one after the other. The
reader does not know where the message ends, so memory has a byte everywhere.
-/

namespace Wave300.Mcast

open Lib
open Hstdb (Sta Addr)

abbrev Memory := Nat → UInt8

/-- `ntohs` of two bytes -/
def ntohs (mem : Memory) (off : Nat) : Nat :=
  ofBytes [mem off, mem (off + 1)]

/-- `ntohl` of four bytes -/
def ntohl (mem : Memory) (off : Nat) : UInt32 :=
  UInt32.ofNat (ofBytes [mem off, mem (off + 1), mem (off + 2), mem (off + 3)])

/-- `struct in6_addr`, the words in the order of the host. -/
structure Ip6 where
  word0 : UInt32
  word1 : UInt32
  word2 : UInt32
  word3 : UInt32
  deriving DecidableEq

/-- `MCAST_HASH` -/
def mcastHash (ip : UInt32) : Nat := (ip &&& 63).toNat

theorem mcastHash_lt (ip : UInt32) : mcastHash ip < 64 := by
  rw [mcastHash, UInt32.toNat_and]
  exact Nat.lt_succ_of_le Nat.and_le_right

/-- The link-local space is 224.0.0.0/24. -/
def ip4 : Family UInt32 where
  hash := mcastHash
  hash_lt := mcastHash_lt
  linkLocal g := g &&& 0xFFFFFF00 = 0xE0000000
  addrSize := 4
  read := ntohl

/-- The link-local space is FF02::/16. -/
def ip6 : Family Ip6 where
  hash g := mcastHash g.word3
  hash_lt g := mcastHash_lt g.word3
  linkLocal g := g.word0 &&& 0xFF0F0000 = 0xFF020000
  addrSize := 16
  read mem off := ⟨ntohl mem off, ntohl mem (off + 4), ntohl mem (off + 8), ntohl mem (off + 12)⟩

inductive Report (α : Type) where
  | join (g : α)
  | leave (g : α)
  deriving DecidableEq

section Records
variable {α : Type} (F : Family α)

/-- What one record of a version 3 report asks for, by `grec_type`: a station that includes no
source is removed, one that excludes some is added, and the rest is ignored. -/
def recordReport (mem : Memory) (off : Nat) : List (Report α) :=
  let srcNum := ntohs mem (off + 2)
  let group := F.read mem (off + 4)
  match (mem off).toNat with
  | 1 | 3 => if srcNum = 0 then [.leave group] else []
  | 2 | 4 => [.join group]
  | _ => []

/-- The loop over the records of a report -/
def recordReports (mem : Memory) : Nat → Nat → List (Report α)
  | 0, _ => []
  | left + 1, off =>
    let srcNum := ntohs mem (off + 2)
    let auxWords := (mem (off + 1)).toNat
    recordReport F mem off ++
      recordReports mem left (off + (4 + F.addrSize) + F.addrSize * srcNum + 4 * auxWords)

end Records

/-- What a message asks `parse_igmp` for, by `igmp_header->type`: the reports of versions 1 and 2,
the leave message and the report of version 3. -/
def igmpReports (mem : Memory) (off : Nat) : List (Report UInt32) :=
  match (mem off).toNat with
  | 0x12 | 0x16 => [.join (ntohl mem (off + 4))]
  | 0x17 => [.leave (ntohl mem (off + 4))]
  | 0x22 => recordReports ip4 mem (ntohs mem (off + 6)) (off + 8)
  | _ => []

/-- What a message asks `parse_icmp6` for, by `icmp6_header->icmp6_type`. -/
def icmp6Reports (mem : Memory) (off : Nat) : List (Report Ip6) :=
  match (mem off).toNat with
  | 131 => [.join (ip6.read mem (off + 8))]
  | 132 => [.leave (ip6.read mem (off + 8))]
  | 143 => recordReports ip6 mem (ntohs mem (off + 6)) (off + 8)
  | _ => []

def applyReport {α : Type} [DecidableEq α] (F : Family α) (s : Sta) (t : Table α) :
    Report α → Table α
  | .join g => addSta F t s g
  | .leave g => delSta F t s g

/-- `parse_igmp` -/
def parseIgmp (mem : Memory) (off : Nat) (s : Sta) (t : Table UInt32) : Table UInt32 :=
  (igmpReports mem off).foldl (applyReport ip4 s) t

/-- `parse_icmp6` -/
def parseIcmp6 (mem : Memory) (off : Nat) (s : Sta) (t : Table Ip6) : Table Ip6 :=
  (icmp6Reports mem off).foldl (applyReport ip6 s) t

/-- The kind of message `mtlk_mc_parse` finds in a frame, and where it starts: IGMP behind an IPv4
header, or MLD behind an IPv6 header and a hop-by-hop option with a router alert. -/
inductive Message where
  | igmp (off : Nat)
  | icmp6 (off : Nat)
  | other

def message (frame : Memory) : Message :=
  if ntohs frame 12 = 0x0800 then
    if frame (14 + 9) = 2 then .igmp (14 + 4 * (frame 14 &&& 15).toNat) else .other
  else if ntohs frame 12 = 0x86DD then
    if frame (14 + 6) = 0 ∧ ntohs frame (54 + 2) = 0x0502 ∧ ntohs frame (54 + 4) = 0 ∧
        frame 54 = 58 then
      .icmp6 (54 + 8 * ((frame 55).toNat + 1))
    else .other
  else .other

/-- `mcast_ctx` -/
structure Ctx where
  ip4Hash : Table UInt32
  ip6Hash : Table Ip6

/-- `mtlk_mc_parse` of an access point, of a frame that has a source station. -/
def mcParse (frame : Memory) (s : Sta) (mcast : Ctx) : Ctx :=
  match message frame with
  | .igmp off => { mcast with ip4Hash := parseIgmp frame off s mcast.ip4Hash }
  | .icmp6 off => { mcast with ip6Hash := parseIcmp6 frame off s mcast.ip6Hash }
  | .other => mcast

/-- `mtlk_mc_drop_sta` of an access point -/
def mcDropSta (mac : Addr) (mcast : Ctx) : Ctx where
  ip4Hash := dropSta ip4 mcast.ip4Hash mac
  ip6Hash := dropSta ip6 mcast.ip6Hash mac

end Wave300.Mcast
